import QueryHarvest.Proofs.Sql.Squeezing
import QueryHarvest.Proofs.Sql.Stripping

/-! # The shortcut past the scan for comments

A text without `--` and `/*` is collapsed as it stands, without a scan for comments. The scan knows one more
comment, and it closes gaps behind statements that have ended. These two are all that can make it come to
something else.
-/

namespace QueryHarvest.Sql

open Text

namespace Written

/-- What is read at a place. -/
def readAt (c : Cursor) : List Char :=
  c.rest.take (max 1 (lexemeAt c).length)

/-- The place behind what is read at a place. -/
def past (c : Cursor) : Cursor :=
  ⟨(readAt c).getLast?.or c.before, c.rest.drop (max 1 (lexemeAt c).length)⟩

/-- Write what is read at a place. -/
def step (w : Written) (c : Cursor) : Written :=
  if (lexemeAt c).isComment then w.replaceComment else w.keep (readAt c)

theorem writeFrom_step {c : Cursor} (filled : c.rest ≠ []) (w : Written) :
    w.writeFrom c = (w.step c).writeFrom (past c) := by
  rw [writeFrom, dif_neg (by simpa using filled)]
  rfl

theorem writeFrom_end {c : Cursor} (empty : c.rest = []) (w : Written) : w.writeFrom c = w := by
  rw [writeFrom, dif_pos (by simpa using empty)]

theorem readAt_append (c : Cursor) : readAt c ++ (past c).rest = c.rest :=
  List.take_append_drop ..

theorem length_past {c : Cursor} (filled : c.rest ≠ []) : (past c).rest.length < c.rest.length := by
  have := List.length_pos_iff.mpr filled
  rw [past, List.length_drop]
  omega

/-- The text goes on with a comment of the third kind, which is no hint. -/
def BeginsHash (text : List Char) : Prop :=
  ∃ rest, text = '#' :: ' ' :: rest ∧ rest.head? ≠ some '+'

theorem of_blockComment? {text : List Char} {length : Nat} (h : blockComment? text = some (false, length)) :
    2 ≤ length ∧ ∃ rest, text = '/' :: '*' :: rest := by
  unfold blockComment? at h
  split at h
  · simp at h
  · obtain ⟨n, -, same⟩ := Option.map_eq_some_iff.mp h
    cases same
    exact ⟨by omega, _, rfl⟩
  · cases h

theorem of_lineComment? {text : List Char} {length : Nat} (h : lineComment? text = some (false, length)) :
    2 ≤ length ∧ ((∃ rest, text = '-' :: '-' :: rest) ∨ BeginsHash text) := by
  unfold lineComment? at h
  split at h
  · simp only [Option.some.injEq, Prod.mk.injEq] at h
    exact ⟨by omega, .inl ⟨_, rfl⟩⟩
  · simp only [Option.some.injEq, Prod.mk.injEq, beq_eq_false_iff_ne] at h
    exact ⟨by omega, .inr ⟨_, rfl, h.1⟩⟩
  · cases h

theorem of_isComment {c : Cursor} (h : (lexemeAt c).isComment) : 2 ≤ (lexemeAt c).length ∧
    ((∃ rest, c.rest = '/' :: '*' :: rest) ∨ (∃ rest, c.rest = '-' :: '-' :: rest) ∨
      BeginsHash c.rest) := by
  unfold lexemeAt at h ⊢
  split at h
  · cases h
  · split at h
    · next hint length found =>
      have comment : hint = false := by simpa using h
      subst comment
      cases block : blockComment? c.rest with
      | some other =>
          rw [block] at found
          cases found
          obtain ⟨long, begins⟩ := of_blockComment? block
          exact ⟨long, .inl begins⟩
      | none =>
          rw [block] at found
          obtain ⟨long, begins⟩ := of_lineComment? found
          exact ⟨long, .inr begins⟩
    · cases h

theorem isComment_iff {c : Cursor} (unmarked : mayHoldComment c.rest = false) :
    (lexemeAt c).isComment ↔ BeginsHash c.rest := by
  have apart {mark : List Char} (known : mark = ['-', '-'] ∨ mark = ['/', '*']) (rest : List Char) :
      c.rest ≠ mark ++ rest := by
    intro begins
    rw [← Bool.not_eq_true, mayHoldComment_iff] at unmarked
    have inside : mark <:+: c.rest := ⟨[], rest, by simp [begins]⟩
    rcases known with rfl | rfl
    · exact unmarked (.inl inside)
    · exact unmarked (.inr inside)
  constructor
  · intro comment
    rcases (of_isComment comment).2 with ⟨rest, begins⟩ | ⟨rest, begins⟩ | hash
    · exact absurd begins (apart (.inr rfl) rest)
    · exact absurd begins (apart (.inl rfl) rest)
    · exact hash
  · rintro ⟨rest, begins, comment⟩
    have noTag : dollarTag? c.rest = none := by rw [begins]; rfl
    have found : (blockComment? c.rest <|> lineComment? c.rest) = some (false, lengthOfLine rest + 2) := by
      rw [begins]
      simp [blockComment?, lineComment?, comment]
    rw [lexemeAt, dollarBody?_eq_none noTag]
    simp [found]

/-- Blanks that are dropped behind a statement that has ended. -/
def isDropped (c : Char) : Bool :=
  isBlank c && c != '\r' && c != '\n'

theorem isBlank_of_isDropped {c : Char} (h : isDropped c) : isBlank c := by
  simp only [isDropped, Bool.and_eq_true] at h
  exact h.1.1

/-- A statement has ended only behind a semicolon. -/
def Marked (w : Written) : Prop :=
  w.ended → w.text.head? = some ';'

theorem keep_cases (w : Written) (piece : List Char) :
    (∃ b, piece = [b] ∧ isDropped b ∧ w.ended ∧ w.keep piece = w) ∨
      ((w.ended → ∀ b, piece = [b] → isDropped b = false) ∧
        (w.keep piece).text = piece.reverse ++ w.text ∧ (w.keep piece).Marked) := by
  unfold keep
  split
  · next b =>
    have dropped : (w.ended && isBlank b && b != '\r' && b != '\n') = (w.ended && isDropped b) := by
      simp [isDropped, Bool.and_assoc]
    rw [dropped]
    split
    · next both =>
      rw [Bool.and_eq_true] at both
      exact .inl ⟨b, rfl, both.2, both.1, rfl⟩
    · next other =>
      rw [Bool.and_eq_true, not_and, Bool.not_eq_true] at other
      refine .inr ⟨?_, rfl, fun ended => ?_⟩
      · rintro ended _ ⟨⟩
        exact other ended
      · rw [Bool.and_eq_true, beq_iff_eq] at ended
        rw [ended.1]
        rfl
  · next several =>
    refine .inr ⟨?_, rfl, nofun⟩
    rintro - b rfl
    exact absurd rfl (several b)

theorem keep_dropped {w : Written} {b : Char} (ended : w.ended) (dropped : isDropped b) :
    w.keep [b] = w := by
  rcases w.keep_cases [b] with ⟨-, -, -, -, same⟩ | ⟨other, -, -⟩
  · exact same
  · exact absurd dropped (Bool.eq_false_iff.mp (other ended b rfl))

theorem replaceComment_cases (w : Written) : w.replaceComment = w ∨
    w.replaceComment = { w with text := ' ' :: w.text } ∧ w.ended = false := by
  unfold Written.replaceComment
  split
  · exact .inl rfl
  · next going =>
    rw [Bool.or_eq_true, not_or, Bool.not_eq_true] at going
    exact .inr ⟨rfl, going.1⟩

theorem Marked.step {w : Written} (marked : w.Marked) (c : Cursor) : (w.step c).Marked := by
  unfold Written.step
  split
  · rcases w.replaceComment_cases with same | ⟨same, going⟩
    · rwa [same]
    · rw [same]
      intro ended
      rw [going] at ended
      contradiction
  · rcases w.keep_cases (readAt c) with ⟨-, -, -, -, same⟩ | ⟨-, -, marked⟩
    · rwa [same]
    · exact marked

section

variable {w : Written} {c : Cursor} {b : Char} {rest : List Char} (begins : c.rest = b :: rest)

include begins

theorem lexemeAt_of_blank (blank : isBlank b) : lexemeAt c = ⟨false, 1⟩ := by
  have same : c = ⟨c.before, b :: rest⟩ := by rw [← begins]
  rw [same, lexemeAt_blank blank]

theorem readAt_blank (blank : isBlank b) : readAt c = [b] := by
  rw [readAt, lexemeAt_of_blank begins blank, begins]
  rfl

theorem past_blank (blank : isBlank b) : (past c).rest = rest := by
  rw [past, lexemeAt_of_blank begins blank, begins]
  rfl

theorem step_blank (w : Written) (blank : isBlank b) : w.step c = w.keep [b] := by
  rw [step, lexemeAt_of_blank begins blank, readAt_blank begins blank]
  rfl

end

/-- What the text written so far comes to. -/
def squeezed (w : Written) : Squeezed :=
  .ofText w.text.reverse

open Squeezed

theorem readAt_comment {c : Cursor} (comment : (lexemeAt c).isComment) :
    ∃ x y more, readAt c = x :: y :: more ∧ isBlank x = false := by
  obtain ⟨long, begins⟩ := of_isComment comment
  have length : max 1 (lexemeAt c).length = (lexemeAt c).length - 2 + 2 := by omega
  rw [readAt, length]
  rcases begins with ⟨rest, begins⟩ | ⟨rest, begins⟩ | ⟨rest, begins, -⟩ <;> rw [begins]
  · exact ⟨_, _, _, rfl, rfl⟩
  · exact ⟨_, _, _, rfl, rfl⟩
  · exact ⟨_, _, _, rfl, rfl⟩

theorem comment_behind {n : Nat} {w : Written} {s : Squeezed} (h : Behind n w.squeezed s) {c : Cursor}
    (comment : (lexemeAt c).isComment) : Behind (n + 1) (w.step c).squeezed (s.addAll (readAt c)) := by
  obtain ⟨x, y, more, read, visible⟩ := readAt_comment comment
  have space : Behind 0 (w.step c).squeezed (w.squeezed.add ' ') := by
    rw [Written.step, if_pos comment]
    rcases w.replaceComment_cases with same | ⟨same, -⟩
    · rw [same]
      exact .grow _ [' ']
    · rw [same, squeezed, List.reverse_cons, ofText_concat]
      exact .refl _
  rw [read, show n + 1 = 0 + (n + 1) from (Nat.zero_add _).symm]
  exact space.trans ((h.add ' ').trans (.comment visible y more))

theorem step_behind {n : Nat} {w : Written} {s : Squeezed} (h : Behind n w.squeezed s) (c : Cursor) :
    Behind n (w.step c).squeezed (s.addAll (readAt c)) := by
  cases comment : (lexemeAt c).isComment with
  | true => exact (comment_behind h comment).weaken
  | false =>
      rw [Written.step, comment, if_neg Bool.false_ne_true]
      rcases w.keep_cases (readAt c) with ⟨-, -, -, -, same⟩ | ⟨-, written, -⟩
      · rw [same]
        exact h.trans (.grow s (readAt c))
      · rw [squeezed, written, List.reverse_append, List.reverse_reverse, ofText_append]
        exact h.addAll (readAt c)

theorem writeFrom_behind {n : Nat} {w : Written} {s : Squeezed} (h : Behind n w.squeezed s) (c : Cursor) :
    Behind n (w.writeFrom c).squeezed (s.addAll c.rest) := by
  by_cases filled : c.rest = []
  · rw [writeFrom_end filled, filled]
    exact h
  · have shorter := length_past filled
    rw [writeFrom_step filled, ← readAt_append c, addAll_append]
    exact writeFrom_behind (step_behind h c) (past c)
termination_by c.rest.length

end Written

open Written Squeezed

/-- The scan for comments comes to a place in the text, with so much written. -/
inductive Comes (text : List Char) : Written → Cursor → Prop where
  | start : Comes text {} (Cursor.start text)
  | step {w : Written} {c : Cursor} (here : Comes text w c) (filled : c.rest ≠ []) :
      Comes text (w.step c) (past c)

/-- Blanks on one line, and something visible directly behind them. -/
def BeginsGap (text : List Char) : Prop :=
  ∃ blanks x rest, text = blanks ++ x :: rest ∧ blanks ≠ [] ∧ blanks.all isDropped ∧
    isBlank x = false

/-- The text is left as it is, up to blanks: the scan comes to no comment, and closes no gap behind a
statement that has ended. -/
def Untouched (text : List Char) : Prop :=
  ∀ w c, Comes text w c → ¬ (lexemeAt c).isComment ∧ (w.ended → ¬ BeginsGap c.rest)

namespace Comes

variable {text : List Char} {w : Written} {c : Cursor}

theorem marked (h : Comes text w c) : w.Marked := by
  induction h with
  | start => exact nofun
  | step _ _ ih => exact ih.step _

theorem behind (h : Comes text w c) :
    ∃ read, read ++ c.rest = text ∧ Behind 0 w.squeezed (ofText read) := by
  induction h with
  | start => exact ⟨[], rfl, .refl _⟩
  | @step w c _ _ ih =>
      obtain ⟨read, whole, behind⟩ := ih
      refine ⟨read ++ readAt c, ?_, ?_⟩
      · rw [List.append_assoc, readAt_append, whole]
      · rw [ofText_append]
        exact step_behind behind c

/-- Nothing but spaces is written that is not read. -/
theorem mem (h : Comes text w c) : ∀ x ∈ w.text, x = ' ' ∨ x ∈ text := by
  induction h with
  | start => exact nofun
  | @step w c here _ ih =>
      intro x member
      rw [Written.step] at member
      split at member
      · rcases w.replaceComment_cases with same | ⟨same, -⟩ <;> rw [same] at member
        · exact ih x member
        · exact (List.mem_cons.mp member).elim .inl (ih x)
      · rcases w.keep_cases (readAt c) with ⟨-, -, -, -, same⟩ | ⟨-, same, -⟩ <;> rw [same] at member
        · exact ih x member
        · rcases List.mem_append.mp member with now | earlier
          · obtain ⟨read, whole, -⟩ := here.behind
            refine .inr (whole ▸ List.mem_append_right read ?_)
            rw [← readAt_append c]
            exact List.mem_append_left _ (List.mem_reverse.mp now)
          · exact ih x earlier

theorem writeFrom_eq (h : Comes text w c) : stripComments text = (w.writeFrom c).text.reverse := by
  induction h with
  | start => rfl
  | step _ filled ih => rw [ih, writeFrom_step filled]

theorem ends {w : Written} {c : Cursor} (h : Comes text w c) :
    ∃ w' c', Comes text w' c' ∧ c'.rest = [] := by
  by_cases filled : c.rest = []
  · exact ⟨w, c, h, filled⟩
  · have shorter := length_past filled
    exact (h.step filled).ends
termination_by c.rest.length

/-- Blanks behind a statement that has ended are passed over one by one. -/
theorem past_blanks {blanks rest : List Char} (h : Comes text w c) (ended : w.ended)
    (begins : c.rest = blanks ++ rest) (dropped : blanks.all isDropped) :
    ∃ c', Comes text w c' ∧ c'.rest = rest := by
  induction blanks generalizing c with
  | nil => exact ⟨c, h, begins⟩
  | cons b blanks ih =>
      rw [List.all_cons, Bool.and_eq_true] at dropped
      have blank := isBlank_of_isDropped dropped.1
      have next := h.step (by rw [begins]; exact List.cons_ne_nil _ _)
      rw [step_blank begins w blank, keep_dropped ended dropped.1] at next
      exact ih next (past_blank begins blank) dropped.2

end Comes

section

variable {text : List Char} {w : Written} {c : Cursor}

/-- From a place on at which less has been written than read, less is written than is read. -/
theorem Comes.shorter (h : Comes text w c) (read : List Char) (whole : read ++ c.rest = text)
    (behind : Behind 1 w.squeezed (ofText read)) :
    (ofText (stripComments text)).text.length < (ofText text).text.length := by
  have final := writeFrom_behind behind c
  rw [← ofText_append, whole, squeezed, ← h.writeFrom_eq] at final
  exact final.text

theorem shorter_of_comment (h : Comes text w c) (comment : (lexemeAt c).isComment) :
    (ofText (stripComments text)).text.length < (ofText text).text.length := by
  obtain ⟨read, whole, behind⟩ := h.behind
  have filled : c.rest ≠ [] := by
    rintro empty
    obtain ⟨x, y, more, front, -⟩ := readAt_comment comment
    rw [← readAt_append c, front] at empty
    cases empty
  refine (h.step filled).shorter (read ++ readAt c) ?_ ?_
  · rw [List.append_assoc, readAt_append, whole]
  · rw [ofText_append]
    exact comment_behind behind comment

/-- Behind a statement that has ended no space is held back. -/
theorem Written.Marked.filled {w : Written} (marked : w.Marked) (ended : w.ended) :
    w.squeezed.held = false ∧ w.squeezed.text ≠ [] := by
  obtain ⟨more, last⟩ := List.head?_eq_some_iff.mp (marked ended)
  rw [squeezed, last, List.reverse_cons, ofText_concat, add_visible (by decide)]
  exact ⟨rfl, List.cons_ne_nil _ _⟩

theorem shorter_of_gap (h : Comes text w c) (ended : w.ended) (gap : BeginsGap c.rest) :
    (ofText (stripComments text)).text.length < (ofText text).text.length := by
  obtain ⟨blanks, x, rest, begins, nonempty, dropped, visible⟩ := gap
  obtain ⟨c', there, front⟩ := h.past_blanks ended begins dropped
  cases comment : (lexemeAt c').isComment with
  | true => exact shorter_of_comment there comment
  | false =>
      obtain ⟨read, whole, behind⟩ := h.behind
      obtain ⟨closed, filled⟩ := h.marked.filled ended
      have filled' : c'.rest ≠ [] := by rw [front]; exact List.cons_ne_nil x rest
      obtain ⟨more, kept⟩ : ∃ more, readAt c' = x :: more := by
        rw [readAt, front]
        have := Nat.le_max_left 1 (lexemeAt c').length
        obtain ⟨n, same⟩ := Nat.exists_eq_add_of_le' this
        exact ⟨rest.take n, by rw [same]; rfl⟩
      refine (there.step filled').shorter (read ++ blanks ++ readAt c') ?_ ?_
      · rw [List.append_assoc, readAt_append, front, List.append_assoc, ← begins, whole]
      · have written : (w.step c').squeezed = (w.squeezed.add x).addAll more := by
          rw [Written.step, comment, if_neg Bool.false_ne_true, kept]
          rcases w.keep_cases (x :: more) with ⟨b, single, dropped', -, -⟩ | ⟨-, same, -⟩
          · cases single
            rw [isBlank_of_isDropped dropped'] at visible
            contradiction
          · rw [squeezed, same, List.reverse_append, List.reverse_reverse, ofText_append]
            rfl
        have filled : (ofText read).text ≠ [] := by
          have := behind.text
          have := List.length_pos_iff.mpr filled
          exact List.ne_nil_of_length_pos (by omega)
        have held := addAll_blanks filled nonempty fun b member =>
          isBlank_of_isDropped (List.all_eq_true.mp dropped b member)
        rw [written, ofText_append, ofText_append, kept, held]
        exact (behind.gap closed visible).addAll more

/-- So far the same has come of what is written and of what is read, but for a space that is held back where
nothing visible is going to follow on the line. -/
inductive Level (w : Written) (c : Cursor) (read : List Char) : Prop where
  | same (same : w.squeezed = ofText read)
  | held (ended : w.ended) (same : w.squeezed.text = (ofText read).text)
      (last : ∀ blanks x rest, c.rest = blanks ++ x :: rest → blanks.all isDropped → isBlank x)

theorem Level.text_eq {read : List Char} (h : Level w c read) : w.squeezed.text = (ofText read).text := by
  cases h with
  | same same => rw [same]
  | held _ same => exact same

theorem Level.step {read : List Char} (marked : w.Marked) (h : Level w c read)
    (kept : (lexemeAt c).isComment = false) (whole : w.ended → ¬ BeginsGap c.rest)
    (filled : c.rest ≠ []) :
    Level (w.step c) (past c) (read ++ readAt c) := by
  rw [Written.step, kept, if_neg Bool.false_ne_true]
  cases h with
  | same same =>
      rcases w.keep_cases (readAt c) with ⟨b, single, dropped, ended, unchanged⟩ | ⟨-, written, -⟩
      · have begins : c.rest = b :: (past c).rest := by rw [← readAt_append c, single]; rfl
        have blank := isBlank_of_isDropped dropped
        rw [unchanged, single]
        refine .held ended ?_ fun blanks x rest further others => ?_
        · rw [ofText_concat, add_blank blank, same]
        · rw [further] at begins
          by_contra visible
          refine whole ended ⟨b :: blanks, x, rest, begins, List.cons_ne_nil b blanks, ?_, ?_⟩
          · rw [List.all_cons, dropped, others, Bool.and_self]
          · exact Bool.eq_false_iff.mpr visible
      · refine .same ?_
        rw [squeezed, written, List.reverse_append, List.reverse_reverse, ofText_append, ← squeezed, same,
          ofText_append]
  | held ended same last =>
      obtain ⟨b, rest, begins⟩ := List.exists_cons_of_ne_nil filled
      have blank := last [] b rest begins rfl
      have single := readAt_blank begins blank
      obtain ⟨-, nonempty⟩ := marked.filled ended
      rw [single]
      cases dropped : isDropped b with
      | true =>
          rw [keep_dropped ended dropped]
          refine .held ended ?_ fun blanks x rest' further others => ?_
          · rw [ofText_concat, add_blank blank, same]
          · refine last (b :: blanks) x rest' ?_ ?_
            · rw [← readAt_append c, single, further]
              rfl
            · rw [List.all_cons, dropped, others, Bool.and_self]
      | false =>
          rcases w.keep_cases [b] with ⟨_, ⟨⟩, dropped', -, -⟩ | ⟨-, written, -⟩
          · rw [dropped] at dropped'
            contradiction
          · refine .same ?_
            rw [squeezed, written, List.reverse_append, List.reverse_reverse, ofText_append, ← squeezed]
            have nonempty' : (ofText read).text ≠ [] := same ▸ nonempty
            rw [addAll, List.foldl_cons, List.foldl_nil, add_blank_filled blank nonempty, ofText_concat,
              add_blank_filled blank nonempty', same]

theorem Untouched.level (untouched : Untouched text) (h : Comes text w c) :
    ∃ read, read ++ c.rest = text ∧ Level w c read := by
  induction h with
  | start => exact ⟨[], rfl, .same rfl⟩
  | @step w c here filled ih =>
      obtain ⟨read, whole, level⟩ := ih
      obtain ⟨kept, gapless⟩ := untouched w c here
      refine ⟨read ++ readAt c, ?_, level.step here.marked (Bool.eq_false_iff.mpr kept) gapless filled⟩
      rw [List.append_assoc, readAt_append, whole]

/-- Scanning for comments first makes no difference to a text if and only if the text is left as it is. -/
theorem scan_invisible_iff :
    trim (collapse (stripComments text)) = trim (collapse text) ↔ Untouched text := by
  rw [← reverse_ofText, ← reverse_ofText, List.reverse_inj]
  constructor
  · intro same w c here
    have unchanged : ¬ (ofText (stripComments text)).text.length < (ofText text).text.length := by
      rw [same]
      exact Nat.lt_irrefl _
    exact ⟨fun comment => unchanged (shorter_of_comment here comment),
      fun ended gap => unchanged (shorter_of_gap here ended gap)⟩
  · intro untouched
    obtain ⟨w, c, here, done⟩ := Comes.start.ends
    obtain ⟨read, whole, level⟩ := untouched.level here
    rw [done, List.append_nil] at whole
    rw [here.writeFrom_eq, writeFrom_end done, ← squeezed, level.text_eq, whole]

end

/-- The statement as it is read where a comment mark occurs: the scan for comments comes first. -/
def normalizeScanned (statement : String) : String :=
  String.ofList (trim (collapse (stripComments statement.toList)))

theorem normalizeScanned_iff {statement : String} (unmarked : mayHoldComment statement.toList = false) :
    normalizeScanned statement = normalize statement ↔ Untouched statement.toList := by
  rw [normalizeScanned, normalize, String.ofList_inj, normalForm, unmarked, if_neg Bool.false_ne_true,
    scan_invisible_iff]

/-- A statement without comment marks is read in both ways alike if and only if the scan for comments comes
to no hash with a space behind it that begins no hint, and to no gap on one line behind a statement that has
ended. -/
theorem ways_agree_iff {statement : String} (unmarked : mayHoldComment statement.toList = false) :
    normalizeScanned statement = normalize statement ↔
      ∀ w c, Comes statement.toList w c → ¬ BeginsHash c.rest ∧ (w.ended → ¬ BeginsGap c.rest) := by
  rw [normalizeScanned_iff unmarked]
  refine forall_congr' fun w => forall_congr' fun c => forall_congr' fun here => ?_
  obtain ⟨read, whole, -⟩ := here.behind
  have inside : c.rest <:+: statement.toList := ⟨read, [], by rw [List.append_nil, whole]⟩
  rw [isComment_iff (mayHoldComment_of_isInfix inside unmarked)]

/-- An exclusive or of bits. -/
def hashedStatement : String := "SELECT a # b FROM t"

theorem hashedStatement_touched : ¬ ∀ w c, Comes hashedStatement.toList w c →
    ¬ BeginsHash c.rest ∧ (w.ended → ¬ BeginsGap c.rest) :=
  fun whole => absurd ((ways_agree_iff (by decide)).mpr whole) (by decide +kernel)

/-- The statement loses its end when it is scanned, as it is when a comment stands behind it. -/
theorem hashedStatement_cut :
    mayHoldComment hashedStatement.toList = false ∧
      normalize hashedStatement = hashedStatement ∧
      normalizeScanned hashedStatement = "SELECT a" ∧
      normalize (hashedStatement ++ " /* c */") = "SELECT a" := by
  decide +kernel

/-- A gap is closed behind a semicolon. -/
example : normalize "SELECT 1; SELECT 2" = "SELECT 1; SELECT 2" ∧
    normalize "SELECT 1; SELECT 2 /* c */" = "SELECT 1;SELECT 2" := by
  decide +kernel

/-- A statement with neither a hash nor a semicolon in it is read in both ways alike. -/
theorem ways_agree {statement : String} (unmarked : mayHoldComment statement.toList = false)
    (unhashed : '#' ∉ statement.toList) (single : ';' ∉ statement.toList) :
    normalizeScanned statement = normalize statement := by
  rw [normalizeScanned_iff unmarked]
  intro w c here
  obtain ⟨read, whole, -⟩ := here.behind
  have inside : c.rest <:+ statement.toList := ⟨read, whole⟩
  constructor
  · rw [isComment_iff (mayHoldComment_of_isInfix inside.isInfix unmarked)]
    rintro ⟨rest, begins, -⟩
    exact unhashed (inside.subset (begins ▸ List.mem_cons_self ..))
  · intro ended
    obtain ⟨more, last⟩ := List.head?_eq_some_iff.mp (here.marked ended)
    rcases here.mem ';' (last ▸ List.mem_cons_self ..) with space | member
    · cases space
    · exact absurd member single

end QueryHarvest.Sql
