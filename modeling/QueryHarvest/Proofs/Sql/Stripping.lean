import QueryHarvest.Proofs.Sql.Lexemes
import QueryHarvest.Sql.Predicate
import QueryHarvest.Sql.Table

/-! # Stripping the comments of a laid-out statement

Going through a statement, every token is kept, every blank stays a blank and every comment becomes one
or nothing. So the normal form is the tokens with single spaces between them.
-/

namespace QueryHarvest.Sql

open Text

namespace Written

/-- Going through a text from any place comes to the same as going through its rest with more
written. -/
def Leads (w : Written) (text : List Char) (w' : Written) (rest : List Char) : Prop :=
  ∀ before, ∃ before', w.writeFrom ⟨before, text⟩ = w'.writeFrom ⟨before', rest⟩

section

variable {w w' w'' : Written} {text text' rest : List Char}

theorem Leads.refl (w : Written) (text : List Char) : w.Leads text w text :=
  fun before => ⟨before, rfl⟩

theorem Leads.trans (h : w.Leads text w' text') (h' : w'.Leads text' w'' rest) :
    w.Leads text w'' rest := by
  intro before
  obtain ⟨between, first⟩ := h before
  obtain ⟨after, second⟩ := h' between
  exact ⟨after, first.trans second⟩

theorem leads_lexeme {piece : List Char} (nonempty : piece ≠ []) {isComment : Bool}
    (h : ∀ before, lexemeAt ⟨before, piece ++ rest⟩ = ⟨isComment, piece.length⟩) :
    w.Leads (piece ++ rest) (if isComment then w.replaceComment else w.keep piece) rest := by
  intro before
  refine ⟨piece.getLast?.or before, ?_⟩
  have filled : (piece ++ rest).isEmpty = false := by simp [nonempty]
  have length : max 1 piece.length = piece.length := by
    have := List.length_pos_iff.mpr nonempty
    omega
  rw [writeFrom]
  simp [filled, h before, length]

theorem leads_kept {piece : List Char} (nonempty : piece ≠ [])
    (h : ∀ before, lexemeAt ⟨before, piece ++ rest⟩ = ⟨false, piece.length⟩) :
    w.Leads (piece ++ rest) (w.keep piece) rest := by
  simpa using leads_lexeme nonempty h

theorem leads_comment {piece : List Char} (nonempty : piece ≠ [])
    (h : ∀ before, lexemeAt ⟨before, piece ++ rest⟩ = ⟨true, piece.length⟩) :
    w.Leads (piece ++ rest) w.replaceComment rest := by
  simpa using leads_lexeme nonempty h

end

/-- The text so far, whose last statement goes on. -/
structure Holds (w : Written) (text : List Char) : Prop where
  text : w.text = text
  going : w.ended = false

section

variable {w : Written} {text rest : List Char}

theorem Holds.keep (h : w.Holds text) {piece : List Char} (going : ';' ∉ piece) :
    (w.keep piece).Holds (piece.reverse ++ text) := by
  unfold Written.keep
  split
  · next c =>
    have other : (c == ';') = false := by
      refine beq_false_of_ne ?_
      rintro rfl
      exact going (List.mem_singleton.mpr rfl)
    simp only [h.going, Bool.false_and, Bool.false_eq_true, if_false, other]
    exact ⟨by simp [h.text], rfl⟩
  · exact ⟨by rw [h.text], rfl⟩

theorem Holds.replaceComment (h : w.Holds text) :
    ∃ blanks, Blanks blanks ∧ w.replaceComment.Holds (blanks ++ text) := by
  unfold Written.replaceComment
  split
  · exact ⟨[], blanks_nil, h⟩
  · exact ⟨[' '], blanks_singleton rfl, by simp [h.text], h.going⟩

end

theorem isTokenText_drop {letters : List Char} (h : isTokenText letters) (n : Nat) :
    isTokenText (letters.drop n) := by
  induction letters generalizing n with
  | nil => rwa [List.drop_nil]
  | cons c letters ih =>
      cases n with
      | zero => exact h
      | succ n =>
          simp only [isTokenText, Bool.and_eq_true] at h
          exact ih h.2 n

/-- A token is written as it stands. -/
theorem token_written {letters rest : List Char} (h : isTokenText letters) (ends : EndsToken rest)
    {w : Written} {text : List Char} (holds : w.Holds text) :
    ∃ w' : Written, w.Leads (letters ++ rest) w' rest ∧ w'.Holds (letters.reverse ++ text) := by
  match letters with
  | [] => exact ⟨w, .refl w rest, holds⟩
  | c :: letters =>
      obtain ⟨n, inside, lexeme⟩ := lexemeAt_token h ends
      have cut : c :: letters = c :: letters.take n ++ letters.drop n := by simp
      have going : ';' ∉ c :: letters.take n := by
        intro member
        have char := isTokenChar_of_mem h ';' (cut ▸ List.mem_append_left _ member)
        exact absurd char (by decide)
      have leads : w.Leads (c :: letters.take n ++ (letters.drop n ++ rest))
          (w.keep (c :: letters.take n)) (letters.drop n ++ rest) := by
        refine leads_kept (List.cons_ne_nil _ _) fun before => ?_
        rw [← List.append_assoc, ← cut, List.cons_append, lexeme, List.length_cons, List.length_take,
          Nat.min_eq_left inside]
      have others := isTokenText_drop h (n + 1)
      rw [List.drop_succ_cons] at others
      obtain ⟨w', later, held⟩ := token_written others ends (holds.keep going)
      refine ⟨w', ?_, ?_⟩
      · rw [cut, List.append_assoc]
        exact leads.trans later
      · rw [cut, List.reverse_append, List.append_assoc]
        exact held
termination_by letters.length

section

variable {w : Written} {text rest : List Char}

theorem blank_written {c : Char} (blank : isBlank c) (holds : w.Holds text) (rest : List Char) :
    w.Leads (c :: rest) (w.keep [c]) rest ∧ (w.keep [c]).Holds (c :: text) := by
  have going : ';' ∉ [c] := by
    rintro member
    rw [← List.mem_singleton.mp member] at blank
    exact absurd blank (by decide)
  exact ⟨leads_kept (List.cons_ne_nil c []) fun before => lexemeAt_blank blank, holds.keep going⟩

/-- A comment takes the end of its line with it, and a line feed behind a carriage return. -/
theorem line_leads (comment : LineComment) (ends : LineEnd) (rest : List Char) :
    ∃ tail, (tail = rest ∨ rest = '\n' :: tail) ∧
      w.Leads (comment.spelled ++ (ends.spelled ++ rest)) w.replaceComment tail := by
  have taken (piece : List Char) {tail : List Char} (cut : ends.spelled ++ rest = piece ++ tail)
      (length : lengthOfLine (piece ++ tail) = piece.length) (plain : Stops (· == '+') (piece ++ tail)) :
      w.Leads (comment.spelled ++ (ends.spelled ++ rest)) w.replaceComment tail := by
    rw [cut, ← List.append_assoc]
    refine leads_comment (by simp [LineComment.spelled]) fun before => ?_
    rw [List.append_assoc, lexemeAt_line comment plain, length, List.length_append]
  cases ends with
  | feed => exact ⟨rest, .inl rfl, taken ['\n'] rfl rfl (stops_cons rfl)⟩
  | both => exact ⟨rest, .inl rfl, taken ['\r', '\n'] rfl rfl (stops_cons rfl)⟩
  | carriageReturn =>
      by_cases feeds : ∃ tail, rest = '\n' :: tail
      · obtain ⟨tail, rfl⟩ := feeds
        exact ⟨tail, .inr rfl, taken ['\r', '\n'] rfl rfl (stops_cons rfl)⟩
      · refine ⟨rest, .inl rfl, taken ['\r'] rfl ?_ (stops_cons rfl)⟩
        rw [List.singleton_append, lengthOfLine]
        · rfl
        · exact fun tail _ same => feeds ⟨tail, same⟩

end

/-- Only a blank among the fillers begins with a line feed. -/
theorem fed_fillers {fillers : List Filler} {rest tail : List Char} (whole : Stops (· == '\n') rest)
    (fed : fillers.flatMap Filler.spelled ++ rest = '\n' :: tail) :
    ∃ others : List Filler, others.length ≤ fillers.length ∧
      tail = others.flatMap Filler.spelled ++ rest := by
  match fillers with
  | [] =>
      rw [List.flatMap_nil, List.nil_append] at fed
      exact absurd (whole '\n' (by rw [fed]; rfl)) (by decide)
  | .blank c blank :: others =>
      rw [List.flatMap_cons, Filler.spelled, List.singleton_append, List.cons_append] at fed
      exact ⟨others, Nat.le_succ _, (List.cons.inj fed).2.symm⟩
  | .block comment :: others =>
      rw [List.flatMap_cons, Filler.spelled, BlockComment.spelled] at fed
      exact absurd (List.cons.inj fed).1 (by decide)
  | .line comment ends :: others =>
      rw [List.flatMap_cons, Filler.spelled, LineComment.spelled] at fed
      exact absurd (List.cons.inj fed).1 (by decide)

/-- Fillers come out as blanks. A line feed that is a filler of its own may be read as the end of the line
before it; this is why fillers are not gone through one by one. -/
theorem fillers_written (fillers : List Filler) {w : Written} {text rest : List Char}
    (whole : Stops (· == '\n') rest) (holds : w.Holds text) :
    ∃ (w' : Written) (blanks : List Char), Blanks blanks ∧
      w.Leads (fillers.flatMap Filler.spelled ++ rest) w' rest ∧ w'.Holds (blanks ++ text) := by
  match fillers with
  | [] => exact ⟨w, [], blanks_nil, .refl w rest, holds⟩
  | .blank c blank :: fillers =>
      obtain ⟨leads, held⟩ := blank_written blank holds (fillers.flatMap Filler.spelled ++ rest)
      obtain ⟨w', blanks, hblanks, later, held⟩ := fillers_written fillers whole held
      exact ⟨w', blanks ++ [c], hblanks.append (blanks_singleton blank), leads.trans later,
        by simpa using held⟩
  | .block comment :: fillers =>
      obtain ⟨before, hbefore, held⟩ := holds.replaceComment
      obtain ⟨w', blanks, hblanks, later, held⟩ := fillers_written fillers whole held
      refine ⟨w', blanks ++ before, hblanks.append hbefore, ?_, by simpa using held⟩
      rw [List.flatMap_cons, List.append_assoc]
      exact (leads_comment (by simp [BlockComment.spelled])
        fun _ => lexemeAt_block comment).trans later
  | .line comment ends :: fillers =>
      obtain ⟨before, hbefore, held⟩ := holds.replaceComment
      obtain ⟨tail, cut, leads⟩ := line_leads (w := w) comment ends (fillers.flatMap Filler.spelled ++ rest)
      obtain ⟨others, shorter, rfl⟩ : ∃ others : List Filler, others.length ≤ fillers.length ∧
          tail = others.flatMap Filler.spelled ++ rest := by
        rcases cut with rfl | fed
        · exact ⟨fillers, Nat.le_refl _, rfl⟩
        · exact fed_fillers whole fed
      obtain ⟨w', blanks, hblanks, later, held⟩ := fillers_written others whole held
      refine ⟨w', blanks ++ before, hblanks.append hbefore, ?_, by simpa using held⟩
      rw [List.flatMap_cons, List.append_assoc, Filler.spelled, List.append_assoc]
      exact leads.trans later
termination_by fillers.length

section

variable {w : Written} {text rest : List Char}

theorem separator_written (separator : Separator) (whole : Stops (· == '\n') rest)
    (holds : w.Holds text) :
    ∃ (w' : Written) (blanks : List Char), Blanks blanks ∧ blanks ≠ [] ∧
      w.Leads (separator.spelled ++ rest) w' rest ∧ w'.Holds (blanks.reverse ++ text) := by
  obtain ⟨leads, held⟩ :=
    blank_written separator.isBlank holds (separator.others.flatMap Filler.spelled ++ rest)
  obtain ⟨w', blanks, hblanks, later, held⟩ := fillers_written separator.others whole held
  exact ⟨w', separator.first :: blanks.reverse, (blanks_singleton separator.isBlank).append hblanks.reverse,
    List.cons_ne_nil _ _, leads.trans later, by simpa using held⟩

theorem perhaps_written (separator : Option Separator) (whole : Stops (· == '\n') rest)
    (holds : w.Holds text) :
    ∃ (w' : Written) (blanks : List Char), Blanks blanks ∧
      w.Leads (separator.elim [] Separator.spelled ++ rest) w' rest ∧
      w'.Holds (blanks.reverse ++ text) := by
  cases separator with
  | none => exact ⟨w, [], blanks_nil, .refl w rest, holds⟩
  | some separator =>
      obtain ⟨w', blanks, hblanks, -, leads, held⟩ := separator_written separator whole holds
      exact ⟨w', blanks, hblanks, leads, held⟩

theorem cutOff_written (comment : Option LineComment) (holds : w.Holds text) :
    ∃ (w' : Written) (blanks : List Char), Blanks blanks ∧
      w.Leads (comment.elim [] LineComment.spelled) w' [] ∧ w'.Holds (blanks.reverse ++ text) := by
  cases comment with
  | none => exact ⟨w, [], blanks_nil, .refl w [], holds⟩
  | some comment =>
      obtain ⟨blanks, hblanks, held⟩ := holds.replaceComment
      refine ⟨_, blanks.reverse, hblanks.reverse, ?_, by simpa using held⟩
      have leads : w.Leads (comment.spelled ++ []) w.replaceComment [] :=
        leads_comment (List.cons_ne_nil _ _) fun _ => lexemeAt_line comment (stops_nil _)
      simpa using leads

theorem ending_written (layout : Layout) (holds : w.Holds text) :
    ∃ (w' : Written) (blanks : List Char), Blanks blanks ∧ w.Leads layout.ending w' [] ∧
      w'.Holds (blanks.reverse ++ text) := by
  have whole : Stops (· == '\n') (layout.cutOff.elim [] LineComment.spelled) := by
    cases layout.cutOff with
    | none => exact stops_nil _
    | some comment => exact stops_cons rfl
  obtain ⟨w₁, trailing, htrailing, first, held⟩ := perhaps_written layout.trailing whole holds
  obtain ⟨w₂, last, hlast, second, held⟩ := cutOff_written layout.cutOff held
  exact ⟨w₂, trailing ++ last, htrailing.append hlast, first.trans second, by simpa using held⟩

theorem endsToken_ending (layout : Layout) : EndsToken layout.ending := by
  unfold Layout.ending
  intro x first
  cases trailing : layout.trailing with
  | some separator =>
      rw [trailing] at first
      cases first
      exact .inl separator.isBlank
  | none =>
      cases cutOff : layout.cutOff with
      | some comment =>
          rw [trailing, cutOff] at first
          cases first
          exact .inr rfl
      | none =>
          rw [trailing, cutOff] at first
          cases first

/-- No line feed stands in front of a token. -/
theorem token_whole (token : Token) (rest : List Char) : Stops (· == '\n') (token.letters ++ rest) := by
  intro x first
  refine beq_false_of_ne ?_
  rintro rfl
  exact absurd (token.stops rest '\n' first) (by decide)

/-- The tokens of a layout are written with blanks between them. -/
theorem tokens_written (layout : Layout) (token : Token) (others : List (Separator × Token))
    (holds : w.Holds text) :
    ∃ (w' : Written) (written : List Char), Spaced (token :: others.map Prod.snd) written ∧
      w.Leads (token.letters ++ Layout.spelledOthers layout.ending others) w' [] ∧
      w'.Holds (written.reverse ++ text) := by
  induction others generalizing token w text with
  | nil =>
      obtain ⟨w₁, first, held⟩ :=
        token_written token.isTokenText (endsToken_ending layout) holds
      obtain ⟨w₂, blanks, hblanks, second, held⟩ := ending_written layout held
      exact ⟨w₂, token.letters ++ blanks, .last token hblanks, first.trans second, by simpa using held⟩
  | cons next others ih =>
      obtain ⟨separator, next⟩ := next
      have ends : EndsToken (Layout.spelledOthers layout.ending ((separator, next) :: others)) := by
        intro x first
        cases first
        exact .inl separator.isBlank
      obtain ⟨w₁, first, held⟩ := token_written token.isTokenText ends holds
      obtain ⟨w₂, blanks, hblanks, nonempty, second, held⟩ :=
        separator_written separator (token_whole next _) held
      obtain ⟨w₃, written, spaced, third, held⟩ := ih next held
      exact ⟨w₃, token.letters ++ (blanks ++ written), .cons token hblanks nonempty spaced,
        first.trans (second.trans third), by simpa using held⟩

end

end Written

/-- Stripping the comments of a layout leaves its tokens with blanks around them. -/
theorem stripComments_layout (layout : Layout) :
    ∃ leading text, Blanks leading ∧ Spaced layout.tokens text ∧
      stripComments layout.spelled = leading ++ text := by
  obtain ⟨w₁, leading, hleading, first, held⟩ :=
    Written.perhaps_written (w := {}) layout.leading (Written.token_whole layout.first _) ⟨rfl, rfl⟩
  obtain ⟨w₂, text, spaced, second, held⟩ := Written.tokens_written layout layout.first layout.others held
  obtain ⟨last, whole⟩ := first.trans second none
  refine ⟨leading, text, hleading, spaced, ?_⟩
  have final : w₂.writeFrom ⟨last, []⟩ = w₂ := by
    rw [Written.writeFrom]
    rfl
  rw [stripComments, Cursor.start, Layout.spelled, whole, final, held.text]
  simp

@[simp] theorem occurs_iff {mark text : List Char} : occurs mark text ↔ mark <:+: text := by
  induction text with
  | nil => simp [occurs]
  | cons c text ih => rw [occurs, Bool.or_eq_true, List.isPrefixOf_iff_prefix, ih, List.infix_cons_iff]

@[simp] theorem mayHoldComment_iff {text : List Char} :
    mayHoldComment text ↔ ['-', '-'] <:+: text ∨ ['/', '*'] <:+: text := by
  rw [mayHoldComment, Bool.or_eq_true, occurs_iff, occurs_iff]

theorem mayHoldComment_of_isInfix {piece text : List Char} (h : piece <:+: text)
    (unmarked : mayHoldComment text = false) : mayHoldComment piece = false := by
  rw [← Bool.not_eq_true, mayHoldComment_iff] at unmarked ⊢
  exact fun marked => unmarked (marked.imp (·.trans h) (·.trans h))

theorem LineComment.mayHoldComment (comment : LineComment) (rest : List Char) :
    mayHoldComment (comment.spelled ++ rest) :=
  mayHoldComment_iff.mpr (.inl ⟨[], comment.body ++ rest, rfl⟩)

theorem BlockComment.mayHoldComment (comment : BlockComment) (rest : List Char) :
    mayHoldComment (comment.spelled ++ rest) :=
  mayHoldComment_iff.mpr (.inr ⟨[], comment.body ++ ['*', '/'] ++ rest, rfl⟩)

theorem fillers_blanks {fillers : List Filler}
    (unmarked : mayHoldComment (fillers.flatMap Filler.spelled) = false) :
    Blanks (fillers.flatMap Filler.spelled) := by
  induction fillers with
  | nil => exact blanks_nil
  | cons filler fillers ih =>
      have later := ih (mayHoldComment_of_isInfix ⟨filler.spelled, [], by simp⟩ unmarked)
      rw [List.flatMap_cons] at unmarked ⊢
      cases filler with
      | blank c blank => exact (blanks_singleton blank).append later
      | block comment =>
          rw [Filler.spelled, comment.mayHoldComment] at unmarked
          contradiction
      | line comment ends =>
          rw [Filler.spelled, List.append_assoc, comment.mayHoldComment] at unmarked
          contradiction

theorem separator_blanks {separator : Separator}
    (unmarked : mayHoldComment separator.spelled = false) : Blanks separator.spelled :=
  (blanks_singleton separator.isBlank).append
    (fillers_blanks (mayHoldComment_of_isInfix (List.suffix_cons ..).isInfix unmarked))

theorem perhaps_blanks {separator : Option Separator}
    (unmarked : mayHoldComment (separator.elim [] Separator.spelled) = false) :
    Blanks (separator.elim [] Separator.spelled) := by
  cases separator with
  | none => exact blanks_nil
  | some separator => exact separator_blanks unmarked

theorem ending_blanks {layout : Layout} (unmarked : mayHoldComment layout.ending = false) :
    Blanks layout.ending := by
  have trailing := perhaps_blanks (mayHoldComment_of_isInfix (List.prefix_append ..).isInfix unmarked)
  refine trailing.append ?_
  cases cutOff : layout.cutOff with
  | none => exact blanks_nil
  | some comment =>
      have last := mayHoldComment_of_isInfix (List.suffix_append ..).isInfix unmarked
      have marked := comment.mayHoldComment []
      rw [cutOff, Option.elim_some] at last
      rw [List.append_nil, last] at marked
      contradiction

theorem spaced_others {ending : List Char} (hending : mayHoldComment ending = false → Blanks ending)
    (token : Token) {others : List (Separator × Token)}
    (unmarked : mayHoldComment (Layout.spelledOthers ending others) = false) :
    Spaced (token :: others.map Prod.snd) (token.letters ++ Layout.spelledOthers ending others) := by
  induction others generalizing token with
  | nil => exact .last token (hending unmarked)
  | cons next others ih =>
      obtain ⟨separator, next⟩ := next
      have here := mayHoldComment_of_isInfix (List.prefix_append separator.spelled _).isInfix unmarked
      have later := mayHoldComment_of_isInfix
        (((List.suffix_append next.letters _).trans (List.suffix_append separator.spelled _)).isInfix)
        unmarked
      exact .cons token (separator_blanks here) (List.cons_ne_nil _ _) (ih next later)

/-- Where no comment mark occurs, the tokens stand with blanks around them. -/
theorem spaced_layout {layout : Layout} (unmarked : mayHoldComment layout.spelled = false) :
    ∃ leading text, Blanks leading ∧ Spaced layout.tokens text ∧
      layout.spelled = leading ++ text := by
  have front := mayHoldComment_of_isInfix (List.prefix_append ..).isInfix unmarked
  have back := mayHoldComment_of_isInfix
    ((List.suffix_append layout.first.letters _).trans (List.suffix_append ..)).isInfix unmarked
  exact ⟨_, _, perhaps_blanks front, spaced_others ending_blanks layout.first back, rfl⟩

/-- The normal form of a layout is its tokens with single spaces between them. -/
theorem normalForm_layout (layout : Layout) : normalForm layout.spelled = joined layout.tokens := by
  rw [normalForm]
  cases comments : mayHoldComment layout.spelled with
  | true =>
      obtain ⟨leading, text, blank, spaced, stripped⟩ := stripComments_layout layout
      rw [if_pos rfl, stripped, spaced.trim_collapse blank]
  | false =>
      obtain ⟨leading, text, blank, spaced, same⟩ := spaced_layout comments
      rw [if_neg Bool.false_ne_true, same, spaced.trim_collapse blank]

theorem normalize_layout (layout : Layout) :
    normalize layout.text = " ".intercalate (layout.tokens.map Token.text) := by
  refine String.toList_injective ?_
  rw [normalize, Layout.text, String.toList_ofList, String.toList_ofList, normalForm_layout,
    String.toList_intercalate, joined, List.map_map]
  congr 1
  refine List.map_congr_left fun token _ => ?_
  exact (String.toList_ofList ..).symm

/-- How a statement is laid out shows neither in its normal form nor in the tables and conditions that
are read off it. -/
theorem layout_invisible (layout : Layout) :
    normalize layout.text = " ".intercalate (layout.tokens.map Token.text) ∧
      ∀ other : Layout, other.tokens = layout.tokens →
        tables other.text = tables layout.text ∧
          ∀ parameters, conditions other.text parameters = conditions layout.text parameters := by
  refine ⟨normalize_layout layout, fun other same => ?_⟩
  have forms : normalForm other.spelled = normalForm layout.spelled := by
    rw [normalForm_layout, normalForm_layout, same]
  constructor
  · rw [tables, tables, Layout.text, Layout.text, String.toList_ofList, String.toList_ofList, forms]
  · intro parameters
    rw [conditions, conditions, Layout.text, Layout.text, String.toList_ofList, String.toList_ofList,
      forms]

/-- A table and a filter on it, in one line. -/
def bareFilter : Layout where
  leading := none
  first := ⟨"t".toList, by decide, by decide⟩
  others := [(⟨' ', rfl, []⟩, ⟨"WHERE".toList, by decide, by decide⟩),
    (⟨' ', rfl, []⟩, ⟨"a=$1".toList, by decide, by decide⟩)]
  trailing := none
  cutOff := none

/-- The same tokens in several lines with remarks. -/
def remarkedFilter : Layout where
  leading := some ⟨'\n', rfl, [.block ⟨" it's $$ * ".toList, by decide, by decide⟩]⟩
  first := ⟨"t".toList, by decide, by decide⟩
  others := [(⟨'\t', rfl, [.line ⟨" JOIN u ( $2".toList, by decide, by decide⟩ .carriageReturn,
      .blank '\n' rfl]⟩, ⟨"WHERE".toList, by decide, by decide⟩),
    (⟨' ', rfl, []⟩, ⟨"a=$1".toList, by decide, by decide⟩)]
  trailing := some ⟨' ', rfl, []⟩
  cutOff := some ⟨"OR b=$2".toList, by decide, by decide⟩

theorem remarkedFilter_invisible :
    remarkedFilter.tokens = bareFilter.tokens ∧
      tables remarkedFilter.text = tables bareFilter.text ∧
        ∀ parameters, conditions remarkedFilter.text parameters = conditions bareFilter.text parameters :=
  ⟨rfl, (layout_invisible bareFilter).2 remarkedFilter rfl⟩

end QueryHarvest.Sql
