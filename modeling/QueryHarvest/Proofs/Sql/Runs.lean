import QueryHarvest.Proofs.Sql.NormalForm
import QueryHarvest.Proofs.Text.Characters

/-! # Runs of characters in normal forms

The normal form of a text joins no two runs of characters that stand apart in the text, unless the
characters are blanks, opening parentheses or semicolons. In particular a number in the normal form is
written as a whole in the text.
-/

namespace QueryHarvest.Sql

open Text

variable {test : Char → Bool}

/-- Every run of what was written is one of what was read, and one at the end is one at the end. -/
structure Follows (test : Char → Bool) (written read : List Char) : Prop where
  inside : ∀ run, IsRun test run → run <:+: written → run <:+: read
  last : ∀ run, IsRun test run → run <:+ written → run <:+ read

namespace Follows

variable {written read : List Char}

theorem nil : Follows test [] [] :=
  ⟨fun _ h inside => absurd (List.infix_nil.mp inside) h.nonempty,
    fun _ h last => absurd (List.suffix_nil.mp last) h.nonempty⟩

/-- A character is copied. -/
theorem concat (h : Follows test written read) (c : Char) : Follows test (written ++ [c]) (read ++ [c]) := by
  have last : ∀ run, IsRun test run → run <:+ written ++ [c] → run <:+ read ++ [c] := by
    intro run hrun back
    rcases List.suffix_concat_iff.mp back with empty | ⟨front, rfl, shorter⟩
    · exact absurd empty hrun.nonempty
    · by_cases single : front = []
      · exact ⟨read, by rw [single]; rfl⟩
      · have hfront : IsRun test front :=
          ⟨single, fun x member => hrun.passes x (List.mem_append_left _ member)⟩
        obtain ⟨before, cut⟩ := h.last front hfront shorter
        exact ⟨before, by rw [← cut, List.append_assoc]⟩
  refine ⟨fun run hrun inside => ?_, last⟩
  rcases List.infix_concat_iff.mp inside with back | inside
  · exact (last run hrun back).isInfix
  · exact (h.inside run hrun inside).trans (List.prefix_append ..).isInfix

theorem append (h : Follows test written read) (piece : List Char) :
    Follows test (written ++ piece) (read ++ piece) := by
  induction piece generalizing written read with
  | nil => simpa using h
  | cons c piece ih => simpa using ih (h.concat c)

/-- Something is passed over behind a character of no run. -/
theorem skip (h : Follows test written read) (stops : Stops test written.reverse) (piece : List Char) :
    Follows test written (read ++ piece) := by
  refine ⟨fun run hrun inside => (h.inside run hrun inside).trans (List.prefix_append ..).isInfix,
    fun run hrun back => ?_⟩
  obtain ⟨c, others, reversed⟩ := List.exists_cons_of_ne_nil hrun.reverse.nonempty
  obtain ⟨before, cut⟩ := List.reverse_prefix.mpr back
  have first : written.reverse.head? = some c := by rw [← cut, reversed]; rfl
  have passes := hrun.reverse.passes c (reversed ▸ List.mem_cons_self ..)
  rw [stops c first] at passes
  contradiction

/-- Something is replaced by a character of no run. -/
theorem mark (h : Follows test written read) {c : Char} (stops : test c = false) (piece : List Char) :
    Follows test (written ++ [c]) (read ++ piece) := by
  have apart : ∀ run, IsRun test run → ¬ run <:+ written ++ [c] := by
    intro run hrun back
    rcases List.suffix_concat_iff.mp back with empty | ⟨front, rfl, -⟩
    · exact hrun.nonempty empty
    · have passes := hrun.passes c (by simp)
      rw [stops] at passes
      contradiction
  refine ⟨fun run hrun inside => ?_, fun run hrun back => absurd back (apart run hrun)⟩
  rcases List.infix_concat_iff.mp inside with back | inside
  · exact absurd back (apart run hrun)
  · exact (h.inside run hrun inside).trans (List.prefix_append ..).isInfix

end Follows

/-- What has been written follows what has been read, and no run goes on behind an ended statement. -/
structure Written.Follows (test : Char → Bool) (w : Written) (read : List Char) : Prop where
  follows : Sql.Follows test w.text.reverse read
  ended : w.ended → Stops test w.text

section

variable (blank : ∀ c, isBlank c → test c = false) (opening : test '(' = false)
  (ending : test ';' = false) {w : Written} {read : List Char}

include ending in
theorem Written.Follows.keep (h : w.Follows test read) (piece : List Char) :
    (w.keep piece).Follows test (read ++ piece) := by
  unfold Written.keep
  split
  · next c =>
    split
    · next dropped =>
      simp only [Bool.and_eq_true] at dropped
      have stops := h.ended dropped.1.1.1
      exact ⟨h.follows.skip (by rwa [List.reverse_reverse]) [c], h.ended⟩
    · refine ⟨by simpa using h.follows.concat c, fun ended => ?_⟩
      simp only [Bool.and_eq_true, beq_iff_eq] at ended
      rw [ended.1]
      exact stops_cons ending
  · exact ⟨by simpa using h.follows.append piece, nofun⟩

include blank opening in
theorem Written.Follows.replaceComment (h : w.Follows test read) (piece : List Char) :
    w.replaceComment.Follows test (read ++ piece) := by
  unfold Written.replaceComment
  split
  · next dropped =>
    have stops : Stops test w.text := by
      rcases Bool.or_eq_true_iff.mp dropped with ended | behind
      · exact h.ended ended
      · intro x first
        rw [eq_of_beq behind] at first
        cases first
        exact opening
    exact ⟨h.follows.skip (by rwa [List.reverse_reverse]) piece, h.ended⟩
  · next kept =>
    have going : ¬ w.ended := fun ended => kept (by rw [ended, Bool.true_or])
    exact ⟨by simpa using h.follows.mark (blank ' ' rfl) piece, fun ended => absurd ended going⟩

include blank opening ending in
theorem Written.Follows.writeFrom {w : Written} {read : List Char} (h : w.Follows test read)
    (c : Cursor) : (w.writeFrom c).Follows test (read ++ c.rest) := by
  rw [Written.writeFrom]
  split
  · next empty =>
    rw [List.isEmpty_iff.mp empty, List.append_nil]
    exact h
  · next filled =>
    have shorter : (c.rest.drop (max 1 (lexemeAt c).length)).length < c.rest.length := by
      have := List.length_pos_iff.mpr (List.isEmpty_iff.not.mp filled)
      rw [List.length_drop]
      omega
    have cut : read ++ c.rest = read ++ c.rest.take (max 1 (lexemeAt c).length) ++
        c.rest.drop (max 1 (lexemeAt c).length) := by
      rw [List.append_assoc, List.take_append_drop]
    rw [cut]
    dsimp only
    cases (lexemeAt c).isComment with
    | true => exact (h.replaceComment blank opening _).writeFrom ⟨_, _⟩
    | false => exact (h.keep ending _).writeFrom ⟨_, _⟩
termination_by c.rest.length

theorem follows_stripComments (blank : ∀ c, isBlank c → test c = false) (opening : test '(' = false)
    (ending : test ';' = false) (text : List Char) : Follows test (stripComments text) text := by
  have start : Written.Follows test {} [] := ⟨.nil, nofun⟩
  exact (start.writeFrom blank opening ending (Cursor.start text)).follows

end

theorem follows_collapse (blank : ∀ c, isBlank c → test c = false) (text : List Char) :
    Follows test (collapse text).reverse text.reverse := by
  induction text with
  | nil => exact .nil
  | cons c text ih =>
      rw [collapse_cons, List.reverse_cons]
      unfold collapseStep
      split
      · split
        · next others collapsed =>
          refine ih.skip ?_ [c]
          rw [List.reverse_reverse, collapsed]
          exact stops_cons (blank ' ' rfl)
        · rw [List.reverse_cons]
          exact ih.mark (blank ' ' rfl) [c]
      · rw [List.reverse_cons]
        exact ih.concat c

theorem trim_isInfix (text : List Char) : trim text <:+: text := by
  have front : text.dropWhile isBlank <:+: text := (List.dropWhile_suffix isBlank).isInfix
  have back : trim text <+: text.dropWhile isBlank := by
    rw [trim, ← List.reverse_suffix, List.reverse_reverse]
    exact List.dropWhile_suffix isBlank
  exact back.isInfix.trans front

/-- A run of characters in the normal form stands in the text. -/
theorem infix_of_infix_normalForm (blank : ∀ c, isBlank c → test c = false)
    (opening : test '(' = false) (ending : test ';' = false) {text run : List Char}
    (h : IsRun test run) (inside : run <:+: normalForm text) : run <:+: text := by
  rw [normalForm] at inside
  have collapsed := (follows_collapse blank _).inside run.reverse h.reverse
    (List.reverse_infix.mpr (inside.trans (trim_isInfix _)))
  have stripped := List.reverse_infix.mp collapsed
  split at stripped
  · exact (follows_stripComments blank opening ending text).inside run h stripped
  · exact stripped

theorem mem_of_mem_normalForm {text : List Char} {c : Char} (visible : isBlank c = false)
    (opening : c ≠ '(') (ending : c ≠ ';') (member : c ∈ normalForm text) : c ∈ text := by
  have blank : ∀ d, isBlank d → (d == c) = false := by
    intro d blank
    refine beq_false_of_ne ?_
    rintro rfl
    rw [visible] at blank
    contradiction
  have run : IsRun (· == c) [c] := ⟨by simp, by simp⟩
  have inside := infix_of_infix_normalForm blank (beq_false_of_ne opening.symm)
    (beq_false_of_ne ending.symm) run ((List.singleton_infix_iff c _).mpr member)
  exact (List.singleton_infix_iff c _).mp inside

end QueryHarvest.Sql
