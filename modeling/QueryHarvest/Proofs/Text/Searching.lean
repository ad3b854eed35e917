import Mathlib
import QueryHarvest.Text.Pattern

/-! # Searching a text word by word

What is read off a text whose front is known, and what a search finds in it. A pattern that is
anchored begins only where a word begins, so that a search tries it once for every word and passes
over everything else.
-/

namespace QueryHarvest.Text

/-- No character that passes the test stands at the front of the text. -/
def Stops (test : Char → Bool) (text : List Char) : Prop :=
  ∀ x ∈ text.head?, test x = false

theorem stops_nil (test : Char → Bool) : Stops test [] := by
  simp [Stops]

theorem stops_cons {test : Char → Bool} {x : Char} {text : List Char} (h : test x = false) :
    Stops test (x :: text) := by
  simpa [Stops] using h

/-- Is the text an identifier as a whole? -/
def isIdentifier : List Char → Bool
  | [] => false
  | x :: text => isIdentStart x && text.all isIdentPart

theorem isIdentPart_of_isIdentStart {c : Char} (h : isIdentStart c) : isIdentPart c := by
  rw [isIdentPart, h, Bool.true_or]

theorem isIdentPart_of_mem {name : List Char} (h : isIdentifier name) :
    ∀ c ∈ name, isIdentPart c := by
  cases name with
  | nil => contradiction
  | cons c name =>
      obtain ⟨start, parts⟩ := Bool.and_eq_true_iff.mp h
      exact List.forall_mem_cons.mpr
        ⟨isIdentPart_of_isIdentStart start, List.all_eq_true.mp parts⟩

namespace Cursor

variable {test : Char → Bool} {before : Option Char} {word rest : List Char}

theorem span_append (passes : ∀ x ∈ word, test x) (stops : Stops test rest) :
    span test ⟨before, word ++ rest⟩ = (word, ⟨word.getLast?.or before, rest⟩) := by
  have none_read : rest.takeWhile test = [] := by
    cases rest with
    | nil => rfl
    | cons x rest => simp [stops x rfl]
  have none_dropped : rest.dropWhile test = rest := by
    cases rest with
    | nil => rfl
    | cons x rest => simp [stops x rfl]
  simp only [span]
  rw [List.takeWhile_append_of_pos passes, List.dropWhile_append_of_pos passes, none_read,
    none_dropped, List.append_nil]

theorem getLast?_or (nonempty : word ≠ []) : word.getLast?.or before = word.getLast? := by
  rw [List.getLast?_eq_some_getLast nonempty, Option.some_or]

theorem span1?_append (nonempty : word ≠ []) (passes : ∀ x ∈ word, test x)
    (stops : Stops test rest) :
    span1? test ⟨before, word ++ rest⟩ = some (word, ⟨word.getLast?, rest⟩) := by
  rw [span1?, span_append passes stops, getLast?_or nonempty]
  cases word with
  | nil => contradiction
  | cons x word => rfl

theorem one?_of_passes {x : Char} (passes : test x) :
    one? test ⟨before, x :: rest⟩ = some ⟨some x, rest⟩ := by
  simp [passes]

theorem identifier?_append (h : isIdentifier word) (stops : Stops isIdentPart rest) :
    identifier? ⟨before, word ++ rest⟩ = some (word, ⟨word.getLast?, rest⟩) := by
  cases word with
  | nil => contradiction
  | cons x word =>
      have start := (Bool.and_eq_true_iff.mp h).1
      have passes := isIdentPart_of_mem h
      simpa only [identifier?_cons, List.cons_append, start, if_true] using
        @span1?_append _ before _ _ (List.cons_ne_nil x word) passes stops

end Cursor

namespace Pattern

variable {α : Type} {p : Pattern α}

theorem findAll_match {c after : Cursor} {value : α} (h : p.match? c = some (value, after)) :
    p.findAll c = ⟨c, value, after⟩ :: p.findAll after := by
  rw [findAll]
  split
  · next found =>
    rw [h] at found
    cases found
    rfl
  · next missed =>
    rw [h] at missed
    contradiction

theorem findAll_skip {before : Option Char} {x : Char} {rest : List Char}
    (h : p.match? ⟨before, x :: rest⟩ = none) :
    p.findAll ⟨before, x :: rest⟩ = p.findAll ⟨some x, rest⟩ := by
  rw [findAll]
  split
  · next found =>
    rw [h] at found
    contradiction
  · rfl

@[simp] theorem findAll_nil (before : Option Char) : p.findAll ⟨before, []⟩ = [] := by
  rw [findAll]
  split
  · next found => exact absurd (p.shrinks found) (Nat.not_lt_zero _)
  · rfl

/-- What the matches from a place on recognise. -/
def valuesFrom (p : Pattern α) (c : Cursor) : List α :=
  (p.findAll c).map (·.value)

theorem valuesFrom_match {c after : Cursor} {value : α} (h : p.match? c = some (value, after)) :
    p.valuesFrom c = value :: p.valuesFrom after := by
  rw [valuesFrom, findAll_match h]
  rfl

theorem valuesFrom_skip {before : Option Char} {x : Char} {rest : List Char}
    (h : p.match? ⟨before, x :: rest⟩ = none) :
    p.valuesFrom ⟨before, x :: rest⟩ = p.valuesFrom ⟨some x, rest⟩ := by
  rw [valuesFrom, findAll_skip h]
  rfl

@[simp] theorem valuesFrom_nil (before : Option Char) : p.valuesFrom ⟨before, []⟩ = [] := by
  rw [valuesFrom, findAll_nil]
  rfl

/-- Matches begin where a word begins, with a letter or an underscore. -/
structure Anchored (p : Pattern α) : Prop where
  atWord : ∀ {c : Cursor}, c.beginsWord = false → p.match? c = none
  atLetter : ∀ {c : Cursor}, Stops isIdentStart c.rest → p.match? c = none

namespace Anchored

variable {before : Option Char} {rest : List Char}

theorem valuesFrom_marks (hp : p.Anchored) (marks : List Char)
    (h : ∀ x ∈ marks, isIdentStart x = false) :
    p.valuesFrom ⟨before, marks ++ rest⟩ = p.valuesFrom ⟨marks.getLast?.or before, rest⟩ := by
  induction marks generalizing before with
  | nil => rfl
  | cons x marks ih =>
      have missed := hp.atLetter (c := ⟨before, x :: (marks ++ rest)⟩)
        (stops_cons (h x (List.mem_cons_self ..)))
      rw [List.cons_append, valuesFrom_skip missed, ih fun y hy => h y (List.mem_cons_of_mem _ hy)]
      cases marks <;> simp [List.getLast?_cons]

theorem valuesFrom_inside (hp : p.Anchored) {letters : List Char} (inside : isWord? before)
    (h : ∀ x ∈ letters, isWord x) :
    p.valuesFrom ⟨before, letters ++ rest⟩ = p.valuesFrom ⟨letters.getLast?.or before, rest⟩ := by
  induction letters generalizing before with
  | nil => rfl
  | cons x letters ih =>
      have missed := hp.atWord (c := ⟨before, x :: (letters ++ rest)⟩)
        (by rw [Cursor.beginsWord, inside, Bool.not_true])
      have here : isWord? (some x) := h x (List.mem_cons_self ..)
      rw [List.cons_append, valuesFrom_skip missed,
        ih here fun y hy => h y (List.mem_cons_of_mem _ hy)]
      cases letters <;> simp [List.getLast?_cons]

/-- A word that no match begins with is passed over. -/
theorem valuesFrom_word (hp : p.Anchored) {word : List Char} (letters : ∀ x ∈ word, isWord x)
    (missed : p.match? ⟨before, word ++ rest⟩ = none) :
    p.valuesFrom ⟨before, word ++ rest⟩ = p.valuesFrom ⟨word.getLast?.or before, rest⟩ := by
  cases word with
  | nil => rfl
  | cons x word =>
      rw [List.cons_append] at missed ⊢
      have here : isWord? (some x) := letters x (List.mem_cons_self ..)
      rw [valuesFrom_skip missed,
        hp.valuesFrom_inside here fun y hy => letters y (List.mem_cons_of_mem _ hy)]
      cases word <;> simp [List.getLast?_cons]

/-- In front of a character that begins no word it does not matter what came before. -/
theorem valuesFrom_before (hp : p.Anchored) (h : Stops isIdentStart rest) (before' : Option Char) :
    p.valuesFrom ⟨before, rest⟩ = p.valuesFrom ⟨before', rest⟩ := by
  cases rest with
  | nil => rw [valuesFrom_nil, valuesFrom_nil]
  | cons x rest => rw [valuesFrom_skip (hp.atLetter h), valuesFrom_skip (hp.atLetter h)]

end Anchored

end Pattern

end QueryHarvest.Text
