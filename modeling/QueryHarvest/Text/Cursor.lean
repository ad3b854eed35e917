import QueryHarvest.Text.Blank
import QueryHarvest.Text.Digit
import QueryHarvest.Text.Word

/-! # Places in a text

A cursor is a place in a text: the character before it, and the text from it on. Whatever reads at a
cursor gives back a later one, and the text shrinks by what was read. -/

namespace QueryHarvest.Text

/-- A place in a text. -/
structure Cursor where
  before : Option Char
  rest : List Char
  deriving DecidableEq, Repr

namespace Cursor

def start (text : List Char) : Cursor := ⟨none, text⟩

/-- Read characters as long as they pass a test: the characters, and the place after them. -/
def span (test : Char → Bool) (c : Cursor) : List Char × Cursor :=
  let read := c.rest.takeWhile test
  (read, ⟨read.getLast?.or c.before, c.rest.dropWhile test⟩)

def skip (test : Char → Bool) (c : Cursor) : Cursor :=
  (c.span test).2

def one? (test : Char → Bool) (c : Cursor) : Option Cursor :=
  match c.rest with
  | [] => none
  | x :: rest => if test x then some ⟨some x, rest⟩ else none

/-- Read at least one character that passes a test, and all that follow. -/
def span1? (test : Char → Bool) (c : Cursor) : Option (List Char × Cursor) :=
  match c.span test with
  | ([], _) => none
  | (x :: read, after) => some (x :: read, after)

/-- Read a word given in lower case, whatever the case of the letters here. -/
def keyword? (c : Cursor) : List Char → Option Cursor
  | [] => some c
  | letter :: word => (c.one? fun x => foldLetter x == letter).bind fun after => after.keyword? word

def identifier? (c : Cursor) : Option (List Char × Cursor) :=
  match c.rest with
  | [] => none
  | x :: _ => if isIdentStart x then c.span1? isIdentPart else none

/-- Does a word begin here, if the next character is a word character? -/
def beginsWord (c : Cursor) : Bool := !isWord? c.before

section

variable {before : Option Char} {x : Char} {rest : List Char}

@[simp] theorem one?_nil (test : Char → Bool) : one? test ⟨before, []⟩ = none := rfl

@[simp] theorem one?_cons (test : Char → Bool) :
    one? test ⟨before, x :: rest⟩ = if test x then some ⟨some x, rest⟩ else none := rfl

@[simp] theorem keyword?_nil (c : Cursor) : c.keyword? [] = some c := rfl

@[simp] theorem keyword?_cons (c : Cursor) (letter : Char) (word : List Char) :
    c.keyword? (letter :: word) =
      (c.one? fun x => foldLetter x == letter).bind fun after => after.keyword? word := rfl

@[simp] theorem identifier?_nil : identifier? ⟨before, []⟩ = none := rfl

@[simp] theorem identifier?_cons :
    identifier? ⟨before, x :: rest⟩ =
      if isIdentStart x then span1? isIdentPart ⟨before, x :: rest⟩ else none := rfl

end

-- the text after reading is never longer than before

theorem length_span (test : Char → Bool) (c : Cursor) :
    (c.span test).2.rest.length ≤ c.rest.length :=
  (List.dropWhile_sublist test).length_le

theorem length_skip (test : Char → Bool) (c : Cursor) :
    (c.skip test).rest.length ≤ c.rest.length :=
  length_span test c

theorem length_one? {test : Char → Bool} {c after : Cursor} (h : c.one? test = some after) :
    after.rest.length < c.rest.length := by
  unfold one? at h
  split at h
  · contradiction
  · next x rest hr =>
    split at h
    · cases h
      simp [hr]
    · contradiction

theorem length_span1? {test : Char → Bool} {c after : Cursor} {read : List Char}
    (h : c.span1? test = some (read, after)) : after.rest.length < c.rest.length := by
  unfold span1? at h
  split at h
  · contradiction
  · next hs =>
    cases h
    have hread := congrArg Prod.fst hs
    have hafter := congrArg (·.2.rest) hs
    simp only [span] at hread hafter
    have hlen := congrArg List.length (List.takeWhile_append_dropWhile (p := test) (l := c.rest))
    rw [List.length_append, hread, hafter] at hlen
    simp only [List.length_cons] at hlen
    omega

theorem length_keyword? {c after : Cursor} {word : List Char} (h : c.keyword? word = some after) :
    after.rest.length ≤ c.rest.length := by
  induction word generalizing c with
  | nil =>
    cases h
    exact Nat.le_refl _
  | cons letter word ih =>
    obtain ⟨next, hone, hrest⟩ := Option.bind_eq_some_iff.1 h
    exact Nat.le_trans (ih hrest) (Nat.le_of_lt (length_one? hone))

theorem length_identifier? {c after : Cursor} {name : List Char}
    (h : c.identifier? = some (name, after)) : after.rest.length < c.rest.length := by
  unfold identifier? at h
  split at h
  · contradiction
  · split at h
    · exact length_span1? h
    · contradiction

end Cursor

end QueryHarvest.Text
