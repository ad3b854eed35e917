import QueryHarvest.Text.Pattern

/-! # Shapes

A shape is a row of pieces, each of which reads on from where the piece before it ended. Shapes
describe what follows the column of a condition, and references to tables. No piece ever has to give
back what it has read for a later one to fit, so reading a shape never goes back. -/

namespace QueryHarvest.Sql

open Text

/-- A placeholder in a text: the digits of its index, and the text behind them, which tells one
placeholder from another. -/
structure Placeholder where
  digits : List Char
  behind : List Char
  deriving DecidableEq, Repr

/-- A piece of a shape. -/
inductive Piece where
  /-- Any number of blanks. -/
  | blanks
  /-- At least one blank. -/
  | gap
  | symbol (c : Char)
  /-- A word, given in lower case, in any case. -/
  | word (letters : List Char)
  /-- `$` and an index, which is noted. -/
  | placeholder
  /-- An order comparison, which is noted. -/
  | comparison
  /-- `LIKE` or `ILIKE` in any case, noted as it is written. -/
  | like
  /-- `NOT` and a gap, or nothing; it is noted whether they are there. -/
  | negation
  /-- At least one character other than a closing parenthesis; all of them are noted. -/
  | list
  /-- A run of digits, which is noted. -/
  | number
  /-- A text in single quotes without single quotes in it, which is noted. -/
  | quoted
  /-- A name, perhaps with a second one behind a point, which is noted. -/
  | name
  /-- The end of a word. -/
  | wordEnd
  /-- The end of a number that is neither part of a word nor goes on behind a point. -/
  | numberEnd

/-- What the pieces of a shape note. -/
structure Notes where
  /-- The placeholders in the order of the text. -/
  placeholders : List Placeholder := []
  /-- The comparison, the list, the number, the quoted text or the name; a shape has at most one. -/
  text : List Char := []
  negated : Bool := false
  deriving DecidableEq, Repr

def comparison? : List Char → Option (List Char)
  | '>' :: '=' :: _ => some ['>', '=']
  | '<' :: '=' :: _ => some ['<', '=']
  | '<' :: '>' :: _ => some ['<', '>']
  | '!' :: '=' :: _ => some ['!', '=']
  | '>' :: _ => some ['>']
  | '<' :: _ => some ['<']
  | _ => none

/-- Read the characters of a word that stand here, as they are written. -/
def writtenWord? (word : List Char) (c : Cursor) : Option (List Char × Cursor) :=
  (c.keyword? word).map fun after => (c.rest.take word.length, after)

namespace Piece

def readPlaceholder? (c : Cursor) : Option (Placeholder × Cursor) := do
  let c ← c.one? (· == '$')
  let (digits, after) ← c.span1? isDigit
  return (⟨digits, after.rest⟩, after)

def readComparison? (c : Cursor) : Option (List Char × Cursor) := do
  let operator ← comparison? c.rest
  return (operator, ⟨operator.getLast?, c.rest.drop operator.length⟩)

def readQuoted? (c : Cursor) : Option (List Char × Cursor) := do
  let c ← c.one? (· == '\x27')
  let (text, c) ← c.span1? (· != '\x27')
  let after ← c.one? (· == '\x27')
  return (text, after)

def readSecondName? (c : Cursor) : Option (List Char × Cursor) := do
  let c ← c.one? (· == '.')
  c.identifier?

def readName? (c : Cursor) : Option (List Char × Cursor) := do
  let (first, c) ← c.identifier?
  match readSecondName? c with
  | some (second, after) => return (first ++ '.' :: second, after)
  | none => return (first, c)

/-- Read `NOT` and a gap. -/
def readNot? (c : Cursor) : Option Cursor := do
  let c ← c.keyword? ['n', 'o', 't']
  let (_, after) ← c.span1? isBlank
  return after

def read? (notes : Notes) (c : Cursor) : Piece → Option (Notes × Cursor)
  | .blanks => some (notes, c.skip isBlank)
  | .gap => (c.span1? isBlank).map fun (_, after) => (notes, after)
  | .symbol s => (c.one? (· == s)).map fun after => (notes, after)
  | .word letters => (c.keyword? letters).map fun after => (notes, after)
  | .placeholder => (readPlaceholder? c).map fun (found, after) =>
      ({ notes with placeholders := notes.placeholders ++ [found] }, after)
  | .comparison => (readComparison? c).map fun (text, after) => ({ notes with text }, after)
  | .like =>
    ((writtenWord? ['i', 'l', 'i', 'k', 'e'] c).or (writtenWord? ['l', 'i', 'k', 'e'] c)).map
      fun (text, after) => ({ notes with text }, after)
  | .negation =>
    match readNot? c with
    | some after => some ({ notes with negated := true }, after)
    | none => some (notes, c)
  | .list => (c.span1? (· != ')')).map fun (text, after) => ({ notes with text }, after)
  | .number => (c.span1? isDigit).map fun (text, after) => ({ notes with text }, after)
  | .quoted => (readQuoted? c).map fun (text, after) => ({ notes with text }, after)
  | .name => (readName? c).map fun (text, after) => ({ notes with text }, after)
  | .wordEnd => if isWord? c.rest.head? then none else some (notes, c)
  | .numberEnd =>
    if isWord? c.rest.head? || c.rest.head? == some '.' then none else some (notes, c)

-- no piece lengthens the text that is still to be read

theorem length_readPlaceholder? {c after : Cursor} {found : Placeholder}
    (h : readPlaceholder? c = some (found, after)) : after.rest.length ≤ c.rest.length := by
  obtain ⟨c₁, h₁, h⟩ := Option.bind_eq_some_iff.1 h
  obtain ⟨⟨digits, c₂⟩, h₂, h⟩ := Option.bind_eq_some_iff.1 h
  cases h
  have := Cursor.length_one? h₁
  have := Cursor.length_span1? h₂
  omega

theorem length_readComparison? {c after : Cursor} {text : List Char}
    (h : readComparison? c = some (text, after)) : after.rest.length ≤ c.rest.length := by
  obtain ⟨operator, _, h⟩ := Option.bind_eq_some_iff.1 h
  cases h
  simp

theorem length_readQuoted? {c after : Cursor} {text : List Char}
    (h : readQuoted? c = some (text, after)) : after.rest.length ≤ c.rest.length := by
  obtain ⟨c₁, h₁, h⟩ := Option.bind_eq_some_iff.1 h
  obtain ⟨⟨text', c₂⟩, h₂, h⟩ := Option.bind_eq_some_iff.1 h
  obtain ⟨c₃, h₃, h⟩ := Option.bind_eq_some_iff.1 h
  cases h
  have := Cursor.length_one? h₁
  have := Cursor.length_span1? h₂
  have := Cursor.length_one? h₃
  omega

theorem length_readSecondName? {c after : Cursor} {text : List Char}
    (h : readSecondName? c = some (text, after)) : after.rest.length ≤ c.rest.length := by
  obtain ⟨c₁, h₁, h⟩ := Option.bind_eq_some_iff.1 h
  have := Cursor.length_one? h₁
  have := Cursor.length_identifier? h
  omega

theorem length_readName?_lt {c after : Cursor} {text : List Char}
    (h : readName? c = some (text, after)) : after.rest.length < c.rest.length := by
  obtain ⟨⟨first, c₁⟩, h₁, h⟩ := Option.bind_eq_some_iff.1 h
  have := Cursor.length_identifier? h₁
  simp only at h
  split at h
  · next hs =>
    cases h
    have := length_readSecondName? hs
    omega
  · cases h
    omega

theorem length_readNot? {c after : Cursor} (h : readNot? c = some after) :
    after.rest.length ≤ c.rest.length := by
  obtain ⟨c₁, h₁, h⟩ := Option.bind_eq_some_iff.1 h
  obtain ⟨⟨_, c₂⟩, h₂, h⟩ := Option.bind_eq_some_iff.1 h
  cases h
  have := Cursor.length_keyword? h₁
  have := Cursor.length_span1? h₂
  omega

theorem length_writtenWord? {word text : List Char} {c after : Cursor}
    (h : writtenWord? word c = some (text, after)) : after.rest.length ≤ c.rest.length := by
  obtain ⟨c₁, h₁, h⟩ := Option.map_eq_some_iff.1 h
  cases h
  exact Cursor.length_keyword? h₁

theorem length_read? {piece : Piece} {notes notes' : Notes} {c after : Cursor}
    (h : piece.read? notes c = some (notes', after)) : after.rest.length ≤ c.rest.length := by
  cases piece with
  | blanks =>
    cases h
    exact Cursor.length_skip _ _
  | gap | list | number =>
    obtain ⟨⟨_, c₁⟩, h₁, h⟩ := Option.map_eq_some_iff.1 h
    cases h
    exact Nat.le_of_lt (Cursor.length_span1? h₁)
  | symbol =>
    obtain ⟨c₁, h₁, h⟩ := Option.map_eq_some_iff.1 h
    cases h
    exact Nat.le_of_lt (Cursor.length_one? h₁)
  | word =>
    obtain ⟨c₁, h₁, h⟩ := Option.map_eq_some_iff.1 h
    cases h
    exact Cursor.length_keyword? h₁
  | placeholder =>
    obtain ⟨⟨_, c₁⟩, h₁, h⟩ := Option.map_eq_some_iff.1 h
    cases h
    exact length_readPlaceholder? h₁
  | comparison =>
    obtain ⟨⟨_, c₁⟩, h₁, h⟩ := Option.map_eq_some_iff.1 h
    cases h
    exact length_readComparison? h₁
  | like =>
    obtain ⟨⟨_, c₁⟩, h₁, h⟩ := Option.map_eq_some_iff.1 h
    cases h
    rcases Option.or_eq_some_iff.1 h₁ with h₁ | ⟨_, h₁⟩ <;> exact length_writtenWord? h₁
  | negation =>
    simp only [read?] at h
    split at h
    · next hn =>
      cases h
      exact length_readNot? hn
    · cases h
      exact Nat.le_refl _
  | quoted =>
    obtain ⟨⟨_, c₁⟩, h₁, h⟩ := Option.map_eq_some_iff.1 h
    cases h
    exact length_readQuoted? h₁
  | name =>
    obtain ⟨⟨_, c₁⟩, h₁, h⟩ := Option.map_eq_some_iff.1 h
    cases h
    exact Nat.le_of_lt (length_readName?_lt h₁)
  | wordEnd | numberEnd =>
    simp only [read?] at h
    split at h
    · contradiction
    · cases h
      exact Nat.le_refl _

end Piece

abbrev Shape := List Piece

def Shape.read? (notes : Notes) (c : Cursor) : Shape → Option (Notes × Cursor)
  | [] => some (notes, c)
  | piece :: shape => (piece.read? notes c).bind fun (notes, after) => read? notes after shape

theorem Shape.length_read? {shape : Shape} {notes notes' : Notes} {c after : Cursor}
    (h : shape.read? notes c = some (notes', after)) : after.rest.length ≤ c.rest.length := by
  induction shape generalizing notes c with
  | nil =>
    cases h
    exact Nat.le_refl _
  | cons piece shape ih =>
    obtain ⟨⟨_, c₁⟩, h₁, h⟩ := Option.bind_eq_some_iff.1 h
    exact Nat.le_trans (ih h) (Piece.length_read? h₁)

/-- A shape with a name in it takes up at least one character. -/
theorem Shape.length_read?_lt {shape : Shape} (hname : Piece.name ∈ shape) {notes notes' : Notes}
    {c after : Cursor} (h : shape.read? notes c = some (notes', after)) :
    after.rest.length < c.rest.length := by
  induction shape generalizing notes c with
  | nil => simp at hname
  | cons piece shape ih =>
    obtain ⟨⟨_, c₁⟩, h₁, h⟩ := Option.bind_eq_some_iff.1 h
    rcases List.mem_cons.1 hname with rfl | hname
    · obtain ⟨⟨_, c₂⟩, h₂, h₁⟩ := Option.map_eq_some_iff.1 h₁
      cases h₁
      exact Nat.lt_of_le_of_lt (Shape.length_read? h) (Piece.length_readName?_lt h₂)
    · exact Nat.lt_of_lt_of_le (ih hname h) (Piece.length_read? h₁)

end QueryHarvest.Sql
