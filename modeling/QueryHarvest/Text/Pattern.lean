import QueryHarvest.Text.Cursor

/-! # Patterns

A pattern recognises something at a place in a text and tells where it ends. Every match takes up at
least one character, so that a text can be searched for all matches, leftmost first and without
overlap. -/

namespace QueryHarvest.Text

/-- A recogniser of pieces of text. -/
structure Pattern (α : Type) where
  match? : Cursor → Option (α × Cursor)
  shrinks : ∀ {c after : Cursor} {a : α}, match? c = some (a, after) → after.rest.length < c.rest.length

/-- Something recognised, with the place where it begins and the place after it. -/
structure Match (α : Type) where
  place : Cursor
  value : α
  after : Cursor

namespace Pattern

variable {α : Type}

/-- All matches from a place on: at every place the pattern is tried, and after a match the search
goes on behind it. -/
def findAll (p : Pattern α) (c : Cursor) : List (Match α) :=
  match _h : p.match? c with
  | some (value, after) => ⟨c, value, after⟩ :: p.findAll after
  | none =>
    match _hr : c.rest with
    | [] => []
    | x :: rest => p.findAll ⟨some x, rest⟩
termination_by c.rest.length
decreasing_by
  · exact p.shrinks _h
  · simp [_hr]

def allIn (p : Pattern α) (text : List Char) : List (Match α) :=
  p.findAll (Cursor.start text)

/-- The text cut into its matches and the characters between them. -/
def cut (p : Pattern α) (c : Cursor) : List (Char ⊕ Match α) :=
  match _h : p.match? c with
  | some (value, after) => .inr ⟨c, value, after⟩ :: p.cut after
  | none =>
    match _hr : c.rest with
    | [] => []
    | x :: rest => .inl x :: p.cut ⟨some x, rest⟩
termination_by c.rest.length
decreasing_by
  · exact p.shrinks _h
  · simp [_hr]

end Pattern

end QueryHarvest.Text
