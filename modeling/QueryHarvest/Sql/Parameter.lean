import QueryHarvest.Number.Integer
import QueryHarvest.Sql.Shape
import QueryHarvest.Value.Basic

/-! # Parameters

A placeholder `$n` stands for the `n`-th parameter of its statement, counted from one. One whose index
is zero or too large stands for nothing. -/

namespace QueryHarvest.Sql

open Number Text

def parameter? (parameters : List Value) (digits : List Char) : Except IntegerError (Option Value) := do
  let index ← ofDigits digits
  return if index == 0 then none else parameters[index - 1]?

def placeholderPattern : Pattern Placeholder where
  match? := Piece.readPlaceholder?
  shrinks h := by
    obtain ⟨c₁, h₁, h⟩ := Option.bind_eq_some_iff.1 h
    obtain ⟨⟨digits, c₂⟩, h₂, h⟩ := Option.bind_eq_some_iff.1 h
    cases h
    have := Cursor.length_one? h₁
    have := Cursor.length_span1? h₂
    omega

def placeholdersIn (text : List Char) : List Placeholder :=
  (placeholderPattern.allIn text).map (·.value)

/-- The parameters that the placeholders in a text stand for, without those that stand for nothing. -/
def parametersIn (parameters : List Value) (text : List Char) : Except IntegerError (List Value) := do
  let found ← (placeholdersIn text).mapM fun placeholder => parameter? parameters placeholder.digits
  return found.filterMap id

end QueryHarvest.Sql
