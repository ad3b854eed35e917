import QueryHarvest.Session.Aggregate
import QueryHarvest.Value.Literal

/-! # Rendered conditions

Conditions as fragments of SQL, for use behind `WHERE`. Texts are quoted without escaping, so a value
that holds a quote gives a broken fragment. A condition that shows an integer of too many digits is not
rendered. -/

namespace QueryHarvest.Session

open Sql Number

/-- A fragment and the table that it filters. -/
structure Fragment where
  table : String
  condition : String
  deriving DecidableEq, Repr

/-- The values that a condition shows: all, but of a range only the first and the last. Ranges that have
been united run from one to the other. -/
def shownValues (c : Condition) : List Value :=
  match c.operator with
  | .between => c.values.head?.toList ++ c.values.getLast?.toList
  | _ => c.values

/-- A comparison with each of some literals: one stands alone, several are alternatives. -/
def alternativesText (column operator : String) : List String → String
  | [literal] => column ++ " " ++ operator ++ " " ++ literal
  | literals =>
    "(" ++ String.intercalate " OR "
      (literals.map fun literal => column ++ " " ++ operator ++ " " ++ literal) ++ ")"

/-- A condition on a column as SQL, with the literals of the values that it shows. -/
def conditionText (column : String) (operator : Operator) (literals : List String) : String :=
  match operator with
  | .between => column ++ " BETWEEN " ++ String.intercalate " AND " literals
  | .isNull => column ++ " IS NULL"
  | .isNotNull => column ++ " IS NOT NULL"
  | .compares comparison => alternativesText column comparison.text literals
  | .like => alternativesText column Operator.like.text literals
  | .ilike => alternativesText column Operator.ilike.text literals
  | .notIn => column ++ " NOT IN (" ++ String.intercalate ", " literals ++ ")"
  | .equals | .isIn | .anyOf =>
    match literals with
    | [literal] => column ++ " = " ++ literal
    | literals => column ++ " IN (" ++ String.intercalate ", " literals ++ ")"

def renderCondition (c : Condition) : Except WritingError String := do
  let literals ← (shownValues c).mapM Value.literal
  return conditionText c.column c.operator literals

/-- The fragment of a condition that knows its table. -/
def fragment? (c : Condition) : Except WritingError (Option Fragment) := do
  match c.table with
  | none => return none
  | some table => if table.isEmpty then return none else return some ⟨table, ← renderCondition c⟩

/-- The fragments of some conditions; those without a table are left out. -/
def render (conditions : List Condition) : Except WritingError (List Fragment) := do
  let fragments ← conditions.mapM fragment?
  return fragments.filterMap id

end QueryHarvest.Session
