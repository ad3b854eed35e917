import QueryHarvest.Sql.Operator
import QueryHarvest.Text.Quoted
import QueryHarvest.Value.Basic

/-! # Conditions

One filter on a column. A null check has no values, and every other condition has some. -/

namespace QueryHarvest.Sql

/-- A filter on a column, perhaps of a named table. -/
structure Condition where
  table : Option String
  column : String
  operator : Operator
  values : List Value
  values_isEmpty : values.isEmpty = operator.isNullCheck

/-- Why there is no such condition. -/
inductive ConditionError where
  | unknownOperator (spelling : String)
  /-- A null check with values, or another operator without. -/
  | valueCount (operator : Operator) (column : String) (count : Nat)
  deriving DecidableEq, Repr

def ConditionError.message : ConditionError → String
  | .unknownOperator spelling => "Unknown condition operator: " ++ Text.quoted spelling
  | .valueCount operator column count =>
    operator.text ++ " condition on " ++ Text.quoted column ++ s!" has {count} value(s)"

namespace Condition

/-- A condition, if the number of values fits the operator. -/
def make (table : Option String) (column : String) (operator : Operator) (values : List Value) :
    Except ConditionError Condition :=
  if h : values.isEmpty = operator.isNullCheck then .ok ⟨table, column, operator, values, h⟩
  else .error (.valueCount operator column values.length)

/-- A condition whose operator is given by its spelling. -/
def ofSpelling (table : Option String) (column spelling : String) (values : List Value) :
    Except ConditionError Condition :=
  match Operator.ofText? spelling with
  | some operator => make table column operator values
  | none => .error (.unknownOperator spelling)

/-- What a condition filters: a table, if it is known, and a column. -/
def key (c : Condition) : Option String × String := (c.table, c.column)

def withTable (c : Condition) (table : Option String) : Condition := { c with table }

end Condition

end QueryHarvest.Sql
