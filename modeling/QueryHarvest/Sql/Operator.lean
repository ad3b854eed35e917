/-! # Operators

The operators of conditions and their spelling. -/

namespace QueryHarvest.Sql

/-- The order comparisons other than equality. -/
inductive Comparison where
  | atLeast
  | atMost
  | above
  | below
  | differs
  /-- The second spelling of `differs`, which is kept apart. -/
  | differsAngle
  deriving DecidableEq, Repr

/-- What a condition says about its column. -/
inductive Operator where
  | equals
  | isIn
  | notIn
  /-- Equality with some member of an array. -/
  | anyOf
  | between
  | compares (comparison : Comparison)
  | like
  | ilike
  | isNull
  | isNotNull
  deriving DecidableEq, Repr

def Comparison.text : Comparison → String
  | .atLeast => ">="
  | .atMost => "<="
  | .above => ">"
  | .below => "<"
  | .differs => "!="
  | .differsAngle => "<>"

namespace Operator

def text : Operator → String
  | .equals => "="
  | .isIn => "IN"
  | .notIn => "NOT IN"
  | .anyOf => "=ANY"
  | .between => "BETWEEN"
  | .compares comparison => comparison.text
  | .like => "LIKE"
  | .ilike => "ILIKE"
  | .isNull => "IS NULL"
  | .isNotNull => "IS NOT NULL"

def all : List Operator :=
  [.equals, .isIn, .notIn, .anyOf, .between, .compares .atLeast, .compares .atMost, .compares .above,
   .compares .below, .compares .differs, .compares .differsAngle, .like, .ilike, .isNull, .isNotNull]

def ofText? (spelling : String) : Option Operator :=
  all.find? fun operator => operator.text == spelling

/-- Does the operator ask whether the column is null? -/
def isNullCheck : Operator → Bool
  | .isNull => true
  | .isNotNull => true
  | _ => false

end Operator

end QueryHarvest.Sql
