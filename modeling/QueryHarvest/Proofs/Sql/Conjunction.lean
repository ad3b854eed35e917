import QueryHarvest.Proofs.Number.Digits
import QueryHarvest.Proofs.Sql.NormalForm
import QueryHarvest.Sql.Predicate
import QueryHarvest.Sql.Table

/-! # Conjunctions of filters

Statements that select from one table the rows on which some filters hold, how they are written, and
the conditions that they denote.
-/

namespace QueryHarvest.Sql

open Number Text

def isNameStart (c : Char) : Bool :=
  c.isLower || c == '_'

def isNamePart (c : Char) : Bool :=
  isNameStart c || c.isDigit

/-- Is the text a name in lower case? -/
def isName : List Char → Bool
  | [] => false
  | x :: text => isNameStart x && text.all isNamePart

/-- A name in lower case other than the reserved words. -/
structure Name where
  text : String
  isName : isName text.toList
  unreserved : isReservedName text = false

/-- What a filter asks of its column; placeholders are given by their indices. -/
inductive Test where
  | equals (n : Nat)
  | isIn (first : Nat) (others : List Nat)
  | notIn (first : Nat) (others : List Nat)
  | anyOf (n : Nat)
  | compares (comparison : Comparison) (n : Nat)
  | between (low high : Nat)
  | like (n : Nat)
  | ilike (n : Nat)
  | isNull
  | isNotNull
  | notLike (n : Nat)
  | notIlike (n : Nat)
  | notBetween (low high : Nat)

/-- A filter on a column. The keywords that a table follows are no columns. -/
structure Conjunct where
  column : Name
  test : Test
  noKeyword : column.text ∉ ["from", "join", "into", "update"]

def placeholder (n : Nat) : String :=
  "$" ++ toString n

def placeholders (first : Nat) (others : List Nat) : String :=
  "(" ++ ", ".intercalate ((first :: others).map placeholder) ++ ")"

def Test.text : Test → String
  | .equals n => "= " ++ placeholder n
  | .isIn first others => "IN " ++ placeholders first others
  | .notIn first others => "NOT IN " ++ placeholders first others
  | .anyOf n => "= ANY(" ++ placeholder n ++ ")"
  | .compares comparison n => comparison.text ++ " " ++ placeholder n
  | .between low high => "BETWEEN " ++ placeholder low ++ " AND " ++ placeholder high
  | .like n => "LIKE " ++ placeholder n
  | .ilike n => "ILIKE " ++ placeholder n
  | .isNull => "IS NULL"
  | .isNotNull => "IS NOT NULL"
  | .notLike n => "NOT LIKE " ++ placeholder n
  | .notIlike n => "NOT ILIKE " ++ placeholder n
  | .notBetween low high => "NOT BETWEEN " ++ placeholder low ++ " AND " ++ placeholder high

def Conjunct.text (f : Conjunct) : String :=
  f.column.text ++ " " ++ f.test.text

/-- The statement that selects from a table the rows on which all the filters hold. -/
def query (table : Name) (filters : List Conjunct) : String :=
  "SELECT * FROM " ++ table.text ++ " WHERE " ++ " AND ".intercalate (filters.map Conjunct.text)

/-- What a condition says: its table, its column, its operator and its values. -/
def Condition.fields (c : Condition) : Option String × String × Operator × List Value :=
  (c.table, c.column, c.operator, c.values)

/-- The parameter that a placeholder stands for. -/
def parameterOf (parameters : List Value) (n : Nat) : Value :=
  parameters.getD (n - 1) .null

namespace Test

/-- The kind of predicate under which a test is reported, and its operator. A negated match or range
is not reported. -/
def report? : Test → Option (PredicateKind × Operator)
  | .equals _ => some (.equality, .equals)
  | .isIn _ _ => some (.membership, .isIn)
  | .notIn _ _ => some (.negatedMembership, .notIn)
  | .anyOf _ => some (.arrayEquality, .anyOf)
  | .compares comparison _ => some (.comparison, .compares comparison)
  | .between _ _ => some (.range, .between)
  | .like _ => some (.patternMatch, .like)
  | .ilike _ => some (.patternMatch, .ilike)
  | .isNull => some (.nullCheck, .isNull)
  | .isNotNull => some (.nullCheck, .isNotNull)
  | .notLike _ => none
  | .notIlike _ => none
  | .notBetween _ _ => none

def indices : Test → List Nat
  | .equals n => [n]
  | .isIn first others => first :: others
  | .notIn first others => first :: others
  | .anyOf n => [n]
  | .compares _ n => [n]
  | .between low high => [low, high]
  | .like n => [n]
  | .ilike n => [n]
  | .isNull => []
  | .isNotNull => []
  | .notLike n => [n]
  | .notIlike n => [n]
  | .notBetween low high => [low, high]

/-- The values of a test: the parameters of its placeholders, where an array that the column is
compared with stands for its members. -/
def values (parameters : List Value) : Test → List Value
  | .anyOf n =>
    match parameterOf parameters n with
    | .list items => items
    | .tuple items => items
    | value => [value]
  | test => test.indices.map (parameterOf parameters)

/-- The placeholders of a test stand for parameters, and no array is empty. -/
structure Fits (parameters : List Value) (test : Test) : Prop where
  indexed : ∀ n ∈ test.indices, 1 ≤ n ∧ n ≤ parameters.length
  filled : ∀ n, test = .anyOf n →
    parameterOf parameters n ≠ .list [] ∧ parameterOf parameters n ≠ .tuple []

end Test

/-- What a filter reports under a kind of predicate. -/
def Conjunct.reported (parameters : List Value) (kind : PredicateKind) (f : Conjunct) :
    List (Option String × String × Operator × List Value) :=
  match f.test.report? with
  | some (own, operator) =>
    if own = kind then [(none, f.column.text, operator, f.test.values parameters)] else []
  | none => []

/-- The kinds of predicates on bare columns, in the order in which they are reported. -/
def reportOrder : List PredicateKind :=
  [.equality, .membership, .negatedMembership, .arrayEquality, .comparison, .range, .patternMatch,
   .nullCheck]

/-- What the filters denote: by kind, then in the order of the statement. -/
def denotation (parameters : List Value) (filters : List Conjunct) :
    List (Option String × String × Operator × List Value) :=
  reportOrder.flatMap fun kind => filters.flatMap (Conjunct.reported parameters kind)

def spelledPlaceholder (n : Nat) : List Char :=
  '$' :: Nat.toDigits 10 n

/-- The placeholders of a list, with what stands between them. -/
def spelledList (first : Nat) (others : List Nat) : List Char :=
  spelledPlaceholder first ++ others.flatMap fun n => ',' :: ' ' :: spelledPlaceholder n

def spelledIn (first : Nat) (others : List Nat) : List Char :=
  'I' :: 'N' :: ' ' :: '(' :: (spelledList first others ++ [')'])

def spelledRange (low high : Nat) : List Char :=
  'B' :: 'E' :: 'T' :: 'W' :: 'E' :: 'E' :: 'N' :: ' ' ::
    (spelledPlaceholder low ++ ' ' :: 'A' :: 'N' :: 'D' :: ' ' :: spelledPlaceholder high)

def spelledLike (n : Nat) : List Char :=
  'L' :: 'I' :: 'K' :: 'E' :: ' ' :: spelledPlaceholder n

def Comparison.spelled : Comparison → List Char
  | .atLeast => ['>', '=']
  | .atMost => ['<', '=']
  | .above => ['>']
  | .below => ['<']
  | .differs => ['!', '=']
  | .differsAngle => ['<', '>']

def Test.spelled : Test → List Char
  | .equals n => '=' :: ' ' :: spelledPlaceholder n
  | .isIn first others => spelledIn first others
  | .notIn first others => 'N' :: 'O' :: 'T' :: ' ' :: spelledIn first others
  | .anyOf n => '=' :: ' ' :: 'A' :: 'N' :: 'Y' :: '(' :: (spelledPlaceholder n ++ [')'])
  | .compares comparison n => comparison.spelled ++ ' ' :: spelledPlaceholder n
  | .between low high => spelledRange low high
  | .like n => spelledLike n
  | .ilike n => 'I' :: spelledLike n
  | .isNull => ['I', 'S', ' ', 'N', 'U', 'L', 'L']
  | .isNotNull => ['I', 'S', ' ', 'N', 'O', 'T', ' ', 'N', 'U', 'L', 'L']
  | .notLike n => 'N' :: 'O' :: 'T' :: ' ' :: spelledLike n
  | .notIlike n => 'N' :: 'O' :: 'T' :: ' ' :: 'I' :: spelledLike n
  | .notBetween low high => 'N' :: 'O' :: 'T' :: ' ' :: spelledRange low high

namespace Name

def letters (name : Name) : List Char :=
  name.text.toList

end Name

def Conjunct.spelled (f : Conjunct) : List Char :=
  f.column.letters ++ ' ' :: f.test.spelled

/-- The filters after the first one, each behind its `AND`. -/
def spelledRest (filters : List Conjunct) : List Char :=
  filters.flatMap fun f => ' ' :: 'A' :: 'N' :: 'D' :: ' ' :: f.spelled

/-- A table with the condition on its rows. -/
def spelledTable (table : Name) (condition : List Char) : List Char :=
  table.letters ++ ' ' :: 'W' :: 'H' :: 'E' :: 'R' :: 'E' :: ' ' :: condition

@[simp] theorem toList_placeholder (n : Nat) : (placeholder n).toList = spelledPlaceholder n := by
  simp [placeholder, spelledPlaceholder]

@[simp] theorem toList_placeholders (first : Nat) (others : List Nat) :
    (placeholders first others).toList = '(' :: (spelledList first others ++ [')']) := by
  simp [placeholders, spelledList, List.flatMap_map]

@[simp] theorem toList_comparison (comparison : Comparison) :
    comparison.text.toList = comparison.spelled := by
  cases comparison <;> rfl

@[simp] theorem toList_test (test : Test) : test.text.toList = test.spelled := by
  cases test <;>
    simp [Test.text, Test.spelled, spelledIn, spelledRange, spelledLike]

@[simp] theorem toList_conjunct (f : Conjunct) : f.text.toList = f.spelled := by
  simp [Conjunct.text, Conjunct.spelled, Name.letters]

theorem toList_query (table : Name) (f : Conjunct) (filters : List Conjunct) :
    (query table (f :: filters)).toList =
      'S' :: 'E' :: 'L' :: 'E' :: 'C' :: 'T' :: ' ' :: '*' :: ' ' ::
        'F' :: 'R' :: 'O' :: 'M' :: ' ' :: spelledTable table (f.spelled ++ spelledRest filters) := by
  simp [query, spelledRest, spelledTable, Name.letters, List.flatMap_map]

end QueryHarvest.Sql
