import QueryHarvest.Sql.Condition
import QueryHarvest.Sql.NormalForm
import QueryHarvest.Sql.Parameter
import QueryHarvest.Sql.Word
import QueryHarvest.Text.Case

/-! # Conditions of a statement

A statement is searched for predicates of several kinds, each on a bare column, on one qualified by a
table, or on both. The searches are independent: a qualified predicate is found twice, with its table
and without. Operators such as `AND` and `OR` are not looked at. -/

namespace QueryHarvest.Sql

open Number Text

/-- The kinds of predicates. -/
inductive PredicateKind where
  | equality
  | membership
  | negatedMembership
  | arrayEquality
  | comparison
  | range
  | patternMatch
  | nullCheck
  | integerLiteral
  | stringLiteral
  deriving DecidableEq, Repr

namespace PredicateKind

/-- What stands behind the column in a predicate. -/
def shape : PredicateKind → Shape
  | .equality => [.blanks, .symbol '=', .blanks, .placeholder]
  | .membership => [.gap, .word ['i', 'n'], .blanks, .symbol '(', .list, .symbol ')']
  | .negatedMembership =>
    [.gap, .word ['n', 'o', 't'], .gap, .word ['i', 'n'], .blanks, .symbol '(', .list, .symbol ')']
  | .arrayEquality =>
    [.blanks, .symbol '=', .blanks, .word ['a', 'n', 'y'], .blanks, .symbol '(', .blanks,
     .placeholder, .blanks, .symbol ')']
  | .comparison => [.blanks, .comparison, .blanks, .placeholder]
  | .range =>
    [.gap, .word ['b', 'e', 't', 'w', 'e', 'e', 'n'], .gap, .placeholder, .gap,
     .word ['a', 'n', 'd'], .gap, .placeholder]
  | .patternMatch => [.gap, .like, .gap, .placeholder]
  | .nullCheck =>
    [.gap, .word ['i', 's'], .gap, .negation, .word ['n', 'u', 'l', 'l'], .wordEnd]
  | .integerLiteral => [.blanks, .symbol '=', .blanks, .number, .numberEnd]
  | .stringLiteral => [.blanks, .symbol '=', .blanks, .quoted]

def name : PredicateKind → String
  | .equality => "equality"
  | .membership => "membership"
  | .negatedMembership => "negated_membership"
  | .arrayEquality => "array_equality"
  | .comparison => "comparison"
  | .range => "range"
  | .patternMatch => "pattern_match"
  | .nullCheck => "null_check"
  | .integerLiteral => "integer_literal"
  | .stringLiteral => "string_literal"

end PredicateKind

/-- A family of predicates: a kind, on bare or on qualified columns. -/
structure Family where
  kind : PredicateKind
  qualified : Bool
  deriving DecidableEq, Repr

namespace Family

def name (f : Family) : String :=
  f.kind.name ++ if f.qualified then ".qualified" else ""

/-- All families, in the order in which their conditions are reported. -/
def all : List Family :=
  [⟨.equality, false⟩, ⟨.equality, true⟩,
   ⟨.membership, false⟩, ⟨.membership, true⟩,
   ⟨.negatedMembership, false⟩, ⟨.negatedMembership, true⟩,
   ⟨.arrayEquality, false⟩, ⟨.arrayEquality, true⟩,
   ⟨.comparison, false⟩, ⟨.comparison, true⟩,
   ⟨.range, false⟩, ⟨.range, true⟩,
   ⟨.patternMatch, false⟩, ⟨.patternMatch, true⟩,
   ⟨.nullCheck, false⟩, ⟨.nullCheck, true⟩,
   ⟨.integerLiteral, true⟩,
   ⟨.stringLiteral, true⟩]

def ofName? (name : String) : Option Family :=
  all.find? fun family => family.name == name

end Family

/-- A predicate as it is written. -/
structure Predicate where
  qualifier : Option (List Char)
  column : List Char
  notes : Notes
  deriving DecidableEq, Repr

/-- Read a column, with the table and the point in front of it where it is qualified. -/
def readColumn? (qualified : Bool) (c : Cursor) : Option ((Option (List Char) × List Char) × Cursor) := do
  let (first, c) ← c.identifier?
  if qualified then
    let c ← c.one? (· == '.')
    let (second, c) ← c.identifier?
    return ((some first, second), c)
  else return ((none, first), c)

theorem length_readColumn? {qualified : Bool} {c after : Cursor}
    {found : Option (List Char) × List Char} (h : readColumn? qualified c = some (found, after)) :
    after.rest.length < c.rest.length := by
  obtain ⟨⟨first, c₁⟩, h₁, h⟩ := Option.bind_eq_some_iff.1 h
  have := Cursor.length_identifier? h₁
  cases qualified with
  | false =>
    cases h
    assumption
  | true =>
    obtain ⟨c₂, h₂, h⟩ := Option.bind_eq_some_iff.1 h
    obtain ⟨⟨second, c₃⟩, h₃, h⟩ := Option.bind_eq_some_iff.1 h
    cases h
    have := Cursor.length_one? h₂
    have := Cursor.length_identifier? h₃
    omega

def Family.readPredicate? (f : Family) (c : Cursor) : Option (Predicate × Cursor) := do
  let ((qualifier, column), c) ← readColumn? f.qualified c
  let (notes, after) ← f.kind.shape.read? {} c
  return (⟨qualifier, column, notes⟩, after)

/-- The pattern of a family: its predicates begin where a word begins. -/
def Family.pattern (f : Family) : Pattern Predicate where
  match? c := if c.beginsWord then f.readPredicate? c else none
  shrinks h := by
    split at h
    · obtain ⟨⟨⟨_, _⟩, c₁⟩, h₁, h⟩ := Option.bind_eq_some_iff.1 h
      obtain ⟨⟨_, c₂⟩, h₂, h⟩ := Option.bind_eq_some_iff.1 h
      cases h
      exact Nat.lt_of_le_of_lt (Shape.length_read? h₂) (length_readColumn? h₁)
    · contradiction

/-- The predicates of a family in a text in normal form, in the order of the text. -/
def Family.predicatesIn (f : Family) (text : List Char) : List (Match Predicate) :=
  f.pattern.allIn text

/-- Why a statement has no conditions to report. -/
inductive ExtractionError where
  | condition (error : ConditionError)
  | integer (error : IntegerError)
  deriving DecidableEq, Repr

def ExtractionError.message : ExtractionError → String
  | .condition error => error.message
  | .integer error => error.message

/-- The column that a condition filters, with its table where that is known. -/
structure ColumnName where
  table : Option String
  column : String
  deriving DecidableEq, Repr

namespace Predicate

/-- The column of a predicate, in lower case. A predicate on a reserved word has none. -/
def columnName? (p : Predicate) : Option ColumnName :=
  let column := String.ofList (lower p.column)
  let table := p.qualifier.map fun qualifier => String.ofList (lower qualifier)
  if isReservedName column || table.any isReservedName then none else some ⟨table, column⟩

/-- The parameter of the placeholder at a position in the predicate. -/
def parameterAt (p : Predicate) (parameters : List Value) (position : Nat) :
    Except ExtractionError (Option Value) :=
  match p.notes.placeholders[position]? with
  | some placeholder => (parameter? parameters placeholder.digits).mapError .integer
  | none => .ok none

/-- The operator and the values of a predicate, unless a placeholder in it stands for nothing. The
operator is given by its spelling. -/
def content (p : Predicate) (parameters : List Value) :
    PredicateKind → Except ExtractionError (Option (String × List Value))
  | .equality => do
    return (← p.parameterAt parameters 0).map fun value => (Operator.equals.text, [value])
  | .membership => do
    let values ← (parametersIn parameters p.notes.text).mapError .integer
    return if values.isEmpty then none else some (Operator.isIn.text, values)
  | .negatedMembership => do
    let values ← (parametersIn parameters p.notes.text).mapError .integer
    return if values.isEmpty then none else some (Operator.notIn.text, values)
  | .arrayEquality => do
    match ← p.parameterAt parameters 0 with
    | none => return none
    | some (.list []) => return none
    | some (.tuple []) => return none
    | some (.list values) => return some (Operator.anyOf.text, values)
    | some (.tuple values) => return some (Operator.anyOf.text, values)
    | some value => return some (Operator.anyOf.text, [value])
  | .comparison => do
    return (← p.parameterAt parameters 0).map fun value =>
      (String.ofList (upper p.notes.text), [value])
  | .range => do
    let low ← p.parameterAt parameters 0
    let high ← p.parameterAt parameters 1
    match low, high with
    | some low, some high => return some (Operator.between.text, [low, high])
    | _, _ => return none
  | .patternMatch => do
    return (← p.parameterAt parameters 0).map fun value =>
      (String.ofList (upper p.notes.text), [value])
  | .nullCheck =>
    return some ((if p.notes.negated then Operator.isNotNull else Operator.isNull).text, [])
  | .integerLiteral => do
    let n ← (ofDigits p.notes.text).mapError .integer
    return some (Operator.equals.text, [.int n])
  | .stringLiteral =>
    return some (Operator.equals.text, [.text (String.ofList p.notes.text)])

/-- The condition that a predicate of some kind states, if it states one. -/
def condition? (p : Predicate) (parameters : List Value) (kind : PredicateKind) :
    Except ExtractionError (Option Condition) :=
  match p.columnName? with
  | none => return none
  | some name => do
    match ← p.content parameters kind with
    | none => return none
    | some (operator, values) =>
      let condition ←
        (Condition.ofSpelling name.table name.column operator values).mapError .condition
      return some condition

end Predicate

/-- The conditions of one family in a text in normal form. -/
def Family.conditionsIn (f : Family) (text : List Char) (parameters : List Value) :
    Except ExtractionError (List Condition) := do
  let found ← (f.predicatesIn text).mapM fun found => found.value.condition? parameters f.kind
  return found.filterMap id

/-- The conditions of some families in a text in normal form: by family, then in the order of the
text. -/
def conditionsIn (families : List Family) (text : List Char) (parameters : List Value) :
    Except ExtractionError (List Condition) := do
  let found ← families.mapM fun family => family.conditionsIn text parameters
  return found.flatten

/-- The conditions of a statement with its parameters. -/
def conditions (statement : String) (parameters : List Value) :
    Except ExtractionError (List Condition) :=
  conditionsIn Family.all (normalForm statement.toList) parameters

end QueryHarvest.Sql
