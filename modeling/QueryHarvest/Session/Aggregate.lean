import QueryHarvest.Notice
import QueryHarvest.Sql.Condition
import QueryHarvest.Value.Order

/-! # Aggregating a session

A session collects the tables and conditions of many statements. Conditions on one column of one table
become one: the first operator stays, and the values are united. A condition without a table takes the
first table of its own statement. -/

namespace QueryHarvest.Session

open Sql

/-- The conditions of one key: the operator of the first, and the values of all, each once. -/
structure Entry where
  table : Option String
  column : String
  operator : Operator
  values : List Value

def Entry.holds (key : Option String × String) (e : Entry) : Bool :=
  e.table == key.1 && e.column == key.2

end QueryHarvest.Session

namespace QueryHarvest

/-- What has been collected so far, in the order of first appearance. -/
structure Session where
  tables : List String := []
  entries : List Session.Entry := []
  queryCount : Nat := 0

end QueryHarvest

namespace QueryHarvest.Session

open Sql

/-- What a session comes to. -/
structure Analysis where
  tables : List String
  conditions : List Condition
  queryCount : Nat

def Analysis.isGap (a : Analysis) : Bool := a.conditions.isEmpty

/-- The session after adding, what was noticed, and why adding stopped early, if it did. -/
structure Added where
  session : Session
  notices : List Notice
  error : Option KeyError

def addTable (tables : List String) (table : String) : List String :=
  if tables.contains table then tables else tables ++ [table]

/-- Unite a fixed value with those already there; the one that came first stays. -/
def addValue (values : List Value) (value : Value) : List Value :=
  if values.any value.merges then values else values ++ [value]

/-- Unite values with those already there, up to the first that serves as no key. -/
def addValues (values : List Value) : List Value → List Value × Option KeyError
  | [] => (values, none)
  | value :: rest =>
    match value.freeze.keyError? with
    | some error => (values, some error)
    | none => addValues (addValue values value.freeze) rest

/-- A later condition on a key had another operator, which is dropped. -/
def divergence (c : Condition) (kept : Operator) : Notice :=
  ⟨.debug, "[AGGREGATOR] " ++ c.table.getD "None" ++ "." ++ c.column ++ ": keeping operator " ++
    Text.quoted kept.text ++ ", dropping " ++ Text.quoted c.operator.text⟩

def entry? (s : Session) (key : Option String × String) : Option Entry :=
  s.entries.find? (Entry.holds key)

def setValues (s : Session) (key : Option String × String) (values : List Value) : Session :=
  { s with entries := s.entries.map fun e => if e.holds key then { e with values } else e }

/-- Add one condition, whose table has been settled. A null check takes no values. -/
def addCondition (s : Session) (c : Condition) : Added :=
  let (s, entry, notices) : Session × Entry × List Notice :=
    match s.entry? c.key with
    | some entry => (s, entry, if entry.operator = c.operator then [] else [divergence c entry.operator])
    | none =>
      let entry : Entry := ⟨c.table, c.column, c.operator, []⟩
      ({ s with entries := s.entries ++ [entry] }, entry, [])
  if entry.operator.isNullCheck then ⟨s, notices, none⟩
  else
    let (values, error) := addValues entry.values c.values
    ⟨s.setValues c.key values, notices, error⟩

/-- Add conditions in turn, up to the first that fails. -/
def addConditions (s : Session) : List Condition → Added
  | [] => ⟨s, [], none⟩
  | c :: rest =>
    let added := s.addCondition c
    match added.error with
    | some error => ⟨added.session, added.notices, some error⟩
    | none =>
      let later := added.session.addConditions rest
      ⟨later.session, added.notices ++ later.notices, later.error⟩

/-- A condition with the table that it filters, where the first table of its statement is known. -/
def settle (first : Option String) (c : Condition) : Condition :=
  if c.table.isNone then c.withTable first else c

/-- Add the tables and the conditions of one statement. -/
def add (s : Session) (tables : List String) (conditions : List Condition) : Added :=
  { s with queryCount := s.queryCount + 1, tables := tables.foldl addTable s.tables }.addConditions
    (conditions.map (settle tables.head?))

/-- What the session comes to: the tables in order, and a condition for every entry, its values in
order. -/
def result (s : Session) : Except ConditionError Analysis := do
  let conditions ← s.entries.mapM fun e =>
    Condition.make e.table e.column e.operator (Value.sort e.values)
  return ⟨s.tables.mergeSort fun a b => a ≤ b, conditions, s.queryCount⟩

end QueryHarvest.Session
