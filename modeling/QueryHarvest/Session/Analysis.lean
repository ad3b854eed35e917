import QueryHarvest.Capture.Log
import QueryHarvest.Session.Aggregate
import QueryHarvest.Sql.Predicate
import QueryHarvest.Sql.Table

/-! # Analysing a session

Every captured statement is searched for tables and conditions, and what is found is aggregated. -/

namespace QueryHarvest.Session

open Sql Capture

/-- Longer statements are not searched, unless another limit is set. -/
def defaultMaxLength : Nat := 100000

/-- Why a session has no analysis. -/
inductive AnalysisError where
  | input (error : InputError)
  | extraction (error : ExtractionError)
  | key (error : KeyError)
  | condition (error : ConditionError)
  deriving DecidableEq, Repr

def AnalysisError.message : AnalysisError → String
  | .input error => error.message
  | .extraction error => error.message
  | .key error => error.message
  | .condition error => error.message

def skippedStatement (length limit : Nat) : Notice :=
  ⟨.warning, s!"[ANALYZER] Skipping query of {length} chars (limit {limit})"⟩

def analysisDone (a : Analysis) : Notice :=
  let tables := a.tables.length
  let conditions := a.conditions.length
  ⟨.debug, s!"[ANALYZER] {a.queryCount} queries -> {tables} tables, {conditions} conditions"⟩

/-- Is a statement too long to be searched? A limit of zero is none. -/
def isTooLong (limit : Nat) (query : String) : Bool :=
  limit != 0 && query.length > limit

def analyzeQuery (limit : Nat) (query : String) (parameters : List Value) :
    Except ExtractionError (List String × List Condition) :=
  if isTooLong limit query then .ok ([], [])
  else do
    let conditions ← conditions query parameters
    return (Sql.tables query, conditions)

def addRecord (limit : Nat) (s : Session) (record : Record) : Noted (Except AnalysisError Session) :=
  let skipped :=
    if isTooLong limit record.query then [skippedStatement record.query.length limit] else []
  match analyzeQuery limit record.query record.parameters with
  | .error error => ⟨.error (.extraction error), skipped⟩
  | .ok (tables, conditions) =>
    let added := s.add tables conditions
    ⟨added.error.elim (.ok added.session) fun error => .error (.key error), skipped ++ added.notices⟩

def addRecords (limit : Nat) (s : Session) : List Record → Noted (Except AnalysisError Session)
  | [] => ⟨.ok s, []⟩
  | record :: rest =>
    let first := addRecord limit s record
    match first.value with
    | .error error => ⟨.error error, first.notices⟩
    | .ok s =>
      let later := addRecords limit s rest
      ⟨later.value, first.notices ++ later.notices⟩

def analyze (limit : Nat) (records : List Record) : Noted (Except AnalysisError Analysis) :=
  let added := addRecords limit {} records
  match added.value with
  | .error error => ⟨.error error, added.notices⟩
  | .ok session =>
    match session.result with
    | .error error => ⟨.error (.condition error), added.notices⟩
    | .ok analysis => ⟨.ok analysis, added.notices ++ [analysisDone analysis]⟩

def analyzeReading (limit : Nat) (reading : Reading) : Noted (Except AnalysisError Analysis) :=
  match reading.error with
  | some error => ⟨.error (.input error), reading.notices⟩
  | none =>
    let analysis := analyze limit reading.records
    ⟨analysis.value, reading.notices ++ analysis.notices⟩

def Analysis.toValue (a : Analysis) : Value :=
  .object [
    ("tables", .list (a.tables.map .text)),
    ("conditions", .list (a.conditions.map fun c => .object [
      ("table", c.table.elim .null .text),
      ("column", .text c.column),
      ("operator", .text c.operator.text),
      ("values", .list c.values)])),
    ("queryCount", .int a.queryCount)]

end QueryHarvest.Session
