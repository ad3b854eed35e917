import QueryHarvest.Capture.Clock
import QueryHarvest.Capture.Marker
import QueryHarvest.Capture.Record
import QueryHarvest.Capture.Storable
import QueryHarvest.Files.Tree
import QueryHarvest.Json.Writer
import QueryHarvest.Notice
import QueryHarvest.Text.Blank

/-! # Recording statements

A recorder keeps the statements that are executed while it captures, brought to numbered markers and
storable values, and writes them to a log file. -/

namespace QueryHarvest.Capture

open Files

/-- Why a statement is not recorded. -/
inductive RecordError where
  | binding (error : BindError)
  | storage (error : StorageError)
  | clock (error : ClockError)
  deriving DecidableEq, Repr

def RecordError.message : RecordError → String
  | .binding error => error.message
  | .storage error => error.message
  | .clock error => error.message

/-- A recorder: its clock with the number of readings taken, and the records so far. -/
structure Recorder where
  clock : Nat → ClockReading
  ticks : Nat := 0
  records : List Record := []
  isCapturing : Bool := false

namespace Recorder

def start (r : Recorder) : Noted Recorder :=
  if r.isCapturing then ⟨r, [⟨.warning, "[RECORDER] Already capturing queries"⟩]⟩
  else ⟨{ r with isCapturing := true }, [⟨.info, "[RECORDER] Query capturing started"⟩]⟩

def stop (r : Recorder) : Noted Recorder :=
  if r.isCapturing then
    let count := r.records.length
    ⟨{ r with isCapturing := false },
      [⟨.info, s!"[RECORDER] Query capturing stopped. Captured {count} queries."⟩]⟩
  else ⟨r, []⟩

def clear (r : Recorder) : Recorder :=
  { r with records := [] }

/-- The statement and parameters of a record, brought to their stored form. -/
def stored (statement : String) (parameters : Value) : Except RecordError (String × List Value) := do
  let (query, parameters) ← (bindParameters statement parameters).mapError .binding
  let parameters ← (storableAll parameters).mapError .storage
  return (query, parameters)

/-- Record one execution of a statement; a blank one is passed over. The clock is read when the
parameters have been brought to their stored form. -/
def record (r : Recorder) (statement : String) (parameters : Value) :
    Recorder × Except RecordError (Option Record) :=
  if (Text.trim statement.toList).isEmpty then (r, .ok none)
  else
    match stored statement parameters with
    | .error error => (r, .error error)
    | .ok (query, parameters) =>
      let ticked := { r with ticks := r.ticks + 1 }
      match (r.clock r.ticks).milliseconds with
      | .error error => (ticked, .error (.clock error))
      | .ok time =>
        let made : Record := { query, parameters, timestamp := some time }
        ({ ticked with records := r.records ++ [made] }, .ok (some made))

/-- Record a statement with each of some parameters in turn, up to the first error. -/
def recordAll (r : Recorder) (statement : String) : List Value → Recorder × Option RecordError
  | [] => (r, none)
  | parameters :: rest =>
    match r.record statement parameters with
    | (r, .error error) => (r, some error)
    | (r, .ok _) => r.recordAll statement rest

/-- The sets of parameters of an execution: one for each item where a statement is executed many
times, else all as one. -/
def parameterSets (many : Bool) (parameters : Value) : List Value :=
  match many, parameters with
  | true, .list items => items
  | true, .tuple items => items
  | true, .buffer data => data.map fun b => .int b.toNat
  | _, parameters => [parameters]

/-- A statement is about to be executed; it is recorded while the recorder captures. -/
def observe (r : Recorder) (statement : String) (parameters : Value) (many : Bool) :
    Recorder × Option RecordError :=
  if r.isCapturing then r.recordAll statement (parameterSets many parameters) else (r, none)

end Recorder

def Record.toValue (r : Record) : Value :=
  .object [("query", .text r.query), ("params", .list r.parameters),
    ("timestamp", r.timestamp.elim .null .float)]

/-- The text of a log file: one line for each record. -/
def logLines (records : List Record) : String :=
  String.join (records.map fun r => Json.text r.toValue ++ "\n")

def dumped (records : List Record) (p : Path) : Notice :=
  let count := records.length
  ⟨.info, s!"[RECORDER] Dumped {count} queries to " ++ p.text⟩

/-- Write the records to a log file, and make its directory if need be. -/
def Recorder.dump (r : Recorder) (files : FileTree) (p : Path) : Noted (Except FileError FileTree) :=
  match (files.makeDirectories p.parent).bind fun files => files.write p (.text (logLines r.records)) with
  | .ok files => ⟨.ok files, [dumped r.records p]⟩
  | .error error => ⟨.error error, []⟩

end QueryHarvest.Capture
