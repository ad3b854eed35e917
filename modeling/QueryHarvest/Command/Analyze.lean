import QueryHarvest.Json.Writer
import QueryHarvest.Session.Fragment
import QueryHarvest.Subset.Workspace
import QueryHarvest.Target.Basic

/-! # Analysing a log

The command that prints what a query log filters, as JSON. -/

namespace QueryHarvest.Command

open Session Subset Capture Files

/-- How a command ends. -/
inductive ExitCode where
  | success
  | failure
  deriving DecidableEq, Repr

def ExitCode.number : ExitCode → Nat
  | .success => 0
  | .failure => 1

/-- The conditions of an analysis as fragments of SQL. A condition that cannot be written breaks the run
off. -/
def renderAnalysis (a : Analysis) : Job (List Fragment) :=
  match render a.conditions with
  | .ok fragments => return fragments
  | .error error => throw (.writing error)

def fragmentValue (f : Fragment) : Value :=
  .object [("table", .text f.table), ("condition", .text f.condition)]

/-- An analysis with fragments of SQL for its conditions. -/
def renderedValue (a : Analysis) (fragments : List Fragment) : Value :=
  .object [
    ("tables", .list (a.tables.map .text)),
    ("queryCount", .int a.queryCount),
    ("conditions", .list (fragments.map fragmentValue))]

/-- Analyse a log under the settings. An unreadable log is a result, not the end of the run. -/
def analyzeLog (s : Settings) (shown : String) : Job (Except InputError Analysis) := do
  let noted := analyzeReading s.maxLength (readLog (← Job.files) shown s.policy)
  modify fun w => { w with notices := w.notices ++ noted.notices }
  match noted.value with
  | .ok analysis => return .ok analysis
  | .error (.input error) => return .error error
  | .error error => throw (.analysis error)

/-- Print the analysis of a log, with its conditions rendered or raw. -/
def runAnalyze (s : Settings) (input : String) (raw : Bool) : Job ExitCode := do
  match ← analyzeLog s input with
  | .error error =>
    Job.complain ("ERROR: " ++ error.message)
    return .failure
  | .ok analysis =>
    let value ← if raw then pure analysis.toValue
      else renderedValue analysis <$> renderAnalysis analysis
    Job.print (Json.pretty value ++ "\n")
    return .success

end QueryHarvest.Command
