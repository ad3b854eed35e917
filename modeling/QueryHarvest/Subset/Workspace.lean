import QueryHarvest.Notice
import QueryHarvest.Report
import QueryHarvest.Session.Analysis
import QueryHarvest.Subset.Archive

/-! # The workspace of a run

A run works on files, runs commands of other programs, prints, and leaves notices. What it cannot know
beforehand, such as the outcomes of commands, is given from outside. -/

namespace QueryHarvest.Subset

open Files

/-- How a command ended. -/
structure Finished where
  status : Int := 0
  output : String := ""
  errors : String := ""
  deriving DecidableEq, Repr

/-- What becomes of a command: it cannot be started, or it changes files and ends. -/
inductive Outcome where
  | refused (why : Refusal)
  | finished (changes : FileTree → FileTree) (result : Finished)

/-- The archive that a download brings, or why it fails. -/
abbrev Download := Except String Archive

/-- What a run cannot know beforehand. -/
structure Outside where
  /-- The outcome of each command, counted from zero. -/
  outcome : Nat → Outcome
  download : Download
  /-- Why the database cannot be reached, if it cannot. -/
  databaseError : Option String
  /-- The path of a directory for temporary files, where there is nothing yet. -/
  temporary : Path

/-- A command that was run, with the files as they were then. -/
structure Call where
  words : List String
  directory : Option Path
  files : FileTree

/-- What a run has come to. -/
structure Workspace where
  files : FileTree
  calls : List Call := []
  printed : String := ""
  complaints : String := ""
  notices : List Notice := []
  reporter : Reporter := {}

/-- Why the subsetting tool does not do its work. -/
inductive ToolError where
  | notInstalled
  | cannotRun (script reason : String)
  | failed (command : String) (status : Int) (detail : String)
  | nothingWritten (output : String)
  | invalidArchive
  | incomplete (home : String)
  | downloadFailed (reason : String)
  deriving DecidableEq, Repr

def ToolError.message : ToolError → String
  | .notInstalled => "Jailer not installed. Run: seedify install"
  | .cannotRun script reason => "Cannot run " ++ script ++ ": " ++ reason
  | .failed command status detail => "jailer " ++ command ++ s!" failed (exit {status}): " ++ detail
  | .nothingWritten output => "Jailer reported success but " ++ output ++ " was not written"
  | .invalidArchive => "Downloaded file is not a valid zip: File is not a zip file"
  | .incomplete home => "Installation incomplete - jailer.sh not found in " ++ home
  | .downloadFailed reason => reason

/-- Why a run breaks off. -/
inductive RunError where
  | tool (error : ToolError)
  | reading (error : ReadError)
  | analysis (error : Session.AnalysisError)
  | writing (error : Number.WritingError)
  | noSubjects
  deriving DecidableEq, Repr

def RunError.file (error : FileError) : RunError := .reading (.file error)

def RunError.message : RunError → String
  | .tool error => error.message
  | .reading error => error.message
  | .analysis error => error.message
  | .writing error => error.message
  | .noSubjects => "An extraction model needs at least one condition"

/-- A piece of a run: it changes the workspace, and may break off. -/
abbrev Job (α : Type) := ExceptT RunError (StateM Workspace) α

namespace Job

def files : Job FileTree := do
  return (← get).files

def change (f : FileTree → Except FileError FileTree) : Job Unit := do
  match f (← files) with
  | .ok t => modify fun w => { w with files := t }
  | .error error => throw (.file error)

def note (severity : Severity) (message : String) : Job Unit :=
  modify fun w => { w with notices := w.notices ++ [⟨severity, message⟩] }

def print (text : String) : Job Unit :=
  modify fun w => { w with printed := w.printed ++ text }

/-- Report something, under the number of its turn if it is a step. -/
def report (r : Report) : Job Unit :=
  modify fun w =>
    { w with printed := w.printed ++ w.reporter.text r, reporter := w.reporter.after r }

/-- Steps are numbered anew, with so many in all. -/
def numberSteps (total : Nat) : Job Unit :=
  modify fun w => { w with reporter := { total } }

def complain (message : String) : Job Unit :=
  modify fun w => { w with complaints := w.complaints ++ message ++ "\n" }

def command (outside : Outside) (words : List String) (directory : Option Path) :
    Job (Except Refusal Finished) := do
  let w ← get
  let calls := w.calls ++ [⟨words, directory, w.files⟩]
  match outside.outcome w.calls.length with
  | .refused why =>
    set { w with calls }
    return .error why
  | .finished changes result =>
    set { w with calls, files := changes w.files }
    return .ok result

/-- Carry a job out to its end or its error, either of which is the result. -/
def attempt {α : Type} (job : Job α) : Job (Except RunError α) :=
  fun w => let (result, w) := job.run w; (.ok result, w)

/-- Carry a job out, then another, whether the first breaks off or not. -/
def finallyDo {α : Type} (job : Job α) (last : Job Unit) : Job α := do
  let result ← job.attempt
  last
  match result with
  | .ok a => return a
  | .error error => throw error

end Job

end QueryHarvest.Subset
