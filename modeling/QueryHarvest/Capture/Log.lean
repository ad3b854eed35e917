import QueryHarvest.Capture.Line
import QueryHarvest.Files.Tree
import QueryHarvest.Notice
import QueryHarvest.Text.Blank
import QueryHarvest.Text.Line
import QueryHarvest.Text.Quoted

/-! # Query logs

A log holds one record a line; blank lines are passed over. Malformed lines end the reading or are
skipped with a warning. -/

namespace QueryHarvest.Capture

open Text Files

/-- What to do about a malformed line. -/
inductive MalformedPolicy where
  | abort
  | skip
  deriving DecidableEq, Repr

namespace MalformedPolicy

def name : MalformedPolicy → String
  | .abort => "abort"
  | .skip => "skip"

def ofName? (name : String) : Option MalformedPolicy :=
  [abort, skip].find? fun policy => policy.name == name

/-- The names of the policies, as messages list them. -/
def choices : String := "('abort', 'skip')"

end MalformedPolicy

/-- A name that is no policy. -/
structure UnknownPolicy where
  name : String
  deriving DecidableEq, Repr

def UnknownPolicy.message (e : UnknownPolicy) : String :=
  "on_malformed must be one of " ++ MalformedPolicy.choices ++ ", got " ++ quoted e.name

def MalformedPolicy.named (name : String) : Except UnknownPolicy MalformedPolicy :=
  match ofName? name with
  | some policy => .ok policy
  | none => .error ⟨name⟩

/-- What was read: the records up to the end or to the error, and the warnings. -/
structure Reading where
  records : List Record := []
  notices : List Notice := []
  error : Option InputError := none

def skippedLine (error : InputError) : Notice :=
  ⟨.warning, "[QUERY_LOG] Skipping malformed line: " ++ error.message⟩

def readLinesFrom (policy : MalformedPolicy) (number : Nat) : List String → Reading
  | [] => {}
  | raw :: rest =>
    let line := trimmed raw
    if line.isEmpty then readLinesFrom policy (number + 1) rest
    else
      match parseLine (some number) line with
      | .ok record =>
        let later := readLinesFrom policy (number + 1) rest
        { later with records := record :: later.records }
      | .error error =>
        match policy with
        | .abort => { error := some error }
        | .skip =>
          let later := readLinesFrom policy (number + 1) rest
          { later with notices := skippedLine error :: later.notices }

def readLines (policy : MalformedPolicy) (lines : List String) : Reading :=
  readLinesFrom policy 1 lines

def readText (policy : MalformedPolicy) (text : String) : Reading :=
  readLines policy (linesOf text)

/-- The text of a log file. Messages show the path as it was given. -/
def logText (files : FileTree) (shown : String) : Except InputError String :=
  (files.readText (Path.ofText shown)).mapError fun error => .unreadable shown error.message

def readLog (files : FileTree) (shown : String) (policy : MalformedPolicy) : Reading :=
  match logText files shown with
  | .ok text => readText policy text
  | .error error => { error := some error }

/-- Read a log file under a policy that is given by its name. The name is looked at only when the file
has been read. -/
def readLogNamed (files : FileTree) (shown policyName : String) : Except UnknownPolicy Reading :=
  match logText files shown with
  | .ok text => (MalformedPolicy.named policyName).map fun policy => readText policy text
  | .error error => .ok { error := some error }

end QueryHarvest.Capture
