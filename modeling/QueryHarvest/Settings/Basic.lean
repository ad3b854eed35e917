import QueryHarvest.Capture.Log
import QueryHarvest.Number.Integer
import QueryHarvest.Session.Analysis
import QueryHarvest.Settings.Environment
import QueryHarvest.Text.Case

/-! # Settings

What the environment settles: where the subsetting tool is, how the database is reached, and how query
logs are read. -/

namespace QueryHarvest

open Text Files Capture

/-- The settings of a run. -/
structure Settings where
  toolHome : Path
  toolVersion : String := "16.3.2"
  databaseUrl : Option String := none
  host : String := "localhost"
  port : String := "5432"
  databaseName : Option String := none
  user : Option String := none
  password : String := ""
  maxLength : Nat := Session.defaultMaxLength
  policy : MalformedPolicy := .abort
  severity : Severity := .warning

/-- Why there are no settings. -/
inductive SettingsError where
  | notAPolicy (value : String)
  | notASeverity (value : String)
  | notAnInteger (name value : String)
  | negative (name : String) (value : Int)
  /-- A path begins with the home directory of an unknown user. -/
  | unknownHome
  | environment (error : EnvironmentError)
  | unreadableFile (error : ReadError)
  deriving DecidableEq, Repr

def SettingsError.message : SettingsError → String
  | .notAPolicy value =>
    "SEEDIFY_ON_MALFORMED_LINE must be one of " ++ MalformedPolicy.choices ++ ", got " ++ quoted value
  | .notASeverity value =>
    "SEEDIFY_LOG_LEVEL must be one of ('DEBUG', 'INFO', 'WARNING', 'ERROR', 'CRITICAL'), got " ++
      quoted value
  | .notAnInteger name value => name ++ " must be an integer, got " ++ quoted value
  | .negative name value => name ++ s!" must be >= 0, got {value}"
  | .unknownHome => "Could not determine home directory."
  | .environment error => error.message
  | .unreadableFile error => error.message

namespace Environment

def nonEmpty? (e : Environment) (name : String) : Option String :=
  (e.lookup name).filter fun value => !value.isEmpty

/-- A variable that holds a number which is not negative; a blank one counts as not set. -/
def natural (e : Environment) (name : String) (default : Nat) : Except SettingsError Nat :=
  match e.lookup name with
  | none => .ok default
  | some raw =>
    if (trim raw.toList).isEmpty then .ok default
    else
      match Number.parseInt raw with
      | .error _ => .error (.notAnInteger name raw)
      | .ok value => if value < 0 then .error (.negative name value) else .ok value.toNat

/-- The policy for malformed lines, in any case of letters. -/
def policy (e : Environment) : Except SettingsError MalformedPolicy :=
  let name := (e.lookup "SEEDIFY_ON_MALFORMED_LINE").elim "abort" fun raw =>
    String.ofList (lower (trim raw.toList))
  match MalformedPolicy.ofName? name with
  | some policy => .ok policy
  | none => .error (.notAPolicy name)

/-- The severity from which notices are shown, in any case of letters. -/
def severity (e : Environment) : Except SettingsError Severity :=
  let name := (e.lookup "SEEDIFY_LOG_LEVEL").elim "WARNING" fun raw =>
    String.ofList (upper (trim raw.toList))
  match Severity.ofName? name with
  | some severity => .ok severity
  | none => .error (.notASeverity name)

def toolHome (e : Environment) (default : Path) : Except SettingsError Path :=
  match e.nonEmpty? "JAILER_HOME" with
  | none => .ok default
  | some raw =>
    match (Path.ofText raw).expandHome ((e.lookup "HOME").getD "") with
    | some p => .ok p
    | none => .error .unknownHome

end Environment

namespace Settings

/-- The directory of the subsetting tool below a home directory, where no other is set. -/
def defaultToolHome (home : String) : Path :=
  ((Path.ofText home).child ".seedify").child "jailer"

def ofEnvironment (defaultHome : Path) (e : Environment) : Except SettingsError Settings := do
  let policy ← e.policy
  let severity ← e.severity
  let toolHome ← e.toolHome defaultHome
  let maxLength ← e.natural "SEEDIFY_MAX_QUERY_LENGTH" Session.defaultMaxLength
  return {
    toolHome, policy, severity, maxLength
    toolVersion := (e.lookup "JAILER_VERSION").getD "16.3.2"
    databaseUrl := e.nonEmpty? "DATABASE_URL"
    host := (e.lookup "DB_HOST").getD "localhost"
    port := (e.lookup "DB_PORT").getD "5432"
    databaseName := e.nonEmpty? "DB_NAME"
    user := e.nonEmpty? "DB_USER"
    password := (e.lookup "DB_PASSWORD").getD "" }

/-- The settings of a process with the text of an environment file. -/
def load (defaultHome : Path) (own : Environment) (file : String) : Except SettingsError Settings := do
  let e ← (own.withFile file).mapError .environment
  ofEnvironment defaultHome e

/-- The settings of a process with an environment file, if there is a file at the path. -/
def loadFrom (defaultHome : Path) (own : Environment) (files : FileTree) (p : Path) :
    Except SettingsError Settings := do
  let text ← if files.hasFile p then (files.readText p).mapError .unreadableFile else pure ""
  load defaultHome own text

end Settings

end QueryHarvest
