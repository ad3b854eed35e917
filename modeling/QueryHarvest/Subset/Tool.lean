import QueryHarvest.Subset.Model
import QueryHarvest.Subset.Workspace
import QueryHarvest.Target.Basic

/-! # The subsetting tool

The tool follows foreign keys from the rows of a subject and writes what it finds as SQL. It is
installed in a directory of its own and run by its script. -/

namespace QueryHarvest.Subset

open Files Target

/-- An installation of the tool: its directory, and the version to install. -/
structure Tool where
  home : Path
  version : String
  deriving DecidableEq, Repr

namespace Tool

def script (tool : Tool) : Path := tool.home.child "jailer.sh"

def downloadUrl (tool : Tool) : String :=
  "https://github.com/Wisser/Jailer/releases/download/v" ++ tool.version ++ "/jailer_" ++
    tool.version ++ ".zip"

def isInstalled (tool : Tool) (files : FileTree) : Bool := files.has tool.script

def driverClass : String := "org.postgresql.Driver"

def targetWords (target : Target) : List String :=
  [driverClass, target.jdbcUrl, target.user, target.password]

/-- The words of the command that reads the schema of a database into a data model. -/
def buildModelWords (target : Target) (dataModel : Path) : List String :=
  ["build-model", "-datamodel", dataModel.text] ++ targetWords target

/-- The words of the command that exports a subset. -/
def exportWords (target : Target) (extractionModel dataModel output storage : Path) : List String :=
  ["export", extractionModel.text, "-datamodel", dataModel.text, "-e", output.text,
    "-format", "SQL", "-scope", "LOCAL_DATABASE", "-local-database-storage", storage.text,
    "-use-rowid-if-needed"] ++ targetWords target

/-- What a command has to say: its errors, or else its output. -/
def words (result : Finished) : String :=
  if result.errors.isEmpty then result.output else result.errors

/-- The first line of what the runtime of the tool says about its version, if it is there. -/
def runtimeVersion (outside : Outside) : Job (Option String) := do
  match ← Job.command outside ["java", "-version"] none with
  | .error .missing => return none
  | .error why => throw (.file (.refused why (Text.quoted "java")))
  | .ok result =>
    if result.status == 0 then return (Text.linesOf (Text.trimmed (words result))).head?
    else return none

def requireInstalled (tool : Tool) : Job Unit := do
  unless tool.isInstalled (← Job.files) do throw (.tool .notInstalled)

/-- Run a command of the tool, which must end well. -/
def execute (tool : Tool) (outside : Outside) (name : String) (arguments : List String) : Job Unit := do
  Job.note .debug ("[JAILER] Running " ++ name)
  match ← Job.command outside (tool.script.text :: arguments) (some tool.home) with
  | .error why =>
    throw (.tool (.cannotRun tool.script.text (FileError.about why tool.script).message))
  | .ok result =>
    unless result.status == 0 do
      throw (.tool (.failed name result.status (Text.trimmed (words result))))

/-- Read the schema of a database into a data model. -/
def buildModel (tool : Tool) (outside : Outside) (target : Target) (dataModel : Path) : Job Unit := do
  tool.requireInstalled
  Job.change fun files => files.makeDirectories dataModel
  tool.execute outside "build-model" (buildModelWords target dataModel)

/-- Export a subset into a file, which must be there afterwards. -/
def exportSubset (tool : Tool) (outside : Outside) (target : Target)
    (extractionModel dataModel output storage : Path) : Job Unit := do
  tool.requireInstalled
  Job.change fun files => files.makeDirectories output.parent
  tool.execute outside "export" (exportWords target extractionModel dataModel output storage)
  unless (← Job.files).has output do throw (.tool (.nothingWritten output.text))

/-- Unpack an archive into the directory of the tool. -/
def unpackArchive (tool : Tool) (archive : Archive) : Job Unit := do
  match archive with
  | .invalid => throw (.tool .invalidArchive)
  | .entries entries =>
    let (files, error) := unpack (← Job.files) tool.home entries
    modify fun w => { w with files }
    match error with
    | none => return
    | some error => throw (.file error)

/-- Download the tool and unpack it, unless it is installed. The archive does not stay. -/
def install (tool : Tool) (outside : Outside) : Job Unit := do
  if tool.isInstalled (← Job.files) then
    Job.note .info ("[JAILER] Already installed at " ++ tool.home.text)
  else
    Job.change fun files => files.makeDirectories tool.home
    Job.note .info ("[JAILER] Downloading " ++ tool.downloadUrl)
    match outside.download with
    | .error reason => throw (.tool (.downloadFailed reason))
    | .ok archive =>
      let file := tool.home.child "jailer.zip"
      Job.change fun files => files.write file (.bytes [])
      (tool.unpackArchive archive).finallyDo (Job.change fun files => files.removeFile file)
      unless tool.isInstalled (← Job.files) do throw (.tool (.incomplete tool.home.text))
      Job.note .info ("[JAILER] Installed to " ++ tool.home.text)

/-- Remove the directory of the tool; tells whether it was there. -/
def uninstall (tool : Tool) : Job Bool := do
  if (← Job.files).has tool.home then
    Job.change fun files => files.removeTree tool.home
    return true
  else return false

end Tool

end QueryHarvest.Subset
