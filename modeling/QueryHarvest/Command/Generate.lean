import QueryHarvest.Command.Analyze
import QueryHarvest.Subset.Tool

/-! # Generating a subset

The command that analyses a query log and has the subsetting tool extract the rows that it filters.
It goes in four steps: the inputs, the analysis, the data model and the export. -/

namespace QueryHarvest.Command

open Session Subset Files Target
open Job (report numberSteps)

/-- Report failures, the first as such and the others as details. -/
def giveUp (failure : String) (details : List String) : Job ExitCode := do
  report (.failure failure)
  details.forM fun message => report (.detail message)
  return .failure

def namedTables : Nat := 5

/-- The first tables of an analysis, as a report names them. -/
def tableList (tables : List String) : String :=
  "Tables: " ++ String.intercalate ", " (tables.take namedTables) ++
    (if tables.length > namedTables then "..." else "")

/-- A number of bytes in units of 1024, with one place after the point; a half goes to the even
neighbour. -/
def kilobytes (size : Nat) : String :=
  let tenths := Number.Binary64.roundHalfEven (mkRat (size * 10) 1024)
  s!"{tenths / 10}.{tenths % 10}"

/-- Carry out a job of the tool; its failures are results. -/
def tryTool (job : Job Unit) : Job (Except ToolError Unit) := do
  match ← job.attempt with
  | .ok _ => return .ok ()
  | .error (.tool error) => return .error error
  | .error error => throw error

/-- The third and fourth steps, in a directory for temporary files. Tells whether they succeeded. -/
def extract (tool : Tool) (outside : Outside) (target : Target) (subjects : List Fragment)
    (output : Path) : Job Bool := do
  let work := outside.temporary
  let dataModel := work.child "datamodel"
  report (.step "Building database model with Jailer...")
  match ← tryTool (tool.buildModel outside target dataModel) with
  | .error error =>
    let _ ← giveUp "Failed to build the data model" [error.message]
    return false
  | .ok _ =>
    report (.success "Database model built")
    report (.step "Extracting database subset...")
    subjects.forM fun f => report (.detail ("Subject: " ++ f.table ++ " WHERE " ++ f.condition))
    let model := work.child "extraction.csv"
    match writeModel (← Job.files) model subjects with
    | .error .noSubjects => throw .noSubjects
    | .error (.file error) => throw (.file error)
    | .ok files => modify fun w => { w with files }
    match ← tryTool (tool.exportSubset outside target model dataModel output (work.child "tmp")) with
    | .error error =>
      let _ ← giveUp "Jailer extraction failed" [error.message]
      return false
    | .ok _ => return true

/-- Remove the directory for temporary files; it may be gone already. -/
def removeTemporary (p : Path) : Job Unit :=
  Job.change fun files => if files.has p then files.removeTree p else .ok files

def reportOutput (output : Path) : Job Unit := do
  let files ← Job.files
  match files.read output, files.readText output with
  | .ok content, .ok text =>
    let size := kilobytes content.size
    let lines := (Text.linesOf text).length
    report (.success ("Generated: " ++ output.text))
    report (.success s!"Size: {size} KB ({lines} lines)")
    report (.footer "Done! Seeder file generated successfully.")
  | .error error, _ => throw (.file error)
  | _, .error error => throw (.reading error)

def reportAnalysis (a : Analysis) (rendered : List Fragment) : Job Unit := do
  let tables := a.tables.length
  let conditions := rendered.length
  report (.success s!"Analyzed {a.queryCount} queries")
  report (.success s!"Found {tables} tables")
  report (.success s!"Extracted {conditions} conditions")
  unless a.tables.isEmpty do report (.detail (tableList a.tables))

/-- From the second step on, when the inputs have been found valid. -/
def harvest (s : Settings) (tool : Tool) (outside : Outside) (target : Target) (input output : Path)
    (allConditions : Bool) : Job ExitCode := do
  report (.step "Analyzing captured queries...")
  match ← analyzeLog s input.text with
  | .error error => giveUp ("Failed to analyze: " ++ error.message) []
  | .ok analysis =>
    let rendered ← renderAnalysis analysis
    reportAnalysis analysis rendered
    if rendered.isEmpty then
      giveUp "No conditions extracted from queries"
        ["Your queries may not have simple WHERE clauses", "Try adding more specific test queries"]
    else
      let subjects := if allConditions then rendered else rendered.take 1
      Job.change fun files => files.makeDirectory outside.temporary
      let succeeded ← (extract tool outside target subjects output).finallyDo
        (removeTemporary outside.temporary)
      if succeeded then
        reportOutput output
        return .success
      else return .failure

/-- Analyse a log and extract the rows that it filters. -/
def runGenerate (s : Settings) (outside : Outside) (input output : String) (choice : Choice)
    (allConditions : Bool) : Job ExitCode := do
  numberSteps 4
  report (.header "Seedify - Generating Test Seeder")
  let tool : Tool := ⟨s.toolHome, s.toolVersion⟩
  let input := Path.ofText input
  let output := Path.ofText output
  report (.step "Validating inputs...")
  if !(← Job.files).hasFile input then giveUp ("Queries file not found: " ++ input.text) []
  else
    report (.success ("Found queries file: " ++ input.text))
    if !tool.isInstalled (← Job.files) then giveUp ToolError.notInstalled.message []
    else
      report (.success ("Jailer installed at: " ++ tool.home.text))
      match choice.target s with
      | .error error => giveUp error.message []
      | .ok target =>
        report (.detail ("Database: " ++ target.describe))
        report (.detail ("Output: " ++ output.text))
        harvest s tool outside target input output allConditions

end QueryHarvest.Command
