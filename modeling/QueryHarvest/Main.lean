import QueryHarvest.Command.Run

/-! # The program

The program looks at the files that a run can need, has the run carried out on them, and makes the
changes that the run has made. Commands of other programs, downloads and databases are out of its
reach: a run learns that they are missing. -/

namespace QueryHarvest.Main

open Command Files Subset

def variableNames : List String :=
  ["HOME", "JAILER_HOME", "JAILER_VERSION", "DATABASE_URL", "DB_HOST", "DB_PORT", "DB_NAME", "DB_USER",
    "DB_PASSWORD", "SEEDIFY_MAX_QUERY_LENGTH", "SEEDIFY_ON_MALFORMED_LINE", "SEEDIFY_LOG_LEVEL"]

def environment : IO Environment :=
  variableNames.filterMapM fun name => do
    return (← IO.getEnv name).map fun value => (name, value)

/-- What there is at a path. What cannot be read as a file, and yet is there, counts as a directory. -/
def look (p : Path) : IO (Option Entry) := do
  try
    let data ← IO.FS.readBinFile p.text
    return some (.file (.bytes data.toList) false)
  catch error =>
    match error with
    | .noFileOrDirectory .. => return none
    | _ => return some .directory

/-- Take what there is at a path into a file tree. -/
def takeIn (t : FileTree) (p : Path) : IO FileTree := do
  let some entry ← look p | return t
  let made := match entry with
    | .directory => t.makeDirectories p
    | .file content _ => (t.makeDirectories p.parent).bind fun t => t.write p content
  match made with
  | .ok t => return t
  | .error _ => return t

def inputs : Command → List Path
  | .analyze input _ => [Path.ofText input]
  | .generate input .. => [Path.ofText input]
  | _ => []

def outside : Outside where
  outcome := fun _ => .refused .missing
  download := .error "Download failed: no network"
  databaseError := some "no database driver"
  temporary := Path.ofText "/tmp/seedify-work"

/-- Make the changes that lead from one file tree to another. -/
def bringAbout (before after : FileTree) : IO Unit := do
  for (place, entry) in after.entries do
    unless before.entries.lookup place == some entry do
      let text := (Files.Path.mk .root place).text
      match entry with
      | .directory => IO.FS.createDirAll text
      | .file content _ => IO.FS.writeBinFile text ⟨content.data.toArray⟩
  for (place, entry) in before.entries do
    if (after.entries.lookup place).isNone && entry == .directory then
      let text := (Files.Path.mk .root place).text
      if (← look (Files.Path.mk .root place)).isSome then IO.FS.removeDirAll text

/-- What a run that ends without an exit code has to say, and its exit code. -/
def farewell : Failure → String × UInt32
  | .stop .help => ("", 0)
  | .stop (.misuse program what) => (program ++ ": error: " ++ what.message ++ "\n", 2)
  | .settings error => (error.message ++ "\n", 1)
  | .run error => (error.message ++ "\n", 1)

def carryOut (arguments : List String) : IO UInt32 := do
  let own ← environment
  let home := Settings.defaultToolHome ((own.lookup "HOME").getD "/")
  let here := Path.ofText (toString (← IO.currentDir))
  let mut files : FileTree := { workingDirectory := here.names }
  let mut severity := Severity.warning
  for p in [here, outside.temporary.parent] do
    files ← takeIn files p
  if let .ok parsed := Arguments.read arguments then
    files ← takeIn files (Path.ofText (parsed.envFile.getD defaultEnvFile))
    for p in inputs parsed.command do
      files ← takeIn files p
    if let .ok s := settingsOf home own files parsed.envFile then
      severity := s.severity
      files ← takeIn files s.toolHome
      files ← takeIn files (Tool.mk s.toolHome s.toolVersion).script
  let (result, w) := Command.run outside home own arguments files
  bringAbout files w.files
  for notice in w.notices do
    if severity.level ≤ notice.severity.level then IO.eprintln notice.line
  IO.eprint w.complaints
  IO.print w.printed
  match result with
  | .ok code => return code.number.toUInt32
  | .error failure =>
    let (message, code) := farewell failure
    IO.eprint message
    return code

end QueryHarvest.Main

def main (arguments : List String) : IO UInt32 :=
  QueryHarvest.Main.carryOut arguments
