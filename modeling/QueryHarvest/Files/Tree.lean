import QueryHarvest.Files.Error
import QueryHarvest.Text.Line
import QueryHarvest.Text.Utf8

/-! # File trees

Directories and files by their location, with a working directory from which relative paths are
followed. Every operation that changes something gives back a new tree, or tells why it is refused. -/

namespace QueryHarvest.Files

open Text

/-- What a file holds. -/
inductive Content where
  | text (s : String)
  | bytes (data : List UInt8)
  deriving DecidableEq, Repr

def Content.data : Content → List UInt8
  | .text s => s.toUTF8.toList
  | .bytes data => data

def Content.size : Content → Nat
  | .text s => s.utf8ByteSize
  | .bytes data => data.length

/-- The text of a content, if its bytes are text. -/
def Content.decode : Content → Except Utf8.Fault String
  | .text s => .ok s
  | .bytes data => Utf8.decode data

/-- An entry of a directory. -/
inductive Entry where
  | directory
  | file (content : Content) (executable : Bool)
  deriving DecidableEq, Repr

/-- One line for an entry: directories end in a slash and executable files in a star. -/
def Entry.line (names : List String) : Entry → String
  | .directory => String.intercalate "/" names ++ "/"
  | .file _ executable => String.intercalate "/" names ++ (if executable then "*" else "")

abbrev Location := List String

/-- Does a location come at or before another one, name by name? -/
def isAtMost : Location → Location → Bool
  | [], _ => true
  | _ :: _, [] => false
  | a :: first, b :: second => if a == b then isAtMost first second else a ≤ b

/-- A file tree. The root is not among the entries. -/
structure FileTree where
  entries : List (Location × Entry) := []
  workingDirectory : Location := []
  /-- Can directories not be removed with what they hold? -/
  locked : Bool := false
  deriving Repr

/-- Why the text of a file cannot be read. -/
inductive ReadError where
  | file (error : FileError)
  | decoding (fault : Utf8.Fault)
  deriving DecidableEq, Repr

def ReadError.message : ReadError → String
  | .file error => error.message
  | .decoding fault => fault.message

namespace FileTree

def entry? (t : FileTree) (place : Location) : Option Entry :=
  if place.isEmpty then some .directory else t.entries.lookup place

/-- Follow names from a location. Every name but the last must be that of a directory. -/
def follow (t : FileTree) (place : Location) : List String → Except Refusal Location
  | [] => .ok place
  | name :: rest =>
    match t.entry? place with
    | none => .error .missing
    | some (.file ..) => .error .notADirectory
    | some .directory => t.follow (if name == ".." then place.dropLast else place ++ [name]) rest

/-- The location of a path; there may be nothing at it. -/
def locate (t : FileTree) (p : Path) : Except Refusal Location :=
  t.follow (if p.anchor == .here then t.workingDirectory else []) p.names

def find? (t : FileTree) (p : Path) : Option Entry :=
  match t.locate p with
  | .ok place => t.entry? place
  | .error _ => none

def has (t : FileTree) (p : Path) : Bool := (t.find? p).isSome

def hasDirectory (t : FileTree) (p : Path) : Bool := t.find? p == some .directory

def hasFile (t : FileTree) (p : Path) : Bool :=
  match t.find? p with
  | some (.file ..) => true
  | _ => false

/-- Put an entry at a location, in the place of what is there. -/
def put (t : FileTree) (place : Location) (entry : Entry) : FileTree :=
  if t.entries.any fun old => old.1 == place then
    { t with entries := t.entries.map fun old => if old.1 == place then (place, entry) else old }
  else { t with entries := t.entries ++ [(place, entry)] }

def without (t : FileTree) (place : Location) : FileTree :=
  { t with entries := t.entries.filter fun old => !place.isPrefixOf old.1 }

def childrenOf (t : FileTree) (place : Location) : List String :=
  t.entries.filterMap fun entry => if entry.1.dropLast == place then entry.1.getLast? else none

def read (t : FileTree) (p : Path) : Except FileError Content :=
  match t.locate p with
  | .error why => .error (.about why p)
  | .ok place =>
    match t.entry? place with
    | none => .error (.about .missing p)
    | some .directory => .error (.about .isADirectory p)
    | some (.file content _) => .ok content

/-- The text of a file, with all line ends made line feeds. -/
def readText (t : FileTree) (p : Path) : Except ReadError String := do
  let content ← (t.read p).mapError .file
  let text ← content.decode.mapError .decoding
  return String.ofList (unifyNewlines text.toList)

/-- Write a file, which may exist; its directory must. -/
def write (t : FileTree) (p : Path) (content : Content) : Except FileError FileTree :=
  match t.locate p with
  | .error why => .error (.about why p)
  | .ok place =>
    match t.entry? place with
    | none => .ok (t.put place (.file content false))
    | some .directory => .error (.about .isADirectory p)
    | some (.file _ executable) => .ok (t.put place (.file content executable))

/-- Make a directory at a path where there is nothing. -/
def makeDirectory (t : FileTree) (p : Path) : Except FileError FileTree :=
  match t.locate p with
  | .error why => .error (.about why p)
  | .ok place =>
    if (t.entry? place).isSome then .error (.about .exists p) else .ok (t.put place .directory)

def ensureDirectory (t : FileTree) (p : Path) : Except FileError FileTree :=
  match t.makeDirectory p with
  | .ok t => .ok t
  | .error error => if t.hasDirectory p then .ok t else .error error

/-- Is an operation on a path refused because something on the way is missing? -/
def isMissing (p : Path) (error : FileError) : Bool :=
  error == .about .missing p

/-- Make the directories on the way along some names, the last of which comes first. -/
def makeAlong (t : FileTree) (anchor : Anchor) : List String → Except FileError FileTree
  | [] => t.ensureDirectory ⟨anchor, []⟩
  | name :: above =>
    let p : Path := ⟨anchor, (name :: above).reverse⟩
    match t.makeDirectory p with
    | .ok t => .ok t
    | .error error =>
      if isMissing p error then (t.makeAlong anchor above).bind fun t => t.ensureDirectory p
      else if t.hasDirectory p then .ok t
      else .error error

/-- Make a directory and those above it, as far as they are not there. -/
def makeDirectories (t : FileTree) (p : Path) : Except FileError FileTree :=
  t.makeAlong p.anchor p.names.reverse

/-- Remove a file; it does not matter if there is none. -/
def removeFile (t : FileTree) (p : Path) : Except FileError FileTree :=
  match t.locate p with
  | .error .missing => .ok t
  | .error why => .error (.about why p)
  | .ok place =>
    match t.entry? place with
    | none => .ok t
    | some .directory => .error (.about .isADirectory p)
    | some (.file ..) => .ok (t.without place)

def removeDirectory (t : FileTree) (p : Path) : Except FileError FileTree :=
  match t.locate p with
  | .error why => .error (.about why p)
  | .ok place =>
    match t.entry? place with
    | none => .error (.about .missing p)
    | some (.file ..) => .error (.about .notADirectory p)
    | some .directory =>
      if (t.childrenOf place).isEmpty then .ok (t.without place) else .error (.about .notEmpty p)

/-- Remove a directory with all it holds. A file in its place is shown as a path value. -/
def removeTree (t : FileTree) (p : Path) : Except FileError FileTree :=
  if t.locked then .error (.about .busy p)
  else
    match t.locate p with
    | .error why => .error (.about why p)
    | .ok place =>
      match t.entry? place with
      | none => .error (.about .missing p)
      | some (.file ..) => .error (.refused .notADirectory ("PosixPath(" ++ quoted p.text ++ ")"))
      | some .directory => .ok (t.without place)

/-- Change the location of an entry and of all below it, in the place of what is there. -/
def rename (t : FileTree) (source target : Location) : FileTree :=
  let cleared := t.without target
  { cleared with
    entries := cleared.entries.map fun entry =>
      if source.isPrefixOf entry.1 then (target ++ entry.1.drop source.length, entry.2) else entry }

/-- Move an entry of one directory to another under a name. If there is a directory of that name, the
entry goes into it, unless that has an entry of the name already. A file takes the place of a file, and
a directory does not. -/
def move (t : FileTree) (source : Location) (directory : Path) (name : String) :
    Except FileError FileTree :=
  let p := directory.child name
  match t.locate p with
  | .error why => .error (.about why p)
  | .ok target =>
    match t.entry? target with
    | none => .ok (t.rename source target)
    | some .directory =>
      if (t.entry? (target ++ [name])).isSome then .error (.destinationTaken (p.child name).text)
      else .ok (t.rename source (target ++ [name]))
    | some (.file ..) =>
      if t.entry? source == some .directory then .error (.about .exists p)
      else .ok (t.rename source target)

def makeExecutable (t : FileTree) (place : Location) : FileTree :=
  match t.entry? place with
  | some (.file content _) => t.put place (.file content true)
  | _ => t

/-- The entries below a location with their names from there, in order. -/
def below (t : FileTree) (place : Location) : List (List String × Entry) :=
  let found := t.entries.filterMap fun entry =>
    if place.isPrefixOf entry.1 && entry.1 != place then some (entry.1.drop place.length, entry.2) else none
  found.mergeSort fun a b => isAtMost a.1 b.1

end FileTree

end QueryHarvest.Files
