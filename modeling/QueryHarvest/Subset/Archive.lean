import QueryHarvest.Files.Tree
import QueryHarvest.Text.Case

/-! # Release archives

A release of the subsetting tool comes as an archive of named entries. It is unpacked into the tool's
directory; where it has one directory of its own for all, that is dissolved, and scripts are made
executable. -/

namespace QueryHarvest.Subset

open Files

/-- An archive: its entries with their contents, or bytes that are no archive. -/
inductive Archive where
  | entries (entries : List (String × Content))
  | invalid
  deriving DecidableEq, Repr

/-- Change a file tree for each of some items in turn, up to the first failure. What was changed before
it stays changed. -/
def changeAll {α : Type} (change : FileTree → α → Except FileError FileTree) (t : FileTree) :
    List α → FileTree × Option FileError
  | [] => (t, none)
  | item :: rest =>
    match change t item with
    | .ok t => changeAll change t rest
    | .error error => (t, some error)

/-- The names on the way to an entry, without those that lead nowhere or upwards. -/
def entryNames (name : String) : List String :=
  let name := name.toList.takeWhile (· != '\x00')
  (Path.namesIn name).filter (· != "..")

/-- Does a name end in a slash, as those of directories do? -/
def isDirectoryName (name : String) : Bool :=
  (name.toList.takeWhile (· != '\x00')).getLast? == some '/'

/-- Make the directories along some names, the last of which comes first, from the first on that is
not there. -/
def makeMissing (t : FileTree) (anchor : Anchor) : List String → Except FileError FileTree
  | [] => .ok t
  | name :: above => do
    let t ← if t.has ⟨anchor, above.reverse⟩ then pure t else makeMissing t anchor above
    t.makeDirectory ⟨anchor, (name :: above).reverse⟩

def unpackEntry (home : Path) (t : FileTree) (entry : String × Content) : Except FileError FileTree := do
  let p : Path := { home with names := home.names ++ entryNames entry.1 }
  let t ← if t.has p.parent then pure t else makeMissing t p.anchor p.parent.names.reverse
  if isDirectoryName entry.1 then
    if t.hasDirectory p then return t else t.makeDirectory p
  else t.write p entry.2

def namesAt (t : FileTree) (p : Path) : List String :=
  match t.locate p with
  | .ok place => t.childrenOf place
  | .error _ => []

/-- Does a directory belong to the tool by its name? -/
def isToolName (name : String) : Bool :=
  ['j', 'a', 'i', 'l', 'e', 'r'].isPrefixOf (Text.lower name.toList)

/-- The directories inside a directory that belong to the tool by their names. -/
def toolDirectories (t : FileTree) (home : Path) : List String :=
  (namesAt t home).filter fun name => isToolName name && t.hasDirectory (home.child name)

/-- Move an entry of a directory inside `home` up to `home`. -/
def moveUp (home : Path) (inner : String) (t : FileTree) (name : String) :
    Except FileError FileTree :=
  match t.locate ((home.child inner).child name) with
  | .ok place => t.move place home name
  | .error why => .error (.about why ((home.child inner).child name))

/-- Dissolve the tool's own directory, if there is exactly one. -/
def dissolve (t : FileTree) (home : Path) : FileTree × Option FileError :=
  match toolDirectories t home with
  | [inner] =>
    match changeAll (moveUp home inner) t (namesAt t (home.child inner)) with
    | (t, some error) => (t, some error)
    | (t, none) =>
      match t.removeDirectory (home.child inner) with
      | .ok t => (t, none)
      | .error error => (t, some error)
  | _ => (t, none)

def allowScripts (t : FileTree) (home : Path) : FileTree :=
  ((namesAt t home).filter fun name => name.endsWith ".sh").foldl (fun t name =>
    match t.locate (home.child name) with
    | .ok place => t.makeExecutable place
    | .error _ => t) t

/-- Unpack the entries of an archive into a directory, dissolve the tool's own directory and make
scripts executable. -/
def unpack (t : FileTree) (home : Path) (entries : List (String × Content)) :
    FileTree × Option FileError :=
  match changeAll (unpackEntry home) t entries with
  | (t, some error) => (t, some error)
  | (t, none) =>
    match dissolve t home with
    | (t, some error) => (t, some error)
    | (t, none) => (allowScripts t home, none)

end QueryHarvest.Subset
