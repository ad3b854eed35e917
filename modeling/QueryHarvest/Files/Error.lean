import QueryHarvest.Files.Path
import QueryHarvest.Text.Quoted

/-! # Failures of file operations -/

namespace QueryHarvest.Files

open Text

/-- Why the operating system refuses an operation. -/
inductive Refusal where
  | missing
  | permissionDenied
  | busy
  | exists
  | notADirectory
  | isADirectory
  | notEmpty
  deriving DecidableEq, Repr

namespace Refusal

def code : Refusal → Nat
  | .missing => 2
  | .permissionDenied => 13
  | .busy => 16
  | .exists => 17
  | .notADirectory => 20
  | .isADirectory => 21
  | .notEmpty => 39

def text : Refusal → String
  | .missing => "No such file or directory"
  | .permissionDenied => "Permission denied"
  | .busy => "Device or resource busy"
  | .exists => "File exists"
  | .notADirectory => "Not a directory"
  | .isADirectory => "Is a directory"
  | .notEmpty => "Directory not empty"

end Refusal

/-- A failed operation on files. -/
inductive FileError where
  /-- The operating system refuses; the subject is the path as messages show it. -/
  | refused (why : Refusal) (subject : String)
  /-- Something of that name is already where a file was to be moved. -/
  | destinationTaken (path : String)
  deriving DecidableEq, Repr

namespace FileError

def about (why : Refusal) (p : Path) : FileError :=
  .refused why (quoted p.text)

def message : FileError → String
  | .refused why subject => s!"[Errno {why.code}] {why.text}: {subject}"
  | .destinationTaken path => "Destination path '" ++ path ++ "' already exists"

end FileError

end QueryHarvest.Files
