import QueryHarvest.Files.Tree
import QueryHarvest.Session.Fragment

/-! # Extraction models

The file that tells the subsetting tool where to begin: one line for each subject, a table and the
condition on its rows. -/

namespace QueryHarvest.Subset

open Files Session

def modelLine (f : Fragment) : String :=
  f.table ++ "; " ++ f.condition

def modelLines (subjects : List Fragment) : List String :=
  subjects.map modelLine

def modelText (subjects : List Fragment) : String :=
  String.join ((modelLines subjects).map (· ++ "\n"))

/-- Why an extraction model is not written. -/
inductive ModelError where
  | noSubjects
  | file (error : FileError)
  deriving DecidableEq, Repr

def ModelError.message : ModelError → String
  | .noSubjects => "An extraction model needs at least one condition"
  | .file error => error.message

/-- Write an extraction model, and make its directory if need be. There must be a subject. -/
def writeModel (files : FileTree) (p : Path) (subjects : List Fragment) : Except ModelError FileTree :=
  if subjects.isEmpty then .error .noSubjects
  else
    ((files.makeDirectories p.parent).bind fun files => files.write p (.text (modelText subjects))).mapError
      .file

end QueryHarvest.Subset
