/-! # Paths

A path is the names on the way to a file. Its text is unique: doubled slashes, slashes at the end and
names that are a single dot are left out, while `..` stays. -/

namespace QueryHarvest.Files

/-- Where a path begins. Exactly two slashes in front are kept apart from one. -/
inductive Anchor where
  | here
  | root
  | doubleRoot
  deriving DecidableEq, Repr

/-- A path. -/
structure Path where
  anchor : Anchor
  names : List String
  deriving DecidableEq, Repr

def Anchor.text : Anchor → String
  | .here => ""
  | .root => "/"
  | .doubleRoot => "//"

/-- Put one more character in front of a text that is cut at the slashes. -/
def slashStep (c : Char) (pieces : List (List Char)) : List (List Char) :=
  if c == '/' then [] :: pieces
  else
    match pieces with
    | [] => [[c]]
    | piece :: rest => (c :: piece) :: rest

def slashPieces (text : List Char) : List (List Char) :=
  text.foldr slashStep [[]]

namespace Path

def namesIn (text : List Char) : List String :=
  ((slashPieces text).filter fun piece => piece != [] && piece != ['.']).map String.ofList

def ofText (text : String) : Path :=
  let anchor := match text.toList with
    | '/' :: '/' :: '/' :: _ => Anchor.root
    | '/' :: '/' :: _ => Anchor.doubleRoot
    | '/' :: _ => Anchor.root
    | _ => Anchor.here
  ⟨anchor, namesIn text.toList⟩

def text (p : Path) : String :=
  if p.anchor == .here && p.names.isEmpty then "."
  else p.anchor.text ++ String.intercalate "/" p.names

def child (p : Path) (name : String) : Path :=
  { p with names := p.names ++ [name] }

def parent (p : Path) : Path :=
  { p with names := p.names.dropLast }

def within (directory p : Path) : Path :=
  if p.anchor == .here then { directory with names := directory.names ++ p.names } else p

/-- Put a home directory in the place of a leading tilde. There is none for other users, and none that
begins with a tilde itself. -/
def expandHome (home : String) (p : Path) : Option Path :=
  if p.anchor != .here then some p
  else
    match p.names with
    | [] => some p
    | name :: rest =>
      if name == "~" && !home.startsWith "~" then
        some ((ofText (if home.isEmpty then "/" else home)).within ⟨.here, rest⟩)
      else if name.startsWith "~" then none
      else some p

end Path

end QueryHarvest.Files
