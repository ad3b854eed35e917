import QueryHarvest.Sql.Comment

/-! # Normal form of a statement

A statement without comments, in which every run of blanks is one space and none stands at the ends.
Everything else about a statement is read off its normal form. -/

namespace QueryHarvest.Sql

open Text

def occurs (mark : List Char) : List Char → Bool
  | [] => mark.isEmpty
  | c :: text => mark.isPrefixOf (c :: text) || occurs mark text

def mayHoldComment (text : List Char) : Bool :=
  occurs ['-', '-'] text || occurs ['/', '*'] text

/-- The normal form of a text. Comments are looked for only where a comment mark occurs. -/
def normalForm (text : List Char) : List Char :=
  trim (collapse (if mayHoldComment text then stripComments text else text))

def normalize (statement : String) : String :=
  String.ofList (normalForm statement.toList)

end QueryHarvest.Sql
