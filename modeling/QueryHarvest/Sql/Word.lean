import QueryHarvest.Text.Case

/-! # Reserved words

Words that can stand where a table or a column is expected without naming one. -/

namespace QueryHarvest.Sql

open Text

def reservedWords : List String :=
  ["select", "where", "and", "or", "not", "null", "true", "false",
   "order", "group", "having", "limit", "offset", "union", "intersect",
   "except", "case", "when", "then", "else", "end", "as", "on",
   "lateral", "recursive", "with", "values", "returning", "set"]

def isReservedName (name : String) : Bool :=
  reservedWords.contains name

def isReserved (word : String) : Bool :=
  isReservedName (String.ofList (lower word.toList))

end QueryHarvest.Sql
