import QueryHarvest.Sql.NormalForm
import QueryHarvest.Sql.Shape
import QueryHarvest.Sql.Word

/-! # Tables of a statement

A table is named behind `FROM`, `JOIN`, `INTO`, `UPDATE` or `DELETE FROM`. The names found are those of
common table expressions too. -/

namespace QueryHarvest.Sql

open Text

/-- A reference to a table: keywords with gaps behind them, then a name. -/
def referenceShape (keywords : List (List Char)) : Shape :=
  keywords.flatMap (fun keyword => [.word keyword, .gap]) ++ [.name]

/-- The pattern of a reference: it begins where a word begins, and gives the name. -/
def referencePattern (keywords : List (List Char)) : Pattern (List Char) where
  match? c :=
    if c.beginsWord then ((referenceShape keywords).read? {} c).map fun (notes, after) => (notes.text, after)
    else none
  shrinks h := by
    split at h
    · obtain ⟨⟨_, _⟩, h, heq⟩ := Option.map_eq_some_iff.1 h
      cases heq
      exact Shape.length_read?_lt (by simp [referenceShape]) h
    · contradiction

/-- The keywords of references, in the order in which they are looked for. -/
def referenceKeywords : List (List (List Char)) :=
  [[['f', 'r', 'o', 'm']],
   [['j', 'o', 'i', 'n']],
   [['i', 'n', 't', 'o']],
   [['u', 'p', 'd', 'a', 't', 'e']],
   [['d', 'e', 'l', 'e', 't', 'e'], ['f', 'r', 'o', 'm']]]

/-- The names behind some keywords in a text in normal form, in lower case. -/
def namesBehind (text : List Char) (keywords : List (List Char)) : List String :=
  ((referencePattern keywords).allIn text).map fun found => String.ofList (lower found.value)

/-- The members of a list, each where it first stands. -/
def distinct (names : List String) : List String :=
  names.foldl (fun kept name => if kept.contains name then kept else kept ++ [name]) []

/-- The tables in a text in normal form: by keyword, then in the order of the text, each once. Reserved
words are no tables. -/
def tablesIn (text : List Char) : List String :=
  distinct ((referenceKeywords.flatMap (namesBehind text)).filter fun name => !isReservedName name)

def tables (statement : String) : List String :=
  tablesIn (normalForm statement.toList)

end QueryHarvest.Sql
