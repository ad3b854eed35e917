import QueryHarvest.Proofs.Sql.Identifiers
import QueryHarvest.Proofs.Sql.References

/-! # A join with a qualified filter

A filter on a column of the second of two joined tables is found with that table and without one. The
table that the statement names first is the other one.
-/

namespace QueryHarvest.Sql

open Number Text

/-- Two tables that are joined on a column of each, with a relation on another column of the second. -/
structure Join where
  first : Identifier
  second : Identifier
  firstColumn : Identifier
  secondColumn : Identifier
  filtered : Identifier
  relation : Relation

namespace Join

variable (j : Join)

def text : String :=
  "SELECT * FROM " ++ j.first.text ++ " JOIN " ++ j.second.text ++ " ON " ++ j.first.text ++ "." ++
    j.firstColumn.text ++ " = " ++ j.second.text ++ "." ++ j.secondColumn.text ++ " WHERE " ++
    j.second.text ++ "." ++ j.filtered.text ++ " " ++ j.relation.text ++ " " ++ placeholder 1

def spelledFilter : List Char :=
  j.second.letters ++ '.' :: (j.filtered.letters ++ ' ' :: (j.relation.test 1).spelled)

/-- What the tables are joined on, and the filter behind it. -/
def spelledOn : List Char :=
  j.first.letters ++ '.' :: (j.firstColumn.letters ++ ' ' :: '=' :: ' ' ::
    (j.second.letters ++ '.' :: (j.secondColumn.letters ++
      ' ' :: 'W' :: 'H' :: 'E' :: 'R' :: 'E' :: ' ' :: j.spelledFilter)))

/-- The statement from the first table on. -/
def spelledTables : List Char :=
  j.first.letters ++ ' ' :: 'J' :: 'O' :: 'I' :: 'N' :: ' ' ::
    (j.second.letters ++ ' ' :: 'O' :: 'N' :: ' ' :: j.spelledOn)

theorem toList_text : j.text.toList = 'S' :: 'E' :: 'L' :: 'E' :: 'C' :: 'T' :: ' ' :: '*' :: ' ' ::
    'F' :: 'R' :: 'O' :: 'M' :: ' ' :: j.spelledTables := by
  unfold text spelledTables spelledOn spelledFilter
  rw [← Relation.toList_test]
  generalize placeholder 1 = last
  simp

theorem plain_column (table column : Identifier) :
    IsRun isPlain (table.letters ++ '.' :: column.letters) := by
  refine (table.solid_letters.mono isPlain_of_isSolid).append fun c member => ?_
  rcases List.mem_cons.mp member with rfl | inside
  · rfl
  · exact isPlain_of_isSolid (column.solid_letters.passes c inside)

theorem rowed : Rowed isPlain j.text.toList := by
  have plain {word : List Char} (nonempty : word ≠ []) (h : word.all isPlain) : IsRun isPlain word :=
    ⟨nonempty, List.all_eq_true.mp h⟩
  have test := (neat_test (j.relation.test 1)).mono isPlain_of_isSolid
  have filter := Rowed.cons (plain (List.cons_ne_nil 'W' ['H', 'E', 'R', 'E']) rfl)
    (.cons (plain_column j.second j.filtered) test)
  have on := Rowed.cons (plain (List.cons_ne_nil 'O' ['N']) rfl)
    (.cons (plain_column j.first j.firstColumn)
      (.cons (plain (List.cons_ne_nil '=' []) rfl) (.cons (plain_column j.second j.secondColumn) filter)))
  have tables := Rowed.cons (plain (List.cons_ne_nil 'F' ['R', 'O', 'M']) rfl)
    (.cons (j.first.solid_letters.mono isPlain_of_isSolid)
      (.cons (plain (List.cons_ne_nil 'J' ['O', 'I', 'N']) rfl)
        (.cons (j.second.solid_letters.mono isPlain_of_isSolid) on)))
  have whole := Rowed.cons (plain (List.cons_ne_nil 'S' ['E', 'L', 'E', 'C', 'T']) rfl)
    (.cons (plain (List.cons_ne_nil '*' []) rfl) tables)
  rw [toList_text]
  simpa [spelledTables, spelledOn, spelledFilter] using whole

section

variable {kind : PredicateKind} {rest : List Char}

theorem unanswering_point (rest : List Char) : Unanswering ('.' :: rest) :=
  ⟨stops_cons rfl, fun _ _ _ => rfl, fun _ _ _ => rfl, fun _ => rfl⟩

/-- A family of bare columns comes over a word to the column of the table behind it. -/
theorem valuesFrom_toColumn {word : List Char} (named : isIdentifier word) (table : Identifier) :
    kind.bare.valuesFrom ⟨some ' ', word ++ ' ' :: (table.letters ++ '.' :: rest)⟩ =
      kind.bare.valuesFrom ⟨some '.', rest⟩ := by
  calc kind.bare.valuesFrom ⟨some ' ', word ++ ' ' :: (table.letters ++ '.' :: rest)⟩
    _ = kind.bare.valuesFrom ⟨some ' ', table.letters ++ '.' :: rest⟩ :=
      valuesFrom_unread rfl named rfl fun z =>
        read_behind_word table.isIdentifier (unanswering_point rest) (fun _ _ => rfl) kind
    _ = kind.bare.valuesFrom ⟨some '.', rest⟩ :=
      valuesFrom_unread rfl table.isIdentifier rfl fun z => by cases kind <;> rfl

theorem valuesFrom_tables : kind.bare.valuesFrom (Cursor.start j.text.toList) =
    kind.bare.valuesFrom ⟨some ' ', 'O' :: 'N' :: ' ' :: j.spelledOn⟩ := by
  have joined : Unanswering (' ' :: 'J' :: 'O' :: 'I' :: 'N' :: ' ' ::
      (j.second.letters ++ ' ' :: 'O' :: 'N' :: ' ' :: j.spelledOn)) :=
    ⟨stops_cons rfl, fun _ _ _ => rfl, fun _ _ _ => rfl, fun _ => rfl⟩
  have matched : Unanswering (' ' :: 'O' :: 'N' :: ' ' :: j.spelledOn) :=
    ⟨stops_cons rfl, fun _ _ _ => rfl, fun _ _ _ => rfl, fun _ => rfl⟩
  rw [toList_text, spelledTables]
  generalize j.spelledOn = on at joined matched
  calc kind.bare.valuesFrom ⟨none, 'S' :: 'E' :: 'L' :: 'E' :: 'C' :: 'T' :: ' ' :: '*' :: ' ' ::
          'F' :: 'R' :: 'O' :: 'M' :: ' ' :: (j.first.letters ++ ' ' :: 'J' :: 'O' :: 'I' :: 'N' :: ' ' ::
            (j.second.letters ++ ' ' :: 'O' :: 'N' :: ' ' :: on))⟩
    _ = kind.bare.valuesFrom ⟨some ' ', j.first.letters ++ ' ' :: 'J' :: 'O' :: 'I' :: 'N' :: ' ' ::
          (j.second.letters ++ ' ' :: 'O' :: 'N' :: ' ' :: on)⟩ :=
      valuesFrom_selected rfl fun z =>
        read_behind_word j.first.isIdentifier joined (fun _ _ => rfl) kind
    _ = kind.bare.valuesFrom ⟨some ' ', ['J', 'O', 'I', 'N'] ++ ' ' ::
          (j.second.letters ++ ' ' :: 'O' :: 'N' :: ' ' :: on)⟩ :=
      valuesFrom_unread rfl j.first.isIdentifier rfl fun z => by cases kind <;> rfl
    _ = kind.bare.valuesFrom ⟨some ' ', j.second.letters ++ ' ' :: 'O' :: 'N' :: ' ' :: on⟩ :=
      valuesFrom_unread rfl rfl rfl fun z =>
        read_behind_word j.second.isIdentifier matched (fun _ _ => rfl) kind
    _ = kind.bare.valuesFrom ⟨some ' ', 'O' :: 'N' :: ' ' :: on⟩ :=
      valuesFrom_unread rfl j.second.isIdentifier rfl fun z => by cases kind <;> rfl

theorem valuesFrom_on : kind.bare.valuesFrom ⟨some ' ', 'O' :: 'N' :: ' ' :: j.spelledOn⟩ =
    kind.bare.valuesFrom ⟨some '.', j.filtered.letters ++ ' ' :: (j.relation.test 1).spelled⟩ := by
  rw [spelledOn, spelledFilter]
  generalize j.filtered.letters ++ ' ' :: (j.relation.test 1).spelled = filter
  calc kind.bare.valuesFrom ⟨some ' ', ['O', 'N'] ++ ' ' :: (j.first.letters ++ '.' ::
          (j.firstColumn.letters ++ ' ' :: '=' :: ' ' :: (j.second.letters ++ '.' ::
            (j.secondColumn.letters ++ ' ' :: 'W' :: 'H' :: 'E' :: 'R' :: 'E' :: ' ' ::
              (j.second.letters ++ '.' :: filter)))))⟩
    _ = kind.bare.valuesFrom ⟨some '.', j.firstColumn.letters ++ ' ' :: '=' :: ' ' ::
          (j.second.letters ++ '.' :: (j.secondColumn.letters ++
            ' ' :: 'W' :: 'H' :: 'E' :: 'R' :: 'E' :: ' ' :: (j.second.letters ++ '.' :: filter)))⟩ :=
      valuesFrom_toColumn rfl j.first
    _ = kind.bare.valuesFrom ⟨some ' ', ['=', ' '] ++ (j.second.letters ++ '.' :: (j.secondColumn.letters ++
            ' ' :: 'W' :: 'H' :: 'E' :: 'R' :: 'E' :: ' ' :: (j.second.letters ++ '.' :: filter)))⟩ :=
      valuesFrom_unread rfl j.firstColumn.isIdentifier rfl fun z =>
        read_behind_equals j.second.isIdentifier (unanswering_point _) kind
    _ = kind.bare.valuesFrom ⟨some ' ', j.second.letters ++ '.' :: (j.secondColumn.letters ++
            ' ' :: 'W' :: 'H' :: 'E' :: 'R' :: 'E' :: ' ' :: (j.second.letters ++ '.' :: filter))⟩ :=
      (anchored_family _).valuesFrom_marks _ (marks_cons rfl (marks_cons rfl marks_nil))
    _ = kind.bare.valuesFrom ⟨some '.', j.secondColumn.letters ++
            ' ' :: 'W' :: 'H' :: 'E' :: 'R' :: 'E' :: ' ' :: (j.second.letters ++ '.' :: filter)⟩ :=
      valuesFrom_unread rfl j.second.isIdentifier rfl fun z => by cases kind <;> rfl
    _ = kind.bare.valuesFrom ⟨some ' ', ['W', 'H', 'E', 'R', 'E'] ++ ' ' ::
            (j.second.letters ++ '.' :: filter)⟩ :=
      valuesFrom_unread rfl j.secondColumn.isIdentifier rfl fun z => by cases kind <;> rfl
    _ = kind.bare.valuesFrom ⟨some '.', filter⟩ := valuesFrom_toColumn rfl j.second

/-- A family of qualified columns comes to the filter too. -/
theorem valuesFrom_filter : kind.qualified.valuesFrom (Cursor.start j.text.toList) =
    kind.qualified.valuesFrom ⟨some ' ', j.spelledFilter⟩ := by
  rw [toList_text, spelledTables, spelledOn]
  generalize j.spelledFilter = filter
  have spaced {z : Option Char} (word : List Char) {rest : List Char} (named : isIdentifier word) :
      kind.qualified.valuesFrom ⟨z, word ++ ' ' :: rest⟩ = kind.qualified.valuesFrom ⟨some ' ', rest⟩ :=
    valuesFrom_unqualified named rfl (by decide)
  have marked {z : Option Char} {first : Char} {rest : List Char} (odd : isIdentStart first = false) :
      kind.qualified.valuesFrom ⟨z, first :: ' ' :: rest⟩ = kind.qualified.valuesFrom ⟨some ' ', rest⟩ :=
    (anchored_family _).valuesFrom_marks [first, ' '] (marks_cons odd (marks_cons rfl marks_nil))
  generalize hon : j.first.letters ++ '.' :: (j.firstColumn.letters ++ ' ' :: '=' :: ' ' ::
    (j.second.letters ++ '.' :: (j.secondColumn.letters ++
      ' ' :: 'W' :: 'H' :: 'E' :: 'R' :: 'E' :: ' ' :: filter))) = on
  have tables : kind.qualified.valuesFrom ⟨none, 'S' :: 'E' :: 'L' :: 'E' :: 'C' :: 'T' :: ' ' :: '*' :: ' ' ::
      'F' :: 'R' :: 'O' :: 'M' :: ' ' :: (j.first.letters ++ ' ' :: (['J', 'O', 'I', 'N'] ++ ' ' ::
        (j.second.letters ++ ' ' :: (['O', 'N'] ++ ' ' :: on))))⟩ =
      kind.qualified.valuesFrom ⟨some ' ', on⟩ := by
    rw [valuesFrom_selected_qualified, spaced _ j.first.isIdentifier, spaced _ rfl,
      spaced _ j.second.isIdentifier, spaced _ rfl]
  have equated : kind.qualified.valuesFrom ⟨some ' ', on⟩ =
      kind.qualified.valuesFrom ⟨some ' ', filter⟩ := by
    have firstRead : ∀ z, kind.shape.read? {} ⟨z, ' ' :: '=' :: ' ' :: (j.second.letters ++ '.' ::
        (j.secondColumn.letters ++ ' ' :: 'W' :: 'H' :: 'E' :: 'R' :: 'E' :: ' ' :: filter))⟩ = none :=
      fun z => read_behind_equals j.second.isIdentifier (unanswering_point _) kind
    have secondRead : ∀ z, kind.shape.read? {}
        ⟨z, ' ' :: 'W' :: 'H' :: 'E' :: 'R' :: 'E' :: ' ' :: filter⟩ = none := fun z => by
      cases kind <;> rfl
    rw [← hon, valuesFrom_unread_column rfl j.first j.firstColumn rfl (by decide) firstRead, marked rfl,
      valuesFrom_unread_column rfl j.second j.secondColumn rfl (by decide) secondRead]
    exact spaced ['W', 'H', 'E', 'R', 'E'] rfl
  exact tables.trans equated

/-- The filter is found by the two families of its kind. -/
theorem reports_text (parameters : List Value) (f : Family) :
    Reports parameters f.kind (f.pattern.valuesFrom (Cursor.start j.text.toList))
      (if f.kind = j.relation.kind then
        Identifier.reports (if f.qualified then some j.second else none) j.filtered j.relation.operator
          (numbered parameters 1)
      else []) := by
  have short : 1 < 10 ^ maxDigits := by decide +kernel
  obtain ⟨kind, qualified⟩ := f
  cases qualified with
  | false =>
      have found := @reports_relation parameters (some '.') 1 [] j.filtered j.relation kind
        short rfl marks_nil (stops_nil isDigit)
      rw [List.append_nil] at found
      rw [j.valuesFrom_tables, j.valuesFrom_on]
      exact found
  | true =>
      have found := @reports_qualified_relation parameters (some ' ') 1 [] j.filtered j.relation
        kind j.second short rfl marks_nil (stops_nil isDigit)
      rw [List.append_nil] at found
      rw [j.valuesFrom_filter]
      exact found

/-- The filter is found without its table, and then with it. -/
theorem conditions_text (parameters : List Value) :
    ∃ found, conditions j.text parameters = .ok found ∧
      found.map Condition.fields =
        Identifier.reports none j.filtered j.relation.operator (numbered parameters 1) ++
          Identifier.reports (some j.second) j.filtered j.relation.operator (numbered parameters 1) := by
  have all : (Family.all.flatMap fun f => if f.kind = j.relation.kind then
        Identifier.reports (if f.qualified then some j.second else none) j.filtered j.relation.operator
          (numbered parameters 1)
      else []) = Identifier.reports none j.filtered j.relation.operator (numbered parameters 1) ++
          Identifier.reports (some j.second) j.filtered j.relation.operator (numbered parameters 1) := by
    cases j.relation <;> simp [Family.all, Relation.kind]
  rw [conditions, j.rowed.normalForm_eq, ← all]
  exact conditionsIn_flatMap _ fun f _ => conditionsIn_of_reports (j.reports_text parameters f)

end

end Join

end QueryHarvest.Sql
