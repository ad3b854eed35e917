import QueryHarvest.Proofs.Sql.Sources

/-! # Conditions of ASCII statements

Any ASCII text may be given as a statement. As long as no number in it is too long, its conditions are
found without an error, they are well formed, and each of their values has a source in the normal form.
-/

namespace QueryHarvest.Sql

open Number Text

/-- A column or a table is named as names are in ASCII, and not by a reserved word. -/
structure IsProperName (name : String) : Prop where
  isName : isName name.toList
  unreserved : isReservedName name = false

/-- Where a value in a condition comes from: a placeholder in the text stands for it or for an array that
holds it, or it is written as a literal behind the qualified column. -/
inductive Condition.Source (c : Condition) (text : List Char) (parameters : List Value) (v : Value) :
    Prop where
  | parameter (h : IsParameter text parameters v)
  | item {array : Value} {items : List Value} (operator : c.operator = .anyOf)
      (h : IsParameter text parameters array) (holds : array = .list items ∨ array = .tuple items)
      (member : v ∈ items)
  | literal {table column : List Char} (operator : c.operator = .equals)
      (tableName : c.table = some (String.ofList (lower table)))
      (columnName : c.column = String.ofList (lower column))
      (h : IsInteger text (table ++ '.' :: column) v ∨ IsQuoted text (table ++ '.' :: column) v)

/-- A condition that is well formed and says nothing that is not in the text or the parameters. -/
structure Condition.Sound (c : Condition) (text : List Char) (parameters : List Value) : Prop where
  operator : c.operator ∈ Operator.all
  values : c.values = [] ↔ c.operator = .isNull ∨ c.operator = .isNotNull
  range : c.operator = .between → c.values.length = 2
  column : IsProperName c.column
  table : ∀ name ∈ c.table, IsProperName name
  sources : ∀ v ∈ c.values, c.Source text parameters v

theorem mem_all (operator : Operator) : operator ∈ Operator.all := by
  cases operator with
  | compares comparison => cases comparison <;> decide
  | _ => decide

@[simp] theorem isNullCheck_iff {operator : Operator} :
    operator.isNullCheck ↔ operator = .isNull ∨ operator = .isNotNull := by
  cases operator <;> simp [Operator.isNullCheck]

section

variable {text name : List Char}

theorem lowered_ascii {c : Char} (ascii : c.toNat < 128) :
    (isIdentStart c → isNameStart c.toLower) ∧ (isIdentPart c → isNamePart c.toLower) :=
  of_ascii ascii (by decide +kernel)

theorem isName_lower (h : isIdentifier name) (ascii : ∀ c ∈ name, c.toNat < 128) :
    isName (lower name) := by
  rw [lower_ascii ascii]
  cases name with
  | nil => exact absurd h Bool.false_ne_true
  | cons c name =>
      obtain ⟨start, parts⟩ := Bool.and_eq_true_iff.mp h
      rw [List.map_cons, isName, Bool.and_eq_true, List.all_map, List.all_eq_true]
      refine ⟨(lowered_ascii (ascii c (List.mem_cons_self ..))).1 start, fun d member => ?_⟩
      exact (lowered_ascii (ascii d (List.mem_cons_of_mem _ member))).2 (List.all_eq_true.mp parts d member)

/-- The names in the normal form of an ASCII text are ASCII. -/
theorem ascii_of_inside (ascii : ∀ c ∈ text, c.toNat < 128) (h : isIdentifier name)
    (inside : name <:+: normalForm text) : ∀ c ∈ name, c.toNat < 128 := by
  intro c member
  have part := isIdentPart_of_mem h c member
  have apart {d : Char} (other : isIdentPart d = false) : c ≠ d := by
    rintro rfl
    rw [part] at other
    contradiction
  exact ascii c (mem_of_mem_normalForm (isBlank_of_isIdentPart part) (apart (by decide))
    (apart (by decide)) (inside.subset member))

theorem isProperName_lower (ascii : ∀ c ∈ text, c.toNat < 128) (h : isIdentifier name)
    (inside : name <:+: normalForm text) (unreserved : isReservedName (String.ofList (lower name)) = false) :
    IsProperName (String.ofList (lower name)) where
  isName := by
    rw [String.toList_ofList]
    exact isName_lower h (ascii_of_inside ascii h inside)
  unreserved := unreserved

end

section

variable {p : Predicate} {f : Family} {text read rest : List Char} {parameters : List Value}
  {c : Condition}

theorem Predicate.Stands.column_inside (h : p.Stands f text read rest) : p.column <:+: text := by
  refine List.IsInfix.trans ?_ h.place.isInfix
  rw [spelledColumn]
  cases p.qualifier with
  | none => exact ⟨[], read ++ rest, rfl⟩
  | some table => exact ⟨table ++ ['.'], read ++ rest, by simp⟩

theorem Predicate.Stands.qualifier_inside (h : p.Stands f text read rest) :
    ∀ table ∈ p.qualifier, table <:+: text := by
  intro table qualified
  refine List.IsInfix.trans ?_ h.place.isInfix
  rw [spelledColumn, Option.mem_def.mp qualified]
  exact ⟨[], '.' :: p.column ++ (read ++ rest), by simp⟩

theorem Predicate.Yields.sources (h : p.Yields text parameters c) :
    ∀ v ∈ c.values, c.Source text parameters v := by
  have name := h.name
  rw [loweredName, ColumnName.mk.injEq] at name
  have answer := h.answer
  generalize holds : c.operator = operator at answer
  generalize c.values = values at answer
  intro v member
  cases answer with
  | isIn _ sources | notIn _ sources => exact .parameter (sources v member)
  | items source array => exact .item holds source array member
  | between low high =>
      rcases List.mem_pair.mp member with rfl | rfl
      · exact .parameter low
      · exact .parameter high
  | isNull | isNotNull => cases member
  | literal qualified source =>
      obtain ⟨table, qualifier⟩ := Option.isSome_iff_exists.mp qualified
      rw [qualifier, Option.map_some] at name
      rw [Predicate.spelledColumn, qualifier] at source
      rw [List.mem_singleton.mp member]
      exact .literal holds name.1 name.2 source
  | equals source | anyOf source | compares source | like source | ilike source =>
      rw [List.mem_singleton.mp member]
      exact .parameter source

theorem Predicate.Yields.sound (ascii : ∀ c ∈ text, c.toNat < 128)
    (h : p.Yields (normalForm text) parameters c) (stands : p.Stands f (normalForm text) read rest) :
    c.Sound (normalForm text) parameters := by
  have name := h.name
  rw [loweredName, ColumnName.mk.injEq] at name
  constructor
  case operator => exact mem_all c.operator
  case values => rw [← isNullCheck_iff, ← c.values_isEmpty, List.isEmpty_iff]
  case range =>
    intro between
    have answer := h.answer
    rw [between] at answer
    generalize c.values = values at answer
    cases answer with
    | between => rfl
  case column =>
    rw [name.2]
    exact isProperName_lower ascii stands.column stands.column_inside h.unreserved.column
  case table =>
    intro table member
    rw [name.1, Option.mem_def, Option.map_eq_some_iff] at member
    obtain ⟨written, qualified, rfl⟩ := member
    refine isProperName_lower ascii (stands.qualifier written qualified)
      (stands.qualifier_inside written qualified) (h.unreserved.table _ ?_)
    exact Option.mem_map_of_mem _ qualified
  case sources => exact h.sources

end

/-- Whatever ASCII text is given as a statement, with whatever parameters, its conditions are found and
are sound, unless a number in it is too long to be read. -/
theorem conditions_sound {statement : String} (ascii : ∀ c ∈ statement.toList, c.toNat < 128)
    (short : ∀ run, IsRun isDigit run → run <:+: statement.toList → run.length ≤ maxDigits)
    (parameters : List Value) :
    ∃ found, conditions statement parameters = .ok found ∧
      ∀ c ∈ found, c.Sound (normalForm statement.toList) parameters := by
  have plain : Plain statement.toList :=
    ⟨short, fun c member => by have := ascii c member; omega,
      fun c member => by have := ascii c member; omega⟩
  obtain ⟨found, read, yielded⟩ := exists_conditionsIn plain.normalForm parameters
  refine ⟨found, read, fun c member => ?_⟩
  obtain ⟨p, f, _, _, stands, yields⟩ := yielded c member
  exact yields.sound ascii stands

/-- A text that is no statement, with comments, literals and placeholders. -/
def garbled : String := "WHERE )) t.a='x' AND /* b = $2 */ c iLiKe $1 ;; -- $9"

theorem garbled_sound :
    ∃ found, conditions garbled [.text "y%"] = .ok found ∧
      ∀ c ∈ found, c.Sound (normalForm garbled.toList) [.text "y%"] := by
  have ascii : garbled.toList.all (·.toNat < 128) := by decide
  refine conditions_sound (fun c member => ?_) (fun run _ inside => ?_) _
  · simpa using List.all_eq_true.mp ascii c member
  · exact Nat.le_trans inside.length_le (by decide)

end QueryHarvest.Sql
