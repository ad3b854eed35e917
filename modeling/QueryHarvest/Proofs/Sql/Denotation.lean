import QueryHarvest.Proofs.Sql.Placeholders

/-! # What a predicate read off a conjunction says

A test that has been read under its own kind gives the condition that the filter denotes, and a
negation read as a column gives none.
-/

namespace QueryHarvest.Sql

open Number Text

theorem getElem?_parameterOf {parameters : List Value} {n : Nat} (h : 1 ≤ n ∧ n ≤ parameters.length) :
    parameters[n - 1]? = some (parameterOf parameters n) := by
  have inside : n - 1 < parameters.length := by omega
  simp [parameterOf, inside]

theorem parameter?_toDigits {parameters : List Value} {n : Nat}
    (few : parameters.length < 10 ^ maxDigits) (h : 1 ≤ n ∧ n ≤ parameters.length) :
    parameter? parameters (Nat.toDigits 10 n) = .ok (some (parameterOf parameters n)) := by
  rw [parameter?_numbered parameters h.1 (Nat.lt_of_le_of_lt h.2 few), getElem?_parameterOf h]

/-- The numbers of a list, each with what stands behind its placeholder. -/
def listMarks : Nat → List Nat → List (Nat × List Char)
  | n, [] => [(n, [])]
  | n, m :: others => (n, [',', ' ']) :: listMarks m others

@[simp] theorem spelledAmong_listMarks (first : Nat) (others : List Nat) :
    spelledAmong [] (listMarks first others) = spelledList first others := by
  induction others generalizing first with
  | nil => simp [spelledAmong, listMarks, spelledList]
  | cons n others ih =>
      have later := ih n
      rw [spelledAmong, List.nil_append, spelledList] at later
      rw [spelledAmong, listMarks, List.flatMap_cons, later, spelledList, List.flatMap_cons]
      simp

@[simp] theorem map_fst_listMarks (first : Nat) (others : List Nat) :
    (listMarks first others).map Prod.fst = first :: others := by
  induction others generalizing first with
  | nil => rfl
  | cons n others ih => rw [listMarks, List.map_cons, ih]

theorem behind_listMarks {first : Nat} {others : List Nat} :
    ∀ m ∈ listMarks first others, m.2 = [] ∨ m.2 = [',', ' '] := by
  induction others generalizing first with
  | nil => simp [listMarks]
  | cons n others ih => exact List.forall_mem_cons.mpr ⟨.inr rfl, ih⟩

/-- The placeholders of a list stand for their parameters, in order. -/
theorem parametersIn_list {parameters : List Value} {first : Nat} {others : List Nat}
    (few : parameters.length < 10 ^ maxDigits)
    (h : ∀ n ∈ first :: others, 1 ≤ n ∧ n ≤ parameters.length) :
    parametersIn parameters (spelledList first others) =
      .ok ((first :: others).map (parameterOf parameters)) := by
  have numbered : ∀ m ∈ listMarks first others, 1 ≤ m.1 ∧ m.1 ≤ parameters.length := fun m member =>
    h m.1 (map_fst_listMarks first others ▸ List.mem_map_of_mem member)
  have found : (listMarks first others).filterMap (fun m => parameters[m.1 - 1]?) =
      (first :: others).map (parameterOf parameters) := by
    rw [← map_fst_listMarks first others, List.map_map, ← List.filterMap_eq_map]
    exact List.filterMap_congr fun m member => getElem?_parameterOf (numbered m member)
  rw [← spelledAmong_listMarks, ← found]
  refine parametersIn_spelledAmong parameters (List.forall_mem_nil _) (fun m member => ?_)
    (fun m member => ?_) fun m member => ?_
  · rcases behind_listMarks m member with behind | behind <;> simp [behind]
  · rcases behind_listMarks m member with behind | behind <;> rw [behind]
    · exact stops_nil isDigit
    · exact stops_cons rfl
  · exact ⟨(numbered m member).1, Nat.lt_of_le_of_lt (numbered m member).2 few⟩

@[simp] theorem ofText?_text (operator : Operator) : Operator.ofText? operator.text = some operator := by
  cases operator with
  | compares comparison => cases comparison <;> rfl
  | _ => rfl

theorem ofSpelling_text {operator : Operator} {table : Option String} {column : String}
    {values : List Value} (h : values.isEmpty = operator.isNullCheck) :
    Condition.ofSpelling table column operator.text values =
      .ok ⟨table, column, operator, values, h⟩ := by
  rw [Condition.ofSpelling, ofText?_text]
  exact dif_pos h

@[simp] theorem comparison_text (comparison : Comparison) :
    String.ofList (upper comparison.spelled) = comparison.text := by
  cases comparison <;> rfl

/-- Values are missing from the null checks alone. -/
theorem values_isEmpty {test : Test} {kind : PredicateKind} {operator : Operator}
    {parameters : List Value} (own : test.report? = some (kind, operator))
    (fits : test.Fits parameters) : (test.values parameters).isEmpty = operator.isNullCheck := by
  cases test with
  | anyOf n =>
      cases own
      obtain ⟨noList, noTuple⟩ := fits.filled n rfl
      simp only [Test.values]
      generalize parameterOf parameters n = array at noList noTuple
      cases array with
      | list items =>
          cases items with
          | nil => exact absurd rfl noList
          | cons => rfl
      | tuple items =>
          cases items with
          | nil => exact absurd rfl noTuple
          | cons => rfl
      | _ => rfl
  | notLike | notIlike | notBetween => cases own
  | _ =>
      cases own
      rfl

section

variable {parameters : List Value} {test : Test} {kind : PredicateKind} {operator : Operator}

/-- A test read under its own kind has its operator and its values for content. -/
theorem content_own (own : test.report? = some (kind, operator)) (fits : test.Fits parameters)
    (few : parameters.length < 10 ^ maxDigits) (qualifier : Option (List Char))
    (column tail : List Char) :
    Predicate.content ⟨qualifier, column, test.notes tail⟩ parameters kind =
      .ok (some (operator.text, test.values parameters)) := by
  have at_index : ∀ n ∈ test.indices, parameter? parameters (Nat.toDigits 10 n) =
      .ok (some (parameterOf parameters n)) := fun n member =>
    parameter?_toDigits few (fits.indexed n member)
  cases test with
  | equals n | like n | ilike n =>
      cases own
      have value := at_index n (List.mem_cons_self ..)
      simp only [Predicate.content, Predicate.parameterAt, Test.notes, List.getElem?_cons_zero, value]
      rfl
  | compares comparison n =>
      cases own
      have value := at_index n (List.mem_cons_self ..)
      simp only [Predicate.content, Predicate.parameterAt, Test.notes, List.getElem?_cons_zero, value,
        comparison_text]
      rfl
  | isIn first others | notIn first others =>
      cases own
      have values := parametersIn_list few fits.indexed
      simp only [Predicate.content, Test.notes, values]
      rfl
  | anyOf n =>
      cases own
      have value := at_index n (List.mem_cons_self ..)
      obtain ⟨noList, noTuple⟩ := fits.filled n rfl
      simp only [Predicate.content, Predicate.parameterAt, Test.notes, List.getElem?_cons_zero, value,
        Test.values, Except.mapError, bind, Except.bind]
      generalize parameterOf parameters n = array at noList noTuple
      cases array with
      | list items =>
          cases items with
          | nil => exact absurd rfl noList
          | cons => rfl
      | tuple items =>
          cases items with
          | nil => exact absurd rfl noTuple
          | cons => rfl
      | _ => rfl
  | between low high =>
      cases own
      have first := at_index low (List.mem_cons_self ..)
      have second := at_index high (List.mem_cons_of_mem _ (List.mem_cons_self ..))
      simp only [Predicate.content, Predicate.parameterAt, Test.notes, List.getElem?_cons_zero,
        List.getElem?_cons_succ, first, second]
      rfl
  | isNull | isNotNull =>
      cases own
      rfl
  | notLike | notIlike | notBetween => cases own

end

theorem columnName?_column (column : Name) (notes : Notes) :
    Predicate.columnName? ⟨none, column.letters, notes⟩ = some ⟨none, column.text⟩ := by
  simp [Predicate.columnName?, column.unreserved]

/-- A filter whose test has been read is found to say what it denotes. -/
theorem condition_own {parameters : List Value} {f : Conjunct} {kind : PredicateKind}
    {operator : Operator} (own : f.test.report? = some (kind, operator))
    (fits : f.test.Fits parameters) (few : parameters.length < 10 ^ maxDigits) (tail : List Char) :
    ∃ c, Predicate.condition? ⟨none, f.column.letters, f.test.notes tail⟩ parameters kind =
        .ok (some c) ∧
      c.fields = (none, f.column.text, operator, f.test.values parameters) := by
  have content := content_own own fits few none f.column.letters tail
  have made := @ofSpelling_text _ none f.column.text _ (values_isEmpty own fits)
  refine ⟨⟨none, f.column.text, operator, f.test.values parameters, values_isEmpty own fits⟩, ?_, rfl⟩
  simp only [Predicate.condition?, columnName?_column, content, ok_bind, made]
  rfl

/-- A negation read as a column is reserved. -/
theorem condition_negation (notes : Notes) (parameters : List Value) (kind : PredicateKind) :
    Predicate.condition? ⟨none, ['N', 'O', 'T'], notes⟩ parameters kind = .ok none := by
  rfl

/-- The predicates found under a kind give conditions with these contents. -/
def Reports (parameters : List Value) (kind : PredicateKind) (found : List Predicate)
    (contents : List (Option String × String × Operator × List Value)) : Prop :=
  ∃ conditions, found.mapM (fun p => p.condition? parameters kind) = .ok conditions ∧
    (conditions.filterMap id).map Condition.fields = contents

namespace Reports

variable {parameters : List Value} {kind : PredicateKind}

theorem nil : Reports parameters kind [] [] :=
  ⟨[], rfl, rfl⟩

theorem dropped {p : Predicate} (h : p.condition? parameters kind = .ok none) :
    Reports parameters kind [p] [] :=
  ⟨[none], mapM_eq_ok_iff.mpr (.cons h .nil), rfl⟩

theorem single {p : Predicate} {c : Condition} (h : p.condition? parameters kind = .ok (some c)) :
    Reports parameters kind [p] [c.fields] :=
  ⟨[some c], mapM_eq_ok_iff.mpr (.cons h .nil), rfl⟩

theorem append {found more : List Predicate}
    {contents others : List (Option String × String × Operator × List Value)}
    (h : Reports parameters kind found contents) (hmore : Reports parameters kind more others) :
    Reports parameters kind (found ++ more) (contents ++ others) := by
  obtain ⟨conditions, read, rfl⟩ := h
  obtain ⟨conditions', read', rfl⟩ := hmore
  refine ⟨conditions ++ conditions', ?_, by simp⟩
  rw [mapM_eq_ok_iff] at read read' ⊢
  exact List.rel_append read read'

end Reports

end QueryHarvest.Sql
