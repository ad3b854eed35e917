import QueryHarvest.Proofs.Outcome
import QueryHarvest.Sql.Predicate

/-! # What a search does not look at

Which conditions a statement has, and on which columns and with which operators, does not depend on the
values of its parameters. It depends on how many there are, and on which of them are arrays without
items.
-/

namespace QueryHarvest.Sql

open Number Text

/-- Is the value an array without items? -/
def isEmptyArray : Value → Bool
  | .list [] => true
  | .tuple [] => true
  | _ => false

/-- Two values that are arrays without items both or neither. -/
def Like (v w : Value) : Prop :=
  isEmptyArray v = isEmptyArray w

/-- As many parameters on both sides, with arrays without items at the same places. -/
abbrev Parallel (parameters others : List Value) : Prop :=
  List.Forall₂ Like parameters others

section

variable {parameters others : List Value} {p : Predicate}

theorem Parallel.getElem? (h : Parallel parameters others) (i : Nat) :
    Option.Rel Like parameters[i]? others[i]? := by
  induction h generalizing i with
  | nil => exact .none
  | cons first _ ih =>
      cases i with
      | zero => exact .some first
      | succ i => exact ih i

theorem parameter?_parallel (h : Parallel parameters others) (digits : List Char) :
    EndsAlike (Option.Rel Like) (parameter? parameters digits) (parameter? others digits) := by
  rw [parameter?, parameter?]
  refine EndsAlike.bind (R := Eq) ?_ fun index _ same => ?_
  · cases ofDigits digits with
    | ok index => exact .ok rfl
    | error e => exact .error e
  · subst same
    cases index == 0 with
    | true => exact .ok .none
    | false => exact .ok (h.getElem? _)

theorem parameterAt_parallel (h : Parallel parameters others) (position : Nat) :
    EndsAlike (Option.Rel Like) (p.parameterAt parameters position) (p.parameterAt others position) := by
  rw [Predicate.parameterAt, Predicate.parameterAt]
  cases p.notes.placeholders[position]? with
  | none => exact .ok .none
  | some placeholder => exact (parameter?_parallel h _).mapError _

theorem parametersIn_parallel (h : Parallel parameters others) (text : List Char) :
    EndsAlike (List.Forall₂ Like) (parametersIn parameters text) (parametersIn others text) := by
  rw [parametersIn, parametersIn]
  refine EndsAlike.bind (EndsAlike.mapM fun found _ => parameter?_parallel h found.digits) ?_
  exact fun _ _ rows => .ok (List.rel_filterMap (fun _ _ same => same) rows)

end

/-- Two contents with the same operator and as many values, or with some values in both that are
compared with one of them. -/
structure SameContent (content other : String × List Value) : Prop where
  operator : content.1 = other.1
  values : content.2.length = other.2.length ∨
    content.1 = Operator.anyOf.text ∧ content.2 ≠ [] ∧ other.2 ≠ []

section

variable {parameters others : List Value} (p : Predicate)

/-- A predicate about the parameter of its first placeholder. -/
theorem first_parallel (h : Parallel parameters others) (spelling : String) :
    EndsAlike (ε := ExtractionError) (Option.Rel SameContent)
      (do return (← p.parameterAt parameters 0).map fun v => (spelling, [v]))
      (do return (← p.parameterAt others 0).map fun v => (spelling, [v])) := by
  refine (parameterAt_parallel h 0).bind fun v w related => .ok ?_
  cases related with
  | none => exact .none
  | some => exact .some ⟨rfl, .inl rfl⟩

/-- A predicate about the parameters of a list. -/
theorem list_parallel (h : Parallel parameters others) (spelling : String) (text : List Char) :
    EndsAlike (ε := ExtractionError) (Option.Rel SameContent)
      (do
        let values ← (parametersIn parameters text).mapError .integer
        return if values.isEmpty then none else some (spelling, values))
      (do
        let values ← (parametersIn others text).mapError .integer
        return if values.isEmpty then none else some (spelling, values)) := by
  refine ((parametersIn_parallel h text).mapError _).bind fun values others rows => .ok ?_
  have lengths := rows.length_eq
  cases rows with
  | nil => exact .none
  | cons => exact .some ⟨rfl, .inl lengths⟩

/-- The items of an array; any other value is its own only item. -/
def itemsOf : Value → List Value
  | .list items => items
  | .tuple items => items
  | value => [value]

theorem isEmptyArray_eq (v : Value) : isEmptyArray v = (itemsOf v).isEmpty := by
  cases v <;> try rfl
  case list items => cases items <;> rfl
  case tuple items => cases items <;> rfl

/-- A predicate about the items of an array. -/
theorem content_arrayEquality : p.content parameters .arrayEquality =
    (do return (← p.parameterAt parameters 0).bind fun v =>
      if isEmptyArray v then none else some (Operator.anyOf.text, itemsOf v)) := by
  refine congrArg (p.parameterAt parameters 0 >>= ·) (funext fun v => ?_)
  rcases v with _ | v
  · rfl
  · cases v <;> try rfl
    case list items => cases items <;> rfl
    case tuple items => cases items <;> rfl

theorem array_parallel (h : Parallel parameters others) :
    EndsAlike (Option.Rel SameContent) (p.content parameters .arrayEquality)
      (p.content others .arrayEquality) := by
  rw [content_arrayEquality, content_arrayEquality]
  refine (parameterAt_parallel h 0).bind fun v w related => .ok ?_
  cases related with
  | none => exact .none
  | @some v w like =>
      have same : isEmptyArray v = isEmptyArray w := like
      cases empty : isEmptyArray v with
      | true => simp [← same, empty]
      | false =>
          simp only [Option.bind_some, ← same, empty, Bool.false_eq_true, if_false]
          refine .some ⟨rfl, .inr ⟨rfl, ?_, ?_⟩⟩
          · simpa [isEmptyArray_eq] using empty
          · simpa [isEmptyArray_eq] using same.symm.trans empty

theorem content_parallel (h : Parallel parameters others) (kind : PredicateKind) :
    EndsAlike (Option.Rel SameContent) (p.content parameters kind) (p.content others kind) := by
  cases kind with
  | equality | comparison | patternMatch => exact first_parallel p h _
  | membership | negatedMembership => exact list_parallel h _ _
  | arrayEquality => exact array_parallel p h
  | range =>
      refine (parameterAt_parallel h 0).bind fun low low' lows => ?_
      refine (parameterAt_parallel h 1).bind fun high high' highs => ?_
      cases lows with
      | none => exact .ok .none
      | some =>
          cases highs with
          | none => exact .ok .none
          | some => exact .ok (.some ⟨rfl, .inl rfl⟩)
  | nullCheck => exact .ok (.some ⟨rfl, .inl rfl⟩)
  | stringLiteral => exact .ok (.some ⟨rfl, .inl rfl⟩)
  | integerLiteral => exact (EndsAlike.refl _).bind fun n _ same => .ok (.some ⟨rfl, .inl rfl⟩)

end

/-- What a condition says but for its values: the table, the column and the operator. -/
def Condition.outline (c : Condition) : Option String × String × Operator :=
  (c.table, c.column, c.operator)

/-- Two conditions that differ at most in their values. -/
abbrev SameOutline (c d : Condition) : Prop :=
  c.outline = d.outline

section

variable {values values' : List Value}

theorem make_of_length_eq (table : Option String) (column : String) (operator : Operator)
    (lengths : values.length = values'.length) :
    EndsAlike SameOutline (Condition.make table column operator values)
      (Condition.make table column operator values') := by
  have empty : values.isEmpty = values'.isEmpty := by
    rw [Bool.eq_iff_iff, List.isEmpty_iff_length_eq_zero, List.isEmpty_iff_length_eq_zero, lengths]
  unfold Condition.make
  by_cases fits : values'.isEmpty = operator.isNullCheck
  · rw [dif_pos (empty.trans fits), dif_pos fits]
    exact .ok rfl
  · rw [dif_neg (empty ▸ fits), dif_neg fits, lengths]
    exact .error _

theorem make_of_ne_nil (table : Option String) (column : String) {operator : Operator}
    (valued : operator.isNullCheck = false) (filled : values ≠ []) (filled' : values' ≠ []) :
    EndsAlike SameOutline (Condition.make table column operator values)
      (Condition.make table column operator values') := by
  unfold Condition.make
  rw [dif_pos (valued ▸ List.isEmpty_eq_false_iff.mpr filled),
    dif_pos (valued ▸ List.isEmpty_eq_false_iff.mpr filled')]
  exact .ok rfl

theorem ofSpelling_parallel (table : Option String) (column : String) {spelling spelling' : String}
    (same : SameContent (spelling, values) (spelling', values')) :
    EndsAlike SameOutline (Condition.ofSpelling table column spelling values)
      (Condition.ofSpelling table column spelling' values') := by
  obtain ⟨(rfl : spelling = spelling'), lengths | ⟨(rfl : spelling = _), filled, filled'⟩⟩ := same
  · unfold Condition.ofSpelling
    split
    · exact make_of_length_eq table column _ lengths
    · exact .error _
  · exact make_of_ne_nil table column rfl filled filled'

end

section

variable {parameters others : List Value}

theorem condition?_parallel (p : Predicate) (h : Parallel parameters others) (kind : PredicateKind) :
    EndsAlike (Option.Rel SameOutline) (p.condition? parameters kind) (p.condition? others kind) := by
  unfold Predicate.condition?
  cases p.columnName? with
  | none => exact .ok .none
  | some name =>
      refine (content_parallel p h kind).bind fun content other same => ?_
      cases same with
      | none => exact .ok .none
      | some same =>
          exact ((ofSpelling_parallel name.table name.column same).mapError _).bind
            fun c d alike => .ok (.some alike)

theorem familyConditionsIn_parallel (f : Family) (text : List Char) (h : Parallel parameters others) :
    EndsAlike (List.Forall₂ SameOutline) (f.conditionsIn text parameters)
      (f.conditionsIn text others) :=
  (EndsAlike.mapM fun found _ => condition?_parallel found.value h f.kind).bind
    fun _ _ rows => .ok (List.rel_filterMap (fun _ _ same => same) rows)

/-- A statement has conditions of the same outlines in the same order whatever the values of its
parameters are, or fails in the same way. -/
theorem conditions_parallel (statement : String) (h : Parallel parameters others) :
    EndsAlike (List.Forall₂ SameOutline) (conditions statement parameters)
      (conditions statement others) :=
  (EndsAlike.mapM fun f _ => familyConditionsIn_parallel f _ h).bind
    fun _ _ rows => .ok (List.rel_flatten rows)

end

end QueryHarvest.Sql
