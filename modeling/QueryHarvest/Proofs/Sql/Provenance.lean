import QueryHarvest.Proofs.Number.Digits
import QueryHarvest.Proofs.Outcome
import QueryHarvest.Sql.Predicate

/-! # What conditions hold

Whatever the text of a statement is, the conditions that are found in it hold nothing but its
parameters, items of them, and literals.
-/

namespace QueryHarvest.Sql

open Number Text

/-- A value that a condition may hold: a parameter, an item of an array among the parameters, an integer
of not too many digits or a text. -/
inductive Drawn (parameters : List Value) : Value → Prop where
  | parameter {v : Value} (member : v ∈ parameters) : Drawn parameters v
  | item {v array : Value} {items : List Value} (member : array ∈ parameters)
      (holds : array = .list items ∨ array = .tuple items) (inside : v ∈ items) : Drawn parameters v
  | integer {n : Nat} (short : n < 10 ^ maxDigits) : Drawn parameters (.int n)
  | text (s : String) : Drawn parameters (.text s)

section

variable {p : Predicate} {parameters values : List Value}

theorem mem_of_parameter? {digits : List Char} {v : Value}
    (h : parameter? parameters digits = .ok (some v)) : v ∈ parameters := by
  obtain ⟨index, -, found⟩ := bind_eq_ok_iff.mp h
  cases counted : index == 0 with
  | true => simp [counted] at found
  | false =>
      simp only [counted, pure_eq_ok, Except.ok.injEq] at found
      exact List.mem_of_getElem? found

theorem mem_of_parameterAt {position : Nat} {v : Value}
    (h : p.parameterAt parameters position = .ok (some v)) : v ∈ parameters := by
  rw [Predicate.parameterAt] at h
  split at h
  · exact mem_of_parameter? (mapError_eq_ok_iff.mp h)
  · cases h

theorem mem_of_mem_parametersIn {text : List Char} (h : parametersIn parameters text = .ok values) :
    ∀ v ∈ values, v ∈ parameters := by
  obtain ⟨found, read, same⟩ := bind_eq_ok_iff.mp h
  cases same
  intro v member
  obtain ⟨_, inside, rfl⟩ := List.mem_filterMap.mp member
  obtain ⟨_, -, stands⟩ := exists_left_of_forall₂ (mapM_eq_ok_iff.mp read) inside
  exact mem_of_parameter? stands

end

/-- What a predicate of some kind can say: an operator, given by its spelling, and values. -/
inductive Predicate.Says (p : Predicate) (parameters : List Value) :
    PredicateKind → String → List Value → Prop where
  | equality {v : Value} (read : p.parameterAt parameters 0 = .ok (some v)) :
      Says p parameters .equality Operator.equals.text [v]
  | membership {values : List Value} (read : parametersIn parameters p.notes.text = .ok values) :
      Says p parameters .membership Operator.isIn.text values
  | negatedMembership {values : List Value} (read : parametersIn parameters p.notes.text = .ok values) :
      Says p parameters .negatedMembership Operator.notIn.text values
  | items {array : Value} {items : List Value} (read : p.parameterAt parameters 0 = .ok (some array))
      (holds : array = .list items ∨ array = .tuple items) :
      Says p parameters .arrayEquality Operator.anyOf.text items
  | anyOf {v : Value} (read : p.parameterAt parameters 0 = .ok (some v)) :
      Says p parameters .arrayEquality Operator.anyOf.text [v]
  | comparison {v : Value} (read : p.parameterAt parameters 0 = .ok (some v)) :
      Says p parameters .comparison (String.ofList (upper p.notes.text)) [v]
  | range {low high : Value} (first : p.parameterAt parameters 0 = .ok (some low))
      (second : p.parameterAt parameters 1 = .ok (some high)) :
      Says p parameters .range Operator.between.text [low, high]
  | patternMatch {v : Value} (read : p.parameterAt parameters 0 = .ok (some v)) :
      Says p parameters .patternMatch (String.ofList (upper p.notes.text)) [v]
  | nullCheck : Says p parameters .nullCheck
      (if p.notes.negated then Operator.isNotNull else Operator.isNull).text []
  | integerLiteral {n : Nat} (short : n < 10 ^ maxDigits) :
      Says p parameters .integerLiteral Operator.equals.text [.int n]
  | stringLiteral : Says p parameters .stringLiteral Operator.equals.text
      [.text (String.ofList p.notes.text)]

section

variable {p : Predicate} {parameters values : List Value} {kind : PredicateKind} {spelling : String}

theorem says_of_content (h : p.content parameters kind = .ok (some (spelling, values))) :
    p.Says parameters kind spelling values := by
  cases kind with
  | equality | comparison | patternMatch =>
      obtain ⟨first, read, same⟩ := bind_eq_ok_iff.mp h
      cases first with
      | none => cases same
      | some v =>
          cases same
          constructor
          exact read
  | membership | negatedMembership =>
      obtain ⟨listed, read, same⟩ := bind_eq_ok_iff.mp h
      cases listed with
      | nil => cases same
      | cons =>
          cases same
          constructor
          exact mapError_eq_ok_iff.mp read
  | arrayEquality =>
      obtain ⟨first, read, same⟩ := bind_eq_ok_iff.mp h
      split at same
      case h_4 | h_5 =>
        cases same
        exact .items read (by simp)
      case h_6 =>
        cases same
        exact .anyOf read
      all_goals cases same
  | range =>
      obtain ⟨low, first, h⟩ := bind_eq_ok_iff.mp h
      obtain ⟨high, second, same⟩ := bind_eq_ok_iff.mp h
      split at same
      · cases same
        exact .range first second
      · cases same
  | nullCheck =>
      cases h
      exact .nullCheck
  | integerLiteral =>
      obtain ⟨n, read, same⟩ := bind_eq_ok_iff.mp h
      cases same
      exact .integerLiteral (lt_of_ofDigits (mapError_eq_ok_iff.mp read))
  | stringLiteral =>
      cases h
      exact .stringLiteral

/-- Whatever a predicate says, it says it of values that are drawn from the parameters. -/
theorem Predicate.Says.drawn (h : p.Says parameters kind spelling values) :
    ∀ v ∈ values, Drawn parameters v := by
  intro v member
  cases h with
  | membership read | negatedMembership read =>
      exact .parameter (mem_of_mem_parametersIn read v member)
  | items read holds => exact .item (mem_of_parameterAt read) holds member
  | range first second =>
      rcases List.mem_pair.mp member with rfl | rfl
      · exact .parameter (mem_of_parameterAt first)
      · exact .parameter (mem_of_parameterAt second)
  | nullCheck => cases member
  | integerLiteral short =>
      rw [List.mem_singleton.mp member]
      exact .integer short
  | stringLiteral =>
      rw [List.mem_singleton.mp member]
      exact .text _
  | equality read | anyOf read | comparison read | patternMatch read =>
      rw [List.mem_singleton.mp member]
      exact .parameter (mem_of_parameterAt read)

theorem of_ofSpelling {table : Option String} {column spelling : String} {c : Condition}
    (h : Condition.ofSpelling table column spelling values = .ok c) :
    Operator.ofText? spelling = some c.operator ∧ c.values = values ∧ c.table = table ∧
      c.column = column := by
  unfold Condition.ofSpelling at h
  split at h
  · next operator spelled =>
    unfold Condition.make at h
    split at h
    · cases h
      exact ⟨spelled, rfl, rfl, rfl⟩
    · cases h
  · cases h

theorem of_condition? {c : Condition} (h : p.condition? parameters kind = .ok (some c)) :
    p.columnName? = some ⟨c.table, c.column⟩ ∧ ∃ spelling,
      p.content parameters kind = .ok (some (spelling, c.values)) ∧
      Operator.ofText? spelling = some c.operator := by
  unfold Predicate.condition? at h
  split at h
  · cases h
  next name named =>
  obtain ⟨found, content, h⟩ := bind_eq_ok_iff.mp h
  split at h
  · cases h
  obtain ⟨made, ofSpelling, same⟩ := bind_eq_ok_iff.mp h
  cases same
  obtain ⟨spelled, rfl, table, column⟩ := of_ofSpelling (mapError_eq_ok_iff.mp ofSpelling)
  exact ⟨by rw [named, table, column], _, content, spelled⟩

/-- A condition states what its predicate says. -/
theorem says_of_condition? {c : Condition} (h : p.condition? parameters kind = .ok (some c)) :
    ∃ spelling, p.Says parameters kind spelling c.values ∧
      Operator.ofText? spelling = some c.operator := by
  obtain ⟨-, spelling, content, spelled⟩ := of_condition? h
  exact ⟨spelling, says_of_content content, spelled⟩

end

section

variable {statement : String} {parameters : List Value} {found : List Condition}

/-- Every condition of a statement is that of a predicate in it. -/
theorem condition?_of_mem_conditions (h : conditions statement parameters = .ok found) {c : Condition}
    (member : c ∈ found) :
    ∃ (f : Family) (matched : Match Predicate),
      matched ∈ f.predicatesIn (normalForm statement.toList) ∧
      matched.value.condition? parameters f.kind = .ok (some c) := by
  obtain ⟨families, read, same⟩ := bind_eq_ok_iff.mp h
  cases same
  obtain ⟨_, row, inRow⟩ := List.mem_flatten.mp member
  obtain ⟨f, -, inFamily⟩ := exists_left_of_forall₂ (mapM_eq_ok_iff.mp read) row
  obtain ⟨answers, read, same⟩ := bind_eq_ok_iff.mp inFamily
  cases same
  obtain ⟨_, inside, rfl⟩ := List.mem_filterMap.mp inRow
  obtain ⟨matched, place, stated⟩ := exists_left_of_forall₂ (mapM_eq_ok_iff.mp read) inside
  exact ⟨f, matched, place, stated⟩

/-- Every condition of a statement states what a predicate in it says. -/
theorem says_of_mem_conditions (h : conditions statement parameters = .ok found) {c : Condition}
    (member : c ∈ found) :
    ∃ (f : Family) (matched : Match Predicate) (spelling : String),
      matched ∈ f.predicatesIn (normalForm statement.toList) ∧
      matched.value.Says parameters f.kind spelling c.values ∧
      Operator.ofText? spelling = some c.operator := by
  obtain ⟨f, matched, place, stated⟩ := condition?_of_mem_conditions h member
  obtain ⟨spelling, said, spelled⟩ := says_of_condition? stated
  exact ⟨f, matched, spelling, place, said, spelled⟩

/-- The conditions of a statement hold values that are drawn from its parameters. -/
theorem drawn_of_conditions (h : conditions statement parameters = .ok found) :
    ∀ c ∈ found, ∀ v ∈ c.values, Drawn parameters v := by
  intro c member
  obtain ⟨_, _, _, -, said, -⟩ := says_of_mem_conditions h member
  exact said.drawn

end

end QueryHarvest.Sql
