import QueryHarvest.Proofs.Outcome
import QueryHarvest.Session.Fragment

/-! # When conditions are rendered

A condition is rendered unless it shows a value that cannot be written, and some conditions are unless one
that knows its table does. What they are rendered as is told without the errors.
-/

namespace QueryHarvest.Session

open Sql Value Number

section

variable {c : Condition} {conditions : List Condition}

theorem shownValues_subset (c : Condition) : shownValues c ⊆ c.values := by
  intro v member
  rw [shownValues] at member
  split at member
  · rcases List.mem_append.mp member with first | last
    · exact List.mem_of_head? (Option.mem_toList.mp first)
    · exact List.mem_of_getLast? (Option.mem_toList.mp last)
  · exact member

theorem renderCondition_eq (c : Condition) :
    renderCondition c =
      if areWritable (shownValues c) then
        .ok (conditionText c.column c.operator ((shownValues c).map literalText))
      else .error .tooManyDigits := by
  rw [renderCondition, mapM_literal]
  split <;> rfl

theorem renderCondition_eq_ok_iff {text : String} :
    renderCondition c = .ok text ↔ (∀ v ∈ shownValues c, v.isWritable) ∧
      conditionText c.column c.operator ((shownValues c).map literalText) = text := by
  rw [renderCondition_eq, ← areWritable_iff]
  split <;> simp [*]

theorem renderCondition_eq_error_iff {error : WritingError} :
    renderCondition c = .error error ↔ ∃ v ∈ shownValues c, ¬ v.isWritable := by
  rw [renderCondition_eq]
  cases writable : areWritable (shownValues c) with
  | true => simpa using areWritable_iff.mp writable
  | false =>
      have broken := areWritable_iff.not.mp (Bool.eq_false_iff.mp writable)
      cases error
      simpa using broken

/-- The fragment of a condition that knows its table, however long the integers in it are. -/
def written? (c : Condition) : Option Fragment :=
  (c.table.filter fun table => !table.isEmpty).map fun table =>
    ⟨table, conditionText c.column c.operator ((shownValues c).map literalText)⟩

theorem written?_eq_some_iff {f : Fragment} :
    written? c = some f ↔ c.table = some f.table ∧ f.table ≠ "" ∧
      conditionText c.column c.operator ((shownValues c).map literalText) = f.condition := by
  obtain ⟨table, condition⟩ := f
  simp only [written?, Option.map_eq_some_iff, Option.filter_eq_some_iff, Fragment.mk.injEq,
    Bool.not_eq_true', String.isEmpty_eq_false_iff]
  constructor
  · rintro ⟨_, ⟨named, filled⟩, rfl, rfl⟩
    exact ⟨named, filled, rfl⟩
  · rintro ⟨named, filled, rfl⟩
    exact ⟨table, ⟨named, filled⟩, rfl, rfl⟩

theorem written?_isSome_iff : (written? c).isSome ↔ ∃ table ∈ c.table, table ≠ "" := by
  cases named : c.table <;> simp [written?, named, Option.any]

/-- Does the condition know its table, but show a value that cannot be written? -/
def isRefused (c : Condition) : Bool :=
  (written? c).isSome && !areWritable (shownValues c)

theorem isRefused_eq_false_iff :
    isRefused c = false ↔ ((written? c).isSome → ∀ v ∈ shownValues c, v.isWritable) := by
  rw [isRefused, ← areWritable_iff]
  cases (written? c).isSome <;> simp

theorem fragment?_eq (c : Condition) :
    fragment? c = if isRefused c then .error .tooManyDigits else .ok (written? c) := by
  rw [fragment?, isRefused, written?, renderCondition_eq]
  cases c.table with
  | none => rfl
  | some table =>
      cases filled : table.isEmpty <;> cases areWritable (shownValues c) <;>
        simp [Option.filter, filled]

theorem render_eq (conditions : List Condition) :
    render conditions =
      if conditions.any isRefused then .error .tooManyDigits
      else .ok (conditions.filterMap written?) := by
  have rows : conditions.mapM fragment? =
      if conditions.any isRefused then .error .tooManyDigits else .ok (conditions.map written?) := by
    induction conditions with
    | nil => rfl
    | cons c rest ih =>
        rw [List.mapM_cons, ih, fragment?_eq, List.any_cons]
        cases isRefused c <;> cases rest.any isRefused <;> rfl
  rw [render, rows]
  split
  · rfl
  · simp

/-- Conditions are rendered just where each that knows its table can be, and then to the fragments of
these. -/
theorem render_eq_ok_iff {fragments : List Fragment} :
    render conditions = .ok fragments ↔
      (∀ c ∈ conditions, (written? c).isSome → ∀ v ∈ shownValues c, v.isWritable) ∧
        conditions.filterMap written? = fragments := by
  rw [render_eq]
  cases refused : conditions.any isRefused with
  | true =>
      obtain ⟨c, member, refused⟩ := List.any_eq_true.mp refused
      refine iff_of_false nofun fun ⟨writable, _⟩ => ?_
      rw [isRefused_eq_false_iff.mpr (writable c member)] at refused
      cases refused
  | false =>
      have writable : ∀ c ∈ conditions, (written? c).isSome → ∀ v ∈ shownValues c, v.isWritable :=
        fun c member => isRefused_eq_false_iff.mp (by simpa using List.any_eq_false.mp refused c member)
      simp [and_iff_right writable]

/-- Rendering fails just where a condition that knows its table shows a value that cannot be written. -/
theorem render_eq_error_iff {error : WritingError} :
    render conditions = .error error ↔
      ∃ c ∈ conditions, (written? c).isSome ∧ ∃ v ∈ shownValues c, ¬ v.isWritable := by
  cases error
  have same : render conditions = .error .tooManyDigits ↔
      ¬ ∃ fragments, render conditions = .ok fragments := by
    rw [render_eq]
    split <;> simp
  simp [same, render_eq_ok_iff]

end

end QueryHarvest.Session
