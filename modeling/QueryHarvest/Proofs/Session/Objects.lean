import QueryHarvest.Proofs.Distinct
import QueryHarvest.Proofs.Json.Canonical
import QueryHarvest.Session.Aggregate

/-! # Objects that are collected

An object is collected as its canonical JSON text. So a session keeps one value for all the orders in
which the keys of an object have come, and one for each of two objects that differ.
-/

namespace QueryHarvest.Session

open Value

/-- Texts merge when they are equal. -/
@[simp] theorem merges_text (s t : String) : merges (.text s) (.text t) = (s == t) := by
  simp [merges, rank, same, sameScalar]

@[simp] theorem addValue_text (texts : List String) (t : String) :
    addValue (texts.eraseDups.map .text) (.text t) = (texts ++ [t]).eraseDups.map .text := by
  have known : (texts.eraseDups.map Value.text).any (merges (.text t)) = decide (t ∈ texts) := by
    rw [List.any_map, Bool.eq_iff_iff]
    simp
  rw [addValue, known, eraseDups_concat]
  by_cases member : t ∈ texts <;> simp [member]

/-- Objects are collected as their canonical texts, each of them once. -/
theorem addValues_objects (texts : List String) (rows : List (List (String × Value))) :
    addValues (texts.eraseDups.map .text) (rows.map .object) =
      ((texts ++ rows.map fun fields => Json.canonical (.object fields)).eraseDups.map .text, none) := by
  induction rows generalizing texts with
  | nil => simp [addValues]
  | cons fields rows ih =>
      rw [List.map_cons, addValues, freeze]
      simp only [keyError?]
      rw [addValue_text, ih, List.append_assoc, List.map_cons, List.singleton_append]

/-- Objects are fixed to the same text exactly when they are the same JSON value. So two of them merge
just then, and of any row of objects a session keeps each text once. -/
theorem objects_kept_apart :
    (∀ fields others : List (String × Value),
      isDocument (.object fields) → isDocument (.object others) →
        ∃ s t : String, freeze (.object fields) = .text s ∧ freeze (.object others) = .text t ∧
          (s = t ↔ sameDocument (.object fields) (.object others)) ∧
          (merges (freeze (.object fields)) (freeze (.object others)) ↔
            sameDocument (.object fields) (.object others))) ∧
    ∀ rows : List (List (String × Value)), ∃ texts : List String,
      addValues [] (rows.map .object) = (texts.map .text, none) ∧ texts.Nodup ∧
        ∀ t, t ∈ texts ↔ ∃ fields ∈ rows, freeze (.object fields) = .text t := by
  refine ⟨fun fields others hf hg => ?_, fun rows => ?_⟩
  · have told := Json.canonical_eq_iff hf hg
    refine ⟨_, _, rfl, rfl, told, ?_⟩
    rw [freeze, freeze, merges_text, beq_iff_eq, told]
  · refine ⟨_, addValues_objects [] rows, nodup_eraseDups _, fun t => ?_⟩
    simp [freeze]

/-- The order of keys does not count at any depth, and a truth value is no number. -/
theorem nested_objects_kept_apart :
    let first : List (String × Value) := [("a", .object [("x", .int 1), ("y", .null)]), ("b", .list [])]
    let second : List (String × Value) := [("b", .list []), ("a", .object [("y", .null), ("x", .int 1)])]
    let third : List (String × Value) := [("b", .list []), ("a", .object [("y", .null), ("x", .bool true)])]
    merges (freeze (.object first)) (freeze (.object second)) ∧
      ¬ merges (freeze (.object first)) (freeze (.object third)) := by
  intro first second third
  obtain ⟨-, -, -, -, -, merged⟩ := objects_kept_apart.1 first second (by decide) (by decide)
  obtain ⟨-, -, -, -, -, apart⟩ := objects_kept_apart.1 first third (by decide) (by decide)
  exact ⟨merged.mpr (by decide), apart.not.mpr (by decide)⟩

end QueryHarvest.Session
