import Mathlib

/-! # Rows without repetition

Dropping every later occurrence of an item leaves each item once, in the order of first occurrence. What
comes later in the row never moves an item that is already there.
-/

namespace QueryHarvest

variable {α : Type} [BEq α] [LawfulBEq α]

@[simp] theorem eraseDups_concat (xs : List α) (x : α) :
    (xs ++ [x]).eraseDups = if x ∈ xs then xs.eraseDups else xs.eraseDups ++ [x] := by
  rw [List.eraseDups_append]
  split
  · next known => simp [List.removeAll, known]
  · next unknown => simp [List.removeAll, unknown, List.eraseDups_cons]

theorem nodup_eraseDups (xs : List α) : xs.eraseDups.Nodup := by
  induction xs using List.reverseRecOn with
  | nil => exact .nil
  | append_singleton xs x ih =>
      rw [eraseDups_concat]
      split
      · exact ih
      · next unknown =>
          refine List.nodup_append.mpr ⟨ih, by simp, ?_⟩
          rintro y hy z hz rfl
          exact unknown (List.mem_singleton.mp hz ▸ List.mem_eraseDups.mp hy)

/-- Items that are there already do not add to the distinct ones. -/
theorem eraseDups_append_of_subset {xs ys : List α} (known : ys ⊆ xs) :
    (xs ++ ys).eraseDups = xs.eraseDups := by
  have nothing : ys.removeAll xs = [] := by
    simpa [List.removeAll] using fun y member => known member
  rw [List.eraseDups_append, nothing, List.eraseDups_nil, List.append_nil]

/-- An item keeps its place among the distinct ones, whatever follows. -/
theorem idxOf_eraseDups_append {xs : List α} {x : α} (member : x ∈ xs) (later : List α) :
    (xs ++ later).eraseDups.idxOf x = xs.eraseDups.idxOf x := by
  have grown : xs.eraseDups <+: (xs ++ later).eraseDups := by
    rw [List.eraseDups_append]
    exact List.prefix_append ..
  exact (grown.idxOf_eq_of_mem (List.mem_eraseDups.mpr member)).symm

/-- The distinct items stand in the order in which they first come. -/
theorem pairwise_idxOf_eraseDups (xs : List α) :
    xs.eraseDups.Pairwise fun a b => xs.idxOf a < xs.idxOf b := by
  induction xs using List.reverseRecOn with
  | nil => exact .nil
  | append_singleton xs x ih =>
      have kept {a : α} (member : a ∈ xs.eraseDups) : (xs ++ [x]).idxOf a = xs.idxOf a :=
        List.idxOf_append_of_mem (List.mem_eraseDups.mp member)
      have before : xs.eraseDups.Pairwise fun a b => (xs ++ [x]).idxOf a < (xs ++ [x]).idxOf b :=
        ih.imp_of_mem fun ha hb earlier => by rwa [kept ha, kept hb]
      rw [eraseDups_concat]
      split
      · exact before
      · next unknown =>
          refine List.pairwise_append.mpr ⟨before, List.pairwise_singleton .., ?_⟩
          intro a ha b hb
          cases List.mem_singleton.mp hb
          rw [kept ha, List.idxOf_append_of_notMem unknown]
          exact Nat.lt_add_right _ (List.idxOf_lt_length_iff.mpr (List.mem_eraseDups.mp ha))

/-- The places of the items of a row among the distinct ones are all the places there are. -/
theorem exists_idxOf_eraseDups_iff {xs : List α} {n : Nat} :
    (∃ x ∈ xs, xs.eraseDups.idxOf x = n) ↔ n < xs.eraseDups.length := by
  constructor
  · rintro ⟨x, member, rfl⟩
    exact List.idxOf_lt_length_iff.mpr (List.mem_eraseDups.mpr member)
  · intro inside
    refine ⟨xs.eraseDups[n], List.mem_eraseDups.mp (List.getElem_mem inside), ?_⟩
    exact (nodup_eraseDups xs).idxOf_getElem n inside

end QueryHarvest
