import QueryHarvest.Proofs.Session.Permutation

/-! # Which values a session keeps

Of the values on a key a session keeps one of each kind that merging tells apart. These kinds are those
of the sort keys, but for truth values inside arrays: there they pass for one and zero, and an array is
dropped for another one that stands elsewhere in the order.
-/

namespace QueryHarvest.Value

/-- A sort key in which the truth values inside rows are one and zero. -/
def SortKey.blurred : SortKey → SortKey
  | .row items => .row (essences items)
  | key => key

theorem SortKey.blurred_eq_iff {key other : SortKey} :
    key.blurred = other.blurred ↔ key.rank = other.rank ∧ key.essence = other.essence := by
  cases key <;> cases other <;> simp [blurred, rank, essence]
  case truth.truth b c => cases b <;> cases c <;> simp

theorem SortKey.IsTold.blurred_eq {key : SortKey} (h : key.IsTold) : key.blurred = key := by
  rcases h with same | ⟨b, rfl⟩
  · cases key <;> first | rfl | exact same
  · rfl

/-- Two values are collected as one just when their sort keys differ at most in truth values inside
arrays. -/
theorem merges_iff_blurred {v w : Value} (hv : v.isOrderable) (hw : w.isOrderable) :
    v.merges w ↔ v.sortKey.blurred = w.sortKey.blurred := by
  rw [merges_iff hv hw, SortKey.blurred_eq_iff, rank_sortKey hv, rank_sortKey hw]

/-- The value that is kept for one of some added values: the first that it merges with. -/
def keptFor (added : List Value) (v : Value) : Option Value :=
  added.find? v.merges

/-- Of some added values, one of each key is kept, and stands for all that have its key. -/
structure KeepsOnePer (key : Value → SortKey) (kept added : List Value) : Prop where
  drawn : kept ⊆ added
  apart : (kept.map key).Nodup
  represented : ∀ v ∈ added, ∃ u ∈ kept, keptFor added v = some u ∧ key u = key v
  one_iff : ∀ v ∈ added, ∀ w ∈ added, keptFor added v = keptFor added w ↔ key v = key w

section

variable {added : List Value} (h : ∀ v ∈ added, v.isOrderable)
include h

theorem exists_keptFor {v : Value} (hv : v ∈ added) :
    ∃ u, keptFor added v = some u ∧ u ∈ added ∧ v.merges u := by
  have found : (keptFor added v).isSome :=
    List.find?_isSome.mpr ⟨v, hv, merges_self (h v hv)⟩
  obtain ⟨u, kept⟩ := Option.isSome_iff_exists.mp found
  exact ⟨u, kept, List.mem_of_find?_eq_some kept, List.find?_some kept⟩

/-- What is kept for a value is among the first of each. -/
theorem mem_firstOfEach_of_keptFor {v u : Value} (hv : v ∈ added) (kept : keptFor added v = some u) :
    u ∈ firstOfEach [] added := by
  obtain ⟨merged, before, after, rfl, unmet⟩ := List.find?_eq_some_iff_append.mp kept
  have alone : before.any u.merges = false := by
    refine List.any_eq_false.mpr fun w hw met => ?_
    have hu := h u (by simp)
    have reached := merges_trans (h v hv) hu (h w (by simp [hw])) merged met
    simpa [reached] using unmet w hw
  rw [firstOfEach_append]
  refine List.mem_append_right _ ?_
  simp [firstOfEach, alone]

/-- Values have the same kept for them just when they merge. -/
theorem keptFor_eq_iff {v w : Value} (hv : v ∈ added) (hw : w ∈ added) :
    keptFor added v = keptFor added w ↔ v.merges w := by
  constructor
  · intro same
    obtain ⟨u, kept, hu, vMerged⟩ := exists_keptFor h hv
    obtain ⟨_, otherKept, _, wMerged⟩ := exists_keptFor h hw
    obtain rfl : u = _ := Option.some.inj (kept.symm.trans (same.trans otherKept))
    exact merges_trans (h v hv) (h u hu) (h w hw) vMerged (merges_symm (h w hw) (h u hu) wMerged)
  · intro merged
    refine List.find?_congr fun u hu => ?_
    rw [Bool.eq_iff_iff]
    exact ⟨merges_trans (h w hw) (h v hv) (h u hu) (merges_symm (h v hv) (h w hw) merged),
      merges_trans (h v hv) (h w hw) (h u hu) merged⟩

theorem keepsOnePer_firstOfEach :
    KeepsOnePer (·.sortKey.blurred) (firstOfEach [] added) added where
  drawn := (firstOfEach_sublist [] added).subset
  apart := by
    have inside := (firstOfEach_sublist [] added).subset
    refine List.pairwise_map.mpr ((firstOfEach_pairwise [] added).imp_of_mem ?_)
    intro a b ha hb apart same
    exact apart ((merges_iff_blurred (h b (inside hb)) (h a (inside ha))).mpr same.symm)
  represented := by
    intro v hv
    obtain ⟨u, kept, hu, merged⟩ := exists_keptFor h hv
    exact ⟨u, mem_firstOfEach_of_keptFor h hv kept, kept,
      ((merges_iff_blurred (h v hv) (h u hu)).mp merged).symm⟩
  one_iff := by
    intro v hv w hw
    rw [keptFor_eq_iff h hv hw, merges_iff_blurred (h v hv) (h w hw)]

end

theorem KeepsOnePer.of_perm {key : Value → SortKey} {kept row added : List Value}
    (h : KeepsOnePer key kept added) (same : row.Perm kept) : KeepsOnePer key row added where
  drawn := List.Subset.trans same.subset h.drawn
  apart := (same.map key).nodup_iff.mpr h.apart
  represented := by simpa only [same.mem_iff] using h.represented
  one_iff := h.one_iff

/-- Only the keys of the added values matter. -/
theorem KeepsOnePer.congr {key other : Value → SortKey} {kept added : List Value}
    (h : KeepsOnePer key kept added) (same : ∀ v ∈ added, key v = other v) :
    KeepsOnePer other kept added where
  drawn := h.drawn
  apart := by
    rw [← List.map_congr_left fun v hv => same v (h.drawn hv)]
    exact h.apart
  represented := by
    intro v hv
    obtain ⟨u, hu, kept, equal⟩ := h.represented v hv
    exact ⟨u, hu, kept, by rw [← same u (h.drawn hu), ← same v hv, equal]⟩
  one_iff := by
    intro v hv w hw
    rw [h.one_iff v hv w hw, same v hv, same w hw]

end QueryHarvest.Value

namespace QueryHarvest.Session

open Sql Value

theorem exists_summary {statements : List Statement} (orderable : OrderableValues statements) :
    ∃ s a, addAll {} statements = .ok s ∧ s.result = .ok a ∧ a.Summarizes statements := by
  obtain ⟨s, run, collected⟩ := addAll_collects collects_nil (by simp [OrderableValues]) orderable
  obtain ⟨a, result, summary⟩ := result_summarizes collected orderable
  exact ⟨s, a, run, result, summary⟩

/-- What a session keeps of all the values on a key is one of each, as merging tells them apart, and
as their sort keys do where no truth value is inside an array. A null check keeps none. -/
theorem kept_values_distinct (statements : List Statement) (orderable : OrderableValues statements) :
    ∃ s a, addAll {} statements = .ok s ∧ s.result = .ok a ∧ ∀ c ∈ a.conditions,
      if c.operator.isNullCheck then c.values = [] else
        let added := valuesOn (history statements) c.key
        KeepsOnePer (·.sortKey.blurred) c.values added ∧
          ((∀ v ∈ added, v.sortKey.IsTold) → KeepsOnePer sortKey c.values added) := by
  obtain ⟨s, a, run, result, summary⟩ := exists_summary orderable
  refine ⟨s, a, run, result, fun c hc => ?_⟩
  split
  · next nullCheck => exact summary.null_values c hc nullCheck
  · next valued =>
      have fixed : ∀ v ∈ valuesOn (history statements) c.key, v.isOrderable :=
        isOrderable_of_mem_valuesOn (orderable_history orderable)
      have kept := (keepsOnePer_firstOfEach fixed).of_perm (summary.values_perm c hc valued)
      exact ⟨kept, fun told => kept.congr fun v hv => (told v hv).blurred_eq⟩

/-- Two keys in two statements, with numbers and truth values alone and inside arrays. -/
def mixedTruths : List Statement :=
  [⟨["orders"], [⟨none, "paid", .isIn, [.int 1, .bool true, .null], rfl⟩,
      ⟨none, "flags", .isIn, [.list [.int 1, .list [.bool false]]], rfl⟩]⟩,
    ⟨["users"], [⟨some "orders", "paid", .isIn, [.float (.finite false 1 0), .list []], rfl⟩,
      ⟨some "orders", "flags", .isIn, [.list [.bool true, .list [.int 0]], .bool true], rfl⟩]⟩]

theorem mixedTruths_kept :
    OrderableValues mixedTruths ∧
      ∃ s a, addAll {} mixedTruths = .ok s ∧ s.result = .ok a ∧ ∀ c ∈ a.conditions,
        if c.operator.isNullCheck then c.values = [] else
          let added := valuesOn (history mixedTruths) c.key
          KeepsOnePer (·.sortKey.blurred) c.values added ∧
            ((∀ v ∈ added, v.sortKey.IsTold) → KeepsOnePer sortKey c.values added) := by
  have orderable : OrderableValues mixedTruths := by
    unfold OrderableValues
    decide +kernel
  exact ⟨orderable, kept_values_distinct mixedTruths orderable⟩

/-- One key with an array of one, and then with an array of truth. -/
def boxedTruths : List Statement :=
  [⟨["t"], [⟨none, "a", .equals, [.list [.int 1]], rfl⟩,
    ⟨none, "a", .equals, [.list [.bool true]], rfl⟩]⟩]

/-- The array of truth is dropped for the array of one, though their sort keys differ. -/
theorem boxedTruth_dropped :
    ∃ s a, addAll {} boxedTruths = .ok s ∧ s.result = .ok a ∧ ∃ c ∈ a.conditions,
      valuesOn (history boxedTruths) c.key = [.tuple [.int 1], .tuple [.bool true]] ∧
        c.values = [.tuple [.int 1]] ∧
          ¬ KeepsOnePer sortKey c.values (valuesOn (history boxedTruths) c.key) := by
  have orderable : OrderableValues boxedTruths := by
    unfold OrderableValues
    decide
  obtain ⟨s, a, run, result, summary⟩ := exists_summary orderable
  have keys : a.conditions.map Condition.key = [(some "t", "a")] := summary.keys
  obtain ⟨c, conditions, key⟩ := List.map_eq_singleton_iff.mp keys
  have hc : c ∈ a.conditions := conditions ▸ List.mem_singleton_self c
  have added : valuesOn (history boxedTruths) c.key = [.tuple [.int 1], .tuple [.bool true]] := by
    rw [key]
    rfl
  have valued : ¬ c.operator.isNullCheck := by
    have first := summary.operators c hc
    rw [key] at first
    rw [← Option.some.inj first]
    decide
  have values : c.values = [.tuple [.int 1]] := by
    have same := summary.values_perm c hc valued
    rw [added] at same
    exact List.perm_singleton.mp same
  refine ⟨s, a, run, result, c, hc, added, values, fun kept => ?_⟩
  obtain ⟨u, hu, _, same⟩ := kept.represented (.tuple [.bool true]) (by simp [added])
  rw [values, List.mem_singleton] at hu
  subst hu
  simp [sortKey, sortKeys, number?] at same

end QueryHarvest.Session
