import QueryHarvest.Number.Integer
import QueryHarvest.Proofs.Value.SortKey

/-! # Merging and sorting values

Fixed values are collected each once and then sorted. Among orderable values merging is an equivalence,
equal sort keys merge, and so what was collected stands in strictly ascending order.
-/

namespace QueryHarvest.Value

@[simp] theorem allOrderable_iff {items : List Value} :
    allOrderable items ↔ ∀ v ∈ items, v.isOrderable := by
  induction items with
  | nil => simp [allOrderable]
  | cons item rest ih => simp [allOrderable, ih]

@[simp] theorem sortKeys_eq_map (items : List Value) : sortKeys items = items.map sortKey := by
  induction items with
  | nil => rfl
  | cons item rest ih => simp only [sortKeys, ih, List.map_cons]

theorem rank_sortKey {a : Value} (h : a.isOrderable) : a.sortKey.rank = a.rank := by
  cases a <;> try first | contradiction | rfl
  case float x => cases x <;> first | contradiction | rfl

theorem merges_iff {a b : Value} (ha : a.isOrderable) (hb : b.isOrderable) :
    a.merges b ↔ a.rank = b.rank ∧ a.sortKey.essence = b.sortKey.essence := by
  simp only [merges, Bool.and_eq_true, beq_iff_eq, same_iff ha hb]

theorem merges_self {a : Value} (h : a.isOrderable) : a.merges a :=
  (merges_iff h h).mpr ⟨rfl, rfl⟩

theorem merges_symm {a b : Value} (ha : a.isOrderable) (hb : b.isOrderable) (h : a.merges b) :
    b.merges a := by
  rw [merges_iff ha hb] at h
  exact (merges_iff hb ha).mpr ⟨h.1.symm, h.2.symm⟩

theorem merges_trans {a b c : Value} (ha : a.isOrderable) (hb : b.isOrderable) (hc : c.isOrderable)
    (hab : a.merges b) (hbc : b.merges c) : a.merges c := by
  rw [merges_iff ha hb] at hab
  rw [merges_iff hb hc] at hbc
  exact (merges_iff ha hc).mpr ⟨hab.1.trans hbc.1, hab.2.trans hbc.2⟩

theorem merges_of_sortKey_eq {a b : Value} (ha : a.isOrderable) (hb : b.isOrderable)
    (h : a.sortKey = b.sortKey) : a.merges b := by
  refine (merges_iff ha hb).mpr ⟨?_, congrArg SortKey.essence h⟩
  rw [← rank_sortKey ha, ← rank_sortKey hb, h]

theorem before_iff {a b : Value} (ha : a.isOrderable) (hb : b.isOrderable) :
    a.before b ↔ a.sortKey.compare b.sortKey = .lt := by
  simp [before, compare?_eq ha hb]

theorem not_before_eq_atMost {a b : Value} (ha : a.isOrderable) (hb : b.isOrderable) :
    (!b.before a) = a.sortKey.atMost b.sortKey := by
  simp only [before, compare?_eq hb ha, SortKey.atMost]
  rw [SortKey.compare_swap a.sortKey]
  cases b.sortKey.compare a.sortKey <;> rfl

mutual
theorem holdsNan_eq_false {a : Value} (h : a.isOrderable) : a.holdsNan = false := by
  cases a <;> try first | contradiction | rfl
  case float x => cases x <;> first | contradiction | rfl
  case tuple items => exact anyHoldsNan_eq_false h
termination_by sizeOf a

theorem anyHoldsNan_eq_false {items : List Value} (h : allOrderable items) :
    anyHoldsNan items = false := by
  cases items with
  | nil => rfl
  | cons item rest =>
      simp only [allOrderable, Bool.and_eq_true] at h
      simp only [anyHoldsNan, holdsNan_eq_false h.1, anyHoldsNan_eq_false h.2, Bool.or_false]
termination_by sizeOf items
end

theorem sort_eq_mergeSort {values : List Value} (h : ∀ v ∈ values, v.isOrderable) :
    sort values = values.mergeSort fun a b => !b.before a := by
  simp only [sort, anyHoldsNan_eq_false (allOrderable_iff.mpr h), Bool.false_eq_true, if_false]

@[simp] theorem sort_nil : sort [] = [] := by
  simp [sort, anyHoldsNan]

@[simp] theorem leadingRun_append (next : Value → Value → Bool) (a : Value) (rest : List Value) :
    (leadingRun next a rest).1 ++ (leadingRun next a rest).2 = a :: rest := by
  induction rest generalizing a with
  | nil => rfl
  | cons b rest ih =>
      rw [leadingRun]
      split
      · exact congrArg (a :: ·) (ih b)
      · rfl

theorem insertByHalving_perm (row : List Value) (value : Value) :
    (insertByHalving row value).Perm (value :: row) := by
  refine List.perm_middle.trans ?_
  rw [List.take_append_drop]

theorem foldl_insertByHalving_perm (row others : List Value) :
    (others.foldl insertByHalving row).Perm (row ++ others) := by
  induction others generalizing row with
  | nil => rw [List.append_nil, List.foldl_nil]
  | cons v others ih =>
      have inserted := (insertByHalving_perm row v).append_right others
      exact (ih _).trans (inserted.trans List.perm_middle.symm)

theorem sortByHalving_perm (values : List Value) : (sortByHalving values).Perm values := by
  match values with
  | [] | [_] => rfl
  | a :: b :: rest =>
      have inserted {row run others : List Value} (same : row.Perm run)
          (cut : run ++ others = a :: b :: rest) :
          (others.foldl insertByHalving row).Perm (a :: b :: rest) :=
        (foldl_insertByHalving_perm row others).trans ((same.append_right others).trans (.of_eq cut))
      rw [sortByHalving]
      split
      · have cut := leadingRun_append (fun x y => y.before x) a (b :: rest)
        exact inserted (List.reverse_perm _) cut
      · have cut := leadingRun_append (fun x y => !y.before x) a (b :: rest)
        exact inserted (.refl _) cut

/-- Sorting keeps every value, also where the order of the values is partial. -/
theorem sort_perm (values : List Value) : (sort values).Perm values := by
  rw [sort]
  split
  · exact sortByHalving_perm values
  · exact values.mergeSort_perm _

/-- Sorting values sorts their keys. -/
theorem map_sortKey_sort {values : List Value} (h : ∀ v ∈ values, v.isOrderable) :
    (sort values).map sortKey = (values.map sortKey).mergeSort SortKey.atMost := by
  rw [sort_eq_mergeSort h]
  exact List.map_mergeSort fun a ha b hb => not_before_eq_atMost (h a ha) (h b hb)

theorem sort_pairwise {values : List Value} (h : ∀ v ∈ values, v.isOrderable)
    (distinct : (values.map sortKey).Nodup) : (sort values).Pairwise (before · ·) := by
  have keysDistinct : ((sort values).map sortKey).Nodup :=
    ((sort_perm values).map sortKey).nodup_iff.mpr distinct
  have keysSorted : ((sort values).map sortKey).Pairwise (SortKey.atMost · ·) := by
    rw [map_sortKey_sort h]
    exact SortKey.pairwise_mergeSort _
  have both := (List.pairwise_map.mp keysSorted).and (List.pairwise_map.mp keysDistinct)
  refine both.imp_of_mem ?_
  intro a b ha hb ⟨atMost, differ⟩
  have member {v : Value} := (sort_perm values).mem_iff (a := v)
  rw [before_iff (h a (member.mp ha)) (h b (member.mp hb))]
  simp only [SortKey.atMost] at atMost
  cases place : a.sortKey.compare b.sortKey with
  | lt => rfl
  | eq => exact absurd (SortKey.eq_of_compare place) differ
  | gt => simp [place] at atMost

theorem sortKey_pairwise {row : List Value} (h : ∀ v ∈ row, v.isOrderable)
    (sorted : row.Pairwise (before · ·)) : (row.map sortKey).Pairwise (SortKey.atMost · ·) := by
  refine List.pairwise_map.mpr (sorted.imp_of_mem ?_)
  intro a b ha hb below
  rw [before_iff (h a ha) (h b hb)] at below
  simp [SortKey.atMost, below]

/-- Values without those that an earlier one merges with; some come before all of them. -/
def firstOfEach (earlier : List Value) : List Value → List Value
  | [] => []
  | v :: rest =>
    if earlier.any v.merges then firstOfEach (earlier ++ [v]) rest
    else v :: firstOfEach (earlier ++ [v]) rest

theorem firstOfEach_append (earlier values more : List Value) :
    firstOfEach earlier (values ++ more) =
      firstOfEach earlier values ++ firstOfEach (earlier ++ values) more := by
  induction values generalizing earlier with
  | nil => simp [firstOfEach]
  | cons v rest ih =>
      simp only [List.cons_append, firstOfEach, ih]
      split <;> simp

theorem firstOfEach_sublist (earlier values : List Value) :
    (firstOfEach earlier values).Sublist values := by
  induction values generalizing earlier with
  | nil => exact .slnil
  | cons v rest ih =>
      simp only [firstOfEach]
      split
      · exact (ih _).cons v
      · exact (ih _).cons_cons v

theorem firstOfEach_ne_nil {values : List Value} (h : values ≠ []) : firstOfEach [] values ≠ [] := by
  cases values with
  | nil => contradiction
  | cons v rest => simp [firstOfEach]

theorem not_any_of_mem_firstOfEach {earlier values : List Value} {v : Value}
    (h : v ∈ firstOfEach earlier values) : earlier.any v.merges = false := by
  induction values generalizing earlier with
  | nil => simp [firstOfEach] at h
  | cons u rest ih =>
      have later (member : v ∈ firstOfEach (earlier ++ [u]) rest) : earlier.any v.merges = false := by
        have absent := ih member
        rw [List.any_append, Bool.or_eq_false_iff] at absent
        exact absent.1
      simp only [firstOfEach] at h
      split at h
      · exact later h
      · next absent =>
          rcases List.mem_cons.mp h with rfl | member
          · simpa using absent
          · exact later member

/-- No value among the first of each merges with one before it. -/
theorem firstOfEach_pairwise (earlier values : List Value) :
    (firstOfEach earlier values).Pairwise fun a b => ¬ b.merges a := by
  induction values generalizing earlier with
  | nil => exact .nil
  | cons v rest ih =>
      simp only [firstOfEach]
      split
      · exact ih _
      · refine List.pairwise_cons.mpr ⟨?_, ih _⟩
        intro u member merged
        have absent := not_any_of_mem_firstOfEach member
        simp [merged] at absent

theorem nodup_sortKey_firstOfEach {earlier values : List Value} (h : ∀ v ∈ values, v.isOrderable) :
    ((firstOfEach earlier values).map sortKey).Nodup := by
  refine List.pairwise_map.mpr ((firstOfEach_pairwise earlier values).imp_of_mem ?_)
  intro a b ha hb apart same
  have inside := (firstOfEach_sublist earlier values).subset
  exact apart (merges_of_sortKey_eq (h b (inside hb)) (h a (inside ha)) same.symm)

/-- Whether a value merges with one of some is told by the first of each. -/
theorem any_merges_firstOfEach {values : List Value} (h : ∀ v ∈ values, v.isOrderable) {u : Value}
    (hu : u.isOrderable) : (firstOfEach [] values).any u.merges = values.any u.merges := by
  induction values using List.reverseRecOn with
  | nil => rfl
  | append_singleton values v ih =>
      have inside : ∀ w ∈ values, w.isOrderable := fun w hw => h w (List.mem_append_left _ hw)
      have hv : v.isOrderable := h v (by simp)
      rw [firstOfEach_append, List.any_append, List.any_append, ih inside]
      simp only [List.nil_append, firstOfEach]
      split
      · next merged =>
          -- the dropped value merges with an earlier one, which speaks for it
          obtain ⟨w, hw, hvw⟩ := List.any_eq_true.mp merged
          have spoken (huv : u.merges v) : values.any u.merges :=
            List.any_eq_true.mpr ⟨w, hw, merges_trans hu hv (inside w hw) huv hvw⟩
          cases huv : u.merges v <;> simp_all
      · rfl

mutual

/-- Null, a truth value, a number other than a not-a-number, a text, or an array or an object of such
values. Integers have no more digits than are read. -/
def isPlain : Value → Bool
  | .null => true
  | .bool _ => true
  | .int n => n.natAbs < 10 ^ Number.maxDigits
  | .float (.nan _) => false
  | .float _ => true
  | .text _ => true
  | .list items => allPlain items
  | .tuple items => allPlain items
  | .object fields => allFieldsPlain fields
  | _ => false

/-- `isPlain` on every item. -/
def allPlain : List Value → Bool
  | [] => true
  | item :: rest => item.isPlain && allPlain rest

/-- `isPlain` on the value of every field. -/
def allFieldsPlain : List (String × Value) → Bool
  | [] => true
  | (_, item) :: rest => item.isPlain && allFieldsPlain rest

end

mutual
theorem isOrderable_freeze {v : Value} (h : v.isPlain) : v.freeze.isOrderable := by
  cases v <;> try first | rfl | contradiction
  case float x => cases x <;> first | contradiction | rfl
  case list items => exact allOrderable_freezeAll h
  case tuple items => exact allOrderable_freezeAll h
termination_by sizeOf v

theorem allOrderable_freezeAll {items : List Value} (h : allPlain items) :
    allOrderable (freezeAll items) := by
  cases items with
  | nil => rfl
  | cons item rest =>
      simp only [allPlain, Bool.and_eq_true] at h
      simp only [freezeAll, allOrderable, isOrderable_freeze h.1, allOrderable_freezeAll h.2,
        Bool.and_self]
termination_by sizeOf items
end

mutual
theorem keyError?_eq_none {v : Value} (h : v.isOrderable) : v.keyError? = none := by
  cases v <;> try first | contradiction | rfl
  case tuple items => exact keyErrorIn?_eq_none h
termination_by sizeOf v

theorem keyErrorIn?_eq_none {items : List Value} (h : allOrderable items) :
    keyErrorIn? items = none := by
  cases items with
  | nil => rfl
  | cons item rest =>
      simp only [allOrderable, Bool.and_eq_true] at h
      simp only [keyErrorIn?, keyError?_eq_none h.1, keyErrorIn?_eq_none h.2]
      rfl
termination_by sizeOf items
end

end QueryHarvest.Value
