import Mathlib
import QueryHarvest.Value.Order

/-! # Sort keys

The place of a value among others depends on its kind and on what decides within the kind. Such keys
are in a linear order, and apart from not-a-numbers, comparing values is comparing their keys.
-/

namespace QueryHarvest.Value

open Number

namespace Extended

theorem compare_swap (x y : Extended) : x.compare y = (y.compare x).swap := by
  cases x <;> cases y <;> try rfl
  case number p q =>
    simp only [Extended.compare]
    rcases lt_trichotomy p q with h | rfl | h
    · simp [h, h.not_gt, h.ne']
    · simp
    · simp [h, h.not_gt, h.ne']

@[simp] theorem compare_self (x : Extended) : x.compare x = .eq := by
  cases x <;> simp [Extended.compare]

theorem eq_of_compare {x y : Extended} (h : x.compare y = .eq) : x = y := by
  cases x <;> cases y <;> simp only [Extended.compare, reduceCtorEq] at h ⊢
  case number p q =>
    split at h
    · contradiction
    · split at h
      · next same => rw [same]
      · contradiction

theorem compare_number_isLE {p q : Rat} :
    (Extended.compare (.number p) (.number q)).isLE ↔ p ≤ q := by
  simp only [Extended.compare]
  rcases lt_trichotomy p q with h | rfl | h
  · simp [h, h.le]
  · simp
  · simp [h.not_gt, h.ne', h.not_ge]

theorem compare_isLE_trans {x y z : Extended} (hxy : (x.compare y).isLE) (hyz : (y.compare z).isLE) :
    (x.compare z).isLE := by
  cases x <;> cases y <;> cases z <;> try first | rfl | contradiction
  case number p q r =>
    rw [compare_number_isLE] at *
    exact hxy.trans hyz

end Extended

/-- What the place of a value depends on: its kind, and what decides within the kind. -/
inductive SortKey where
  | null
  | truth (b : Bool)
  | number (x : Extended)
  | text (s : String)
  | row (items : List SortKey)

namespace SortKey

/-- The rank of a kind. -/
def rank : SortKey → Nat
  | .null => 0
  | .truth _ => 1
  | .number _ => 2
  | .text _ => 3
  | .row _ => 4

mutual

/-- The place of one key before another: by kind, then within the kind. -/
def compare : SortKey → SortKey → Ordering
  | .truth a, .truth b => Ord.compare a b
  | .number x, .number y => x.compare y
  | .text s, .text t => Ord.compare s t
  | .row as, .row bs => compareAll as bs
  | a, b => Ord.compare a.rank b.rank

/-- The place of two rows: the first two items that differ decide, then the length. -/
def compareAll : List SortKey → List SortKey → Ordering
  | [], [] => .eq
  | [], _ :: _ => .lt
  | _ :: _, [] => .gt
  | a :: as, b :: bs => (a.compare b).then (compareAll as bs)

end

mutual
theorem compare_swap (a b : SortKey) : a.compare b = (b.compare a).swap := by
  cases a <;> cases b <;> try rfl
  case truth.truth a b => cases a <;> cases b <;> rfl
  case number.number x y => exact Extended.compare_swap x y
  case text.text s t => exact Std.OrientedOrd.eq_swap
  case row.row as bs => exact compareAll_swap as bs
termination_by sizeOf a

theorem compareAll_swap (as bs : List SortKey) :
    compareAll as bs = (compareAll bs as).swap := by
  cases as <;> cases bs <;> try rfl
  case cons.cons a as b bs =>
    simp only [compareAll, Ordering.swap_then]
    rw [compare_swap a b, compareAll_swap as bs]
termination_by sizeOf as
end

mutual
theorem eq_of_compare {a b : SortKey} (h : a.compare b = .eq) : a = b := by
  cases a <;> cases b <;> try first | rfl | contradiction
  case truth.truth a b => cases a <;> cases b <;> first | rfl | contradiction
  case number.number x y => exact congrArg SortKey.number (Extended.eq_of_compare h)
  case text.text s t => exact congrArg SortKey.text (Std.LawfulEqOrd.eq_of_compare h)
  case row.row as bs => exact congrArg SortKey.row (eq_of_compareAll h)
termination_by sizeOf a

theorem eq_of_compareAll {as bs : List SortKey} (h : compareAll as bs = .eq) : as = bs := by
  cases as <;> cases bs <;> try first | rfl | contradiction
  case cons.cons a as b bs =>
    obtain ⟨hhead, htail⟩ := Ordering.then_eq_eq.mp h
    rw [eq_of_compare hhead, eq_of_compareAll htail]
termination_by sizeOf as
end

mutual
@[simp] theorem compare_self (a : SortKey) : a.compare a = .eq := by
  cases a with
  | null => rfl
  | truth b => cases b <;> rfl
  | number x => exact Extended.compare_self x
  | text s => exact Std.ReflOrd.compare_self
  | row items => exact compareAll_self items
termination_by sizeOf a

@[simp] theorem compareAll_self (as : List SortKey) : compareAll as as = .eq := by
  cases as with
  | nil => rfl
  | cons a as => simp only [compareAll, compare_self a, compareAll_self as, Ordering.then_eq]
termination_by sizeOf as
end

theorem eq_of_isLE {a b : SortKey} (hab : (a.compare b).isLE) (hba : (b.compare a).isLE) : a = b := by
  rw [compare_swap] at hba
  apply eq_of_compare
  cases h : a.compare b <;> simp [h] at hab hba ⊢

mutual
theorem compare_isLE_trans {a b c : SortKey} (hab : (a.compare b).isLE)
    (hbc : (b.compare c).isLE) : (a.compare c).isLE := by
  cases a <;> cases b <;> cases c <;> try first | rfl | contradiction
  case truth.truth.truth a b c =>
    cases a <;> cases b <;> cases c <;> first | rfl | contradiction
  case number.number.number x y z => exact Extended.compare_isLE_trans hab hbc
  case text.text.text s t u => exact Std.TransOrd.isLE_trans hab hbc
  case row.row.row as bs cs => exact compareAll_isLE_trans hab hbc
termination_by sizeOf a

theorem compareAll_isLE_trans {as bs cs : List SortKey} (hab : (compareAll as bs).isLE)
    (hbc : (compareAll bs cs).isLE) : (compareAll as cs).isLE := by
  cases as <;> cases bs <;> cases cs <;> try first | rfl | contradiction
  case cons.cons.cons a as b bs c cs =>
    simp only [compareAll, Ordering.isLE_then_iff_and] at hab hbc ⊢
    have hac : (a.compare c).isLE := compare_isLE_trans hab.1 hbc.1
    refine ⟨hac, ?_⟩
    by_cases below : a.compare c = .lt
    · exact .inl below
    · -- equal heads squeeze the middle head, so both tails are compared
      have outer : a.compare c = .eq := by cases h : a.compare c <;> simp_all
      obtain rfl := eq_of_compare outer
      obtain rfl := eq_of_isLE hab.1 hbc.1
      simp only [compare_self, reduceCtorEq, false_or] at hab hbc
      exact .inr (compareAll_isLE_trans hab.2 hbc.2)
termination_by sizeOf as
end

instance : Std.TransCmp compare where
  eq_swap := compare_swap _ _
  isLE_trans := compare_isLE_trans

instance : Std.LawfulEqCmp compare where
  compare_self := compare_self _
  eq_of_compare := eq_of_compare

/-- Does one key stand at or before another? -/
def atMost (a b : SortKey) : Bool := (a.compare b).isLE

@[simp] theorem atMost_total (a b : SortKey) : (a.atMost b || b.atMost a) = true := by
  simp only [atMost]
  rw [compare_swap b a]
  cases a.compare b <;> rfl

theorem atMost_trans (a b c : SortKey) (hab : a.atMost b) (hbc : b.atMost c) : a.atMost c :=
  compare_isLE_trans hab hbc

theorem pairwise_mergeSort (keys : List SortKey) : (keys.mergeSort atMost).Pairwise (atMost · ·) :=
  List.pairwise_mergeSort atMost_trans atMost_total keys

mutual

/-- What sameness looks at: truth values count as one and zero. -/
def essence : SortKey → SortKey
  | .truth b => .number (.number (if b then 1 else 0))
  | .row items => .row (essences items)
  | key => key

/-- `essence` on every item. -/
def essences : List SortKey → List SortKey
  | [] => []
  | key :: rest => key.essence :: essences rest

end

end SortKey

mutual

/-- Null, a truth value, a number other than a not-a-number, a text, or a row of such values. -/
def isOrderable : Value → Bool
  | .null => true
  | .bool _ => true
  | .int _ => true
  | .float (.nan _) => false
  | .float _ => true
  | .text _ => true
  | .tuple items => allOrderable items
  | _ => false

/-- `isOrderable` on every item. -/
def allOrderable : List Value → Bool
  | [] => true
  | item :: rest => item.isOrderable && allOrderable rest

end

mutual

/-- The sort key of an orderable value; all other values share that of null. -/
def sortKey : Value → SortKey
  | .bool b => .truth b
  | .text s => .text s
  | .tuple items => .row (sortKeys items)
  | value => value.number?.elim .null .number

/-- `sortKey` on every item. -/
def sortKeys : List Value → List SortKey
  | [] => []
  | item :: rest => item.sortKey :: sortKeys rest

end

mutual
theorem compare?_eq {a b : Value} (ha : a.isOrderable) (hb : b.isOrderable) :
    a.compare? b = some (a.sortKey.compare b.sortKey) := by
  cases a <;> try contradiction
  all_goals cases b <;> try first | contradiction | rfl
  case bool.bool a b => cases a <;> cases b <;> rfl
  case tuple.tuple as bs => exact compareAll?_eq ha hb
  case float.float x y => cases x <;> cases y <;> first | contradiction | rfl
  all_goals cases ‹Binary64› <;> first | contradiction | rfl
termination_by sizeOf a

theorem compareAll?_eq {as bs : List Value} (ha : allOrderable as) (hb : allOrderable bs) :
    compareAll? as bs = some (SortKey.compareAll (sortKeys as) (sortKeys bs)) := by
  cases as <;> cases bs <;> try rfl
  case cons.cons a as b bs =>
    simp only [allOrderable, Bool.and_eq_true] at ha hb
    simp only [compareAll?, sortKeys, SortKey.compareAll, compare?_eq ha.1 hb.1,
      compareAll?_eq ha.2 hb.2]
    cases a.sortKey.compare b.sortKey <;> rfl
termination_by sizeOf as
end
mutual
theorem same_iff {a b : Value} (ha : a.isOrderable) (hb : b.isOrderable) :
    a.same b ↔ a.sortKey.essence = b.sortKey.essence := by
  cases a <;> try contradiction
  all_goals cases b <;> try contradiction
  case tuple.tuple as bs =>
    simp only [same, sortKey, SortKey.essence, SortKey.row.injEq]
    exact sameAll_iff ha hb
  case float.float x y =>
    cases x <;> cases y <;> try contradiction
    all_goals simp [same, sameScalar, number?, floatNumber?, sortKey, SortKey.essence,
      Binary64.toRat?]
  all_goals try (cases ‹Binary64› <;> try contradiction)
  all_goals simp [same, sameScalar, number?, floatNumber?, nanOccurrence?, sortKey,
    SortKey.essence, Binary64.toRat?]
termination_by sizeOf a

theorem sameAll_iff {as bs : List Value} (ha : allOrderable as) (hb : allOrderable bs) :
    sameAll as bs ↔ SortKey.essences (sortKeys as) = SortKey.essences (sortKeys bs) := by
  cases as <;> cases bs
  case cons.cons a as b bs =>
    simp only [allOrderable, Bool.and_eq_true] at ha hb
    simp only [sameAll, Bool.and_eq_true, sortKeys, SortKey.essences, List.cons.injEq,
      same_iff ha.1 hb.1, sameAll_iff ha.2 hb.2]
  all_goals simp [sameAll, sortKeys, SortKey.essences]
termination_by sizeOf as
end

end QueryHarvest.Value
