import QueryHarvest.Proofs.Session.Distinctness

/-! # The order of the values that a session keeps

Values are compared through keys that begin with the rank of their kind, so that a number only ever
meets a number, a text a text, and a row a row. This puts the values in a total order, in which those
of every condition of a session ascend.
-/

namespace QueryHarvest.Value

open Number

/-- A part of a tagged key. Only parts of one kind stand in an order. -/
inductive KeyPart where
  | number (x : Extended)
  | text (s : String)
  | row (parts : List KeyPart)

namespace KeyPart

/-- The rank of a kind is compared as a number. -/
def tag (rank : Nat) : KeyPart := .number (.number rank)

mutual

/-- The place of one part before another, if they are of one kind. -/
def compare? : KeyPart → KeyPart → Option Ordering
  | .number x, .number y => some (x.compare y)
  | .text s, .text t => some (Ord.compare s t)
  | .row as, .row bs => compareAll? as bs
  | _, _ => none

/-- The place of two rows: the first two parts that do not agree decide, and none behind them is
compared. -/
def compareAll? : List KeyPart → List KeyPart → Option Ordering
  | [], [] => some .eq
  | [], _ :: _ => some .lt
  | _ :: _, [] => some .gt
  | a :: as, b :: bs =>
    match a.compare? b with
    | some .eq => compareAll? as bs
    | place => place

end

end KeyPart

mutual

/-- What decides between keys of one rank. -/
def SortKey.payload : SortKey → KeyPart
  | .null => .tag 0
  | .truth b => .tag b.toNat
  | .number x => .number x
  | .text s => .text s
  | .row items => .row (taggedAll items)

/-- The sort keys of a row, each with its rank in front of it. -/
def SortKey.taggedAll : List SortKey → List KeyPart
  | [] => []
  | key :: rest => .row [.tag key.rank, key.payload] :: taggedAll rest

end

/-- A sort key with its rank in front of it. -/
def SortKey.tagged (key : SortKey) : KeyPart :=
  .row [.tag key.rank, key.payload]

theorem KeyPart.compareAll?_pair {a b c d : KeyPart} {first second : Ordering}
    (hfirst : a.compare? b = some first) (hsecond : first = .eq → c.compare? d = some second) :
    compareAll? [a, c] [b, d] = some (first.then second) := by
  rw [compareAll?, hfirst]
  cases first with
  | lt | gt => rfl
  | eq =>
      simp only [compareAll?, hsecond rfl]
      cases second <;> rfl

@[simp] theorem KeyPart.compare?_tag (m n : Nat) : (tag m).compare? (tag n) = some (Ord.compare m n) := by
  simp only [tag, compare?, Extended.compare, Nat.cast_lt, Nat.cast_inj, Nat.compare_eq_ite_lt]
  rcases lt_trichotomy m n with below | rfl | above
  · simp [below]
  · simp
  · simp [above, above.not_gt, above.ne']

theorem SortKey.compare_eq_then (a b : SortKey) :
    a.compare b = (Ord.compare a.rank b.rank).then (a.compare b) := by
  cases a <;> cases b <;> rfl

theorem compare?_tagged_of_payload {a b : SortKey}
    (h : a.rank = b.rank → a.payload.compare? b.payload = some (a.compare b)) :
    a.tagged.compare? b.tagged = some (a.compare b) := by
  rw [SortKey.compare_eq_then]
  exact KeyPart.compareAll?_pair (KeyPart.compare?_tag _ _) fun same => h (compare_eq_iff_eq.mp same)

mutual
theorem compare?_payload {a b : SortKey} (same : a.rank = b.rank) :
    a.payload.compare? b.payload = some (a.compare b) := by
  cases a <;> cases b <;> try solve | cases same
  case null.null => exact KeyPart.compare?_tag 0 0
  case truth.truth b c =>
    rw [SortKey.payload, SortKey.payload, KeyPart.compare?_tag]
    cases b <;> cases c <;> rfl
  case number.number | text.text => rfl
  case row.row as bs => exact compareAll?_tagged as bs
termination_by sizeOf a

@[simp] theorem compareAll?_tagged (as bs : List SortKey) :
    KeyPart.compareAll? (SortKey.taggedAll as) (SortKey.taggedAll bs) =
      some (SortKey.compareAll as bs) := by
  cases as <;> cases bs <;> try rfl
  case cons.cons a as b bs =>
    have head : a.tagged.compare? b.tagged = some (a.compare b) :=
      compare?_tagged_of_payload compare?_payload
    simp only [SortKey.tagged] at head
    simp only [SortKey.taggedAll, KeyPart.compareAll?, SortKey.compareAll, head,
      compareAll?_tagged as bs]
    cases a.compare b <;> rfl
termination_by sizeOf as
end

/-- Comparing tagged keys comes to an end without comparing parts of two kinds. -/
@[simp] theorem compare?_tagged (a b : SortKey) : a.tagged.compare? b.tagged = some (a.compare b) :=
  compare?_tagged_of_payload compare?_payload

mutual

/-- The order of fixed values, kind by kind: null, truth values, numbers by what they denote, texts by
code points, arrays item by item. -/
inductive Precedes : Value → Value → Prop
  | kind {a b : Value} (lower : a.rank < b.rank) : Precedes a b
  | truth : Precedes (.bool false) (.bool true)
  | number {a b : Value} {x y : Extended} (ha : a.isNumber) (hb : b.isNumber)
      (hax : a.number? = some x) (hby : b.number? = some y) (below : x.compare y = .lt) :
      Precedes a b
  | text {s t : String} (below : s < t) : Precedes (.text s) (.text t)
  | tuple {as bs : List Value} (below : PrecedesIn as bs) : Precedes (.tuple as) (.tuple bs)

/-- The order of arrays: the first two items that are not alike decide, then the length. -/
inductive PrecedesIn : List Value → List Value → Prop
  | shorter {b : Value} {bs : List Value} : PrecedesIn [] (b :: bs)
  | head {a b : Value} {as bs : List Value} (below : Precedes a b) : PrecedesIn (a :: as) (b :: bs)
  | tail {a b : Value} {as bs : List Value} (alike : Alike a b) (below : PrecedesIn as bs) :
      PrecedesIn (a :: as) (b :: bs)

end

theorem sortKey_of_isNumber {a : Value} {x : Extended} (h : a.isNumber) (denotes : a.number? = some x) :
    a.sortKey = .number x := by
  have key : a.sortKey = a.number?.elim .null .number := by
    cases a <;> first | contradiction | rfl
  rw [key, denotes]
  rfl

mutual
theorem sortKey_eq_of_alike {a b : Value} (h : Alike a b) : a.sortKey = b.sortKey := by
  cases h with
  | null | bool | text => rfl
  | number ha hb hax hbx => rw [sortKey_of_isNumber ha hax, sortKey_of_isNumber hb hbx]
  | tuple items => exact congrArg SortKey.row (sortKeys_eq_of_forall₂ items)
termination_by sizeOf a

theorem sortKeys_eq_of_forall₂ {as bs : List Value} (h : List.Forall₂ Alike as bs) :
    sortKeys as = sortKeys bs := by
  cases h with
  | nil => rfl
  | cons head tail =>
      rw [sortKeys, sortKeys, sortKey_eq_of_alike head, sortKeys_eq_of_forall₂ tail]
termination_by sizeOf as
end

/-- Values are alike just when their sort keys are equal. -/
theorem alike_iff {a b : Value} (ha : a.isOrderable) (hb : b.isOrderable) :
    Alike a b ↔ a.sortKey = b.sortKey :=
  ⟨sortKey_eq_of_alike, alike_of_sortKey ha hb⟩

theorem SortKey.compare_of_rank_lt {a b : SortKey} (h : a.rank < b.rank) : a.compare b = .lt := by
  rw [compare_eq_then, compare_lt_iff_lt.mpr h]
  rfl

mutual
theorem compare_of_precedes {a b : Value} (ha : a.isOrderable) (hb : b.isOrderable)
    (h : Precedes a b) : a.sortKey.compare b.sortKey = .lt := by
  cases h with
  | kind lower =>
      rw [← rank_sortKey ha, ← rank_sortKey hb] at lower
      exact SortKey.compare_of_rank_lt lower
  | truth => rfl
  | number numberA numberB hax hby below =>
      rw [sortKey_of_isNumber numberA hax, sortKey_of_isNumber numberB hby]
      exact below
  | text below => exact compare_lt_iff_lt.mpr below
  | tuple below => exact compareAll_of_precedesIn ha hb below
termination_by sizeOf a

theorem compareAll_of_precedesIn {as bs : List Value} (ha : allOrderable as) (hb : allOrderable bs)
    (h : PrecedesIn as bs) : SortKey.compareAll (sortKeys as) (sortKeys bs) = .lt := by
  cases h with
  | shorter => rfl
  | head below =>
      simp only [allOrderable, Bool.and_eq_true] at ha hb
      simp only [sortKeys, SortKey.compareAll, compare_of_precedes ha.1 hb.1 below]
      rfl
  | tail alike below =>
      simp only [allOrderable, Bool.and_eq_true] at ha hb
      simp only [sortKeys, SortKey.compareAll, sortKey_eq_of_alike alike, SortKey.compare_self,
        compareAll_of_precedesIn ha.2 hb.2 below]
      rfl
termination_by sizeOf as
end

theorem exists_number {a : Value} (h : a.isNumber) (orderable : a.isOrderable) :
    ∃ x, a.number? = some x := by
  cases a <;> try contradiction
  case int n => exact ⟨_, rfl⟩
  case float x => cases x <;> first | contradiction | exact ⟨_, rfl⟩

theorem precedes_of_isNumber {a b : Value} (numberA : a.isNumber) (numberB : b.isNumber)
    (ha : a.isOrderable) (hb : b.isOrderable) (h : a.sortKey.compare b.sortKey = .lt) :
    Precedes a b := by
  obtain ⟨x, hax⟩ := exists_number numberA ha
  obtain ⟨y, hby⟩ := exists_number numberB hb
  rw [sortKey_of_isNumber numberA hax, sortKey_of_isNumber numberB hby] at h
  exact .number numberA numberB hax hby h

mutual
theorem precedes_of_compare {a b : Value} (ha : a.isOrderable) (hb : b.isOrderable)
    (h : a.sortKey.compare b.sortKey = .lt) : Precedes a b := by
  rcases lt_trichotomy a.rank b.rank with lower | same | higher
  · exact .kind lower
  · cases a <;> try contradiction
    all_goals cases b <;> try first | contradiction | solve | cases same
    case bool.bool x y => cases x <;> cases y <;> first | contradiction | exact .truth
    case text.text s t => exact .text (compare_lt_iff_lt.mp h)
    case tuple.tuple as bs => exact .tuple (precedesIn_of_compareAll ha hb h)
    case int.int | int.float | float.int | float.float =>
      exact precedes_of_isNumber rfl rfl ha hb h
  · rw [← rank_sortKey ha, ← rank_sortKey hb] at higher
    rw [SortKey.compare_swap, SortKey.compare_of_rank_lt higher] at h
    contradiction
termination_by sizeOf a

theorem precedesIn_of_compareAll {as bs : List Value} (ha : allOrderable as) (hb : allOrderable bs)
    (h : SortKey.compareAll (sortKeys as) (sortKeys bs) = .lt) : PrecedesIn as bs := by
  cases as <;> cases bs <;> try contradiction
  case nil.cons => exact .shorter
  case cons.cons a as b bs =>
    simp only [allOrderable, Bool.and_eq_true] at ha hb
    simp only [sortKeys, SortKey.compareAll] at h
    cases head : a.sortKey.compare b.sortKey with
    | lt => exact .head (precedes_of_compare ha.1 hb.1 head)
    | gt => simp [head] at h
    | eq =>
        rw [head] at h
        exact .tail (alike_of_sortKey ha.1 hb.1 (SortKey.eq_of_compare head))
          (precedesIn_of_compareAll ha.2 hb.2 h)
termination_by sizeOf as
end

theorem precedes_iff {a b : Value} (ha : a.isOrderable) (hb : b.isOrderable) :
    a.sortKey.compare b.sortKey = .lt ↔ Precedes a b :=
  ⟨precedes_of_compare ha hb, compare_of_precedes ha hb⟩

/-- Among the values every two have a place, which is told by their tagged keys without comparing parts
of two kinds, and the places are those of a total order. -/
structure InTotalOrder (values : Set Value) : Prop where
  place : ∀ a ∈ values, ∀ b ∈ values, ∃ place, a.compare? b = some place ∧
    a.sortKey.tagged.compare? b.sortKey.tagged = some place ∧
      (place = .lt ↔ Precedes a b) ∧ (place = .eq ↔ Alike a b) ∧ (place = .gt ↔ Precedes b a)
  trans : ∀ a ∈ values, ∀ b ∈ values, ∀ c ∈ values, a.compare? b ≠ some .gt →
    b.compare? c ≠ some .gt → a.compare? c ≠ some .gt

theorem orderable_inTotalOrder : InTotalOrder {v | v.isOrderable} where
  place a ha b hb := by
    refine ⟨_, compare?_eq ha hb, compare?_tagged _ _, precedes_iff ha hb, ?_, ?_⟩
    · rw [alike_iff ha hb]
      exact ⟨SortKey.eq_of_compare, fun same => same ▸ SortKey.compare_self _⟩
    · rw [← precedes_iff hb ha, SortKey.compare_swap a.sortKey]
      cases b.sortKey.compare a.sortKey <;> decide
  trans a ha b hb c hc := by
    have notAfter {v w : Value} (hv : v.isOrderable) (hw : w.isOrderable) :
        v.compare? w ≠ some .gt ↔ (v.sortKey.compare w.sortKey).isLE := by
      rw [compare?_eq hv hw]
      cases v.sortKey.compare w.sortKey <;> simp
    rw [notAfter ha hb, notAfter hb hc, notAfter ha hc]
    exact SortKey.compare_isLE_trans

end QueryHarvest.Value

namespace QueryHarvest.Session

open Value

theorem Analysis.Summarizes.isOrderable {a : Analysis} {statements : List Statement}
    (summary : a.Summarizes statements) (orderable : OrderableValues statements) :
    ∀ c ∈ a.conditions, ∀ v ∈ c.values, v.isOrderable := by
  intro c hc v hv
  by_cases nullCheck : c.operator.isNullCheck
  · rw [summary.null_values c hc nullCheck] at hv
    contradiction
  · have kept := (summary.values_perm c hc nullCheck).mem_iff.mp hv
    exact isOrderable_of_mem_valuesOn (orderable_history orderable) v
      ((firstOfEach_sublist _ _).subset kept)

/-- The values of every condition that a session comes to ascend strictly in the total order. -/
theorem session_values_ascend (statements : List Statement) (orderable : OrderableValues statements) :
    InTotalOrder {v | v.isOrderable} ∧
      ∃ s a, addAll {} statements = .ok s ∧ s.result = .ok a ∧ ∀ c ∈ a.conditions,
        (∀ v ∈ c.values, v.isOrderable) ∧ c.values.Pairwise Precedes ∧
          (c.values.map fun v => v.sortKey.tagged).Pairwise (fun k l => k.compare? l = some .lt) ∧
            (c.values.map sortKey).Nodup := by
  obtain ⟨s, a, run, result, summary⟩ := exists_summary orderable
  refine ⟨orderable_inTotalOrder, s, a, run, result, fun c hc => ?_⟩
  have fixed : ∀ v ∈ c.values, v.isOrderable := summary.isOrderable orderable c hc
  have ascending : c.values.Pairwise fun v w => v.sortKey.compare w.sortKey = .lt :=
    (summary.values_sorted c hc).imp_of_mem fun hv hw => (before_iff (fixed _ hv) (fixed _ hw)).mp
  refine ⟨fixed, ?_, ?_, ?_⟩
  · exact ascending.imp_of_mem fun hv hw => (precedes_iff (fixed _ hv) (fixed _ hw)).mp
  · refine List.pairwise_map.mpr (ascending.imp fun below => ?_)
    rw [compare?_tagged, below]
  · refine List.pairwise_map.mpr (ascending.imp fun below same => ?_)
    rw [same, SortKey.compare_self] at below
    contradiction

/-- One key with values of every kind, with arrays that differ in a truth value and in their length,
and with infinities around the numbers. -/
def rankedValues : List Statement :=
  [⟨["orders"], [⟨none, "total", .isIn, [.list [.text "a", .list [.bool true]], .text "a", .int 2,
      .float (.infinite true), .null], rfl⟩]⟩,
    ⟨["orders"], [⟨none, "total", .equals, [.list [.text "a"], .bool true,
      .tuple [.text "a", .list [.null]], .float (.infinite false), .float (.finite false 2 0)], rfl⟩]⟩]

theorem rankedValues_ascend :
    OrderableValues rankedValues ∧ InTotalOrder {v | v.isOrderable} ∧
      ∃ s a, addAll {} rankedValues = .ok s ∧ s.result = .ok a ∧ ∀ c ∈ a.conditions,
        (∀ v ∈ c.values, v.isOrderable) ∧ c.values.Pairwise Precedes ∧
          (c.values.map fun v => v.sortKey.tagged).Pairwise (fun k l => k.compare? l = some .lt) ∧
            (c.values.map sortKey).Nodup := by
  have orderable : OrderableValues rankedValues := by
    unfold OrderableValues
    decide +kernel
  exact ⟨orderable, session_values_ascend rankedValues orderable⟩

end QueryHarvest.Session
