import QueryHarvest.Proofs.Session.Summary

/-! # The order of statements

Where all conditions on a key have the same operator, the statements of a session can come in any
order: what the session comes to differs at most in the order of its conditions and in how equal numbers
are spelled. Truth values inside arrays are left out, since there they are the same as one and zero.
-/

namespace QueryHarvest.Value

open Number

/-- An integer or a floating point number. -/
def isNumber : Value → Bool
  | .int _ => true
  | .float _ => true
  | _ => false

/-- Two fixed values that differ at most in the spelling of equal numbers. -/
inductive Alike : Value → Value → Prop
  | null : Alike .null .null
  | bool (b : Bool) : Alike (.bool b) (.bool b)
  | number {a b : Value} {x : Extended} (ha : a.isNumber) (hb : b.isNumber)
      (hax : a.number? = some x) (hbx : b.number? = some x) : Alike a b
  | text (s : String) : Alike (.text s) (.text s)
  | tuple {as bs : List Value} (items : List.Forall₂ Alike as bs) : Alike (.tuple as) (.tuple bs)

mutual
theorem alike_of_sortKey {a b : Value} (ha : a.isOrderable) (hb : b.isOrderable)
    (h : a.sortKey = b.sortKey) : Alike a b := by
  cases a <;> try contradiction
  all_goals cases b <;> try contradiction
  case null.null => exact .null
  case bool.bool x y =>
    cases h
    exact .bool x
  case text.text s t =>
    cases h
    exact .text s
  case tuple.tuple as bs => exact .tuple (forall₂_alike_of_sortKeys ha hb (SortKey.row.inj h))
  case float.float x y =>
    cases x <;> cases y <;> try contradiction
    all_goals exact .number rfl rfl rfl (congrArg some (SortKey.number.inj h).symm)
  all_goals try (cases ‹Binary64› <;> try contradiction)
  all_goals exact .number rfl rfl rfl (congrArg some (SortKey.number.inj h).symm)
termination_by sizeOf a

theorem forall₂_alike_of_sortKeys {as bs : List Value} (ha : allOrderable as)
    (hb : allOrderable bs) (h : sortKeys as = sortKeys bs) : List.Forall₂ Alike as bs := by
  cases as <;> cases bs <;> try first | contradiction | exact .nil
  case cons.cons a as b bs =>
    simp only [allOrderable, Bool.and_eq_true] at ha hb
    simp only [sortKeys, List.cons.injEq] at h
    exact .cons (alike_of_sortKey ha.1 hb.1 h.1) (forall₂_alike_of_sortKeys ha.2 hb.2 h.2)
termination_by sizeOf as
end

/-- A truth value, or a key in which there is none. -/
def SortKey.IsTold (key : SortKey) : Prop :=
  key.essence = key ∨ ∃ b, key = .truth b

theorem SortKey.eq_of_essence {key other : SortKey} (hkey : key.IsTold) (hother : other.IsTold)
    (ranks : key.rank = other.rank) (essences : key.essence = other.essence) : key = other := by
  rcases hkey with same | ⟨b, rfl⟩ <;> rcases hother with otherSame | ⟨c, rfl⟩
  · rw [← same, ← otherSame, essences]
  · cases key <;> simp_all [rank, essence]
  · cases other <;> simp_all [rank, essence]
  · cases b <;> cases c <;> simp_all [essence]

mutual

/-- Null, a number other than a not-a-number, a text, or an array of such values. -/
def isElement : Value → Bool
  | .null => true
  | .int _ => true
  | .float (.nan _) => false
  | .float _ => true
  | .text _ => true
  | .list items => allElements items
  | .tuple items => allElements items
  | _ => false

/-- `isElement` on every item. -/
def allElements : List Value → Bool
  | [] => true
  | item :: rest => item.isElement && allElements rest

end

/-- A truth value, or a value that can be an element of an array. -/
def isSimple : Value → Bool
  | .bool _ => true
  | value => value.isElement

mutual
theorem element_freeze {v : Value} (h : v.isElement) :
    v.freeze.isOrderable ∧ v.freeze.sortKey.essence = v.freeze.sortKey := by
  cases v <;> try first | contradiction | exact ⟨rfl, rfl⟩
  case float x => cases x <;> first | contradiction | exact ⟨rfl, rfl⟩
  case list items =>
    obtain ⟨orderable, same⟩ := elements_freezeAll h
    exact ⟨orderable, congrArg SortKey.row same⟩
  case tuple items =>
    obtain ⟨orderable, same⟩ := elements_freezeAll h
    exact ⟨orderable, congrArg SortKey.row same⟩
termination_by sizeOf v

theorem elements_freezeAll {items : List Value} (h : allElements items) :
    allOrderable (freezeAll items) ∧
      SortKey.essences (sortKeys (freezeAll items)) = sortKeys (freezeAll items) := by
  cases items with
  | nil => exact ⟨rfl, rfl⟩
  | cons item rest =>
      simp only [allElements, Bool.and_eq_true] at h
      obtain ⟨headOrderable, headSame⟩ := element_freeze h.1
      obtain ⟨restOrderable, restSame⟩ := elements_freezeAll h.2
      simp only [freezeAll, allOrderable, sortKeys, SortKey.essences, headOrderable, headSame,
        restOrderable, restSame, Bool.and_self, and_self]
termination_by sizeOf items
end

theorem simple_freeze {v : Value} (h : v.isSimple) :
    v.freeze.isOrderable ∧ v.freeze.sortKey.IsTold := by
  cases v <;> try exact (element_freeze h).imp_right .inl
  case bool b => exact ⟨rfl, .inr ⟨b, rfl⟩⟩

/-- Orderable values whose keys sameness tells apart. -/
def AllTold (values : List Value) : Prop :=
  ∀ v ∈ values, v.isOrderable ∧ v.sortKey.IsTold

theorem sortKey_eq_of_merges {a b : Value} (ha : a.isOrderable ∧ a.sortKey.IsTold)
    (hb : b.isOrderable ∧ b.sortKey.IsTold) (h : a.merges b) : a.sortKey = b.sortKey := by
  obtain ⟨ranks, essences⟩ := (merges_iff ha.1 hb.1).mp h
  rw [← rank_sortKey ha.1, ← rank_sortKey hb.1] at ranks
  exact SortKey.eq_of_essence ha.2 hb.2 ranks essences

/-- The first of each has the keys of all. -/
theorem mem_sortKey_firstOfEach {values : List Value} (h : AllTold values) {key : SortKey} :
    key ∈ (firstOfEach [] values).map sortKey ↔ key ∈ values.map sortKey := by
  have inside := (firstOfEach_sublist [] values).subset
  constructor
  · exact fun member => List.map_subset sortKey inside member
  · intro member
    obtain ⟨v, hv, rfl⟩ := List.mem_map.mp member
    have met : (firstOfEach [] values).any v.merges := by
      rw [any_merges_firstOfEach (fun w hw => (h w hw).1) (h v hv).1]
      exact List.any_eq_true.mpr ⟨v, hv, merges_self (h v hv).1⟩
    obtain ⟨w, hw, merged⟩ := List.any_eq_true.mp met
    rw [sortKey_eq_of_merges (h v hv) (h w (inside hw)) merged]
    exact List.mem_map_of_mem hw

theorem sortKey_firstOfEach_perm {values others : List Value} (h : AllTold values)
    (same : values.Perm others) :
    ((firstOfEach [] values).map sortKey).Perm ((firstOfEach [] others).map sortKey) := by
  have hothers : AllTold others := fun v hv => h v (same.mem_iff.mpr hv)
  refine (List.perm_ext_iff_of_nodup (nodup_sortKey_firstOfEach fun v hv => (h v hv).1)
    (nodup_sortKey_firstOfEach fun v hv => (hothers v hv).1)).mpr fun key => ?_
  rw [mem_sortKey_firstOfEach h, mem_sortKey_firstOfEach hothers]
  exact (same.map sortKey).mem_iff

/-- Ascending rows of the first of each, taken from two orders of the same values, are alike position
by position. -/
theorem forall₂_alike_of_perm {values others row otherRow : List Value} (h : AllTold values)
    (same : values.Perm others) (hrow : row.Perm (firstOfEach [] values))
    (hother : otherRow.Perm (firstOfEach [] others)) (sorted : row.Pairwise (before · ·))
    (otherSorted : otherRow.Pairwise (before · ·)) : List.Forall₂ Alike row otherRow := by
  have hothers : AllTold others := fun v hv => h v (same.mem_iff.mpr hv)
  have orderable : ∀ v ∈ row, v.isOrderable := fun v hv =>
    (h v ((firstOfEach_sublist [] values).subset (hrow.mem_iff.mp hv))).1
  have otherOrderable : ∀ v ∈ otherRow, v.isOrderable := fun v hv =>
    (hothers v ((firstOfEach_sublist [] others).subset (hother.mem_iff.mp hv))).1
  have keys : row.map sortKey = otherRow.map sortKey := by
    apply List.Perm.eq_of_pairwise (fun _ _ _ _ => SortKey.eq_of_isLE)
      (sortKey_pairwise orderable sorted) (sortKey_pairwise otherOrderable otherSorted)
    exact (hrow.map sortKey).trans
      ((sortKey_firstOfEach_perm h same).trans (hother.map sortKey).symm)
  rw [← sortKeys_eq_map, ← sortKeys_eq_map] at keys
  exact forall₂_alike_of_sortKeys (allOrderable_iff.mpr orderable)
    (allOrderable_iff.mpr otherOrderable) keys

end QueryHarvest.Value

namespace QueryHarvest.Session

open Sql

/-- Two analyses that agree but for the order of their conditions and the spelling of numbers. -/
structure Analysis.Agrees (a b : Analysis) : Prop where
  tables : a.tables = b.tables
  queryCount : a.queryCount = b.queryCount
  keys : (a.conditions.map Condition.key).Perm (b.conditions.map Condition.key)
  conditions : ∀ c ∈ a.conditions, ∀ d ∈ b.conditions, c.key = d.key →
    c.operator = d.operator ∧ List.Forall₂ Value.Alike c.values d.values

/-- All conditions on a key have the same operator. -/
def Consistent (statements : List Statement) : Prop :=
  ∀ c ∈ history statements, ∀ d ∈ history statements, c.key = d.key → c.operator = d.operator

variable {statements others : List Statement}

theorem history_perm (same : statements.Perm others) :
    (history statements).Perm (history others) :=
  same.flatMap_right _

theorem keysOf_perm {conditions more : List Condition} (same : conditions.Perm more) :
    (keysOf conditions).Perm (keysOf more) := by
  refine (List.perm_ext_iff_of_nodup (nodup_eraseDups _) (nodup_eraseDups _)).mpr fun key => ?_
  simp only [List.mem_eraseDups]
  exact (same.map Condition.key).mem_iff

theorem valuesOn_perm {conditions more : List Condition} (same : conditions.Perm more) (key : Key) :
    (valuesOn conditions key).Perm (valuesOn more key) :=
  (same.filter _).flatMap_right _

theorem firstOperator?_perm (consistent : Consistent statements) (same : statements.Perm others)
    {key : Key} {operator other : Operator}
    (first : firstOperator? (history statements) key = some operator)
    (otherFirst : firstOperator? (history others) key = some other) : operator = other := by
  obtain ⟨c, found, rfl⟩ := Option.map_eq_some_iff.mp first
  obtain ⟨d, otherFound, rfl⟩ := Option.map_eq_some_iff.mp otherFirst
  have hc : c.key = key := by simpa using List.find?_some found
  have hd : d.key = key := by simpa using List.find?_some otherFound
  exact consistent c (List.mem_of_find?_eq_some found) d
    ((history_perm same).mem_iff.mpr (List.mem_of_find?_eq_some otherFound)) (hc.trans hd.symm)

theorem tables_eq_of_perm {a b : Analysis} (ha : a.Summarizes statements)
    (hb : b.Summarizes others) (same : statements.Perm others) : a.tables = b.tables := by
  apply List.Perm.eq_of_pairwise (fun _ _ _ _ h h' => absurd h' (lt_asymm h)) ha.tables_sorted
    hb.tables_sorted
  refine (List.perm_ext_iff_of_nodup (ha.tables_sorted.imp ne_of_lt)
    (hb.tables_sorted.imp ne_of_lt)).mpr fun table => ?_
  simp only [ha.mem_tables, hb.mem_tables, same.mem_iff]

theorem allTold_valuesOn {conditions : List Condition}
    (h : ∀ c ∈ conditions, ∀ v ∈ c.values, v.isSimple) (key : Key) :
    Value.AllTold (valuesOn conditions key) := by
  intro v hv
  obtain ⟨c, hc, hv⟩ := List.mem_flatMap.mp hv
  obtain ⟨u, hu, rfl⟩ := List.mem_map.mp hv
  exact Value.simple_freeze (h c (List.mem_filter.mp hc).1 u hu)

theorem agrees_of_perm {a b : Analysis} (consistent : Consistent statements)
    (hsimple : ∀ c ∈ history statements, ∀ v ∈ c.values, v.isSimple)
    (same : statements.Perm others) (ha : a.Summarizes statements) (hb : b.Summarizes others) :
    a.Agrees b where
  tables := tables_eq_of_perm ha hb same
  queryCount := by rw [ha.queryCount, hb.queryCount, same.length_eq]
  keys := by
    rw [ha.keys, hb.keys]
    exact keysOf_perm (history_perm same)
  conditions := by
    intro c hc d hd key
    have operators : c.operator = d.operator :=
      firstOperator?_perm consistent same (ha.operators c hc) (key ▸ hb.operators d hd)
    refine ⟨operators, ?_⟩
    by_cases nullCheck : c.operator.isNullCheck
    · rw [ha.null_values c hc nullCheck, hb.null_values d hd (operators ▸ nullCheck)]
      exact .nil
    · exact Value.forall₂_alike_of_perm (allTold_valuesOn hsimple c.key)
        (valuesOn_perm (history_perm same) c.key) (ha.values_perm c hc nullCheck)
        (key ▸ hb.values_perm d hd (operators ▸ nullCheck)) (ha.values_sorted c hc)
        (hb.values_sorted d hd)

/-- The order of statements does not matter to what a session comes to. -/
theorem summary_of_permuted_statements (statements others : List Statement)
    (consistent : Consistent statements)
    (hsimple : ∀ q ∈ statements, ∀ c ∈ q.conditions, ∀ v ∈ c.values, v.isSimple)
    (same : statements.Perm others) :
    ∃ s t a b, addAll {} statements = .ok s ∧ s.result = .ok a ∧
      addAll {} others = .ok t ∧ t.result = .ok b ∧ a.Agrees b := by
  have hvalues : OrderableValues statements := fun q hq c hc v hv =>
    (Value.simple_freeze (hsimple q hq c hc v hv)).1
  have hothers : OrderableValues others := fun q hq => hvalues q (same.mem_iff.mpr hq)
  have nothing : OrderableValues [] := by simp [OrderableValues]
  obtain ⟨s, run, collected⟩ := addAll_collects collects_nil nothing hvalues
  obtain ⟨t, otherRun, otherCollected⟩ := addAll_collects collects_nil nothing hothers
  obtain ⟨a, result, summary⟩ := result_summarizes collected hvalues
  obtain ⟨b, otherResult, otherSummary⟩ := result_summarizes otherCollected hothers
  refine ⟨s, t, a, b, run, result, otherRun, otherResult, ?_⟩
  refine agrees_of_perm consistent ?_ same summary otherSummary
  intro c hc
  obtain ⟨q, hq, hc⟩ := List.mem_flatMap.mp hc
  obtain ⟨d, hd, rfl⟩ := List.mem_map.mp hc
  exact hsimple q hq d hd

/-- One key in two statements, with numbers that are spelled in two ways. -/
def respelledStatements : List Statement :=
  [⟨["orders"], [⟨none, "total", .isIn, [.int 2, .float (.finite false 1 0), .bool true], rfl⟩]⟩,
    ⟨["users"], [⟨some "orders", "total", .isIn,
      [.float (.finite false 1 1), .null, .list [.int 3, .text "a"]], rfl⟩]⟩]

theorem summary_of_respelledStatements_reversed :
    Consistent respelledStatements ∧
      (∀ q ∈ respelledStatements, ∀ c ∈ q.conditions, ∀ v ∈ c.values, v.isSimple) ∧
      respelledStatements.Perm respelledStatements.reverse ∧
      ∃ s t a b, addAll {} respelledStatements = .ok s ∧ s.result = .ok a ∧
        addAll {} respelledStatements.reverse = .ok t ∧ t.result = .ok b ∧ a.Agrees b := by
  have consistent : Consistent respelledStatements := by
    unfold Consistent
    decide +kernel
  have simple : ∀ q ∈ respelledStatements, ∀ c ∈ q.conditions, ∀ v ∈ c.values, v.isSimple := by
    decide +kernel
  have same := respelledStatements.reverse_perm.symm
  exact ⟨consistent, simple, same, summary_of_permuted_statements _ _ consistent simple same⟩

end QueryHarvest.Session
