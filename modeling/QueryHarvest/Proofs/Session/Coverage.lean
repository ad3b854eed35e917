import QueryHarvest.Proofs.Session.Clauses
import QueryHarvest.Proofs.Session.Ending
import QueryHarvest.Proofs.Session.Rendering

/-! # Merging loses no row

What a session holds for one key depends on the conditions on that key alone. Where these agree in their
operator and compare with numbers or with texts throughout, the rendered condition lets through whatever
one of them admits, unless it shows an integer that is too long to be written.
-/

namespace QueryHarvest.Session

open Sql Value

/-- The entry with the values of a condition. A null check takes none. -/
def Entry.taking (e : Entry) (c : Condition) : Entry :=
  if e.operator.isNullCheck then e else { e with values := (addValues e.values c.values).1 }

section

variable {s : Session} {c : Condition} {key : Key} {conditions : List Condition}

theorem find_setValues (s : Session) (key other : Key) (values : List Value) :
    entry? (s.setValues key values) other =
      (s.entry? other).map fun e => if other = key then { e with values } else e := by
  have holds : (Entry.holds other ∘ fun e => if e.holds key then { e with values } else e) =
      Entry.holds other := by
    funext e
    rw [Function.comp_apply]
    split <;> rfl
  unfold entry?
  rw [setValues, List.find?_map, holds]
  refine Option.map_congr fun e found => ?_
  have own : (e.table, e.column) = other := holds_iff.mp (List.find?_some found)
  simp only [holds_iff, own]

@[simp] theorem find_withEntry (s : Session) (c : Condition) (key : Key) :
    entry? (s.withEntry c) key = if c.key = key then some (s.entryOf c) else s.entry? key := by
  rw [withEntry, entryOf]
  cases found : s.entry? c.key with
  | some entry =>
      simp only [Option.isSome_some, if_true, Option.getD_some]
      split
      · next own => exact own ▸ found
      · rfl
  | none =>
      have holds : (newEntry c).holds key ↔ c.key = key := holds_iff
      simp only [Option.isSome_none, Bool.false_eq_true, if_false]
      unfold entry? at found ⊢
      rw [List.find?_append, List.find?_cons, List.find?_nil]
      by_cases own : c.key = key
      · subst own
        simp [found, holds.mpr rfl]
      · simp [Bool.eq_false_iff.mpr (mt holds.mp own), own]

/-- A condition is taken in by the entry of its key, and all other keys stay as they are. -/
theorem find_addCondition (s : Session) (c : Condition) (key : Key) :
    entry? (s.addCondition c).session key =
      if c.key = key then some ((s.entryOf c).taking c) else s.entry? key := by
  rw [session_addCondition, Entry.taking]
  split
  · exact find_withEntry s c key
  · rw [find_setValues, find_withEntry]
    by_cases own : c.key = key
    · simp [own]
    · simp [own, Ne.symm own]

/-- What conditions come to on a key is told from those on the key alone. -/
@[simp] theorem entryOn?_filter (conditions : List Condition) (key : Key) :
    entryOn? (conditions.filter (·.key == key)) key = entryOn? conditions key := by
  have known : key ∈ keysOf (conditions.filter (·.key == key)) ↔ key ∈ keysOf conditions := by
    simp
  have operator : firstOperator? (conditions.filter (·.key == key)) key =
      firstOperator? conditions key := by
    simp only [firstOperator?, List.find?_filter, and_self, Bool.decide_eq_true]
  have values : valuesOn (conditions.filter (·.key == key)) key = valuesOn conditions key := by
    simp [valuesOn]
  simp only [entryOn?, entryOn, known, operator, values]

theorem entryOn?_append_of_ne (other : c.key ≠ key) :
    entryOn? (conditions ++ [c]) key = entryOn? conditions key := by
  rw [← entryOn?_filter (conditions ++ [c]), List.filter_append,
    List.filter_cons_of_neg (by simpa using other), List.filter_nil, List.append_nil, entryOn?_filter]

/-- A further condition on a key does to its entry what adding it does. -/
theorem entryOn?_append (orderable : ∀ v ∈ valuesOn (conditions ++ [c]) c.key, v.isOrderable) :
    entryOn? (conditions ++ [c]) c.key =
      some (((entryOn? conditions c.key).getD (newEntry c)).taking c) := by
  -- a session of the conditions on the key alone collects all of them
  let own := conditions.filter (·.key == c.key)
  let s : Session := { entries := entriesOf own }
  have joined : own ++ [c] = (conditions ++ [c]).filter (·.key == c.key) := by
    simp [own]
  have fixed : ∀ d ∈ own ++ [c], ∀ v ∈ d.values, v.freeze.isOrderable := by
    intro d member v inside
    rw [joined] at member
    exact orderable _ (List.mem_flatMap.mpr ⟨d, member, List.mem_map_of_mem inside⟩)
  obtain ⟨-, added⟩ := addCondition_entries (s := s) rfl
    (fun d member => fixed d (List.mem_append_left _ member)) (fixed c (by simp))
  have here : s.entry? c.key = entryOn? conditions c.key :=
    (find_entryOn rfl c.key).trans (entryOn?_filter conditions c.key)
  have after := find_addCondition s c c.key
  rw [added, find_entryOn rfl, joined, entryOn?_filter, if_pos rfl, entryOf, here] at after
  exact after

theorem valuesOn_subset_append (conditions more : List Condition) (key : Key) :
    valuesOn conditions key ⊆ valuesOn (conditions ++ more) key := by
  rw [valuesOn, valuesOn, List.filter_append, List.flatMap_append]
  exact List.subset_append_left _ _

/-- The session is sound, and its entry of the key is what some conditions come to on it. -/
structure Tracks (s : Session) (conditions : List Condition) (key : Key) : Prop where
  sound : s.Sound
  entry : s.entry? key = entryOn? conditions key

theorem addCondition_tracks (hs : Tracks s conditions key)
    (orderable : ∀ v ∈ valuesOn (conditions ++ [c]) key, v.isOrderable)
    (taken : (s.addCondition c).error = none) :
    Tracks (s.addCondition c).session (conditions ++ [c]) key where
  sound := addCondition_taken hs.sound taken
  entry := by
    rw [find_addCondition]
    split
    · next own =>
      subst own
      rw [entryOf, hs.entry]
      exact (entryOn?_append orderable).symm
    · next other => exact hs.entry.trans (entryOn?_append_of_ne other).symm

theorem addConditions_tracks {more : List Condition} (hs : Tracks s conditions key)
    (orderable : ∀ v ∈ valuesOn (conditions ++ more) key, v.isOrderable)
    (taken : (s.addConditions more).error = none) :
    Tracks (s.addConditions more).session (conditions ++ more) key := by
  induction more generalizing s conditions with
  | nil => rwa [List.append_nil]
  | cons c rest ih =>
      rw [List.append_cons] at orderable ⊢
      simp only [addConditions] at taken ⊢
      cases first : (s.addCondition c).error with
      | some error => simp [first] at taken
      | none =>
          simp only [first] at taken ⊢
          have one : ∀ v ∈ valuesOn (conditions ++ [c]) key, v.isOrderable := fun v member =>
            orderable v (valuesOn_subset_append _ rest key member)
          exact ih (addCondition_tracks hs one first) orderable taken

theorem addAll_tracks {before rest : List Statement} {s' : Session}
    (hs : Tracks s (history before) key)
    (orderable : ∀ v ∈ valuesOn (history (before ++ rest)) key, v.isOrderable)
    (run : addAll s rest = .ok s') : Tracks s' (history (before ++ rest)) key := by
  induction rest generalizing s before with
  | nil =>
      cases run
      rwa [List.append_nil]
  | cons q rest ih =>
      rw [List.append_cons] at orderable ⊢
      rw [addAll] at run
      split at run
      · cases run
      · next taken =>
        refine ih ?_ orderable run
        have one : ∀ v ∈ valuesOn (history before ++ history [q]) key, v.isOrderable := by
          intro v member
          rw [history_append, history_append] at orderable
          exact orderable v (valuesOn_subset_append _ (history rest) key member)
        rw [add, settled_conditions] at taken ⊢
        rw [history_append]
        exact addConditions_tracks ⟨⟨hs.sound.distinct, hs.sound.fits⟩, hs.entry⟩ one taken

/-- The result of a session holds one condition for a key, and it states the entry of the key. -/
theorem result_of_tracks (hs : Tracks s conditions key) (known : key ∈ keysOf conditions) :
    ∃ a, s.result = .ok a ∧ (∃ c ∈ a.conditions, c.key = key) ∧
      ∀ c ∈ a.conditions, c.key = key → States (entryOn conditions key) c := by
  obtain ⟨a, result⟩ := exists_result hs.sound
  have states := result_states result
  obtain ⟨member, holds⟩ := entry?_eq_some (hs.entry.trans (if_pos known))
  obtain ⟨c, made, stated⟩ := exists_right_of_forall₂ states member
  refine ⟨a, result, ⟨c, made, stated.key.trans (holds_iff.mp holds)⟩, fun d inside own => ?_⟩
  obtain ⟨e, member', stated'⟩ := exists_left_of_forall₂ states inside
  have holds' : e.holds key := holds_iff.mpr (stated'.key.symm.trans own)
  rwa [eq_of_holds hs.sound.distinct member member' holds holds'] at stated'

end

/-- The conditions of some statements on a key. -/
def conditionsOn (statements : List Statement) (key : Key) : List Condition :=
  (history statements).filter (·.key == key)

/-- The conditions of the statement are those that are found in some text with some parameters. -/
def Statement.IsFound (q : Statement) : Prop :=
  ∃ sql parameters, Sql.conditions sql parameters = .ok q.conditions

theorem length_values_of_history {statements : List Statement} (found : ∀ q ∈ statements, q.IsFound) :
    ∀ c ∈ history statements, ∀ count ∈ c.operator.valueCount?, c.values.length = count := by
  intro c member
  obtain ⟨q, inside, member⟩ := List.mem_flatMap.mp member
  obtain ⟨d, own, rfl⟩ := List.mem_map.mp member
  obtain ⟨sql, parameters, searched⟩ := found q inside
  exact length_values_of_conditions searched d own

theorem operator_entryOn {statements : List Statement} {key : Key} {operator : Operator}
    (known : key ∈ keysOf (history statements))
    (agree : ∀ c ∈ conditionsOn statements key, c.operator = operator) :
    (entryOn (history statements) key).operator = operator := by
  obtain ⟨first, found⟩ := Option.isSome_iff_exists.mp (firstOperator?_isSome.mpr known)
  obtain ⟨c, place, rfl⟩ := Option.map_eq_some_iff.mp found
  have own : c.key == key := by simpa using List.find?_some place
  simp only [entryOn, found, Option.getD_some]
  exact agree c (List.mem_filter.mpr ⟨List.mem_of_find?_eq_some place, own⟩)

/-- How a condition is rendered, alone and among others: as its clauses, unless a value that it shows cannot
be written. -/
structure Rendered (c : Condition) (conditions : List Condition) : Prop where
  whole : (∀ v ∈ shownValues c, v.isWritable) →
    renderCondition c = .ok (Clause.joined c.column (clausesOf c))
  refused : (∃ v ∈ shownValues c, ¬ v.isWritable) → renderCondition c = .error .tooManyDigits
  among : ∀ fragments, render conditions = .ok fragments → ∀ table ∈ c.table, table ≠ "" →
    ⟨table, Clause.joined c.column (clausesOf c)⟩ ∈ fragments

theorem rendered_of_isComparative {c : Condition} {conditions : List Condition}
    (comparative : c.operator.isComparative) (member : c ∈ conditions) : Rendered c conditions where
  whole writable := renderCondition_eq_ok_iff.mpr ⟨writable, conditionText_eq_joined comparative⟩
  refused := renderCondition_eq_error_iff.mpr
  among fragments rendered table named filled := by
    obtain ⟨-, rfl⟩ := render_eq_ok_iff.mp rendered
    exact List.mem_filterMap.mpr ⟨c, member,
      written?_eq_some_iff.mpr ⟨named, filled, conditionText_eq_joined comparative⟩⟩

/-- Merging loses no row: where the conditions on a key agree in an operator that compares, and their
values are all numbers or all texts, the session comes to a result, and the clauses of the condition on the
key let through whatever one of those conditions admits. They let through no more, but for ranges, which
become one from the least to the greatest of all values. The condition is rendered as its clauses, unless a
value that it shows, which is one of those that were added, is an integer of too many digits. -/
theorem merged_condition_covers {statements : List Statement} {s : Session} {key : Key}
    {operator : Operator} {kind : CellKind}
    (found : ∀ q ∈ statements, q.IsFound)
    (collected : addAll {} statements = .ok s) (known : key ∈ keysOf (history statements))
    (comparative : operator.isComparative)
    (agree : ∀ c ∈ conditionsOn statements key, c.operator = operator)
    (cells : AllCells kind ((conditionsOn statements key).flatMap fixedValues)) :
    ∃ a, s.result = .ok a ∧ (∃ c ∈ a.conditions, c.key = key) ∧
      (∀ c ∈ a.conditions, c.key = key →
        c.operator = operator ∧ Covers (clausesOf c) operator (conditionsOn statements key) ∧
        Rendered c a.conditions ∧
        shownValues c ⊆ (conditionsOn statements key).flatMap fixedValues) ∧
      ∀ error, render a.conditions = .error error ↔
        ∃ c ∈ a.conditions, (∃ table ∈ c.table, table ≠ "") ∧ ∃ v ∈ shownValues c, ¬ v.isWritable := by
  have start : Tracks {} (history []) key := ⟨sound_nil, rfl⟩
  have tracks : Tracks s (history statements) key := addAll_tracks start cells.isOrderable collected
  obtain ⟨a, result, present, states⟩ := result_of_tracks tracks known
  refine ⟨a, result, present, fun c member own => ?_, fun error => ?_⟩
  · have stated := states c member own
    have same : c.operator = operator := stated.operator.trans (operator_entryOn known agree)
    have valued : ¬ (entryOn (history statements) key).operator.isNullCheck := by
      rw [← stated.operator]
      exact not_isNullCheck (same ▸ comparative)
    have values : c.values = united ((conditionsOn statements key).flatMap fixedValues) := by
      rw [stated.values, values_entryOn, if_neg valued]
      rfl
    subst same
    refine ⟨rfl, ?_, rendered_of_isComparative comparative member, ?_⟩
    · exact covers_of_merged comparative agree
        (fun d inside => length_values_of_history found d (List.mem_filter.mp inside).1) cells values
    · exact fun v shown => united_subset (values ▸ shownValues_subset c shown)
  · simp only [render_eq_error_iff, written?_isSome_iff]

/-- What a text with parameters brings to a session. -/
def Statement.ofSql (sql : String) (parameters : List Value) : Statement :=
  ⟨Sql.tables sql, (Sql.conditions sql parameters).toOption.getD []⟩

theorem isFound_ofSql {sql : String} {parameters : List Value}
    (searched : (Sql.conditions sql parameters).isOk) : (Statement.ofSql sql parameters).IsFound := by
  obtain ⟨conditions, found⟩ := exists_of_isOk searched
  exact ⟨sql, parameters, by rw [Statement.ofSql, found]; rfl⟩

/-- A range with its bounds swapped, a range of one point, and a range that goes beyond both. -/
def swappedRanges : List Statement :=
  [.ofSql "SELECT * FROM orders WHERE total BETWEEN $1 AND $2" [.int 9, .int 4],
    .ofSql "DELETE FROM orders WHERE total between $1 and $1" [.int 5, .null],
    .ofSql "SELECT id FROM orders WHERE total BETWEEN $2 AND $1"
      [.int 12, .float (.finite false 5 (-1))]]

theorem swappedRanges_covered :
    (∀ q ∈ swappedRanges, q.IsFound) ∧ ∃ s a, addAll {} swappedRanges = .ok s ∧ s.result = .ok a ∧
      (∃ c ∈ a.conditions, c.key = (some "orders", "total")) ∧
      ∀ c ∈ a.conditions, c.key = (some "orders", "total") →
        c.operator = .between ∧
        Covers (clausesOf c) .between (conditionsOn swappedRanges (some "orders", "total")) ∧
        renderCondition c = .ok (Clause.joined c.column (clausesOf c)) := by
  have found : ∀ q ∈ swappedRanges, q.IsFound := by
    simp only [swappedRanges, List.forall_mem_cons]
    exact ⟨isFound_ofSql (by decide +kernel), isFound_ofSql (by decide +kernel),
      isFound_ofSql (by decide +kernel), List.forall_mem_nil _⟩
  have facts : (∀ q ∈ swappedRanges, ∀ c ∈ q.conditions, Keyed c) ∧
      (some "orders", "total") ∈ keysOf (history swappedRanges) ∧
      (∀ c ∈ conditionsOn swappedRanges (some "orders", "total"), c.operator = .between) ∧
      AllCells .number ((conditionsOn swappedRanges (some "orders", "total")).flatMap fixedValues) ∧
      ∀ v ∈ (conditionsOn swappedRanges (some "orders", "total")).flatMap fixedValues, v.isWritable := by
    unfold Keyed AllCells
    decide +kernel
  obtain ⟨keyed, known, agree, cells, writable⟩ := facts
  obtain ⟨s, collected, -⟩ := addAll_sound sound_nil keyed
  obtain ⟨a, result, present, covered, -⟩ := merged_condition_covers found collected known rfl agree cells
  refine ⟨found, s, a, collected, result, present, fun c member own => ?_⟩
  obtain ⟨operator, covers, rendered, shown⟩ := covered c member own
  exact ⟨operator, covers, rendered.whole fun v inside => writable v (shown inside)⟩

/-- A filter for the least number of too many digits. -/
def longNumber : List Statement :=
  [.ofSql "SELECT * FROM t WHERE a = $1" [.int (10 ^ 4300)]]

/-- All conditions agree and compare with a number, but nothing is rendered. -/
theorem longNumber_refused :
    (∀ q ∈ longNumber, q.IsFound) ∧
    (∀ c ∈ conditionsOn longNumber (some "t", "a"), c.operator = .equals) ∧
    AllCells .number ((conditionsOn longNumber (some "t", "a")).flatMap fixedValues) ∧
    ∃ s a, addAll {} longNumber = .ok s ∧ s.result = .ok a ∧
      a.conditions.map (fun c => (c.key, renderCondition c)) =
        [((some "t", "a"), .error .tooManyDigits)] ∧
      render a.conditions = .error .tooManyDigits := by
  have found : ∀ q ∈ longNumber, q.IsFound := by
    simp only [longNumber, List.forall_mem_cons]
    exact ⟨isFound_ofSql (by decide +kernel), List.forall_mem_nil _⟩
  have facts : (∀ c ∈ conditionsOn longNumber (some "t", "a"), c.operator = .equals) ∧
      AllCells .number ((conditionsOn longNumber (some "t", "a")).flatMap fixedValues) ∧
      ((addAll {} longNumber).toOption.bind fun s => s.result.toOption).map (fun a =>
        (a.conditions.map fun c => (c.key, renderCondition c), render a.conditions)) =
          some ([((some "t", "a"), .error .tooManyDigits)], .error .tooManyDigits) := by
    unfold AllCells
    decide +kernel
  obtain ⟨agree, cells, told⟩ := facts
  obtain ⟨a, run, told⟩ := Option.map_eq_some_iff.mp told
  obtain ⟨s, collected, result⟩ := Option.bind_eq_some_iff.mp run
  obtain ⟨alone, all⟩ := Prod.mk.inj told
  exact ⟨found, agree, cells, s, a, toOption_eq_some_iff.mp collected, toOption_eq_some_iff.mp result,
    alone, all⟩

end QueryHarvest.Session
