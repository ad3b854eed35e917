import QueryHarvest.Proofs.Distinct
import QueryHarvest.Proofs.Outcome
import QueryHarvest.Proofs.Value.Merging
import QueryHarvest.Session.Aggregate

/-! # What a session comes to

A session is collected statement by statement. What it comes to can be told from the whole history at
once: the tables that occur, and one condition for every key with the operator of the first condition
on it and the values of all of them.
-/

namespace QueryHarvest.Session

open Sql

/-- What one statement brings to a session. -/
structure Statement where
  tables : List String
  conditions : List Condition

/-- Add statements in turn, up to the first that fails. -/
def addAll (s : Session) : List Statement → Except KeyError Session
  | [] => .ok s
  | q :: rest =>
    match (s.add q.tables q.conditions).error with
    | some error => .error error
    | none => addAll (s.add q.tables q.conditions).session rest

/-- A key: the table that a condition filters, if there is one, and the column. -/
abbrev Key := Option String × String

/-- The conditions of a session in order, each on the table that it filters: its own, or else the first
table of its statement. -/
def history (statements : List Statement) : List Condition :=
  statements.flatMap fun q => q.conditions.map fun c => c.withTable (c.table.or q.tables.head?)

/-- The keys of some conditions, in the order of their first appearance. -/
def keysOf (conditions : List Condition) : List Key :=
  (conditions.map Condition.key).eraseDups

/-- The operator of the first condition on a key. -/
def firstOperator? (conditions : List Condition) (key : Key) : Option Operator :=
  (conditions.find? (·.key == key)).map (·.operator)

/-- The fixed values of all conditions on a key. -/
def valuesOn (conditions : List Condition) (key : Key) : List Value :=
  (conditions.filter (·.key == key)).flatMap fun c => c.values.map Value.freeze

/-- An analysis says of a session all that there is to say: every table once and in order, the number
of statements, and for every key in the order of its first appearance the operator that came first and
all values, without those that an earlier one merges with, in order. A null check has no values. -/
structure Analysis.Summarizes (a : Analysis) (statements : List Statement) : Prop where
  tables_sorted : a.tables.Pairwise (· < ·)
  mem_tables : ∀ table, table ∈ a.tables ↔ ∃ q ∈ statements, table ∈ q.tables
  queryCount : a.queryCount = statements.length
  keys : a.conditions.map Condition.key = keysOf (history statements)
  operators : ∀ c ∈ a.conditions, firstOperator? (history statements) c.key = some c.operator
  null_values : ∀ c ∈ a.conditions, c.operator.isNullCheck → c.values = []
  values_perm : ∀ c ∈ a.conditions, ¬ c.operator.isNullCheck →
    c.values.Perm (Value.firstOfEach [] (valuesOn (history statements) c.key))
  values_sorted : ∀ c ∈ a.conditions, c.values.Pairwise (Value.before · ·)

/-- The entry of a key that some conditions come to. -/
def entryOn (conditions : List Condition) (key : Key) : Entry :=
  let operator := (firstOperator? conditions key).getD .equals
  ⟨key.1, key.2, operator,
    if operator.isNullCheck then [] else Value.firstOfEach [] (valuesOn conditions key)⟩

/-- The entry of a key that some conditions come to, if one of them is on it. -/
def entryOn? (conditions : List Condition) (key : Key) : Option Entry :=
  if key ∈ keysOf conditions then some (entryOn conditions key) else none

/-- The entries that some conditions come to. -/
def entriesOf (conditions : List Condition) : List Entry :=
  (keysOf conditions).map (entryOn conditions)

theorem holds_iff {key : Key} {e : Entry} : e.holds key ↔ (e.table, e.column) = key := by
  simp [Entry.holds, Prod.ext_iff]

@[simp] theorem holds_entryOn {conditions : List Condition} {key other : Key} :
    (entryOn conditions key).holds other ↔ key = other := holds_iff

theorem values_entryOn (conditions : List Condition) (key : Key) :
    (entryOn conditions key).values = if (entryOn conditions key).operator.isNullCheck then []
      else Value.firstOfEach [] (valuesOn conditions key) := rfl

@[simp] theorem mem_keysOf {conditions : List Condition} {key : Key} :
    key ∈ keysOf conditions ↔ ∃ c ∈ conditions, c.key = key := by
  simp [keysOf]

@[simp] theorem keysOf_append (conditions : List Condition) (c : Condition) :
    keysOf (conditions ++ [c]) =
      if c.key ∈ keysOf conditions then keysOf conditions else keysOf conditions ++ [c.key] := by
  simp only [keysOf, List.map_append, List.map_cons, List.map_nil, List.mem_eraseDups]
  exact eraseDups_concat _ _

@[simp] theorem firstOperator?_append (conditions : List Condition) (c : Condition) (key : Key) :
    firstOperator? (conditions ++ [c]) key =
      (firstOperator? conditions key).or (if c.key = key then some c.operator else none) := by
  simp only [firstOperator?, List.find?_append, Option.map_or]
  by_cases h : c.key = key <;> simp [h]

@[simp] theorem firstOperator?_isSome {conditions : List Condition} {key : Key} :
    (firstOperator? conditions key).isSome ↔ key ∈ keysOf conditions := by
  simp [firstOperator?]

@[simp] theorem valuesOn_append (conditions : List Condition) (c : Condition) (key : Key) :
    valuesOn (conditions ++ [c]) key =
      valuesOn conditions key ++ if c.key = key then c.values.map Value.freeze else [] := by
  simp only [valuesOn, List.filter_append, List.flatMap_append]
  by_cases h : c.key = key <;> simp [h]

theorem find_entryOn {s : Session} {conditions : List Condition} (hs : s.entries = entriesOf conditions)
    (key : Key) : s.entry? key = entryOn? conditions key := by
  unfold entry? entryOn?
  simp only [hs, entriesOf, List.find?_map]
  split
  · next known =>
      have present : ∃ other ∈ keysOf conditions, (Entry.holds key ∘ entryOn conditions) other :=
        ⟨key, known, holds_entryOn.mpr rfl⟩
      obtain ⟨other, found⟩ := Option.isSome_iff_exists.mp (List.find?_isSome.mpr present)
      have fits : (Entry.holds key ∘ entryOn conditions) other := List.find?_some found
      rw [found, ← holds_entryOn.mp fits]
      rfl
  · next unknown =>
      have missed : (keysOf conditions).find? (Entry.holds key ∘ entryOn conditions) = none := by
        refine List.find?_eq_none.mpr fun other member => ?_
        rw [Function.comp_apply, holds_entryOn]
        exact fun same => unknown (same ▸ member)
      rw [missed]
      rfl

theorem entryOn_append_of_ne {conditions : List Condition} {c : Condition} {key : Key}
    (h : c.key ≠ key) : entryOn (conditions ++ [c]) key = entryOn conditions key := by
  simp [entryOn, h]

theorem entryOn_append_known {conditions : List Condition} {c : Condition}
    (known : c.key ∈ keysOf conditions) :
    entryOn (conditions ++ [c]) c.key =
      { entryOn conditions c.key with
        values := if (entryOn conditions c.key).operator.isNullCheck then []
          else Value.firstOfEach [] (valuesOn conditions c.key ++ c.values.map Value.freeze) } := by
  obtain ⟨operator, first⟩ := Option.isSome_iff_exists.mp (firstOperator?_isSome.mpr known)
  simp [entryOn, first]

theorem entryOn_append_unknown {conditions : List Condition} {c : Condition}
    (unknown : c.key ∉ keysOf conditions) :
    entryOn (conditions ++ [c]) c.key =
      ⟨c.table, c.column, c.operator,
        if c.operator.isNullCheck then [] else Value.firstOfEach [] (c.values.map Value.freeze)⟩ := by
  have noOperator : firstOperator? conditions c.key = none := by
    rw [← Option.not_isSome_iff_eq_none, firstOperator?_isSome]
    exact unknown
  have noValues : valuesOn conditions c.key = [] := by
    have none : conditions.filter (·.key == c.key) = [] := by
      simpa using unknown
    rw [valuesOn, none, List.flatMap_nil]
  simp only [entryOn, firstOperator?_append, valuesOn_append, noOperator, noValues, if_pos,
    Option.none_or, Option.getD_some, List.nil_append]
  rfl

theorem entriesOf_append_known {conditions : List Condition} {c : Condition}
    (known : c.key ∈ keysOf conditions) :
    entriesOf (conditions ++ [c]) = (entriesOf conditions).map fun e =>
      if e.holds c.key then entryOn (conditions ++ [c]) c.key else e := by
  simp only [entriesOf, keysOf_append, if_pos known, List.map_map]
  refine List.map_congr_left fun key member => ?_
  by_cases here : c.key = key
  · subst here
    simp
  · simp [Ne.symm here, entryOn_append_of_ne here]

theorem entriesOf_append_unknown {conditions : List Condition} {c : Condition}
    (unknown : c.key ∉ keysOf conditions) :
    entriesOf (conditions ++ [c]) =
      entriesOf conditions ++ [entryOn (conditions ++ [c]) c.key] := by
  simp only [entriesOf, keysOf_append, if_neg unknown, List.map_append, List.map_cons, List.map_nil]
  congr 1
  exact List.map_congr_left fun key member =>
    entryOn_append_of_ne fun same => unknown (same ▸ member)

/-- An entry of a history that holds a key is the one of that key. -/
theorem eq_entryOn_of_holds {conditions : List Condition} {key : Key} {e : Entry}
    (member : e ∈ entriesOf conditions) (holds : e.holds key) : e = entryOn conditions key := by
  obtain ⟨other, _, rfl⟩ := List.mem_map.mp member
  rw [holds_entryOn.mp holds]

theorem addValue_firstOfEach {old : List Value} (hold : ∀ v ∈ old, v.isOrderable) {v : Value}
    (hv : v.isOrderable) :
    addValue (Value.firstOfEach [] old) v = Value.firstOfEach [] (old ++ [v]) := by
  simp only [addValue, Value.any_merges_firstOfEach hold hv, Value.firstOfEach_append,
    Value.firstOfEach, List.nil_append]
  split <;> simp

theorem addValues_firstOfEach {old values : List Value} (hold : ∀ v ∈ old, v.isOrderable)
    (hvalues : ∀ v ∈ values, v.freeze.isOrderable) :
    addValues (Value.firstOfEach [] old) values =
      (Value.firstOfEach [] (old ++ values.map Value.freeze), none) := by
  induction values generalizing old with
  | nil => simp [addValues]
  | cons v rest ih =>
      have hv : v.freeze.isOrderable := hvalues v (List.mem_cons_self ..)
      have hnext : ∀ w ∈ old ++ [v.freeze], w.isOrderable := by
        intro w hw
        rcases List.mem_append.mp hw with hw | hw
        · exact hold w hw
        · exact List.mem_singleton.mp hw ▸ hv
      simp only [addValues, Value.keyError?_eq_none hv, addValue_firstOfEach hold hv]
      rw [ih hnext fun w hw => hvalues w (List.mem_cons_of_mem _ hw)]
      simp

theorem isOrderable_of_mem_valuesOn {conditions : List Condition} {key : Key}
    (h : ∀ c ∈ conditions, ∀ v ∈ c.values, v.freeze.isOrderable) : ∀ v ∈ valuesOn conditions key, v.isOrderable := by
  intro v hv
  obtain ⟨c, hc, hv⟩ := List.mem_flatMap.mp hv
  obtain ⟨u, hu, rfl⟩ := List.mem_map.mp hv
  exact h c (List.mem_filter.mp hc).1 u hu

/-- The entry that a condition on a new key opens. -/
def newEntry (c : Condition) : Entry := ⟨c.table, c.column, c.operator, []⟩

/-- The entry that a condition goes to. -/
def entryOf (s : Session) (c : Condition) : Entry := (s.entry? c.key).getD (newEntry c)

/-- The session with an entry for the key of a condition. -/
def withEntry (s : Session) (c : Condition) : Session :=
  if (s.entry? c.key).isSome then s else { s with entries := s.entries ++ [newEntry c] }

theorem session_addCondition (s : Session) (c : Condition) :
    (s.addCondition c).session = if (s.entryOf c).operator.isNullCheck then s.withEntry c
      else (s.withEntry c).setValues c.key (addValues (s.entryOf c).values c.values).1 := by
  rw [addCondition, entryOf, withEntry]
  cases s.entry? c.key <;> dsimp only <;> split <;> simp_all [newEntry]

theorem error_addCondition (s : Session) (c : Condition) :
    (s.addCondition c).error = if (s.entryOf c).operator.isNullCheck then none
      else (addValues (s.entryOf c).values c.values).2 := by
  rw [addCondition, entryOf]
  cases s.entry? c.key <;> dsimp only <;> split <;> simp_all [newEntry]

/-- Adding one condition brings the entries of the history before it to those of the history with it. -/
theorem addCondition_entries {s : Session} {conditions : List Condition} {c : Condition}
    (hs : s.entries = entriesOf conditions) (hold : ∀ d ∈ conditions, ∀ v ∈ d.values, v.freeze.isOrderable)
    (hc : ∀ v ∈ c.values, v.freeze.isOrderable) :
    (s.addCondition c).error = none ∧
      (s.addCondition c).session = { s with entries := entriesOf (conditions ++ [c]) } := by
  have orderable : ∀ v ∈ valuesOn conditions c.key, v.isOrderable :=
    isOrderable_of_mem_valuesOn hold
  by_cases known : c.key ∈ keysOf conditions
  · have grown := entryOn_append_known known
    simp only [addCondition, find_entryOn hs, entryOn?, if_pos known]
    by_cases nullCheck : (entryOn conditions c.key).operator.isNullCheck
    · -- a null check has no values before and none after
      have unchanged : entryOn (conditions ++ [c]) c.key = entryOn conditions c.key := by
        rw [grown, if_pos nullCheck]
        simp only [entryOn] at nullCheck ⊢
        rw [if_pos nullCheck]
      have same : entriesOf (conditions ++ [c]) = s.entries := by
        rw [entriesOf_append_known known, hs, unchanged]
        refine (List.map_congr_left fun e member => ?_).trans (List.map_id _)
        split
        · next holds => exact (eq_entryOn_of_holds member holds).symm
        · rfl
      simp [nullCheck, same]
    · have kept : (entryOn conditions c.key).values =
          Value.firstOfEach [] (valuesOn conditions c.key) := by
        rw [values_entryOn, if_neg nullCheck]
      have changed : (s.setValues c.key (Value.firstOfEach []
          (valuesOn conditions c.key ++ c.values.map Value.freeze))).entries =
            entriesOf (conditions ++ [c]) := by
        rw [entriesOf_append_known known, setValues, hs]
        refine List.map_congr_left fun e member => ?_
        split
        · next holds => rw [grown, if_neg nullCheck, ← eq_entryOn_of_holds member holds]
        · rfl
      simp only [nullCheck, kept, addValues_firstOfEach orderable hc, ← changed]
      exact ⟨rfl, rfl⟩
  · simp only [addCondition, find_entryOn hs, entryOn?, if_neg known, entriesOf_append_unknown known]
    by_cases nullCheck : c.operator.isNullCheck
    · simp [nullCheck, hs, entryOn_append_unknown known]
    · have first : addValues [] c.values =
          (Value.firstOfEach [] (c.values.map Value.freeze), none) :=
        @addValues_firstOfEach [] c.values (by simp) hc
      have apart : ∀ e ∈ entriesOf conditions, (if e.holds c.key then
          { e with values := Value.firstOfEach [] (c.values.map Value.freeze) } else e) = e := by
        intro e member
        refine if_neg fun holds => known ?_
        obtain ⟨other, old, rfl⟩ := List.mem_map.mp member
        exact holds_entryOn.mp holds ▸ old
      have own : Entry.holds c.key ⟨c.table, c.column, c.operator, []⟩ := holds_iff.mpr rfl
      simp only [nullCheck, first, setValues, hs, List.map_append, List.map_congr_left apart,
        List.map_id', List.map_cons, List.map_nil, own, entryOn_append_unknown known]
      exact ⟨rfl, rfl⟩

theorem addConditions_entries {s : Session} {conditions more : List Condition}
    (hs : s.entries = entriesOf conditions) (hold : ∀ c ∈ conditions, ∀ v ∈ c.values, v.freeze.isOrderable)
    (hmore : ∀ c ∈ more, ∀ v ∈ c.values, v.freeze.isOrderable) :
    (s.addConditions more).error = none ∧
      (s.addConditions more).session = { s with entries := entriesOf (conditions ++ more) } := by
  induction more generalizing s conditions with
  | nil => simp [addConditions, ← hs]
  | cons c rest ih =>
      obtain ⟨noError, added⟩ := addCondition_entries hs hold (hmore c (List.mem_cons_self ..))
      have hnext : ∀ d ∈ conditions ++ [c], ∀ v ∈ d.values, v.freeze.isOrderable := by
        intro d hd
        rcases List.mem_append.mp hd with hd | hd
        · exact hold d hd
        · exact List.mem_singleton.mp hd ▸ hmore c (List.mem_cons_self ..)
      obtain ⟨noLaterError, later⟩ := ih (s := (s.addCondition c).session) (by rw [added]) hnext
        fun d hd => hmore d (List.mem_cons_of_mem _ hd)
      simp only [addConditions, noError]
      refine ⟨noLaterError, later.trans ?_⟩
      rw [added, List.append_assoc]
      rfl

theorem settle_eq (first : Option String) (c : Condition) :
    settle first c = c.withTable (c.table.or first) := by
  cases c with
  | mk table column operator values fits => cases table <;> rfl

/-- The conditions of a statement are added as its history. -/
theorem settled_conditions (q : Statement) :
    q.conditions.map (settle q.tables.head?) = history [q] := by
  simp only [history, List.flatMap_singleton]
  exact List.map_congr_left fun c _ => settle_eq _ c

@[simp] theorem history_append (statements more : List Statement) :
    history (statements ++ more) = history statements ++ history more := by
  simp only [history, List.flatMap_append]

@[simp] theorem mem_addTables (tables more : List String) (table : String) :
    table ∈ more.foldl addTable tables ↔ table ∈ tables ∨ table ∈ more := by
  induction more generalizing tables with
  | nil => simp
  | cons other rest ih =>
      rw [List.foldl_cons, ih]
      by_cases known : other ∈ tables
      · simp only [addTable, List.contains_eq_mem, known, decide_true, if_true, List.mem_cons]
        grind
      · simp only [addTable, List.contains_eq_mem, known, decide_false, Bool.false_eq_true, if_false,
          List.mem_append, List.mem_cons, List.not_mem_nil, false_or, or_assoc]

theorem nodup_addTables {tables : List String} (more : List String) (h : tables.Nodup) :
    (more.foldl addTable tables).Nodup := by
  induction more generalizing tables with
  | nil => exact h
  | cons other rest ih =>
      refine ih ?_
      simp only [addTable, List.contains_eq_mem]
      split
      · exact h
      · next unknown =>
          refine List.nodup_append.mpr ⟨h, by simp, ?_⟩
          rintro a ha b hb rfl
          simp [List.mem_singleton.mp hb ▸ ha] at unknown

/-- What has been collected when some statements have been added. -/
structure Collects (s : Session) (statements : List Statement) : Prop where
  entries : s.entries = entriesOf (history statements)
  tables_nodup : s.tables.Nodup
  mem_tables : ∀ table, table ∈ s.tables ↔ ∃ q ∈ statements, table ∈ q.tables
  queryCount : s.queryCount = statements.length

theorem collects_nil : Collects {} [] where
  entries := rfl
  tables_nodup := .nil
  mem_tables := by simp
  queryCount := rfl

/-- Once fixed, the values of all conditions of some statements are orderable. -/
def OrderableValues (statements : List Statement) : Prop :=
  ∀ q ∈ statements, ∀ c ∈ q.conditions, ∀ v ∈ c.values, v.freeze.isOrderable

theorem orderable_history {statements : List Statement} (h : OrderableValues statements) :
    ∀ c ∈ history statements, ∀ v ∈ c.values, v.freeze.isOrderable := by
  intro c hc
  obtain ⟨q, hq, hc⟩ := List.mem_flatMap.mp hc
  obtain ⟨d, hd, rfl⟩ := List.mem_map.mp hc
  exact h q hq d hd

theorem collects_add {s : Session} {before : List Statement} {q : Statement}
    (hs : Collects s before) (hbefore : OrderableValues before) (hq : OrderableValues [q]) :
    (s.add q.tables q.conditions).error = none ∧
      Collects (s.add q.tables q.conditions).session (before ++ [q]) := by
  obtain ⟨noError, added⟩ := addConditions_entries
    (s := { s with queryCount := s.queryCount + 1, tables := q.tables.foldl addTable s.tables })
    hs.entries (orderable_history hbefore) (orderable_history hq)
  simp only [add, settled_conditions, noError, added, ← history_append, true_and]
  exact
    { entries := rfl
      tables_nodup := nodup_addTables _ hs.tables_nodup
      mem_tables := by
        intro table
        simp [hs.mem_tables, or_and_right, exists_or]
      queryCount := by simp [hs.queryCount] }

theorem addAll_collects {s : Session} {before rest : List Statement} (hs : Collects s before)
    (hbefore : OrderableValues before) (hrest : OrderableValues rest) :
    ∃ s', addAll s rest = .ok s' ∧ Collects s' (before ++ rest) := by
  induction rest generalizing s before with
  | nil => exact ⟨s, rfl, by simpa using hs⟩
  | cons q rest ih =>
      have hq : OrderableValues [q] := by
        intro p hp
        exact hrest p (List.mem_singleton.mp hp ▸ List.mem_cons_self ..)
      obtain ⟨noError, collected⟩ := collects_add hs hbefore hq
      have hnext : OrderableValues (before ++ [q]) := by
        intro p hp
        exact (List.mem_append.mp hp).elim (hbefore p) (hq p)
      obtain ⟨s', run, total⟩ := ih collected hnext fun p hp => hrest p (List.mem_cons_of_mem _ hp)
      refine ⟨s', ?_, by simpa using total⟩
      simp only [addAll, noError, run]

/-- A key whose first condition is no null check has values. -/
theorem valuesOn_ne_nil {conditions : List Condition} {key : Key} {operator : Operator}
    (first : firstOperator? conditions key = some operator) (valued : ¬ operator.isNullCheck) :
    valuesOn conditions key ≠ [] := by
  obtain ⟨c, found, rfl⟩ := Option.map_eq_some_iff.mp first
  have filled : c.values ≠ [] := by
    have fits := c.values_isEmpty
    simp only [Bool.not_eq_true] at valued
    rw [valued] at fits
    simpa using fits
  simp only [valuesOn, ne_eq, List.flatMap_eq_nil_iff, List.map_eq_nil_iff, List.mem_filter,
    and_imp, not_forall]
  exact ⟨c, List.mem_of_find?_eq_some found, by simpa using List.find?_some found, filled⟩

/-- A condition says what an entry does, with the values in order. -/
structure States (e : Entry) (c : Condition) : Prop where
  key : c.key = (e.table, e.column)
  operator : c.operator = e.operator
  values : c.values = Value.sort e.values

theorem states_of_make {e : Entry} {c : Condition}
    (h : Condition.make e.table e.column e.operator (Value.sort e.values) = .ok c) : States e c := by
  unfold Condition.make at h
  split at h
  · cases h
    exact ⟨rfl, rfl, rfl⟩
  · contradiction

/-- An entry makes a condition if its values are there exactly when its operator wants some. -/
theorem exists_make {e : Entry} (fits : e.values.isEmpty = e.operator.isNullCheck) :
    ∃ c, Condition.make e.table e.column e.operator (Value.sort e.values) = .ok c :=
  ⟨_, dif_pos ((Value.sort_perm e.values).isEmpty_eq.trans fits)⟩

/-- Every entry of a history makes a condition. -/
theorem make_ok {conditions : List Condition} {e : Entry} (member : e ∈ entriesOf conditions) :
    ∃ c, Condition.make e.table e.column e.operator (Value.sort e.values) = .ok c := by
  obtain ⟨key, known, rfl⟩ := List.mem_map.mp member
  obtain ⟨operator, first⟩ := Option.isSome_iff_exists.mp (firstOperator?_isSome.mpr known)
  refine exists_make ?_
  simp only [entryOn, first, Option.getD_some]
  by_cases nullCheck : operator.isNullCheck
  · simp [nullCheck]
  · have filled := Value.firstOfEach_ne_nil (valuesOn_ne_nil first nullCheck)
    rw [if_neg nullCheck, Bool.eq_false_iff.mpr nullCheck]
    exact List.isEmpty_eq_false_iff.mpr filled

/-- Every condition that was made states the entry of its key. -/
theorem states_own_entry {history conditions : List Condition}
    (states : List.Forall₂ States (entriesOf history) conditions) {c : Condition}
    (member : c ∈ conditions) : c.key ∈ keysOf history ∧ States (entryOn history c.key) c := by
  obtain ⟨e, he, stated⟩ := exists_left_of_forall₂ states member
  obtain ⟨key, known, rfl⟩ := List.mem_map.mp he
  have own : c.key = key := stated.key
  rw [own]
  exact ⟨known, stated⟩

theorem keys_of_states {history conditions : List Condition}
    (states : List.Forall₂ States (entriesOf history) conditions) :
    conditions.map Condition.key = keysOf history := by
  rw [← map_eq_of_forall₂ (states.imp fun _ _ stated => stated.key.symm), entriesOf, List.map_map]
  exact List.map_id _

theorem tables_pairwise {tables : List String} (h : tables.Nodup) :
    (tables.mergeSort fun a b => a ≤ b).Pairwise (· < ·) := by
  have trans : ∀ a b c : String, decide (a ≤ b) → decide (b ≤ c) → decide (a ≤ c) := by
    simp only [decide_eq_true_eq]
    exact fun a b c => String.le_trans
  have total : ∀ a b : String, decide (a ≤ b) || decide (b ≤ a) := by
    simpa using String.le_total
  have sorted := List.pairwise_mergeSort trans total tables
  have distinct := (tables.mergeSort_perm fun a b => a ≤ b).nodup_iff.mpr h
  refine (sorted.and distinct).imp ?_
  intro a b ⟨atMost, differ⟩
  exact lt_of_le_of_ne (by simpa using atMost) differ

theorem result_summarizes {s : Session} {statements : List Statement} (hs : Collects s statements)
    (hvalues : OrderableValues statements) : ∃ a, s.result = .ok a ∧ a.Summarizes statements := by
  have fixed := orderable_history hvalues
  obtain ⟨conditions, made⟩ := exists_mapM_ok fun e (member : e ∈ s.entries) =>
    make_ok (hs.entries ▸ member)
  have states : List.Forall₂ States (entriesOf (history statements)) conditions := by
    rw [← hs.entries]
    exact (mapM_eq_ok_iff.mp made).imp fun _ _ => states_of_make
  have orderable : ∀ key, ∀ v ∈ Value.firstOfEach [] (valuesOn (history statements) key),
      v.isOrderable := fun key v hv =>
    isOrderable_of_mem_valuesOn fixed v ((Value.firstOfEach_sublist _ _).subset hv)
  have operators : ∀ c ∈ conditions,
      firstOperator? (history statements) c.key = some c.operator := by
    intro c member
    obtain ⟨known, stated⟩ := states_own_entry states member
    obtain ⟨operator, first⟩ := Option.isSome_iff_exists.mp (firstOperator?_isSome.mpr known)
    rw [stated.operator]
    simp only [entryOn, first, Option.getD_some]
  have values : ∀ c ∈ conditions, c.values = if c.operator.isNullCheck then [] else
      Value.sort (Value.firstOfEach [] (valuesOn (history statements) c.key)) := by
    intro c member
    obtain ⟨_, stated⟩ := states_own_entry states member
    rw [stated.values, stated.operator, values_entryOn]
    split <;> simp
  refine ⟨_, by simp only [result, made]; rfl, ?_⟩
  exact
    { tables_sorted := tables_pairwise hs.tables_nodup
      mem_tables := by simpa using hs.mem_tables
      queryCount := hs.queryCount
      keys := keys_of_states states
      operators := operators
      null_values := fun c member nullCheck => by rw [values c member, if_pos nullCheck]
      values_perm := fun c member valued => by
        rw [values c member, if_neg valued]
        exact Value.sort_perm _
      values_sorted := fun c member => by
        rw [values c member]
        split
        · exact .nil
        · exact Value.sort_pairwise (orderable c.key)
            (Value.nodup_sortKey_firstOfEach (isOrderable_of_mem_valuesOn fixed)) }

/-- Statements whose values are plain can be collected, however many there are and whatever their
order, and what they come to sums them up. -/
theorem collected_session_summarized (statements : List Statement)
    (hplain : ∀ q ∈ statements, ∀ c ∈ q.conditions, ∀ v ∈ c.values, v.isPlain) :
    ∃ s a, addAll {} statements = .ok s ∧ s.result = .ok a ∧ a.Summarizes statements := by
  have hvalues : OrderableValues statements := fun q hq c hc v hv =>
    Value.isOrderable_freeze (hplain q hq c hc v hv)
  obtain ⟨s, run, collected⟩ := addAll_collects collects_nil (by simp [OrderableValues]) hvalues
  obtain ⟨a, result, summary⟩ := result_summarizes collected hvalues
  exact ⟨s, a, run, result, summary⟩

/-- Three statements on two keys, with values of many kinds and a null check that comes too late. -/
def mixedStatements : List Statement :=
  [⟨["users", "orders"], [⟨none, "id", .equals, [.int 42], rfl⟩,
      ⟨some "orders", "note", .isIn, [.text "b", .null, .object [("k", .bool true)]], rfl⟩]⟩,
    ⟨["orders"], [⟨some "users", "id", .anyOf, [.bool true, .int 7, .float (.finite false 42 0),
      .list [.int 1, .tuple [.null]]], rfl⟩, ⟨none, "note", .isNull, [], rfl⟩]⟩,
    ⟨[], [⟨none, "id", .compares .atMost, [.int (-1)], rfl⟩]⟩]

theorem mixedStatements_summarized :
    (∀ q ∈ mixedStatements, ∀ c ∈ q.conditions, ∀ v ∈ c.values, v.isPlain) ∧
      ∃ s a, addAll {} mixedStatements = .ok s ∧ s.result = .ok a ∧
        a.Summarizes mixedStatements :=
  ⟨by decide +kernel, collected_session_summarized mixedStatements (by decide +kernel)⟩

end QueryHarvest.Session
