import QueryHarvest.Proofs.Capture.Parameters
import QueryHarvest.Proofs.Session.Summary
import QueryHarvest.Proofs.Sql.Provenance
import QueryHarvest.Session.Analysis

/-! # How the analysis of a session ends

Values of the kinds that JSON has are collected and sorted without an error, whatever their order is.
So only the search of a statement can keep a session from its analysis, and it does so at the first
statement in which it fails.
-/

namespace QueryHarvest.Session

open Sql Capture

/-- Once they are fixed, the values of the condition serve as keys. -/
def Keyed (c : Condition) : Prop :=
  ∀ v ∈ c.values, v.freeze.keyError? = none

@[simp] theorem isEmpty_addValue (values : List Value) (value : Value) :
    (addValue values value).isEmpty = false := by
  rw [addValue]
  split
  · next merged =>
    obtain ⟨w, member, -⟩ := List.any_eq_true.mp merged
    exact List.isEmpty_eq_false_iff.mpr (List.ne_nil_of_mem member)
  · simp

theorem addValues_keyed (old : List Value) {values : List Value}
    (h : ∀ v ∈ values, v.freeze.keyError? = none) : (addValues old values).2 = none := by
  induction values generalizing old with
  | nil => rfl
  | cons v rest ih =>
      simp only [addValues, h v (List.mem_cons_self ..)]
      exact ih _ fun w member => h w (List.mem_cons_of_mem _ member)

/-- Where no value is refused, some are there unless none were given. -/
theorem isEmpty_addValues {old values : List Value} (taken : (addValues old values).2 = none) :
    (addValues old values).1.isEmpty = (old.isEmpty && values.isEmpty) := by
  induction values generalizing old with
  | nil => simp [addValues]
  | cons v rest ih =>
      cases refused : v.freeze.keyError? with
      | some error => simp [addValues, refused] at taken
      | none =>
          simp only [addValues, refused] at taken ⊢
          rw [ih taken, isEmpty_addValue]
          simp

def Entry.key (e : Entry) : Key := (e.table, e.column)

/-- Every entry has a key of its own, and values exactly when its operator wants some. -/
structure Sound (s : Session) : Prop where
  distinct : (s.entries.map Entry.key).Nodup
  fits : ∀ e ∈ s.entries, e.values.isEmpty = e.operator.isNullCheck

theorem sound_nil : Sound {} :=
  ⟨.nil, List.forall_mem_nil _⟩

section

variable {s : Session} {c : Condition} {entry : Entry}

theorem entry?_eq_some {key : Key} (found : s.entry? key = some entry) :
    entry ∈ s.entries ∧ entry.holds key :=
  ⟨List.mem_of_find?_eq_some found, List.find?_some found⟩

/-- Entries with keys of their own are told apart by what they hold. -/
theorem eq_of_holds (distinct : (s.entries.map Entry.key).Nodup) {key : Key}
    {other : Entry} (member : entry ∈ s.entries) (member' : other ∈ s.entries)
    (holds : entry.holds key) (holds' : other.holds key) : other = entry :=
  List.inj_on_of_nodup_map distinct member' member
    ((holds_iff.mp holds').trans (holds_iff.mp holds).symm)

@[simp] theorem keys_setValues (s : Session) (key : Key) (values : List Value) :
    (s.setValues key values).entries.map Entry.key = s.entries.map Entry.key := by
  rw [setValues, List.map_map]
  refine List.map_congr_left fun e _ => ?_
  rw [Function.comp_apply]
  split <;> rfl

/-- Where one entry gets values that it wants, the session stays sound. -/
theorem setValues_sound {key : Key} {values : List Value}
    (distinct : (s.entries.map Entry.key).Nodup)
    (others : ∀ e ∈ s.entries, ¬ e.holds key → e.values.isEmpty = e.operator.isNullCheck)
    (own : ∀ e ∈ s.entries, e.holds key → values.isEmpty = e.operator.isNullCheck) :
    (s.setValues key values).Sound where
  distinct := (keys_setValues s key values).symm ▸ distinct
  fits e member := by
    obtain ⟨old, inside, rfl⟩ := List.mem_map.mp member
    split
    · next holds => exact own old inside holds
    · next other => exact others old inside other

theorem addCondition_keyed (s : Session) (hc : Keyed c) : (s.addCondition c).error = none := by
  rw [error_addCondition]
  split
  · rfl
  · exact addValues_keyed _ hc

/-- Opening an entry for the key of a condition makes that entry the only one with the key. -/
theorem withEntry_distinct (distinct : (s.entries.map Entry.key).Nodup) (c : Condition) :
    ((s.withEntry c).entries.map Entry.key).Nodup ∧
      (∀ e ∈ (s.withEntry c).entries, e.holds c.key → e = s.entryOf c) ∧
      ∀ e ∈ (s.withEntry c).entries, ¬ e.holds c.key → e ∈ s.entries := by
  rw [withEntry, entryOf]
  cases found : s.entry? c.key with
  | some entry =>
      obtain ⟨member, holds⟩ := entry?_eq_some found
      exact ⟨distinct, fun e inside holds' => eq_of_holds distinct member inside holds holds',
        fun e inside _ => inside⟩
  | none =>
      have free : ∀ e ∈ s.entries, ¬ e.holds c.key := List.find?_eq_none.mp found
      have cases {e : Entry} (inside : e ∈ s.entries ++ [newEntry c]) : e ∈ s.entries ∨ e = newEntry c :=
        (List.mem_append.mp inside).imp_right List.mem_singleton.mp
      simp only [Option.isSome_none, Bool.false_eq_true, if_false]
      refine ⟨?_, fun e inside holds => ?_, fun e inside other => ?_⟩
      · rw [List.map_append]
        refine List.nodup_append.mpr ⟨distinct, List.nodup_singleton _, ?_⟩
        rintro key old key' new rfl
        obtain ⟨e, member, same⟩ := List.mem_map.mp old
        exact free e member (holds_iff.mpr (same.trans (List.mem_singleton.mp new)))
      · exact (cases inside).resolve_left fun old => free e old holds
      · exact (cases inside).resolve_right fun new => other (new ▸ holds_iff.mpr rfl)

theorem entryOf_fits (hs : s.Sound) (c : Condition) :
    (s.entryOf c).values.isEmpty = (s.entryOf c).operator.isNullCheck ∨ s.entryOf c = newEntry c := by
  rw [entryOf]
  cases found : s.entry? c.key with
  | some entry => exact .inl (hs.fits entry (entry?_eq_some found).1)
  | none => exact .inr rfl

/-- A condition that is taken in leaves a sound session sound, whatever its values are. -/
theorem addCondition_taken (hs : s.Sound) (taken : (s.addCondition c).error = none) :
    (s.addCondition c).session.Sound := by
  obtain ⟨distinct, own, others⟩ := withEntry_distinct hs.distinct c
  have fits := entryOf_fits hs c
  rw [error_addCondition] at taken
  rw [session_addCondition]
  split
  · next nullCheck =>
    refine ⟨distinct, fun e member => ?_⟩
    by_cases holds : e.holds c.key
    · rw [own e member holds]
      rcases fits with fits | new
      · exact fits
      · rw [nullCheck, new]
        rfl
    · exact hs.fits e (others e member holds)
  · next valued =>
    rw [if_neg valued] at taken
    refine setValues_sound distinct (fun e member other => hs.fits e (others e member other)) ?_
    intro e member holds
    rw [own e member holds, isEmpty_addValues taken]
    rcases fits with fits | new
    · rw [fits, Bool.eq_false_iff.mpr valued, Bool.false_and]
    · rw [new, c.values_isEmpty]
      rfl

theorem addCondition_sound (hs : s.Sound) (hc : Keyed c) :
    (s.addCondition c).error = none ∧ (s.addCondition c).session.Sound :=
  ⟨addCondition_keyed s hc, addCondition_taken hs (addCondition_keyed s hc)⟩

theorem addConditions_sound (hs : s.Sound) {conditions : List Condition}
    (h : ∀ c ∈ conditions, Keyed c) :
    (s.addConditions conditions).error = none ∧ (s.addConditions conditions).session.Sound := by
  induction conditions generalizing s with
  | nil => exact ⟨rfl, hs⟩
  | cons c rest ih =>
      obtain ⟨noError, sound⟩ := addCondition_sound hs (h c (List.mem_cons_self ..))
      simp only [addConditions, noError]
      exact ih sound fun d member => h d (List.mem_cons_of_mem _ member)

theorem keyed_settled (first : Option String) {conditions : List Condition}
    (h : ∀ c ∈ conditions, Keyed c) : ∀ c ∈ conditions.map (settle first), Keyed c := by
  intro c member
  obtain ⟨found, inside, rfl⟩ := List.mem_map.mp member
  rw [settle_eq]
  exact h found inside

theorem add_sound (hs : s.Sound) (tables : List String) {conditions : List Condition}
    (h : ∀ c ∈ conditions, Keyed c) :
    (s.add tables conditions).error = none ∧ (s.add tables conditions).session.Sound := by
  have grown : Sound { s with
      queryCount := s.queryCount + 1, tables := tables.foldl addTable s.tables } := ⟨hs.distinct, hs.fits⟩
  exact addConditions_sound grown (keyed_settled _ h)

/-- Nothing keeps statements from being collected if their values serve as keys. -/
theorem addAll_sound {statements : List Statement} (hs : s.Sound)
    (h : ∀ q ∈ statements, ∀ c ∈ q.conditions, Keyed c) :
    ∃ after : Session, addAll s statements = .ok after ∧ after.Sound := by
  induction statements generalizing s with
  | nil => exact ⟨s, rfl, hs⟩
  | cons q rest ih =>
      obtain ⟨noError, sound⟩ := add_sound hs q.tables (h q (List.mem_cons_self ..))
      simp only [addAll, noError]
      exact ih sound fun other member => h other (List.mem_cons_of_mem _ member)

/-- The conditions of a result state the entries of the session one by one. -/
theorem result_states {a : Analysis} (h : s.result = .ok a) :
    List.Forall₂ States s.entries a.conditions := by
  obtain ⟨conditions, made, same⟩ := bind_eq_ok_iff.mp h
  cases same
  exact (mapM_eq_ok_iff.mp made).imp fun _ _ => states_of_make

/-- A sound session comes to a result, whatever the order of its values is. -/
theorem exists_result (hs : s.Sound) : ∃ a, s.result = .ok a := by
  obtain ⟨conditions, made⟩ := exists_mapM_ok fun e member => exists_make (hs.fits e member)
  exact ⟨_, by rw [result, made]; rfl⟩

end

/-- Why the statement of a record is not searched to its end. -/
def failure? (limit : Nat) (record : Record) : Option ExtractionError :=
  match analyzeQuery limit record.query record.parameters with
  | .ok _ => none
  | .error error => some error

theorem hasJsonKinds_of_drawn {parameters : List Value} (h : ∀ v ∈ parameters, v.hasJsonKinds)
    {v : Value} (drawn : Drawn parameters v) : v.hasJsonKinds := by
  cases drawn with
  | parameter member => exact h v member
  | item member holds inside =>
      have kinds := h _ member
      rcases holds with rfl | rfl
      · exact Value.haveJsonKinds_iff.mp kinds v inside
      · cases kinds
  | integer | text => rfl

/-- What is drawn from parameters that can be written can be written. -/
theorem isWritable_of_drawn {parameters : List Value} (h : ∀ v ∈ parameters, v.isWritable)
    {v : Value} (drawn : Drawn parameters v) : v.isWritable := by
  cases drawn with
  | parameter member => exact h v member
  | item member holds inside =>
      have writable := h _ member
      rcases holds with rfl | rfl <;> exact Value.areWritable_iff.mp writable v inside
  | integer short => exact Value.isWritable_int_iff.mpr short
  | text => rfl

section

variable {limit : Nat} {record : Record} {records : List Record} {s : Session}

theorem keyed_of_analyzeQuery (kinds : JsonParameters record) {tables : List String}
    {conditions : List Condition}
    (found : analyzeQuery limit record.query record.parameters = .ok (tables, conditions)) :
    ∀ c ∈ conditions, Keyed c := by
  rw [analyzeQuery] at found
  split at found
  · cases found
    exact List.forall_mem_nil _
  · obtain ⟨searched, read, same⟩ := bind_eq_ok_iff.mp found
    cases same
    intro c member v inside
    have drawn := drawn_of_conditions read c member v inside
    exact Value.keyError?_freeze (hasJsonKinds_of_drawn kinds drawn)

theorem addRecord_of_failure {error : ExtractionError} (failed : failure? limit record = some error)
    (s : Session) : (addRecord limit s record).value = .error (.extraction error) := by
  rw [failure?] at failed
  rw [addRecord]
  split at failed
  · cases failed
  · next stopped =>
    cases failed
    simp only [stopped]

theorem addRecord_sound (hs : s.Sound) (kinds : JsonParameters record)
    (searched : failure? limit record = none) :
    ∃ after : Session, (addRecord limit s record).value = .ok after ∧ after.Sound := by
  rw [failure?] at searched
  split at searched
  · next found ended =>
    obtain ⟨tables, conditions⟩ := found
    obtain ⟨noError, sound⟩ := add_sound hs tables (keyed_of_analyzeQuery kinds ended)
    exact ⟨_, by simp only [addRecord, ended, noError]; rfl, sound⟩
  · cases searched

/-- Records are added up to the first whose statement is not searched to its end. -/
theorem addRecords_ends (limit : Nat) (hs : s.Sound) (kinds : ∀ record ∈ records, JsonParameters record) :
    match records.findSome? (failure? limit) with
    | some error => (addRecords limit s records).value = .error (.extraction error)
    | none => ∃ after : Session, (addRecords limit s records).value = .ok after ∧ after.Sound := by
  induction records generalizing s with
  | nil => exact ⟨s, rfl, hs⟩
  | cons record rest ih =>
      rw [List.findSome?_cons]
      cases failed : failure? limit record with
      | some error =>
          have stopped := addRecord_of_failure failed s
          simp only [addRecords, stopped]
      | none =>
          obtain ⟨next, added, sound⟩ := addRecord_sound hs (kinds record (List.mem_cons_self ..)) failed
          simp only [addRecords, added]
          exact ih sound fun other member => kinds other (List.mem_cons_of_mem _ member)

/-- Records that were read from JSON are analysed unless the search of a statement fails. The first that
does so says why. -/
theorem analyze_ends (limit : Nat) (kinds : ∀ record ∈ records, JsonParameters record) :
    match records.findSome? (failure? limit) with
    | some error => (analyze limit records).value = .error (.extraction error)
    | none => ∃ a, (analyze limit records).value = .ok a := by
  have ends := addRecords_ends limit sound_nil kinds
  split at ends
  · simp only [analyze, ends]
  · obtain ⟨after, added, sound⟩ := ends
    obtain ⟨a, result⟩ := exists_result sound
    exact ⟨a, by simp only [analyze, added, result]⟩

end

end QueryHarvest.Session
