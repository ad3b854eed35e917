import QueryHarvest.Proofs.Session.Ending
import QueryHarvest.Proofs.Session.Rendering
import QueryHarvest.Proofs.Sql.Shapes
import QueryHarvest.Proofs.Sql.Tables

/-! # Where the parts of an analysis come from

The names in an analysis are written as identifiers in the statements, in whatever case. Its values are
those that the statements are given or hold, made fixed. None of them is too long to be written, so the
analysis of a log is always rendered.
-/

namespace QueryHarvest.Session

open Sql Capture Text

/-- The name is one of identifiers with points between them, in lower case. -/
def IsWrittenName (name : String) : Prop :=
  ∃ written, name = String.ofList (lower written) ∧ ∀ c ∈ written, c = '.' ∨ isIdentPart c

/-- The names of a key are written names, and the values are fixed ones of the kinds that JSON has, which
can be written. -/
structure Traced (key : Key) (values : List Value) : Prop where
  table : ∀ name ∈ key.1, IsWrittenName name
  column : IsWrittenName key.2
  values : ∀ v ∈ values, ∃ given : Value, given.IsRead ∧ v = given.freeze

/-- All that has been collected is traced. -/
def AllTraced (s : Session) : Prop :=
  ∀ e ∈ s.entries, Traced e.key e.values

/-- A mark that no name is written with stands in no name. -/
theorem IsWrittenName.unmarked {name : String} (h : IsWrittenName name) {mark : Char}
    (low : mark.toNat < 0x60) (visible : mark ≠ Char.ofNat 0) (apart : mark ≠ '.')
    (other : isIdentPart mark = false) : mark ∉ name.toList := by
  obtain ⟨written, rfl, parts⟩ := h
  rw [String.toList_ofList]
  intro member
  rcases parts mark (mem_of_mem_lower low visible member) with point | part
  · exact apart point
  · rw [part] at other
    contradiction

theorem isWrittenName_identifier {name : List Char} (h : isIdentifier name) :
    IsWrittenName (String.ofList (lower name)) :=
  ⟨name, rfl, fun c member => .inr (isIdentPart_of_mem h c member)⟩

theorem isWrittenName_of_mem_tables {statement name : String} (h : name ∈ Sql.tables statement) :
    IsWrittenName name := by
  obtain ⟨-, reference, first⟩ := (tables_exact statement).sound name h
  exact ⟨reference.name, first.table_eq.symm, first.stands.whole.part⟩

section

variable {limit : Nat} {record : Record} {tables : List String} {conditions : List Condition}

theorem traced_of_mem_conditions {statement : String} {parameters : List Value}
    (read : ∀ v ∈ parameters, v.IsRead)
    (found : Sql.conditions statement parameters = .ok conditions) :
    ∀ c ∈ conditions, Traced c.key (c.values.map Value.freeze) := by
  intro c member
  obtain ⟨f, matched, place, stated⟩ := condition?_of_mem_conditions found member
  obtain ⟨taken, rest, stands⟩ := stands_of_mem_predicatesIn place
  have named := (of_condition? stated).1
  rw [Predicate.columnName?] at named
  split at named
  · cases named
  rw [Option.some.injEq, ColumnName.mk.injEq] at named
  refine ⟨fun name qualified => ?_, ?_, fun v inside => ?_⟩
  · rw [Condition.key, ← named.1] at qualified
    obtain ⟨written, qualifier, rfl⟩ := Option.mem_map.mp qualified
    exact isWrittenName_identifier (stands.qualifier written qualifier)
  · rw [Condition.key, ← named.2]
    exact isWrittenName_identifier stands.column
  · obtain ⟨given, among, rfl⟩ := List.mem_map.mp inside
    have drawn := drawn_of_conditions found c member given among
    exact ⟨given, ⟨hasJsonKinds_of_drawn (fun v inside => (read v inside).kinds) drawn,
      isWritable_of_drawn (fun v inside => (read v inside).writable) drawn⟩, rfl⟩

theorem traced_of_analyzeQuery (parameters : ∀ v ∈ record.parameters, v.IsRead)
    (found : analyzeQuery limit record.query record.parameters = .ok (tables, conditions)) :
    (∀ name ∈ tables, IsWrittenName name) ∧
      ∀ c ∈ conditions, Traced c.key (c.values.map Value.freeze) := by
  rw [analyzeQuery] at found
  split at found
  · cases found
    exact ⟨List.forall_mem_nil _, List.forall_mem_nil _⟩
  · obtain ⟨searched, read, same⟩ := bind_eq_ok_iff.mp found
    cases same
    exact ⟨fun name => isWrittenName_of_mem_tables, traced_of_mem_conditions parameters read⟩

end

section

variable {s : Session} {c : Condition}

theorem allTraced_nil : AllTraced {} :=
  List.forall_mem_nil _

theorem mem_addValues {old values : List Value} {v : Value} (h : v ∈ (addValues old values).1) :
    v ∈ old ∨ v ∈ values.map Value.freeze := by
  induction values generalizing old with
  | nil => exact .inl h
  | cons first rest ih =>
      rw [addValues] at h
      split at h
      · exact .inl h
      · rw [List.map_cons, List.mem_cons]
        rcases ih h with before | later
        · rw [addValue] at before
          split at before
          · exact .inl before
          · exact (List.mem_append.mp before).imp_right fun here => .inl (List.mem_singleton.mp here)
        · exact .inr (.inr later)

theorem entryOf_traced (hs : AllTraced s) (hc : Traced c.key (c.values.map Value.freeze)) :
    Traced (s.entryOf c).key (s.entryOf c).values := by
  rw [entryOf]
  cases found : s.entry? c.key with
  | some entry => exact hs entry (entry?_eq_some found).1
  | none => exact ⟨hc.table, hc.column, List.forall_mem_nil _⟩

theorem withEntry_traced (hs : AllTraced s) (hc : Traced c.key (c.values.map Value.freeze)) :
    AllTraced (s.withEntry c) := by
  rw [withEntry]
  split
  · exact hs
  · intro e member
    rcases List.mem_append.mp member with old | new
    · exact hs e old
    · rw [List.mem_singleton.mp new]
      exact ⟨hc.table, hc.column, List.forall_mem_nil _⟩

theorem addCondition_traced (hs : AllTraced s) (hc : Traced c.key (c.values.map Value.freeze)) :
    AllTraced (s.addCondition c).session := by
  rw [session_addCondition]
  split
  · exact withEntry_traced hs hc
  · intro e member
    obtain ⟨old, inside, rfl⟩ := List.mem_map.mp member
    have before := withEntry_traced hs hc old inside
    split
    · refine ⟨before.table, before.column, fun v given => ?_⟩
      exact (mem_addValues given).elim ((entryOf_traced hs hc).values v) (hc.values v)
    · exact before

theorem addConditions_traced {conditions : List Condition} (hs : AllTraced s)
    (h : ∀ c ∈ conditions, Traced c.key (c.values.map Value.freeze)) :
    AllTraced (s.addConditions conditions).session := by
  induction conditions generalizing s with
  | nil => exact hs
  | cons c rest ih =>
      obtain ⟨first, others⟩ := List.forall_mem_cons.mp h
      have next := addCondition_traced hs first
      rw [addConditions]
      split
      · exact next
      · exact ih next others

theorem add_traced {tables : List String} {conditions : List Condition} (hs : AllTraced s)
    (names : ∀ name ∈ tables, IsWrittenName name)
    (h : ∀ c ∈ conditions, Traced c.key (c.values.map Value.freeze)) :
    AllTraced (s.add tables conditions).session := by
  refine addConditions_traced hs fun d member => ?_
  obtain ⟨c, inside, rfl⟩ := List.mem_map.mp member
  have found := h c inside
  rw [settle_eq]
  refine ⟨fun name given => ?_, found.column, found.values⟩
  rcases Option.or_eq_some_iff.mp given with own | ⟨-, first⟩
  · exact found.table name own
  · exact names name (List.mem_of_head? first)

theorem addRecord_traced {limit : Nat} {record : Record} {after : Session} (hs : AllTraced s)
    (read : ∀ v ∈ record.parameters, v.IsRead) (added : (addRecord limit s record).value = .ok after) :
    AllTraced after := by
  rw [addRecord] at added
  split at added
  · cases added
  · next tables conditions found =>
    obtain ⟨names, traced⟩ := traced_of_analyzeQuery read found
    cases ended : (s.add tables conditions).error with
    | some error => simp [ended] at added
    | none =>
        simp only [ended, Option.elim_none, Except.ok.injEq] at added
        exact added ▸ add_traced hs names traced

theorem addRecords_traced {limit : Nat} {records : List Record} {after : Session} (hs : AllTraced s)
    (read : ∀ record ∈ records, ∀ v ∈ record.parameters, v.IsRead)
    (added : (addRecords limit s records).value = .ok after) : AllTraced after := by
  induction records generalizing s with
  | nil =>
      cases added
      exact hs
  | cons record rest ih =>
      obtain ⟨first, others⟩ := List.forall_mem_cons.mp read
      rw [addRecords] at added
      split at added
      · cases added
      · next next_added => exact ih (addRecord_traced hs first next_added) others added

end

/-- The conditions of an analysis are traced, for whatever log the records are read from. -/
theorem traced_of_analyzeReading {limit : Nat} {files : Files.FileTree} {shown : String}
    {policy : MalformedPolicy} {a : Analysis}
    (analysed : (analyzeReading limit (readLog files shown policy)).value = .ok a) :
    ∀ c ∈ a.conditions, Traced c.key c.values := by
  rw [analyzeReading] at analysed
  split at analysed
  · cases analysed
  simp only [analyze] at analysed
  split at analysed
  · cases analysed
  next session added =>
    split at analysed
    · cases analysed
    next result =>
      cases analysed
      have traced := addRecords_traced allTraced_nil isRead_of_mem_readLog added
      intro c member
      obtain ⟨e, inside, states⟩ := exists_left_of_forall₂ (result_states result) member
      have entry := traced e inside
      rw [states.key, states.values]
      exact ⟨entry.table, entry.column,
        fun v given => entry.values v ((Value.sort_perm _).mem_iff.mp given)⟩

theorem Traced.isWritable {key : Key} {values : List Value} (h : Traced key values) :
    ∀ v ∈ values, v.isWritable := by
  intro v member
  obtain ⟨given, read, rfl⟩ := h.values v member
  exact Value.isWritable_freeze read.writable

/-- Whatever log was analysed, the conditions are rendered. -/
theorem render_of_analyzeReading {limit : Nat} {files : Files.FileTree} {shown : String}
    {policy : MalformedPolicy} {a : Analysis}
    (analysed : (analyzeReading limit (readLog files shown policy)).value = .ok a) :
    render a.conditions = .ok (a.conditions.filterMap written?) :=
  render_eq_ok_iff.mpr ⟨fun c member _ v shown =>
    (traced_of_analyzeReading analysed c member).isWritable v (shownValues_subset c shown), rfl⟩

end QueryHarvest.Session
