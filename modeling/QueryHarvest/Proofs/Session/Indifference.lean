import QueryHarvest.Proofs.Session.Ending
import QueryHarvest.Proofs.Sql.Indifference

/-! # What an analysis does not look at

Two sessions of the same statements whose parameters differ, but are as many and have arrays without
items at the same places, are analysed side by side: what comes out differs at most in the values.
-/

namespace QueryHarvest.Session

open Sql Capture

/-- What an entry says but for its values. -/
def Entry.outline (e : Entry) : Option String × String × Operator :=
  (e.table, e.column, e.operator)

/-- Two entries that differ at most in their values. -/
abbrev SameEntry (e f : Entry) : Prop :=
  e.outline = f.outline

/-- Two sessions that differ at most in the values of their entries. -/
structure Abreast (s t : Session) : Prop where
  tables : s.tables = t.tables
  queryCount : s.queryCount = t.queryCount
  entries : List.Forall₂ SameEntry s.entries t.entries

section

variable {s t : Session} {c d : Condition}

theorem holds_of_sameEntry {e f : Entry} (same : SameEntry e f) (key : Key) :
    e.holds key = f.holds key := by
  have table : e.table = f.table := congrArg (·.1) same
  have column : e.column = f.column := congrArg (·.2.1) same
  rw [Entry.holds, Entry.holds, table, column]

theorem Abreast.entry? (h : Abreast s t) (key : Key) :
    Option.Rel SameEntry (s.entry? key) (t.entry? key) := by
  have entries := h.entries
  rw [Session.entry?, Session.entry?]
  generalize s.entries = es, t.entries = fs at entries ⊢
  induction entries with
  | nil => exact .none
  | cons same _ ih =>
      rw [List.find?_cons, List.find?_cons, holds_of_sameEntry same]
      split
      · exact .some same
      · exact ih

theorem Abreast.setValues (h : Abreast s t) (key : Key) (values others : List Value) :
    Abreast (s.setValues key values) (t.setValues key others) where
  tables := h.tables
  queryCount := h.queryCount
  entries := by
    refine List.rel_map (fun e f same => ?_) h.entries
    rw [holds_of_sameEntry same]
    split <;> exact same

/-- Two conditions of one outline are noticed alike, and leave the sessions abreast. -/
theorem addCondition_abreast (h : Abreast s t) (same : SameOutline c d) :
    (s.addCondition c).notices = (t.addCondition d).notices ∧
      Abreast (s.addCondition c).session (t.addCondition d).session := by
  obtain ⟨table, column, operator, values, fits⟩ := c
  obtain ⟨table', column', operator', values', fits'⟩ := d
  obtain ⟨rfl, rfl, rfl⟩ : table = table' ∧ column = column' ∧ operator = operator' := by
    simpa [SameOutline, Condition.outline] using same
  have found := h.entry? (table, column)
  generalize known : s.entry? (table, column) = e?, known' : t.entry? (table, column) = f? at found
  cases found with
  | none =>
      have opened : Abreast { s with entries := s.entries ++ [⟨table, column, operator, []⟩] }
          { t with entries := t.entries ++ [⟨table, column, operator, []⟩] } :=
        ⟨h.tables, h.queryCount, List.rel_append h.entries (.cons rfl .nil)⟩
      simp only [addCondition, Condition.key, known, known']
      split
      · exact ⟨rfl, opened⟩
      · exact ⟨rfl, opened.setValues _ _ _⟩
  | @some e f alike =>
      have kept : e.operator = f.operator := congrArg (·.2.2) alike
      simp only [addCondition, Condition.key, known, known', kept]
      split
      · exact ⟨rfl, h⟩
      · exact ⟨rfl, h.setValues _ _ _⟩

theorem addConditions_abreast {conditions others : List Condition} (h : Abreast s t)
    (rows : List.Forall₂ SameOutline conditions others) (hs : s.Sound) (ht : t.Sound)
    (keyed : ∀ c ∈ conditions, Keyed c) (keyed' : ∀ d ∈ others, Keyed d) :
    (s.addConditions conditions).notices = (t.addConditions others).notices ∧
      Abreast (s.addConditions conditions).session (t.addConditions others).session := by
  induction rows generalizing s t with
  | nil => exact ⟨rfl, h⟩
  | cons same _ ih =>
      rw [List.forall_mem_cons] at keyed keyed'
      obtain ⟨noError, sound⟩ := addCondition_sound hs keyed.1
      obtain ⟨noError', sound'⟩ := addCondition_sound ht keyed'.1
      obtain ⟨noticed, abreast⟩ := addCondition_abreast h same
      obtain ⟨later, ended⟩ := ih abreast sound sound' keyed.2 keyed'.2
      simp only [addConditions, noError, noError', noticed, later, true_and]
      exact ended

theorem settle_sameOutline (first : Option String) (same : SameOutline c d) :
    SameOutline (settle first c) (settle first d) := by
  have table : c.table = d.table := congrArg (·.1) same
  rw [settle_eq, settle_eq, SameOutline, Condition.outline, Condition.outline]
  exact congrArg₂ Prod.mk (congrArg (·.or first) table) (congrArg (·.2) same)

theorem add_abreast {conditions others : List Condition} (h : Abreast s t) (tables : List String)
    (rows : List.Forall₂ SameOutline conditions others) (hs : s.Sound) (ht : t.Sound)
    (keyed : ∀ c ∈ conditions, Keyed c) (keyed' : ∀ d ∈ others, Keyed d) :
    (s.add tables conditions).notices = (t.add tables others).notices ∧
      Abreast (s.add tables conditions).session (t.add tables others).session := by
  have grown : Abreast
      { s with queryCount := s.queryCount + 1, tables := tables.foldl addTable s.tables }
      { t with queryCount := t.queryCount + 1, tables := tables.foldl addTable t.tables } :=
    ⟨congrArg (tables.foldl addTable) h.tables, congrArg (· + 1) h.queryCount, h.entries⟩
  exact addConditions_abreast grown (List.rel_map (fun _ _ same => settle_sameOutline _ same) rows)
    ⟨hs.distinct, hs.fits⟩ ⟨ht.distinct, ht.fits⟩ (keyed_settled _ keyed) (keyed_settled _ keyed')

end

/-- Two records of one statement with as many parameters, where arrays without items stand at the same
places. -/
structure SameShape (record other : Record) : Prop where
  query : record.query = other.query
  parameters : Parallel record.parameters other.parameters

/-- Two analyses that differ at most in the values of their conditions. -/
structure SameReport (a b : Analysis) : Prop where
  tables : a.tables = b.tables
  queryCount : a.queryCount = b.queryCount
  outlines : a.conditions.map Condition.outline = b.conditions.map Condition.outline

section

variable {limit : Nat} {record other : Record} {records others : List Record} {s t : Session}

theorem analyzeQuery_parallel (limit : Nat) (h : SameShape record other) :
    EndsAlike (fun found found' => found.1 = found'.1 ∧ List.Forall₂ SameOutline found.2 found'.2)
      (analyzeQuery limit record.query record.parameters)
      (analyzeQuery limit other.query other.parameters) := by
  rw [analyzeQuery, analyzeQuery, h.query]
  split
  · exact .ok ⟨rfl, .nil⟩
  · exact (conditions_parallel _ h.parameters).bind fun _ _ rows => .ok ⟨rfl, rows⟩

/-- Two sound sessions that differ at most in the values of their entries. -/
structure SideBySide (s t : Session) : Prop extends Abreast s t where
  sound : s.Sound
  sound' : t.Sound

theorem addRecord_sideBySide (limit : Nat) (h : SideBySide s t) (shape : SameShape record other)
    (kinds : JsonParameters record) (kinds' : JsonParameters other) :
    (addRecord limit s record).notices = (addRecord limit t other).notices ∧
      EndsAlike SideBySide (addRecord limit s record).value (addRecord limit t other).value := by
  have read := analyzeQuery_parallel limit shape
  generalize found : analyzeQuery limit record.query record.parameters = x,
    found' : analyzeQuery limit other.query other.parameters = y at read
  simp only [addRecord, found, found']
  rw [shape.query]
  cases read with
  | error e => exact ⟨rfl, .error _⟩
  | @ok a b same =>
      obtain ⟨tables, conditions⟩ := a
      obtain ⟨tables', conditions'⟩ := b
      obtain ⟨rfl, rows⟩ : tables = tables' ∧ List.Forall₂ SameOutline conditions conditions' := same
      have keyed := keyed_of_analyzeQuery kinds found
      have keyed' := keyed_of_analyzeQuery kinds' found'
      obtain ⟨noError, sound⟩ := add_sound h.sound tables keyed
      obtain ⟨noError', sound'⟩ := add_sound h.sound' tables keyed'
      obtain ⟨noticed, abreast⟩ := add_abreast h.toAbreast tables rows h.sound h.sound' keyed keyed'
      simp only [noError, noError', noticed]
      exact ⟨trivial, .ok ⟨abreast, sound, sound'⟩⟩

theorem addRecords_sideBySide (limit : Nat) (h : SideBySide s t)
    (shapes : List.Forall₂ SameShape records others) (kinds : ∀ record ∈ records, JsonParameters record)
    (kinds' : ∀ other ∈ others, JsonParameters other) :
    (addRecords limit s records).notices = (addRecords limit t others).notices ∧
      EndsAlike SideBySide (addRecords limit s records).value (addRecords limit t others).value := by
  induction shapes generalizing s t with
  | nil => exact ⟨rfl, .ok h⟩
  | @cons record other _ _ shape _ ih =>
      rw [List.forall_mem_cons] at kinds kinds'
      obtain ⟨noticed, ends⟩ := addRecord_sideBySide limit h shape kinds.1 kinds'.1
      simp only [addRecords]
      generalize (addRecord limit s record).value = x, (addRecord limit t other).value = y at ends
      cases ends with
      | error e => exact ⟨noticed, .error e⟩
      | ok next =>
          obtain ⟨later, ended⟩ := ih next kinds.2 kinds'.2
          exact ⟨congrArg₂ (· ++ ·) noticed later, ended⟩

/-- What entries come to has their outlines. -/
theorem outlines_of_result {a : Analysis} (result : s.result = .ok a) :
    a.tables = s.tables.mergeSort (fun x y => x ≤ y) ∧ a.queryCount = s.queryCount ∧
      s.entries.map Entry.outline = a.conditions.map Condition.outline := by
  obtain ⟨conditions, made, same⟩ := bind_eq_ok_iff.mp result
  cases same
  refine ⟨rfl, rfl, map_eq_of_forall₂ ((mapM_eq_ok_iff.mp made).imp fun e c h => ?_)⟩
  have stated := states_of_make h
  obtain ⟨table, column⟩ := Prod.mk.inj stated.key
  rw [Entry.outline, Condition.outline, stated.operator, table, column]

theorem result_sideBySide (h : SideBySide s t) : EndsAlike SameReport s.result t.result := by
  obtain ⟨a, result⟩ := exists_result h.sound
  obtain ⟨b, result'⟩ := exists_result h.sound'
  obtain ⟨tables, queryCount, outlines⟩ := outlines_of_result result
  obtain ⟨tables', queryCount', outlines'⟩ := outlines_of_result result'
  rw [result, result']
  refine .ok ⟨?_, ?_, ?_⟩
  · rw [tables, tables', h.tables]
  · rw [queryCount, queryCount', h.queryCount]
  · rw [← outlines, ← outlines', map_eq_of_forall₂ h.entries]

/-- Sessions of the same statements are analysed alike whatever the values of their parameters are, as
long as arrays without items stand at the same places: they break off with the same error, or report
the same tables, as many statements, and conditions on the same columns with the same operators. What is
noticed on the way is the same, too. -/
theorem report_independent_of_values (limit : Nat) (shapes : List.Forall₂ SameShape records others)
    (kinds : ∀ record ∈ records, JsonParameters record)
    (kinds' : ∀ other ∈ others, JsonParameters other) :
    EndsAlike SameReport (analyze limit records).value (analyze limit others).value ∧
      (analyze limit records).notices = (analyze limit others).notices := by
  have start : Sound {} := ⟨.nil, List.forall_mem_nil _⟩
  obtain ⟨noticed, ends⟩ := addRecords_sideBySide limit ⟨⟨rfl, rfl, .nil⟩, start, start⟩ shapes kinds
    kinds'
  rw [analyze, analyze]
  generalize (addRecords limit {} records) = first, (addRecords limit {} others) = second at noticed ends
  obtain ⟨value, notices⟩ := first
  obtain ⟨value', notices'⟩ := second
  obtain rfl : notices = notices' := noticed
  cases ends with
  | error e => exact ⟨.error e, rfl⟩
  | @ok s t last =>
      have results := result_sideBySide last
      dsimp only
      generalize s.result = x, t.result = y at results
      cases results with
      | error e => exact ⟨.error _, rfl⟩
      | @ok a b same =>
          have conditions : a.conditions.length = b.conditions.length := by
            simpa using congrArg List.length same.outlines
          refine ⟨.ok same, ?_⟩
          simp only [analysisDone, same.tables, same.queryCount, conditions]

end

/-- Two statements on arrays and a range. -/
def rangedRecords : List Record :=
  [⟨"SELECT * FROM orders WHERE id = ANY($1) AND total BETWEEN $2 AND $3",
      [.list [.int 4, .int 2], .int 10, .text "x"], none⟩,
    ⟨"SELECT total FROM orders o WHERE o.id = ANY($1) AND note LIKE $2", [.list [], .null], none⟩]

/-- The same statements at another time, with other values. -/
def otherRangedRecords : List Record :=
  [⟨"SELECT * FROM orders WHERE id = ANY($1) AND total BETWEEN $2 AND $3",
      [.bool true, .list [.null], .float (.finite false 5 (-1))], some (.finite false 7 0)⟩,
    ⟨"SELECT total FROM orders o WHERE o.id = ANY($1) AND note LIKE $2", [.list [], .text "%"], none⟩]

theorem rangedRecords_independent :
    List.Forall₂ SameShape rangedRecords otherRangedRecords ∧
      (∀ record ∈ rangedRecords, JsonParameters record) ∧
      (∀ other ∈ otherRangedRecords, JsonParameters other) ∧
      EndsAlike SameReport (analyze 0 rangedRecords).value (analyze 0 otherRangedRecords).value ∧
      (analyze 0 rangedRecords).notices = (analyze 0 otherRangedRecords).notices := by
  have shapes : List.Forall₂ SameShape rangedRecords otherRangedRecords :=
    .cons ⟨rfl, .cons rfl (.cons rfl (.cons rfl .nil))⟩
      (.cons ⟨rfl, .cons rfl (.cons rfl .nil)⟩ .nil)
  have kinds : ∀ record ∈ rangedRecords, JsonParameters record := by
    unfold JsonParameters
    decide +kernel
  have kinds' : ∀ other ∈ otherRangedRecords, JsonParameters other := by
    unfold JsonParameters
    decide +kernel
  exact ⟨shapes, kinds, kinds', report_independent_of_values 0 shapes kinds kinds'⟩

end QueryHarvest.Session
