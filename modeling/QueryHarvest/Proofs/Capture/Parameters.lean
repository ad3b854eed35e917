import QueryHarvest.Capture.Log
import QueryHarvest.Proofs.Json.Kinds
import QueryHarvest.Proofs.Outcome

/-! # The parameters of records that are read

Whatever a log holds, the parameters of the records that are read from it are of the kinds that JSON has,
and can be written.
-/

namespace QueryHarvest.Capture

open Files Number Text

/-- The parameters of a record are of the kinds that JSON has. -/
def JsonParameters (record : Record) : Prop :=
  ∀ v ∈ record.parameters, v.hasJsonKinds

/-- What a record takes from the fields of an object. -/
structure Takes (occurrence : Occurrence) (fields : List (String × Value)) (record : Record) : Prop where
  query : fields.lookup "query" = some (.text record.query)
  parameters : fields.lookup "params" = some (.list record.parameters) ∨
    (fields.lookup "params" = none ∨ fields.lookup "params" = some .null) ∧ record.parameters = []
  timestamp : (fields.lookup "timestamp").elim (.ok none) (readTimestamp occurrence) =
    .ok record.timestamp

theorem recordOfFields_eq_ok_iff {occurrence : Occurrence} {fields : List (String × Value)}
    {record : Record} : recordOfFields occurrence fields = .ok record ↔ Takes occurrence fields record := by
  constructor
  · intro read
    unfold recordOfFields at read
    repeat' split at read
    all_goals
      obtain ⟨query, givenQuery, read⟩ := bind_eq_ok_iff.mp read
      obtain ⟨parameters, givenParameters, read⟩ := bind_eq_ok_iff.mp read
      obtain ⟨timestamp, givenTimestamp, same⟩ := bind_eq_ok_iff.mp read
      cases same
      cases givenQuery <;> cases givenParameters <;> try cases givenTimestamp
    all_goals exact ⟨‹_›, by simp [*], by simp [*]⟩
  · rintro ⟨query, parameters, timestamp⟩
    -- what is left to say is that the time makes the record
    have timed : (do
        let timestamp ← (fields.lookup "timestamp").elim (.ok none) (readTimestamp occurrence)
        return { record with timestamp }) = (.ok record : Except FormatError Record) := by
      rw [timestamp]
      rfl
    unfold recordOfFields
    rw [query]
    rcases parameters with given | ⟨none | null, empty⟩
    · rw [given]
      cases h : fields.lookup "timestamp" <;> simpa [h] using timed
    · rw [none]
      cases h : fields.lookup "timestamp" <;> simpa [h, empty] using timed
    · rw [null]
      cases h : fields.lookup "timestamp" <;> simpa [h, empty] using timed

theorem readRecord_eq_ok_iff {number : Nat} {line : String} {record : Record} :
    readRecord number line = .ok record ↔
      ∃ fields, Json.read? number line = some (.object fields) ∧ Takes ⟨number, 0⟩ fields record := by
  unfold readRecord
  simp only [← recordOfFields_eq_ok_iff]
  split
  · next missing => simp [missing]
  · next fields parsed => simp [parsed]
  · next value other parsed =>
    simp only [reduceCtorEq, false_iff, parsed, Option.some.injEq]
    rintro ⟨fields, same, -⟩
    exact other fields same

theorem isRead_of_readRecord {number : Nat} {line : String} {record : Record}
    (read : readRecord number line = .ok record) : ∀ v ∈ record.parameters, v.IsRead := by
  obtain ⟨fields, parsed, takes⟩ := readRecord_eq_ok_iff.mp read
  have fields := (Json.isRead_of_read? parsed).of_mem_object
  rcases takes.parameters with given | ⟨-, none⟩
  · obtain ⟨before, after, rfl, -⟩ := List.lookup_eq_some_iff.mp given
    exact (fields _ (List.mem_append_right _ (List.mem_cons_self ..))).of_mem_list
  · rw [none]
    exact List.forall_mem_nil _

theorem isRead_of_mem_readLinesFrom {policy : MalformedPolicy} {number : Nat} {lines : List String} :
    ∀ record ∈ (readLinesFrom policy number lines).records, ∀ v ∈ record.parameters, v.IsRead := by
  induction lines generalizing number with
  | nil => exact List.forall_mem_nil _
  | cons raw lines ih =>
      simp only [readLinesFrom]
      split
      · exact ih
      split
      · next read =>
        have first := isRead_of_readRecord (mapError_eq_ok_iff.mp read)
        exact List.forall_mem_cons.mpr ⟨first, ih⟩
      · cases policy with
        | abort => exact List.forall_mem_nil _
        | skip => exact ih

theorem isRead_of_mem_readLog {files : FileTree} {shown : String} {policy : MalformedPolicy} :
    ∀ record ∈ (readLog files shown policy).records, ∀ v ∈ record.parameters, v.IsRead := by
  rw [readLog]
  split
  · exact isRead_of_mem_readLinesFrom
  · exact List.forall_mem_nil _

theorem jsonParameters_of_mem_readLog {files : FileTree} {shown : String} {policy : MalformedPolicy} :
    ∀ record ∈ (readLog files shown policy).records, JsonParameters record :=
  fun record member v inside => (isRead_of_mem_readLog record member v inside).kinds

end QueryHarvest.Capture
