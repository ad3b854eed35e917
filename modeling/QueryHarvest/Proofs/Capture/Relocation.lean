import QueryHarvest.Proofs.Capture.Parameters
import QueryHarvest.Proofs.Json.Relocation

/-! # Records read on another line

A text that is a record on one line is one on every other. The records differ at most in the places that
their not-a-numbers carry.
-/

namespace QueryHarvest.Capture

open Number

/-- The same record, read on another line. -/
def Record.onLine (line : Nat) (record : Record) : Record :=
  { record with
    parameters := record.parameters.map (Value.onLine line)
    timestamp := record.timestamp.map (Binary64.onLine line) }

section

variable (line : Nat) {occurrence : Occurrence}

@[simp] theorem readFloatDigits?_onLine (negative : Bool) (chars : List Char) :
    (readFloatDigits? negative chars).map (Binary64.onLine line) = readFloatDigits? negative chars := by
  unfold readFloatDigits?
  dsimp only
  repeat' split
  all_goals first | rfl | exact congrArg some (Binary64.onLine_ofDecimal ..)

@[simp] theorem readFloat?_onLine (chars : List Char) :
    readFloat? { occurrence with line } chars = (readFloat? occurrence chars).map (Binary64.onLine line) := by
  unfold readFloat?
  dsimp only
  split
  case h_4 => exact (readFloatDigits?_onLine line ..).symm
  all_goals rfl

@[simp] theorem readTimestampText?_onLine (text : String) :
    readTimestampText? { occurrence with line } text =
      (readTimestampText? occurrence text).map (Binary64.onLine line) := by
  unfold readTimestampText?
  simp only [readFloat?_onLine line]
  split
  · next found =>
    obtain ⟨x, read, rfl⟩ := Option.map_eq_some_iff.mp found
    rw [read]
    rfl
  · next missing =>
    rw [Option.map_eq_none_iff.mp missing]
    dsimp only
    split <;> rfl

@[simp] theorem onLine_ofInt (n : Int) : (Binary64.ofInt n).onLine line = Binary64.ofInt n := by
  unfold Binary64.ofInt Binary64.ofRat
  split <;> exact Binary64.onLine_ofMagnitude ..

theorem readTimestamp_onLine {value : Value} {timestamp : Option Binary64}
    (read : readTimestamp occurrence value = .ok timestamp) :
    readTimestamp { occurrence with line } (value.onLine line) =
      .ok (timestamp.map (Binary64.onLine line)) := by
  cases value with
  | null | float =>
      cases read
      rfl
  | bool | int =>
      cases read
      exact congrArg (Except.ok ∘ some) (onLine_ofInt line _).symm
  | text s =>
      simp only [readTimestamp] at read
      simp only [Value.onLine, readTimestamp, readTimestampText?_onLine]
      split at read
      · next x found =>
        cases read
        rw [found]
        rfl
      · cases read
  | _ => cases read

theorem lookup_fieldsOnLine (key : String) (fields : List (String × Value)) :
    (Value.fieldsOnLine line fields).lookup key = (fields.lookup key).map (Value.onLine line) := by
  induction fields with
  | nil => rfl
  | cons field rest ih =>
      obtain ⟨name, value⟩ := field
      rw [Value.fieldsOnLine, List.lookup_cons, List.lookup_cons, ih]
      split <;> rfl

theorem takes_onLine {fields : List (String × Value)} {record : Record}
    (takes : Takes occurrence fields record) :
    Takes { occurrence with line } (Value.fieldsOnLine line fields) (record.onLine line) where
  query := by
    rw [lookup_fieldsOnLine, takes.query]
    rfl
  parameters := by
    rw [lookup_fieldsOnLine]
    rcases takes.parameters with given | ⟨none | null, empty⟩
    · rw [given]
      exact .inl (congrArg (some ∘ Value.list) (Value.allOnLine_eq line _))
    · rw [none]
      exact .inr ⟨.inl rfl, congrArg (List.map (Value.onLine line)) empty⟩
    · rw [null]
      exact .inr ⟨.inr rfl, congrArg (List.map (Value.onLine line)) empty⟩
  timestamp := by
    have timestamp := takes.timestamp
    rw [lookup_fieldsOnLine]
    cases given : fields.lookup "timestamp" with
    | none =>
        rw [given] at timestamp
        exact congrArg (Except.map (Option.map (Binary64.onLine line))) timestamp
    | some value =>
        rw [given] at timestamp
        exact readTimestamp_onLine line timestamp

end

/-- A record on one line is one on another. -/
theorem readRecord_onLine (line : Nat) {number : Nat} {text : String} {record : Record}
    (read : readRecord number text = .ok record) : readRecord line text = .ok (record.onLine line) := by
  obtain ⟨fields, parsed, takes⟩ := readRecord_eq_ok_iff.mp read
  have moved := takes_onLine line takes
  exact readRecord_eq_ok_iff.mpr ⟨_, Json.read?_onLine line parsed, moved⟩

end QueryHarvest.Capture
