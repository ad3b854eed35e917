import QueryHarvest.Capture.Recorder
import QueryHarvest.Proofs.Json.RoundTrip

/-! # What a recorder holds

Bound values of the usual kinds are stored as values that JSON can hold, and a clock that shows a time
not too far off gives a whole number of milliseconds. So every record of a recorder can be written.
-/

namespace QueryHarvest

open Number

namespace Value

mutual

/-- Is the value one of the usual kinds of bound values? Objects must be such that JSON can hold
them. -/
def isBound : Value → Bool
  | .list items => areBound items
  | .tuple items => areBound items
  | .date _ => true
  | .time _ => true
  | .dateTime _ => true
  | .uuid _ => true
  | .bytes _ => true
  | .buffer _ => true
  | value => value.isJson

/-- `isBound` of every item. -/
def areBound : List Value → Bool
  | [] => true
  | item :: rest => item.isBound && areBound rest

end

/-- The values that parameters bind: items by their place, fields by their name. -/
def bound : Value → List Value
  | .list items => items
  | .tuple items => items
  | .object fields => fields.map Prod.snd
  | _ => []

end Value

namespace Capture

mutual

theorem storable_isBound (value : Value) (h : value.isBound) :
    ∃ stored, storable value = .ok stored ∧ stored.isJson ∧ stored.depth ≤ value.depth := by
  cases value with
  | list items =>
      obtain ⟨stored, ok, json, depth⟩ := storableAll_areBound items (by simpa [Value.isBound] using h)
      refine ⟨.list stored, ?_, json, Nat.succ_le_succ depth⟩
      rw [storable, ok]
      rfl
  | tuple items =>
      obtain ⟨stored, ok, json, depth⟩ := storableAll_areBound items (by simpa [Value.isBound] using h)
      refine ⟨.list stored, ?_, json, Nat.succ_le_succ depth⟩
      rw [storable, ok]
      rfl
  | date | time | dateTime | uuid | bytes | buffer => exact ⟨_, rfl, rfl, Nat.le_refl _⟩
  | null | bool | int | text | object => exact ⟨_, rfl, h, Nat.le_refl _⟩
  | float | decimal => cases h
termination_by sizeOf value

theorem storableAll_areBound (items : List Value) (h : Value.areBound items) :
    ∃ stored, storableAll items = .ok stored ∧ Value.areJson stored ∧
      Value.itemsDepth stored ≤ Value.itemsDepth items := by
  cases items with
  | nil => exact ⟨[], rfl, rfl, Nat.le_refl _⟩
  | cons item rest =>
      simp only [Value.areBound, Bool.and_eq_true] at h
      obtain ⟨first, firstOk, firstJson, firstDepth⟩ := storable_isBound item h.1
      obtain ⟨stored, ok, json, depth⟩ := storableAll_areBound rest h.2
      refine ⟨first :: stored, ?_, ?_, ?_⟩
      · rw [storableAll, firstOk, ok]
        rfl
      · rw [Value.areJson, firstJson, json]
        rfl
      · rw [Value.itemsDepth, Value.itemsDepth]
        omega
termination_by sizeOf items

end

@[simp] theorem areBound_iff {items : List Value} : Value.areBound items ↔ ∀ item ∈ items, item.isBound := by
  induction items with
  | nil => simp [Value.areBound]
  | cons item rest ih => simp [Value.areBound, ih]

/-- Is the value of a usual kind, with less than a hundred containers inside its outermost one? -/
def IsUsual (value : Value) : Prop :=
  value.isBound ∧ value.depth ≤ 100

instance (value : Value) : Decidable (IsUsual value) :=
  inferInstanceAs (Decidable (_ ∧ _))

theorem isUsual_byte (b : UInt8) : IsUsual (.int b.toNat) := by
  refine ⟨decide_eq_true ?_, Nat.zero_le _⟩
  have small : b.toNat < 10 ^ 3 := Nat.lt_trans b.toNat_lt (by decide)
  calc (Nat.toDigits 10 ((b.toNat : Int)).natAbs).length
      ≤ 3 := (Nat.length_toDigits_le_iff (by decide) (by decide)).mpr small
    _ ≤ maxDigits := by decide

theorem isUsual_itemsOf {parameters : Value} {items : List Value}
    (h : ∀ value ∈ parameters.bound, IsUsual value) (ok : itemsOf parameters = .ok items) :
    ∀ value ∈ items, IsUsual value := by
  have texts {α : Type} (f : α → String) (xs : List α) :
      ∀ value ∈ xs.map fun x => Value.text (f x), IsUsual value := by
    intro value member
    obtain ⟨x, -, rfl⟩ := List.mem_map.mp member
    exact ⟨rfl, Nat.zero_le _⟩
  have bytes (data : List UInt8) :
      ∀ value ∈ data.map fun b => Value.int b.toNat, IsUsual value := by
    intro value member
    obtain ⟨b, -, rfl⟩ := List.mem_map.mp member
    exact isUsual_byte b
  cases parameters with
  | text s =>
      cases ok
      exact texts _ _
  | bytes data | buffer data =>
      cases ok
      exact bytes data
  | list items | tuple items =>
      cases ok
      exact h
  | object fields =>
      cases ok
      exact texts _ _
  | null | bool | int | float | decimal | uuid | date | time | dateTime => cases ok

theorem isUsual_bindParameters {statement query : String} {parameters : Value} {items : List Value}
    (h : ∀ value ∈ parameters.bound, IsUsual value)
    (ok : bindParameters statement parameters = .ok (query, items)) :
    ∀ value ∈ items, IsUsual value := by
  unfold bindParameters at ok
  split at ok
  · cases ok
    simp
  split at ok
  · next fields =>
    cases ok
    intro value member
    obtain ⟨name, -, found⟩ := List.mem_filterMap.mp member
    obtain ⟨before, after, rfl, -⟩ := List.lookup_eq_some_iff.mp found
    exact h value (by simp [Value.bound])
  · cases found : itemsOf parameters with
    | error error =>
        rw [found] at ok
        cases ok
    | ok values =>
        rw [found] at ok
        cases ok
        exact isUsual_itemsOf h found

/-- The clock shows a time from zero on, below two to the fortieth second. -/
def ClockReading.InRange : ClockReading → Prop
  | .whole seconds => 0 ≤ seconds ∧ seconds < 2 ^ 40
  | .real seconds => ∃ q, seconds.toRat? = some q ∧ 0 ≤ q ∧ q < 2 ^ 40

theorem truncate_of_nonneg {q : Rat} (nonneg : 0 ≤ q) : truncate q = q.floor := by
  rw [truncate, Rat.floor_def, Int.tdiv_eq_ediv_of_nonneg (Rat.num_nonneg.mpr nonneg)]

/-- A time in range is a natural number of milliseconds that is a binary number exactly. -/
theorem milliseconds_inRange {reading : ClockReading} (h : reading.InRange) :
    ∃ n : Nat, n < 2 ^ 53 ∧ reading.milliseconds = .ok (Binary64.ofInt n) := by
  cases reading with
  | whole seconds =>
      obtain ⟨nonneg, small⟩ := h
      refine ⟨(seconds * 1000).toNat, by omega, ?_⟩
      rw [ClockReading.milliseconds, Int.toNat_of_nonneg (by omega)]
  | real seconds =>
      obtain ⟨q, hq, nonneg, small⟩ := h
      cases seconds with
      | nan | infinite => cases hq
      | finite negative mantissa exponent =>
          have scaled : 0 ≤ q * 1000 := by linarith
          obtain ⟨m, e, rounded, bound⟩ := ofMagnitude_small scaled (by linarith)
          have value : (Binary64.finite false m e).toRat? = some (m * Binary64.twoPow e) := rfl
          have positive : 0 ≤ (m : Rat) * Binary64.twoPow e :=
            mul_nonneg (Nat.cast_nonneg m) (twoPow_pos e).le
          have below : 0 ≤ ((m : Rat) * Binary64.twoPow e).floor :=
            Rat.le_floor_iff.mpr (by simpa using positive)
          have above : ((m : Rat) * Binary64.twoPow e).floor < 2 ^ 53 := by
            refine Rat.floor_lt_iff.mpr ?_
            push_cast
            linarith
          refine ⟨((m : Rat) * Binary64.twoPow e).floor.toNat, by omega, ?_⟩
          rw [Int.toNat_of_nonneg below, ← truncate_of_nonneg positive]
          simp only [ClockReading.milliseconds, hq, Option.getD_some, Binary64.ofRat,
            if_neg (not_lt.mpr scaled), rounded, value]

/-- A record with parameters that JSON can hold and a time that has a decimal text. -/
structure Record.Writable (record : Record) : Prop where
  json : Value.areJson record.parameters
  depth : Value.itemsDepth record.parameters ≤ 100
  time : ∃ n : Nat, n < 2 ^ 53 ∧ record.timestamp = some (Binary64.ofInt n)

theorem stored_writable {statement query : String} {parameters : Value} {stored : List Value}
    (h : ∀ value ∈ parameters.bound, IsUsual value)
    (ok : Recorder.stored statement parameters = .ok (query, stored)) :
    Value.areJson stored ∧ Value.itemsDepth stored ≤ 100 := by
  unfold Recorder.stored at ok
  cases bound : bindParameters statement parameters with
  | error error =>
      rw [bound] at ok
      cases ok
  | ok result =>
      have usual := isUsual_bindParameters h bound
      obtain ⟨values, valuesOk, json, depth⟩ := storableAll_areBound result.2
        (areBound_iff.mpr fun value member => (usual value member).1)
      have shallow : Value.itemsDepth result.2 ≤ 100 :=
        Value.itemsDepth_le_iff.mpr fun value member => (usual value member).2
      rw [bound] at ok
      simp only [mapError_ok, ok_bind, valuesOk] at ok
      cases ok
      exact ⟨json, depth.trans shallow⟩

namespace Recorder

variable {r : Recorder}

/-- A recorder whose clock stays in range and whose records can be written. -/
structure Sound (r : Recorder) : Prop where
  clock : ∀ n, (r.clock n).InRange
  records : ∀ record ∈ r.records, record.Writable

/-- Recording keeps a recorder sound, whether the statement is recorded, passed over or refused. -/
theorem record_sound (h : r.Sound) (statement : String) {parameters : Value}
    (usual : ∀ value ∈ parameters.bound, IsUsual value) : (r.record statement parameters).1.Sound := by
  obtain ⟨n, small, time⟩ := milliseconds_inRange (h.clock r.ticks)
  unfold record
  split
  · exact h
  split
  · exact h
  · next query stored ok =>
    obtain ⟨json, depth⟩ := stored_writable usual ok
    rw [time]
    refine ⟨h.clock, fun made member => ?_⟩
    rcases List.mem_append.mp member with before | now
    · exact h.records made before
    · rw [List.mem_singleton.mp now]
      exact ⟨json, depth, n, small, rfl⟩

/-- Record some executions one after the other. -/
def recordCalls (r : Recorder) (calls : List (String × Value)) : Recorder :=
  calls.foldl (fun r call => (r.record call.1 call.2).1) r

theorem recordCalls_sound (h : r.Sound) {calls : List (String × Value)}
    (usual : ∀ call ∈ calls, ∀ value ∈ call.2.bound, IsUsual value) : (r.recordCalls calls).Sound := by
  induction calls generalizing r with
  | nil => exact h
  | cons call calls ih =>
      have first := record_sound h call.1 (usual call (List.mem_cons_self ..))
      exact ih first fun later member => usual later (List.mem_cons_of_mem _ member)

end Recorder

end Capture

end QueryHarvest
