import QueryHarvest.Capture.Recorder
import QueryHarvest.Proofs.Json.Kinds
import QueryHarvest.Proofs.Outcome

/-! # What is stored of bound values

Bound values are taken apart along their arrays. A decimal that is infinite or signals is refused, and
with it the whole call. All else is stored in the kinds that JSON has, objects apart: they are stored
as they are, and what they hold of other kinds is written as strings.
-/

namespace QueryHarvest

namespace Value

mutual

/-- What is left of a value when its arrays are taken apart, from left to right. -/
def leaves : Value → List Value
  | .list items => leavesOf items
  | .tuple items => leavesOf items
  | value => [value]

def leavesOf : List Value → List Value
  | [] => []
  | item :: rest => item.leaves ++ leavesOf rest

end

mutual

/-- The parts of a value that are of kinds which JSON lacks, at any depth. -/
def strangers : Value → List Value
  | .list items => strangersOf items
  | .tuple items => strangersOf items
  | .object fields => strangersIn fields
  | .null => []
  | .bool _ => []
  | .int _ => []
  | .float _ => []
  | .text _ => []
  | value => [value]

def strangersOf : List Value → List Value
  | [] => []
  | item :: rest => item.strangers ++ strangersOf rest

/-- The `strangers` of the values of some fields. -/
def strangersIn : List (String × Value) → List Value
  | [] => []
  | (_, item) :: rest => item.strangers ++ strangersIn rest

end

/-- The fields of an object. -/
def fields? : Value → Option (List (String × Value))
  | .object fields => some fields
  | _ => none

end Value

namespace Capture

open Number

/-- Why a value that is no array is not stored. -/
def refusal? : Value → Option StorageError
  | .decimal (.infinite _) => some .infiniteDecimal
  | .decimal (.nan _ true _ _) => some .signallingDecimal
  | _ => none

theorem storableDecimal_eq_error_iff {d : Decimal} {error : StorageError} :
    storableDecimal d = .error error ↔ refusal? (.decimal d) = some error := by
  unfold storableDecimal
  cases d with
  | infinite negative => simp [refusal?]
  | nan negative signalling payload occurrence => cases signalling <;> simp [refusal?, Decimal.toInt?]
  | finite negative coefficient exponent =>
      simp only [refusal?, reduceCtorEq, iff_false]
      split <;> simp

/-- A decimal that is stored is stored as a number. -/
theorem number_of_storableDecimal {d : Decimal} {stored : Value} (ok : storableDecimal d = .ok stored) :
    (∃ n, stored = .int n) ∨ ∃ x, stored = .float x := by
  unfold storableDecimal at ok
  split at ok
  · cases ok
  · cases ok
  · split at ok
    · cases ok
      exact .inl ⟨_, rfl⟩
    · cases ok
      exact .inr ⟨_, rfl⟩

mutual

/-- A value is refused for the first of its leaves that is. -/
theorem storable_eq_error_iff (value : Value) {error : StorageError} :
    storable value = .error error ↔ value.leaves.findSome? refusal? = some error := by
  cases value with
  | list items | tuple items =>
      rw [storable, Value.leaves, map_eq_error_iff]
      exact storableAll_eq_error_iff items
  | decimal d => simp [storable, Value.leaves, storableDecimal_eq_error_iff]
  | null | bool | int | float | text | bytes | buffer | uuid | date | time | dateTime | object =>
      simp [storable, Value.leaves, refusal?]
termination_by sizeOf value

theorem storableAll_eq_error_iff (items : List Value) {error : StorageError} :
    storableAll items = .error error ↔ (Value.leavesOf items).findSome? refusal? = some error := by
  cases items with
  | nil => simp [storableAll, Value.leavesOf]
  | cons item rest =>
      rw [storableAll, Value.leavesOf, List.findSome?_append]
      cases first : storable item with
      | error other =>
          rw [(storable_eq_error_iff item).mp first, Option.some_or]
          simp
      | ok stored =>
          have none : item.leaves.findSome? refusal? = none := by
            refine Option.eq_none_iff_forall_ne_some.mpr fun refused found => ?_
            rw [(storable_eq_error_iff item).mpr found] at first
            cases first
          rw [none, Option.none_or, ← storableAll_eq_error_iff rest]
          exact map_eq_error_iff
termination_by sizeOf items

end

/-- What is stored of some leaves is of the kinds that JSON has just where the objects among them are,
and what it holds of other kinds is what those objects hold of them. -/
structure StoredFrom (leaves : List Value) (kinds : Prop) (strangers : List Value) : Prop where
  kinds : kinds ↔ ∀ leaf ∈ leaves, leaf.fields?.isSome → leaf.hasJsonKinds
  strangers : strangers = (leaves.filter (·.fields?.isSome)).flatMap Value.strangers

theorem storedFrom_leaf {leaf stored : Value} (other : leaf.fields? = none) (kinds : stored.hasJsonKinds)
    (none : stored.strangers = []) : StoredFrom [leaf] stored.hasJsonKinds stored.strangers where
  kinds := by simp [kinds, other]
  strangers := by simp [none, other]

mutual

theorem storedFrom_storable {value stored : Value} (ok : storable value = .ok stored) :
    StoredFrom value.leaves stored.hasJsonKinds stored.strangers := by
  cases value with
  | list items | tuple items =>
      rw [storable] at ok
      cases all : storableAll items with
      | error error =>
          rw [all] at ok
          cases ok
      | ok storedItems =>
          rw [all] at ok
          cases ok
          exact storedFrom_storableAll all
  | decimal d =>
      rcases number_of_storableDecimal ok with ⟨n, rfl⟩ | ⟨x, rfl⟩
      · exact storedFrom_leaf rfl rfl rfl
      · exact storedFrom_leaf rfl rfl rfl
  | object fields =>
      cases ok
      exact ⟨by simp [Value.leaves, Value.fields?], by simp [Value.leaves, Value.fields?]⟩
  | null | bool | int | float | text | bytes | buffer | uuid | date | time | dateTime =>
      cases ok
      exact storedFrom_leaf rfl rfl rfl
termination_by sizeOf value

theorem storedFrom_storableAll {items stored : List Value} (ok : storableAll items = .ok stored) :
    StoredFrom (Value.leavesOf items) (Value.haveJsonKinds stored) (Value.strangersOf stored) := by
  cases items with
  | nil =>
      cases ok
      exact ⟨by simp [Value.leavesOf, Value.haveJsonKinds], rfl⟩
  | cons item rest =>
      rw [storableAll] at ok
      cases first : storable item with
      | error error =>
          rw [first] at ok
          cases ok
      | ok storedItem =>
          cases others : storableAll rest with
          | error error =>
              rw [first, others] at ok
              cases ok
          | ok storedRest =>
              rw [first, others] at ok
              cases ok
              have head := storedFrom_storable first
              have tail := storedFrom_storableAll others
              refine ⟨?_, ?_⟩
              · rw [Value.haveJsonKinds, Bool.and_eq_true, head.kinds, tail.kinds, Value.leavesOf,
                  List.forall_mem_append]
              · rw [Value.strangersOf, head.strangers, tail.strangers, Value.leavesOf,
                  List.filter_append, List.flatMap_append]
termination_by sizeOf items

end

mutual

/-- A value of a kind that JSON lacks is written as a string that holds its plain text. -/
theorem text_of_mem_strangers {value part : Value} (h : part ∈ value.strangers) :
    Json.text part = Json.string part.plain := by
  cases value with
  | list items | tuple items => exact text_of_mem_strangersOf h
  | object fields => exact text_of_mem_strangersIn h
  | null | bool | int | float | text => cases h
  | decimal | bytes | buffer | uuid | date | time | dateTime =>
      rw [List.mem_singleton.mp h]
      rfl
termination_by sizeOf value

theorem text_of_mem_strangersOf {items : List Value} {part : Value} (h : part ∈ Value.strangersOf items) :
    Json.text part = Json.string part.plain := by
  cases items with
  | nil => cases h
  | cons item rest =>
      rcases List.mem_append.mp h with first | later
      · exact text_of_mem_strangers first
      · exact text_of_mem_strangersOf later
termination_by sizeOf items

theorem text_of_mem_strangersIn {fields : List (String × Value)} {part : Value}
    (h : part ∈ Value.strangersIn fields) : Json.text part = Json.string part.plain := by
  match fields with
  | [] => cases h
  | (key, item) :: rest =>
      rcases List.mem_append.mp h with first | later
      · exact text_of_mem_strangers first
      · exact text_of_mem_strangersIn later
termination_by sizeOf fields

end

/-- What is stored is of the kinds that JSON has, up to the objects on the arrays of the value, and those
parts of them that are of other kinds are written as strings. -/
theorem storable_stored {value stored : Value} (ok : storable value = .ok stored) :
    StoredFrom value.leaves stored.hasJsonKinds stored.strangers ∧
      ∀ part ∈ stored.strangers, Json.text part = Json.string part.plain :=
  ⟨storedFrom_storable ok, fun _ => text_of_mem_strangers⟩

namespace Recorder

variable {r : Recorder} {statement query : String} {parameters : Value} {items : List Value}
  {time : Binary64}

theorem stored_of_bound (bound : bindParameters statement parameters = .ok (query, items)) :
    stored statement parameters = ((storableAll items).mapError .storage).map (query, ·) := by
  simp only [stored, bound, mapError_ok, ok_bind]
  cases storableAll items <;> rfl

/-- What becomes of a call when its parameters are bound and the clock shows a time. -/
inductive Outcome (r : Recorder) (query : String) (items : List Value) (time : Binary64) :
    Recorder × Except RecordError (Option Record) → Prop
  /-- The call is refused for the first leaf that is, and nothing is recorded. -/
  | refused {after : Recorder} {error : StorageError}
      (first : (Value.leavesOf items).findSome? refusal? = some error)
      (kept : after.records = r.records) : Outcome r query items time (after, .error (.storage error))
  /-- One record is made, of what the parameters are stored as. -/
  | recorded {after : Recorder} {stored : List Value}
      (none : (Value.leavesOf items).findSome? refusal? = none)
      (added : after.records = r.records ++ [⟨query, stored, some time⟩])
      (holds : StoredFrom (Value.leavesOf items) (Value.haveJsonKinds stored) (Value.strangersOf stored)) :
      Outcome r query items time (after, .ok (some ⟨query, stored, some time⟩))

theorem outcome_record (filled : (Text.trim statement.toList).isEmpty = false)
    (bound : bindParameters statement parameters = .ok (query, items))
    (read : (r.clock r.ticks).milliseconds = .ok time) :
    Outcome r query items time (r.record statement parameters) := by
  rw [record, filled, if_neg Bool.false_ne_true, stored_of_bound bound]
  cases all : storableAll items with
  | error error => exact .refused ((storableAll_eq_error_iff items).mp all) rfl
  | ok stored =>
      have none : (Value.leavesOf items).findSome? refusal? = none := by
        refine Option.eq_none_iff_forall_ne_some.mpr fun error found => ?_
        rw [(storableAll_eq_error_iff items).mpr found] at all
        cases all
      simp only [mapError_ok, map_ok, read]
      exact .recorded none rfl (storedFrom_storableAll all)

/-- A value is refused just for the first decimal on its arrays that is infinite or signals. Otherwise it
is stored in the kinds that JSON has, up to the objects on its arrays, and those parts of them that are of
other kinds are written as strings. A call with such values leaves one record, or is refused for one of
them and leaves none. -/
theorem bound_values_stored (value : Value) (r : Recorder) :
    (∀ error, storable value = .error error ↔ value.leaves.findSome? refusal? = some error) ∧
      (∀ stored, storable value = .ok stored →
        StoredFrom value.leaves stored.hasJsonKinds stored.strangers ∧
          ∀ part ∈ stored.strangers, Json.text part = Json.string part.plain) ∧
      ∀ {statement query : String} {parameters : Value} {items : List Value} {time : Binary64},
        (Text.trim statement.toList).isEmpty = false →
        bindParameters statement parameters = .ok (query, items) →
        (r.clock r.ticks).milliseconds = .ok time →
        Outcome r query items time (r.record statement parameters) :=
  ⟨fun _ => storable_eq_error_iff value, fun _ => storable_stored, outcome_record⟩

/-- A call with a decimal in an array and another in an object. -/
theorem nestedDecimals_stored :
    ∃ query, Outcome { clock := fun _ => .whole 0 } query
      [.list [.decimal (.finite false 25 (-1))], .object [("price", .decimal (.finite false 2 0))]]
      (Binary64.ofInt 0)
      (({ clock := fun _ => .whole 0 } : Recorder).record "INSERT INTO t VALUES (?, ?)" (.tuple
        [.list [.decimal (.finite false 25 (-1))], .object [("price", .decimal (.finite false 2 0))]])) :=
  ⟨_, (bound_values_stored .null _).2.2 (by decide) rfl rfl⟩

/-- An infinite decimal is not stored, and a decimal in an object is not brought to a kind of JSON. -/
theorem decimals_disturb :
    (¬ ∃ stored, storable (.decimal (.infinite false)) = .ok stored) ∧
      ¬ ∃ stored, storable (.object [("price", .decimal (.finite false 15 (-1)))]) = .ok stored ∧
        stored.hasJsonKinds := by
  refine ⟨?_, ?_⟩
  · rintro ⟨stored, ok⟩
    cases ok
  · rintro ⟨stored, ok, kinds⟩
    cases ok
    cases kinds

end Recorder

end Capture

end QueryHarvest
