import QueryHarvest.Proofs.Json.Steps
import QueryHarvest.Proofs.Number.Digits
import QueryHarvest.Value.Frozen
import QueryHarvest.Value.Literal

/-! # The kinds of values that are read

A text that is read as JSON gives a value of the kinds that JSON has, without an integer that is too long
to be written, and so do all parts of it. The reader keeps to this with every character: the parts in its
open containers are such values, and it makes new ones of them only.
-/

namespace QueryHarvest

open Number

namespace Value

mutual

/-- Is the value, with all its parts, of the kinds that JSON has? -/
def hasJsonKinds : Value → Bool
  | .null => true
  | .bool _ => true
  | .int _ => true
  | .float _ => true
  | .text _ => true
  | .list items => haveJsonKinds items
  | .object fields => fieldsHaveJsonKinds fields
  | _ => false

/-- `hasJsonKinds` of every item. -/
def haveJsonKinds : List Value → Bool
  | [] => true
  | item :: rest => item.hasJsonKinds && haveJsonKinds rest

/-- `hasJsonKinds` of the value of every field. -/
def fieldsHaveJsonKinds : List (String × Value) → Bool
  | [] => true
  | (_, item) :: rest => item.hasJsonKinds && fieldsHaveJsonKinds rest

end

@[simp] theorem haveJsonKinds_iff {items : List Value} :
    haveJsonKinds items ↔ ∀ item ∈ items, item.hasJsonKinds := by
  induction items with
  | nil => simp [haveJsonKinds]
  | cons item rest ih => simp [haveJsonKinds, ih]

@[simp] theorem fieldsHaveJsonKinds_iff {fields : List (String × Value)} :
    fieldsHaveJsonKinds fields ↔ ∀ field ∈ fields, field.2.hasJsonKinds := by
  induction fields with
  | nil => simp [fieldsHaveJsonKinds]
  | cons field rest ih => simp [fieldsHaveJsonKinds, ih]

@[simp] theorem isWritable_int_iff {n : Int} : (Value.int n).isWritable ↔ n.natAbs < 10 ^ maxDigits := by
  rw [isWritable, decide_eq_true_iff, Nat.pow_eq]

/-- The value is of the kinds that JSON has, and it can be written. -/
structure IsRead (v : Value) : Prop where
  kinds : v.hasJsonKinds
  writable : v.isWritable

theorem IsRead.of_mem_list {items : List Value} (h : IsRead (.list items)) :
    ∀ item ∈ items, item.IsRead :=
  fun item member => ⟨haveJsonKinds_iff.mp h.kinds item member, areWritable_iff.mp h.writable item member⟩

theorem IsRead.of_mem_object {fields : List (String × Value)} (h : IsRead (.object fields)) :
    ∀ field ∈ fields, field.2.IsRead :=
  fun field member =>
    ⟨fieldsHaveJsonKinds_iff.mp h.kinds field member, fieldsAreWritable_iff.mp h.writable field member⟩

mutual

/-- Once it is fixed, such a value serves as a key. -/
theorem keyError?_freeze {v : Value} (h : v.hasJsonKinds) : v.freeze.keyError? = none := by
  cases v with
  | null | bool | int | float | text | object => rfl
  | list items => exact keyErrorIn?_freezeAll h
  | decimal | bytes | buffer | uuid | date | time | dateTime | tuple => cases h
termination_by sizeOf v

theorem keyErrorIn?_freezeAll {items : List Value} (h : haveJsonKinds items) :
    keyErrorIn? (freezeAll items) = none := by
  cases items with
  | nil => rfl
  | cons item rest =>
      simp only [haveJsonKinds, Bool.and_eq_true] at h
      rw [freezeAll, keyErrorIn?, keyError?_freeze h.1, keyErrorIn?_freezeAll h.2]
      rfl
termination_by sizeOf items

end

mutual

/-- A value that can be written still can when it is fixed. -/
theorem isWritable_freeze {v : Value} (h : v.isWritable) : v.freeze.isWritable := by
  cases v with
  | list items | tuple items => exact areWritable_freezeAll h
  | object => rfl
  | null | bool | int | float | text | decimal | bytes | buffer | uuid | date | time | dateTime => exact h
termination_by sizeOf v

theorem areWritable_freezeAll {items : List Value} (h : areWritable items) :
    areWritable (freezeAll items) := by
  cases items with
  | nil => rfl
  | cons item rest =>
      simp only [areWritable, Bool.and_eq_true] at h
      rw [freezeAll, areWritable, isWritable_freeze h.1, areWritable_freezeAll h.2]
      rfl
termination_by sizeOf items

end

end Value

namespace Json

theorem inherited_isRead : Inherited (fun _ => True) Value.IsRead where
  list _ h := ⟨Value.haveJsonKinds_iff.mpr fun item member => (h item member).kinds,
    Value.areWritable_iff.mpr fun item member => (h item member).writable⟩
  object _ h := ⟨Value.fieldsHaveJsonKinds_iff.mpr fun field member => (h field member).2.kinds,
    Value.fieldsAreWritable_iff.mpr fun field member => (h field member).2.writable⟩

/-- All parts that have been read are such values. -/
abbrev Progress.IsRead : Progress → Prop :=
  Progress.Holds (fun _ => True) Value.IsRead

theorem isRead_int {digits : List Char} {n : Int} (read : ofDigits digits = .ok n.natAbs) :
    Value.IsRead (.int n) :=
  ⟨rfl, Value.isWritable_int_iff.mpr (lt_of_ofDigits read)⟩

theorem isRead_number? {chars : List Char} {value : Value} (read : number? chars = some value) :
    value.IsRead := by
  simp only [number?] at read
  repeat' split at read
  all_goals first
    | cases read; done
    | next magnitude digits signed => cases read; exact isRead_int (by simpa using digits)
    | cases read; exact ⟨rfl, rfl⟩

theorem isRead_bare? {occurrence : Occurrence} {chars : List Char} {value : Value}
    (read : bare? occurrence chars = some value) : value.IsRead := by
  unfold bare? at read
  split at read
  case h_7 => exact isRead_number? read
  all_goals
    cases read
    exact ⟨rfl, rfl⟩

namespace Reader

section

variable {r next : Reader} {c : Char} {chars : List Char}

/-- A character leads from parts of these kinds to parts of these kinds. -/
theorem isRead_step (h : r.progress.IsRead) (read : r.step c = some next) : next.progress.IsRead := by
  cases steps_of_step read with
  | begins settles begun =>
      have settled := settles.holds inherited_isRead (fun _ _ _ => isRead_bare?) h
      exact begin_holds inherited_isRead settled begun
  | endsString _ _ emitted =>
      exact emit_holds inherited_isRead h emitted ⟨⟨rfl, rfl⟩, fun _ _ => trivial⟩
  | inWord _ _ same | inString _ _ _ _ same | escapes _ _ same | inEscape _ _ _ same =>
      rw [same]
      exact h

theorem isRead_run {text : List Char} (h : r.progress.IsRead) (read : text.foldlM step r = some next) :
    next.progress.IsRead := by
  induction text generalizing r with
  | nil =>
      cases read
      exact h
  | cons c text ih =>
      obtain ⟨after, first, read⟩ := Option.bind_eq_some_iff.mp read
      exact ih (isRead_step h first) read

theorem isRead_finish {value : Value} (h : r.progress.IsRead) (read : r.finish = some value) :
    value.IsRead := by
  obtain ⟨last, settles, complete⟩ := finish_eq_some_iff.mp read
  have whole := settles.holds inherited_isRead (fun _ _ _ => isRead_bare?) h
  rwa [complete] at whole

end

end Reader

/-- What is read is of the kinds that JSON has, and it can be written. -/
theorem isRead_of_read? {line : Nat} {text : String} {value : Value}
    (read : read? line text = some value) : value.IsRead := by
  obtain ⟨last, run, read⟩ := Option.bind_eq_some_iff.mp read
  have start : Progress.IsRead (.unfinished .value []) := List.forall_mem_nil _
  exact Reader.isRead_finish (Reader.isRead_run start run) read

end Json

end QueryHarvest
