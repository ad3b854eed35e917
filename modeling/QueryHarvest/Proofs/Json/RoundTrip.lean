import QueryHarvest.Proofs.Json.Reading

/-! # JSON texts of values read back

The values that JSON can hold are those without tuples, numbers with a fraction and the kinds of a
database driver. What is written of such a value is read as the same value, and nothing in it leaves
the one line that it is written on.
-/

namespace QueryHarvest

open Number Json

namespace Value

mutual

/-- Is the value one that JSON can hold? Integers must not be too long, and keys must differ. -/
def isJson : Value → Bool
  | .null => true
  | .bool _ => true
  | .int n => (Nat.toDigits 10 n.natAbs).length ≤ maxDigits
  | .text _ => true
  | .list items => areJson items
  | .object fields => (fields.map Prod.fst).Nodup && fieldsAreJson fields
  | _ => false

/-- `isJson` of every item. -/
def areJson : List Value → Bool
  | [] => true
  | item :: rest => item.isJson && areJson rest

/-- `isJson` of the value of every field. -/
def fieldsAreJson : List (String × Value) → Bool
  | [] => true
  | (_, item) :: rest => item.isJson && fieldsAreJson rest

end

mutual

/-- How many containers are nested in the value. -/
def depth : Value → Nat
  | .list items => itemsDepth items + 1
  | .tuple items => itemsDepth items + 1
  | .object fields => fieldsDepth fields + 1
  | _ => 0

/-- The greatest depth of some items. -/
def itemsDepth : List Value → Nat
  | [] => 0
  | item :: rest => max item.depth (itemsDepth rest)

/-- The greatest depth of the values of some fields. -/
def fieldsDepth : List (String × Value) → Nat
  | [] => 0
  | (_, item) :: rest => max item.depth (fieldsDepth rest)

end

@[simp] theorem itemsDepth_le_iff {items : List Value} {bound : Nat} :
    itemsDepth items ≤ bound ↔ ∀ item ∈ items, item.depth ≤ bound := by
  induction items with
  | nil => simp [itemsDepth]
  | cons item rest ih => simp [itemsDepth, ih]

end Value

namespace Json

mutual

theorem legible_textAt (value : Value) (h : value.isJson) (level : Nat) :
    Legible value.depth (textAt .line level value) value := by
  cases value with
  | null => exact legible_word word_null
  | bool b => exact legible_word (word_bool b)
  | int n =>
      have short := of_decide_eq_true h
      exact legible_word (word_int ((Nat.length_toDigits_le_iff (by decide) (by decide)).mp short))
  | text s => exact legible_string s
  | list items =>
      simp only [Value.isJson] at h
      exact legible_array (legible_itemsAt items h (level + 1)) level
  | object fields =>
      simp only [Value.isJson, Bool.and_eq_true, decide_eq_true_eq] at h
      exact legible_object (legible_fieldsAt fields h.2 (level + 1)) h.1 level
  | float | decimal | bytes | buffer | uuid | date | time | dateTime | tuple => cases h
termination_by sizeOf value

theorem legible_itemsAt (items : List Value) (h : Value.areJson items) (level : Nat) :
    List.Forall₂ (Legible (Value.itemsDepth items)) (itemsAt .line level items) items := by
  cases items with
  | nil => exact .nil
  | cons item rest =>
      simp only [Value.areJson, Bool.and_eq_true] at h
      have head := legible_textAt item h.1 level
      have others := legible_itemsAt rest h.2 level
      exact .cons (head.mono (Nat.le_max_left ..)) (others.imp fun _ _ part =>
        part.mono (Nat.le_max_right ..))
termination_by sizeOf items

theorem legible_fieldsAt (fields : List (String × Value)) (h : Value.fieldsAreJson fields)
    (level : Nat) :
    List.Forall₂ (LegibleField (Value.fieldsDepth fields)) (fieldsAt .line level fields) fields := by
  match fields with
  | [] => exact .nil
  | (key, item) :: rest =>
      simp only [Value.fieldsAreJson, Bool.and_eq_true] at h
      have head := legible_textAt item h.1 level
      have others := legible_fieldsAt rest h.2 level
      refine .cons ⟨_, rfl, head.mono (Nat.le_max_left ..)⟩ (others.imp fun _ _ part => ?_)
      obtain ⟨value, text, legible⟩ := part
      exact ⟨value, text, legible.mono (Nat.le_max_right ..)⟩
termination_by sizeOf fields

end

/-- What JSON can hold is read back as it was written. -/
theorem read?_text {value : Value} (h : value.isJson) (room : value.depth ≤ maxDepth) (line : Nat) :
    read? line (text value) = some value :=
  (legible_textAt value h 0).read? room line

end Json

end QueryHarvest
