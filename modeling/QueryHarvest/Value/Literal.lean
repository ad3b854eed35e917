import QueryHarvest.Number.Integer
import QueryHarvest.Value.Display

/-! # SQL literals

How a value is written into a condition. Texts are put between single quotes without escaping, and a
value that holds an integer of too many digits is not written. -/

namespace QueryHarvest.Value

open Number

mutual

/-- The text of a value as a literal, however long the integers in it are. -/
def literalText : Value → String
  | .null => "NULL"
  | .bool b => if b then "TRUE" else "FALSE"
  | .int n => toString n
  | .float x => x.text
  | .list items => "ARRAY[" ++ String.intercalate ", " (literalTexts items) ++ "]"
  | .tuple items => "ARRAY[" ++ String.intercalate ", " (literalTexts items) ++ "]"
  | value => "'" ++ value.plain ++ "'"

def literalTexts : List Value → List String
  | [] => []
  | item :: rest => item.literalText :: literalTexts rest

end

@[simp] theorem literalTexts_eq (items : List Value) : literalTexts items = items.map literalText := by
  induction items with
  | nil => rfl
  | cons item rest ih => rw [literalTexts, List.map_cons, ih]

mutual

/-- Can the value be written? No integer in it, at whatever depth, has more digits than are written. -/
def isWritable : Value → Bool
  | .int n => n.natAbs < Nat.pow 10 maxDigits
  | .list items => areWritable items
  | .tuple items => areWritable items
  | .object fields => fieldsAreWritable fields
  | _ => true

/-- `isWritable` of every item. -/
def areWritable : List Value → Bool
  | [] => true
  | item :: rest => item.isWritable && areWritable rest

/-- `isWritable` of the value of every field. -/
def fieldsAreWritable : List (String × Value) → Bool
  | [] => true
  | (_, item) :: rest => item.isWritable && fieldsAreWritable rest

end

@[simp] theorem areWritable_iff {items : List Value} :
    areWritable items ↔ ∀ item ∈ items, item.isWritable := by
  induction items with
  | nil => simp [areWritable]
  | cons item rest ih => simp [areWritable, ih]

@[simp] theorem fieldsAreWritable_iff {fields : List (String × Value)} :
    fieldsAreWritable fields ↔ ∀ field ∈ fields, field.2.isWritable := by
  induction fields with
  | nil => simp [fieldsAreWritable]
  | cons field rest ih => simp [fieldsAreWritable, ih]

def literal (value : Value) : Except WritingError String :=
  if value.isWritable then .ok value.literalText else .error .tooManyDigits

theorem literal_eq_ok_iff {v : Value} {text : String} :
    v.literal = .ok text ↔ v.isWritable ∧ v.literalText = text := by
  rw [literal]
  split <;> simp [*]

/-- The literals of some values: all of them, or none where one cannot be written. -/
theorem mapM_literal (values : List Value) :
    values.mapM literal =
      if areWritable values then .ok (values.map literalText) else .error .tooManyDigits := by
  induction values with
  | nil => rfl
  | cons v rest ih =>
      rw [List.mapM_cons, ih, literal]
      cases first : v.isWritable <;> cases others : areWritable rest <;>
        simp [areWritable, first, others, bind, Except.bind, pure, Except.pure]

end QueryHarvest.Value
