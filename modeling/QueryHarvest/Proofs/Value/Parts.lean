import QueryHarvest.Proofs.Json.Numbers
import QueryHarvest.Proofs.Text.Separated
import QueryHarvest.Value.Frozen

/-! # Parts of values and how their texts begin

What is common to the texts of values as SQL literals and as JSON. Each kind begins with letters of its
own, integers are told apart, and what holds of a value once it holds of its parts holds of all values.
-/

namespace QueryHarvest

open Json Text

namespace Value

/-- The items of an array of either kind, or what stands under the keys of an object. -/
def parts : Value → List Value
  | .list items => items
  | .tuple items => items
  | .object fields => fields.map Prod.snd
  | _ => []

/-- The value is an array of some kind with the items. -/
def IsArrayOf (items : List Value) (v : Value) : Prop :=
  v = .list items ∨ v = .tuple items

theorem IsArrayOf.parts_eq {items : List Value} {v : Value} (h : IsArrayOf items v) : v.parts = items := by
  rcases h with rfl | rfl <;> rfl

theorem sizeOf_lt_of_mem_parts {v x : Value} (h : x ∈ v.parts) : sizeOf x < sizeOf v := by
  cases v with
  | list items | tuple items =>
      have smaller : sizeOf x < sizeOf items := List.sizeOf_lt_of_mem h
      simp_wf
      omega
  | object fields =>
      obtain ⟨⟨key, x⟩, member, rfl⟩ := List.mem_map.mp h
      have smaller : sizeOf (key, x) < sizeOf fields := List.sizeOf_lt_of_mem member
      simp only [Prod.mk.sizeOf_spec, Value.object.sizeOf_spec] at smaller ⊢
      omega
  | _ => cases h

@[elab_as_elim]
theorem parts_induction {motive : Value → Prop} (step : ∀ v, (∀ x ∈ v.parts, motive x) → motive v)
    (v : Value) : motive v :=
  step v fun x _inside => parts_induction step x
termination_by sizeOf v
decreasing_by exact sizeOf_lt_of_mem_parts _inside

/-- The rank of the values whose SQL literal or JSON text begins with a letter. -/
def rankOfLetter (c : Char) : Nat :=
  if c = 'N' ∨ c = 'n' then 0
  else if c = 'T' ∨ c = 'F' ∨ c = 't' ∨ c = 'f' then 1
  else if c = '\x27' ∨ c = '\x22' then 3
  else if c = 'A' ∨ c = '[' then 4
  else if c = '\x7b' then 5
  else 2

theorem rankOfLetter_numeral {c : Char} (h : isNumeral c) : rankOfLetter c = 2 ∧ isClosing c = false := by
  have apart (x : Char) (other : isNumeral x = false) : c ≠ x := by
    rintro rfl
    rw [h] at other
    cases other
  simp (disch := decide) [rankOfLetter, isClosing, apart]

/-- The text begins with a letter of the rank, and so with no closing bracket. -/
def Begins (rank : Nat) (text : List Char) : Prop :=
  ∃ c rest, text = c :: rest ∧ rankOfLetter c = rank ∧ isClosing c = false

theorem Begins.opens {rank : Nat} {text : List Char} (h : Begins rank text) : Opens text := by
  obtain ⟨c, rest, text, -, opens⟩ := h
  exact ⟨c, rest, text, opens⟩

/-- Texts that go on alike begin with letters of one rank. -/
theorem Begins.rank_eq {m n : Nat} {front front' rest rest' : List Char} (h : Begins m front)
    (h' : Begins n front') (same : front ++ rest = front' ++ rest') : m = n := by
  obtain ⟨c, front, rfl, rank, -⟩ := h
  obtain ⟨d, front', rfl, rank', -⟩ := h'
  rw [← rank, ← rank', (List.cons.inj same).1]

theorem isNumeral_of_mem_int (n : Int) : ∀ c ∈ (toString n).toList, isNumeral c := by
  intro c member
  rw [toList_int, List.append_nil] at member
  rcases List.mem_append.mp member with signed | digit
  · cases negative : decide (n < 0) with
    | false => simp [sign, negative] at signed
    | true =>
        simp only [sign, negative, if_true, List.mem_singleton] at signed
        rw [signed]
        rfl
  · rw [isNumeral, Number.isDigit_char_of_mem_toDigits digit, Bool.true_or]

theorem begins_int (n : Int) : Begins 2 (toString n).toList := by
  have nonempty : (toString n).toList ≠ [] := by
    rw [toList_int, List.append_nil]
    exact List.append_ne_nil_of_right_ne_nil _ Nat.toDigits_ne_nil
  obtain ⟨c, rest, text⟩ := List.exists_cons_of_ne_nil nonempty
  have numeral := isNumeral_of_mem_int n c (by rw [text]; exact List.mem_cons_self ..)
  exact ⟨c, rest, text, rankOfLetter_numeral numeral⟩

/-- An integer is told from its text, where no more of a number follows. -/
theorem toldApart_int (m n : Int) :
    ToldApart (fun n : Int => (toString n).toList) Eq m n := by
  intro r s hr hs h
  obtain ⟨same, rest⟩ := front_append_inj (isNumeral_of_mem_int m) (isNumeral_of_mem_int n) hr hs h
  exact ⟨Int.repr_inj.mp (String.toList_injective same), rest⟩

end Value

end QueryHarvest
