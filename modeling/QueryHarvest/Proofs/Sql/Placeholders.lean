import QueryHarvest.Proofs.Outcome
import QueryHarvest.Proofs.Sql.Reading

/-! # Placeholders among other text

In a text where numbered placeholders stand apart from all other characters, each is found with its
number, and they stand for the parameters with these numbers, in order.
-/

namespace QueryHarvest.Sql

open Number Text

/-- A text with placeholders in it: each with its number and the text behind it. -/
def spelledAmong (front : List Char) (marks : List (Nat × List Char)) : List Char :=
  front ++ marks.flatMap fun m => spelledPlaceholder m.1 ++ m.2

section

variable {front : List Char} {marks : List (Nat × List Char)}

theorem valuesFrom_no_dollar {text rest : List Char} (plain : ∀ c ∈ text, c ≠ '$') (before : Option Char) :
    placeholderPattern.valuesFrom ⟨before, text ++ rest⟩ =
      placeholderPattern.valuesFrom ⟨text.getLast?.or before, rest⟩ := by
  induction text generalizing before with
  | nil => rfl
  | cons c text ih =>
      obtain ⟨other, inside⟩ := List.forall_mem_cons.mp plain
      have missed : placeholderPattern.match? ⟨before, c :: (text ++ rest)⟩ = none := by
        simp [placeholderPattern, Piece.readPlaceholder?, other]
      rw [List.cons_append, Pattern.valuesFrom_skip missed, ih inside]
      cases text <;> simp [List.getLast?_cons]

theorem stops_marks (apart : ∀ m ∈ marks, Stops isDigit m.2) {text : List Char}
    (stops : Stops isDigit text) :
    Stops isDigit (text ++ marks.flatMap fun m => spelledPlaceholder m.1 ++ m.2) := by
  cases text with
  | cons c text => exact stops
  | nil =>
      cases marks with
      | nil => exact stops_nil isDigit
      | cons => exact stops_cons rfl

/-- Every placeholder is found with the digits of its number. -/
theorem digits_spelledAmong (plain : ∀ c ∈ front, c ≠ '$') (others : ∀ m ∈ marks, ∀ c ∈ m.2, c ≠ '$')
    (apart : ∀ m ∈ marks, Stops isDigit m.2) (before : Option Char) :
    (placeholderPattern.valuesFrom ⟨before, spelledAmong front marks⟩).map (·.digits) =
      marks.map fun m => Nat.toDigits 10 m.1 := by
  induction marks generalizing front before with
  | nil =>
      rw [spelledAmong, valuesFrom_no_dollar plain, List.flatMap_nil, Pattern.valuesFrom_nil]
      rfl
  | cons m marks ih =>
      obtain ⟨own, later⟩ := List.forall_mem_cons.mp others
      obtain ⟨stops, apart⟩ := List.forall_mem_cons.mp apart
      rw [spelledAmong, valuesFrom_no_dollar plain, List.flatMap_cons, List.append_assoc,
        Pattern.valuesFrom_match (readPlaceholder?_spelled m.1 (stops_marks apart stops)), List.map_cons,
        List.map_cons]
      exact congrArg _ (ih own later apart _)

theorem parameter?_numbered (parameters : List Value) {n : Nat} (counted : 1 ≤ n)
    (short : n < 10 ^ maxDigits) :
    parameter? parameters (Nat.toDigits 10 n) = .ok parameters[n - 1]? := by
  have positive : n ≠ 0 := by omega
  simp [parameter?, ofDigits_toDigits short, positive]

/-- Placeholders with known numbers stand for the parameters with these numbers, as far as there are
such. -/
theorem parametersIn_of_digits (parameters : List Value) {text : List Char} {numbers : List Nat}
    (digits : (placeholdersIn text).map (·.digits) = numbers.map (Nat.toDigits 10))
    (bounds : ∀ n ∈ numbers, 1 ≤ n ∧ n < 10 ^ maxDigits) :
    parametersIn parameters text = .ok (numbers.filterMap fun n => parameters[n - 1]?) := by
  have steps : (placeholdersIn text).mapM (fun found => parameter? parameters found.digits) =
      ((placeholdersIn text).map (·.digits)).mapM (parameter? parameters) := by
    rw [List.mapM_map]
    rfl
  have resolved : (placeholdersIn text).mapM (fun found => parameter? parameters found.digits) =
      .ok (numbers.map fun n => parameters[n - 1]?) := by
    rw [steps, digits, mapM_eq_ok_iff, List.forall₂_map_left_iff, List.forall₂_map_right_iff,
      List.forall₂_same]
    exact fun n member => parameter?_numbered parameters (bounds n member).1 (bounds n member).2
  rw [parametersIn, resolved]
  simp

/-- The placeholders of a text stand for the parameters with their numbers. -/
theorem parametersIn_spelledAmong (parameters : List Value) (plain : ∀ c ∈ front, c ≠ '$')
    (others : ∀ m ∈ marks, ∀ c ∈ m.2, c ≠ '$') (apart : ∀ m ∈ marks, Stops isDigit m.2)
    (numbers : ∀ m ∈ marks, 1 ≤ m.1 ∧ m.1 < 10 ^ maxDigits) :
    parametersIn parameters (spelledAmong front marks) =
      .ok (marks.filterMap fun m => parameters[m.1 - 1]?) := by
  have digits : (placeholdersIn (spelledAmong front marks)).map (·.digits) =
      (marks.map (·.1)).map (Nat.toDigits 10) := by
    rw [List.map_map]
    exact digits_spelledAmong plain others apart none
  rw [parametersIn_of_digits parameters digits (List.forall_mem_map.mpr numbers), List.filterMap_map]
  rfl

end

end QueryHarvest.Sql
