import Mathlib
import QueryHarvest.Number.Integer

/-! # The digits of a natural number

What the decimal digits of a number write is the number again, as long as there are not too many of
them to be read.
-/

namespace QueryHarvest.Number

open Text

theorem digitValue?_ascii {c : Char} (h : c.isDigit) :
    digitValue? c = some (c.toNat - '0'.toNat) := by
  have bounds : 48 ≤ c.toNat ∧ c.toNat ≤ 57 := by
    simp only [Char.isDigit, Bool.and_eq_true, decide_eq_true_eq, UInt32.le_iff_toNat_le] at h
    exact h
  have ascii : c.toNat < 0x80 := by omega
  simp only [digitValue?, ascii, h, if_true]
  rfl

theorem isDigit_ascii {c : Char} (h : c.isDigit) : isDigit c := by
  rw [isDigit, digitValue?_ascii h, Option.isSome_some]

theorem digitsValue_ascii {digits : List Char} (h : ∀ c ∈ digits, c.isDigit) :
    digitsValue digits = Nat.ofDigitChars 10 digits 0 := by
  suffices ∀ start, digits.foldl (fun n c => 10 * n + (digitValue? c).getD 0) start =
      Nat.ofDigitChars 10 digits start from this 0
  induction digits with
  | nil => simp
  | cons c digits ih =>
      intro start
      have hc := digitValue?_ascii (h c (List.mem_cons_self ..))
      rw [List.foldl_cons, hc, Option.getD_some, Nat.ofDigitChars_cons]
      exact ih (fun x hx => h x (List.mem_cons_of_mem _ hx)) _

theorem digitValue?_lt {c : Char} {n : Nat} (h : digitValue? c = some n) : n < 10 := by
  rw [digitValue?] at h
  split at h
  · split at h
    · next digit =>
      cases h
      simp only [Char.isDigit, Bool.and_eq_true, decide_eq_true_eq, UInt32.le_iff_toNat_le] at digit
      have upper : c.toNat ≤ 57 := digit.2
      omega
    · cases h
  · obtain ⟨base, found, rfl⟩ := Option.map_eq_some_iff.mp h
    have bounds := List.find?_some found
    simp only [Bool.and_eq_true, decide_eq_true_eq] at bounds
    omega

/-- Digits write a number below the power of ten of their count. -/
theorem digitsValue_lt (digits : List Char) : digitsValue digits < 10 ^ digits.length := by
  induction digits using List.reverseRecOn with
  | nil => simp [digitsValue]
  | append_singleton digits c ih =>
      have last : (digitValue? c).getD 0 < 10 := by
        cases value : digitValue? c with
        | none => simp
        | some n => exact digitValue?_lt value
      rw [digitsValue, List.foldl_append, List.foldl_cons, List.foldl_nil, List.length_append,
        List.length_singleton, Nat.pow_succ, ← digitsValue]
      omega

theorem isDigit_char_of_mem_toDigits {n : Nat} {c : Char} (h : c ∈ Nat.toDigits 10 n) : c.isDigit :=
  Nat.isDigit_of_mem_toDigits (by decide) (by decide) h

@[simp] theorem digitsValue_toDigits (n : Nat) : digitsValue (Nat.toDigits 10 n) = n := by
  rw [digitsValue_ascii fun c => isDigit_char_of_mem_toDigits, Nat.ofDigitChars_ten_toDigits]

theorem length_toDigits_le {n : Nat} (h : n < 10 ^ maxDigits) :
    (Nat.toDigits 10 n).length ≤ maxDigits :=
  (Nat.length_toDigits_le_iff (by decide) (by decide)).mpr h

/-- A number of not too many digits is read back from them. -/
theorem ofDigits_toDigits {n : Nat} (h : n < 10 ^ maxDigits) : ofDigits (Nat.toDigits 10 n) = .ok n := by
  rw [ofDigits, if_pos (length_toDigits_le h), digitsValue_toDigits]

theorem eq_digitsValue_of_ofDigits {digits : List Char} {n : Nat} (h : ofDigits digits = .ok n) :
    n = digitsValue digits := by
  rw [ofDigits] at h
  split at h
  · cases h
    rfl
  · cases h

/-- What is read from digits is not too long to be written. -/
theorem lt_of_ofDigits {digits : List Char} {n : Nat} (h : ofDigits digits = .ok n) :
    n < 10 ^ maxDigits := by
  rw [ofDigits] at h
  split at h
  · next short =>
    cases h
    exact (digitsValue_lt digits).trans_le (Nat.pow_le_pow_right (by decide) short)
  · cases h

end QueryHarvest.Number
