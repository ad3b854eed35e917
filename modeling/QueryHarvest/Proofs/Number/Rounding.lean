import Mathlib
import QueryHarvest.Number.Shortest

/-! # Natural numbers as binary numbers

A natural number of at most fifty-three bits is a binary number exactly, and its shortest decimal has
digits other than zero.
-/

namespace QueryHarvest.Number

open Binary64

@[simp] theorem twoPow_eq (k : Int) : twoPow k = (2 : Rat) ^ k := by
  cases k with
  | ofNat n => simp [twoPow]
  | negSucc n => rw [twoPow, Rat.mkRat_eq_div, zpow_negSucc]; simp

@[simp] theorem tenPow_eq (k : Int) : tenPow k = (10 : Rat) ^ k := by
  cases k with
  | ofNat n => simp [tenPow]
  | negSucc n => rw [tenPow, Rat.mkRat_eq_div, zpow_negSucc]; simp

@[simp] theorem mkRat_half : mkRat 1 2 = 1 / 2 := by
  rw [Rat.mkRat_eq_div]
  norm_num

@[simp] theorem roundHalfEven_natCast (n : Nat) : roundHalfEven (n : Rat) = n := by
  have floor : ((n : Rat).floor).toNat = n := by
    rw [← Int.cast_natCast, Rat.floor_intCast, Int.toNat_natCast]
  simp [roundHalfEven, floor]

/-- Rounding goes to the floor or to the number above it. -/
theorem roundHalfEven_cases (q : Rat) :
    roundHalfEven q = q.floor.toNat ∨ roundHalfEven q = q.floor.toNat + 1 := by
  simp only [roundHalfEven]
  split
  · exact .inl rfl
  split
  · exact .inr rfl
  split
  · exact .inl rfl
  · exact .inr rfl

/-- A positive natural number of at most fifty-three bits is a binary number. -/
theorem ofInt_natCast {n : Nat} (pos : 0 < n) (small : n < 2 ^ 53) :
    ∃ mantissa exponent, ofInt n = .finite false mantissa exponent ∧ mantissa ≠ 0 ∧
      (mantissa : Rat) * twoPow exponent = n := by
  have bits : n.log2 ≤ 52 := by
    have := (Nat.log2_lt (by omega)).mpr small
    omega
  have low : 2 ^ n.log2 ≤ n := Nat.log2_self_le (by omega)
  have high : n < 2 ^ (n.log2 + 1) := Nat.lt_log2_self
  have notBelow : ¬ ((n : Rat) < twoPow (n.log2 : Int)) := by
    rw [twoPow_eq, zpow_natCast, not_lt]
    exact_mod_cast low
  have exponent : max ((n.log2 : Int) - 52) (-1074) = -((52 - n.log2 : Nat) : Int) := by omega
  have scaled : (n : Rat) * twoPow ((52 - n.log2 : Nat) : Int) = ((n * 2 ^ (52 - n.log2) : Nat) : Rat) := by
    rw [twoPow_eq, zpow_natCast]
    push_cast
    ring
  have fits : n * 2 ^ (52 - n.log2) < 2 ^ 53 := by
    calc n * 2 ^ (52 - n.log2) < 2 ^ (n.log2 + 1) * 2 ^ (52 - n.log2) :=
          Nat.mul_lt_mul_of_pos_right high (by positivity)
      _ = 2 ^ 53 := by rw [← pow_add]; congr 1; omega
  refine ⟨n * 2 ^ (52 - n.log2), -((52 - n.log2 : Nat) : Int), ?_, by positivity, ?_⟩
  · have natural : ¬ ((n : Int) : Rat) < 0 := by simp
    have positive : (n == 0) = false := beq_false_of_ne (by omega)
    have one : Nat.log2 1 = 0 := by decide
    have whole : (n * 2 ^ (52 - n.log2) == 2 ^ 53) = false := beq_false_of_ne (by omega)
    have finite : ¬ -((52 - n.log2 : Nat) : Int) > 971 := by omega
    rw [ofInt, ofRat, if_neg natural, Int.cast_natCast, ofMagnitude]
    simp only [Rat.num_natCast, Rat.den_natCast, Int.toNat_natCast, positive, one,
      Int.natCast_zero, Int.sub_zero, notBelow, if_false, exponent, Int.neg_neg, scaled,
      roundHalfEven_natCast, Nat.pow_eq, whole, Bool.false_eq_true, finite]
  · rw [twoPow_eq, zpow_neg, zpow_natCast]
    push_cast
    field_simp

theorem twoPow_pos (k : Int) : 0 < twoPow k := by
  rw [twoPow_eq]
  positivity

theorem natCast_roundHalfEven_le {q : Rat} (nonneg : 0 ≤ q) : (roundHalfEven q : Rat) ≤ q + 1 := by
  have floor : (q.floor.toNat : Rat) ≤ q := by
    have below : 0 ≤ q.floor := Rat.le_floor_iff.mpr (by simpa using nonneg)
    have cast : ((q.floor.toNat : Int) : Rat) = q.floor := by rw [Int.toNat_of_nonneg below]
    rw [← Int.cast_natCast, cast]
    exact Rat.floor_le q
  rcases roundHalfEven_cases q with down | up
  · rw [down]
    linarith
  · rw [up]
    push_cast
    linarith

theorem log2_num_le {q : Rat} (nonneg : 0 ≤ q) (small : q < 2 ^ 51) (positive : q.num.toNat ≠ 0) :
    q.num.toNat.log2 ≤ q.den.log2 + 51 := by
  have parts : (q.num.toNat : Rat) = q * q.den := by
    have num : ((q.num.toNat : Int) : Rat) = q.num := by
      rw [Int.toNat_of_nonneg (Rat.num_nonneg.mpr nonneg)]
    rw [← Int.cast_natCast, num, Rat.mul_den_eq_num]
  have den : (0 : Rat) < q.den := by exact_mod_cast q.den_pos
  have below : (q.num.toNat : Rat) < ((2 ^ 51 * q.den : Nat) : Rat) := by
    rw [parts]
    push_cast
    exact mul_lt_mul_of_pos_right small den
  have bits : q.num.toNat < 2 ^ (q.den.log2 + 52) := by
    calc q.num.toNat < 2 ^ 51 * q.den := by exact_mod_cast below
      _ < 2 ^ 51 * 2 ^ (q.den.log2 + 1) := Nat.mul_lt_mul_of_pos_left Nat.lt_log2_self (by decide)
      _ = 2 ^ (q.den.log2 + 52) := by rw [← pow_add]; congr 1; omega
  have := (Nat.log2_lt positive).mpr bits
  omega

/-- Rounding on a grid that divides one raises a number by one at most. -/
theorem roundHalfEven_grid_le {q : Rat} (nonneg : 0 ≤ q) {exponent : Int} (fraction : exponent ≤ 0) :
    (roundHalfEven (q * twoPow (-exponent)) : Rat) * twoPow exponent ≤ q + 1 := by
  have unit : twoPow exponent ≤ 1 := by
    rw [twoPow_eq]
    exact zpow_le_one_of_nonpos₀ (by norm_num) fraction
  have scale : twoPow (-exponent) * twoPow exponent = 1 := by
    rw [twoPow_eq, twoPow_eq, ← zpow_add₀ (by norm_num)]
    simp
  have scaled : 0 ≤ q * twoPow (-exponent) := mul_nonneg nonneg (twoPow_pos _).le
  calc (roundHalfEven (q * twoPow (-exponent)) : Rat) * twoPow exponent
      ≤ (q * twoPow (-exponent) + 1) * twoPow exponent :=
        mul_le_mul_of_nonneg_right (natCast_roundHalfEven_le scaled) (twoPow_pos _).le
    _ = q * (twoPow (-exponent) * twoPow exponent) + twoPow exponent := by ring
    _ ≤ q + 1 := by rw [scale]; linarith

/-- Rounding a small number gives a finite number that is larger by one at most. -/
theorem ofMagnitude_small {q : Rat} (nonneg : 0 ≤ q) (small : q < 2 ^ 51) :
    ∃ mantissa exponent, ofMagnitude false q = .finite false mantissa exponent ∧
      (mantissa : Rat) * twoPow exponent ≤ q + 1 := by
  rw [ofMagnitude]
  split
  · refine ⟨0, -1074, rfl, ?_⟩
    rw [Nat.cast_zero, zero_mul]
    linarith
  · next positive =>
    have bits := log2_num_le nonneg small (by simpa using positive)
    generalize hlog : (if q < twoPow ((q.num.toNat.log2 : Int) - q.den.log2) then
        (q.num.toNat.log2 : Int) - q.den.log2 - 1 else (q.num.toNat.log2 : Int) - q.den.log2) = log
    have low : log ≤ 51 := by
      rw [← hlog]
      split <;> omega
    simp only [hlog]
    generalize hexponent : max (log - 52) (-1074) = exponent
    have fraction : exponent ≤ 0 := by omega
    have bound := roundHalfEven_grid_le nonneg fraction
    generalize roundHalfEven (q * twoPow (-exponent)) = mantissa at bound
    split
    · next carried =>
      have doubled : twoPow (exponent + 1) = twoPow exponent * 2 := by
        rw [twoPow_eq, twoPow_eq, zpow_add_one₀ (by norm_num)]
      rw [eq_of_beq carried] at bound
      refine ⟨2 ^ 52, exponent + 1, if_neg (by omega), ?_⟩
      rw [doubled]
      push_cast at bound ⊢
      linarith
    · exact ⟨mantissa, exponent, if_neg (by omega), bound⟩

theorem low_pos {mantissa : Nat} (h : mantissa ≠ 0) (exponent : Int) :
    0 < (roundingInterval mantissa exponent).low := by
  have unit := twoPow_pos exponent
  have one : (1 : Rat) ≤ mantissa := by exact_mod_cast Nat.one_le_iff_ne_zero.mpr h
  have value : twoPow exponent ≤ mantissa * twoPow exponent := le_mul_of_one_le_left unit.le one
  have quarter : mkRat 1 4 = 1 / 4 := by rw [Rat.mkRat_eq_div]; norm_num
  simp only [roundingInterval, mkRat_half, quarter]
  split <;> linarith

theorem high_pos (mantissa : Nat) (exponent : Int) :
    0 < (roundingInterval mantissa exponent).high := by
  have unit := twoPow_pos exponent
  have value : 0 ≤ (mantissa : Rat) * twoPow exponent := by positivity
  simp only [roundingInterval, mkRat_half]
  linarith

/-- Zero does not read back as a positive number. -/
theorem holds_zero {mantissa : Nat} (h : mantissa ≠ 0) (exponent : Int) :
    (roundingInterval mantissa exponent).holds 0 = false := by
  have low := low_pos h exponent
  have high := high_pos mantissa exponent
  simp [RoundingInterval.holds, low.le, low.ne, high.ne]

theorem gridPoint?_ne_zero {i : RoundingInterval} (hi : i.holds 0 = false) {q : Rat} {place : Int}
    {digits : Nat} (h : gridPoint? i q place = some digits) : digits ≠ 0 := by
  have positive (fits : i.holds (((q * tenPow (-place)).floor.toNat : Rat) * tenPow place) = true) :
      (q * tenPow (-place)).floor.toNat ≠ 0 := by
    intro zero
    rw [zero, Nat.cast_zero, zero_mul, hi] at fits
    contradiction
  unfold gridPoint? at h
  simp only at h
  split at h
  · next both =>
    have below := positive (Bool.and_eq_true_iff.mp both).1
    have rounded := roundHalfEven_cases (q * tenPow (-place))
    cases h
    omega
  split at h
  · next low =>
    cases h
    exact positive low
  split at h
  · cases h
    exact Nat.succ_ne_zero _
  · contradiction

theorem shortestFrom_ne_zero {i : RoundingInterval} (hi : i.holds 0 = false) {q : Rat}
    (hq : 1 ≤ q) {place : Int} {count : Nat} (enough : place ≤ count) :
    (shortestFrom i q place count).1 ≠ 0 := by
  induction count generalizing place with
  | zero =>
      have unit : 1 ≤ tenPow (-place) := by
        rw [tenPow_eq]
        exact one_le_zpow₀ (by norm_num) (by omega)
      have scaled : 1 ≤ q * tenPow (-place) := one_le_mul_of_one_le_of_one_le hq unit
      have floor : 1 ≤ (q * tenPow (-place)).floor := Rat.le_floor_iff.mpr (by exact_mod_cast scaled)
      rw [shortestFrom]
      omega
  | succ count ih =>
      rw [shortestFrom]
      split
      · next digits found => exact gridPoint?_ne_zero hi found
      · exact ih (by omega)

theorem dropZeros_ne_zero {digits : Nat} (h : digits ≠ 0) (exponent : Int) (count : Nat) :
    (dropZeros digits exponent count).1 ≠ 0 := by
  induction count generalizing digits exponent with
  | zero => exact h
  | succ count ih =>
      rw [dropZeros]
      split
      · next again =>
        have tens : digits % 10 = 0 := by
          simp only [Bool.and_eq_true, beq_iff_eq] at again
          exact again.2
        exact ih (by omega) _
      · exact h

theorem decimalLog_natCast {n : Nat} (small : n < 2 ^ 53) : decimalLog n ≤ 17 := by
  have bits : n.log2 ≤ 52 := by
    by_cases zero : n = 0
    · subst zero
      decide
    · have := (Nat.log2_lt zero).mpr small
      omega
  have one : Nat.log2 1 = 0 := by decide
  have guess : ((n.log2 : Int) * 30103).fdiv 100000 - 1 ≤ 15 := by
    rw [Int.fdiv_eq_ediv_of_nonneg _ (by decide)]
    omega
  rw [decimalLog]
  simp only [Rat.num_natCast, Rat.den_natCast, Int.toNat_natCast, one, Int.natCast_zero, Int.sub_zero]
  split
  · omega
  split
  · omega
  · omega

/-- The shortest decimal of a natural number has digits other than zero. -/
theorem shortestDecimal_ne_zero {mantissa : Nat} {exponent : Int} {n : Nat} (pos : 0 < n)
    (small : n < 2 ^ 53) (h : mantissa ≠ 0) (value : (mantissa : Rat) * twoPow exponent = n) :
    (shortestDecimal mantissa exponent).1 ≠ 0 := by
  have one : (1 : Rat) ≤ n := by exact_mod_cast pos
  have found := shortestFrom_ne_zero (holds_zero h exponent) one (decimalLog_natCast small)
  rw [shortestDecimal]
  simp only [value]
  exact dropZeros_ne_zero found _ _

end QueryHarvest.Number
