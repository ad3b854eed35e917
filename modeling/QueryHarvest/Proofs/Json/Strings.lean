import Mathlib
import QueryHarvest.Json.Reader
import QueryHarvest.Json.Writer

/-! # JSON strings read back

Every escape of a character is read as that character, and so a string is read as the text that it was
written from, whatever characters the text holds.
-/

namespace QueryHarvest.Json

open Text Number

theorem hexValue?_digitChar : ∀ d < 16, Uuid.hexValue? (Nat.digitChar d) = some d := by
  decide

theorem hex_four {n : Nat} (h : n < 0x10000) :
    hex 4 n = [Nat.digitChar (n / 0x1000), Nat.digitChar (n / 0x100 % 0x10),
      Nat.digitChar (n / 0x10 % 0x10), Nat.digitChar (n % 0x10)] := by
  have last {m : Nat} (hm : m < 16) : Nat.toDigits 16 m = [m.digitChar] :=
    Nat.toDigits_of_lt_base hm
  have more {m : Nat} (hm : 16 ≤ m) :
      Nat.toDigits 16 m = Nat.toDigits 16 (m / 16) ++ [(m % 16).digitChar] :=
    Nat.toDigits_of_base_le (by decide) hm
  unfold hex
  by_cases one : n < 16
  · have parts : n / 0x1000 = 0 ∧ n / 0x100 % 0x10 = 0 ∧ n / 0x10 % 0x10 = 0 ∧ n % 0x10 = n := by
      omega
    rw [last one]
    simp [parts, List.replicate]
  rw [more (by omega)]
  by_cases two : n < 256
  · have parts : n / 0x1000 = 0 ∧ n / 0x100 % 0x10 = 0 ∧ n / 0x10 % 0x10 = n / 16 := by omega
    rw [last (by omega)]
    simp [parts, List.replicate]
  rw [more (by omega)]
  by_cases three : n < 4096
  · have parts : n / 0x1000 = 0 ∧ n / 0x100 % 0x10 = n / 16 / 16 := by omega
    rw [last (by omega)]
    simp [parts]
  have parts : n / 16 / 16 / 16 = n / 4096 ∧ n / 16 / 16 % 16 = n / 256 % 16 := by omega
  rw [more (by omega), last (by omega)]
  simp [parts]

theorem toNat_lt (c : Char) : c.toNat < 0x110000 := by
  rcases c.valid with low | ⟨_, high⟩
  · exact Nat.lt_trans low (by decide)
  · exact high

theorem utf16Units_lt (c : Char) : ∀ unit ∈ utf16Units c.toNat, unit < 0x10000 := by
  have bound := toNat_lt c
  intro unit member
  unfold utf16Units at member
  split at member
  · rw [List.mem_singleton.mp member]
    assumption
  · simp only [List.mem_cons, List.not_mem_nil, or_false] at member
    omega

namespace Reader

/-- The state after some more characters. -/
def run (r : Reader) (chars : List Char) : Option Reader :=
  chars.foldlM step r

@[simp] theorem run_nil (r : Reader) : r.run [] = some r :=
  rfl

@[simp] theorem run_cons (r : Reader) (c : Char) (chars : List Char) :
    r.run (c :: chars) = (r.step c).bind fun next => next.run chars := by
  rw [run, List.foldlM_cons]
  rfl

@[simp] theorem run_append (r : Reader) (chars more : List Char) :
    r.run (chars ++ more) = (r.run chars).bind fun next => next.run more := by
  rw [run, List.foldlM_append]
  rfl

/-- Characters that are read to some state may be followed by others. -/
theorem run_append_of_eq {r next : Reader} {chars : List Char} (h : r.run chars = some next)
    (more : List Char) : r.run (chars ++ more) = next.run more := by
  rw [run_append, h, Option.bind_some]

variable {r : Reader} {chars : List Char}

theorem step_digit {high : Option Nat} {count value d : Nat} (hd : d < 16) (more : count ≠ 3) :
    ({ r with mode := .unicode chars high count value } : Reader).step (Nat.digitChar d) =
      some { r with mode := .unicode chars high (count + 1) (16 * value + d) } := by
  simp only [step, hexValue?_digitChar d hd]
  exact if_neg (by simpa using more)

theorem step_last_digit {high : Option Nat} {value d : Nat} (hd : d < 16) :
    ({ r with mode := .unicode chars high 3 value } : Reader).step (Nat.digitChar d) =
      r.endUnicode chars high (16 * value + d) := by
  simp only [step, hexValue?_digitChar d hd]
  rfl

theorem run_hex {high : Option Nat} {unit : Nat} (h : unit < 0x10000) :
    ({ r with mode := .unicode chars high 0 0 } : Reader).run (hex 4 unit) =
      r.endUnicode chars high unit := by
  have value : 16 * (16 * (16 * (16 * 0 + unit / 0x1000) + unit / 0x100 % 0x10) +
      unit / 0x10 % 0x10) + unit % 0x10 = unit := by omega
  rw [hex_four h, run_cons, step_digit (by omega) (by decide), Option.bind_some, run_cons,
    step_digit (by omega) (by decide), Option.bind_some, run_cons, step_digit (by omega) (by decide),
    Option.bind_some, run_cons, step_last_digit (by omega), value]
  simp only [run_nil, Option.bind_fun_some]

/-- A unit that is no half of a surrogate pair is read as its character. -/
theorem endUnicode_single {c : Char} (h : c.toNat < 0x10000) :
    r.endUnicode chars none c.toNat = some { r with mode := .string (c :: chars) } := by
  have valid : c.toNat < 0xD800 ∨ 0xE000 ≤ c.toNat := by
    rcases c.valid with low | ⟨high, _⟩
    · exact .inl low
    · exact .inr high
  have noHigh : (0xD800 ≤ c.toNat && c.toNat < 0xDC00) = false := by
    simp only [Bool.and_eq_false_iff, decide_eq_false_iff_not]
    omega
  have noLow : (0xDC00 ≤ c.toNat && c.toNat < 0xE000) = false := by
    simp only [Bool.and_eq_false_iff, decide_eq_false_iff_not]
    omega
  simp [endUnicode, noHigh, noLow]

theorem run_mark (rest : List Char) :
    ({ r with mode := .string chars } : Reader).run ('\\' :: 'u' :: rest) =
      ({ r with mode := .unicode chars none 0 0 } : Reader).run rest :=
  rfl

theorem endUnicode_high {high : Nat} (h : 0xD800 ≤ high ∧ high < 0xDC00) :
    r.endUnicode chars none high = some { r with mode := .afterHigh chars high } := by
  have inside : (0xD800 ≤ high && high < 0xDC00) = true := by
    simp only [Bool.and_eq_true, decide_eq_true_eq]
    exact h
  rw [endUnicode, inside]
  rfl

theorem endUnicode_low {high low : Nat} (h : 0xDC00 ≤ low ∧ low < 0xE000) {c : Char}
    (code : 0x10000 + (high - 0xD800) * 0x400 + (low - 0xDC00) = c.toNat) :
    r.endUnicode chars (some high) low = some { r with mode := .string (c :: chars) } := by
  have inside : (0xDC00 ≤ low && low < 0xE000) = true := by
    simp only [Bool.and_eq_true, decide_eq_true_eq]
    exact h
  rw [endUnicode, inside, if_pos rfl, code]
  simp only [Char.ofNat_toNat]

theorem run_pair {high low : Nat} (hhigh : 0xD800 ≤ high ∧ high < 0xDC00)
    (hlow : 0xDC00 ≤ low ∧ low < 0xE000) {c : Char}
    (code : 0x10000 + (high - 0xD800) * 0x400 + (low - 0xDC00) = c.toNat) :
    ({ r with mode := .string chars } : Reader).run
        ([high, low].flatMap fun unit => '\\' :: 'u' :: hex 4 unit) =
      some { r with mode := .string (c :: chars) } := by
  have first : ({ r with mode := .unicode chars none 0 0 } : Reader).run (hex 4 high) =
      some { r with mode := .afterHigh chars high } := by
    rw [run_hex (by omega), endUnicode_high hhigh]
  have second : ({ r with mode := .unicode chars (some high) 0 0 } : Reader).run (hex 4 low) =
      some { r with mode := .string (c :: chars) } := by
    rw [run_hex (by omega), endUnicode_low hlow code]
  rw [List.flatMap_cons, List.flatMap_singleton, List.cons_append, List.cons_append, run_mark,
    run_append_of_eq first]
  exact second

/-- The escapes of the UTF-16 units of a character are read as the character. -/
theorem run_units (c : Char) :
    ({ r with mode := .string chars } : Reader).run
        ((utf16Units c.toNat).flatMap fun unit => '\\' :: 'u' :: hex 4 unit) =
      some { r with mode := .string (c :: chars) } := by
  unfold utf16Units
  split
  · next small =>
    rw [List.flatMap_singleton, run_mark, run_hex small, endUnicode_single small]
  · next large =>
    have bound := toNat_lt c
    exact run_pair (by omega) (by omega) (by omega)

/-- What a character is written as in a string is read as the character. -/
theorem run_escapeChar (c : Char) :
    ({ r with mode := .string chars } : Reader).run (escapeChar c) =
      some { r with mode := .string (c :: chars) } := by
  unfold escapeChar
  split
  · next h => rw [eq_of_beq h]; rfl
  split
  · next h => rw [eq_of_beq h]; rfl
  split
  · next h => rw [eq_of_beq h]; rfl
  split
  · next h => rw [eq_of_beq h]; rfl
  split
  · next h => rw [eq_of_beq h]; rfl
  split
  · next h => rw [eq_of_beq h]; rfl
  split
  · next h => rw [eq_of_beq h]; rfl
  split
  · next noQuote noBackslash _ _ _ _ _ printable =>
    have visible : ¬ c.toNat < 0x20 := by
      simp only [Bool.and_eq_true, decide_eq_true_eq] at printable
      omega
    simp [step, noQuote, noBackslash, visible]
  · exact run_units c

theorem run_escapes (text : List Char) :
    ({ r with mode := .string chars } : Reader).run (text.flatMap escapeChar) =
      some { r with mode := .string (text.reverse ++ chars) } := by
  induction text generalizing chars with
  | nil => rfl
  | cons c text ih =>
      rw [List.flatMap_cons, run_append_of_eq (run_escapeChar c), ih, List.reverse_cons,
        List.append_assoc]
      rfl

/-- A string is read as a text. -/
theorem run_string (s : String) (between : r.mode = .between) :
    r.run (string s).toList = r.emit (.scalar (.text s)) := by
  have opened : r.run ('\x22' :: (s.toList.flatMap escapeChar ++ ['\x22'])) =
      ({ r with mode := .string [] } : Reader).run (s.toList.flatMap escapeChar ++ ['\x22']) := by
    rw [run_cons, step, between]
    rfl
  rw [string, String.toList_ofList, List.cons_append, opened, run_append_of_eq (run_escapes s.toList),
    List.append_nil, run_cons]
  have closed : ({ r with mode := .string s.toList.reverse } : Reader).step '\x22' =
      r.emit (.scalar (.text s)) := by
    simp only [step, beq_self_eq_true, if_true, List.reverse_reverse, String.ofList_toList]
    rfl
  rw [closed]
  simp only [run_nil, Option.bind_fun_some]

end Reader

end QueryHarvest.Json
