import QueryHarvest.Proofs.Number.Digits
import QueryHarvest.Proofs.Number.Rounding
import QueryHarvest.Proofs.Text.Searching
import QueryHarvest.Json.Reader
import QueryHarvest.Json.Writer

/-! # JSON numbers read back

The text of an integer is read as the integer, and the text of a floating point number as a floating
point number: it has a point or an exponent, and its integer digits begin with no zero.
-/

namespace QueryHarvest.Json

open Text Number

/-- Digits that can stand in front of a point: there are some, and no zero leads. -/
structure WholeDigits (whole : List Char) : Prop where
  nonempty : whole ≠ []
  digits : ∀ c ∈ whole, c.isDigit
  leading : whole.length = 1 ∨ whole.head? ≠ some '0'

theorem head_toDigits {n : Nat} (h : n ≠ 0) : (Nat.toDigits 10 n).head? ≠ some '0' := by
  induction n using Nat.strongRecOn with
  | ind n ih =>
      by_cases small : n < 10
      · rw [Nat.toDigits_of_lt_base small]
        have apart : ∀ d < 10, d ≠ 0 → [Nat.digitChar d].head? ≠ some '0' := by decide
        exact apart n small h
      · rw [Nat.toDigits_of_base_le (by decide) (by omega),
          List.head?_append_of_ne_nil _ Nat.toDigits_ne_nil]
        exact ih (n / 10) (by omega) (by omega)

theorem wholeDigits_toDigits (n : Nat) : WholeDigits (Nat.toDigits 10 n) where
  nonempty := Nat.toDigits_ne_nil
  digits _ member := isDigit_char_of_mem_toDigits member
  leading := by
    by_cases h : n = 0
    · subst h
      exact .inl rfl
    · exact .inr (head_toDigits h)

theorem takeWhile_digits {digits rest : List Char} (h : ∀ c ∈ digits, c.isDigit)
    (stops : Stops Char.isDigit rest) :
    (digits ++ rest).takeWhile Char.isDigit = digits ∧
      (digits ++ rest).dropWhile Char.isDigit = rest := by
  have span := @Cursor.span_append Char.isDigit none digits rest h stops
  exact ⟨congrArg Prod.fst span, congrArg (·.2.rest) span⟩

/-- The sign of a number. -/
def sign (negative : Bool) : List Char :=
  if negative then ['-'] else []

section

variable {negative : Bool} {whole rest : List Char}

/-- No number begins like a word. -/
theorem number_ne_word (h : WholeDigits whole) {word : List Char}
    (odd : ∀ d : Char, d.isDigit → word.head? ≠ some d ∧ word.take 2 ≠ ['-', d]) :
    sign negative ++ (whole ++ rest) ≠ word := by
  rintro rfl
  obtain ⟨c, more, rfl⟩ := List.exists_cons_of_ne_nil h.nonempty
  obtain ⟨noDigit, noSign⟩ := odd c (h.digits c (List.mem_cons_self ..))
  cases negative with
  | false => exact noDigit rfl
  | true => exact noSign rfl

theorem bare?_number (h : WholeDigits whole) (occurrence : Occurrence) :
    bare? occurrence (sign negative ++ (whole ++ rest)) =
      number? (sign negative ++ (whole ++ rest)) := by
  have apart (word : String) (odd : ∀ d : Char, d.isDigit →
      word.toList.head? ≠ some d ∧ word.toList.take 2 ≠ ['-', d]) :
      String.ofList (sign negative ++ (whole ++ rest)) ≠ word := by
    intro same
    have chars := congrArg String.toList same
    rw [String.toList_ofList] at chars
    exact number_ne_word h odd chars
  have letter {x : Char} (more : List Char) (hx : x.isDigit = false) (visible : x ≠ '-') :
      ∀ d : Char, d.isDigit → (x :: more).head? ≠ some d ∧ (x :: more).take 2 ≠ ['-', d] := by
    refine fun d digit => ⟨?_, ?_⟩
    · rintro ⟨⟩
      rw [digit] at hx
      contradiction
    · intro same
      exact visible (List.cons.inj same).1
  unfold bare?
  split
  · next same => exact absurd same (apart _ (letter ['u', 'l', 'l'] rfl (by decide)))
  · next same => exact absurd same (apart _ (letter ['r', 'u', 'e'] rfl (by decide)))
  · next same => exact absurd same (apart _ (letter ['a', 'l', 's', 'e'] rfl (by decide)))
  · next same => exact absurd same (apart _ (letter ['a', 'N'] rfl (by decide)))
  · next same =>
    exact absurd same (apart _ (letter ['n', 'f', 'i', 'n', 'i', 't', 'y'] rfl (by decide)))
  · next same =>
    refine absurd same (apart _ fun d digit => ⟨?_, ?_⟩)
    · rintro ⟨⟩
      contradiction
    · rintro ⟨⟩
      contradiction
  · rfl

/-- A number is read by its integer digits and by what follows them. -/
theorem number?_parts (h : WholeDigits whole) (stops : Stops Char.isDigit rest) :
    number? (sign negative ++ (whole ++ rest)) =
      match fractionAndExponent? rest with
      | none => none
      | some none =>
        match ofDigits whole with
        | .ok magnitude => some (.int (if negative then -(magnitude : Int) else magnitude))
        | .error _ => none
      | some (some (fraction, exponent)) =>
        some (.float (Binary64.ofDecimal negative (digitsValue (whole ++ fraction))
          (exponent - fraction.length))) := by
  obtain ⟨taken, dropped⟩ := takeWhile_digits h.digits stops
  have accepted : (whole.isEmpty || (decide (whole.length > 1) && whole.head? == some '0')) = false := by
    have nonempty := h.nonempty
    rcases h.leading with single | other
    · simp [nonempty, single]
    · simp [nonempty, other]
  unfold number?
  split
  next minus body heq =>
    have parts : minus = negative ∧ body = whole ++ rest := by
      cases negative with
      | true =>
          cases heq
          exact ⟨rfl, rfl⟩
      | false =>
          obtain ⟨c, more, rfl⟩ := List.exists_cons_of_ne_nil h.nonempty
          have digit := h.digits c (List.mem_cons_self ..)
          split at heq
          · next same =>
            cases same
            contradiction
          · cases heq
            exact ⟨rfl, rfl⟩
    obtain ⟨rfl, rfl⟩ := parts
    simp only [taken, dropped, accepted]
    rfl

end

theorem toList_int (n : Int) :
    (toString n).toList = sign (decide (n < 0)) ++ (Nat.toDigits 10 n.natAbs ++ []) := by
  cases n with
  | ofNat m =>
      have text : toString (Int.ofNat m) = m.repr := rfl
      have natural : decide (Int.ofNat m < 0) = false := by simp
      rw [text, Nat.toList_repr, natural, List.append_nil]
      rfl
  | negSucc m =>
      have text : toString (Int.negSucc m) = "-" ++ (m + 1).repr := rfl
      have negative : decide (Int.negSucc m < 0) = true := by simp
      rw [text, String.toList_append, Nat.toList_repr, negative, List.append_nil]
      rfl

/-- The text of an integer of not too many digits is read as the integer. -/
theorem bare?_int {n : Int} (h : n.natAbs < 10 ^ maxDigits) (occurrence : Occurrence) :
    bare? occurrence (toString n).toList = some (.int n) := by
  have whole := wholeDigits_toDigits n.natAbs
  have value : (if decide (n < 0) then -(n.natAbs : Int) else n.natAbs) = n := by
    split
    · next negative =>
      have := of_decide_eq_true negative
      omega
    · next natural =>
      have : ¬ n < 0 := by simpa using natural
      omega
  rw [toList_int, bare?_number whole, number?_parts whole (stops_nil _), ofDigits_toDigits h]
  simp only [fractionAndExponent?, List.isEmpty_nil, if_true, value]

/-- The characters of numbers. -/
def isNumberChar (c : Char) : Bool :=
  c.isDigit || c == '-' || c == '.' || c == 'e' || c == '+'

/-- What follows the integer digits of a floating point number. -/
structure FloatTail (rest : List Char) : Prop where
  found : ∃ fraction exponent, fractionAndExponent? rest = some (some (fraction, exponent))
  stops : Stops Char.isDigit rest
  chars : ∀ c ∈ rest, isNumberChar c

theorem isNumberChar_digit {c : Char} (h : c.isDigit) : isNumberChar c := by
  rw [isNumberChar, h]
  rfl

theorem all_digits_append {digits rest : List Char} (h : ∀ c ∈ digits, c.isDigit)
    (hrest : ∀ c ∈ rest, isNumberChar c) : ∀ c ∈ digits ++ rest, isNumberChar c := by
  intro c member
  rcases List.mem_append.mp member with member | member
  · exact isNumberChar_digit (h c member)
  · exact hrest c member

theorem forall_mem_cons_of {p : Char → Prop} {x : Char} {chars : List Char} (hx : p x)
    (h : ∀ c ∈ chars, p c) : ∀ c ∈ x :: chars, p c :=
  List.forall_mem_cons.mpr ⟨hx, h⟩

/-- The exponent of a number, behind its letter: a sign and digits. -/
def ExponentDigits (text : List Char) : Prop :=
  ∃ mark digits, text = mark :: digits ∧ (mark = '+' ∨ mark = '-') ∧ digits ≠ [] ∧
    ∀ c ∈ digits, c.isDigit

theorem exponent_read {text : List Char} (h : ExponentDigits text) :
    ∃ negative digits, splitSign text = (negative, digits) ∧
      (digits.isEmpty || !digits.all Char.isDigit) = false := by
  obtain ⟨mark, digits, rfl, signed, nonempty, all⟩ := h
  have accepted : (digits.isEmpty || !digits.all Char.isDigit) = false := by
    rw [List.all_eq_true.mpr all]
    simpa using nonempty
  rcases signed with rfl | rfl
  · exact ⟨false, digits, rfl, accepted⟩
  · exact ⟨true, digits, rfl, accepted⟩

theorem exponent_chars {text : List Char} (h : ExponentDigits text) :
    ∀ c ∈ 'e' :: text, isNumberChar c := by
  obtain ⟨mark, digits, rfl, signed, -, all⟩ := h
  refine forall_mem_cons_of rfl (forall_mem_cons_of ?_ fun c member => isNumberChar_digit (all c member))
  rcases signed with rfl | rfl <;> rfl

theorem floatTail_exponent {text : List Char} (h : ExponentDigits text) : FloatTail ('e' :: text) where
  found := by
    obtain ⟨negative, digits, split, accepted⟩ := exponent_read h
    simp [fractionAndExponent?, split, accepted]
  stops := stops_cons rfl
  chars := exponent_chars h

theorem floatTail_fraction {fraction : List Char} (nonempty : fraction ≠ [])
    (digits : ∀ c ∈ fraction, c.isDigit) : FloatTail ('.' :: fraction) where
  found := by
    obtain ⟨taken, dropped⟩ := takeWhile_digits digits (stops_nil _)
    rw [List.append_nil] at taken dropped
    simp [fractionAndExponent?, taken, dropped, nonempty]
  stops := stops_cons rfl
  chars := forall_mem_cons_of rfl fun c member => isNumberChar_digit (digits c member)

theorem floatTail_both {fraction text : List Char} (nonempty : fraction ≠ [])
    (digits : ∀ c ∈ fraction, c.isDigit) (h : ExponentDigits text) :
    FloatTail ('.' :: (fraction ++ 'e' :: text)) where
  found := by
    obtain ⟨taken, dropped⟩ := @takeWhile_digits _ ('e' :: text) digits (stops_cons rfl)
    obtain ⟨negative, digits, split, accepted⟩ := exponent_read h
    simp [fractionAndExponent?, taken, dropped, nonempty, split, accepted]
  stops := stops_cons rfl
  chars := forall_mem_cons_of rfl (all_digits_append digits (exponent_chars h))

theorem exponentDigits_text (n : Int) : ExponentDigits (exponentText n).toList := by
  have digits : ∀ c ∈ Nat.toDigits 10 n.natAbs, c.isDigit := fun c =>
    isDigit_char_of_mem_toDigits
  have padded : ∀ c ∈ '0' :: Nat.toDigits 10 n.natAbs, c.isDigit := forall_mem_cons_of rfl digits
  have mark : (if n < 0 then "-" else "+").toList = [if n < 0 then '-' else '+'] := by
    split <;> rfl
  have signed : (if n < 0 then '-' else '+') = '+' ∨ (if n < 0 then '-' else '+') = '-' := by
    split
    · exact .inr rfl
    · exact .inl rfl
  unfold exponentText
  by_cases short : (toString n.natAbs).length < 2
  · refine ⟨_, _, ?_, signed, List.cons_ne_nil _ _, padded⟩
    simp only [short, if_true, String.toList_append, mark]
    simp
  · refine ⟨_, _, ?_, signed, Nat.toDigits_ne_nil, digits⟩
    simp only [short, if_false, String.toList_append, mark]
    simp

/-- The text of a decimal is made of the characters of numbers. -/
theorem isNumberChar_decimalText (digits : Nat) (exponent : Int) :
    ∀ c ∈ (decimalText digits exponent).toList, isNumberChar c := by
  have all : ∀ c ∈ Nat.toDigits 10 digits, isNumberChar c := fun c member =>
    isNumberChar_digit (isDigit_char_of_mem_toDigits member)
  have zeros (n : Nat) : ∀ c ∈ List.replicate n '0', isNumberChar c := by
    intro c member
    rw [List.eq_of_mem_replicate member]
    rfl
  have power (n : Int) : ∀ c ∈ (exponentText n).toList, isNumberChar c := fun c member =>
    exponent_chars (exponentDigits_text n) c (List.mem_cons_of_mem _ member)
  unfold decimalText
  generalize Nat.toDigits 10 digits = chars at all
  simp only
  split
  · split
    · simp only [String.toList_append, String.toList_ofList, List.forall_mem_append]
      exact ⟨by simp [isNumberChar], zeros _, all⟩
    split
    · simp only [String.toList_append, String.toList_ofList, List.forall_mem_append]
      exact ⟨⟨all, zeros _⟩, by simp [isNumberChar]⟩
    · simp only [String.toList_append, String.toList_ofList, List.forall_mem_append]
      exact ⟨⟨fun c member => all c (List.mem_of_mem_take member), by simp [isNumberChar]⟩,
        fun c member => all c (List.mem_of_mem_drop member)⟩
  · simp only [String.toList_append, List.forall_mem_append]
    refine ⟨⟨?_, by simp [isNumberChar]⟩, power _⟩
    split
    · simp [isNumberChar]
    · rwa [String.toList_ofList]
    · rw [String.toList_ofList]
      rw [List.forall_mem_cons] at all
      exact forall_mem_cons_of all.1 (forall_mem_cons_of rfl all.2)

/-- What the text of a positive decimal is made of. -/
theorem decimalText_parts {digits : Nat} (h : digits ≠ 0) (exponent : Int) :
    ∃ whole rest, (decimalText digits exponent).toList = whole ++ rest ∧ WholeDigits whole ∧
      FloatTail rest := by
  have nonempty : Nat.toDigits 10 digits ≠ [] := Nat.toDigits_ne_nil
  have all : ∀ c ∈ Nat.toDigits 10 digits, c.isDigit := fun c => isDigit_char_of_mem_toDigits
  have leading := head_toDigits h
  have zeros (n : Nat) : ∀ c ∈ List.replicate n '0', c.isDigit := by
    intro c member
    rw [List.eq_of_mem_replicate member]
    rfl
  have appended {first second : List Char} (hfirst : ∀ c ∈ first, c.isDigit)
      (hsecond : ∀ c ∈ second, c.isDigit) : ∀ c ∈ first ++ second, c.isDigit := fun c member =>
    (List.mem_append.mp member).elim (hfirst c) (hsecond c)
  unfold decimalText
  generalize Nat.toDigits 10 digits = chars at nonempty all leading
  obtain ⟨c, more, rfl⟩ := List.exists_cons_of_ne_nil nonempty
  simp only
  split
  · next positional =>
    split
    · -- the point stands in front of the digits
      refine ⟨['0'], _, by simp; rfl, ⟨by simp, by simp, .inl rfl⟩,
        floatTail_fraction ?_ (appended (zeros _) all)⟩
      simp
    split
    · -- the point stands behind them
      refine ⟨_, ['.', '0'], by simp; rfl, ⟨by simp, appended all (zeros _), .inr ?_⟩,
        floatTail_fraction (by simp) (by simp)⟩
      simpa using leading
    · -- the point stands among them
      next before behind =>
      have front : (c :: more).take (((c :: more).length : Int) + exponent).toNat ≠ [] := by
        simp only [ne_eq, List.take_eq_nil_iff, not_or]
        exact ⟨by omega, List.cons_ne_nil _ _⟩
      have back : (c :: more).drop (((c :: more).length : Int) + exponent).toNat ≠ [] := by
        simp only [ne_eq, List.drop_eq_nil_iff]
        omega
      refine ⟨_, _, by simp only [String.toList_append, String.toList_ofList, List.append_assoc]; rfl,
        ⟨front, fun x member => all x (List.mem_of_mem_take member), .inr ?_⟩,
        floatTail_fraction back fun x member => all x (List.mem_of_mem_drop member)⟩
      rw [List.head?_take, if_neg (by omega)]
      exact leading
  · have single : WholeDigits [c] :=
      ⟨List.cons_ne_nil _ _, fun x member => all x (by simp_all), .inl rfl⟩
    have written := exponentDigits_text ((((c :: more).length : Int) + exponent) - 1)
    cases more with
    | nil => exact ⟨[c], _, by simp only [String.toList_append, String.toList_ofList]; rfl, single,
        floatTail_exponent written⟩
    | cons d more =>
        exact ⟨[c], _,
          by simp only [String.toList_append, String.toList_ofList, List.append_assoc]; rfl, single,
          floatTail_both (List.cons_ne_nil d more) (fun x member => all x (List.mem_cons_of_mem _ member))
            written⟩

/-- A floating point number is read from digits and what makes them one. -/
theorem bare?_floatTail {whole rest : List Char} (h : WholeDigits whole) (tail : FloatTail rest) :
    ∃ x, ∀ occurrence, bare? occurrence (whole ++ rest) = some (.float x) := by
  obtain ⟨fraction, power, found⟩ := tail.found
  have parts := @number?_parts false whole rest h tail.stops
  rw [found] at parts
  exact ⟨_, fun occurrence => (@bare?_number false whole rest h occurrence).trans parts⟩

/-- What the text of a natural number among the binary ones is made of. -/
theorem float_natCast_parts {n : Nat} (small : n < 2 ^ 53) :
    ∃ whole rest, (float (Binary64.ofInt n)).toList = whole ++ rest ∧ WholeDigits whole ∧
      FloatTail rest := by
  by_cases zero : n = 0
  · subst zero
    exact ⟨['0'], ['.', '0'], rfl, ⟨by simp, by simp, .inl rfl⟩,
      floatTail_fraction (List.cons_ne_nil _ _) (by simp)⟩
  · obtain ⟨mantissa, exponent, binary, nonzero, value⟩ := ofInt_natCast (Nat.pos_of_ne_zero zero) small
    have digits := shortestDecimal_ne_zero (Nat.pos_of_ne_zero zero) small nonzero value
    have text : float (Binary64.ofInt n) = decimalText (shortestDecimal mantissa exponent).1
        (shortestDecimal mantissa exponent).2 := by
      rw [binary, float]
      · simp only [Binary64.text, beq_eq_false_iff_ne.mpr nonzero, Bool.false_eq_true, if_false,
          String.empty_append]
      · simp
      · simp
    rw [text]
    exact decimalText_parts digits _

end QueryHarvest.Json
