import Mathlib
import QueryHarvest.Text.Blank
import QueryHarvest.Text.Case
import QueryHarvest.Text.Digit
import QueryHarvest.Text.Word

/-! # Classes of characters

What the classes have to do with each other: by looking through ASCII, and through the tables for the
characters beyond.
-/

namespace QueryHarvest.Text

@[elab_as_elim]
theorem of_ascii {P : Char → Prop} {c : Char} (ascii : c.toNat < 128)
    (h : ∀ n : Fin 128, P (Char.ofNat n)) : P c := by
  have here := h ⟨c.toNat, ascii⟩
  rwa [Char.ofNat_toNat] at here

theorem ascii_of_isAlphanum {c : Char} (h : c.isAlphanum) : c.toNat < 128 := by
  have top : c.val.toNat ≤ 122 := by
    simp only [Char.isAlphanum, Char.isAlpha, Char.isUpper, Char.isLower, Char.isDigit, Bool.or_eq_true,
      Bool.and_eq_true, decide_eq_true_eq, UInt32.le_iff_toNat_le] at h
    rcases h with (⟨_, upper⟩ | ⟨_, upper⟩) | ⟨_, upper⟩ <;> exact Nat.le_trans upper (by decide)
  exact Nat.lt_of_le_of_lt top (by decide)

theorem ascii_of_isDigit {c : Char} (h : c.isDigit) : c.toNat < 128 :=
  ascii_of_isAlphanum (by rw [Char.isAlphanum, h, Bool.or_true])

/-- How the classes meet within ASCII. -/
structure Classed (c : Char) : Prop where
  blank : isBlank c → isWord c = false ∧ isDigit c = false
  digit : isDigit c → isWord c
  identPart : isIdentPart c → isWord c ∧ isBlank c = false
  identStart : isIdentStart c → isDigit c = false

theorem classed_of_ascii {c : Char} (ascii : c.toNat < 128) : Classed c := by
  obtain ⟨blank, digit, identPart, identStart⟩ :
      (isBlank c → isWord c = false ∧ isDigit c = false) ∧ (isDigit c → isWord c) ∧
        (isIdentPart c → isWord c ∧ isBlank c = false) ∧ (isIdentStart c → isDigit c = false) :=
    of_ascii ascii (by decide +kernel)
  exact ⟨blank, digit, identPart, identStart⟩

/-- The blanks beyond ASCII. -/
def wideBlanks : List Nat :=
  [0x85, 0xA0, 0x1680] ++ List.range' 0x2000 11 ++ [0x2028, 0x2029, 0x202F, 0x205F, 0x3000]

theorem wideBlanks_apart : ∀ code ∈ wideBlanks, wordRanges.covers code = false ∧
    digitZeros.find? (fun base => base ≤ code && code < base + 10) = none := by
  decide +kernel

theorem mem_wideBlanks {c : Char} (h : isBlank c) (wide : ¬ c.toNat < 128) : c.toNat ∈ wideBlanks := by
  simp only [isBlank, Bool.or_eq_true, Bool.and_eq_true, decide_eq_true_eq, beq_iff_eq] at h
  simp only [wideBlanks, List.mem_append, List.mem_cons, List.not_mem_nil, or_false, List.mem_range'_1]
  omega

theorem isWord_of_isBlank {c : Char} (h : isBlank c) : isWord c = false := by
  by_cases ascii : c.toNat < 128
  · exact ((classed_of_ascii ascii).blank h).1
  · rw [isWord, if_neg ascii, (wideBlanks_apart _ (mem_wideBlanks h ascii)).1]

theorem isDigit_of_isBlank {c : Char} (h : isBlank c) : isDigit c = false := by
  by_cases ascii : c.toNat < 128
  · exact ((classed_of_ascii ascii).blank h).2
  · rw [isDigit, digitValue?, if_neg ascii, (wideBlanks_apart _ (mem_wideBlanks h ascii)).2]
    rfl

/-- The end of the range that a code point is in. -/
def endOfRange? : CodeRanges → Nat → Option Nat
  | [], _ => none
  | (low, high) :: rest, code =>
    if code < low then none else if code ≤ high then some high else endOfRange? rest code

theorem covers_of_endOfRange? {ranges : CodeRanges} {first last code : Nat}
    (found : endOfRange? ranges first = some last) (begins : first ≤ code) (ends : code ≤ last) :
    ranges.covers code := by
  induction ranges with
  | nil => cases found
  | cons range rest ih =>
      obtain ⟨low, high⟩ := range
      rw [endOfRange?] at found
      rw [CodeRanges.covers]
      split at found
      · cases found
      · next reached =>
        rw [if_neg (by omega), Bool.or_eq_true, decide_eq_true_eq]
        split at found
        · cases found
          exact .inl ends
        · exact .inr (ih found)

theorem digitZeros_words :
    ∀ base ∈ digitZeros, ∃ last ∈ endOfRange? wordRanges base, base + 9 ≤ last := by
  decide +kernel

/-- The decimal digits of every script are word characters. -/
theorem isWord_of_isDigit {c : Char} (h : isDigit c) : isWord c := by
  by_cases ascii : c.toNat < 128
  · exact (classed_of_ascii ascii).digit h
  · rw [isDigit, digitValue?, if_neg ascii, Option.isSome_map, List.find?_isSome] at h
    obtain ⟨base, member, near⟩ := h
    simp only [Bool.and_eq_true, decide_eq_true_eq] at near
    obtain ⟨last, found, reaches⟩ := digitZeros_words base member
    rw [isWord, if_neg ascii]
    exact covers_of_endOfRange? found near.1 (by omega)

/-- The four letters beyond ASCII that count as variants of ASCII ones. -/
def variants : List Nat := [0x130, 0x131, 0x17F, 0x212A]

theorem variants_apart : ∀ code ∈ variants, code ∉ wideBlanks ∧ wordRanges.covers code ∧
    digitZeros.find? (fun base => base ≤ code && code < base + 10) = none := by
  decide +kernel

theorem foldLetter_wide {c : Char} (wide : ¬ c.toNat < 128) (plain : c.toNat ∉ variants) :
    foldLetter c = c := by
  simp only [variants, List.mem_cons, List.not_mem_nil, or_false, not_or] at plain
  simp [foldLetter, wide, plain]

theorem mem_variants_of_isIdentPart {c : Char} (h : isIdentPart c) (wide : ¬ c.toNat < 128) :
    c.toNat ∈ variants := by
  by_contra plain
  refine wide ?_
  rw [isIdentPart, isIdentStart, foldLetter_wide wide plain, Bool.or_eq_true, Bool.or_eq_true,
    beq_iff_eq] at h
  rcases h with (letter | rfl) | digit
  · exact ascii_of_isAlphanum (by rw [Char.isAlphanum, letter, Bool.true_or])
  · decide
  · exact ascii_of_isDigit digit

theorem isBlank_of_isIdentPart {c : Char} (h : isIdentPart c) : isBlank c = false := by
  by_cases ascii : c.toNat < 128
  · exact ((classed_of_ascii ascii).identPart h).2
  · refine Bool.eq_false_iff.mpr fun blank => ?_
    exact (variants_apart _ (mem_variants_of_isIdentPart h ascii)).1 (mem_wideBlanks blank ascii)

/-- The characters of identifiers are word characters. -/
theorem isWord_of_isIdentPart {c : Char} (h : isIdentPart c) : isWord c := by
  by_cases ascii : c.toNat < 128
  · exact ((classed_of_ascii ascii).identPart h).1
  · rw [isWord, if_neg ascii]
    exact (variants_apart _ (mem_variants_of_isIdentPart h ascii)).2.1

/-- No identifier begins with a digit of any script. -/
theorem isDigit_of_isIdentStart {c : Char} (h : isIdentStart c) : isDigit c = false := by
  by_cases ascii : c.toNat < 128
  · exact (classed_of_ascii ascii).identStart h
  · have member : c.toNat ∈ variants :=
      mem_variants_of_isIdentPart (by rw [isIdentPart, h, Bool.true_or]) ascii
    rw [isDigit, digitValue?, if_neg ascii, (variants_apart _ member).2.2]
    rfl

theorem isWord?_getLast? {text : List Char} (nonempty : text ≠ []) (h : ∀ x ∈ text, isWord x) :
    isWord? text.getLast? := by
  rw [List.getLast?_eq_some_getLast nonempty]
  exact h _ (List.getLast_mem nonempty)

theorem mappings_of_ascii {c : Char} (ascii : c.toNat < 128) :
    upperChar c = [(foldLetter c).toUpper] ∧ (c.toLower.toNat < 0x60 → c = c.toLower) :=
  of_ascii ascii (by decide +kernel)

/-- The capital of a letter that counts as an ASCII one is that one's capital, except for U+0130 and
U+212A, which are capitals of their own. -/
theorem upperChar_of_foldLetter {c : Char} (ascii : (foldLetter c).toNat < 128)
    (dotted : c.toNat ≠ 0x130) (kelvin : c.toNat ≠ 0x212A) :
    upperChar c = [(foldLetter c).toUpper] := by
  by_cases narrow : c.toNat < 128
  · exact (mappings_of_ascii narrow).1
  · by_cases plain : c.toNat ∈ variants
    · have code : c.toNat = 0x131 ∨ c.toNat = 0x17F := by
        simp only [variants, List.mem_cons, List.not_mem_nil, or_false] at plain
        omega
      rw [← Char.ofNat_toNat c]
      rcases code with code | code <;> rw [code] <;> decide +kernel
    · rw [foldLetter_wide narrow plain] at ascii
      exact absurd ascii narrow

theorem ofNat_ne_of_lt {n : Nat} {c : Char} (visible : c ≠ Char.ofNat 0) (h : c.toNat < n) :
    Char.ofNat n ≠ c := by
  rw [Char.ofNat]
  split
  · rintro rfl
    exact Nat.lt_irrefl _ h
  · exact visible.symm

theorem lowerSequences_above :
    lowerSequences.all fun entry => entry.2.all fun code => 0x60 ≤ code := by
  decide

theorem lowerRuns_above : lowerRuns.all fun run => 0x60 ≤ (run.first : Int) + run.shift := by
  decide

section

variable {mark : Char} (low : mark.toNat < 0x60) (visible : mark ≠ Char.ofNat 0)

include low visible

/-- No character but a mark of the lower half of ASCII gives that mark in lower case. -/
theorem eq_of_mem_lowerChar {c : Char} (h : mark ∈ lowerChar c) : c = mark := by
  rw [lowerChar] at h
  split at h
  · next ascii =>
    rw [List.mem_singleton] at h
    subst h
    exact (mappings_of_ascii ascii).2 low
  rw [mapCase] at h
  split at h
  · next codes found =>
    obtain ⟨code, member, same⟩ := List.mem_map.mp h
    obtain ⟨before, after, table, -⟩ := List.lookup_eq_some_iff.mp found
    have above := List.all_eq_true.mp lowerSequences_above (c.toNat, codes) (by simp [table])
    have beyond := of_decide_eq_true (List.all_eq_true.mp above code member)
    exact absurd same (ofNat_ne_of_lt visible (by omega))
  · rw [List.mem_singleton] at h
    cases image : lowerRuns.findSome? (·.image? c.toNat) with
    | none =>
        rw [image] at h
        exact h.symm
    | some code =>
        rw [image] at h
        obtain ⟨run, member, hit⟩ := List.exists_of_findSome?_eq_some image
        have above := List.all_eq_true.mp lowerRuns_above run member
        rw [CaseRun.image?] at hit
        split at hit
        · next inside =>
          cases hit
          simp only [Bool.and_eq_true, decide_eq_true_eq] at inside above
          exact absurd h.symm (ofNat_ne_of_lt visible (by omega))
        · cases hit

/-- Such a mark stands in a text in lower case only where it stands in the text. -/
theorem mem_of_mem_lower {text : List Char} (h : mark ∈ lower text) : mark ∈ text := by
  suffices ∀ before, mark ∈ lowerFrom before text → mark ∈ text from this [] h
  clear h
  induction text with
  | nil => exact fun _ => id
  | cons c text ih =>
      intro before h
      rw [lowerFrom] at h
      rcases List.mem_append.mp h with here | later
      · split at here
        · rw [List.mem_singleton] at here
          subst here
          split at low <;> exact absurd low (by decide)
        · rw [eq_of_mem_lowerChar low visible here]
          exact List.mem_cons_self ..
      · exact List.mem_cons_of_mem _ (ih _ later)

end

/-- In ASCII it does not matter what stands around a letter. -/
theorem lower_ascii {text : List Char} (ascii : ∀ c ∈ text, c.toNat < 128) :
    lower text = text.map Char.toLower := by
  suffices ∀ before, lowerFrom before text = text.map Char.toLower from this []
  induction text with
  | nil => exact fun _ => rfl
  | cons c text ih =>
      intro before
      have here := ascii c (List.mem_cons_self ..)
      have other : (c.toNat == 0x3A3) = false := beq_false_of_ne (by omega)
      rw [lowerFrom, other, if_neg Bool.false_ne_true, lowerChar, if_pos here,
        ih fun d member => ascii d (List.mem_cons_of_mem _ member)]
      rfl

end QueryHarvest.Text
