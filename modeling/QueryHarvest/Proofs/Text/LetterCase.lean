import QueryHarvest.Proofs.Text.Characters
import QueryHarvest.Proofs.Text.Searching

/-! # Letter case

A reader that takes a letter in either case comes to the same places whether the text is in small
letters or not, and reads the same there but for the case.
-/

namespace QueryHarvest.Text

/-- The capitals of ASCII count as their small letters. -/
def CaseBlind {α : Type} (f : Char → α) : Prop :=
  ∀ c, f c.toLower = f c

theorem toLower_wide {c : Char} (wide : ¬ c.toNat < 128) : c.toLower = c := by
  refine dif_neg fun capital => wide ?_
  exact Nat.lt_of_le_of_lt (UInt32.le_iff_toNat_le.mp capital.2) (by decide)

/-- The classes of characters and the case mappings make of a small letter what they make of the capital, and
only letters have other small letters. -/
structure Blind (c : Char) : Prop where
  blank : isBlank c.toLower = isBlank c
  word : isWord c.toLower = isWord c
  digit : digitValue? c.toLower = digitValue? c
  fold : foldLetter c.toLower = foldLetter c
  identStart : isIdentStart c.toLower = isIdentStart c
  identPart : isIdentPart c.toLower = isIdentPart c
  upper : upperChar c.toLower = upperChar c
  lower : lowerChar c.toLower = lowerChar c
  cased : casedRanges.covers c.toLower.toNat = casedRanges.covers c.toNat
  ignorable : caseIgnorableRanges.covers c.toLower.toNat = caseIgnorableRanges.covers c.toNat
  sigma : (c.toLower.toNat == 0x3A3) = (c.toNat == 0x3A3)
  letter : c.toLower = c ∨ c.isAlpha ∧ c.toLower.isAlpha
  narrow : c.toNat < 128 → c.toLower.toNat < 128

/-- It is enough to look through ASCII. -/
theorem blind (c : Char) : Blind c := by
  by_cases ascii : c.toNat < 128
  · obtain ⟨blank, word, digit, fold, identStart, identPart, upper, lower, cased, ignorable, sigma, letter,
        narrow⟩ :
        isBlank c.toLower = isBlank c ∧ isWord c.toLower = isWord c ∧ digitValue? c.toLower = digitValue? c ∧
          foldLetter c.toLower = foldLetter c ∧ isIdentStart c.toLower = isIdentStart c ∧
          isIdentPart c.toLower = isIdentPart c ∧ upperChar c.toLower = upperChar c ∧
          lowerChar c.toLower = lowerChar c ∧
          casedRanges.covers c.toLower.toNat = casedRanges.covers c.toNat ∧
          caseIgnorableRanges.covers c.toLower.toNat = caseIgnorableRanges.covers c.toNat ∧
          (c.toLower.toNat == 0x3A3) = (c.toNat == 0x3A3) ∧
          (c.toLower = c ∨ c.isAlpha ∧ c.toLower.isAlpha) ∧ c.toLower.toNat < 128 :=
      of_ascii ascii (by decide +kernel)
    exact ⟨blank, word, digit, fold, identStart, identPart, upper, lower, cased, ignorable, sigma, letter,
      fun _ => narrow⟩
  · have same : c.toLower = c := toLower_wide ascii
    constructor <;> rw [same]
    · exact .inl rfl
    · exact id

theorem caseBlind_isBlank : CaseBlind isBlank := fun c => (blind c).blank

theorem caseBlind_isDigit : CaseBlind isDigit := fun c => congrArg Option.isSome (blind c).digit

/-- A character that is no letter is the small letter of itself only. -/
theorem caseBlind_beq (mark : Char) (h : mark.isAlpha = false) : CaseBlind (· == mark) := by
  intro c
  rcases (blind c).letter with same | ⟨capital, small⟩
  · simp only [same]
  · have apart {d : Char} (alpha : d.isAlpha) : (d == mark) = false := by
      refine beq_false_of_ne ?_
      rintro rfl
      rw [alpha] at h
      cases h
    simp only [apart capital, apart small]

theorem toLower_eq_iff (mark : Char) (h : mark.isAlpha = false) (c : Char) :
    c.toLower = mark ↔ c = mark := by
  simpa using congrArg (· = true) (caseBlind_beq mark h c)

theorem caseBlind_bne (mark : Char) (h : mark.isAlpha = false) : CaseBlind (· != mark) :=
  fun c => congrArg not (caseBlind_beq mark h c)

/-- A text in small letters; what is not ASCII stays. -/
def small (text : List Char) : List Char :=
  text.map Char.toLower

section

variable {test : Char → Bool}

@[simp] theorem any_small (blind : CaseBlind test) (text : List Char) :
    (small text).any test = text.any test := by
  rw [small, List.any_map]
  exact congrArg text.any (funext blind)

@[simp] theorem takeWhile_small (blind : CaseBlind test) (text : List Char) :
    (small text).takeWhile test = small (text.takeWhile test) := by
  rw [small, List.takeWhile_map, small]
  exact congrArg (fun p => (text.takeWhile p).map Char.toLower) (funext blind)

@[simp] theorem dropWhile_small (blind : CaseBlind test) (text : List Char) :
    (small text).dropWhile test = small (text.dropWhile test) := by
  rw [small, List.dropWhile_map, small]
  exact congrArg (fun p => (text.dropWhile p).map Char.toLower) (funext blind)

theorem mem_small {mark : Char} (h : mark.isAlpha = false) {text : List Char} :
    mark ∈ small text ↔ mark ∈ text := by
  have same := any_small (caseBlind_beq mark h) text
  rw [Bool.eq_iff_iff, List.any_beq', List.any_beq', List.contains_iff_mem, List.contains_iff_mem] at same
  exact same

theorem small_eq_iff {mark : List Char} (h : mark.all fun c => !c.isAlpha) {text : List Char} :
    small text = mark ↔ text = mark := by
  induction mark generalizing text with
  | nil => exact List.map_eq_nil_iff
  | cons c mark ih =>
      rw [List.all_cons, Bool.and_eq_true, Bool.not_eq_true'] at h
      cases text with
      | nil => simp [small]
      | cons x text =>
          rw [small, List.map_cons, ← small, List.cons_eq_cons, toLower_eq_iff c h.1, ih h.2,
            List.cons_eq_cons]

theorem infix_small {piece text : List Char} :
    piece <:+: small text ↔ ∃ inside, inside <:+: text ∧ small inside = piece := by
  constructor
  · rintro ⟨front, back, cut⟩
    obtain ⟨before, behind, rfl, here, -⟩ := List.map_eq_append_iff.mp cut.symm
    obtain ⟨first, inside, rfl, -, same⟩ := List.map_eq_append_iff.mp here
    exact ⟨inside, ⟨first, behind, rfl⟩, same⟩
  · rintro ⟨inside, ⟨front, back, rfl⟩, rfl⟩
    exact ⟨small front, small back, by simp [small]⟩

/-- A mark without letters stands in the text in small letters where it stands in the text. -/
theorem mark_infix_small {mark text : List Char} (h : mark.all fun c => !c.isAlpha) :
    mark <:+: small text ↔ mark <:+: text := by
  simp only [infix_small, small_eq_iff h, exists_eq_right]

@[simp] theorem trim_small (text : List Char) : trim (small text) = small (trim text) := by
  have front := dropWhile_small caseBlind_isBlank
  rw [trim, front, small, ← List.map_reverse, ← small, front, small, ← List.map_reverse]
  rfl

@[simp] theorem collapseStep_small (c : Char) (text : List Char) :
    collapseStep c.toLower (small text) = small (collapseStep c text) := by
  unfold collapseStep
  rw [caseBlind_isBlank c]
  cases isBlank c with
  | false => rfl
  | true =>
      cases text with
      | nil => rfl
      | cons x text =>
          by_cases here : x = ' '
          · subst here
            rfl
          · have there := mt (toLower_eq_iff ' ' rfl x).mp here
            simp [small, here, there]

@[simp] theorem collapse_small (text : List Char) : collapse (small text) = small (collapse text) := by
  induction text with
  | nil => rfl
  | cons c text ih =>
      rw [small, List.map_cons, ← small, collapse, List.foldr_cons, ← collapse, ih, collapseStep_small]
      rfl

end

@[simp] theorem meetsCased_small (text : List Char) : meetsCased (small text) = meetsCased text := by
  have ignorable : CaseBlind fun c => caseIgnorableRanges.covers c.toNat := fun c => (blind c).ignorable
  rw [meetsCased, meetsCased, dropWhile_small ignorable]
  cases text.dropWhile fun c => caseIgnorableRanges.covers c.toNat with
  | nil => rfl
  | cons c rest => exact (blind c).cased

@[simp] theorem lower_small (text : List Char) : lower (small text) = lower text := by
  suffices ∀ before, lowerFrom (small before) (small text) = lowerFrom before text from this []
  induction text with
  | nil => exact fun _ => rfl
  | cons c text ih =>
      intro before
      have later := ih (c :: before)
      have ends : endsWord (small before) (small text) = endsWord before text := by
        rw [endsWord, endsWord, meetsCased_small, meetsCased_small]
      have cut : small (c :: text) = c.toLower :: small text := rfl
      rw [cut, lowerFrom, lowerFrom, ends, (blind c).lower, ← later]
      simp only [(blind c).sigma]
      rfl

@[simp] theorem upper_small (text : List Char) : upper (small text) = upper text := by
  rw [upper, small, List.flatMap_map]
  exact congrArg text.flatMap (funext fun c => (blind c).upper)

namespace Cursor

variable {test : Char → Bool}

/-- The same place in the text in small letters. -/
def lowered (c : Cursor) : Cursor :=
  ⟨c.before.map Char.toLower, small c.rest⟩

/-- The reader reads in small letters what it reads in any others, up to some change of the result. -/
def BlindReader {α : Type} (lower : α → α) (read? : Cursor → Option (α × Cursor)) : Prop :=
  ∀ c, read? c.lowered = (read? c).map (Prod.map lower lowered)

@[simp] theorem start_small (text : List Char) : start (small text) = (start text).lowered := rfl

@[simp] theorem beginsWord_lowered (c : Cursor) : c.lowered.beginsWord = c.beginsWord := by
  obtain ⟨before, rest⟩ := c
  cases before with
  | none => rfl
  | some x => exact congrArg not (blind x).word

theorem isWord?_head?_lowered (c : Cursor) : isWord? c.lowered.rest.head? = isWord? c.rest.head? := by
  obtain ⟨before, rest⟩ := c
  cases rest with
  | nil => rfl
  | cons x rest => exact (blind x).word

section

variable (blind : CaseBlind test)

include blind

@[simp] theorem span_lowered (c : Cursor) :
    c.lowered.span test = (small (c.span test).1, (c.span test).2.lowered) := by
  simp only [span, lowered, takeWhile_small blind, dropWhile_small blind, Prod.mk.injEq, mk.injEq, true_and,
    and_true]
  rw [small, List.getLast?_map, Option.map_or]

@[simp] theorem skip_lowered (c : Cursor) : c.lowered.skip test = (c.skip test).lowered := by
  rw [skip, span_lowered blind, skip]

@[simp] theorem one?_lowered (c : Cursor) : c.lowered.one? test = (c.one? test).map lowered := by
  obtain ⟨before, rest⟩ := c
  cases rest with
  | nil => rfl
  | cons x rest =>
      simp only [one?, lowered, small, List.map_cons, blind x]
      cases test x <;> rfl

theorem span1?_blind : BlindReader small (span1? test) := by
  intro c
  rw [span1?, span_lowered blind, span1?]
  obtain ⟨read, after⟩ := c.span test
  cases read <;> rfl

end

@[simp] theorem keyword?_lowered (word : List Char) (c : Cursor) :
    c.lowered.keyword? word = (c.keyword? word).map lowered := by
  induction word generalizing c with
  | nil => rfl
  | cons letter word ih =>
      have blind : CaseBlind fun x => foldLetter x == letter :=
        fun x => congrArg (· == letter) (Text.blind x).fold
      rw [keyword?, one?_lowered blind, keyword?]
      cases c.one? fun x => foldLetter x == letter with
      | none => rfl
      | some after => exact ih after

theorem identifier?_blind : BlindReader small identifier? := by
  intro c
  obtain ⟨before, rest⟩ := c
  cases rest with
  | nil => rfl
  | cons x rest =>
      have read := span1?_blind (fun c => (Text.blind c).identPart) ⟨before, x :: rest⟩
      have start := (Text.blind x).identStart
      simp only [identifier?, lowered, small, List.map_cons, start] at read ⊢
      cases isIdentStart x with
      | false => rfl
      | true => exact read

end Cursor

namespace Pattern

variable {α : Type} {p : Pattern α} {lower : α → α}

/-- What is found in the text in small letters is what is found in the text. -/
theorem findAll_lowered (blind : Cursor.BlindReader lower p.match?) (c : Cursor) :
    p.findAll c.lowered =
      (p.findAll c).map fun found => ⟨found.place.lowered, lower found.value, found.after.lowered⟩ := by
  have here := blind c
  cases matched : p.match? c with
  | some found =>
      obtain ⟨value, after⟩ := found
      have shrinks := p.shrinks matched
      rw [matched] at here
      rw [findAll_match matched, findAll_match here, findAll_lowered blind after]
      rfl
  | none =>
      rw [matched] at here
      obtain ⟨before, rest⟩ := c
      cases rest with
      | nil =>
          rw [findAll_nil]
          exact findAll_nil _
      | cons x rest =>
          rw [findAll_skip matched, ← findAll_lowered blind ⟨some x, rest⟩]
          exact findAll_skip here
termination_by c.rest.length

@[simp] theorem valuesFrom_lowered (blind : Cursor.BlindReader lower p.match?) (c : Cursor) :
    p.valuesFrom c.lowered = (p.valuesFrom c).map lower := by
  rw [valuesFrom, findAll_lowered blind, List.map_map, valuesFrom, List.map_map]
  rfl

end Pattern

end QueryHarvest.Text
