import QueryHarvest.Proofs.Sql.Provenance
import QueryHarvest.Proofs.Sql.Sources

/-! # How many values conditions have

A condition has as many values as its operator takes, also where the statement has letters beyond ASCII.
Lists alone may be of any length.
-/

namespace QueryHarvest.Sql

open Number Text

/-- The number of values that an operator takes, unless it takes a list or nothing. -/
def Operator.valueCount? : Operator → Option Nat
  | .isIn | .notIn | .anyOf => none
  | .isNull | .isNotNull => none
  | .between => some 2
  | .equals | .compares _ | .like | .ilike => some 1

theorem text_of_ofText? {operator : Operator} {spelling : String}
    (h : Operator.ofText? spelling = some operator) : operator.text = spelling := by
  unfold Operator.ofText? at h
  simpa using List.find?_some h

/-- There are as many values as the operator with that spelling takes. -/
def Fits (spelling : String) (values : List Value) : Prop :=
  ∀ operator ∈ Operator.ofText? spelling, ∀ count ∈ operator.valueCount?, values.length = count

section

variable {p : Predicate} {f : Family} {text read rest : List Char} {parameters values : List Value}

theorem fits_text (operator : Operator) (h : ∀ count ∈ operator.valueCount?, values.length = count) :
    Fits operator.text values := by
  intro other spelled
  rw [ofText?_text, Option.mem_some_iff] at spelled
  exact spelled ▸ h

/-- The spelling of a pattern match has an `L` among its first two letters, whatever letters it is
written with. -/
theorem mem_upper_pattern (reads : PredicateKind.patternMatch.shape.Reads {} read rest p.notes) :
    'L' ∈ (upper p.notes.text).take 2 := by
  have capital {c : Char} (folds : foldLetter c = 'l') : upperChar c = ['L'] := by
    refine (upperChar_of_foldLetter (by rw [folds]; decide) ?_ ?_).trans (by rw [folds]; rfl)
    all_goals
      intro code
      rw [← Char.ofNat_toNat c, code] at folds
      revert folds
      decide +kernel
  have single {c : Char} (folds : foldLetter c = 'i') : ∃ x, upperChar c = [x] := by
    by_cases dotted : c.toNat = 0x130
    · rw [← Char.ofNat_toNat c, dotted]
      exact ⟨Char.ofNat 0x130, by decide +kernel⟩
    refine ⟨_, upperChar_of_foldLetter (by rw [folds]; decide) dotted fun kelvin => ?_⟩
    rw [← Char.ofNat_toNat c, kelvin] at folds
    revert folds
    decide +kernel
  obtain ⟨_, _, _, _, _, -, noted, same⟩ := reads.noting [.gap] [.gap, .placeholder] rfl
  rw [same]
  cases noted with
  | like folds =>
      obtain ⟨c, others, rfl, first, -⟩ := List.map_eq_cons_iff.mp folds
      simp [upper, capital first]
  | ilike folds =>
      obtain ⟨c, others, rfl, first, folds⟩ := List.map_eq_cons_iff.mp folds
      obtain ⟨d, others, rfl, second, -⟩ := List.map_eq_cons_iff.mp folds
      obtain ⟨x, begins⟩ := single first
      simp [upper, begins, capital second]

theorem operator_pattern (reads : PredicateKind.patternMatch.shape.Reads {} read rest p.notes)
    {operator : Operator}
    (spelled : Operator.ofText? (String.ofList (upper p.notes.text)) = some operator) :
    operator = .like ∨ operator = .ilike := by
  have letter := mem_upper_pattern reads
  rw [← String.toList_ofList (l := upper p.notes.text), ← text_of_ofText? spelled] at letter
  cases operator with
  | like => exact .inl rfl
  | ilike => exact .inr rfl
  | compares comparison => cases comparison <;> exact absurd letter (by decide)
  | _ => exact absurd letter (by decide)

/-- What a predicate says has as many values as its operator takes. -/
theorem Predicate.Says.fits {spelling : String} (h : p.Says parameters f.kind spelling values)
    (stands : p.Stands f text read rest) : Fits spelling values := by
  have reads := stands.reads
  generalize f.kind = kind at h reads
  cases h with
  | equality | integerLiteral | stringLiteral =>
      exact fits_text .equals (by simp [Operator.valueCount?])
  | membership => exact fits_text .isIn (by simp [Operator.valueCount?])
  | negatedMembership => exact fits_text .notIn (by simp [Operator.valueCount?])
  | items | anyOf => exact fits_text .anyOf (by simp [Operator.valueCount?])
  | range => exact fits_text .between (by simp [Operator.valueCount?])
  | nullCheck =>
      split
      · exact fits_text .isNotNull (by simp [Operator.valueCount?])
      · exact fits_text .isNull (by simp [Operator.valueCount?])
  | comparison =>
      obtain ⟨_, _, _, _, _, -, noted, same⟩ :=
        reads.noting [.blanks] [.blanks, .placeholder] rfl
      cases noted with
      | comparison comparison =>
          rw [same, comparison_upper]
          exact fits_text (.compares comparison) (by simp [Operator.valueCount?])
  | patternMatch =>
      intro operator spelled count takes
      rcases operator_pattern reads spelled with rfl | rfl <;> cases takes <;> rfl

end

/-- Every condition of a statement has as many values as its operator takes. -/
theorem length_values_of_conditions {statement : String} {parameters : List Value} {found : List Condition}
    (h : conditions statement parameters = .ok found) :
    ∀ c ∈ found, ∀ count ∈ c.operator.valueCount?, c.values.length = count := by
  intro c member
  obtain ⟨f, matched, spelling, place, said, spelled⟩ := says_of_mem_conditions h member
  obtain ⟨_, _, stands⟩ := stands_of_mem_predicatesIn place
  exact said.fits stands c.operator spelled

end QueryHarvest.Sql
