import QueryHarvest.Proofs.Text.Lines
import QueryHarvest.Sql.NormalForm

/-! # Texts that are their own normal form

Words without blanks and comment marks, with one space between each two of them.
-/

namespace QueryHarvest.Sql

open Text

/-- Neither a blank nor a character of a comment mark. -/
def isPlain (c : Char) : Bool :=
  !isBlank c && c != '-' && c != '/'

/-- A plain character, and no point, which would qualify a name. -/
def isSolid (c : Char) : Bool :=
  isPlain c && c != '.'

theorem not_isBlank_of_isPlain {c : Char} (h : isPlain c) : isBlank c = false := by
  simp only [isPlain, Bool.and_eq_true, Bool.not_eq_true'] at h
  exact h.1.1

theorem isPlain_of_isSolid {c : Char} (h : isSolid c) : isPlain c :=
  (Bool.and_eq_true_iff.mp h).1

/-- At least one character, all of which pass a test. -/
structure IsRun (test : Char → Bool) (run : List Char) : Prop where
  nonempty : run ≠ []
  passes : ∀ c ∈ run, test c

/-- Runs of characters with single spaces between them. -/
inductive Rowed (test : Char → Bool) : List Char → Prop where
  | word {word : List Char} (h : IsRun test word) : Rowed test word
  | cons {word text : List Char} (h : IsRun test word) (rest : Rowed test text) :
      Rowed test (word ++ ' ' :: text)

/-- One word of solid characters. -/
abbrev Solid : List Char → Prop :=
  IsRun isSolid

/-- Solid words with single spaces between them. -/
abbrev Neat : List Char → Prop :=
  Rowed isSolid

namespace IsRun

variable {test : Char → Bool} {word : List Char}

theorem reverse (h : IsRun test word) : IsRun test word.reverse :=
  ⟨by simpa using h.nonempty, fun c member => h.passes c (List.mem_reverse.mp member)⟩

theorem append {letters : List Char} (h : IsRun test word) (more : ∀ x ∈ letters, test x) :
    IsRun test (word ++ letters) where
  nonempty := by simp [h.nonempty]
  passes x hx := (List.mem_append.mp hx).elim (h.passes x) (more x)

theorem mono {test' : Char → Bool} (h : IsRun test word) (weaker : ∀ {c}, test c → test' c) :
    IsRun test' word :=
  ⟨h.nonempty, fun c member => weaker (h.passes c member)⟩

theorem visible (h : IsRun isPlain word) : ∀ x ∈ word, isBlank x = false :=
  fun x hx => not_isBlank_of_isPlain (h.passes x hx)

theorem stops {rest : List Char} (h : IsRun isPlain word) : Stops isBlank (word ++ rest) := by
  cases word with
  | nil => exact absurd rfl h.nonempty
  | cons x word => exact stops_cons (h.visible x (List.mem_cons_self ..))

end IsRun

namespace Rowed

variable {test : Char → Bool} {text more : List Char}

theorem append (h : Rowed test text) (letters : List Char) (more : ∀ x ∈ letters, test x) :
    Rowed test (text ++ letters) := by
  induction h with
  | word h => exact .word (h.append more)
  | cons h _ ih =>
      rw [List.append_assoc, List.cons_append]
      exact .cons h ih

theorem join (h : Rowed test text) (hmore : Rowed test more) : Rowed test (text ++ ' ' :: more) := by
  induction h with
  | word h => exact .cons h hmore
  | cons h _ ih =>
      rw [List.append_assoc, List.cons_append]
      exact .cons h ih

theorem mono {test' : Char → Bool} (h : Rowed test text) (weaker : ∀ {c}, test c → test' c) :
    Rowed test' text := by
  induction h with
  | word h => exact .word (h.mono weaker)
  | cons h _ ih => exact .cons (h.mono weaker) ih

theorem no_mark (h : Rowed test text) (mark : Char) (hmark : test mark = false) (visible : mark ≠ ' ') :
    mark ∉ text := by
  have absent : ∀ {word : List Char}, IsRun test word → mark ∉ word := by
    intro word hw member
    have passes := hw.passes mark member
    rw [hmark] at passes
    contradiction
  induction h with
  | word h => exact absent h
  | cons h _ ih =>
      rw [List.mem_append, List.mem_cons]
      rintro (front | rfl | back)
      · exact absent h front
      · contradiction
      · exact ih back

theorem stops_append (h : Rowed isPlain text) (more : List Char) : Stops isBlank (text ++ more) := by
  cases h with
  | word h => exact h.stops
  | cons h =>
      rw [List.append_assoc]
      exact h.stops

theorem stops (h : Rowed isPlain text) : Stops isBlank text := by
  simpa using h.stops_append []

theorem stops_reverse (h : Rowed isPlain text) : Stops isBlank text.reverse := by
  induction h with
  | word h => simpa using @IsRun.stops _ [] h.reverse
  | @cons word text _ rest ih =>
      have nonempty : text.reverse ≠ [] := by
        cases rest with
        | word h => simpa using h.nonempty
        | cons => simp
      obtain ⟨x, back, hx⟩ := List.exists_cons_of_ne_nil nonempty
      rw [List.reverse_append, List.reverse_cons, hx]
      exact stops_cons (ih x (by rw [hx]; rfl))

end Rowed

theorem collapse_cons (c : Char) (text : List Char) :
    collapse (c :: text) = collapseStep c (collapse text) := by
  rw [collapse, List.foldr_cons, collapse]

theorem collapseStep_solid {c : Char} (h : isBlank c = false) (text : List Char) :
    collapseStep c text = c :: text := by
  unfold collapseStep
  rw [h]
  rfl

theorem collapseStep_blank {c : Char} (blank : isBlank c) {text : List Char} (h : Stops isBlank text) :
    collapseStep c text = ' ' :: text := by
  unfold collapseStep
  rw [if_pos blank]
  cases text with
  | nil => rfl
  | cons x text =>
      have visible : x ≠ ' ' := by
        rintro rfl
        exact absurd (h ' ' rfl) (by decide)
      split
      · next first =>
        cases first
        contradiction
      · rfl

theorem collapse_append {letters : List Char} (h : ∀ x ∈ letters, isBlank x = false)
    (text : List Char) : collapse (letters ++ text) = letters ++ collapse text := by
  induction letters with
  | nil => rfl
  | cons x letters ih =>
      have hx := h x (List.mem_cons_self ..)
      rw [List.cons_append, collapse_cons, ih fun y hy => h y (List.mem_cons_of_mem _ hy),
        collapseStep_solid hx, List.cons_append]

theorem collapseStep_eq (c : Char) (text : List Char) :
    (∃ more, text = ' ' :: more ∧ collapseStep c text = text) ∨
      collapseStep c text = ' ' :: text ∨ collapseStep c text = c :: text := by
  unfold collapseStep
  split
  · split
    · exact .inl ⟨_, rfl, rfl⟩
    · exact .inr (.inl rfl)
  · exact .inr (.inr rfl)

theorem collapse_ne_nil {text : List Char} (filled : text ≠ []) : collapse text ≠ [] := by
  obtain ⟨c, text, rfl⟩ := List.exists_cons_of_ne_nil filled
  rw [collapse_cons]
  rcases collapseStep_eq c (collapse text) with ⟨more, spaced, same⟩ | same | same <;> rw [same]
  · exact spaced ▸ List.cons_ne_nil _ _
  · exact List.cons_ne_nil _ _
  · exact List.cons_ne_nil _ _

/-- Collapsing adds nothing but spaces. -/
theorem mem_of_mem_collapse {text : List Char} {c : Char} (other : c ≠ ' ') (member : c ∈ collapse text) :
    c ∈ text := by
  induction text with
  | nil => exact member
  | cons d text ih =>
      rw [collapse_cons] at member
      rcases collapseStep_eq d (collapse text) with ⟨-, -, same⟩ | same | same <;> rw [same] at member
      · exact List.mem_cons_of_mem _ (ih member)
      · exact List.mem_cons_of_mem _ (ih ((List.mem_cons.mp member).resolve_left other))
      · exact List.mem_cons.mpr ((List.mem_cons.mp member).imp id ih)

/-- Behind plain words with single spaces between them, only what follows is collapsed. -/
theorem Rowed.collapse_join {text rest : List Char} (h : Rowed isPlain text)
    (stops : Stops isBlank (collapse rest)) :
    collapse (text ++ ' ' :: rest) = text ++ ' ' :: collapse rest := by
  induction h with
  | word h => rw [collapse_append h.visible, collapse_cons, collapseStep_blank rfl stops]
  | cons h rest ih =>
      rw [List.append_assoc, List.cons_append, collapse_append h.visible, collapse_cons,
        ih, collapseStep_blank rfl (rest.stops_append _), List.append_assoc, List.cons_append]

theorem collapse_concat {c : Char} (visible : isBlank c = false) (text : List Char) :
    collapse (text ++ [c]) = collapse text ++ [c] := by
  induction text with
  | nil => exact collapseStep_solid visible []
  | cons d text ih =>
      rw [List.cons_append, collapse_cons, ih, collapse_cons]
      cases blank : isBlank d with
      | false => rw [collapseStep_solid blank, collapseStep_solid blank, List.cons_append]
      | true =>
          cases collapse text with
          | nil =>
              rw [List.nil_append, collapseStep_blank blank (stops_cons visible),
                collapseStep_blank blank (stops_nil isBlank), List.singleton_append]
          | cons x text =>
              unfold collapseStep
              by_cases space : x = ' ' <;> simp [blank, space]

theorem Rowed.collapse_eq {text : List Char} (h : Rowed isPlain text) : collapse text = text := by
  induction h with
  | @word word h =>
      have read := collapse_append h.visible []
      rwa [List.append_nil, show collapse [] = [] from rfl, List.append_nil] at read
  | cons h rest ih => rw [collapse_append h.visible, collapse_cons, ih, collapseStep_blank rfl rest.stops]

theorem occurs_eq_false {first : Char} {others text : List Char} (h : first ∉ text) :
    occurs (first :: others) text = false := by
  induction text with
  | nil => rfl
  | cons x text ih =>
      have differs : (first == x) = false := beq_false_of_ne fun same => h (same ▸ List.mem_cons_self ..)
      have absent : first ∉ text := fun member => h (List.mem_cons_of_mem _ member)
      rw [occurs, ih absent, List.isPrefixOf, differs, Bool.false_and, Bool.or_false]

/-- Plain words with single spaces between them are their own normal form. -/
theorem Rowed.normalForm_eq {text : List Char} (h : Rowed isPlain text) : normalForm text = text := by
  have comments : mayHoldComment text = false := by
    rw [mayHoldComment, occurs_eq_false (h.no_mark _ (by decide) (by decide)),
      occurs_eq_false (h.no_mark _ (by decide) (by decide)), Bool.or_false]
  rw [normalForm, comments, if_neg Bool.false_ne_true, h.collapse_eq,
    trim_eq h.stops h.stops_reverse]

theorem Rowed.normalForm_of_neat {text : List Char} (h : Neat text) : normalForm text = text :=
  (h.mono isPlain_of_isSolid).normalForm_eq

end QueryHarvest.Sql
