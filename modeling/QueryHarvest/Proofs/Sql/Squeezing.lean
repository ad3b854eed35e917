import QueryHarvest.Proofs.Sql.NormalForm

/-! # Squeezing

Trimming and collapsing a text from its front on, character by character: a blank is held back as a space
until something visible follows. Of two texts to which the same is added, the one that comes to less stays
behind.
-/

namespace QueryHarvest.Sql

open Text

/-- What a text comes to when it is trimmed and collapsed, newest character first, and whether a space is
held back until something visible follows. -/
structure Squeezed where
  text : List Char := []
  held : Bool := false
  deriving DecidableEq, Repr

namespace Squeezed

def add (s : Squeezed) (c : Char) : Squeezed :=
  if isBlank c then { s with held := s.held || !s.text.isEmpty }
  else ⟨c :: if s.held then ' ' :: s.text else s.text, false⟩

def addAll (s : Squeezed) (text : List Char) : Squeezed :=
  text.foldl add s

/-- The text squeezed from its front on. -/
def ofText (text : List Char) : Squeezed :=
  addAll {} text

variable {s s' s'' : Squeezed} {c : Char}

theorem add_blank (blank : isBlank c) : s.add c = { s with held := s.held || !s.text.isEmpty } :=
  if_pos blank

theorem add_blank_filled (blank : isBlank c) (filled : s.text ≠ []) : s.add c = ⟨s.text, true⟩ := by
  rw [add_blank blank]
  simp [filled]

theorem add_visible (visible : isBlank c = false) :
    s.add c = ⟨c :: if s.held then ' ' :: s.text else s.text, false⟩ := by
  rw [add, visible]
  rfl

theorem length_add_visible (visible : isBlank c = false) :
    (s.add c).text.length = s.text.length + s.held.toNat + 1 := by
  rw [add_visible visible]
  cases s.held <;> rfl

@[simp] theorem addAll_append (text more : List Char) :
    s.addAll (text ++ more) = (s.addAll text).addAll more :=
  List.foldl_append

@[simp] theorem ofText_append (text more : List Char) : ofText (text ++ more) = (ofText text).addAll more :=
  addAll_append text more

@[simp] theorem ofText_concat (text : List Char) (c : Char) : ofText (text ++ [c]) = (ofText text).add c :=
  ofText_append text [c]

theorem addAll_blanks (filled : s.text ≠ []) {blanks : List Char} (nonempty : blanks ≠ [])
    (blank : ∀ b ∈ blanks, isBlank b) : s.addAll blanks = ⟨s.text, true⟩ := by
  induction blanks generalizing s with
  | nil => contradiction
  | cons b blanks ih =>
      obtain ⟨first, others⟩ := List.forall_mem_cons.mp blank
      rw [addAll, List.foldl_cons, ← addAll, add_blank_filled first filled]
      cases blanks with
      | nil => rfl
      | cons => exact ih filled (List.cons_ne_nil _ _) others

/-- The text without the blanks at its end. -/
def cutEnd (text : List Char) : List Char :=
  (text.reverse.dropWhile isBlank).reverse

theorem cutEnd_cons (visible : isBlank c = false) (text : List Char) :
    cutEnd (c :: text) = c :: cutEnd text := by
  rw [cutEnd, cutEnd, List.reverse_cons, List.dropWhile_append]
  cases text.reverse.dropWhile isBlank with
  | nil => simp [visible]
  | cons => simp

theorem cutEnd_space (visible : isBlank c = false) (text : List Char) :
    cutEnd (' ' :: c :: text) = ' ' :: c :: cutEnd text := by
  have kept := cutEnd_cons visible text
  rw [cutEnd, List.reverse_eq_iff] at kept
  rw [cutEnd, List.reverse_cons, List.dropWhile_append, kept]
  simp

/-- One blank is as good as another one. -/
theorem collapseStep_space (blank : isBlank c) (text : List Char) :
    collapseStep c text = collapseStep ' ' text := by
  unfold collapseStep
  rw [if_pos blank, if_pos (by decide)]

theorem collapseStep_twice (text : List Char) :
    collapseStep ' ' (collapseStep ' ' text) = collapseStep ' ' text := by
  have spaced {more : List Char} : collapseStep ' ' (' ' :: more) = ' ' :: more := if_pos (by decide)
  rcases collapseStep_eq ' ' text with ⟨more, rfl, same⟩ | same | same
  · rw [same, same]
  · rw [same, spaced]
  · rw [same, spaced]

/-- A visible character lets go of the space that is held back. -/
theorem cutEnd_collapse_cons (held : Bool) (visible : isBlank c = false) (text : List Char) :
    cutEnd (collapse (if held then ' ' :: c :: text else c :: text)) =
      (if held then [' '] else []) ++ c :: cutEnd (collapse text) := by
  cases held with
  | false =>
      rw [if_neg Bool.false_ne_true, collapse_cons, collapseStep_solid visible, cutEnd_cons visible]
      rfl
  | true =>
      rw [if_pos rfl, collapse_cons, collapse_cons, collapseStep_solid visible,
        collapseStep_blank rfl (stops_cons visible), cutEnd_space visible]
      rfl

theorem addAll_filled (filled : s.text ≠ []) (text : List Char) :
    (s.addAll text).text.reverse =
      s.text.reverse ++ cutEnd (collapse (if s.held then ' ' :: text else text)) := by
  induction text generalizing s with
  | nil =>
      have none_left : cutEnd (collapse (if s.held then [' '] else [])) = [] := by
        cases s.held <;> rfl
      rw [none_left, List.append_nil]
      rfl
  | cons c text ih =>
      rw [addAll, List.foldl_cons, ← addAll]
      cases blank : isBlank c with
      | true =>
          have space := collapseStep_space blank (collapse text)
          have held : (s.held || !s.text.isEmpty) = true := by simp [filled]
          have next := @ih ⟨s.text, s.held || !s.text.isEmpty⟩ filled
          rw [add_blank blank, next, if_pos held]
          cases s.held with
          | false => rw [if_neg Bool.false_ne_true, collapse_cons, collapse_cons, space]
          | true => rw [if_pos rfl, collapse_cons, collapse_cons, collapse_cons, space, collapseStep_twice]
      | false =>
          rw [add_visible blank, ih (List.cons_ne_nil _ _), cutEnd_collapse_cons s.held blank]
          cases s.held <;> simp

/-- Squeezing is trimming and collapsing. -/
@[simp] theorem reverse_ofText (text : List Char) : (ofText text).text.reverse = trim (collapse text) := by
  induction text with
  | nil => rfl
  | cons c text ih =>
      rw [ofText, addAll, List.foldl_cons, ← addAll]
      cases blank : isBlank c with
      | true =>
          have front : (collapse (c :: text)).dropWhile isBlank = (collapse text).dropWhile isBlank := by
            rw [collapse_cons]
            rcases collapseStep_eq c (collapse text) with ⟨-, -, same⟩ | same | same <;> rw [same]
            · rw [List.dropWhile_cons_of_pos rfl]
            · rw [List.dropWhile_cons_of_pos blank]
          rw [add_blank blank, trim, front, ← trim, ← ih]
          rfl
      | false =>
          have filled := addAll_filled (s := ⟨[c], false⟩) (List.cons_ne_nil c []) text
          have front : trim (c :: collapse text) = cutEnd (c :: collapse text) := by
            rw [trim, List.dropWhile_cons, blank]
            rfl
          rw [collapse_cons, collapseStep_solid blank, front, cutEnd_cons blank, add_visible blank]
          exact filled

/-- What one text comes to is shorter than what another one does, by so many characters at least, whatever
is added to both. -/
structure Behind (n : Nat) (s' s : Squeezed) : Prop where
  text : s'.text.length + n ≤ s.text.length
  held : s'.text.length + s'.held.toNat + n ≤ s.text.length + s.held.toNat

namespace Behind

variable {m n : Nat}

theorem refl (s : Squeezed) : Behind 0 s s :=
  ⟨Nat.le_refl _, Nat.le_refl _⟩

theorem trans (h : Behind m s'' s') (h' : Behind n s' s) : Behind (m + n) s'' s where
  text := by
    have := h.text
    have := h'.text
    omega
  held := by
    have := h.held
    have := h'.held
    omega

theorem weaken (h : Behind (n + 1) s' s) : Behind n s' s where
  text := Nat.le_of_succ_le h.text
  held := Nat.le_of_succ_le h.held

theorem add (h : Behind n s' s) (c : Char) : Behind n (s'.add c) (s.add c) := by
  have text := h.text
  have held := h.held
  cases blank : isBlank c with
  | true =>
      rw [add_blank blank, add_blank blank]
      refine ⟨text, ?_⟩
      obtain ⟨text₁, held₁⟩ := s'
      obtain ⟨text₂, held₂⟩ := s
      cases text₁ <;> cases text₂ <;> cases held₁ <;> cases held₂ <;> simp at text held ⊢ <;> omega
  | false =>
      have longer (t : Squeezed) := length_add_visible (s := t) blank
      constructor
      · rw [longer, longer]
        omega
      · rw [longer, longer, add_visible blank, add_visible blank]
        simp only [Bool.toNat_false]
        omega

theorem addAll (h : Behind n s' s) (text : List Char) : Behind n (s'.addAll text) (s.addAll text) := by
  induction text generalizing s s' with
  | nil => exact h
  | cons c text ih => exact ih (h.add c)

theorem grow (s : Squeezed) (text : List Char) : Behind 0 s (s.addAll text) := by
  induction text generalizing s with
  | nil => exact .refl s
  | cons c text ih =>
      have first : Behind 0 s (s.add c) := by
        cases blank : isBlank c with
        | true =>
            rw [add_blank blank]
            refine ⟨Nat.le_refl _, ?_⟩
            cases s.held <;> simp
        | false =>
            have longer := length_add_visible (s := s) blank
            constructor <;> omega
      exact first.trans (ih (s.add c))

/-- A comment is longer than the space that takes its place. -/
theorem comment (visible : isBlank c = false) (d : Char) (text : List Char) :
    Behind 1 (s.add ' ') (s.addAll (c :: d :: text)) := by
  have space : (s.add ' ').text = s.text := by rw [add_blank (by decide)]
  have held := Bool.toNat_le (s.add ' ').held
  have longer := length_add_visible (s := s) visible
  have first : Behind 1 (s.add ' ') ((s.add c).add d) := by
    cases blank : isBlank d with
    | true =>
        have filled : (s.add c).text ≠ [] := List.ne_nil_of_length_pos (by omega)
        rw [add_blank_filled blank filled]
        constructor <;> simp only [space, Bool.toNat_true] <;> omega
    | false =>
        have longer' := length_add_visible (s := s.add c) blank
        constructor <;> rw [space] <;> omega
  exact first.trans (grow _ text)

/-- A gap that is closed makes the text shorter. -/
theorem gap (h : Behind 0 s' s) (closed : s'.held = false) (visible : isBlank c = false) :
    Behind 1 (s'.add c) ((⟨s.text, true⟩ : Squeezed).add c) := by
  have text := h.text
  rw [add_visible visible, add_visible visible, closed]
  constructor <;> simp <;> omega

end Behind

end Squeezed

end QueryHarvest.Sql
