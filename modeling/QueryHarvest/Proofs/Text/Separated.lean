import QueryHarvest.Proofs.Text.Lines
import QueryHarvest.Proofs.Text.Searching

/-! # Texts that are told apart

What is written can be told from the text, together with the place where it ends, if what follows cannot
go on it. That holds of a row of such texts with commas between them, too, up to a closing bracket.
-/

namespace QueryHarvest.Text

/-- The front of a text, as far as it passes a test, is determined, and so is the rest. -/
theorem front_append_inj {test : Char → Bool} {front front' rest rest' : List Char}
    (passes : ∀ c ∈ front, test c) (passes' : ∀ c ∈ front', test c) (stops : Stops test rest)
    (stops' : Stops test rest') (h : front ++ rest = front' ++ rest') : front = front' ∧ rest = rest' := by
  have span := @Cursor.span_append test none _ _ passes stops
  have span' := @Cursor.span_append test none _ _ passes' stops'
  rw [h, span'] at span
  exact ⟨(congrArg Prod.fst span).symm, (congrArg (·.2.rest) span).symm⟩

/-- The characters of integers. -/
def isNumeral (c : Char) : Bool :=
  c.isDigit || c == '-'

def isClosing (c : Char) : Bool :=
  c == ')' || c == ']' || c == '\x7d'

/-- The text ends here, or with a closing bracket something around it does. -/
def Closes (text : List Char) : Prop :=
  Stops (fun c => !isClosing c) text

theorem closes_cons {c : Char} (h : isClosing c) (text : List Char) : Closes (c :: text) :=
  stops_cons (by rw [h]; rfl)

theorem Closes.stops {text : List Char} (h : Closes text) : Stops isNumeral text := by
  intro c member
  have closing : isClosing c := by simpa using h c member
  simp only [isClosing, Bool.or_eq_true, beq_iff_eq] at closing
  rcases closing with (rfl | rfl) | rfl <;> rfl

/-- A text that begins, and not with a closing bracket. -/
def Opens (text : List Char) : Prop :=
  ∃ c rest, text = c :: rest ∧ isClosing c = false

theorem Opens.append {text : List Char} (h : Opens text) (rest : List Char) : Opens (text ++ rest) := by
  obtain ⟨c, text, rfl, opens⟩ := h
  exact ⟨c, text ++ rest, rfl, opens⟩

theorem Opens.not_closes {text : List Char} (h : Opens text) : ¬ Closes text := by
  rintro closes
  obtain ⟨c, rest, rfl, opens⟩ := h
  simpa [opens] using closes c rfl

section

variable {α : Type} {text : α → List Char} {same : α → α → Prop} {xs ys : List α} {r s : List Char}

/-- Where two things are written in front of texts that go on no number, they are the same, and so is
what follows them. -/
def ToldApart (text : α → List Char) (same : α → α → Prop) (x y : α) : Prop :=
  ∀ r s, Stops isNumeral r → Stops isNumeral s → text x ++ r = text y ++ s → same x y ∧ r = s

/-- The texts of some things after the first, each behind a comma. -/
def listed (text : α → List Char) (xs : List α) : List Char :=
  xs.flatMap fun x => ',' :: ' ' :: text x

@[simp] theorem listed_nil : listed text [] = [] :=
  rfl

@[simp] theorem listed_cons (x : α) (xs : List α) :
    listed text (x :: xs) = ',' :: ' ' :: (text x ++ listed text xs) := by
  simp [listed]

theorem stops_listed (hr : Closes r) : Stops isNumeral (listed text xs ++ r) := by
  cases xs with
  | nil => exact hr.stops
  | cons x xs =>
      rw [listed_cons]
      exact stops_cons rfl

theorem not_closes_listed (x : α) : ¬ Closes (listed text (x :: xs) ++ r) := by
  rw [listed_cons]
  exact Opens.not_closes ⟨',', _, rfl, rfl⟩

theorem listed_append_inj (items : ∀ x ∈ xs, ∀ y ∈ ys, ToldApart text same x y) (hr : Closes r)
    (hs : Closes s) (h : listed text xs ++ r = listed text ys ++ s) :
    List.Forall₂ same xs ys ∧ r = s := by
  induction xs generalizing ys with
  | nil =>
      cases ys with
      | nil => exact ⟨.nil, h⟩
      | cons y ys =>
          rw [listed_nil, List.nil_append] at h
          exact absurd (h ▸ hr) (not_closes_listed y)
  | cons x xs ih =>
      cases ys with
      | nil =>
          rw [listed_nil, List.nil_append] at h
          exact absurd (h ▸ hs) (not_closes_listed x)
      | cons y ys =>
          simp only [listed_cons, List.cons_append, List.append_assoc, List.cons.injEq, true_and] at h
          obtain ⟨first, rest⟩ := items x (List.mem_cons_self ..) y (List.mem_cons_self ..) _ _
            (stops_listed hr) (stops_listed hs) h
          obtain ⟨others, ends⟩ := ih (fun x hx y hy => items x (List.mem_cons_of_mem _ hx) y
            (List.mem_cons_of_mem _ hy)) rest
          exact ⟨.cons first others, ends⟩

/-- The texts of some things with commas between them. -/
def separated (text : α → List Char) (xs : List α) : List Char :=
  [',', ' '].intercalate (xs.map text)

@[simp] theorem separated_cons (x : α) (xs : List α) :
    separated text (x :: xs) = text x ++ listed text xs := by
  simp [separated, listed, List.flatMap_map]

/-- A row of things is told from their texts with commas between them, up to a closing bracket. -/
theorem separated_append_inj (opens : ∀ x ∈ xs, Opens (text x)) (opens' : ∀ y ∈ ys, Opens (text y))
    (items : ∀ x ∈ xs, ∀ y ∈ ys, ToldApart text same x y) (hr : Closes r) (hs : Closes s)
    (h : separated text xs ++ r = separated text ys ++ s) : List.Forall₂ same xs ys ∧ r = s := by
  have begins {x : α} (opens : Opens (text x)) (rest : List α) (after : List Char) :
      ¬ Closes (separated text (x :: rest) ++ after) := by
    rw [separated_cons]
    exact ((opens.append _).append _).not_closes
  cases xs with
  | nil =>
      cases ys with
      | nil => exact ⟨.nil, h⟩
      | cons y ys =>
          exact absurd (h.subst (motive := Closes) hr) (begins (opens' y (List.mem_cons_self ..)) ys s)
  | cons x xs =>
      cases ys with
      | nil =>
          exact absurd (h.symm.subst (motive := Closes) hs) (begins (opens x (List.mem_cons_self ..)) xs r)
      | cons y ys =>
          rw [separated_cons, separated_cons] at h
          refine listed_append_inj items hr hs ?_
          rw [listed_cons, listed_cons, List.cons_append, List.cons_append, List.cons_append,
            List.cons_append, h]

end

end QueryHarvest.Text
