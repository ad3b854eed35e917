import QueryHarvest.Capture.Marker
import QueryHarvest.Proofs.Text.Searching

/-! # What stands between literals

A statement falls into literals and the stretches between them, and markers are looked for in each
stretch on its own. Literals that follow each other directly are one literal with doubled quotes.
-/

namespace QueryHarvest.Text

variable {α : Type} {p : Pattern α}

namespace Pattern

theorem cut_match {c after : Cursor} {value : α} (h : p.match? c = some (value, after)) :
    p.cut c = .inr ⟨c, value, after⟩ :: p.cut after := by
  rw [cut]
  split
  · next found =>
    rw [h] at found
    cases found
    rfl
  · next missed =>
    rw [h] at missed
    contradiction

theorem cut_skip {before : Option Char} {x : Char} {rest : List Char}
    (h : p.match? ⟨before, x :: rest⟩ = none) :
    p.cut ⟨before, x :: rest⟩ = .inl x :: p.cut ⟨some x, rest⟩ := by
  rw [cut]
  split
  · next found =>
    rw [h] at found
    contradiction
  · rfl

@[simp] theorem cut_nil (before : Option Char) : p.cut ⟨before, []⟩ = [] := by
  rw [cut]
  split
  · next found => exact absurd (p.shrinks found) (Nat.not_lt_zero _)
  · rfl

/-- A character or what a match recognises, as a text is cut into them. -/
def token : Char ⊕ Match α → Char ⊕ α
  | .inl c => .inl c
  | .inr found => .inr found.value

/-- What comes before a text matters to a pattern in front of its first character only. -/
theorem token_cut_before {before before' : Option Char} {text : List Char}
    (same : p.match? ⟨before, text⟩ = p.match? ⟨before', text⟩) :
    (p.cut ⟨before, text⟩).map token = (p.cut ⟨before', text⟩).map token := by
  cases found : p.match? ⟨before', text⟩ with
  | none =>
      cases text with
      | nil => rw [cut_nil, cut_nil]
      | cons c text => rw [cut_skip (same.trans found), cut_skip found]
  | some read =>
      rw [cut_match (same.trans found), cut_match found]
      rfl

end Pattern

end QueryHarvest.Text

namespace QueryHarvest.Capture

open Text

/-- A text between quotes. -/
def enclosed (content : List Char) : List Char :=
  '\x27' :: content ++ ['\x27']

section

variable {content rest : List Char}

theorem closeLiteral?_inside (whole : ∀ c ∈ content, c ≠ '\x27')
    (fallback : Option (List Char × List Char)) (read : List Char) :
    closeLiteral? fallback read (content ++ rest) =
      closeLiteral? fallback (content.reverse ++ read) rest := by
  induction content generalizing read with
  | nil => rfl
  | cons c content ih =>
      obtain ⟨other, inside⟩ := List.forall_mem_cons.mp whole
      rw [List.cons_append, closeLiteral?.eq_4 _ _ _ _ (fun _ same _ => other same) other, ih inside,
        List.reverse_cons, List.append_assoc]
      rfl

/-- What was read before, and what a text falls back on, stay behind what is read of it. -/
theorem closeLiteral?_append (first other : Option (List Char × List Char))
    (read base text : List Char) :
    closeLiteral? ((first.map fun f => (f.1 ++ base, f.2)).or other) (read ++ base) text =
      ((closeLiteral? first read text).map fun f => (f.1 ++ base, f.2)).or other := by
  fun_induction closeLiteral? first read text with
  | case1 => rfl
  | case2 first read rest ih => exact ih
  | case3 first read rest single => exact closeLiteral?.eq_3 _ _ _ single
  | case4 first read c rest doubled single ih =>
      rw [closeLiteral?.eq_4 _ _ _ _ doubled single, ← ih]
      rfl

/-- A literal is read together with the literals that follow it directly. -/
theorem match?_enclosed (whole : ∀ c ∈ content, c ≠ '\x27') (before : Option Char) :
    literalPattern.match? ⟨before, enclosed content ++ rest⟩ =
      some ((literalPattern.match? ⟨some '\x27', rest⟩).elim (enclosed content, ⟨some '\x27', rest⟩)
        fun more => (enclosed content ++ more.1, more.2)) := by
  have opened : enclosed content ++ rest = '\x27' :: (content ++ '\x27' :: rest) := by
    simp [enclosed]
  rw [opened]
  simp only [literalPattern, closeLiteral?_inside whole]
  split
  · next later =>
      have base : closeLiteral? (some ('\x27' :: (content.reverse ++ ['\x27']), '\x27' :: later))
          ('\x27' :: '\x27' :: (content.reverse ++ ['\x27'])) later =
            ((closeLiteral? none ['\x27'] later).map fun f => (f.1 ++ (enclosed content).reverse, f.2)).or
              (some ((enclosed content).reverse, '\x27' :: later)) := by
        rw [← closeLiteral?_append]
        simp [enclosed]
      rw [closeLiteral?, base]
      cases closed : closeLiteral? none ['\x27'] later with
      | none => simp
      | some more => simp
  · next other =>
      rw [closeLiteral?.eq_3 _ _ _ fun later same => other later same]
      simp [enclosed]

/-- A character that opens no literal in front of a text: it is no quote, or no other quote follows. -/
def OpensNone (c : Char) (text : List Char) : Prop :=
  c = '\x27' → ∀ d ∈ text, d ≠ '\x27'

theorem match?_unopened {c : Char} (unopened : OpensNone c rest) (before : Option Char) :
    literalPattern.match? ⟨before, c :: rest⟩ = none := by
  simp only [literalPattern]
  split
  · next later same =>
      obtain ⟨rfl, rfl⟩ := List.cons.inj same
      have open_ := @closeLiteral?_inside _ [] (unopened rfl) none ['\x27']
      rw [List.append_nil] at open_
      rw [open_, closeLiteral?, Option.map_none]
  · rfl

/-- A text opens with a literal or with a character that opens none. -/
theorem enclosed_or_opensNone (c : Char) (text : List Char) :
    (∃ content rest, (∀ c ∈ content, c ≠ '\x27') ∧ c :: text = enclosed content ++ rest) ∨
      OpensNone c text := by
  by_cases closes : c = '\x27' ∧ '\x27' ∈ text
  · obtain ⟨rfl, member⟩ := closes
    obtain ⟨content, rest, rfl, whole⟩ := List.eq_append_cons_of_mem member
    exact .inl ⟨content, rest, fun c inside same => whole (same ▸ inside), by simp [enclosed]⟩
  · exact .inr fun quote d member same => closes ⟨quote, same ▸ member⟩

end

/-- The stretches of a statement from some place on. -/
def stretchesFrom (c : Cursor) : List Stretch :=
  (literalPattern.cut c).foldr stretchStep []

/-- Put one more literal in front of some stretches, as the front of a literal that stands there. -/
def literalStep (content : List Char) : List Stretch → List Stretch
  | .literal more :: rest => .literal (enclosed content ++ more) :: rest
  | stretches => .literal (enclosed content) :: stretches

section

variable {text rest content : List Char}

/-- What comes before a text does not matter to its stretches. -/
theorem stretchesFrom_before (before : Option Char) : stretchesFrom ⟨before, text⟩ = stretches text := by
  cases text with
  | nil => rw [stretchesFrom, stretches, Cursor.start, Pattern.cut_nil, Pattern.cut_nil]
  | cons c text =>
      have same : literalPattern.match? ⟨before, c :: text⟩ =
          literalPattern.match? (Cursor.start (c :: text)) := rfl
      cases found : literalPattern.match? (Cursor.start (c :: text)) with
      | none =>
          rw [stretchesFrom, stretches, Pattern.cut_skip (same.trans found), Cursor.start,
            Pattern.cut_skip found]
      | some read =>
          rw [stretchesFrom, stretches, Pattern.cut_match (same.trans found), Pattern.cut_match found,
            List.foldr_cons, List.foldr_cons]
          rfl

@[simp] theorem stretches_nil : stretches [] = [] := by
  rw [stretches, Cursor.start, Pattern.cut_nil]
  rfl

@[simp] theorem stretches_cons {c : Char} (unopened : OpensNone c text) :
    stretches (c :: text) = stretchStep (.inl c) (stretches text) := by
  rw [stretches, Cursor.start, Pattern.cut_skip (match?_unopened unopened none), List.foldr_cons]
  exact congrArg (stretchStep (.inl c)) (stretchesFrom_before (some c))

theorem stretches_enclosed (whole : ∀ c ∈ content, c ≠ '\x27') :
    stretches (enclosed content ++ rest) = literalStep content (stretches rest) := by
  have read := @match?_enclosed _ rest whole none
  rw [stretches, Cursor.start]
  rw [← @stretchesFrom_before rest (some '\x27')]
  cases found : literalPattern.match? ⟨some '\x27', rest⟩ with
  | none =>
      rw [found, Option.elim_none] at read
      rw [Pattern.cut_match read, List.foldr_cons, stretchStep]
      cases rest with
      | nil => rw [stretchesFrom, Pattern.cut_nil]; rfl
      | cons c rest =>
          rw [stretchesFrom, Pattern.cut_skip found, List.foldr_cons]
          cases (literalPattern.cut ⟨some c, rest⟩).foldr stretchStep [] with
          | nil => rfl
          | cons first later => cases first <;> rfl
  | some more =>
      rw [found, Option.elim_some] at read
      rw [Pattern.cut_match read, stretchesFrom, Pattern.cut_match found]
      rfl

end

/-- A stretch as characters and markers. -/
def Stretch.marked {α : Type} (p : Pattern α) : Stretch → List (Char ⊕ α)
  | .literal text => text.map .inl
  | .outside text => (p.cut (Cursor.start text)).map Pattern.token

/-- What stands in front of the first literal of a statement. -/
def openRun (text : List Char) : List Char :=
  match stretches text with
  | .outside run :: _ => run
  | _ => []

/-- The stretches from the first literal of a statement on. -/
def closedRest (text : List Char) : List Stretch :=
  match stretches text with
  | .outside _ :: later => later
  | all => all

/-- A statement as characters and markers, where something stands before it. -/
def markedFrom {α : Type} (p : Pattern α) (before : Option Char) (text : List Char) : List (Char ⊕ α) :=
  (p.cut ⟨before, openRun text⟩).map Pattern.token ++ (closedRest text).flatMap (Stretch.marked p)

section

variable {text rest content spelling : List Char} {c : Char}

@[simp] theorem openRun_nil : openRun [] = [] := by
  rw [openRun, stretches_nil]

@[simp] theorem openRun_cons (unopened : OpensNone c text) : openRun (c :: text) = c :: openRun text := by
  rw [openRun, openRun, stretches_cons unopened]
  cases stretches text with
  | nil => rfl
  | cons first later => cases first <;> rfl

@[simp] theorem closedRest_cons (unopened : OpensNone c text) : closedRest (c :: text) = closedRest text := by
  rw [closedRest, closedRest, stretches_cons unopened]
  cases stretches text with
  | nil => rfl
  | cons first later => cases first <;> rfl

theorem openRun_enclosed (whole : ∀ c ∈ content, c ≠ '\x27') :
    openRun (enclosed content ++ rest) = [] := by
  rw [openRun, stretches_enclosed whole]
  cases stretches rest with
  | nil => rfl
  | cons first later => cases first <;> rfl

/-- Behind what stands in front of the first literal comes its quote, or nothing. -/
theorem exists_openRun_append (text : List Char) :
    ∃ later, text = openRun text ++ later ∧ ∀ c ∈ later.head?, c = '\x27' := by
  induction text with
  | nil => exact ⟨[], by rw [openRun_nil]; rfl, nofun⟩
  | cons c text ih =>
      rcases enclosed_or_opensNone c text with ⟨content, rest, whole, same⟩ | unopened
      · exact ⟨c :: text, by rw [same, openRun_enclosed whole]; rfl, by rw [same]; simp [enclosed]⟩
      · obtain ⟨later, same, quoted⟩ := ih
        exact ⟨later, by rw [openRun_cons unopened, List.cons_append, ← same], quoted⟩

theorem stops_openRun {test : Char → Bool} (stops : Stops test text) : Stops test (openRun text) := by
  obtain ⟨later, same, -⟩ := exists_openRun_append text
  intro c first
  refine stops c ?_
  rw [same, List.head?_append, Option.mem_def.mp first]
  rfl

variable {α : Type} {p : Pattern α} {before : Option Char}

@[simp] theorem markedFrom_nil : markedFrom p before [] = [] := by
  rw [markedFrom, openRun_nil, Pattern.cut_nil, closedRest, stretches_nil]
  rfl

theorem markedFrom_skip (unopened : OpensNone c text)
    (missed : p.match? ⟨before, c :: openRun text⟩ = none) :
    markedFrom p before (c :: text) = .inl c :: markedFrom p (some c) text := by
  rw [markedFrom, openRun_cons unopened, closedRest_cons unopened, Pattern.cut_skip missed]
  rfl

theorem markedFrom_match {value : α} {last : Option Char} (unquoted : ∀ c ∈ spelling, c ≠ '\x27')
    (found : p.match? ⟨before, spelling ++ openRun rest⟩ = some (value, ⟨last, openRun rest⟩)) :
    markedFrom p before (spelling ++ rest) = .inr value :: markedFrom p last rest := by
  have run : openRun (spelling ++ rest) = spelling ++ openRun rest ∧
      closedRest (spelling ++ rest) = closedRest rest := by
    clear found
    induction spelling with
    | nil => exact ⟨rfl, rfl⟩
    | cons c spelling ih =>
        obtain ⟨other, later⟩ := List.forall_mem_cons.mp unquoted
        have unopened : OpensNone c (spelling ++ rest) := fun quote => absurd quote other
        rw [List.cons_append, openRun_cons unopened, closedRest_cons unopened, (ih later).1, (ih later).2]
        exact ⟨rfl, rfl⟩
  rw [markedFrom, run.1, run.2, Pattern.cut_match found]
  rfl

theorem markedFrom_before {before' : Option Char}
    (same : ∀ text, p.match? ⟨before, text⟩ = p.match? ⟨before', text⟩) :
    markedFrom p before text = markedFrom p before' text := by
  rw [markedFrom, markedFrom, Pattern.token_cut_before (same (openRun text))]

theorem marked_eq_markedFrom : marked p text = markedFrom p none text := by
  have stretch : marked p text = (stretches text).flatMap (Stretch.marked p) := by
    refine List.flatMap_congr fun stretch _ => ?_
    cases stretch with
    | literal => rfl
    | outside run =>
        refine List.map_congr_left fun piece _ => ?_
        cases piece <;> rfl
  rw [stretch, markedFrom, openRun, closedRest]
  cases stretches text with
  | nil => rw [Pattern.cut_nil]; rfl
  | cons first later =>
      cases first with
      | outside run => rfl
      | literal => dsimp only; rw [Pattern.cut_nil]; rfl

theorem markedFrom_enclosed (whole : ∀ c ∈ content, c ≠ '\x27') :
    markedFrom p before (enclosed content ++ rest) =
      (enclosed content).map .inl ++ markedFrom p none rest := by
  have stretch : closedRest (enclosed content ++ rest) = literalStep content (stretches rest) := by
    rw [closedRest, stretches_enclosed whole]
    cases stretches rest with
    | nil => rfl
    | cons first later => cases first <;> rfl
  rw [markedFrom, openRun_enclosed whole, Pattern.cut_nil, stretch, markedFrom, openRun, closedRest]
  cases stretches rest with
  | nil => rw [Pattern.cut_nil]; rfl
  | cons first later =>
      cases first with
      | outside run => rfl
      | literal more =>
          dsimp only [literalStep]
          rw [Pattern.cut_nil, List.flatMap_cons, List.flatMap_cons, Stretch.marked, Stretch.marked,
            List.map_append, List.append_assoc]
          rfl

end

/-- A part of a statement: a marker, a literal, or a character that belongs to neither. -/
inductive Part (μ : Type) where
  | plain (c : Char)
  | marker (m : μ)
  | literal (content : List Char)

namespace Part

variable {μ α : Type}

def isOutside : Part μ → Bool
  | .literal _ => false
  | _ => true

/-- The text of a part, where it is known how markers are spelled. -/
def text (spell : μ → List Char) : Part μ → List Char
  | .plain c => [c]
  | .marker m => spell m
  | .literal content => enclosed content

/-- What a part is found to be, where it is known what markers are read as. -/
def found (value : μ → α) : Part μ → List (Char ⊕ α)
  | .plain c => [.inl c]
  | .marker m => [.inr (value m)]
  | .literal content => (enclosed content).map .inl

/-- Quotes stand at the ends of literals only. -/
def Whole (spell : μ → List Char) : Part μ → Prop
  | .plain c => c ≠ '\x27'
  | .marker m => spell m ≠ [] ∧ ∀ c ∈ spell m, c ≠ '\x27'
  | .literal content => ∀ c ∈ content, c ≠ '\x27'

end Part

end QueryHarvest.Capture
