import QueryHarvest.Proofs.Value.Merging

/-! # Cells of a column

What may stand in a column of numbers or of texts, and what collected values say about it. Among such
values collecting keeps every cell, and sorting goes by the order of the cells.
-/

namespace QueryHarvest

open Value

/-- What stands in one row of a column. -/
inductive Cell where
  | number (x : Extended)
  | text (s : String)
  deriving DecidableEq

/-- What a column is made of. -/
inductive CellKind where
  | number
  | text
  deriving DecidableEq

namespace Cell

def kind : Cell → CellKind
  | .number _ => .number
  | .text _ => .text

/-- The place of one cell before another: of numbers by what they denote, of texts by code points. A
number and a text stand in no relation. -/
def compare? : Cell → Cell → Option Ordering
  | .number x, .number y => some (x.compare y)
  | .text s, .text t => some (compareTexts s t)
  | _, _ => none

def sortKey : Cell → SortKey
  | .number x => .number x
  | .text s => .text s

instance : LE Cell where
  le x y := ∃ place ∈ x.compare? y, place.isLE

instance : LT Cell where
  lt x y := x.compare? y = some .lt

variable {x y z : Cell}

@[simp] theorem compare?_eq_some_iff {place : Ordering} :
    x.compare? y = some place ↔ x.kind = y.kind ∧ x.sortKey.compare y.sortKey = place := by
  cases x <;> cases y
  case text.text s t =>
    simp only [compare?, kind, Option.some.injEq, true_and]
    rfl
  all_goals simp [compare?, kind, sortKey, SortKey.compare]

@[simp] theorem le_iff : x ≤ y ↔ x.kind = y.kind ∧ x.sortKey.atMost y.sortKey := by
  simp only [LE.le, Option.mem_def, compare?_eq_some_iff, SortKey.atMost]
  simp only [and_assoc, exists_and_left, exists_eq_left']

@[simp] theorem lt_iff : x < y ↔ x.kind = y.kind ∧ x.sortKey.compare y.sortKey = .lt :=
  compare?_eq_some_iff

@[simp] theorem essence_sortKey (x : Cell) : x.sortKey.essence = x.sortKey := by
  cases x <;> rfl

theorem eq_of_sortKey (h : x.sortKey = y.sortKey) : x = y := by
  cases x <;> cases y <;> simp_all [sortKey]

/-- Cells of one kind are in a linear order. -/
instance : PartialOrder Cell where
  le_refl x := le_iff.mpr ⟨rfl, by simp [SortKey.atMost]⟩
  le_trans x y z hxy hyz := by
    obtain ⟨kind, below⟩ := le_iff.mp hxy
    obtain ⟨kind', below'⟩ := le_iff.mp hyz
    exact le_iff.mpr ⟨kind.trans kind', SortKey.atMost_trans _ _ _ below below'⟩
  le_antisymm x y hxy hyx :=
    eq_of_sortKey (SortKey.eq_of_isLE (le_iff.mp hxy).2 (le_iff.mp hyx).2)
  lt_iff_le_not_ge x y := by
    rw [lt_iff, le_iff, le_iff, SortKey.atMost, SortKey.atMost, SortKey.compare_swap y.sortKey]
    cases x.sortKey.compare y.sortKey <;> simp [eq_comm]

end Cell

namespace Value

/-- The cell that a fixed value is equal to: a number or a text. Truth values and decimals are kinds of
their own and equal none, and neither does a not-a-number. -/
def cell? : Value → Option Cell
  | .int n => some (.number (.number n))
  | .float x => (floatNumber? x).map .number
  | .text s => some (.text s)
  | _ => none

/-- The values are equal to cells of one kind. -/
def AllCells (kind : CellKind) (values : List Value) : Prop :=
  ∀ v ∈ values, v.cell?.map Cell.kind = some kind

/-- The cells that some values are equal to. -/
def cellsOf (values : List Value) : Set Cell :=
  {x | ∃ v ∈ values, v.cell? = some x}

section

variable {v w : Value} {x y : Cell}

theorem isOrderable_of_cell? (h : v.cell? = some x) : v.isOrderable := by
  cases v <;> try first | rfl | contradiction
  case float x => cases x <;> first | rfl | contradiction

theorem sortKey_of_cell? (h : v.cell? = some x) : v.sortKey = x.sortKey := by
  cases v <;> try contradiction
  case int | text =>
    cases h
    rfl
  case float number =>
    obtain ⟨denoted, number, rfl⟩ := Option.map_eq_some_iff.mp h
    exact congrArg (Option.elim · SortKey.null SortKey.number) number

/-- Values that merge are equal to the same cell. -/
theorem eq_of_merges (hv : v.cell? = some x) (hw : w.cell? = some y) (h : v.merges w) : x = y := by
  have same := ((merges_iff (isOrderable_of_cell? hv) (isOrderable_of_cell? hw)).mp h).2
  rw [sortKey_of_cell? hv, sortKey_of_cell? hw, Cell.essence_sortKey, Cell.essence_sortKey] at same
  exact Cell.eq_of_sortKey same

theorem lt_of_before (hv : v.cell? = some x) (hw : w.cell? = some y) (same : x.kind = y.kind)
    (h : v.before w) : x < y := by
  rw [before_iff (isOrderable_of_cell? hv) (isOrderable_of_cell? hw), sortKey_of_cell? hv,
    sortKey_of_cell? hw] at h
  exact Cell.lt_iff.mpr ⟨same, h⟩

end

section

variable {kind : CellKind} {values row : List Value}

theorem AllCells.exists_cell {v : Value} (h : AllCells kind values) (member : v ∈ values) :
    ∃ x, v.cell? = some x ∧ x.kind = kind :=
  Option.map_eq_some_iff.mp (h v member)

theorem AllCells.isOrderable (h : AllCells kind values) : ∀ v ∈ values, v.isOrderable := by
  intro v member
  obtain ⟨x, cell, -⟩ := h.exists_cell member
  exact isOrderable_of_cell? cell

/-- Values without those that an earlier one merges with, in order. -/
def united (values : List Value) : List Value :=
  sort (firstOfEach [] values)

theorem united_subset : united values ⊆ values :=
  fun _ member => (firstOfEach_sublist [] values).subset ((sort_perm _).mem_iff.mp member)

/-- Uniting values keeps every cell. -/
theorem cellsOf_united (h : AllCells kind values) : cellsOf (united values) = cellsOf values := by
  refine Set.Subset.antisymm (fun x ⟨v, member, cell⟩ => ⟨v, united_subset member, cell⟩) ?_
  rintro x ⟨v, member, cell⟩
  have ownMerges : values.any v.merges :=
    List.any_eq_true.mpr ⟨v, member, merges_self (isOrderable_of_cell? cell)⟩
  rw [← any_merges_firstOfEach h.isOrderable (isOrderable_of_cell? cell)] at ownMerges
  obtain ⟨w, kept, merged⟩ := List.any_eq_true.mp ownMerges
  obtain ⟨y, cell', -⟩ := h.exists_cell ((firstOfEach_sublist [] values).subset kept)
  exact ⟨w, (sort_perm _).mem_iff.mpr kept, eq_of_merges cell cell' merged ▸ cell'⟩

theorem united_pairwise (h : AllCells kind values) : (united values).Pairwise (before · ·) := by
  have inside : ∀ v ∈ firstOfEach [] values, v.isOrderable := fun v member =>
    h.isOrderable v ((firstOfEach_sublist [] values).subset member)
  exact sort_pairwise inside (nodup_sortKey_firstOfEach h.isOrderable)

/-- The cell of the one value, if there is one, stands nowhere behind that of the other. -/
def InOrder (v w : Value) : Prop :=
  ∀ x ∈ v.cell?, ∀ y ∈ w.cell?, x ≤ y

instance : Std.Refl InOrder where
  refl v x hx y hy := by
    rw [Option.mem_unique hx hy]

theorem pairwise_inOrder (h : AllCells kind values) (sorted : values.Pairwise (before · ·)) :
    values.Pairwise InOrder := by
  refine sorted.imp_of_mem fun {v w} hv hw earlier x hx y hy => ?_
  obtain ⟨_, cell, kindV⟩ := h.exists_cell hv
  obtain ⟨_, cell', kindW⟩ := h.exists_cell hw
  rw [Option.mem_unique hx cell, Option.mem_unique hy cell']
  exact (lt_of_before cell cell' (kindV.trans kindW.symm) earlier).le

/-- The first value of a row in order is least, and the last is greatest. -/
theorem hull_of_pairwise {first : Value} {rest : List Value} (h : AllCells kind (first :: rest))
    (sorted : (first :: rest).Pairwise (before · ·)) :
    ∃ low high, first.cell? = some low ∧ (rest.getLastD first).cell? = some high ∧
      IsLeast (cellsOf (first :: rest)) low ∧ IsGreatest (cellsOf (first :: rest)) high := by
  have inOrder := pairwise_inOrder h sorted
  have last : (first :: rest).getLast (List.cons_ne_nil first rest) = rest.getLastD first := by
    cases rest <;> rfl
  have lastMember : rest.getLastD first ∈ first :: rest := last ▸ List.getLast_mem _
  obtain ⟨low, cell, -⟩ := h.exists_cell (List.mem_cons_self ..)
  obtain ⟨high, cell', -⟩ := h.exists_cell lastMember
  refine ⟨low, high, cell, cell', ⟨⟨first, List.mem_cons_self .., cell⟩, ?_⟩, ⟨_, lastMember, cell'⟩, ?_⟩
  · rintro x ⟨v, member, hx⟩
    exact inOrder.rel_head member low cell x hx
  · rintro x ⟨v, member, hx⟩
    exact inOrder.rel_getLast member x hx high (last ▸ cell')

end

end Value

end QueryHarvest
