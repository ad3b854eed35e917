import QueryHarvest.Proofs.Sql.Arity
import QueryHarvest.Proofs.Value.Cells
import QueryHarvest.Session.Fragment

/-! # What rendered conditions say

A rendered condition is a clause on its column, or several joined with `OR`, and a cell of the column
passes it or not. Conditions that have been merged under one operator are told from their clauses: but
for ranges they let through what some of them did, and ranges let through all that lies between their
outermost bounds.
-/

namespace QueryHarvest.Sql

/-- Does a cell stand to another one as the comparison says? -/
def Comparison.Relates (x y : Cell) : Comparison → Prop
  | .atLeast => x ≥ y
  | .atMost => x ≤ y
  | .above => x > y
  | .below => x < y
  | .differs | .differsAngle => x ≠ y

namespace Operator

/-- Is a column compared with values under the operator? It is not under negated membership, pattern
matches and null checks. -/
def isComparative : Operator → Bool
  | .equals | .isIn | .anyOf | .between | .compares _ => true
  | _ => false

/-- How a cell stands to a value that it meets under an operator other than that of ranges. -/
def Meets (x y : Cell) : Operator → Prop
  | .equals | .isIn | .anyOf => x = y
  | .compares comparison => comparison.Relates x y
  | _ => False

end Operator

end QueryHarvest.Sql

namespace QueryHarvest.Session

open Sql Value

/-- A clause on a column, as it is written behind `WHERE`. -/
inductive Clause where
  | equals (value : Value)
  | oneOf (values : List Value)
  | compares (comparison : Comparison) (value : Value)
  | between (low high : Value)

namespace Clause

def text (column : String) : Clause → String
  | .equals value => column ++ " = " ++ value.literalText
  | .oneOf values => column ++ " IN (" ++ String.intercalate ", " (values.map literalText) ++ ")"
  | .compares comparison value => column ++ " " ++ comparison.text ++ " " ++ value.literalText
  | .between low high => column ++ " BETWEEN " ++ low.literalText ++ " AND " ++ high.literalText

/-- Clauses joined with `OR`; one stands alone. -/
def joined (column : String) : List Clause → String
  | [clause] => clause.text column
  | clauses => "(" ++ String.intercalate " OR " (clauses.map (text column)) ++ ")"

/-- Does a cell of the column pass the clause? -/
def Passes (x : Cell) : Clause → Prop
  | .equals value => value.cell? = some x
  | .oneOf values => ∃ value ∈ values, value.cell? = some x
  | .compares comparison value => ∃ y, value.cell? = some y ∧ comparison.Relates x y
  | .between low high => ∃ l h, low.cell? = some l ∧ high.cell? = some h ∧ l ≤ x ∧ x ≤ h

end Clause

/-- The values of a condition as they are collected. -/
def fixedValues (c : Condition) : List Value := c.values.map Value.freeze

/-- The clause that a condition of a statement stands for. -/
def clause? (c : Condition) : Option Clause :=
  match c.operator, fixedValues c with
  | .equals, [value] => some (.equals value)
  | .isIn, values | .anyOf, values => some (.oneOf values)
  | .compares comparison, [value] => some (.compares comparison value)
  | .between, [low, high] => some (.between low high)
  | _, _ => none

/-- Does a cell of its column meet the condition? -/
def Admits (c : Condition) (x : Cell) : Prop :=
  ∃ clause ∈ clause? c, clause.Passes x

/-- The clauses that a condition is rendered as. -/
def clausesOf (c : Condition) : List Clause :=
  match c.operator, c.values with
  | .equals, [value] | .isIn, [value] | .anyOf, [value] => [.equals value]
  | .equals, values | .isIn, values | .anyOf, values => [.oneOf values]
  | .compares comparison, values => values.map (.compares comparison)
  | .between, first :: rest => [.between first (rest.getLastD first)]
  | _, _ => []

section

variable {c : Condition} {x : Cell}

theorem not_isNullCheck {operator : Operator} (comparative : operator.isComparative) :
    ¬ operator.isNullCheck := by
  cases operator <;> first | contradiction | exact Bool.false_ne_true

theorem values_ne_nil (comparative : c.operator.isComparative) : c.values ≠ [] := by
  have fits := c.values_isEmpty
  rw [Bool.eq_false_iff.mpr (not_isNullCheck comparative)] at fits
  exact List.isEmpty_eq_false_iff.mp fits

theorem conditionText_eq_joined (comparative : c.operator.isComparative) :
    conditionText c.column c.operator ((shownValues c).map literalText) =
      Clause.joined c.column (clausesOf c) := by
  have filled := values_ne_nil comparative
  obtain ⟨table, column, operator, values, _⟩ := c
  cases operator with
  | equals | isIn | anyOf =>
      match values with
      | [] => contradiction
      | [_] | _ :: _ :: _ => rfl
  | between =>
      match values with
      | [] => contradiction
      | first :: rest =>
          simp [conditionText, shownValues, clausesOf, Clause.joined, Clause.text, List.getLast?_cons,
            String.append_assoc]
  | compares comparison =>
      match values with
      | [] => contradiction
      | [_] => rfl
      | first :: second :: rest =>
          simp [conditionText, alternativesText, shownValues, clausesOf, Clause.joined, Clause.text,
            Function.comp_def]
  | notIn | like | ilike | isNull | isNotNull => contradiction

/-- A cell meets a condition, other than a range, if it meets one of its values. -/
theorem admits_iff (comparative : c.operator.isComparative) (unranged : c.operator ≠ .between)
    (fits : ∀ count ∈ c.operator.valueCount?, c.values.length = count) :
    Admits c x ↔ ∃ y ∈ cellsOf (fixedValues c), c.operator.Meets x y := by
  obtain ⟨table, column, operator, values, _⟩ := c
  cases operator with
  | equals =>
      obtain ⟨v, rfl⟩ := List.length_eq_one_iff.mp (fits 1 rfl)
      simp [Admits, clause?, fixedValues, Clause.Passes, cellsOf, Operator.Meets]
  | compares comparison =>
      obtain ⟨v, rfl⟩ := List.length_eq_one_iff.mp (fits 1 rfl)
      simp [Admits, clause?, fixedValues, Clause.Passes, cellsOf, Operator.Meets]
  | isIn | anyOf => simp [Admits, clause?, fixedValues, Clause.Passes, cellsOf, Operator.Meets]
  | between => contradiction
  | notIn | like | ilike | isNull | isNotNull => contradiction

/-- A cell passes one of the clauses of a condition, other than a range, if it meets one of its values. -/
theorem passes_iff (comparative : c.operator.isComparative) (unranged : c.operator ≠ .between) :
    (∃ clause ∈ clausesOf c, clause.Passes x) ↔ ∃ y ∈ cellsOf c.values, c.operator.Meets x y := by
  obtain ⟨table, column, operator, values, _⟩ := c
  cases operator with
  | equals | isIn | anyOf =>
      match values with
      | [] => simp [clausesOf, Clause.Passes, cellsOf]
      | [_] | _ :: _ :: _ => simp [clausesOf, Clause.Passes, cellsOf, Operator.Meets]
  | compares comparison =>
      constructor
      · rintro ⟨_, member, passes⟩
        obtain ⟨v, inside, rfl⟩ := List.mem_map.mp member
        obtain ⟨y, cell, relates⟩ := passes
        exact ⟨y, ⟨v, inside, cell⟩, relates⟩
      · rintro ⟨y, ⟨v, inside, cell⟩, relates⟩
        exact ⟨_, List.mem_map_of_mem inside, y, cell, relates⟩
  | between => contradiction
  | notIn | like | ilike | isNull | isNotNull => contradiction

/-- Every condition that compares with as many values as its operator takes states a clause. -/
theorem isSome_clause? (comparative : c.operator.isComparative)
    (fits : ∀ count ∈ c.operator.valueCount?, c.values.length = count) : (clause? c).isSome := by
  obtain ⟨table, column, operator, values, _⟩ := c
  cases operator with
  | equals | compares =>
      obtain ⟨v, rfl⟩ := List.length_eq_one_iff.mp (fits 1 rfl)
      rfl
  | between =>
      obtain ⟨low, high, rfl⟩ := List.length_eq_two.mp (fits 2 rfl)
      rfl
  | isIn | anyOf => rfl
  | notIn | like | ilike | isNull | isNotNull => contradiction

/-- A cell that a range admits lies between two cells of its values. -/
theorem bounds_of_admits (ranged : c.operator = .between) (h : Admits c x) :
    ∃ l ∈ cellsOf (fixedValues c), ∃ u ∈ cellsOf (fixedValues c), l ≤ x ∧ x ≤ u := by
  obtain ⟨clause, stated, passes⟩ := h
  rw [Option.mem_def, clause?, ranged] at stated
  split at stated
  case h_5 low high _ values =>
    cases stated
    obtain ⟨l, u, cell, cell', below, above⟩ := passes
    exact ⟨l, ⟨low, by simp [values], cell⟩, u, ⟨high, by simp [values], cell'⟩, below, above⟩
  all_goals contradiction

end

/-- The clauses let through whatever one of some conditions admits. Under an operator other than that of
ranges they let through nothing else, and under that of ranges they are one range between the least and
the greatest of all values. -/
structure Covers (clauses : List Clause) (operator : Operator) (conditions : List Condition) : Prop where
  stated : ∀ c ∈ conditions, (clause? c).isSome
  complete : ∀ c ∈ conditions, ∀ x, Admits c x → ∃ clause ∈ clauses, clause.Passes x
  exact : operator ≠ .between → ∀ x, (∃ clause ∈ clauses, clause.Passes x) →
    ∃ c ∈ conditions, Admits c x
  hull : operator = .between → ∃ low high l u, clauses = [.between low high] ∧
    low.cell? = some l ∧ high.cell? = some u ∧
    IsLeast (cellsOf (conditions.flatMap fixedValues)) l ∧
    IsGreatest (cellsOf (conditions.flatMap fixedValues)) u

theorem mem_cellsOf_flatMap {conditions : List Condition} {y : Cell} :
    y ∈ cellsOf (conditions.flatMap fixedValues) ↔ ∃ c ∈ conditions, y ∈ cellsOf (fixedValues c) := by
  constructor
  · rintro ⟨v, member, cell⟩
    obtain ⟨c, inside, member⟩ := List.mem_flatMap.mp member
    exact ⟨c, inside, v, member, cell⟩
  · rintro ⟨c, inside, v, member, cell⟩
    exact ⟨v, List.mem_flatMap.mpr ⟨c, inside, member⟩, cell⟩

section

variable {merged : Condition} {conditions : List Condition} {kind : CellKind}

/-- The range that ranges are merged into runs from their least to their greatest value. -/
theorem hull_of_merged (ranged : merged.operator = .between)
    (cells : AllCells kind (conditions.flatMap fixedValues))
    (values : merged.values = united (conditions.flatMap fixedValues)) :
    ∃ low high l u, clausesOf merged = [.between low high] ∧ low.cell? = some l ∧ high.cell? = some u ∧
      IsLeast (cellsOf (conditions.flatMap fixedValues)) l ∧
      IsGreatest (cellsOf (conditions.flatMap fixedValues)) u := by
  have sorted := united_pairwise cells
  have inside : AllCells kind (united (conditions.flatMap fixedValues)) := fun v member =>
    cells v (united_subset member)
  have kept := cellsOf_united cells
  have filled := values_ne_nil (c := merged) (by rw [ranged]; rfl)
  rw [← values] at sorted inside kept
  obtain ⟨first, rest, row⟩ := List.exists_cons_of_ne_nil filled
  rw [row] at sorted inside kept
  obtain ⟨l, u, cell, cell', least, greatest⟩ := hull_of_pairwise inside sorted
  rw [kept] at least greatest
  exact ⟨first, _, l, u, by rw [clausesOf, ranged, row], cell, cell', least, greatest⟩

/-- Where conditions with one operator are merged, no cell is lost that one of them admits. -/
theorem covers_of_merged (comparative : merged.operator.isComparative)
    (agree : ∀ c ∈ conditions, c.operator = merged.operator)
    (fits : ∀ c ∈ conditions, ∀ count ∈ c.operator.valueCount?, c.values.length = count)
    (cells : AllCells kind (conditions.flatMap fixedValues))
    (values : merged.values = united (conditions.flatMap fixedValues)) :
    Covers (clausesOf merged) merged.operator conditions := by
  have own : ∀ c ∈ conditions, c.operator.isComparative := fun c member => agree c member ▸ comparative
  have unranged (other : merged.operator ≠ .between) (x : Cell) :
      (∃ c ∈ conditions, Admits c x) ↔ ∃ clause ∈ clausesOf merged, clause.Passes x := by
    rw [passes_iff comparative other, values, cellsOf_united cells]
    constructor
    · rintro ⟨c, member, admits⟩
      obtain ⟨y, inside, meets⟩ :=
        (admits_iff (own c member) (agree c member ▸ other) (fits c member)).mp admits
      exact ⟨y, mem_cellsOf_flatMap.mpr ⟨c, member, inside⟩, agree c member ▸ meets⟩
    · rintro ⟨y, inside, meets⟩
      obtain ⟨c, member, inside⟩ := mem_cellsOf_flatMap.mp inside
      exact ⟨c, member, (admits_iff (own c member) (agree c member ▸ other) (fits c member)).mpr
        ⟨y, inside, (agree c member).symm ▸ meets⟩⟩
  exact
    { stated := fun c member => isSome_clause? (own c member) (fits c member)
      complete := by
        intro c member x admits
        by_cases ranged : merged.operator = .between
        · obtain ⟨low, high, l, u, clauses, cell, cell', least, greatest⟩ :=
            hull_of_merged ranged cells values
          obtain ⟨a, bound, b, bound', below, above⟩ :=
            bounds_of_admits ((agree c member).trans ranged) admits
          have first := least.2 (mem_cellsOf_flatMap.mpr ⟨c, member, bound⟩)
          have last := greatest.2 (mem_cellsOf_flatMap.mpr ⟨c, member, bound'⟩)
          refine ⟨.between low high, by simp [clauses], ?_⟩
          exact ⟨l, u, cell, cell', first.trans below, above.trans last⟩
        · exact (unranged ranged x).mp ⟨c, member, admits⟩
      exact := fun other x => (unranged other x).mpr
      hull := fun ranged => hull_of_merged ranged cells values }

end

end QueryHarvest.Session
