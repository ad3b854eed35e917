import QueryHarvest.Proofs.Outcome
import QueryHarvest.Proofs.Value.Parts

/-! # Values that are the same as documents

Two values are the same document when their scalars are equal, their arrays of either kind agree item by
item, and their objects have the same keys with the same documents under them. The order of the keys does
not count, and so objects are the same exactly when their fields agree one by one in the order of their
keys.
-/

namespace QueryHarvest

namespace Value

mutual

/-- Is the value null, a truth value, an integer, a text, an array of such values, or an object of such
values whose keys differ? -/
def isDocument : Value → Bool
  | .null => true
  | .bool _ => true
  | .int _ => true
  | .text _ => true
  | .list items => areDocuments items
  | .tuple items => areDocuments items
  | .object fields => (fields.map Prod.fst).Nodup && fieldsAreDocuments fields
  | _ => false

/-- `isDocument` of every item. -/
def areDocuments : List Value → Bool
  | [] => true
  | item :: rest => item.isDocument && areDocuments rest

/-- `isDocument` of the value of every field. -/
def fieldsAreDocuments : List (String × Value) → Bool
  | [] => true
  | (_, item) :: rest => item.isDocument && fieldsAreDocuments rest

end

mutual

/-- Are two values the same document? Arrays of either kind go item by item, and objects by what stands
under each key. -/
def sameDocument : Value → Value → Bool
  | .null, .null => true
  | .bool a, .bool b => a == b
  | .int m, .int n => m == n
  | .text s, .text t => s == t
  | .list xs, .list ys => sameDocuments xs ys
  | .list xs, .tuple ys => sameDocuments xs ys
  | .tuple xs, .list ys => sameDocuments xs ys
  | .tuple xs, .tuple ys => sameDocuments xs ys
  | .object fields, .object others => fields.length == others.length && standWithin fields others
  | _, _ => false

/-- Are two rows of values the same item by item? -/
def sameDocuments : List Value → List Value → Bool
  | [], [] => true
  | x :: xs, y :: ys => x.sameDocument y && sameDocuments xs ys
  | _, _ => false

/-- Does the same value stand under the key of every field among the others? -/
def standWithin : List (String × Value) → List (String × Value) → Bool
  | [], _ => true
  | (key, item) :: rest, others => (others.lookup key).any item.sameDocument && standWithin rest others

end

/-- The two are the same document. -/
def SameDocument (v w : Value) : Prop :=
  v.sameDocument w

@[simp] theorem areDocuments_iff {items : List Value} :
    areDocuments items ↔ ∀ item ∈ items, item.isDocument := by
  induction items with
  | nil => simp [areDocuments]
  | cons item rest ih => simp [areDocuments, ih]

@[simp] theorem fieldsAreDocuments_iff {fields : List (String × Value)} :
    fieldsAreDocuments fields ↔ ∀ field ∈ fields, field.2.isDocument := by
  induction fields with
  | nil => simp [fieldsAreDocuments]
  | cons field rest ih => simp [fieldsAreDocuments, ih]

theorem sameDocuments_iff {xs ys : List Value} :
    sameDocuments xs ys ↔ List.Forall₂ SameDocument xs ys := by
  induction xs generalizing ys with
  | nil => cases ys <;> simp [sameDocuments]
  | cons x xs ih => cases ys <;> simp [sameDocuments, SameDocument, ih]

theorem standWithin_iff {fields others : List (String × Value)} :
    standWithin fields others ↔
      ∀ f ∈ fields, ∃ y, others.lookup f.1 = some y ∧ SameDocument f.2 y := by
  induction fields with
  | nil => simp [standWithin]
  | cons f fields ih => simp [standWithin, SameDocument, ih, Option.any_eq_true]

theorem IsArrayOf.isDocument_eq {items : List Value} {v : Value} (h : IsArrayOf items v) :
    v.isDocument = areDocuments items := by
  rcases h with rfl | rfl <;> rw [isDocument]

/-- Values that are the same document are equal, unless both are arrays or both objects. -/
theorem eq_or_containers_of_same {v w : Value} (same : SameDocument v w) :
    v = w ∨ (∃ xs ys, IsArrayOf xs v ∧ IsArrayOf ys w ∧ List.Forall₂ SameDocument xs ys) ∨
      ∃ fields others, v = .object fields ∧ w = .object others := by
  cases v with
  | null =>
      cases w with
      | null => exact .inl rfl
      | _ => cases same
  | bool a =>
      cases w with
      | bool b => exact .inl (congrArg bool (eq_of_beq same))
      | _ => cases same
  | int m =>
      cases w with
      | int n => exact .inl (congrArg int (eq_of_beq same))
      | _ => cases same
  | text s =>
      cases w with
      | text t => exact .inl (congrArg text (eq_of_beq same))
      | _ => cases same
  | list xs =>
      cases w with
      | list ys => exact .inr (.inl ⟨xs, ys, .inl rfl, .inl rfl, sameDocuments_iff.mp same⟩)
      | tuple ys => exact .inr (.inl ⟨xs, ys, .inl rfl, .inr rfl, sameDocuments_iff.mp same⟩)
      | _ => cases same
  | tuple xs =>
      cases w with
      | list ys => exact .inr (.inl ⟨xs, ys, .inr rfl, .inl rfl, sameDocuments_iff.mp same⟩)
      | tuple ys => exact .inr (.inl ⟨xs, ys, .inr rfl, .inr rfl, sameDocuments_iff.mp same⟩)
      | _ => cases same
  | object fields =>
      cases w with
      | object others => exact .inr (.inr ⟨fields, others, rfl, rfl⟩)
      | _ => cases same
  | float | decimal | bytes | buffer | uuid | date | time | dateTime => cases same

/-- Fields with the same key and the same value under it. -/
structure SameField (f g : String × Value) : Prop where
  key : f.1 = g.1
  item : SameDocument f.2 g.2

/-- Does the key of one field come before that of another, or is it the same? -/
def keyAtMost : String × Value → String × Value → Prop :=
  Order.Preimage Prod.fst (· ≤ ·)

instance : DecidableRel keyAtMost :=
  fun f g => inferInstanceAs (Decidable (f.1 ≤ g.1))

instance : Std.Total keyAtMost :=
  inferInstanceAs (Std.Total (Order.Preimage Prod.fst (· ≤ ·)))

instance : IsTrans (String × Value) keyAtMost :=
  inferInstanceAs (IsTrans _ (Order.Preimage Prod.fst (· ≤ ·)))

/-- Fields in the order of their keys. -/
def inOrder (fields : List (String × Value)) : List (String × Value) :=
  fields.insertionSort keyAtMost

theorem inOrder_perm (fields : List (String × Value)) : (inOrder fields).Perm fields :=
  List.perm_insertionSort keyAtMost fields

@[simp] theorem mem_inOrder {fields : List (String × Value)} {f : String × Value} :
    f ∈ inOrder fields ↔ f ∈ fields :=
  (inOrder_perm fields).mem_iff

theorem pairwise_keys_inOrder (fields : List (String × Value)) :
    ((inOrder fields).map Prod.fst).Pairwise (· ≤ ·) :=
  List.pairwise_map.mpr (List.pairwise_insertionSort keyAtMost fields)

section

variable {fields others : List (String × Value)}

/-- Fields with the same keys have them in the same order. -/
theorem keys_inOrder_eq (same : (fields.map Prod.fst).Perm (others.map Prod.fst)) :
    (inOrder fields).map Prod.fst = (inOrder others).map Prod.fst := by
  have perm := (((inOrder_perm fields).map Prod.fst).trans same).trans
    ((inOrder_perm others).map Prod.fst).symm
  exact perm.eq_of_pairwise (fun _ _ _ _ => String.le_antisymm) (pairwise_keys_inOrder fields)
    (pairwise_keys_inOrder others)

theorem lookup_of_mem (distinct : (fields.map Prod.fst).Nodup) {f : String × Value} (member : f ∈ fields) :
    fields.lookup f.1 = some f.2 := by
  obtain ⟨before, after, rfl⟩ := List.append_of_mem member
  refine List.lookup_eq_some_iff.mpr ⟨before, after, rfl, fun g earlier => ?_⟩
  rw [List.map_append, List.nodup_append] at distinct
  have apart := distinct.2.2 g.1 (List.mem_map_of_mem earlier) f.1 (by simp)
  simpa using apart.symm

/-- Fields that stand within no more others have the same keys. -/
theorem keys_perm (distinct : (fields.map Prod.fst).Nodup) (count : others.length ≤ fields.length)
    (within : ∀ f ∈ fields, ∃ y, others.lookup f.1 = some y ∧ SameDocument f.2 y) :
    (fields.map Prod.fst).Perm (others.map Prod.fst) := by
  have known : fields.map Prod.fst ⊆ others.map Prod.fst := by
    intro key member
    obtain ⟨f, inside, rfl⟩ := List.mem_map.mp member
    obtain ⟨y, found, -⟩ := within f inside
    obtain ⟨before, after, rfl, -⟩ := List.lookup_eq_some_iff.mp found
    simp
  exact (List.subperm_of_subset distinct known).perm_of_length_le (by simpa using count)

/-- Objects are the same exactly when their fields are, one by one in the order of their keys. -/
theorem sameDocument_object_iff (distinct : (fields.map Prod.fst).Nodup)
    (distinct' : (others.map Prod.fst).Nodup) :
    sameDocument (.object fields) (.object others) ↔
      List.Forall₂ SameField (inOrder fields) (inOrder others) := by
  rw [sameDocument, Bool.and_eq_true, beq_iff_eq, standWithin_iff]
  constructor
  · rintro ⟨count, within⟩
    have keys := keys_inOrder_eq (keys_perm distinct count.ge within)
    rw [← List.forall₂_eq_eq_eq, List.forall₂_map_left_iff, List.forall₂_map_right_iff] at keys
    refine forall₂_imp_of_mem keys fun f inside g inside' key => ?_
    obtain ⟨y, found, same⟩ := within f (mem_inOrder.mp inside)
    rw [key, lookup_of_mem distinct' (mem_inOrder.mp inside')] at found
    cases found
    exact ⟨key, same⟩
  · intro agree
    have count := agree.length_eq
    rw [(inOrder_perm fields).length_eq, (inOrder_perm others).length_eq] at count
    refine ⟨count, fun f member => ?_⟩
    obtain ⟨g, inside, same⟩ := exists_right_of_forall₂ agree (mem_inOrder.mpr member)
    refine ⟨g.2, ?_, same.item⟩
    rw [same.key, lookup_of_mem distinct' (mem_inOrder.mp inside)]

end

end Value

end QueryHarvest
