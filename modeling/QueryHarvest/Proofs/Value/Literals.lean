import QueryHarvest.Proofs.Value.Sameness
import QueryHarvest.Value.Literal

/-! # Literals told apart

A literal of null, a truth value, an integer, a text without quotes or an array of these tells its value
and where it ends: words and arrays by their first letter, a text by the quotes around it. Arrays of
either kind are written alike, so values are told apart as documents.
-/

namespace QueryHarvest

open Number Text

namespace Value

mutual

/-- Is the value null, a truth value, an integer, a text without quotes, or an array of such values? -/
def isQuoteFree : Value → Bool
  | .null => true
  | .bool _ => true
  | .int _ => true
  | .text s => s.toList.all (· != '\x27')
  | .list items => areQuoteFree items
  | .tuple items => areQuoteFree items
  | _ => false

/-- `isQuoteFree` of every item. -/
def areQuoteFree : List Value → Bool
  | [] => true
  | item :: rest => item.isQuoteFree && areQuoteFree rest

end

@[simp] theorem areQuoteFree_iff {items : List Value} :
    areQuoteFree items ↔ ∀ item ∈ items, item.isQuoteFree := by
  induction items with
  | nil => simp [areQuoteFree]
  | cons item rest ih => simp [areQuoteFree, ih]

/-- The characters of a literal. -/
def spelling (v : Value) : List Char :=
  v.literalText.toList

/-- Literals with commas between them. -/
def listText (items : List Value) : String :=
  String.intercalate ", " (literalTexts items)

@[simp] theorem toList_listText (items : List Value) :
    (listText items).toList = separated spelling items := by
  rw [listText, String.toList_intercalate, literalTexts_eq, List.map_map]
  rfl

theorem toList_literal_array (items : List Value) :
    ("ARRAY[" ++ String.intercalate ", " (literalTexts items) ++ "]").toList =
      "ARRAY[".toList ++ (separated spelling items ++ [']']) := by
  rw [String.toList_append, String.toList_append, ← toList_listText, listText, List.append_assoc]
  rfl

/-- A literal begins with a letter that tells the kind of its value. -/
theorem begins_literal {v : Value} (h : v.isQuoteFree) : Begins v.rank v.spelling := by
  cases v with
  | null => exact ⟨'N', ['U', 'L', 'L'], rfl, rfl, rfl⟩
  | bool b => cases b with
    | false => exact ⟨'F', ['A', 'L', 'S', 'E'], rfl, rfl, rfl⟩
    | true => exact ⟨'T', ['R', 'U', 'E'], rfl, rfl, rfl⟩
  | int n => exact begins_int n
  | text s => exact ⟨'\x27', s.toList ++ ['\x27'], by simp [spelling, literalText, plain], rfl, rfl⟩
  | list items | tuple items =>
      rw [spelling, literalText, toList_literal_array]
      exact ⟨'A', _, rfl, rfl, rfl⟩
  | float | decimal | bytes | buffer | uuid | date | time | dateTime | object => cases h

/-- The literals of some values with commas between them tell the values, up to a closing bracket. -/
theorem literals_append_inj {vs ws : List Value} (hv : areQuoteFree vs) (hw : areQuoteFree ws)
    (items : ∀ v ∈ vs, ∀ w ∈ ws, ToldApart spelling SameDocument v w)
    {r s : List Char} (hr : Closes r) (hs : Closes s)
    (h : separated spelling vs ++ r = separated spelling ws ++ s) : sameDocuments vs ws ∧ r = s := by
  have opens {values : List Value} (free : areQuoteFree values) : ∀ v ∈ values, Opens v.spelling :=
    fun v member => (begins_literal (areQuoteFree_iff.mp free v member)).opens
  obtain ⟨same, rest⟩ := separated_append_inj (opens hv) (opens hw) items hr hs h
  exact ⟨sameDocuments_iff.mpr same, rest⟩

/-- An array tells its items, whatever follows. -/
theorem literal_array_append_inj {vs ws : List Value} (hv : areQuoteFree vs) (hw : areQuoteFree ws)
    (items : ∀ v ∈ vs, ∀ w ∈ ws, ToldApart spelling SameDocument v w) {r s : List Char}
    (h : ("ARRAY[" ++ String.intercalate ", " (literalTexts vs) ++ "]").toList ++ r =
      ("ARRAY[" ++ String.intercalate ", " (literalTexts ws) ++ "]").toList ++ s) :
    sameDocuments vs ws ∧ r = s := by
  simp only [toList_literal_array, List.append_assoc, List.append_cancel_left_eq] at h
  obtain ⟨same, rest⟩ := literals_append_inj hv hw items (closes_cons rfl r) (closes_cons rfl s) h
  exact ⟨same, (List.cons.inj rest).2⟩

/-- A text in quotes tells the text, if no quote is in it. -/
theorem quoted_append_inj {t u : String} (ht : t.toList.all (· != '\x27'))
    (hu : u.toList.all (· != '\x27')) {r s : List Char}
    (h : ("'" ++ t ++ "'").toList ++ r = ("'" ++ u ++ "'").toList ++ s) : t = u ∧ r = s := by
  simp only [String.toList_append, List.append_assoc, List.append_cancel_left_eq] at h
  obtain ⟨same, rest⟩ := front_append_inj (List.all_eq_true.mp ht) (List.all_eq_true.mp hu)
    (stops_cons rfl) (stops_cons rfl) h
  exact ⟨String.toList_injective same, (List.cons.inj rest).2⟩

/-- A literal tells its value if it does so for the parts of the value. -/
theorem toldApart_of_parts {v w : Value} (hv : v.isQuoteFree) (hw : w.isQuoteFree)
    (told : ∀ x ∈ v.parts, ∀ y, x.isQuoteFree → y.isQuoteFree →
      ToldApart spelling SameDocument x y) :
    ToldApart spelling SameDocument v w := by
  intro r s hr hs h
  have same : v.rank = w.rank := (begins_literal hv).rank_eq (begins_literal hw) h
  cases v with
  | null =>
      cases w with
      | null => exact ⟨rfl, List.append_cancel_left h⟩
      | _ => cases same
  | bool a =>
      cases w with
      | bool b => cases a <;> cases b <;> simp_all [spelling, literalText, SameDocument, sameDocument]
      | _ => cases same
  | int m =>
      cases w with
      | int n =>
          obtain ⟨rfl, rest⟩ := toldApart_int m n r s hr hs h
          exact ⟨beq_self_eq_true m, rest⟩
      | float => cases hw
      | _ => cases same
  | text t =>
      cases w with
      | text u =>
          obtain ⟨rfl, rest⟩ := quoted_append_inj hv hw h
          exact ⟨beq_self_eq_true t, rest⟩
      | _ => cases same
  | list xs | tuple xs =>
      cases w with
      | list ys | tuple ys =>
          exact literal_array_append_inj hv hw (fun x hx y hy =>
            told x hx y (areQuoteFree_iff.mp hv x hx) (areQuoteFree_iff.mp hw y hy)) h
      | _ => cases same
  | float | decimal | bytes | buffer | uuid | date | time | dateTime | object => cases hv

/-- A literal of a value without quotes tells the value up to the kinds of its arrays, where no more of a
number follows. -/
theorem toldApart_literal {v w : Value} (hv : v.isQuoteFree) (hw : w.isQuoteFree) :
    ToldApart spelling SameDocument v w := by
  induction v using parts_induction generalizing w with
  | step v ih => exact toldApart_of_parts hv hw fun x inside y hx hy => ih x inside hx hy

theorem IsArrayOf.literalText_eq {items : List Value} {v : Value} (h : IsArrayOf items v) :
    v.literalText = "ARRAY[" ++ listText items ++ "]" := by
  rcases h with rfl | rfl <;> rw [literalText, listText]

theorem IsArrayOf.isQuoteFree_eq {items : List Value} {v : Value} (h : IsArrayOf items v) :
    v.isQuoteFree = areQuoteFree items := by
  rcases h with rfl | rfl <;> rw [isQuoteFree]

theorem listText_congr {vs ws : List Value}
    (h : List.Forall₂ (fun v w => literalText v = literalText w) vs ws) : listText vs = listText ws := by
  rw [listText, listText, literalTexts_eq, literalTexts_eq, map_eq_of_forall₂ h]

/-- The same document is written alike. -/
theorem literalText_eq_of_same {v w : Value} (hv : v.isQuoteFree) (same : SameDocument v w) :
    v.literalText = w.literalText := by
  induction v using parts_induction generalizing w with
  | step v ih =>
      rcases eq_or_containers_of_same same with rfl | ⟨vs, ws, array, array', items⟩ | ⟨_, _, rfl, -⟩
      · rfl
      · rw [array.isQuoteFree_eq, areQuoteFree_iff] at hv
        have written := forall₂_imp_of_mem items fun x inside y _ both =>
          ih x (array.parts_eq.symm ▸ inside) (hv x inside) both
        rw [array.literalText_eq, array'.literalText_eq, listText_congr written]
      · cases hv

theorem IsArrayOf.isWritable_eq {items : List Value} {v : Value} (h : IsArrayOf items v) :
    v.isWritable = areWritable items := by
  rcases h with rfl | rfl <;> rw [isWritable]

theorem areWritable_congr {vs ws : List Value}
    (h : List.Forall₂ (fun v w => v.isWritable = w.isWritable) vs ws) : areWritable vs = areWritable ws := by
  induction h with
  | nil => rfl
  | cons first _ ih => rw [areWritable, areWritable, first, ih]

/-- Of the same documents either both can be written or neither. -/
theorem isWritable_eq_of_same {v w : Value} (hv : v.isQuoteFree) (same : SameDocument v w) :
    v.isWritable = w.isWritable := by
  induction v using parts_induction generalizing w with
  | step v ih =>
      rcases eq_or_containers_of_same same with rfl | ⟨vs, ws, array, array', items⟩ | ⟨_, _, rfl, -⟩
      · rfl
      · rw [array.isQuoteFree_eq, areQuoteFree_iff] at hv
        have alike := forall₂_imp_of_mem items fun x inside y _ both =>
          ih x (array.parts_eq.symm ▸ inside) (hv x inside) both
        rw [array.isWritable_eq, array'.isWritable_eq, areWritable_congr alike]
      · cases hv

/-- The literals are the same exactly for values that are the same up to the kinds of their arrays. -/
theorem literalText_eq_iff {v w : Value} (hv : v.isQuoteFree) (hw : w.isQuoteFree) :
    v.literalText = w.literalText ↔ v.sameDocument w := by
  refine ⟨fun same => ?_, literalText_eq_of_same hv⟩
  have spelled : v.spelling ++ [] = w.spelling ++ [] := by rw [spelling, same, spelling]
  exact (toldApart_literal hv hw [] [] (stops_nil _) (stops_nil _) spelled).1

/-- So are literals with commas between them. -/
theorem listText_eq_iff {vs ws : List Value} (hv : areQuoteFree vs) (hw : areQuoteFree ws) :
    listText vs = listText ws ↔ sameDocuments vs ws := by
  have free := areQuoteFree_iff.mp hv
  have free' := areQuoteFree_iff.mp hw
  constructor
  · intro same
    have items : ∀ v ∈ vs, ∀ w ∈ ws, ToldApart spelling SameDocument v w :=
      fun v inside w inside' => toldApart_literal (free v inside) (free' w inside')
    refine (literals_append_inj (r := []) (s := []) hv hw items (stops_nil _) (stops_nil _) ?_).1
    rw [← toList_listText, ← toList_listText, same]
  · intro same
    exact listText_congr (forall₂_imp_of_mem (sameDocuments_iff.mp same) fun v inside _ _ =>
      literalText_eq_of_same (free v inside))

/-- The literals of some values with commas between them, if all of them can be written. -/
def literalList (values : List Value) : Except WritingError String :=
  (values.mapM literal).map (String.intercalate ", ")

theorem literalList_eq_ok_iff {values : List Value} {text : String} :
    literalList values = .ok text ↔ areWritable values ∧ listText values = text := by
  rw [literalList, mapM_literal, listText, literalTexts_eq]
  split <;> simp [*]

/-- A literal is written for another value too just where the values are the same up to the kinds of their
arrays. -/
theorem literal_eq_ok_iff_same {v w : Value} (hv : v.isQuoteFree) (hw : w.isQuoteFree) {text : String}
    (written : v.literal = .ok text) : w.literal = .ok text ↔ v.sameDocument w := by
  obtain ⟨writable, rfl⟩ := literal_eq_ok_iff.mp written
  rw [literal_eq_ok_iff, eq_comm (a := w.literalText), literalText_eq_iff hv hw]
  exact and_iff_right_of_imp fun same => isWritable_eq_of_same hv same ▸ writable

theorem literalList_eq_ok_iff_same {vs ws : List Value} (hv : areQuoteFree vs) (hw : areQuoteFree ws)
    {text : String} (written : literalList vs = .ok text) :
    literalList ws = .ok text ↔ sameDocuments vs ws := by
  obtain ⟨writable, rfl⟩ := literalList_eq_ok_iff.mp written
  rw [literalList_eq_ok_iff, eq_comm (a := listText ws), listText_eq_iff hv hw]
  refine and_iff_right_of_imp fun same => ?_
  rw [← areWritable_congr (forall₂_imp_of_mem (sameDocuments_iff.mp same) fun v inside _ _ =>
    isWritable_eq_of_same (areQuoteFree_iff.mp hv v inside))]
  exact writable

end Value

end QueryHarvest
