import QueryHarvest.Proofs.Json.Strings
import QueryHarvest.Proofs.Value.Sameness

/-! # Canonical JSON texts told apart

The canonical text of a JSON value tells the value and where it ends. A string ends at the first quote
that is no escape, and what is between the quotes is read back. An object is written with its fields in
the order of their keys, so that the same objects have the same text.
-/

namespace QueryHarvest.Json

open Text Value

/-- Characters that stand between the quotes of a string: after a backslash any, else no quote. -/
inductive Within : List Char → Prop where
  | nil : Within []
  | plain {c : Char} {text : List Char} (noQuote : c ≠ '\x22') (noBackslash : c ≠ '\\')
      (rest : Within text) : Within (c :: text)
  | escape (c : Char) {text : List Char} (rest : Within text) : Within ('\\' :: c :: text)

theorem Within.append {front text : List Char} (h : Within front) (h' : Within text) :
    Within (front ++ text) := by
  induction h with
  | nil => exact h'
  | plain noQuote noBackslash _ ih => exact .plain noQuote noBackslash ih
  | escape c _ ih => exact .escape c ih

/-- The first quote that is no escape tells what is within a string. -/
theorem Within.append_inj {front front' r s : List Char} (h : Within front) (h' : Within front')
    (same : front ++ '\x22' :: r = front' ++ '\x22' :: s) : front = front' ∧ r = s := by
  induction h generalizing front' with
  | nil =>
      cases h' with
      | nil => exact ⟨rfl, (List.cons.inj same).2⟩
      | plain noQuote => exact absurd (List.cons.inj same).1.symm noQuote
      | escape => exact absurd (List.cons.inj same).1 (by decide)
  | plain noQuote noBackslash _ ih =>
      cases h' with
      | nil => exact absurd (List.cons.inj same).1 noQuote
      | plain _ _ rest =>
          rw [List.cons_append, List.cons_append, List.cons.injEq] at same
          obtain ⟨rfl, same⟩ := same
          obtain ⟨rfl, ends⟩ := ih rest same
          exact ⟨rfl, ends⟩
      | escape => exact absurd (List.cons.inj same).1 noBackslash
  | escape c _ ih =>
      cases h' with
      | nil => exact absurd (List.cons.inj same).1 (by decide)
      | plain _ noBackslash => exact absurd (List.cons.inj same).1.symm noBackslash
      | escape d rest =>
          simp only [List.cons_append, List.cons.injEq, true_and] at same
          obtain ⟨rfl, same⟩ := same
          obtain ⟨rfl, ends⟩ := ih rest same
          exact ⟨rfl, ends⟩

theorem within_hex {unit : Nat} (h : unit < 0x10000) : Within (hex 4 unit) := by
  have digit : ∀ d < 16, Nat.digitChar d ≠ '\x22' ∧ Nat.digitChar d ≠ '\\' := by decide
  have plain {d : Nat} (small : d < 16) {text : List Char} (rest : Within text) :
      Within (Nat.digitChar d :: text) := .plain (digit d small).1 (digit d small).2 rest
  rw [hex_four h]
  exact plain (by omega) (plain (by omega) (plain (by omega) (plain (by omega) .nil)))

theorem within_units {units : List Nat} (h : ∀ unit ∈ units, unit < 0x10000) :
    Within (units.flatMap fun unit => '\\' :: 'u' :: hex 4 unit) := by
  induction units with
  | nil => exact .nil
  | cons unit units ih =>
      obtain ⟨small, others⟩ := List.forall_mem_cons.mp h
      rw [List.flatMap_cons]
      exact .append (.escape 'u' (within_hex small)) (ih others)

theorem within_escapeChar (c : Char) : Within (escapeChar c) := by
  unfold escapeChar
  split_ifs with quote backslash
  iterate 7 exact .escape _ .nil
  · exact .plain (by simpa using quote) (by simpa using backslash) .nil
  · exact within_units (utf16Units_lt c)

theorem within_escapes (text : List Char) : Within (text.flatMap escapeChar) := by
  induction text with
  | nil => exact .nil
  | cons c text ih =>
      rw [List.flatMap_cons]
      exact (within_escapeChar c).append ih

theorem escapes_injective {text text' : List Char}
    (h : text.flatMap escapeChar = text'.flatMap escapeChar) : text = text' := by
  have read := @Reader.run_escapes ({ line := 0 } : Reader) [] text
  rw [h, Reader.run_escapes] at read
  simpa using read.symm

/-- A string tells the text that it holds, whatever follows it. -/
theorem string_append_inj {t u : String} {r s : List Char}
    (h : (string t).toList ++ r = (string u).toList ++ s) : t = u ∧ r = s := by
  simp only [string, String.toList_ofList, List.cons_append, List.append_assoc, List.nil_append,
    List.cons.injEq, true_and] at h
  obtain ⟨same, rest⟩ := (within_escapes t.toList).append_inj (within_escapes u.toList) h
  exact ⟨String.toList_injective (escapes_injective same), rest⟩

@[simp] theorem itemsAt_eq_map (layout : Layout) (depth : Nat) (items : List Value) :
    itemsAt layout depth items = items.map (textAt layout depth) := by
  induction items with
  | nil => rfl
  | cons item rest ih => rw [itemsAt, ih, List.map_cons]

theorem fieldsAt_eq_map (layout : Layout) (depth : Nat) (fields : List (String × Value)) :
    fieldsAt layout depth fields =
      fields.map fun f => string f.1 ++ ": " ++ textAt layout depth f.2 := by
  induction fields with
  | nil => rfl
  | cons f rest ih => rw [fieldsAt, ih, List.map_cons]

theorem container_line (depth : Nat) (opening closing : String) (texts : List String) :
    Layout.line.container depth opening closing texts =
      opening ++ String.intercalate ", " texts ++ closing := by
  cases texts <;> simp [Layout.container]

/-- How deep a value is nested does not show on one line. -/
@[simp] theorem textAt_line (depth : Nat) (v : Value) : textAt .line depth v = text v := by
  induction v using parts_induction generalizing depth with
  | step v ih =>
      cases v with
      | list items | tuple items =>
          have same (d : Nat) : items.map (textAt .line d) = items.map text :=
            List.map_congr_left fun x inside => ih x inside d
          simp only [text, textAt, container_line, itemsAt_eq_map, same]
      | object fields =>
          have same (d : Nat) : (fields.map fun f => string f.1 ++ ": " ++ textAt .line d f.2) =
              fields.map fun f => string f.1 ++ ": " ++ text f.2 :=
            List.map_congr_left fun f inside => by rw [ih f.2 (List.mem_map_of_mem inside) d]
          simp only [text, textAt, container_line, fieldsAt_eq_map, same]
      | _ => simp only [text, textAt]

@[simp] theorem sortKeysAll_eq_map (items : List Value) : sortKeysAll items = items.map sortKeys := by
  induction items with
  | nil => rfl
  | cons item rest ih => rw [sortKeysAll, ih, List.map_cons]

theorem sortFields_eq (fields : List (String × Value)) :
    sortFields fields = (inOrder fields).map fun f => (f.1, sortKeys f.2) := by
  have insert (f : String × Value) (rest : List (String × Value)) :
      insertField (f.1, sortKeys f.2) (rest.map fun f => (f.1, sortKeys f.2)) =
        (rest.orderedInsert keyAtMost f).map fun f => (f.1, sortKeys f.2) := by
    induction rest with
    | nil => rfl
    | cons g rest ih =>
        rw [List.map_cons, insertField, List.orderedInsert, ih]
        by_cases before : keyAtMost f g
        · rw [if_pos before, if_pos (show f.1 ≤ g.1 from before), List.map_cons, List.map_cons]
        · rw [if_neg before, if_neg (show ¬ f.1 ≤ g.1 from before), List.map_cons]
  induction fields with
  | nil => rfl
  | cons f rest ih => rw [sortFields, ih, insert, inOrder, inOrder, List.insertionSort_cons]

/-- The text of a field in the canonical text of an object. -/
def fieldText (f : String × Value) : String :=
  string f.1 ++ ": " ++ canonical f.2

/-- The characters of a canonical text. -/
def written (v : Value) : List Char :=
  (canonical v).toList

theorem toList_container_line {α : Type} (f : α → String) (xs : List α) (opening closing : String) :
    (opening ++ String.intercalate ", " (xs.map f) ++ closing).toList =
      opening.toList ++ (separated (fun x => (f x).toList) xs ++ closing.toList) := by
  rw [String.toList_append, String.toList_append, String.toList_intercalate, List.map_map,
    List.append_assoc]
  rfl

@[simp] theorem written_list (items : List Value) :
    written (.list items) = '[' :: (separated written items ++ [']']) := by
  rw [written, canonical, text, sortKeys, textAt, container_line, itemsAt_eq_map, sortKeysAll_eq_map,
    List.map_map, toList_container_line]
  simp only [Function.comp_apply, textAt_line]
  rfl

@[simp] theorem written_tuple (items : List Value) : written (.tuple items) = written (.list items) := by
  simp only [written, canonical, text, sortKeys, textAt]

@[simp] theorem written_object (fields : List (String × Value)) :
    written (.object fields) =
      '\x7b' :: (separated (fun f => (fieldText f).toList) (inOrder fields) ++ ['\x7d']) := by
  rw [written, canonical, text, sortKeys, textAt, container_line, fieldsAt_eq_map, sortFields_eq,
    List.map_map, toList_container_line]
  simp only [Function.comp_apply, textAt_line]
  rfl

theorem begins_string (s : String) : Begins 3 (string s).toList :=
  ⟨'\x22', s.toList.flatMap escapeChar ++ ['\x22'], String.toList_ofList, rfl, rfl⟩

/-- A canonical text begins with a letter that tells the kind of its value. -/
theorem begins_written {v : Value} (h : v.isDocument) : Begins v.rank (written v) := by
  cases v with
  | null => exact ⟨'n', ['u', 'l', 'l'], rfl, rfl, rfl⟩
  | bool b => cases b with
    | false => exact ⟨'f', ['a', 'l', 's', 'e'], rfl, rfl, rfl⟩
    | true => exact ⟨'t', ['r', 'u', 'e'], rfl, rfl, rfl⟩
  | int n => exact begins_int n
  | text s => exact begins_string s
  | list items =>
      rw [written_list]
      exact ⟨'[', _, rfl, rfl, rfl⟩
  | tuple items =>
      rw [written_tuple, written_list]
      exact ⟨'[', _, rfl, rfl, rfl⟩
  | object fields =>
      rw [written_object]
      exact ⟨'\x7b', _, rfl, rfl, rfl⟩
  | float | decimal | bytes | buffer | uuid | date | time | dateTime => cases h

/-- An array tells its items, whatever follows. -/
theorem array_append_inj {xs ys : List Value} (hx : areDocuments xs) (hy : areDocuments ys)
    (items : ∀ x ∈ xs, ∀ y ∈ ys, ToldApart written SameDocument x y) {r s : List Char}
    (h : written (.list xs) ++ r = written (.list ys) ++ s) : sameDocuments xs ys ∧ r = s := by
  have opens {items : List Value} (documents : areDocuments items) : ∀ x ∈ items, Opens (written x) :=
    fun x inside => (begins_written (areDocuments_iff.mp documents x inside)).opens
  simp only [written_list, List.cons_append, List.append_assoc, List.cons.injEq, true_and] at h
  obtain ⟨same, rest⟩ := separated_append_inj (opens hx) (opens hy) items (closes_cons rfl _)
    (closes_cons rfl _) h
  exact ⟨sameDocuments_iff.mpr same, (List.cons.inj rest).2⟩

/-- A field tells its key, and its value if the text of the value does so. -/
theorem toldApart_field {f g : String × Value} (item : ToldApart written SameDocument f.2 g.2) :
    ToldApart (fun f => (fieldText f).toList) SameField f g := by
  intro r s hr hs h
  simp only [fieldText, String.toList_append, List.append_assoc] at h
  obtain ⟨key, rest⟩ := string_append_inj h
  obtain ⟨same, ends⟩ := item r s hr hs (List.append_cancel_left rest)
  exact ⟨⟨key, same⟩, ends⟩

theorem opens_field (f : String × Value) : Opens (fieldText f).toList := by
  rw [fieldText, String.toList_append, String.toList_append, List.append_assoc]
  exact (begins_string f.1).opens.append _

/-- An object tells its fields in the order of their keys, whatever follows. -/
theorem object_append_inj {fields others : List (String × Value)}
    (items : ∀ f ∈ fields, ∀ g ∈ others, ToldApart written SameDocument f.2 g.2) {r s : List Char}
    (h : written (.object fields) ++ r = written (.object others) ++ s) :
    List.Forall₂ SameField (inOrder fields) (inOrder others) ∧ r = s := by
  simp only [written_object, List.cons_append, List.append_assoc, List.cons.injEq, true_and] at h
  have told : ∀ f ∈ inOrder fields, ∀ g ∈ inOrder others,
      ToldApart (fun f => (fieldText f).toList) SameField f g :=
    fun f hf g hg => toldApart_field (items f (mem_inOrder.mp hf) g (mem_inOrder.mp hg))
  obtain ⟨same, rest⟩ := separated_append_inj (fun f _ => opens_field f) (fun g _ => opens_field g) told
    (closes_cons rfl _) (closes_cons rfl _) h
  exact ⟨same, (List.cons.inj rest).2⟩

/-- A canonical text tells its value if it does so for the parts of the value. -/
theorem toldApart_of_parts {v w : Value} (hv : v.isDocument) (hw : w.isDocument)
    (told : ∀ x ∈ v.parts, ∀ y, x.isDocument → y.isDocument → ToldApart written SameDocument x y) :
    ToldApart written SameDocument v w := by
  intro r s hr hs h
  have same : v.rank = w.rank := (begins_written hv).rank_eq (begins_written hw) h
  cases v with
  | null =>
      cases w with
      | null => exact ⟨rfl, List.append_cancel_left h⟩
      | _ => cases same
  | bool a =>
      cases w with
      | bool b =>
          cases a <;> cases b <;>
            simp_all [written, canonical, text, sortKeys, textAt, SameDocument, sameDocument]
      | _ => cases same
  | int m =>
      cases w with
      | int n =>
          obtain ⟨rfl, rest⟩ := toldApart_int m n r s hr hs h
          exact ⟨beq_self_eq_true m, rest⟩
      | float => cases hw
      | _ => cases same
  | text t =>
      cases w with
      | text u =>
          obtain ⟨rfl, rest⟩ := string_append_inj h
          exact ⟨beq_self_eq_true t, rest⟩
      | _ => cases same
  | list xs | tuple xs =>
      cases w with
      | list ys | tuple ys =>
          exact array_append_inj hv hw (fun x hx y hy =>
            told x hx y (areDocuments_iff.mp hv x hx) (areDocuments_iff.mp hw y hy)) h
      | _ => cases same
  | object fields =>
      cases w with
      | object others =>
          simp only [isDocument, Bool.and_eq_true, decide_eq_true_eq] at hv hw
          obtain ⟨agree, rest⟩ := object_append_inj (fun f hf g hg =>
            told f.2 (List.mem_map_of_mem hf) g.2 (fieldsAreDocuments_iff.mp hv.2 f hf)
              (fieldsAreDocuments_iff.mp hw.2 g hg)) h
          exact ⟨(sameDocument_object_iff hv.1 hw.1).mpr agree, rest⟩
      | decimal | bytes | buffer | uuid | date | time | dateTime => cases hw
      | _ => cases same
  | float | decimal | bytes | buffer | uuid | date | time | dateTime => cases hv

/-- A canonical text tells its value, where no more of a number follows. -/
theorem toldApart_written {v w : Value} (hv : v.isDocument) (hw : w.isDocument) :
    ToldApart written SameDocument v w := by
  induction v using parts_induction generalizing w with
  | step v ih => exact toldApart_of_parts hv hw fun x inside y hx hy => ih x inside hx hy

theorem separated_congr {α : Type} {text : α → List Char} {xs ys : List α}
    (h : List.Forall₂ (fun x y => text x = text y) xs ys) : separated text xs = separated text ys := by
  rw [separated, separated, map_eq_of_forall₂ h]

theorem written_of_isArrayOf {items : List Value} {v : Value} (h : IsArrayOf items v) :
    written v = '[' :: (separated written items ++ [']']) := by
  rcases h with rfl | rfl
  · exact written_list items
  · exact (written_tuple items).trans (written_list items)

/-- The same document is written alike. -/
theorem written_eq_of_same {v w : Value} (hv : v.isDocument) (hw : w.isDocument)
    (same : SameDocument v w) : written v = written w := by
  induction v using parts_induction generalizing w with
  | step v ih =>
      rcases eq_or_containers_of_same same with
        rfl | ⟨xs, ys, array, array', items⟩ | ⟨fields, others, rfl, rfl⟩
      · rfl
      · rw [array.isDocument_eq, areDocuments_iff] at hv
        rw [array'.isDocument_eq, areDocuments_iff] at hw
        have texts := forall₂_imp_of_mem items fun x inside y inside' both =>
          ih x (array.parts_eq.symm ▸ inside) (hv x inside) (hw y inside') both
        rw [written_of_isArrayOf array, written_of_isArrayOf array', separated_congr texts]
      · simp only [isDocument, Bool.and_eq_true, decide_eq_true_eq, fieldsAreDocuments_iff] at hv hw
        have agree := (sameDocument_object_iff hv.1 hw.1).mp same
        have texts := forall₂_imp_of_mem (S := fun f g => (fieldText f).toList = (fieldText g).toList)
          agree fun f hf g hg both => by
            rw [mem_inOrder] at hf hg
            have item := ih f.2 (List.mem_map_of_mem hf) (hv.2 f hf) (hw.2 g hg) both.item
            rw [fieldText, fieldText, both.key, String.toList_injective item]
        rw [written_object, written_object, separated_congr texts]

/-- Two JSON values have one canonical text exactly when they are the same, whatever the order of the
keys in their objects. -/
theorem canonical_eq_iff {v w : Value} (hv : v.isDocument) (hw : w.isDocument) :
    canonical v = canonical w ↔ v.sameDocument w := by
  constructor
  · intro same
    have spelled : written v ++ [] = written w ++ [] := by rw [written, same, written]
    exact (toldApart_written hv hw [] [] (stops_nil _) (stops_nil _) spelled).1
  · intro same
    exact String.toList_injective (written_eq_of_same hv hw same)

end QueryHarvest.Json
