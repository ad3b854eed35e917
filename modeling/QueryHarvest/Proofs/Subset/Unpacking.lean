import QueryHarvest.Proofs.Files.Below
import QueryHarvest.Subset.Archive

/-! # Archives unpacked

The entries of an archive make a tree of their own: under each name stands the last file of it, or a
directory where entries lead further down. Unpacked one by one into a directory, they put this tree into it.
-/

namespace QueryHarvest.Subset

open Files FileTree

/-- Is an entry of an archive the file of some names? -/
def isFileAt (names : List String) (entry : String × Content) : Bool :=
  !isDirectoryName entry.1 && entryNames entry.1 == names

/-- What an archive has under some names: the last file of these names, or else a directory if there are
entries with these names in front of theirs. -/
def heldAt (entries : List (String × Content)) (names : List String) : Option Entry :=
  ((entries.reverse.find? (isFileAt names)).map fun entry => .file entry.2 false).or
    (if ∃ entry ∈ entries, names <+: entryNames entry.1 then some .directory else none)

/-- No file of an archive stands where another entry is a directory or goes on below it. -/
def Sound (entries : List (String × Content)) : Prop :=
  ∀ file ∈ entries, isDirectoryName file.1 = false → ∀ entry ∈ entries,
    entryNames file.1 <+: entryNames entry.1 → isFileAt (entryNames file.1) entry

instance (entries : List (String × Content)) : Decidable (Sound entries) :=
  inferInstanceAs (Decidable (∀ file ∈ entries, _ → ∀ entry ∈ entries, _ → _))

section

variable {entries : List (String × Content)} {entry : String × Content} {names : List String}

theorem isFileAt_iff :
    isFileAt names entry ↔ isDirectoryName entry.1 = false ∧ entryNames entry.1 = names := by
  simp [isFileAt]

theorem heldAt_concat (entries : List (String × Content)) (entry : String × Content) (names : List String) :
    heldAt (entries ++ [entry]) names =
      if isFileAt names entry then some (.file entry.2 false)
      else (heldAt entries names).or (if names <+: entryNames entry.1 then some .directory else none) := by
  rw [heldAt, List.reverse_concat, List.find?_cons]
  cases isFileAt names entry with
  | true => rfl
  | false =>
      rw [if_neg Bool.false_ne_true, heldAt, Option.or_assoc]
      congr 1
      have either : (∃ other ∈ entries ++ [entry], names <+: entryNames other.1) ↔
          (∃ other ∈ entries, names <+: entryNames other.1) ∨ names <+: entryNames entry.1 := by
        simp only [List.mem_append, List.mem_singleton, or_and_right, exists_or, exists_eq_left]
      rw [if_congr either rfl rfl]
      by_cases lead : ∃ other ∈ entries, names <+: entryNames other.1
      · rw [if_pos (.inl lead), if_pos lead, Option.some_or]
      · rw [if_neg lead, Option.none_or, if_congr (or_iff_right lead) rfl rfl]

theorem heldAt_ne_none : heldAt entries names ≠ none ↔ ∃ entry ∈ entries, names <+: entryNames entry.1 := by
  rw [heldAt, Ne, Option.or_eq_none_iff, not_and_or, Option.map_eq_none_iff, ite_eq_right_iff]
  constructor
  · rintro (file | lead)
    · obtain ⟨entry, found⟩ := Option.ne_none_iff_exists'.mp file
      have member := List.mem_reverse.mp (List.mem_of_find?_eq_some found)
      exact ⟨entry, member, (isFileAt_iff.mp (List.find?_some found)).2 ▸ List.prefix_rfl⟩
    · by_contra none
      exact lead fun some => absurd some none
  · exact fun lead => .inr fun never => nomatch never lead

/-- The content of a file is that of the last entry with its names. -/
theorem heldAt_of_file (member : entry ∈ entries) (file : isFileAt names entry) :
    ∃ content, heldAt entries names = some (.file content false) := by
  cases last : entries.reverse.find? (isFileAt names) with
  | none => exact absurd file (List.find?_eq_none.mp last entry (List.mem_reverse.mpr member))
  | some found => exact ⟨found.2, by rw [heldAt, last]; rfl⟩

theorem heldAt_free (other : ∀ file ∈ entries, ¬ isFileAt names file) :
    heldAt entries names = none ∨ heldAt entries names = some .directory := by
  have bare : entries.reverse.find? (isFileAt names) = none :=
    List.find?_eq_none.mpr fun file inside => other file (List.mem_reverse.mp inside)
  rw [heldAt, bare, Option.map_none, Option.none_or]
  split
  · exact .inr rfl
  · exact .inl rfl

theorem not_up_mem_entryNames (name : String) : ".." ∉ entryNames name := by
  simp [entryNames]

/-- On the way to an entry there are no files, and at its end only where it is one itself. -/
theorem Sound.no_file (sound : Sound entries) (member : entry ∈ entries) {q : List String}
    (before : q <+: entryNames entry.1) (further : q = entryNames entry.1 → isDirectoryName entry.1) :
    ∀ file ∈ entries, ¬ isFileAt q file := by
  intro file inside there
  obtain ⟨plain, rfl⟩ := isFileAt_iff.mp there
  have same := isFileAt_iff.mp (sound file inside plain entry member before)
  rw [further same.2.symm] at same
  cases same.1

end

section

variable {t u : FileTree} {home : Path} {place inner : Location} {names : List String}

theorem makeMissing_cons (t : FileTree) (anchor : Anchor) (name : String) (above : List String) :
    makeMissing t anchor (name :: above) =
      (if t.has ⟨anchor, above.reverse⟩ then pure t else makeMissing t anchor above) >>= fun t =>
        t.makeDirectory ⟨anchor, (name :: above).reverse⟩ := by
  rw [makeMissing]
  split <;> rfl

/-- The directories on the way to an entry can be made where no file stands. -/
theorem makeMissing_laid (h : t.Tidy home place inner) (down : ".." ∉ names)
    (free : ∀ q, q <+: names → t.Free (place ++ q)) :
    ∃ u, (if t.has ⟨home.anchor, home.names ++ names⟩ then pure t
        else makeMissing t home.anchor (home.names ++ names).reverse) = Except.ok u ∧
      Laid t u home place inner names := by
  induction names using List.reverseRecOn with
  | nil =>
      have there : t.entry? (place ++ []) = some .directory := by
        rw [List.append_nil]
        exact h.leads.there
      refine ⟨t, if_pos ?_, h.laid there⟩
      rw [h.has_below down, there]
      rfl
  | append_singleton names name ih =>
      rcases free _ List.prefix_rfl with absent | there
      · obtain ⟨v, made, laid⟩ := ih (fun inside => down (List.mem_append_left _ inside))
          fun q before => free q (before.trans (List.prefix_append ..))
        have above := free names (List.prefix_append ..)
        refine ⟨_, ?_, laid.put above absent⟩
        rw [if_neg, ← List.append_assoc, List.reverse_concat, makeMissing_cons, List.reverse_reverse, made,
          List.reverse_cons, List.reverse_reverse, List.append_assoc]
        · exact laid.tidy.makeDirectory down (laid.there above) (laid.fresh.trans absent)
        · rw [h.has_below down, absent]
          exact Bool.false_ne_true
      · refine ⟨t, if_pos ?_, h.laid there⟩
        rw [h.has_below down, there]
        rfl

theorem unpackEntry_eq (home : Path) (t : FileTree) {entry : String × Content} {name : String}
    (cut : entryNames entry.1 = names ++ [name]) :
    unpackEntry home t entry =
      (if t.has ⟨home.anchor, home.names ++ names⟩ then pure t
        else makeMissing t home.anchor (home.names ++ names).reverse) >>= fun t =>
        let p : Path := ⟨home.anchor, home.names ++ (names ++ [name])⟩
        if isDirectoryName entry.1 then if t.hasDirectory p then .ok t else t.makeDirectory p
        else t.write p entry.2 := by
  have parent : Path.parent ⟨home.anchor, home.names ++ (names ++ [name])⟩ =
      ⟨home.anchor, home.names ++ names⟩ := by
    rw [Path.parent, ← List.append_assoc, List.dropLast_concat]
  rw [unpackEntry, cut, parent]
  split <;> rfl

/-- One entry stands at its place with the directories on its way, and the rest is as before. -/
structure Unpacked (t u : FileTree) (home : Path) (place inner : Location) (entry : String × Content) :
    Prop where
  around : AgreeAround place t u
  tidy : u.Tidy home place inner
  entries : ∀ q ≠ [], u.entry? (place ++ q) =
    if isFileAt q entry then some (.file entry.2 false)
    else (t.entry? (place ++ q)).or (if q <+: entryNames entry.1 then some .directory else none)

/-- An entry can be unpacked where no file stands on its way, nor a directory in the place of a file. -/
theorem unpackEntry_unpacked (h : t.Tidy home place inner) {entry : String × Content}
    (named : entryNames entry.1 ≠ [])
    (free : ∀ q, q <+: entryNames entry.1 → (q = entryNames entry.1 → isDirectoryName entry.1) →
      t.Free (place ++ q))
    (file : isDirectoryName entry.1 = false → t.entry? (place ++ entryNames entry.1) = none ∨
      ∃ content, t.entry? (place ++ entryNames entry.1) = some (.file content false)) :
    ∃ u, unpackEntry home t entry = .ok u ∧ Unpacked t u home place inner entry := by
  obtain ⟨names, name, cut⟩ := (List.eq_nil_or_concat' _).resolve_left named
  have down := not_up_mem_entryNames entry.1
  rw [cut] at free file down
  have upper {q : List String} (before : q <+: names) : t.Free (place ++ q) := by
    refine free q (before.trans (List.prefix_append ..)) fun whole => ?_
    have short := before.length_le
    simp [whole] at short
  obtain ⟨v, made, laid⟩ := makeMissing_laid h (fun inside => down (List.mem_append_left _ inside))
    fun q before => upper before
  rw [unpackEntry_eq home t cut, made]
  cases kind : isDirectoryName entry.1 with
  | true =>
      obtain ⟨u, ends, laid⟩ := laid.directory down (upper List.prefix_rfl)
        (free _ List.prefix_rfl fun _ => kind)
      refine ⟨u, ends, laid.around, laid.tidy, fun q nonempty => ?_⟩
      rw [if_neg, cut, laid.entries q nonempty]
      rw [isFileAt_iff, kind]
      nofun
  | false =>
      obtain ⟨u, ends, around, tidy, entries⟩ :=
        laid.file down (upper List.prefix_rfl) entry.2 (file kind)
      refine ⟨u, ends, around, tidy, fun q nonempty => ?_⟩
      have here : isFileAt q entry = true ↔ q = names ++ [name] := by
        rw [isFileAt_iff, cut, kind, and_iff_right rfl, eq_comm]
      rw [entries q nonempty, cut]
      by_cases whole : q = names ++ [name]
      · rw [if_pos whole, if_pos (here.mpr whole)]
      · rw [if_neg whole, if_neg (mt here.mp whole)]
        simp only [List.prefix_concat_iff, whole, false_or]

end

section

variable {t : FileTree} {home : Path} {place inner : Location} {entries : List (String × Content)}

theorem changeAll_concat {α : Type} {change : FileTree → α → Except FileError FileTree} {items : List α}
    {item : α} {u v : FileTree} (first : changeAll change t items = (u, none))
    (last : change u item = .ok v) : changeAll change t (items ++ [item]) = (v, none) := by
  induction items generalizing t with
  | nil =>
      cases first
      rw [List.nil_append, changeAll, last]
      rfl
  | cons other items ih =>
      rw [List.cons_append, changeAll]
      rw [changeAll] at first
      split at first
      · exact ih first
      · cases first

/-- Unpacked into a directory that has nothing where an archive has something, the archive stands there with
what was there before. -/
theorem changeAll_unpackEntry (h : t.Tidy home place inner) (sound : Sound entries)
    (named : ∀ entry ∈ entries, entryNames entry.1 ≠ [])
    (clear : ∀ entry ∈ entries, ∀ q ≠ [], q <+: entryNames entry.1 → t.entry? (place ++ q) = none) :
    ∃ u, changeAll (unpackEntry home) t entries = (u, none) ∧ AgreeAround place t u ∧
      u.Tidy home place inner ∧
      ∀ q ≠ [], u.entry? (place ++ q) = (heldAt entries q).or (t.entry? (place ++ q)) := by
  -- from the end, as the tree of an archive grows by its last entry
  induction entries using List.reverseRecOn with
  | nil => exact ⟨t, rfl, .refl place t, h, fun q _ => by simp [heldAt]⟩
  | append_singleton done entry ih =>
      have known {e : String × Content} (member : e ∈ done) : e ∈ done ++ [entry] :=
        List.mem_append_left _ member
      have last : entry ∈ done ++ [entry] := List.mem_append_right _ (List.mem_singleton.mpr rfl)
      obtain ⟨v, before, around, tidy, held⟩ := ih
        (fun file inside plain e member => sound file (known inside) plain e (known member))
        (fun e member => named e (known member)) (fun e member => clear e (known member))
      have own {q : List String} (nonempty : q ≠ []) (lead : q <+: entryNames entry.1) :
          v.entry? (place ++ q) = heldAt done q := by
        rw [held q nonempty, clear entry last q nonempty lead, Option.or_none]
      obtain ⟨u, ends, unpacked⟩ := unpackEntry_unpacked tidy (named entry last)
        (fun q lead further => by
          by_cases root : q = []
          · rw [root, List.append_nil]
            exact .inr tidy.leads.there
          · rw [Free, own root lead]
            exact heldAt_free fun file inside => sound.no_file last lead further file (known inside))
        (fun plain => by
          rw [own (named entry last) List.prefix_rfl]
          by_cases absent : heldAt done (entryNames entry.1) = none
          · exact .inl absent
          · obtain ⟨other, member, lead⟩ := heldAt_ne_none.mp absent
            obtain ⟨text, there⟩ := heldAt_of_file member (sound entry last plain other (known member) lead)
            exact .inr ⟨_, there⟩)
      refine ⟨u, changeAll_concat before ends, around.trans unpacked.around, unpacked.tidy, ?_⟩
      intro q nonempty
      rw [unpacked.entries q nonempty, held q nonempty, heldAt_concat]
      split
      · rfl
      split
      · next lead =>
        rw [clear entry last q nonempty lead, Option.or_none, Option.or_none]
      · rw [Option.or_none, Option.or_none]

end

end QueryHarvest.Subset
