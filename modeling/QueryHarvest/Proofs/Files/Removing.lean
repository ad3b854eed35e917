import QueryHarvest.Proofs.Files.Writing

/-! # Directories removed from a tree

Nothing is at a path once the directory there has been removed, and what a tree shows at any path
afterwards was there before.
-/

namespace QueryHarvest.Files.FileTree

variable {t u : FileTree} {place : Location} {p : Path}

theorem start_of_absolute {anchor : Anchor} (h : anchor ≠ .here) : t.start anchor = [] :=
  if_neg (by simpa using h)

theorem lookup_filter_key (keep : Location → Bool) (entries : List (Location × Entry)) (x : Location) :
    (entries.filter fun old => keep old.1).lookup x = if keep x then entries.lookup x else none := by
  induction entries with
  | nil => simp
  | cons old entries ih =>
      obtain ⟨key, entry⟩ := old
      rw [List.filter_cons, List.lookup_cons]
      by_cases same : x = key
      · subst same
        cases kept : keep x <;> simp [kept, ih]
      · have apart : (x == key) = false := beq_false_of_ne same
        cases keep key <;> simp [apart, ih, List.lookup_cons]

/-- What is at a place or below it is gone; the root alone is always there. -/
@[simp] theorem entryAt_without (place x : Location) :
    entry? (t.without place) x =
      if x ≠ [] ∧ place.isPrefixOf x then none else t.entry? x := by
  unfold entry?
  cases x with
  | nil => simp
  | cons name x =>
      simp only [without, List.isEmpty_cons, Bool.false_eq_true, if_false]
      rw [lookup_filter_key fun key => !place.isPrefixOf key]
      cases place.isPrefixOf (name :: x) <;> simp

/-- Whatever a tree shows at a path after a removal was there before. -/
theorem find?_of_without {entry : Entry} (h : (t.without place).find? p = some entry) :
    t.find? p = some entry := by
  have same (x : Location) {found : Entry} (there : entry? (t.without place) x = some found) :
      t.entry? x = some found := by
    rw [entryAt_without] at there
    split at there
    · cases there
    · exact there
  unfold find? at h
  split at h
  · next found located =>
    obtain ⟨way, rfl⟩ := locate_ok_iff.mp located
    have before : t.locate p = .ok (target (t.start p.anchor) p.names) :=
      locate_ok_iff.mpr ⟨fun x member => same x (way x member), rfl⟩
    rw [find?, before]
    exact same _ h
  · cases h

theorem hasFile_iff :
    t.hasFile p ↔ ∃ content executable, t.find? p = some (.file content executable) := by
  unfold hasFile
  split
  · next content executable found => simp [found]
  · next other => simpa using other

theorem hasFile_of_without (h : (t.without place).hasFile p) : t.hasFile p := by
  obtain ⟨content, executable, found⟩ := hasFile_iff.mp h
  exact hasFile_iff.mpr ⟨content, executable, find?_of_without found⟩

theorem has_of_hasFile (h : t.hasFile p) : t.has p := by
  obtain ⟨content, executable, found⟩ := hasFile_iff.mp h
  rw [has, found]
  rfl

theorem hasFile_of_read {content : Content} (h : t.read p = .ok content) : t.hasFile p := by
  unfold read at h
  split at h
  · cases h
  next place located =>
    split at h
    · cases h
    · cases h
    · next executable found =>
      exact hasFile_iff.mpr ⟨_, executable, by rw [find?, located]; exact found⟩

theorem removeTree_cases (h : t.removeTree p = .ok u) :
    u = t.without (target (t.start p.anchor) p.names) := by
  unfold removeTree at h
  split at h
  · cases h
  split at h
  · cases h
  next place located =>
    rw [(locate_ok_iff.mp located).2] at h
    split at h
    · cases h
    · cases h
    · exact (Except.ok.inj h).symm

/-- A directory that was removed is not there, unless the path leads to the root. -/
theorem has_of_removeTree (h : t.removeTree p = .ok u)
    (below : target (t.start p.anchor) p.names ≠ []) : u.has p = false := by
  obtain rfl := removeTree_cases h
  rw [has, Option.isSome_eq_false_iff, Option.isNone_iff_eq_none, find?]
  split
  · next found located =>
    have place : found = target (t.start p.anchor) p.names := (locate_ok_iff.mp located).2
    rw [entryAt_without, if_pos]
    rw [place]
    exact ⟨below, by simp⟩
  · rfl

end QueryHarvest.Files.FileTree
