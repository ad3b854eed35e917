import Mathlib
import QueryHarvest.Files.Tree

/-! # Files written into a tree

What has been written to a path is read from the same path. A path accepts a file when no file stands
on the way to it and no directory in its place; the directories on the way can then be made.
-/

namespace QueryHarvest.Files

open Text

/-- Where a name leads from a directory. -/
def step (place : Location) (name : String) : Location :=
  if name == ".." then place.dropLast else place ++ [name]

/-- The places that names lead through, all of them directories. -/
def visited (place : Location) : List String → List Location
  | [] => []
  | name :: rest => place :: visited (step place name) rest

/-- The place that names lead to. -/
def target (place : Location) (names : List String) : Location :=
  names.foldl step place

@[simp] theorem visited_concat (place : Location) (names : List String) (name : String) :
    visited place (names ++ [name]) = visited place names ++ [target place names] := by
  induction names generalizing place with
  | nil => rfl
  | cons first names ih =>
      rw [List.cons_append, visited, ih, visited]
      rfl

namespace FileTree

variable {t u : FileTree} {place : Location} {names : List String} {p : Path}

/-- The place that a path is followed from. -/
def start (t : FileTree) (anchor : Anchor) : Location :=
  if anchor == .here then t.workingDirectory else []

/-- There is no file at a place, though perhaps a directory. -/
def Free (t : FileTree) (place : Location) : Prop :=
  t.entry? place = none ∨ t.entry? place = some .directory

instance (t : FileTree) (place : Location) : Decidable (t.Free place) :=
  inferInstanceAs (Decidable (_ ∨ _))

/-- There is a directory at each of some places. -/
def HasAll (t : FileTree) (places : List Location) : Prop :=
  ∀ place ∈ places, t.entry? place = some .directory

theorem follow_ok_iff {found : Location} :
    t.follow place names = .ok found ↔ t.HasAll (visited place names) ∧ found = target place names := by
  induction names generalizing place with
  | nil => simp [follow, visited, target, HasAll, eq_comm]
  | cons name names ih =>
      rw [follow, visited, HasAll, List.forall_mem_cons]
      cases entry : t.entry? place with
      | none => simp
      | some found =>
          cases found with
          | file content executable => simp
          | directory =>
              rw [ih]
              simp only [true_and]
              rfl

theorem follow_cases (free : ∀ x ∈ visited place names, t.Free x) :
    t.HasAll (visited place names) ∨ t.follow place names = .error .missing := by
  induction names generalizing place with
  | nil => exact .inl (by simp [visited, HasAll])
  | cons name names ih =>
      rw [visited, List.forall_mem_cons] at free
      rw [follow, visited, HasAll, List.forall_mem_cons]
      rcases free.1 with missing | directory
      · exact .inr (by rw [missing])
      · rw [directory]
        rcases ih free.2 with all | missing
        · exact .inl ⟨rfl, all⟩
        · exact .inr missing

theorem lookup_replace (entries : List (Location × Entry)) (place other : Location) (entry : Entry) :
    (entries.map fun old => if old.1 == place then (place, entry) else old).lookup other =
      if other = place then (if entries.any (·.1 == place) then some entry else none)
      else entries.lookup other := by
  induction entries with
  | nil => simp
  | cons old entries ih =>
      obtain ⟨key, value⟩ := old
      simp only [List.map_cons, List.any_cons]
      by_cases here : key = place
      · subst here
        by_cases same : other = key
        · simp [same]
        · have apart : (other == key) = false := beq_false_of_ne same
          simp only [beq_self_eq_true, if_true, List.lookup_cons, apart, ih, same, if_false]
      · have away : (key == place) = false := beq_false_of_ne here
        by_cases same : other = place
        · have apart : (place == key) = false := beq_false_of_ne (Ne.symm here)
          subst same
          simp only [away, apart, Bool.false_eq_true, if_false, List.lookup_cons, ih, if_true,
            Bool.false_or]
        · simp only [away, Bool.false_eq_true, if_false, List.lookup_cons, ih, same]

theorem entryAt_put (nonempty : place ≠ []) (entry : Entry) (other : Location) :
    FileTree.entry? (t.put place entry) other = if other = place then some entry else t.entry? other := by
  cases other with
  | nil =>
      rw [if_neg (Ne.symm nonempty)]
      rfl
  | cons name other =>
      unfold entry?
      simp only [List.isEmpty_cons, Bool.false_eq_true, if_false, put]
      split
      · next present => rw [lookup_replace, present, if_pos rfl]
      · next absent =>
        have fresh : t.entries.lookup place = none := by
          refine List.lookup_eq_none_iff.mpr fun old member => ?_
          refine bne_iff_ne.mpr fun same => absent ?_
          exact List.any_eq_true.mpr ⟨old, member, beq_iff_eq.mpr same.symm⟩
        rw [List.lookup_append]
        by_cases same : name :: other = place
        · simp [same, fresh]
        · simp [same, List.lookup_cons, beq_false_of_ne same]

/-- The root is a directory. -/
theorem nonempty_of_vacant (h : t.entry? place ≠ some .directory) : place ≠ [] := by
  rintro rfl
  exact h rfl

@[simp] theorem workingDirectory_put (place : Location) (entry : Entry) :
    (t.put place entry).workingDirectory = t.workingDirectory := by
  rw [put]
  split <;> rfl

theorem locate_ok_iff {found : Location} :
    t.locate p = .ok found ↔
      t.HasAll (visited (t.start p.anchor) p.names) ∧ found = target (t.start p.anchor) p.names :=
  follow_ok_iff

/-- An entry in the place of what is no directory leaves all ways to that place as they are. -/
theorem locate_put (h : t.locate p = .ok place) (other : t.entry? place ≠ some .directory)
    (entry : Entry) : (t.put place entry).locate p = .ok place := by
  have nonempty := nonempty_of_vacant other
  have same : (t.put place entry).start p.anchor = t.start p.anchor := by
    rw [start, start, workingDirectory_put]
  obtain ⟨directories, found⟩ := locate_ok_iff.mp h
  refine locate_ok_iff.mpr ⟨fun x member => ?_, by rw [same]; exact found⟩
  rw [same] at member
  have directory := directories x member
  have apart : x ≠ place := by
    rintro rfl
    exact other directory
  rw [entryAt_put nonempty, if_neg apart, directory]

/-- A file that was written is read as it was written. -/
theorem read_of_write {content : Content} (h : t.write p content = .ok u) :
    u.read p = .ok content := by
  unfold write at h
  split at h
  · cases h
  next place located =>
    have written {executable : Bool} (other : t.entry? place ≠ some .directory)
        (put : t.put place (.file content executable) = u) : u.read p = .ok content := by
      rw [← put, read, locate_put located other]
      simp only [entryAt_put (nonempty_of_vacant other), if_true]
    split at h
    · next none => exact written (by rw [none]; simp) (Except.ok.inj h)
    · cases h
    · next file => exact written (by rw [file]; simp) (Except.ok.inj h)

/-- The text of a file that was written as text; only its line ends may differ. -/
theorem readText_of_write {text : String} (h : t.write p (.text text) = .ok u) :
    u.readText p = .ok (String.ofList (unifyNewlines text.toList)) := by
  rw [readText, read_of_write h]
  rfl

/-- A tree with directories at some places that is as before at all others. -/
structure MadeFrom (t u : FileTree) (places : List Location) : Prop where
  working : u.workingDirectory = t.workingDirectory
  made : u.HasAll places
  others : ∀ place, place ∉ places → u.entry? place = t.entry? place

theorem MadeFrom.start {places : List Location} (h : MadeFrom t u places) (anchor : Anchor) :
    u.start anchor = t.start anchor := by
  rw [FileTree.start, FileTree.start, h.working]

theorem MadeFrom.refl {places : List Location} (h : t.HasAll places) : MadeFrom t t places :=
  ⟨rfl, h, fun _ _ => rfl⟩

theorem MadeFrom.trans {v : FileTree} {first second : List Location} (h : MadeFrom t u first)
    (h' : MadeFrom u v second) : MadeFrom t v (first ++ second) where
  working := h'.working.trans h.working
  made place member := by
    by_cases later : place ∈ second
    · exact h'.made place later
    · rw [h'.others place later]
      exact h.made place ((List.mem_append.mp member).resolve_right later)
  others place absent := by
    rw [List.mem_append, not_or] at absent
    rw [h'.others place absent.2, h.others place absent.1]

/-- What was free stays free where directories are made. -/
theorem MadeFrom.free {places : List Location} (h : MadeFrom t u places) (free : t.Free place) :
    u.Free place := by
  by_cases member : place ∈ places
  · exact .inr (h.made place member)
  · rw [Free, h.others place member]
    exact free

/-- Where the way is there, a directory can be made, unless a file stands in its place. -/
theorem ensureDirectory_ok (way : t.HasAll (visited (t.start p.anchor) p.names))
    (free : t.Free (target (t.start p.anchor) p.names)) :
    ∃ u, t.ensureDirectory p = .ok u ∧ MadeFrom t u [target (t.start p.anchor) p.names] := by
  have located := locate_ok_iff.mpr ⟨way, rfl⟩
  rw [ensureDirectory, makeDirectory, located]
  simp only
  rcases free with missing | directory
  · have nonempty : target (t.start p.anchor) p.names ≠ [] := by
      intro root
      rw [root] at missing
      cases missing
    rw [missing]
    refine ⟨_, rfl, workingDirectory_put .., ?_, ?_⟩
    · intro place member
      rw [List.mem_singleton.mp member, entryAt_put nonempty, if_pos rfl]
    · intro place absent
      rw [entryAt_put nonempty, if_neg (by simpa using absent)]
  · have there : t.hasDirectory p = true := by
      rw [hasDirectory, find?, located]
      simp [directory]
    rw [directory]
    simp only [Option.isSome_some, if_true, there]
    refine ⟨t, rfl, MadeFrom.refl fun place member => ?_⟩
    rw [List.mem_singleton.mp member, directory]

theorem makeDirectory_missing (h : t.locate p = .error .missing) :
    t.makeDirectory p = .error (.about .missing p) := by
  rw [makeDirectory, h]

/-- Where the way is there, nothing is missing for a directory to be made. -/
theorem isMissing_of_way (way : t.HasAll (visited (t.start p.anchor) p.names)) {error : FileError}
    (h : t.makeDirectory p = .error error) : isMissing p error = false := by
  rw [makeDirectory, locate_ok_iff.mpr ⟨way, rfl⟩] at h
  simp only at h
  split at h
  · cases h
    simp [isMissing, FileError.about]
  · cases h

/-- The directories along some names can be made where no file stands on the way. -/
theorem makeAlong_ok (anchor : Anchor) (reversed : List String)
    (free : ∀ x ∈ visited (t.start anchor) reversed.reverse ++ [target (t.start anchor) reversed.reverse],
      t.Free x) :
    ∃ u, t.makeAlong anchor reversed = .ok u ∧
      MadeFrom t u (visited (t.start anchor) reversed.reverse ++
        [target (t.start anchor) reversed.reverse]) := by
  -- the last name comes first, so the induction goes up the way as the attempts do
  induction reversed generalizing t with
  | nil => exact ensureDirectory_ok (p := ⟨anchor, []⟩) (by simp [visited, HasAll]) (free _ (by simp))
  | cons name above ih =>
      have onWay (x : Location) (member : x ∈ visited (t.start anchor) (name :: above).reverse) :
          t.Free x := free x (List.mem_append_left _ member)
      have last := free _ (List.mem_append_right _ (List.mem_singleton.mpr rfl))
      rcases follow_cases onWay with way | missing
      · -- all above is there: the attempt differs from ensuring only in what it does on a missing name
        obtain ⟨u, ensured, made⟩ := ensureDirectory_ok (p := ⟨anchor, (name :: above).reverse⟩) way last
        refine ⟨u, ?_, (MadeFrom.refl way).trans made⟩
        rw [← ensured, makeAlong, ensureDirectory]
        cases first : t.makeDirectory ⟨anchor, (name :: above).reverse⟩ with
        | ok t => rfl
        | error error => simp only [isMissing_of_way way first, Bool.false_eq_true, if_false]
      · have upper (x : Location)
            (member : x ∈ visited (t.start anchor) above.reverse ++ [target (t.start anchor) above.reverse]) :
            t.Free x := onWay x (by rw [List.reverse_cons, visited_concat]; exact member)
        obtain ⟨t₁, made₁, laid₁⟩ := ih upper
        rw [← visited_concat, ← List.reverse_cons] at laid₁
        have same := laid₁.start anchor
        obtain ⟨t₂, made₂, laid₂⟩ := ensureDirectory_ok (t := t₁) (p := ⟨anchor, (name :: above).reverse⟩)
          (by rw [same]; exact laid₁.made) (by rw [same]; exact laid₁.free last)
        rw [same] at laid₂
        refine ⟨t₂, ?_, laid₁.trans laid₂⟩
        have refused : t.makeDirectory ⟨anchor, (name :: above).reverse⟩ =
            .error (.about .missing ⟨anchor, (name :: above).reverse⟩) := makeDirectory_missing missing
        rw [makeAlong, refused]
        simp only [isMissing, beq_self_eq_true, if_true, made₁]
        exact made₂

/-- A path accepts a file: it has a name, no file stands on the way to it, and neither is its place on
the way nor a directory in it. -/
structure Accepts (t : FileTree) (p : Path) : Prop where
  named : p.names ≠ []
  way : ∀ x ∈ visited (t.start p.anchor) p.names, t.Free x
  apart : target (t.start p.anchor) p.names ∉ visited (t.start p.anchor) p.names
  vacant : t.entry? (target (t.start p.anchor) p.names) ≠ some .directory

/-- A file can be written to a path that accepts one, once its directory is made. -/
theorem Accepts.write (h : t.Accepts p) (content : Content) :
    ∃ made written, t.makeDirectories p.parent = .ok made ∧ made.write p content = .ok written := by
  have whole : visited (t.start p.anchor) p.names =
      visited (t.start p.anchor) p.names.dropLast ++ [target (t.start p.anchor) p.names.dropLast] := by
    conv_lhs => rw [← List.dropLast_append_getLast h.named]
    exact visited_concat ..
  obtain ⟨made, directories, laid⟩ := makeAlong_ok (t := t) p.anchor p.names.dropLast.reverse (by
    rw [List.reverse_reverse, ← whole]
    exact h.way)
  rw [List.reverse_reverse, ← whole] at laid
  have located : made.locate p = .ok (target (t.start p.anchor) p.names) := by
    rw [locate_ok_iff, laid.start]
    exact ⟨laid.made, rfl⟩
  have entry := laid.others _ h.apart
  have accepted := h.vacant
  rw [← entry] at accepted
  have writes : ∃ written, made.write p content = .ok written := by
    rw [FileTree.write, located]
    simp only
    split
    · exact ⟨_, rfl⟩
    · contradiction
    · exact ⟨_, rfl⟩
  obtain ⟨written, writes⟩ := writes
  exact ⟨made, written, directories, writes⟩

/-- A tree that holds all that another one holds, and is worked in at the same place. -/
structure KeptIn (t u : FileTree) : Prop where
  working : u.workingDirectory = t.workingDirectory
  entries : ∀ place entry, t.entry? place = some entry → u.entry? place = some entry

theorem KeptIn.start (h : KeptIn t u) (anchor : Anchor) : u.start anchor = t.start anchor := by
  rw [FileTree.start, FileTree.start, h.working]

theorem KeptIn.trans {v : FileTree} (h : KeptIn t u) (h' : KeptIn u v) : KeptIn t v where
  working := h'.working.trans h.working
  entries place entry found := h'.entries place entry (h.entries place entry found)

/-- A file is read as before where directories have been made. -/
theorem KeptIn.read (h : KeptIn t u) {content : Content} (read : t.read p = .ok content) :
    u.read p = .ok content := by
  unfold FileTree.read at read
  split at read
  · cases read
  next place located =>
    obtain ⟨way, rfl⟩ := locate_ok_iff.mp located
    have after : u.locate p = .ok (target (t.start p.anchor) p.names) := by
      rw [locate_ok_iff, h.start]
      exact ⟨fun x member => h.entries x _ (way x member), rfl⟩
    split at read
    · cases read
    · cases read
    · next executable found => rw [FileTree.read, after]; simp only [h.entries _ _ found, read]

/-- A new directory stands at its place, where nothing was before. -/
theorem makeDirectory_cases (h : t.makeDirectory p = .ok u) :
    t.entry? (target (t.start p.anchor) p.names) = none ∧
      u = t.put (target (t.start p.anchor) p.names) .directory := by
  unfold makeDirectory at h
  split at h
  · cases h
  next place located =>
    rw [(locate_ok_iff.mp located).2] at h
    split at h
    · cases h
    · next absent => exact ⟨by simpa using absent, (Except.ok.inj h).symm⟩

theorem makeDirectory_kept (h : t.makeDirectory p = .ok u) : KeptIn t u := by
  obtain ⟨absent, rfl⟩ := makeDirectory_cases h
  refine ⟨workingDirectory_put .., fun place entry found => ?_⟩
  rw [entryAt_put (nonempty_of_vacant (by rw [absent]; simp)), if_neg, found]
  rintro rfl
  rw [absent] at found
  cases found

theorem ensureDirectory_kept (h : t.ensureDirectory p = .ok u) : KeptIn t u := by
  unfold ensureDirectory at h
  split at h
  · next made =>
    cases h
    exact makeDirectory_kept made
  split at h
  · cases h
    exact ⟨rfl, fun _ _ found => found⟩
  · cases h

theorem makeAlong_kept {anchor : Anchor} {reversed : List String}
    (h : t.makeAlong anchor reversed = .ok u) : KeptIn t u := by
  induction reversed generalizing u with
  | nil => exact ensureDirectory_kept h
  | cons name above ih =>
      unfold makeAlong at h
      simp only at h
      split at h
      · next made =>
        cases h
        exact makeDirectory_kept made
      split at h
      · cases upper : t.makeAlong anchor above with
        | error error =>
            rw [upper] at h
            cases h
        | ok t₁ =>
            rw [upper] at h
            exact (ih upper).trans (ensureDirectory_kept h)
      split at h
      · cases h
        exact ⟨rfl, fun _ _ found => found⟩
      · cases h

theorem ensureDirectory_has (h : t.ensureDirectory p = .ok u) :
    u.entry? (target (t.start p.anchor) p.names) = some .directory := by
  unfold ensureDirectory at h
  split at h
  · next made =>
    cases h
    obtain ⟨absent, rfl⟩ := makeDirectory_cases made
    rw [entryAt_put (nonempty_of_vacant (by rw [absent]; simp)), if_pos rfl]
  split at h
  · next there =>
    cases h
    rw [hasDirectory, find?] at there
    split at there
    · next place located =>
      rw [← (locate_ok_iff.mp located).2]
      exact eq_of_beq there
    · cases there
  · cases h

theorem locate_of_write {content : Content} (h : t.write p content = .ok u) :
    ∃ place, t.locate p = .ok place ∧ t.entry? place ≠ some .directory := by
  unfold write at h
  split at h
  · cases h
  next place located =>
    refine ⟨place, located, fun directory => ?_⟩
    rw [directory] at h
    cases h

/-- A file can be written, after the directories on the way are made, to just those paths that accept
one. -/
theorem accepts_iff (content : Content) :
    t.Accepts p ↔
      ∃ made written, t.makeDirectories p.parent = .ok made ∧ made.write p content = .ok written := by
  refine ⟨fun accepts => accepts.write content, ?_⟩
  rintro ⟨made, written, directories, writes⟩
  have kept := makeAlong_kept directories
  obtain ⟨place, located, vacant⟩ := locate_of_write writes
  obtain ⟨way, rfl⟩ := locate_ok_iff.mp located
  rw [kept.start] at way vacant
  refine ⟨?_, ?_, ?_, ?_⟩
  · intro unnamed
    have ensured : t.ensureDirectory ⟨p.anchor, []⟩ = .ok made := by
      rw [makeDirectories, Path.parent, unnamed] at directories
      exact directories
    rw [unnamed] at vacant
    exact vacant (ensureDirectory_has ensured)
  · intro x member
    cases found : t.entry? x with
    | none => exact .inl found
    | some entry =>
        have there := kept.entries x entry found
        rw [way x member] at there
        exact .inr (found.trans there.symm)
  · exact fun member => vacant (way _ member)
  · exact fun directory => vacant (kept.entries _ _ directory)

end FileTree

end QueryHarvest.Files
