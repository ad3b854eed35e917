import QueryHarvest.Proofs.Files.Removing

/-! # Below a directory

What stands below a directory is known by the names that lead to it from there. Below a directory that is
closed, nothing stands that is not in a directory itself, so a path that goes on below it finds just what
stands at its place.
-/

namespace QueryHarvest.Files

section

variable {place : Location} {names more : List String}

@[simp] theorem target_append (place : Location) (names more : List String) :
    target place (names ++ more) = target (target place names) more :=
  List.foldl_append

theorem visited_append (place : Location) (names more : List String) :
    visited place (names ++ more) = visited place names ++ visited (target place names) more := by
  induction names generalizing place with
  | nil => rfl
  | cons name names ih =>
      rw [List.cons_append, visited, ih, visited]
      rfl

@[simp] theorem target_down (down : ".." ∉ names) : target place names = place ++ names := by
  induction names generalizing place with
  | nil => simp [target]
  | cons name names ih =>
      rw [List.mem_cons, not_or] at down
      have first : step place name = place ++ [name] := if_neg (by simpa using Ne.symm down.1)
      rw [target, List.foldl_cons, ← target, first, ih down.2, List.append_assoc]
      rfl

theorem mem_visited_down (down : ".." ∉ names) {x : Location} :
    x ∈ visited place names ↔
      ∃ front back, names = front ++ back ∧ back ≠ [] ∧ x = place ++ front := by
  induction names generalizing place with
  | nil => simp [visited]
  | cons name names ih =>
      rw [List.mem_cons, not_or] at down
      have first : step place name = place ++ [name] := if_neg (by simpa using Ne.symm down.1)
      rw [visited, List.mem_cons, first, ih down.2]
      constructor
      · rintro (rfl | ⟨front, back, rfl, nonempty, rfl⟩)
        · exact ⟨[], _, rfl, List.cons_ne_nil _ _, (List.append_nil _).symm⟩
        · exact ⟨name :: front, back, rfl, nonempty, by simp⟩
      · rintro ⟨front, back, cut, nonempty, rfl⟩
        cases front with
        | nil => exact .inl (List.append_nil _)
        | cons other front =>
            obtain ⟨rfl, rfl⟩ := List.cons_eq_cons.mp cut
            exact .inr ⟨front, back, rfl, nonempty, by simp⟩

end

namespace FileTree

variable {t u : FileTree} {p : Path} {place : Location} {names : List String}

/-- The path leads to a directory at a place, and to nothing below it on the way. -/
structure Leads (t : FileTree) (p : Path) (place : Location) : Prop where
  way : t.HasAll (visited (t.start p.anchor) p.names)
  ends : target (t.start p.anchor) p.names = place
  apart : ∀ names, names ≠ [] → place ++ names ∉ visited (t.start p.anchor) p.names
  there : t.entry? place = some .directory

/-- The trees differ below a place at most. -/
structure AgreeAround (place : Location) (t u : FileTree) : Prop where
  working : u.workingDirectory = t.workingDirectory
  entries : ∀ x, (∀ names, names ≠ [] → x ≠ place ++ names) → u.entry? x = t.entry? x

theorem AgreeAround.refl (place : Location) (t : FileTree) : AgreeAround place t t :=
  ⟨rfl, fun _ _ => rfl⟩

theorem AgreeAround.trans {v : FileTree} (h : AgreeAround place t u) (h' : AgreeAround place u v) :
    AgreeAround place t v where
  working := h'.working.trans h.working
  entries x outside := (h'.entries x outside).trans (h.entries x outside)

theorem AgreeAround.put (nonempty : names ≠ []) (entry : Entry) :
    AgreeAround place t (t.put (place ++ names) entry) where
  working := workingDirectory_put ..
  entries x outside := by
    rw [entryAt_put (List.append_ne_nil_of_right_ne_nil _ nonempty), if_neg (outside names nonempty)]

theorem entryAt_without_below (nonempty : names ≠ []) (q : List String) :
    entry? (t.without (place ++ names)) (place ++ q) =
      if names <+: q then none else t.entry? (place ++ q) := by
  rw [entryAt_without]
  refine if_congr ?_ rfl rfl
  rw [List.isPrefixOf_iff_prefix, List.prefix_append_right_inj]
  refine and_iff_right_of_imp fun inside => List.append_ne_nil_of_right_ne_nil _ ?_
  rintro rfl
  exact nonempty (List.prefix_nil.mp inside)

theorem AgreeAround.without (nonempty : names ≠ []) : AgreeAround place t (t.without (place ++ names)) where
  working := rfl
  entries x outside := by
    rw [entryAt_without, if_neg]
    rintro ⟨-, inside⟩
    obtain ⟨rest, rfl⟩ := List.isPrefixOf_iff_prefix.mp inside
    exact outside (names ++ rest) (List.append_ne_nil_of_left_ne_nil nonempty _) (List.append_assoc ..)

theorem Leads.agree (h : t.Leads p place) (agree : AgreeAround place t u) : u.Leads p place := by
  have same : u.start p.anchor = t.start p.anchor := by rw [start, start, agree.working]
  refine ⟨?_, ?_, ?_, ?_⟩ <;> try rw [same]
  · intro x member
    rw [agree.entries x fun names nonempty here => h.apart names nonempty (here ▸ member)]
    exact h.way x member
  · exact h.ends
  · exact h.apart
  · rw [agree.entries place fun names nonempty here => nonempty (List.self_eq_append_right.mp here)]
    exact h.there

theorem Leads.locate_below (h : t.Leads p place) (down : ".." ∉ names)
    (inside : ∀ front back, names = front ++ back → back ≠ [] →
      t.entry? (place ++ front) = some .directory) :
    t.locate ⟨p.anchor, p.names ++ names⟩ = .ok (place ++ names) := by
  rw [locate_ok_iff, visited_append, target_append, h.ends, target_down down]
  refine ⟨fun x member => ?_, rfl⟩
  rcases List.mem_append.mp member with above | below
  · exact h.way x above
  · obtain ⟨front, back, cut, nonempty, rfl⟩ := (mem_visited_down down).mp below
    exact inside front back cut nonempty

theorem Leads.locate_self (h : t.Leads p place) : t.locate p = .ok place :=
  locate_ok_iff.mpr ⟨h.way, h.ends.symm⟩

theorem Leads.locate_child (h : t.Leads p place) {name : String} (down : name ≠ "..") :
    t.locate (p.child name) = .ok (place ++ [name]) := by
  refine h.locate_below (by simpa using down.symm) fun front back cut nonempty => ?_
  rcases List.append_eq_singleton_iff.mp cut.symm with ⟨rfl, rfl⟩ | ⟨rfl, rfl⟩
  · rw [List.append_nil]
    exact h.there
  · contradiction

theorem Leads.child (h : t.Leads p place) {name : String} (down : name ≠ "..")
    (there : t.entry? (place ++ [name]) = some .directory) : t.Leads (p.child name) (place ++ [name]) := by
  have way : visited (t.start p.anchor) (p.names ++ [name]) =
      visited (t.start p.anchor) p.names ++ [place] := by
    rw [visited_concat, h.ends]
  refine ⟨?_, (locate_ok_iff.mp (h.locate_child down)).2.symm, ?_, there⟩
  · rw [Path.child, way]
    intro x member
    rcases List.mem_append.mp member with above | last
    · exact h.way x above
    · rw [List.mem_singleton.mp last, h.there]
  · rw [Path.child, way]
    intro names _ member
    rw [List.append_assoc] at member
    rcases List.mem_append.mp member with above | last
    · exact h.apart ([name] ++ names) (by simp) above
    · simp at last

/-- Whatever stands below a place stands in a directory. -/
def ClosedBelow (t : FileTree) (place : Location) : Prop :=
  ∀ names name, t.entry? (place ++ (names ++ [name])) ≠ none → t.entry? (place ++ names) = some .directory

theorem ClosedBelow.front (closed : t.ClosedBelow place) {front back : List String} (nonempty : back ≠ [])
    (there : t.entry? (place ++ (front ++ back)) ≠ none) : t.entry? (place ++ front) = some .directory := by
  induction back using List.reverseRecOn with
  | nil => contradiction
  | append_singleton back name ih =>
      have above := closed (front ++ back) name (by rwa [List.append_assoc])
      cases back with
      | nil => rwa [List.append_nil] at above
      | cons other back => exact ih (List.cons_ne_nil _ _) (by rw [above]; nofun)

theorem ClosedBelow.none_below (closed : t.ClosedBelow place) {front : List String}
    (absent : t.entry? (place ++ front) = none) (back : List String) :
    t.entry? (place ++ (front ++ back)) = none := by
  cases back with
  | nil => rwa [List.append_nil]
  | cons name back =>
      by_contra there
      rw [closed.front (List.cons_ne_nil name back) there] at absent
      cases absent

section

variable (h : t.Leads p place) (closed : t.ClosedBelow place)

include h closed

theorem Leads.locate_inside {name : String} (down : ".." ∉ names ++ [name])
    (there : t.entry? (place ++ names) = some .directory) :
    t.locate ⟨p.anchor, p.names ++ (names ++ [name])⟩ = .ok (place ++ (names ++ [name])) := by
  refine h.locate_below down fun front back cut nonempty => ?_
  rcases List.append_eq_append_iff.mp cut with ⟨more, rfl, single⟩ | ⟨more, rfl, single⟩
  · rcases List.append_eq_singleton_iff.mp single.symm with ⟨rfl, -⟩ | ⟨-, rfl⟩
    · rw [List.append_nil]
      exact there
    · contradiction
  · cases more with
    | nil =>
        rw [List.append_nil] at there
        exact there
    | cons other more => exact closed.front (List.cons_ne_nil other more) (by rw [there]; nofun)

theorem Leads.find_below (down : ".." ∉ names) :
    t.find? ⟨p.anchor, p.names ++ names⟩ = t.entry? (place ++ names) := by
  cases entry : t.entry? (place ++ names) with
  | some found =>
      have located := h.locate_below down fun front back cut nonempty =>
        closed.front nonempty (by rw [← cut, entry]; nofun)
      rw [find?, located]
      exact entry
  | none =>
      unfold find?
      split
      · next found located =>
        obtain ⟨-, rfl⟩ := locate_ok_iff.mp located
        rw [target_append, h.ends, target_down down]
        exact entry
      · rfl

end

/-- Nothing at a place or below it is listed twice. -/
def ListedOnce (t : FileTree) (place : Location) : Prop :=
  ((t.entries.map Prod.fst).filter place.isPrefixOf).Nodup

theorem keys_put (t : FileTree) (x : Location) (entry : Entry) :
    (t.put x entry).entries.map Prod.fst =
      if x ∈ t.entries.map Prod.fst then t.entries.map Prod.fst else t.entries.map Prod.fst ++ [x] := by
  have listed : (t.entries.any fun old => old.1 == x) = true ↔ x ∈ t.entries.map Prod.fst := by
    simp
  unfold FileTree.put
  split
  · next there =>
    rw [if_pos (listed.mp there), List.map_map]
    refine List.map_congr_left fun old _ => ?_
    by_cases here : old.1 = x <;> simp [here]
  · next absent => rw [if_neg (absent ∘ listed.mpr), List.map_append, List.map_singleton]

theorem ListedOnce.put (h : t.ListedOnce place) (x : Location) (entry : Entry) :
    (t.put x entry).ListedOnce place := by
  rw [ListedOnce, keys_put]
  split
  · exact h
  · next fresh =>
    rw [List.filter_append, List.nodup_append]
    refine ⟨h, (List.nodup_singleton x).filter _, ?_⟩
    rintro y old _ new rfl
    rw [List.mem_singleton.mp (List.mem_of_mem_filter new)] at old
    exact fresh (List.mem_of_mem_filter old)

/-- The name of an entry that stands directly in a directory. -/
def childName? (place : Location) (x : Location) : Option String :=
  if x.dropLast == place then x.getLast? else none

theorem childName?_eq_some {x : Location} {name : String} :
    childName? place x = some name ↔ x = place ++ [name] := by
  unfold childName?
  constructor
  · intro h
    split at h
    · next inside =>
      obtain ⟨front, rfl⟩ := List.getLast?_eq_some_iff.mp h
      rw [← eq_of_beq inside, List.dropLast_concat]
    · cases h
  · rintro rfl
    simp

theorem childrenOf_eq (t : FileTree) (place : Location) :
    t.childrenOf place = (t.entries.map Prod.fst).filterMap (childName? place) := by
  rw [List.filterMap_map]
  rfl

theorem entryAt_of_ne_nil {x : Location} (nonempty : x ≠ []) : t.entry? x = t.entries.lookup x := by
  unfold entry?
  rw [List.isEmpty_eq_false_iff.mpr nonempty, if_neg Bool.false_ne_true]

theorem entryAt_ne_none {x : Location} (nonempty : x ≠ []) :
    t.entry? x ≠ none ↔ x ∈ t.entries.map Prod.fst := by
  rw [entryAt_of_ne_nil nonempty, Ne, List.lookup_eq_none_iff, List.mem_map]
  simp only [bne_iff_ne, ne_eq, not_forall, not_not, exists_prop, eq_comm (a := x)]

theorem mem_childrenOf {name : String} :
    name ∈ t.childrenOf place ↔ t.entry? (place ++ [name]) ≠ none := by
  rw [childrenOf_eq, List.mem_filterMap, entryAt_ne_none (by simp)]
  simp only [childName?_eq_some, exists_eq_right]

/-- Children that all stand at a place or below it are listed once where that place is. -/
theorem ListedOnce.children {inner : Location} (h : t.ListedOnce inner) {keep : String → Bool}
    (within : ∀ name, keep name → inner <+: place ++ [name]) :
    ((t.childrenOf place).filter keep).Nodup := by
  have same : (t.childrenOf place).filter keep =
      ((t.entries.map Prod.fst).filter inner.isPrefixOf).filterMap fun x =>
        (childName? place x).filter keep := by
    rw [childrenOf_eq, List.filter_filterMap, List.filterMap_filter]
    refine List.filterMap_congr fun x _ => ?_
    split
    · rfl
    · next outside =>
      rw [Option.filter_eq_none_iff]
      intro name child kept
      rw [childName?_eq_some.mp child] at outside
      exact outside (List.isPrefixOf_iff_prefix.mpr (within name kept))
  rw [same]
  refine h.filterMap fun x y name first second => ?_
  rw [Option.mem_def, Option.filter_eq_some_iff, childName?_eq_some] at first second
  rw [first.1, second.1]

theorem ListedOnce.childrenOf (h : t.ListedOnce place) : (t.childrenOf place).Nodup := by
  rw [← List.filter_true (t.childrenOf place)]
  exact h.children fun name _ => List.prefix_append ..

theorem entryAt_put_below (nonempty : names ≠ []) (entry : Entry) (q : List String) :
    entry? (t.put (place ++ names) entry) (place ++ q) =
      if q = names then some entry else t.entry? (place ++ q) := by
  rw [entryAt_put (List.append_ne_nil_of_right_ne_nil _ nonempty)]
  exact if_congr (List.append_right_inj place) rfl rfl

theorem ClosedBelow.put {name : String} (closed : t.ClosedBelow place)
    (above : t.entry? (place ++ names) = some .directory)
    (vacant : t.entry? (place ++ (names ++ [name])) ≠ some .directory) (entry : Entry) :
    (t.put (place ++ (names ++ [name])) entry).ClosedBelow place := by
  intro others other there
  rw [entryAt_put_below (by simp)] at there ⊢
  have before : t.entry? (place ++ others) = some .directory := by
    split at there
    · next here =>
      rw [List.append_inj_left' here rfl]
      exact above
    · exact closed others other there
  rw [if_neg, before]
  rintro rfl
  exact vacant before

/-- The path leads to a closed directory, and nothing in a place inside is listed twice. -/
structure Tidy (t : FileTree) (p : Path) (place inner : Location) : Prop where
  leads : t.Leads p place
  closed : t.ClosedBelow place
  once : t.ListedOnce inner

section

variable {inner : Location} {name : String}

theorem Tidy.put (h : t.Tidy p place inner) (above : t.entry? (place ++ names) = some .directory)
    (vacant : t.entry? (place ++ (names ++ [name])) ≠ some .directory) (entry : Entry) :
    (t.put (place ++ (names ++ [name])) entry).Tidy p place inner where
  leads := h.leads.agree (.put (by simp) entry)
  closed := h.closed.put above vacant entry
  once := h.once.put _ entry

theorem Tidy.has_below (h : t.Tidy p place inner) (down : ".." ∉ names) :
    t.has ⟨p.anchor, p.names ++ names⟩ = (t.entry? (place ++ names)).isSome := by
  rw [has, h.leads.find_below h.closed down]

theorem Tidy.makeDirectory (h : t.Tidy p place inner) (down : ".." ∉ names ++ [name])
    (above : t.entry? (place ++ names) = some .directory)
    (absent : t.entry? (place ++ (names ++ [name])) = none) :
    t.makeDirectory ⟨p.anchor, p.names ++ (names ++ [name])⟩ =
      .ok (t.put (place ++ (names ++ [name])) .directory) := by
  rw [FileTree.makeDirectory, h.leads.locate_inside h.closed down above]
  simp only [absent, Option.isSome_none, Bool.false_eq_true, if_false]

/-- All that names below a directory lead through stands there, and the rest is as before. -/
structure Laid (t u : FileTree) (p : Path) (place inner : Location) (names : List String) : Prop where
  around : AgreeAround place t u
  tidy : u.Tidy p place inner
  entries : ∀ q ≠ [], u.entry? (place ++ q) =
    (t.entry? (place ++ q)).or (if q <+: names then some .directory else none)

theorem Laid.there (h : Laid t u p place inner names) (free : t.Free (place ++ names)) :
    u.entry? (place ++ names) = some .directory := by
  cases names with
  | nil =>
      rw [List.append_nil]
      exact h.tidy.leads.there
  | cons first rest =>
      rw [h.entries _ (List.cons_ne_nil first rest), if_pos List.prefix_rfl]
      rcases free with missing | directory
      · rw [missing, Option.none_or]
      · rw [directory, Option.some_or]

theorem Tidy.laid (h : t.Tidy p place inner) (there : t.entry? (place ++ names) = some .directory) :
    Laid t t p place inner names where
  around := .refl place t
  tidy := h
  entries q nonempty := by
    split
    · next before =>
      obtain ⟨rest, rfl⟩ := before
      have standing : t.entry? (place ++ q) = some .directory := by
        cases rest with
        | nil => rwa [List.append_nil] at there
        | cons other rest => exact h.closed.front (List.cons_ne_nil other rest) (by rw [there]; nofun)
      rw [standing, Option.some_or]
    · rw [Option.or_none]

theorem Laid.fresh (h : Laid t u p place inner names) :
    u.entry? (place ++ (names ++ [name])) = t.entry? (place ++ (names ++ [name])) := by
  rw [h.entries _ (by simp), if_neg, Option.or_none]
  intro longer
  simpa using longer.length_le

theorem Laid.extend (h : Laid t u p place inner names)
    (there : t.entry? (place ++ (names ++ [name])) = some .directory) :
    Laid t u p place inner (names ++ [name]) where
  around := h.around
  tidy := h.tidy
  entries q nonempty := by
    rw [h.entries q nonempty]
    by_cases here : q = names ++ [name]
    · rw [here, there, Option.some_or, Option.some_or]
    · simp only [List.prefix_concat_iff, here, false_or]

theorem Laid.put (h : Laid t u p place inner names) (free : t.Free (place ++ names))
    (absent : t.entry? (place ++ (names ++ [name])) = none) :
    Laid t (u.put (place ++ (names ++ [name])) .directory) p place inner (names ++ [name]) where
  around := h.around.trans (.put (by simp) _)
  tidy := h.tidy.put (h.there free) (by rw [h.fresh, absent]; nofun) _
  entries q nonempty := by
    rw [entryAt_put_below (by simp)]
    split
    · next here =>
      subst here
      rw [absent, if_pos List.prefix_rfl, Option.none_or]
    · next other =>
      rw [h.entries q nonempty]
      simp only [List.prefix_concat_iff, other, false_or]

section

variable (h : Laid t u p place inner names) (down : ".." ∉ names ++ [name])
  (above : t.Free (place ++ names))

include h down above

/-- One more directory can be made where no file stands. -/
theorem Laid.directory (free : t.Free (place ++ (names ++ [name]))) :
    ∃ v, (if u.hasDirectory ⟨p.anchor, p.names ++ (names ++ [name])⟩ then .ok u
        else u.makeDirectory ⟨p.anchor, p.names ++ (names ++ [name])⟩) = Except.ok v ∧
      Laid t v p place inner (names ++ [name]) := by
  have found : u.hasDirectory ⟨p.anchor, p.names ++ (names ++ [name])⟩ =
      (t.entry? (place ++ (names ++ [name])) == some .directory) := by
    rw [hasDirectory, h.tidy.leads.find_below h.tidy.closed down, h.fresh]
  rcases free with absent | there
  · refine ⟨_, ?_, h.put above absent⟩
    rw [found, absent]
    exact h.tidy.makeDirectory down (h.there above) (h.fresh.trans absent)
  · refine ⟨u, ?_, h.extend there⟩
    rw [found, there]
    rfl

/-- A file can be written where no directory stands; it is as executable as one that stood there. -/
theorem Laid.file (content : Content)
    (free : t.entry? (place ++ (names ++ [name])) = none ∨
      ∃ old, t.entry? (place ++ (names ++ [name])) = some (.file old false)) :
    ∃ v, u.write ⟨p.anchor, p.names ++ (names ++ [name])⟩ content = .ok v ∧ AgreeAround place t v ∧
      v.Tidy p place inner ∧ ∀ q ≠ [], v.entry? (place ++ q) =
        if q = names ++ [name] then some (.file content false)
        else (t.entry? (place ++ q)).or (if q <+: names then some .directory else none) := by
  have vacant : u.entry? (place ++ (names ++ [name])) ≠ some .directory := by
    rw [h.fresh]
    rcases free with absent | ⟨old, there⟩
    · rw [absent]
      nofun
    · rw [there]
      nofun
  refine ⟨u.put (place ++ (names ++ [name])) (.file content false), ?_, ?_, ?_, fun q nonempty => ?_⟩
  · rw [write, h.tidy.leads.locate_inside h.tidy.closed down (h.there above)]
    simp only [h.fresh]
    rcases free with absent | ⟨old, there⟩
    · rw [absent]
    · rw [there]
  · exact h.around.trans (.put (by simp) _)
  · exact h.tidy.put (h.there above) vacant _
  · rw [entryAt_put_below (by simp), h.entries q nonempty]

end

end

/-- The place of an entry after something was moved. -/
def moved (source target x : Location) : Location :=
  if source.isPrefixOf x then target ++ x.drop source.length else x

theorem lookup_map_key {f : Location → Location} {entries : List (Location × Entry)} {x y : Location}
    (only : ∀ old ∈ entries, f old.1 = y ↔ old.1 = x) :
    (entries.map fun old => (f old.1, old.2)).lookup y = entries.lookup x := by
  induction entries with
  | nil => rfl
  | cons old entries ih =>
      rw [List.forall_mem_cons] at only
      have same : (y == f old.1) = (x == old.1) := by
        rw [Bool.eq_iff_iff, beq_iff_eq, beq_iff_eq, eq_comm, only.1, eq_comm]
      rw [List.map_cons, List.lookup_cons, same, ih only.2, ← List.lookup_cons]

theorem moved_eq_iff {source target key x : Location} (free : ¬ target <+: key) :
    moved source target key = x ↔
      if target <+: x then key = source ++ x.drop target.length else key = x ∧ ¬ source <+: x := by
  unfold moved
  by_cases left : source <+: key
  · obtain ⟨more, rfl⟩ := left
    rw [if_pos (by simp), List.drop_left]
    split
    · next inside =>
      obtain ⟨rest, rfl⟩ := inside
      rw [List.drop_left, List.append_cancel_left_eq, List.append_cancel_left_eq]
    · next outside =>
      refine iff_of_false (fun here => outside ⟨more, here⟩) ?_
      rintro ⟨rfl, away⟩
      exact away ⟨more, rfl⟩
  · rw [if_neg (by simpa using left)]
    split
    · next inside =>
      refine iff_of_false ?_ ?_
      · rintro rfl
        exact free inside
      · rintro rfl
        exact left (List.prefix_append ..)
    · refine (and_iff_left_of_imp ?_).symm
      rintro rfl
      exact left

theorem rename_entries (t : FileTree) (source target : Location) :
    (t.rename source target).entries =
      (t.entries.filter fun old => !target.isPrefixOf old.1).map fun old =>
        (moved source target old.1, old.2) := by
  refine List.map_congr_left fun old _ => ?_
  rw [moved]
  split <;> rfl

/-- What was below one place is below another afterwards, and nothing else is there. -/
theorem entryAt_rename {source target : Location} (apart : ¬ source <+: target)
    (apart' : ¬ target <+: source) (x : Location) :
    entry? (t.rename source target) x =
      if target <+: x then t.entry? (source ++ x.drop target.length)
      else if source <+: x then none
      else t.entry? x := by
  have lookup {y : Location} (only : ∀ key, ¬ target <+: key → (moved source target key = x ↔ key = y))
      (free : ¬ target <+: y) : (t.rename source target).entries.lookup x = t.entries.lookup y := by
    rw [rename_entries, lookup_map_key fun old member => only old.1 ?_,
      lookup_filter_key fun key => !target.isPrefixOf key, if_pos]
    · simpa [← List.isPrefixOf_iff_prefix] using free
    · simpa [← List.isPrefixOf_iff_prefix] using List.of_mem_filter member
  split
  · next inside =>
    have below (rest : List String) : ¬ target <+: source ++ rest := fun inside =>
      (List.prefix_or_prefix_of_prefix inside (List.prefix_append ..)).elim apart' apart
    have nonempty (rest : List String) : source ++ rest ≠ [] := fun empty =>
      apart ((List.append_eq_nil_iff.mp empty).1 ▸ List.nil_prefix)
    have nonempty' : x ≠ [] := by
      rintro rfl
      exact apart' (List.prefix_nil.mp inside ▸ List.nil_prefix)
    rw [entryAt_of_ne_nil nonempty', entryAt_of_ne_nil (nonempty _), lookup (fun key free => ?_) (below _)]
    rw [moved_eq_iff free, if_pos inside]
  next outside =>
  by_cases root : x = []
  · subst root
    rw [if_neg]
    · rfl
    · rw [List.prefix_nil]
      rintro rfl
      exact apart List.nil_prefix
  rw [entryAt_of_ne_nil root, entryAt_of_ne_nil root]
  split
  · next left =>
    rw [List.lookup_eq_none_iff, rename_entries]
    rintro old member
    obtain ⟨key, kept, rfl⟩ := List.mem_map.mp member
    rw [bne_iff_ne, ne_comm, Ne, moved_eq_iff, if_neg outside]
    · exact fun here => here.2 left
    · simpa [← List.isPrefixOf_iff_prefix] using List.of_mem_filter kept
  · next away =>
    refine lookup (fun key free => ?_) outside
    rw [moved_eq_iff free, if_neg outside, and_iff_left away]

section

variable {inner outer : List String} (apart : ¬ inner <+: outer) (apart' : ¬ outer <+: inner)

include apart apart'

theorem entryAt_rename_below (q : List String) :
    entry? (t.rename (place ++ inner) (place ++ outer)) (place ++ q) =
      if outer <+: q then t.entry? (place ++ (inner ++ q.drop outer.length))
      else if inner <+: q then none
      else t.entry? (place ++ q) := by
  rw [entryAt_rename (by rwa [List.prefix_append_right_inj]) (by rwa [List.prefix_append_right_inj])]
  refine if_congr (List.prefix_append_right_inj place) ?_ (if_congr (List.prefix_append_right_inj place) rfl rfl)
  rw [List.length_append, List.drop_length_add_append, List.append_assoc]

theorem AgreeAround.rename : AgreeAround place t (t.rename (place ++ inner) (place ++ outer)) where
  working := rfl
  entries x outside := by
    have filled : inner ≠ [] := by
      rintro rfl
      exact apart List.nil_prefix
    have filled' : outer ≠ [] := by
      rintro rfl
      exact apart' List.nil_prefix
    rw [entryAt_rename (by rwa [List.prefix_append_right_inj]) (by rwa [List.prefix_append_right_inj]),
      if_neg, if_neg]
    · rintro ⟨rest, rfl⟩
      exact outside (inner ++ rest) (List.append_ne_nil_of_left_ne_nil filled _) (List.append_assoc ..)
    · rintro ⟨rest, rfl⟩
      exact outside (outer ++ rest) (List.append_ne_nil_of_left_ne_nil filled' _) (List.append_assoc ..)

end

end FileTree

end QueryHarvest.Files
