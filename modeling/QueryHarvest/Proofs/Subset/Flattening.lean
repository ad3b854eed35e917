import QueryHarvest.Proofs.Subset.Jobs
import QueryHarvest.Proofs.Subset.Unpacking
import QueryHarvest.Subset.Tool

/-! # Releases flattened

A release that has one directory of its own for all is unpacked, what it has in that directory is moved up,
and the directory is removed. In the end the tool's directory holds what the archive has below that one
directory, whatever the names there are.
-/

namespace QueryHarvest.Subset

open Files FileTree

/-- Some children of a directory were moved up into the one that it is in; the rest is as before. -/
structure Lifted (t u : FileTree) (place : Location) (top : String) (names : List String) : Prop where
  around : AgreeAround place t u
  lifted : ∀ name ∈ names, ∀ rest,
    u.entry? (place ++ name :: rest) = t.entry? (place ++ top :: name :: rest)
  gone : ∀ name ∈ names, ∀ rest, u.entry? (place ++ top :: name :: rest) = none
  kept : ∀ q ≠ [], (∀ name ∈ names, ¬ [name] <+: q ∧ ¬ [top, name] <+: q) →
    u.entry? (place ++ q) = t.entry? (place ++ q)

section

variable {t u v : FileTree} {home : Path} {place inner : Location} {top name : String} {names : List String}

theorem Lifted.nil (t : FileTree) (place : Location) (top : String) : Lifted t t place top [] :=
  ⟨.refl place t, nofun, nofun, fun _ _ _ => rfl⟩

theorem Lifted.concat (h : Lifted t u place top names) (h' : Lifted u v place top [name])
    (fresh : name ∉ names) (other : top ∉ names) (other' : name ≠ top) :
    Lifted t v place top (names ++ [name]) where
  around := h.around.trans h'.around
  lifted := by
    intro next member rest
    rcases List.mem_append.mp member with early | last
    · have apart : name ≠ next := fun same => fresh (same ▸ early)
      have inner : top ≠ next := fun same => other (same ▸ early)
      rw [h'.kept _ (by simp), h.lifted next early]
      simp [apart, inner]
    · rw [List.mem_singleton.mp last, h'.lifted name (List.mem_singleton.mpr rfl),
        h.kept _ (by simp)]
      intro next early
      have apart : next ≠ name := fun same => fresh (same ▸ early)
      have inner : next ≠ top := fun same => other (same ▸ early)
      simp [apart, inner]
  gone := by
    intro next member rest
    rcases List.mem_append.mp member with early | last
    · have apart : name ≠ next := fun same => fresh (same ▸ early)
      rw [h'.kept _ (by simp), h.gone next early]
      simp [apart, other']
    · exact h'.gone next last rest
  kept q nonempty away := by
    rw [h'.kept q nonempty fun next member => away next (List.mem_append_right _ member),
      h.kept q nonempty fun next member => away next (List.mem_append_left _ member)]

theorem Lifted.rename (t : FileTree) (place : Location) (other : name ≠ top) :
    Lifted t (t.rename (place ++ [top, name]) (place ++ [name])) place top [name] := by
  have apart : ¬ [top, name] <+: [name] := by simp
  have apart' : ¬ [name] <+: [top, name] := by simp [other]
  refine ⟨.rename apart apart', ?_, ?_, fun q nonempty away => ?_⟩
  · intro next member rest
    rw [List.mem_singleton.mp member, entryAt_rename_below apart apart', if_pos (by simp)]
    rfl
  · intro next member rest
    rw [List.mem_singleton.mp member, entryAt_rename_below apart apart', if_neg (by simp [other]),
      if_pos (by simp)]
  · obtain ⟨above, inside⟩ := away name (List.mem_singleton.mpr rfl)
    rw [entryAt_rename_below apart apart', if_neg above, if_neg inside]

theorem moveUp_eq (h : t.Leads home place) (there : t.entry? (place ++ [top]) = some .directory)
    (down : top ≠ "..") (down' : name ≠ "..") (free : t.entry? (place ++ [name]) = none) :
    moveUp home top t name = .ok (t.rename (place ++ [top, name]) (place ++ [name])) := by
  have located := (h.child down there).locate_child down'
  rw [List.append_assoc] at located
  rw [moveUp, located]
  simp only [FileTree.move, h.locate_child down', free]
  rfl

theorem changeAll_moveUp (h : t.Leads home place) (there : t.entry? (place ++ [top]) = some .directory)
    (down : top ≠ "..") (once : names.Nodup)
    (movable : ∀ name ∈ names, name ≠ ".." ∧ name ≠ top ∧ t.entry? (place ++ [name]) = none) :
    ∃ u, changeAll (moveUp home top) t names = (u, none) ∧ Lifted t u place top names := by
  -- from the end: the last child finds the others moved, and its own place as free as it was
  induction names using List.reverseRecOn with
  | nil => exact ⟨t, rfl, .nil t place top⟩
  | append_singleton names name ih =>
      have known {next : String} (member : next ∈ names) : next ∈ names ++ [name] :=
        List.mem_append_left _ member
      obtain ⟨once, -, apart⟩ := List.nodup_append.mp once
      have fresh : name ∉ names := fun member => apart name member name (List.mem_singleton.mpr rfl) rfl
      obtain ⟨u, moved, lifted⟩ := ih once fun next member => movable next (known member)
      obtain ⟨down', other, free⟩ := movable name (List.mem_append_right _ (List.mem_singleton.mpr rfl))
      have inner {next : String} (member : next ∈ names) : next ≠ top := (movable next (known member)).2.1
      have there' : u.entry? (place ++ [top]) = some .directory := by
        rw [lifted.kept _ (by simp), there]
        intro next member
        simp [inner member]
      have free' : u.entry? (place ++ [name]) = none := by
        rw [lifted.kept _ (by simp), free]
        intro next member
        have apart : next ≠ name := fun same => fresh (same ▸ member)
        simp [apart]
      exact ⟨_, changeAll_concat moved (moveUp_eq (h.agree lifted.around) there' down down' free'),
        lifted.concat (.rename u place other) fresh (fun member => inner member rfl) other⟩

theorem ne_up_of_isToolName (tool : isToolName name) : name ≠ ".." := by
  rintro rfl
  revert tool
  decide +kernel

theorem hasDirectory_child (h : t.Tidy home place inner) (down : name ≠ "..") :
    t.hasDirectory (home.child name) = (t.entry? (place ++ [name]) == some .directory) := by
  rw [hasDirectory]
  exact congrArg (· == _) (h.leads.find_below h.closed (by simpa using down.symm))

theorem namesAt_eq {p : Path} (h : t.Leads p place) : namesAt t p = t.childrenOf place := by
  rw [namesAt, h.locate_self]

theorem toolDirectories_eq (h : t.Tidy home place (place ++ [top])) (tool : isToolName top)
    (there : t.entry? (place ++ [top]) = some .directory)
    (only : ∀ name, t.entry? (place ++ [name]) = some .directory → name = top) :
    toolDirectories t home = [top] := by
  have chosen (name : String) :
      (isToolName name && t.hasDirectory (home.child name)) = true ↔ name = top := by
    rw [Bool.and_eq_true]
    constructor
    · rintro ⟨own, directory⟩
      rw [hasDirectory_child h (ne_up_of_isToolName own), beq_iff_eq] at directory
      exact only name directory
    · rintro rfl
      rw [hasDirectory_child h (ne_up_of_isToolName tool), there]
      exact ⟨tool, beq_self_eq_true _⟩
  rw [toolDirectories, namesAt_eq h.leads]
  -- a row that holds one name only, and no name twice
  refine List.perm_singleton.mp
    ((List.perm_ext_iff_of_nodup ?_ (List.nodup_singleton top)).mpr fun name => ?_)
  · refine h.once.children fun name keep => ?_
    rw [(chosen name).mp keep]
  · rw [List.mem_filter, mem_childrenOf, chosen, List.mem_singleton, and_iff_right_of_imp]
    rintro rfl
    rw [there]
    nofun

/-- A directory without directories stays as it is. -/
theorem dissolve_none (h : t.Tidy home place inner)
    (only : ∀ name, t.entry? (place ++ [name]) ≠ some .directory) : dissolve t home = (t, none) := by
  have bare : toolDirectories t home = [] := by
    refine List.filter_eq_nil_iff.mpr fun name _ chosen => ?_
    rw [Bool.and_eq_true] at chosen
    rw [hasDirectory_child h (ne_up_of_isToolName chosen.1), beq_iff_eq] at chosen
    exact only name chosen.2
  rw [dissolve, bare]

theorem mem_childrenOf_inner :
    name ∈ t.childrenOf (place ++ [top]) ↔ t.entry? (place ++ [top, name]) ≠ none := by
  rw [mem_childrenOf, List.append_assoc]
  rfl

/-- Where all children of a directory were moved up, nothing is below it, and all that was there stands in the
directory around it. -/
theorem Lifted.all (h : Lifted t u place top (t.childrenOf (place ++ [top]))) (closed : t.ClosedBelow place)
    (other : ∀ name, t.entry? (place ++ [top, name]) ≠ none →
      name ≠ top ∧ t.entry? (place ++ [name]) = none)
    (name : String) (rest : List String) :
    u.entry? (place ++ top :: name :: rest) = none ∧
      (name ≠ top → u.entry? (place ++ name :: rest) =
        (t.entry? (place ++ top :: name :: rest)).or (t.entry? (place ++ name :: rest))) := by
  by_cases member : name ∈ t.childrenOf (place ++ [top])
  · refine ⟨h.gone name member rest, fun _ => ?_⟩
    have free : t.entry? (place ++ name :: rest) = none :=
      closed.none_below (other name (mem_childrenOf_inner.mp member)).2 rest
    rw [h.lifted name member, free, Option.or_none]
  · -- nothing was below a name that is no child's
    have bare : t.entry? (place ++ top :: name :: rest) = none :=
      closed.none_below (not_not.mp (mt mem_childrenOf_inner.mpr member)) rest
    have away {next : String} (inside : next ∈ t.childrenOf (place ++ [top])) : next ≠ top ∧ next ≠ name :=
      ⟨(other next (mem_childrenOf_inner.mp inside)).1, fun same => member (same ▸ inside)⟩
    constructor
    · rw [h.kept _ (by simp), bare]
      intro next inside
      simp [away inside]
    · intro apart
      rw [h.kept _ (by simp), bare, Option.none_or]
      intro next inside
      simp [away inside, apart.symm]

/-- The one directory of the tool is dissolved: what it holds stands in the directory around it. -/
theorem dissolve_eq (h : t.Tidy home place (place ++ [top])) (tool : isToolName top)
    (there : t.entry? (place ++ [top]) = some .directory)
    (only : ∀ name, t.entry? (place ++ [name]) = some .directory → name = top)
    (movable : ∀ name, t.entry? (place ++ [top, name]) ≠ none →
      name ≠ ".." ∧ name ≠ top ∧ t.entry? (place ++ [name]) = none) :
    ∃ u, dissolve t home = (u, none) ∧ AgreeAround place t u ∧
      ∀ q ≠ [], u.entry? (place ++ q) =
        if [top] <+: q then none else (t.entry? (place ++ top :: q)).or (t.entry? (place ++ q)) := by
  have down := ne_up_of_isToolName tool
  obtain ⟨v, moved, lifted⟩ := changeAll_moveUp h.leads there down h.once.childrenOf fun name member =>
    movable name (mem_childrenOf_inner.mp member)
  have there' : v.entry? (place ++ [top]) = some .directory := by
    rw [lifted.kept _ (by simp), there]
    intro name member
    simp [(movable name (mem_childrenOf_inner.mp member)).2.1]
  have all := lifted.all h.closed fun name there => (movable name there).2
  have removed : v.removeDirectory (home.child top) = .ok (v.without (place ++ [top])) := by
    have bare : (v.childrenOf (place ++ [top])).isEmpty = true := by
      rw [List.isEmpty_iff, List.eq_nil_iff_forall_not_mem]
      intro name
      rw [mem_childrenOf_inner, not_not]
      exact (all name []).1
    rw [removeDirectory, (h.leads.agree lifted.around).locate_child down]
    simp only [there', bare, if_true]
  refine ⟨v.without (place ++ [top]), ?_, lifted.around.trans (.without (by simp)), fun q nonempty => ?_⟩
  · rw [dissolve, toolDirectories_eq h tool there only]
    simp only [namesAt_eq (h.leads.child down there), moved, removed]
  rw [entryAt_without_below (by simp)]
  split
  · rfl
  · next own =>
    obtain ⟨name, rest, rfl⟩ := List.exists_cons_of_ne_nil nonempty
    exact (all name rest).2 fun same => own ⟨rest, by rw [same]; rfl⟩

end

/-- An entry that may be executed if it is a file. -/
def allowed : Entry → Entry
  | .directory => .directory
  | .file content _ => .file content true

/-- Is something directly in a directory a script by its name? -/
def isScript : List String → Bool
  | [name] => name.endsWith ".sh"
  | _ => false

section

variable {t u : FileTree} {home : Path} {place : Location} {names : List String}

@[simp] theorem entryAt_makeExecutable (t : FileTree) (place x : Location) :
    entry? (t.makeExecutable place) x = if x = place then (t.entry? x).map allowed else t.entry? x := by
  unfold makeExecutable
  split
  · next content executable there =>
    rw [entryAt_put (nonempty_of_vacant (by rw [there]; nofun))]
    split
    · next here =>
      rw [here, there]
      rfl
    · rfl
  · next other =>
    split
    · next here =>
      rw [here]
      cases entry : t.entry? place with
      | none => rfl
      | some found =>
          cases found with
          | directory => rfl
          | file content executable => exact absurd entry (other content executable)
    · rfl

@[simp] theorem workingDirectory_makeExecutable (t : FileTree) (place : Location) :
    (t.makeExecutable place).workingDirectory = t.workingDirectory := by
  unfold makeExecutable
  split
  · exact workingDirectory_put ..
  · rfl

theorem map_allowed (entry : Option Entry) : (entry.map allowed).map allowed = entry.map allowed := by
  rcases entry with _ | (_ | _) <;> rfl

/-- Let the files of some names in a directory be executed. -/
def allowAll (home : Path) (t : FileTree) (names : List String) : FileTree :=
  names.foldl (fun t name =>
    match t.locate (home.child name) with
    | .ok place => t.makeExecutable place
    | .error _ => t) t

theorem allowAll_eq (h : t.Leads home place) (down : ".." ∉ names) :
    AgreeAround place t (allowAll home t names) ∧ ∀ q ≠ [],
      entry? (allowAll home t names) (place ++ q) =
        if ∃ name ∈ names, q = [name] then (t.entry? (place ++ q)).map allowed
        else t.entry? (place ++ q) := by
  induction names using List.reverseRecOn with
  | nil => exact ⟨.refl place t, fun q _ => by simp [allowAll]⟩
  | append_singleton names name ih =>
      rw [List.mem_append, not_or, List.mem_singleton] at down
      obtain ⟨around, entries⟩ := ih down.1
      have next : allowAll home t (names ++ [name]) =
          (allowAll home t names).makeExecutable (place ++ [name]) := by
        rw [allowAll, List.foldl_concat, ← allowAll, (h.agree around).locate_child (Ne.symm down.2)]
      rw [next]
      refine ⟨around.trans ⟨workingDirectory_makeExecutable .., fun x outside => ?_⟩, fun q nonempty => ?_⟩
      · rw [entryAt_makeExecutable, if_neg (outside [name] (List.cons_ne_nil name []))]
      · rw [entryAt_makeExecutable, entries q nonempty]
        have either : (∃ other ∈ names ++ [name], q = [other]) ↔
            (∃ other ∈ names, q = [other]) ∨ q = [name] := by
          simp only [List.mem_append, List.mem_singleton, or_and_right, exists_or, exists_eq_left]
        rw [if_congr either rfl rfl, if_congr (List.append_right_inj place) rfl rfl]
        by_cases here : q = [name]
        · rw [if_pos here, if_pos (Or.inr here)]
          split
          · exact map_allowed _
          · rfl
        · rw [if_neg here, if_congr (or_iff_left here) rfl rfl]

theorem allowScripts_eq (h : t.Leads home place) :
    AgreeAround place t (allowScripts t home) ∧ ∀ q ≠ [],
      entry? (allowScripts t home) (place ++ q) =
        if isScript q then (t.entry? (place ++ q)).map allowed else t.entry? (place ++ q) := by
  have all : allowScripts t home =
      allowAll home t ((namesAt t home).filter fun name => name.endsWith ".sh") := rfl
  have down : ".." ∉ (namesAt t home).filter fun name => name.endsWith ".sh" := by
    rw [List.mem_filter, not_and]
    intro _
    decide +kernel
  obtain ⟨around, entries⟩ := allowAll_eq h down
  rw [all]
  refine ⟨around, fun q nonempty => (entries q nonempty).trans ?_⟩
  rw [namesAt_eq h]
  by_cases there : t.entry? (place ++ q) = none
  · rw [there, Option.map_none, ite_self, ite_self]
  refine if_congr ?_ rfl rfl
  constructor
  · rintro ⟨name, member, rfl⟩
    exact (List.mem_filter.mp member).2
  · intro script
    match q, script with
    | [name], script => exact ⟨name, List.mem_filter.mpr ⟨mem_childrenOf.mpr there, script⟩, rfl⟩

end

/-- An archive that has all it holds below one directory of the tool's name, and there nothing of that
directory's own name. -/
structure UnderOne (top : String) (entries : List (String × Content)) : Prop where
  tool : isToolName top
  below : ∀ entry ∈ entries, ∃ rest, entryNames entry.1 = top :: rest ∧ (rest = [] → isDirectoryName entry.1)
  sound : Sound entries
  apart : ∀ entry ∈ entries, ¬ [top, top] <+: entryNames entry.1

/-- The path leads to a directory that holds nothing but files, none of them with the name of the one
directory of an archive or of what is directly in that. -/
structure Receives (t : FileTree) (home : Path) (place : Location) (top : String)
    (entries : List (String × Content)) : Prop where
  located : t.locate home = .ok place
  there : t.entry? place = some .directory
  files : ∀ names ≠ [], t.entry? (place ++ names) ≠ none →
    ∃ name content executable, names = [name] ∧ t.entry? (place ++ [name]) = some (.file content executable)
  free : t.entry? (place ++ [top]) = none
  clear : ∀ entry ∈ entries, ∀ name, [top, name] <+: entryNames entry.1 → t.entry? (place ++ [name]) = none

section

variable {t : FileTree} {home : Path} {place : Location} {top : String} {entries : List (String × Content)}

/-- A directory that holds nothing but an archive can be unpacked into, if neither the one directory nor
anything directly in that has the name of the archive. -/
theorem Receives.of_archive {archive : String} (located : t.locate home = .ok place)
    (there : t.entry? place = some .directory)
    (only : ∀ names ≠ [], t.entry? (place ++ names) ≠ none →
      names = [archive] ∧
        ∃ content executable, t.entry? (place ++ [archive]) = some (.file content executable))
    (other : top ≠ archive) (apart : ∀ entry ∈ entries, ¬ [top, archive] <+: entryNames entry.1) :
    Receives t home place top entries where
  located := located
  there := there
  files names nonempty standing := by
    obtain ⟨single, content, executable, file⟩ := only names nonempty standing
    exact ⟨archive, content, executable, single, file⟩
  free := by
    by_contra standing
    exact other (List.cons_eq_cons.mp (only [top] (by simp) standing).1).1
  clear entry member name lead := by
    by_contra standing
    rw [(List.cons_eq_cons.mp (only [name] (by simp) standing).1).1] at lead
    exact apart entry member lead

theorem underOne_iff : UnderOne top entries ↔ isToolName top ∧
    (∀ entry ∈ entries, (entryNames entry.1).head? = some top ∧
      ((entryNames entry.1).tail = [] → isDirectoryName entry.1)) ∧
    Sound entries ∧ ∀ entry ∈ entries, ¬ [top, top] <+: entryNames entry.1 := by
  constructor
  · rintro ⟨tool, below, sound, apart⟩
    refine ⟨tool, fun entry member => ?_, sound, apart⟩
    obtain ⟨rest, names, directory⟩ := below entry member
    rw [names]
    exact ⟨rfl, directory⟩
  · rintro ⟨tool, below, sound, apart⟩
    refine ⟨tool, fun entry member => ?_, sound, apart⟩
    obtain ⟨begins, directory⟩ := below entry member
    obtain ⟨rest, names⟩ := List.head?_eq_some_iff.mp begins
    rw [names] at directory
    exact ⟨rest, names, directory⟩

instance (top : String) (entries : List (String × Content)) : Decidable (UnderOne top entries) :=
  decidable_of_iff _ underOne_iff.symm

theorem UnderOne.none_beside (h : UnderOne top entries) {q : List String} (nonempty : q ≠ [])
    (beside : ¬ [top] <+: q) : heldAt entries q = none := by
  by_contra held
  obtain ⟨entry, member, lead⟩ := heldAt_ne_none.mp held
  obtain ⟨rest, names, -⟩ := h.below entry member
  obtain ⟨name, q, rfl⟩ := List.exists_cons_of_ne_nil nonempty
  rw [names, List.cons_prefix_cons] at lead
  exact beside ⟨q, by rw [lead.1]; rfl⟩

theorem UnderOne.none_inside (h : UnderOne top entries) (rest : List String) :
    heldAt entries (top :: top :: rest) = none := by
  by_contra held
  obtain ⟨entry, member, lead⟩ := heldAt_ne_none.mp held
  exact h.apart entry member (List.IsPrefix.trans ⟨rest, rfl⟩ lead)

theorem UnderOne.directory (h : UnderOne top entries) (nonempty : entries ≠ []) :
    heldAt entries [top] = some .directory := by
  obtain ⟨entry, others, rfl⟩ := List.exists_cons_of_ne_nil nonempty
  have member : entry ∈ entry :: others := List.mem_cons_self ..
  obtain ⟨rest, names, -⟩ := h.below entry member
  refine (heldAt_free fun file inside there => ?_).resolve_left
    (heldAt_ne_none.mpr ⟨entry, member, names ▸ ⟨rest, rfl⟩⟩)
  obtain ⟨plain, single⟩ := isFileAt_iff.mp there
  obtain ⟨rest, names, directory⟩ := h.below file inside
  rw [single] at names
  rw [directory (List.cons_eq_cons.mp names).2.symm] at plain
  cases plain

section

variable (h : Receives t home place top entries)

include h

theorem Receives.none_inside (first second : String) (rest : List String) :
    t.entry? (place ++ first :: second :: rest) = none := by
  by_contra there
  obtain ⟨name, -, -, single, -⟩ := h.files _ (by simp) there
  cases single

theorem Receives.none_top (rest : List String) : t.entry? (place ++ top :: rest) = none := by
  cases rest with
  | nil => exact h.free
  | cons name rest => exact h.none_inside top name rest

theorem Receives.not_directory {names : List String} (nonempty : names ≠ []) :
    t.entry? (place ++ names) ≠ some .directory := by
  intro there
  obtain ⟨name, content, executable, rfl, file⟩ := h.files names nonempty (by rw [there]; nofun)
  rw [file] at there
  cases there

theorem Receives.tidy : t.Tidy home place (place ++ [top]) := by
  obtain ⟨way, ends⟩ := locate_ok_iff.mp h.located
  refine ⟨⟨way, ends.symm, fun names nonempty member => ?_, h.there⟩, fun names name there => ?_, ?_⟩
  · exact h.not_directory nonempty (way _ member)
  · obtain ⟨other, -, -, single, -⟩ := h.files _ (by simp) there
    rcases List.append_eq_singleton_iff.mp single with ⟨rfl, -⟩ | ⟨-, impossible⟩
    · rw [List.append_nil]
      exact h.there
    · cases impossible
  · have bare : (t.entries.map Prod.fst).filter (place ++ [top]).isPrefixOf = [] := by
      refine List.filter_eq_nil_iff.mpr fun x member inside => ?_
      obtain ⟨rest, rfl⟩ := List.isPrefixOf_iff_prefix.mp inside
      refine (entryAt_ne_none (by simp)).mpr member ?_
      rw [List.append_assoc]
      exact h.none_top rest
    rw [ListedOnce, bare]
    exact List.nodup_nil

/-- Once the entries stand there, what they have in their one directory comes to stand around it. -/
theorem Receives.dissolve_eq (one : UnderOne top entries) {u : FileTree}
    (tidy : u.Tidy home place (place ++ [top]))
    (held : ∀ q ≠ [], u.entry? (place ++ q) = (heldAt entries q).or (t.entry? (place ++ q))) :
    ∃ v, dissolve u home = (v, none) ∧ AgreeAround place u v ∧ ∀ q ≠ [],
      v.entry? (place ++ q) = (heldAt entries (top :: q)).or (t.entry? (place ++ q)) := by
  have beside {name : String} (other : name ≠ top) : heldAt entries [name] = none :=
    one.none_beside (by simp) (by simpa using other.symm)
  have only (name : String) (there : u.entry? (place ++ [name]) = some .directory) : name = top := by
    by_contra other
    rw [held _ (by simp), beside other, Option.none_or] at there
    exact h.not_directory (by simp) there
  by_cases bare : entries = []
  · subst bare
    have empty (q : List String) : heldAt [] q = none := by simp [heldAt]
    refine ⟨u, dissolve_none tidy fun name there => ?_, .refl place u, fun q nonempty => ?_⟩
    · rw [held _ (by simp), empty, Option.none_or] at there
      exact h.not_directory (by simp) there
    · rw [held q nonempty, empty, empty]
  have there : u.entry? (place ++ [top]) = some .directory := by
    rw [held _ (by simp), one.directory bare, Option.some_or]
  obtain ⟨v, dissolved, around, lifted⟩ := Subset.dissolve_eq tidy one.tool there only fun name inside => by
    rw [held _ (by simp), h.none_inside, Option.or_none] at inside
    obtain ⟨entry, member, lead⟩ := heldAt_ne_none.mp inside
    have down : name ≠ ".." := by
      rintro rfl
      exact not_up_mem_entryNames entry.1 (lead.subset (by simp))
    have other : name ≠ top := by
      rintro rfl
      exact one.apart entry member lead
    refine ⟨down, other, ?_⟩
    rw [held _ (by simp), beside other, h.clear entry member name lead, Option.none_or]
  refine ⟨v, dissolved, around, fun q nonempty => ?_⟩
  obtain ⟨name, rest, rfl⟩ := List.exists_cons_of_ne_nil nonempty
  rw [lifted _ nonempty]
  split
  · next own =>
    obtain ⟨rfl, -⟩ := List.cons_prefix_cons.mp own
    rw [one.none_inside, h.none_top, Option.none_or]
  · next other =>
    rw [held _ (by simp), h.none_inside, Option.or_none, held _ nonempty, one.none_beside nonempty other,
      Option.none_or]

theorem Receives.unpack_eq (one : UnderOne top entries) :
    ∃ u, unpack t home entries = (u, none) ∧ AgreeAround place t u ∧ ∀ q ≠ [],
      u.entry? (place ++ q) =
        let held := (heldAt entries (top :: q)).or (t.entry? (place ++ q))
        if isScript q then held.map allowed else held := by
  obtain ⟨u, unpacked, around, tidy, held⟩ := changeAll_unpackEntry h.tidy one.sound
    (fun entry member named => by
      obtain ⟨rest, names, -⟩ := one.below entry member
      rw [names] at named
      cases named)
    (fun entry member q nonempty lead => by
      obtain ⟨rest, names, -⟩ := one.below entry member
      obtain ⟨name, q, rfl⟩ := List.exists_cons_of_ne_nil nonempty
      rw [names, List.cons_prefix_cons] at lead
      rw [lead.1]
      exact h.none_top q)
  obtain ⟨v, dissolved, around', flat⟩ := h.dissolve_eq one tidy held
  have leads := tidy.leads.agree around'
  obtain ⟨around'', scripts⟩ := allowScripts_eq leads
  refine ⟨allowScripts v home, ?_, (around.trans around').trans around'', fun q nonempty => ?_⟩
  · rw [unpack, unpacked]
    simp only [dissolved]
  · rw [scripts q nonempty, flat q nonempty]

end

end

/-- A release that has one directory for all is unpacked without loss: in the end the tool's directory holds,
beside what was in it, just what the archive has below that one directory, with scripts made executable, and
the one directory is gone. -/
theorem unpackArchive_flattens (tool : Tool) (w : Workspace) {place : Location} {top : String}
    {entries : List (String × Content)} (receives : Receives w.files tool.home place top entries)
    (one : UnderOne top entries) :
    ∃ u, (tool.unpackArchive (.entries entries)).run w = (.ok (), { w with files := u }) ∧
      AgreeAround place w.files u ∧
      (∀ q ≠ [], u.entry? (place ++ q) =
        let held := (heldAt entries (top :: q)).or (w.files.entry? (place ++ q))
        if isScript q then held.map allowed else held) ∧
      u.entry? (place ++ [top]) = none ∧
      (tool.isInstalled u ↔ tool.isInstalled w.files ∨ heldAt entries [top, "jailer.sh"] ≠ none) := by
  obtain ⟨u, unpacked, around, held⟩ := receives.unpack_eq one
  have found {t : FileTree} (leads : t.Leads tool.home place) :
      tool.isInstalled t ↔ t.entry? (place ++ ["jailer.sh"]) ≠ none := by
    rw [Tool.isInstalled, has, find?, Tool.script, leads.locate_child (by decide)]
    exact Option.isSome_iff_ne_none
  refine ⟨u, ?_, around, held, ?_, ?_⟩
  · rw [Tool.unpackArchive]
    simp only [Job.run_bind, Job.run_files, Job.run_modify, unpacked]
    rfl
  · rw [held _ (by simp), one.none_inside, receives.free]
    simp
  · have leads := receives.tidy.leads
    rw [found leads, found (leads.agree around), held _ (by simp)]
    split <;> simp only [ne_eq, Option.map_eq_none_iff, Option.or_eq_none_iff, not_and_or, or_comm]

/-- A release whose children have names like that of its one directory. -/
def namesakes : List (String × Content) :=
  [("Jailer_16/", .text ""), ("Jailer_16/jailer.sh", .text "run"),
    ("Jailer_16/jailer/jailer.jar", .bytes [0x50, 0x4B, 0x03, 0x04]),
    ("Jailer_16/JailerLib.sh/doc.txt", .text "help")]

/-- The directory of the tool with the archive of a release. -/
def downloaded : FileTree :=
  { entries := [(["jailer"], .directory), (["jailer", "jailer.zip"], .file (.bytes []) false)] }

def sampleTool : Tool :=
  ⟨.ofText "/jailer", "16"⟩

theorem only_zip {names : List String} (nonempty : names ≠ [])
    (there : downloaded.entry? (["jailer"] ++ names) ≠ none) : names = ["jailer.zip"] := by
  rw [entryAt_ne_none (by simp)] at there
  simpa [downloaded, nonempty] using there

theorem namesakes_flattened :
    Receives downloaded sampleTool.home ["jailer"] "Jailer_16" namesakes ∧ UnderOne "Jailer_16" namesakes ∧
    ∃ u, (sampleTool.unpackArchive (.entries namesakes)).run { files := downloaded } =
        (.ok (), { files := u }) ∧
      u.entry? ["jailer", "jailer.sh"] = some (.file (.text "run") true) ∧
      u.entry? ["jailer", "jailer", "jailer.jar"] = some (.file (.bytes [0x50, 0x4B, 0x03, 0x04]) false) ∧
      u.entry? ["jailer", "Jailer_16"] = none ∧ sampleTool.isInstalled u := by
  obtain ⟨located, there, apart, one, ending, script, library⟩ :
      downloaded.locate sampleTool.home = .ok ["jailer"] ∧ downloaded.entry? ["jailer"] = some .directory ∧
        (∀ entry ∈ namesakes, ¬ ["Jailer_16", "jailer.zip"] <+: entryNames entry.1) ∧
        UnderOne "Jailer_16" namesakes ∧ isScript ["jailer.sh"] ∧
        heldAt namesakes ["Jailer_16", "jailer.sh"] = some (.file (.text "run") false) ∧
        heldAt namesakes ["Jailer_16", "jailer", "jailer.jar"] =
          some (.file (.bytes [0x50, 0x4B, 0x03, 0x04]) false) := by
    decide +kernel
  have receives : Receives downloaded sampleTool.home ["jailer"] "Jailer_16" namesakes :=
    .of_archive located there (fun names nonempty there => ⟨only_zip nonempty there, _, _, rfl⟩) (by decide)
      apart
  obtain ⟨u, run, -, held, gone, installed⟩ :=
    unpackArchive_flattens sampleTool { files := downloaded } receives one
  refine ⟨receives, one, u, run, ?_, ?_, gone, installed.mpr (.inr (by rw [script]; nofun))⟩
  · refine (held ["jailer.sh"] (by decide)).trans ?_
    rw [script, ending]
    rfl
  · refine (held ["jailer", "jailer.jar"] (by decide)).trans ?_
    rw [library]
    rfl

/-- A release whose one directory has the name of its archive. -/
def archiveNamesake : List (String × Content) :=
  [("jailer.zip/jailer.sh", .text "run")]

/-- A release whose one directory has the name of its archive is not unpacked, as the archive stands in its
place. -/
theorem archiveNamesake_refused :
    UnderOne "jailer.zip" archiveNamesake ∧ downloaded.childrenOf ["jailer"] = ["jailer.zip"] ∧
    heldAt archiveNamesake ["jailer.zip", "jailer.zip"] = none ∧
    heldAt archiveNamesake ["jailer.zip", "jailer.sh"] = some (.file (.text "run") false) ∧
    ((sampleTool.unpackArchive (.entries archiveNamesake)).run { files := downloaded }).1 =
      .error (.file (.about .notADirectory (.ofText "/jailer/jailer.zip/jailer.sh"))) ∧
    ((sampleTool.unpackArchive (.entries archiveNamesake)).run { files := downloaded }).2.files.entry?
      ["jailer", "jailer.sh"] = none := by
  decide +kernel

end QueryHarvest.Subset
