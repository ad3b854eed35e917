import QueryHarvest.Proofs.Sql.References

/-! # The tables of a statement

A text has the tables that it refers to, but for reserved words and for references that are hidden. They
stand in the order in which they are first found.
-/

namespace QueryHarvest.Sql

open Text

/-- A keyword, a gap and a name one behind the other, and the text around them. -/
structure Reference where
  keyword : List Char
  front : List Char
  spelled : List Char
  gap : List Char
  name : List Char
  rest : List Char

namespace Reference

/-- The reference stands in a text: the keyword begins a word, and the name is not cut off. -/
structure Stands (r : Reference) (text : List Char) : Prop where
  text_eq : text = r.front ++ (r.spelled ++ (r.gap ++ (r.name ++ r.rest)))
  known : r.keyword ∈ tableKeywords
  begins : isWord? r.front.getLast? = false
  lead : Lead r.keyword r.spelled r.gap
  whole : WholeName r.name r.rest

/-- What the search for the keyword finds at the reference, if it comes there. -/
def found (r : Reference) : Match (List Char) where
  place := ⟨r.front.getLast?, r.spelled ++ (r.gap ++ (r.name ++ r.rest))⟩
  value := r.name
  after := ⟨r.name.getLast?, r.rest⟩

/-- The search for the keyword finds the reference. -/
def Matched (r : Reference) (text : List Char) : Prop :=
  r.found ∈ (referencePattern [r.keyword]).allIn text

/-- The table that is referred to. -/
def table (r : Reference) : String :=
  String.ofList (lower r.name)

/-- References are ordered by keyword, and those with the same keyword by their places. -/
def order (r : Reference) : Nat ×ₗ Nat :=
  toLex (tableKeywords.idxOf r.keyword, r.front.length)

/-- The reference is the first of the matched ones that are to a table. -/
structure FirstTo (r : Reference) (text : List Char) (table : String) : Prop where
  stands : r.Stands text
  matched : r.Matched text
  table_eq : r.table = table
  least : ∀ q : Reference, q.Stands text → q.Matched text → q.table = table → r.order ≤ q.order

end Reference

/-- The matches of every keyword in a text, in the order in which they are found. -/
def matchesIn (text : List Char) : List (List Char × Match (List Char)) :=
  tableKeywords.flatMap fun keyword => ((referencePattern [keyword]).allIn text).map (keyword, ·)

/-- Where a match stands among all matches in a text. -/
def orderIn (text : List Char) (m : List Char × Match (List Char)) : Nat ×ₗ Nat :=
  toLex (tableKeywords.idxOf m.1, text.length - m.2.place.rest.length)

/-- The table that a match names. -/
def tableOf (m : List Char × Match (List Char)) : String :=
  String.ofList (lower m.2.value)

section

variable {text : List Char} {r : Reference} {m : List Char × Match (List Char)}

theorem mem_matchesIn {keyword : List Char} {found : Match (List Char)} :
    (keyword, found) ∈ matchesIn text ↔
      keyword ∈ tableKeywords ∧ found ∈ (referencePattern [keyword]).allIn text := by
  simp [matchesIn]

theorem ascending_matchesIn (text : List Char) :
    (matchesIn text).Pairwise fun m m' => orderIn text m < orderIn text m' := by
  refine List.pairwise_flatMap.mpr ⟨fun keyword _ => List.pairwise_map.mpr ?_, ?_⟩
  · have inside : ∀ found ∈ (referencePattern [keyword]).allIn text,
        found.place.rest.length ≤ text.length := by
      intro found member
      obtain ⟨-, front, passed⟩ := Pattern.match?_of_mem_findAll (advances_reference _) member
      have length := passed.length
      simp only [Cursor.start] at length
      omega
    refine (Pattern.pairwise_findAll (advances_reference _) (Cursor.start text)).imp_of_mem ?_
    intro m m' member member' behind
    have := inside m member
    have := inside m' member'
    exact Prod.Lex.toLex_lt_toLex.mpr (.inr ⟨rfl, by simp only; omega⟩)
  · have apart : tableKeywords.Pairwise fun k k' => tableKeywords.idxOf k < tableKeywords.idxOf k' := by
      decide
    refine apart.imp fun earlier => ?_
    rintro _ member _ member'
    obtain ⟨m, -, rfl⟩ := List.mem_map.mp member
    obtain ⟨m', -, rfl⟩ := List.mem_map.mp member'
    exact Prod.Lex.toLex_lt_toLex.mpr (.inl earlier)

theorem passes_found (stands : r.Stands text) :
    (Cursor.start text).Passes r.front r.found.place := by
  rw [stands.text_eq]
  exact Cursor.passes_start _ _

theorem order_eq (stands : r.Stands text) : r.order = orderIn text (r.keyword, r.found) := by
  have length := (passes_found stands).length
  simp only [Cursor.start] at length
  rw [Reference.order, orderIn, length, Nat.add_sub_cancel]

theorem match?_found (stands : r.Stands text) :
    (referencePattern [r.keyword]).match? r.found.place = some (r.name, r.found.after) := by
  refine match?_reference_iff.mpr ⟨stands.begins, r.spelled, r.gap, stands.lead, ⟨?_, ?_⟩, stands.whole⟩
  · simp [Reference.found]
  · rw [stands.whole.getLast?_append]
    rfl

/-- Every match is that of a reference. -/
theorem exists_reference (member : m ∈ matchesIn text) :
    ∃ r : Reference, r.Stands text ∧ (r.keyword, r.found) = m := by
  obtain ⟨keyword, place, name, after⟩ := m
  obtain ⟨known, member⟩ := mem_matchesIn.mp member
  obtain ⟨hit, front, reached⟩ := Pattern.match?_of_mem_findAll (advances_reference _) member
  obtain ⟨begins, spelled, gap, lead, read, whole⟩ := match?_reference_iff.mp hit
  have text_eq : text = front ++ place.rest := reached.rest
  have place_rest : place.rest = spelled ++ (gap ++ (name ++ after.rest)) := by
    rw [read.rest, List.append_assoc, List.append_assoc]
  have place_before : place.before = front.getLast? := by
    rw [reached.before, Cursor.start, Option.or_none]
  have after_before : after.before = name.getLast? := by
    rw [read.before, whole.getLast?_append]
  refine ⟨⟨keyword, front, spelled, gap, name, after.rest⟩, ⟨?_, known, ?_, lead, whole⟩, ?_⟩
  · rw [text_eq, place_rest]
  · rwa [place_before] at begins
  · rw [Reference.found, ← place_before, ← place_rest, ← after_before]

theorem matched_iff (stands : r.Stands text) : r.Matched text ↔ (r.keyword, r.found) ∈ matchesIn text := by
  rw [mem_matchesIn, Reference.Matched, and_iff_right stands.known]

/-- A reference that is not hidden is matched. -/
theorem matched_unless_hidden (stands : r.Stands text) (clear : ¬ Hidden r.keyword r.front) :
    r.Matched text :=
  found_unless_hidden stands.known (passes_found stands) (match?_found stands) clear

/-- The matches that name no reserved word. -/
def unreservedIn (text : List Char) : List (List Char × Match (List Char)) :=
  (matchesIn text).filter fun m => !isReservedName (tableOf m)

theorem tablesIn_matches (text : List Char) :
    tablesIn text = ((unreservedIn text).map tableOf).eraseDups := by
  have names : (tableKeywords.flatMap fun keyword => namesBehind text [keyword]) =
      (matchesIn text).map tableOf := by
    rw [matchesIn, List.map_flatMap]
    simp only [List.map_map]
    rfl
  rw [tablesIn_eq, names, List.filter_map, unreservedIn]
  rfl

theorem not_reserved_iff {name : String} : (!isReservedName name) = true ↔ name ∉ reservedWords := by
  simp [isReservedName]

theorem mem_unreservedIn :
    m ∈ unreservedIn text ↔ m ∈ matchesIn text ∧ tableOf m ∉ reservedWords := by
  rw [unreservedIn, List.mem_filter, not_reserved_iff]

theorem ascending_unreservedIn (text : List Char) :
    (unreservedIn text).Pairwise fun m m' => orderIn text m < orderIn text m' :=
  (ascending_matchesIn text).filter _

/-- The first of the unreserved matches with a table is the first reference to it. -/
theorem exists_firstTo {table : String} (known : table ∈ (unreservedIn text).map tableOf) :
    ∃ r : Reference, r.FirstTo text table ∧
      (unreservedIn text)[((unreservedIn text).map tableOf).idxOf table]? = some (r.keyword, r.found) := by
  generalize index : ((unreservedIn text).map tableOf).idxOf table = i
  have inside : i < ((unreservedIn text).map tableOf).length := index ▸ List.idxOf_lt_length_iff.mpr known
  have bound : i < (unreservedIn text).length := by rwa [List.length_map] at inside
  have named : tableOf (unreservedIn text)[i] = table := by
    rw [← List.getElem_map tableOf (h := inside)]
    subst index
    exact List.getElem_idxOf inside
  have found := List.getElem_mem bound
  obtain ⟨r, stands, same⟩ := exists_reference (mem_unreservedIn.mp found).1
  rw [← same] at named found
  have unreserved : table ∉ reservedWords := named ▸ (mem_unreservedIn.mp found).2
  refine ⟨r, ⟨stands, (matched_iff stands).mpr (mem_unreservedIn.mp found).1, named, ?_⟩, ?_⟩
  · intro q stands' matched' named'
    replace named' : tableOf (q.keyword, q.found) = table := named'
    obtain ⟨j, here, there⟩ := List.getElem_of_mem
      (mem_unreservedIn.mpr ⟨(matched_iff stands').mp matched', named' ▸ unreserved⟩)
    rw [order_eq stands, order_eq stands', same, ← there]
    rcases Nat.lt_trichotomy i j with earlier | rfl | later
    · exact (List.pairwise_iff_getElem.mp (ascending_unreservedIn text) _ _ _ _ earlier).le
    · exact le_rfl
    · -- the table would have come before
      subst index
      have other := List.not_of_lt_findIdx later
      rw [List.getElem_map, there] at other
      exact absurd named' (by simpa using other)
  · rw [same]
    exact List.getElem?_eq_getElem bound

end

/-- What the tables in a text are: each once and no reserved word, named by a reference; all but the
reserved words that a reference names which is not hidden; in the order of the first references to them.
Every reference that is not hidden is among those that are matched. -/
structure Exact (text : List Char) (tables : List String) : Prop where
  nodup : tables.Nodup
  found : ∀ r : Reference, r.Stands text → ¬ Hidden r.keyword r.front → r.Matched text
  sound : ∀ table ∈ tables, table ∉ reservedWords ∧ ∃ r : Reference, r.FirstTo text table
  complete : ∀ r : Reference, r.Stands text → ¬ Hidden r.keyword r.front → r.table ∉ reservedWords →
    r.table ∈ tables
  ordered : tables.Pairwise fun a b =>
    ∃ r q : Reference, r.FirstTo text a ∧ q.FirstTo text b ∧ r.order < q.order

/-- The tables of a statement are exactly those that its normal form refers to. -/
theorem tables_exact (statement : String) : Exact (normalForm statement.toList) (tables statement) := by
  rw [tables, tablesIn_matches]
  generalize normalForm statement.toList = text
  refine ⟨nodup_eraseDups _, fun r stands clear => matched_unless_hidden stands clear, ?_, ?_, ?_⟩
  · intro table member
    have known := List.mem_eraseDups.mp member
    obtain ⟨m, found, rfl⟩ := List.mem_map.mp known
    obtain ⟨r, first, -⟩ := exists_firstTo known
    exact ⟨(mem_unreservedIn.mp found).2, r, first⟩
  · intro r stands clear unreserved
    have matched := (matched_iff stands).mp (matched_unless_hidden stands clear)
    exact List.mem_eraseDups.mpr (List.mem_map.mpr ⟨_, mem_unreservedIn.mpr ⟨matched, unreserved⟩, rfl⟩)
  · refine (pairwise_idxOf_eraseDups _).imp_of_mem fun {a b} ha hb earlier => ?_
    obtain ⟨r, first, here⟩ := exists_firstTo (List.mem_eraseDups.mp ha)
    obtain ⟨q, first', there⟩ := exists_firstTo (List.mem_eraseDups.mp hb)
    refine ⟨r, q, first, first', ?_⟩
    rw [order_eq first.stands, order_eq first'.stands]
    obtain ⟨_, here⟩ := List.getElem?_eq_some_iff.mp here
    obtain ⟨_, there⟩ := List.getElem?_eq_some_iff.mp there
    rw [← here, ← there]
    exact List.pairwise_iff_getElem.mp (ascending_unreservedIn text) _ _ _ _ earlier

/-- A keyword behind itself, or behind a point, is taken for a table and hides the one it refers to. -/
example : tables "DELETE FROM from t JOIN a.join b" = ["from", "a.join"] := by decide +kernel

end QueryHarvest.Sql
