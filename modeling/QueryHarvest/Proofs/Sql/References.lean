import QueryHarvest.Proofs.Distinct
import QueryHarvest.Proofs.Text.Characters
import QueryHarvest.Proofs.Text.Overlap
import QueryHarvest.Sql.Table

/-! # References to tables

A text refers to a table where a keyword, a gap and a name stand one behind the other. The search for a
keyword finds its references without overlap, so one may be hidden by an earlier one: by its name, when
the keyword stands behind the point in it, or by its keyword, when that is repeated. No other is lost. In
particular, what is deleted from a table is found behind the `FROM` alone.
-/

namespace QueryHarvest.Sql

open Text

/-- The keywords that a table is named behind when they stand on their own. -/
def tableKeywords : List (List Char) :=
  [['f', 'r', 'o', 'm'], ['j', 'o', 'i', 'n'], ['i', 'n', 't', 'o'], ['u', 'p', 'd', 'a', 't', 'e']]

/-- The keywords of a deletion, which name a table together. -/
def deletionKeywords : List (List Char) :=
  [['d', 'e', 'l', 'e', 't', 'e'], ['f', 'r', 'o', 'm']]

theorem referenceKeywords_eq :
    referenceKeywords = (tableKeywords.map fun keyword => [keyword]) ++ [deletionKeywords] :=
  rfl

/-- A keyword, in whatever case it is spelled, and the gap behind it. -/
structure Lead (keyword spelled gap : List Char) : Prop where
  folds : spelled.map foldLetter = keyword
  nonempty : gap ≠ []
  blank : ∀ x ∈ gap, isBlank x

/-- The name of a table in front of the rest of a text: an identifier, and a second one behind a point
where there is one. -/
inductive WholeName : List Char → List Char → Prop where
  | plain {name rest : List Char} (identifier : isIdentifier name) (ends : Stops isIdentPart rest)
      (alone : ∀ more, rest = '.' :: more → Stops isIdentStart more) : WholeName name rest
  | qualified {first second rest : List Char} (first_identifier : isIdentifier first)
      (second_identifier : isIdentifier second) (ends : Stops isIdentPart rest) :
      WholeName (first ++ '.' :: second) rest

section

variable {keyword spelled gap name rest : List Char}

theorem alpha_of_mem (known : keyword ∈ tableKeywords) : ∀ x ∈ keyword, x.isAlpha := by
  have alpha : tableKeywords.all fun keyword => keyword.all Char.isAlpha := by rfl
  exact List.all_eq_true.mp (List.all_eq_true.mp alpha keyword known)

theorem nonempty_of_mem (known : keyword ∈ tableKeywords) : keyword ≠ [] := by
  rintro rfl
  simp [tableKeywords] at known

theorem Lead.start (lead : Lead keyword spelled gap) (alpha : ∀ x ∈ keyword, x.isAlpha) :
    ∀ x ∈ spelled, isIdentStart x := by
  intro x member
  have letter : foldLetter x ∈ keyword := lead.folds ▸ List.mem_map_of_mem member
  rw [isIdentStart, alpha _ letter, Bool.true_or]

theorem WholeName.part (h : WholeName name rest) : ∀ x ∈ name, x = '.' ∨ isIdentPart x := by
  intro x member
  cases h with
  | plain identifier => exact .inr (isIdentPart_of_mem identifier x member)
  | qualified first second =>
      rcases List.mem_append.mp member with inside | inside
      · exact .inr (isIdentPart_of_mem first x inside)
      · rcases List.mem_cons.mp inside with point | inside
        · exact .inl point
        · exact .inr (isIdentPart_of_mem second x inside)

theorem WholeName.start (h : WholeName name rest) : ∃ x more, name = x :: more ∧ isIdentStart x := by
  have begins {text : List Char} (identifier : isIdentifier text) :
      ∃ x more, text = x :: more ∧ isIdentStart x := by
    cases text with
    | nil => contradiction
    | cons x more => exact ⟨x, more, rfl, (Bool.and_eq_true_iff.mp identifier).1⟩
  cases h with
  | plain identifier => exact begins identifier
  | qualified first =>
      obtain ⟨x, more, rfl, start⟩ := begins first
      exact ⟨x, _, rfl, start⟩

/-- Behind a reference stands the last character of the name. -/
theorem WholeName.getLast?_append (h : WholeName name rest) (spelled gap : List Char)
    (before : Option Char) : (spelled ++ (gap ++ name)).getLast?.or before = name.getLast? := by
  obtain ⟨x, more, rfl, -⟩ := h.start
  simp [List.getLast?_cons]

theorem readSecondName?_none_iff {c : Cursor} :
    Piece.readSecondName? c = none ↔ ∀ more, c.rest = '.' :: more → Stops isIdentStart more := by
  obtain ⟨before, text⟩ := c
  constructor
  · rintro missed more rfl
    exact (Cursor.identifier?_eq_none_iff (c := ⟨some '.', more⟩)).mp missed
  · intro alone
    cases text with
    | nil => rfl
    | cons x text =>
        by_cases point : x = '.'
        · subst point
          exact (Cursor.identifier?_eq_none_iff (c := ⟨some '.', text⟩)).mpr (alone text rfl)
        · have missed : Cursor.one? (· == '.') ⟨before, x :: text⟩ = none := by
            simp [point]
          rw [Piece.readSecondName?, missed]
          rfl

theorem passes_readName? {c after : Cursor} (h : Piece.readName? c = some (name, after)) :
    c.Passes name after ∧ WholeName name after.rest := by
  obtain ⟨⟨first, d⟩, named, h⟩ := Option.bind_eq_some_iff.mp h
  obtain ⟨passed, identifier, ends⟩ := Cursor.passes_identifier? named
  simp only at h
  split at h
  · next second after' more =>
    cases h
    obtain ⟨e, point, more⟩ := Option.bind_eq_some_iff.mp more
    obtain ⟨x, here, same⟩ := Cursor.passes_one? point
    obtain ⟨onwards, identifier', ends'⟩ := Cursor.passes_identifier? more
    cases eq_of_beq same
    exact ⟨passed.trans (here.trans onwards), .qualified identifier identifier' ends'⟩
  · next alone =>
    cases h
    exact ⟨passed, .plain identifier ends (readSecondName?_none_iff.mp alone)⟩

theorem readName?_append (before : Option Char) (h : WholeName name rest) :
    Piece.readName? ⟨before, name ++ rest⟩ = some (name, ⟨name.getLast?, rest⟩) := by
  cases h with
  | plain identifier ends alone =>
      have missed : Piece.readSecondName? ⟨name.getLast?, rest⟩ = none :=
        readSecondName?_none_iff.mpr alone
      rw [Piece.readName?, Cursor.identifier?_append identifier ends]
      simp only [Option.bind_eq_bind, Option.bind_some, missed]
      rfl
  | @qualified first second _ first_identifier second_identifier ends =>
      have named : Cursor.identifier? ⟨before, first ++ '.' :: (second ++ rest)⟩ =
          some (first, ⟨first.getLast?, '.' :: (second ++ rest)⟩) :=
        Cursor.identifier?_append first_identifier (stops_cons (by decide))
      have more : Piece.readSecondName? ⟨first.getLast?, '.' :: (second ++ rest)⟩ =
          some (second, ⟨second.getLast?, rest⟩) := by
        rw [Piece.readSecondName?, Cursor.one?_of_passes (by rfl)]
        exact Cursor.identifier?_append second_identifier ends
      have last : (first ++ '.' :: second).getLast? = second.getLast? := by
        cases second with
        | nil => contradiction
        | cons x second => simp [List.getLast?_cons]
      rw [List.append_assoc, List.cons_append, Piece.readName?, named]
      simp only [Option.bind_eq_bind, Option.bind_some, more, last]
      rfl

theorem read_lead {c : Cursor} {shape : Shape} {notes : Notes} {result : Notes × Cursor}
    (h : Shape.read? notes c (.word keyword :: .gap :: shape) = some result) :
    ∃ spelled gap d, Lead keyword spelled gap ∧ c.Passes (spelled ++ gap) d ∧
      Shape.read? notes d shape = some result := by
  obtain ⟨⟨_, d⟩, word, h⟩ := Option.bind_eq_some_iff.mp h
  obtain ⟨_, spelled, same⟩ := Option.map_eq_some_iff.mp word
  cases same
  obtain ⟨⟨_, e⟩, blanks, h⟩ := Option.bind_eq_some_iff.mp h
  obtain ⟨⟨gap, _⟩, spanned, same⟩ := Option.map_eq_some_iff.mp blanks
  cases same
  obtain ⟨read, passed, folds⟩ := Cursor.passes_keyword? spelled
  obtain ⟨onwards, nonempty, blank, -⟩ := Cursor.passes_span1? spanned
  exact ⟨read, gap, e, ⟨folds, nonempty, blank⟩, passed.trans onwards, h⟩

theorem passes_referenceShape {keywords : List (List Char)} {c after : Cursor} {notes notes' : Notes}
    (h : (referenceShape keywords).read? notes c = some (notes', after)) :
    ∃ read, c.Passes read after := by
  induction keywords generalizing c with
  | nil =>
      obtain ⟨⟨_, d⟩, named, h⟩ := Option.bind_eq_some_iff.mp h
      obtain ⟨⟨name, _⟩, read, same⟩ := Option.map_eq_some_iff.mp named
      cases same
      cases h
      exact ⟨name, (passes_readName? read).1⟩
  | cons keyword keywords ih =>
      obtain ⟨spelled, gap, d, -, passed, later⟩ := read_lead h
      obtain ⟨read, onwards⟩ := ih later
      exact ⟨_, passed.trans onwards⟩

theorem match?_reference_eq_some {keywords : List (List Char)} {c after : Cursor} :
    (referencePattern keywords).match? c = some (name, after) ↔
      isWord? c.before = false ∧
        ∃ notes, (referenceShape keywords).read? {} c = some (notes, after) ∧ notes.text = name := by
  cases apart : isWord? c.before with
  | true => simp [referencePattern, Cursor.beginsWord, apart]
  | false =>
      simp only [referencePattern, Cursor.beginsWord, apart, Bool.not_false, if_true, true_and,
        Option.map_eq_some_iff, Prod.mk.injEq, Prod.exists]
      constructor
      · rintro ⟨notes, _, read, same, rfl⟩
        exact ⟨notes, read, same⟩
      · rintro ⟨notes, read, same⟩
        exact ⟨notes, after, read, same, rfl⟩

theorem advances_reference (keywords : List (List Char)) : (referencePattern keywords).Advances := by
  intro c after name matched
  obtain ⟨-, notes, read, -⟩ := match?_reference_eq_some.mp matched
  exact passes_referenceShape read

/-- A reference is a keyword at the front of a word, a gap and a name. -/
theorem match?_reference_iff {c after : Cursor} :
    (referencePattern [keyword]).match? c = some (name, after) ↔
      isWord? c.before = false ∧ ∃ spelled gap, Lead keyword spelled gap ∧
        c.Passes (spelled ++ (gap ++ name)) after ∧ WholeName name after.rest := by
  rw [match?_reference_eq_some]
  refine and_congr_right fun apart => ?_
  constructor
  · rintro ⟨notes, read, rfl⟩
    obtain ⟨spelled, gap, d, lead, passed, read⟩ := read_lead read
    obtain ⟨⟨_, e⟩, named, h⟩ := Option.bind_eq_some_iff.mp read
    obtain ⟨⟨name, _⟩, read, same⟩ := Option.map_eq_some_iff.mp named
    cases same
    cases h
    obtain ⟨onwards, whole⟩ := passes_readName? read
    exact ⟨spelled, gap, lead, List.append_assoc .. ▸ passed.trans onwards, whole⟩
  · rintro ⟨spelled, gap, ⟨rfl, nonempty, blank⟩, passed, whole⟩
    obtain ⟨before, text⟩ := c
    obtain ⟨x, more, same, start⟩ := whole.start
    have shown : text = spelled ++ (gap ++ (name ++ after.rest)) := by
      rw [← List.append_assoc gap, ← List.append_assoc spelled]
      exact passed.rest
    have last : after = ⟨name.getLast?, after.rest⟩ := by
      rw [← whole.getLast?_append spelled gap before, ← passed.before]
    have visible : Stops isBlank (name ++ after.rest) := by
      rw [same]
      exact stops_cons (isBlank_of_isIdentPart (isIdentPart_of_isIdentStart start))
    refine ⟨{ text := name }, ?_, rfl⟩
    change Shape.read? {} _ [.word _, .gap, .name] = _
    rw [shown, last]
    simp only [Shape.read?, Piece.read?, Cursor.keyword?_append, Option.map_some, Option.bind_some,
      Cursor.span1?_append nonempty blank visible, readName?_append _ whole]

/-- What in front of a keyword can hide the reference: a point, or the keyword itself and a gap. -/
def Hidden (keyword front : List Char) : Prop :=
  front.getLast? = some '.' ∨
    ∃ before spelled gap, front = before ++ (spelled ++ gap) ∧ isWord? before.getLast? = false ∧
      Lead keyword spelled gap

/-- Inside a reference a word begins only at the name, and in the name only behind the point. -/
theorem word_inside_reference {inside past : List Char} (lead : Lead keyword spelled gap)
    (alpha : ∀ x ∈ keyword, x.isAlpha) (whole : WholeName name rest) (earlier : inside ≠ [])
    (apart : isWord? inside.getLast? = false) (visible : Stops isBlank past)
    (same : inside ++ past = spelled ++ (gap ++ name)) :
    inside.getLast? = some '.' ∨ inside = spelled ++ gap := by
  rcases List.append_eq_append_iff.mp same with ⟨more, rfl, -⟩ | ⟨behind, rfl, behind_same⟩
  · -- the keyword would go on in front of the word
    have word : isWord? inside.getLast? := isWord?_getLast? earlier fun x member =>
      isWord_of_isIdentPart <| isIdentPart_of_isIdentStart <|
        lead.start alpha x (List.mem_append_left _ member)
    rw [apart] at word
    contradiction
  rcases List.append_eq_append_iff.mp behind_same with ⟨begun, rfl, rfl⟩ | ⟨blanks, rfl, rfl⟩
  · cases last : begun.getLast? with
    | none =>
        rw [List.getLast?_eq_none_iff.mp last]
        exact .inr (by rw [List.append_nil])
    | some x =>
        have ends : (spelled ++ (gap ++ begun)).getLast? = some x := by
          rw [List.getLast?_append, List.getLast?_append, last, Option.some_or, Option.some_or]
        rcases whole.part x (List.mem_append_left _ (List.mem_of_getLast? last)) with rfl | part
        · exact .inl ends
        · rw [ends, isWord?, isWord_of_isIdentPart part] at apart
          contradiction
  · cases blanks with
    | nil => exact .inr (by rw [List.append_nil])
    | cons x blanks =>
        have blank : isBlank x := lead.blank x (by simp)
        rw [visible x rfl] at blank
        contradiction

/-- Where a reference begins, a word begins. -/
theorem stops_blank_of_matched (known : keyword ∈ tableKeywords) {place after : Cursor}
    (matched : (referencePattern [keyword]).match? place = some (name, after)) :
    Stops isBlank place.rest := by
  obtain ⟨-, spelled, gap, lead, passed, -⟩ := match?_reference_iff.mp matched
  rw [passed.rest]
  cases spelled with
  | nil => exact absurd lead.folds.symm (nonempty_of_mem known)
  | cons x spelled =>
      have start := lead.start (alpha_of_mem known) x (List.mem_cons_self ..)
      exact stops_cons (isBlank_of_isIdentPart (isIdentPart_of_isIdentStart start))

/-- A reference is found unless it is hidden. -/
theorem found_unless_hidden (known : keyword ∈ tableKeywords) {text front : List Char}
    {place after : Cursor} (passed : (Cursor.start text).Passes front place)
    (matched : (referencePattern [keyword]).match? place = some (name, after))
    (clear : ¬ Hidden keyword front) :
    ⟨place, name, after⟩ ∈ (referencePattern [keyword]).allIn text := by
  rcases Pattern.mem_findAll_or_goesPast (advances_reference _) passed matched with
    found | ⟨m, found, before, inside, rfl, reached, earlier, onwards, past, later, beyond⟩
  · exact found
  refine absurd ?_ clear
  have hit := (Pattern.match?_of_mem_findAll (advances_reference _) found).1
  obtain ⟨begins, spelled, gap, lead, read, whole⟩ := match?_reference_iff.mp hit
  have same : inside ++ past = spelled ++ (gap ++ m.value) :=
    List.append_cancel_right ((onwards.trans beyond).rest.symm.trans read.rest)
  have apart : isWord? inside.getLast? = false := by
    rw [← onwards.before_eq earlier]
    exact (match?_reference_iff.mp matched).1
  have visible : Stops isBlank past := by
    have here := stops_blank_of_matched known matched
    rw [beyond.rest] at here
    cases past with
    | nil => contradiction
    | cons x past => exact here
  rcases word_inside_reference lead (alpha_of_mem known) whole earlier apart visible same with
    point | rfl
  · exact .inl (by rw [List.getLast?_append, point]; rfl)
  · refine .inr ⟨before, spelled, gap, rfl, ?_, lead⟩
    rwa [reached.before, Cursor.start, Option.or_none] at begins

/-- What is spelled in front of a gap is the last thing in front of it that can be seen. -/
theorem Lead.last_visible (lead : Lead keyword spelled gap) (alpha : ∀ x ∈ keyword, x.isAlpha)
    (nonempty : keyword ≠ []) (front : List Char) :
    (((front ++ (spelled ++ gap)).reverse.find? fun x => !isBlank x).map foldLetter) =
      keyword.getLast? := by
  have hidden : gap.reverse.find? (fun x => !isBlank x) = none := by
    simpa using lead.blank
  cases last : spelled.getLast? with
  | none =>
      rw [List.getLast?_eq_none_iff] at last
      exact absurd (last ▸ lead.folds).symm nonempty
  | some x =>
      obtain ⟨others, rfl⟩ := List.getLast?_eq_some_iff.mp last
      have start := lead.start alpha x (by simp)
      have visible := isBlank_of_isIdentPart (isIdentPart_of_isIdentStart start)
      rw [← lead.folds, List.getLast?_map, last]
      simp [hidden, visible]

/-- Where a deletion names its table, so does the `FROM` in it. -/
theorem from_of_deletion {text : List Char} {m : Match (List Char)}
    (found : m ∈ (referencePattern deletionKeywords).allIn text) :
    ∃ m' ∈ (referencePattern [['f', 'r', 'o', 'm']]).allIn text,
      m'.value = m.value ∧ m'.after = m.after := by
  obtain ⟨hit, front, passed⟩ := Pattern.match?_of_mem_findAll (advances_reference _) found
  obtain ⟨-, notes, read, named⟩ := match?_reference_eq_some.mp hit
  obtain ⟨spelled, gap, place, lead, onwards, read⟩ := read_lead read
  have last : (spelled ++ gap).getLast? = gap.getLast? := by
    rw [List.getLast?_append, Cursor.getLast?_or lead.nonempty]
  have blank : isBlank (gap.getLast lead.nonempty) := lead.blank _ (List.getLast_mem _)
  have apart : isWord? place.before = false := by
    rw [onwards.before_eq (by simp [lead.nonempty]), last, List.getLast?_eq_some_getLast lead.nonempty]
    exact isWord_of_isBlank blank
  have matched : (referencePattern [['f', 'r', 'o', 'm']]).match? place = some (m.value, m.after) :=
    match?_reference_eq_some.mpr ⟨apart, notes, read, named⟩
  refine ⟨_, found_unless_hidden (by simp [tableKeywords]) (passed.trans onwards) matched ?_, rfl, rfl⟩
  rintro (point | ⟨before, spelled', gap', same, -, lead'⟩)
  · rw [List.getLast?_append, last, List.getLast?_eq_some_getLast lead.nonempty, Option.some_or,
      Option.some.injEq] at point
    rw [point] at blank
    contradiction
  · -- the last letter in front of the gap is that of both keywords
    have here := lead.last_visible (List.all_eq_true.mp rfl) (List.cons_ne_nil _ _) front
    rw [same, lead'.last_visible (List.all_eq_true.mp rfl) (List.cons_ne_nil _ _) before] at here
    contradiction

@[simp] theorem distinct_eq_eraseDups (names : List String) : distinct names = names.eraseDups := by
  induction names using List.reverseRecOn with
  | nil => rfl
  | append_singleton names name ih =>
      have step : distinct (names ++ [name]) =
          if (distinct names).contains name then distinct names else distinct names ++ [name] := by
        rw [distinct, List.foldl_append]
        rfl
      rw [step, ih, eraseDups_concat]
      simp only [List.contains_iff_mem, List.mem_eraseDups]

/-- The tables in a text, without what the pattern of deletions adds. -/
theorem tablesIn_eq (text : List Char) :
    tablesIn text =
      ((tableKeywords.flatMap fun keyword => namesBehind text [keyword]).filter
        fun name => !isReservedName name).eraseDups := by
  have split : referenceKeywords.flatMap (namesBehind text) =
      tableKeywords.flatMap (fun keyword => namesBehind text [keyword]) ++
        namesBehind text deletionKeywords := by
    rw [referenceKeywords_eq, List.flatMap_append, List.flatMap_map, List.flatMap_cons, List.flatMap_nil,
      List.append_nil]
  rw [tablesIn, distinct_eq_eraseDups, split, List.filter_append]
  refine eraseDups_append_of_subset fun name member => ?_
  obtain ⟨member, unreserved⟩ := List.mem_filter.mp member
  obtain ⟨m, found, rfl⟩ := List.mem_map.mp member
  obtain ⟨m', found', same, -⟩ := from_of_deletion found
  have known : String.ofList (lower m.value) ∈ namesBehind text [['f', 'r', 'o', 'm']] :=
    List.mem_map.mpr ⟨m', found', by rw [same]⟩
  exact List.mem_filter.mpr
    ⟨List.mem_flatMap.mpr ⟨['f', 'r', 'o', 'm'], List.mem_cons_self .., known⟩, unreserved⟩

/-- The tables found behind some keywords in the normal form of a statement. -/
def tablesBehind (keywords : List (List (List Char))) (statement : String) : List String :=
  distinct ((keywords.flatMap (namesBehind (normalForm statement.toList))).filter
    fun name => !isReservedName name)

/-- The pattern of deletions adds nothing: without it the tables are the same, in the same order, since
each name that it matches is found behind the `FROM` that it ends with. -/
theorem deletions_redundant (statement : String) :
    tablesBehind referenceKeywords statement = tables statement ∧
      tablesBehind (referenceKeywords.eraseIdx 4) statement = tables statement ∧
      ∀ m ∈ (referencePattern deletionKeywords).allIn (normalForm statement.toList),
        ∃ m' ∈ (referencePattern [['f', 'r', 'o', 'm']]).allIn (normalForm statement.toList),
          m'.value = m.value ∧ m'.after = m.after := by
  refine ⟨rfl, ?_, fun m found => from_of_deletion found⟩
  have remaining : referenceKeywords.eraseIdx 4 = tableKeywords.map fun keyword => [keyword] := rfl
  rw [tables, tablesIn_eq, tablesBehind, distinct_eq_eraseDups, remaining, List.flatMap_map]

end

end QueryHarvest.Sql
