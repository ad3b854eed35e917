import QueryHarvest.Proofs.Text.Places
import QueryHarvest.Sql.Predicate

/-! # What shapes read

Whatever a piece of a shape reads, it takes off the front of the text, and what it notes stands there.
The relations say so for pieces, for shapes and for predicates, without the reader.
-/

namespace QueryHarvest.Sql

open Text

/-- What a piece takes off the front of a text, what stays behind that, and the notes before and after. -/
inductive Piece.Reads : Piece → Notes → List Char → List Char → Notes → Prop where
  | blanks {notes : Notes} {read rest : List Char} (blank : ∀ x ∈ read, isBlank x) :
      Reads .blanks notes read rest notes
  | gap {notes : Notes} {read rest : List Char} (nonempty : read ≠ []) (blank : ∀ x ∈ read, isBlank x) :
      Reads .gap notes read rest notes
  | symbol {notes : Notes} {rest : List Char} (c : Char) : Reads (.symbol c) notes [c] rest notes
  | word {notes : Notes} {read rest : List Char} :
      Reads (.word (read.map foldLetter)) notes read rest notes
  | placeholder {notes : Notes} {digits rest : List Char} (nonempty : digits ≠ [])
      (all : ∀ x ∈ digits, isDigit x) (whole : Stops isDigit rest) :
      Reads .placeholder notes ('$' :: digits) rest
        { notes with placeholders := notes.placeholders ++ [⟨digits, rest⟩] }
  | comparison {notes : Notes} {rest : List Char} (comparison : Comparison) :
      Reads .comparison notes comparison.text.toList rest
        { notes with text := comparison.text.toList }
  | like {notes : Notes} {read rest : List Char} (folds : read.map foldLetter = ['l', 'i', 'k', 'e']) :
      Reads .like notes read rest { notes with text := read }
  | ilike {notes : Notes} {read rest : List Char}
      (folds : read.map foldLetter = ['i', 'l', 'i', 'k', 'e']) :
      Reads .like notes read rest { notes with text := read }
  | negation {notes : Notes} {word gap rest : List Char} (folds : word.map foldLetter = ['n', 'o', 't'])
      (blank : ∀ x ∈ gap, isBlank x) :
      Reads .negation notes (word ++ gap) rest { notes with negated := true }
  | noNegation {notes : Notes} {rest : List Char} : Reads .negation notes [] rest notes
  | list {notes : Notes} {read rest : List Char} (inside : ∀ x ∈ read, x ≠ ')')
      (whole : Stops (· != ')') rest) :
      Reads .list notes read rest { notes with text := read }
  | number {notes : Notes} {digits rest : List Char} (nonempty : digits ≠ [])
      (all : ∀ x ∈ digits, isDigit x) (whole : Stops isDigit rest) :
      Reads .number notes digits rest { notes with text := digits }
  | quoted {notes : Notes} {text rest : List Char} (all : ∀ x ∈ text, x ≠ '\x27') :
      Reads .quoted notes ('\x27' :: (text ++ ['\x27'])) rest { notes with text }
  | name {notes : Notes} {read rest : List Char} : Reads .name notes read rest { notes with text := read }
  | wordEnd {notes : Notes} {rest : List Char} : Reads .wordEnd notes [] rest notes
  | numberEnd {notes : Notes} {rest : List Char} : Reads .numberEnd notes [] rest notes

namespace Piece

variable {c after : Cursor}

theorem of_readPlaceholder? {found : Placeholder} (h : readPlaceholder? c = some (found, after)) :
    c.rest = '$' :: found.digits ++ after.rest ∧ found.behind = after.rest ∧ found.digits ≠ [] ∧
      (∀ x ∈ found.digits, isDigit x) ∧ Stops isDigit after.rest := by
  obtain ⟨c₁, first, h⟩ := Option.bind_eq_some_iff.mp h
  obtain ⟨⟨digits, c₂⟩, second, h⟩ := Option.bind_eq_some_iff.mp h
  cases h
  obtain ⟨x, shown, dollar⟩ := Cursor.of_one? first
  obtain ⟨cut, nonempty, all, whole⟩ := Cursor.of_span1? second
  refine ⟨?_, rfl, nonempty, all, whole⟩
  rw [shown, cut, eq_of_beq dollar]
  rfl

theorem of_comparison? {text operator : List Char} (h : comparison? text = some operator) :
    ∃ comparison : Comparison, operator = comparison.text.toList ∧
      text = operator ++ text.drop operator.length := by
  unfold comparison? at h
  split at h <;> cases h
  · exact ⟨.atLeast, rfl, rfl⟩
  · exact ⟨.atMost, rfl, rfl⟩
  · exact ⟨.differsAngle, rfl, rfl⟩
  · exact ⟨.differs, rfl, rfl⟩
  · exact ⟨.above, rfl, rfl⟩
  · exact ⟨.below, rfl, rfl⟩

theorem of_writtenWord? {word read : List Char} (h : writtenWord? word c = some (read, after)) :
    c.rest = read ++ after.rest ∧ read.map foldLetter = word := by
  obtain ⟨c₁, found, h⟩ := Option.map_eq_some_iff.mp h
  cases h
  obtain ⟨read, cut, folds⟩ := Cursor.of_keyword? found
  have length : word.length = read.length := by rw [← folds, List.length_map]
  rw [cut, length, List.take_left]
  exact ⟨rfl, folds⟩

theorem of_readQuoted? {text : List Char} (h : readQuoted? c = some (text, after)) :
    c.rest = '\x27' :: (text ++ ['\x27']) ++ after.rest ∧ ∀ x ∈ text, x ≠ '\x27' := by
  obtain ⟨c₁, first, h⟩ := Option.bind_eq_some_iff.mp h
  obtain ⟨⟨text, c₂⟩, second, h⟩ := Option.bind_eq_some_iff.mp h
  obtain ⟨c₃, third, h⟩ := Option.bind_eq_some_iff.mp h
  cases h
  obtain ⟨x, opens, hx⟩ := Cursor.of_one? first
  obtain ⟨cut, -, all, -⟩ := Cursor.of_span1? second
  obtain ⟨y, closes, hy⟩ := Cursor.of_one? third
  refine ⟨?_, fun x member => by simpa using all x member⟩
  rw [opens, cut, closes, eq_of_beq hx, eq_of_beq hy]
  simp

theorem of_readSecondName? {read : List Char} (h : readSecondName? c = some (read, after)) :
    c.rest = '.' :: read ++ after.rest := by
  obtain ⟨c₁, first, h⟩ := Option.bind_eq_some_iff.mp h
  obtain ⟨x, shown, point⟩ := Cursor.of_one? first
  rw [shown, (Cursor.of_identifier? h).1, eq_of_beq point]
  rfl

theorem of_readName? {read : List Char} (h : readName? c = some (read, after)) :
    c.rest = read ++ after.rest := by
  obtain ⟨⟨first, c₁⟩, named, h⟩ := Option.bind_eq_some_iff.mp h
  have cut := (Cursor.of_identifier? named).1
  simp only at h
  split at h
  · next second =>
    cases h
    rw [cut, of_readSecondName? second]
    simp
  · cases h
    exact cut

theorem of_readNot? (h : readNot? c = some after) :
    ∃ word gap, c.rest = word ++ gap ++ after.rest ∧ word.map foldLetter = ['n', 'o', 't'] ∧
      ∀ x ∈ gap, isBlank x := by
  obtain ⟨c₁, first, h⟩ := Option.bind_eq_some_iff.mp h
  obtain ⟨⟨gap, c₂⟩, second, h⟩ := Option.bind_eq_some_iff.mp h
  cases h
  obtain ⟨word, shown, folds⟩ := Cursor.of_keyword? first
  obtain ⟨cut, -, blank, -⟩ := Cursor.of_span1? second
  exact ⟨word, gap, by rw [shown, cut, List.append_assoc], folds, blank⟩

/-- A piece reads what it takes off the front of the text. -/
theorem reads_of_read? {piece : Piece} {notes notes' : Notes}
    (h : piece.read? notes c = some (notes', after)) :
    ∃ read, c.rest = read ++ after.rest ∧ piece.Reads notes read after.rest notes' := by
  cases piece with
  | blanks =>
      cases h
      obtain ⟨read, cut, blank⟩ := Cursor.rest_skip isBlank c
      exact ⟨read, cut, .blanks blank⟩
  | gap =>
      obtain ⟨⟨read, c₁⟩, found, h⟩ := Option.map_eq_some_iff.mp h
      cases h
      obtain ⟨cut, nonempty, blank, -⟩ := Cursor.of_span1? found
      exact ⟨read, cut, .gap nonempty blank⟩
  | symbol s =>
      obtain ⟨c₁, found, h⟩ := Option.map_eq_some_iff.mp h
      cases h
      obtain ⟨x, shown, same⟩ := Cursor.of_one? found
      exact ⟨[x], shown, eq_of_beq same ▸ .symbol x⟩
  | word letters =>
      obtain ⟨c₁, found, h⟩ := Option.map_eq_some_iff.mp h
      cases h
      obtain ⟨read, cut, folds⟩ := Cursor.of_keyword? found
      exact ⟨read, cut, folds ▸ .word⟩
  | placeholder =>
      obtain ⟨⟨found, c₁⟩, reads, h⟩ := Option.map_eq_some_iff.mp h
      cases h
      obtain ⟨cut, behind, nonempty, all, whole⟩ := of_readPlaceholder? reads
      obtain ⟨digits, _⟩ := found
      cases behind
      exact ⟨'$' :: digits, cut, .placeholder nonempty all whole⟩
  | comparison =>
      obtain ⟨⟨text, c₁⟩, found, h⟩ := Option.map_eq_some_iff.mp h
      cases h
      obtain ⟨operator, compares, h⟩ := Option.bind_eq_some_iff.mp found
      cases h
      obtain ⟨comparison, rfl, cut⟩ := of_comparison? compares
      exact ⟨_, cut, .comparison comparison⟩
  | like =>
      obtain ⟨⟨text, c₁⟩, found, h⟩ := Option.map_eq_some_iff.mp h
      cases h
      rcases Option.or_eq_some_iff.mp found with found | ⟨-, found⟩
      · obtain ⟨cut, folds⟩ := of_writtenWord? found
        exact ⟨text, cut, .ilike folds⟩
      · obtain ⟨cut, folds⟩ := of_writtenWord? found
        exact ⟨text, cut, .like folds⟩
  | negation =>
      simp only [read?] at h
      split at h
      · next found =>
        cases h
        obtain ⟨word, gap, cut, folds, blank⟩ := of_readNot? found
        exact ⟨word ++ gap, cut, .negation folds blank⟩
      · cases h
        exact ⟨[], rfl, .noNegation⟩
  | list =>
      obtain ⟨⟨read, c₁⟩, found, h⟩ := Option.map_eq_some_iff.mp h
      cases h
      obtain ⟨cut, -, inside, whole⟩ := Cursor.of_span1? found
      exact ⟨read, cut, .list (fun x member => bne_iff_ne.mp (inside x member)) whole⟩
  | number =>
      obtain ⟨⟨read, c₁⟩, found, h⟩ := Option.map_eq_some_iff.mp h
      cases h
      obtain ⟨cut, nonempty, all, whole⟩ := Cursor.of_span1? found
      exact ⟨read, cut, .number nonempty all whole⟩
  | quoted =>
      obtain ⟨⟨text, c₁⟩, found, h⟩ := Option.map_eq_some_iff.mp h
      cases h
      obtain ⟨cut, all⟩ := of_readQuoted? found
      exact ⟨_, cut, .quoted all⟩
  | name =>
      obtain ⟨⟨text, c₁⟩, found, h⟩ := Option.map_eq_some_iff.mp h
      cases h
      exact ⟨text, of_readName? found, .name⟩
  | wordEnd =>
      simp only [read?] at h
      split at h
      · contradiction
      · cases h
        exact ⟨[], rfl, .wordEnd⟩
  | numberEnd =>
      simp only [read?] at h
      split at h
      · contradiction
      · cases h
        exact ⟨[], rfl, .numberEnd⟩

end Piece

/-- What the pieces of a shape take off the front of a text, one behind the other. -/
inductive Shape.Reads : Shape → Notes → List Char → List Char → Notes → Prop where
  | nil {notes : Notes} {rest : List Char} : Reads [] notes [] rest notes
  | cons {piece : Piece} {shape : Shape} {notes between notes' : Notes} {read more rest : List Char}
      (first : piece.Reads notes read (more ++ rest) between)
      (others : Reads shape between more rest notes') : Reads (piece :: shape) notes (read ++ more) rest notes'

theorem Shape.reads_of_read? {shape : Shape} {notes notes' : Notes} {c after : Cursor}
    (h : shape.read? notes c = some (notes', after)) :
    ∃ read, c.rest = read ++ after.rest ∧ shape.Reads notes read after.rest notes' := by
  induction shape generalizing notes c with
  | nil =>
      cases h
      exact ⟨[], rfl, .nil⟩
  | cons piece shape ih =>
      obtain ⟨⟨between, c₁⟩, first, others⟩ := Option.bind_eq_some_iff.mp h
      obtain ⟨read, cut, reads⟩ := Piece.reads_of_read? first
      obtain ⟨more, cut', later⟩ := ih others
      rw [cut'] at cut reads
      exact ⟨read ++ more, by rw [cut, List.append_assoc], .cons reads later⟩

/-- Does the piece leave the noted text as it is? -/
def Piece.isQuiet : Piece → Bool
  | .comparison => false
  | .like => false
  | .list => false
  | .number => false
  | .quoted => false
  | .name => false
  | _ => true

section

variable {notes notes' : Notes} {read rest : List Char}

theorem Piece.Reads.text_eq {piece : Piece} (h : piece.Reads notes read rest notes')
    (quiet : piece.isQuiet) : notes'.text = notes.text := by
  cases h <;> first | rfl | contradiction

theorem Piece.Reads.folds {letters : List Char} (h : Piece.Reads (.word letters) notes read rest notes') :
    read.map foldLetter = letters := by
  cases h
  rfl

theorem Shape.Reads.text_eq {shape : Shape} (h : shape.Reads notes read rest notes')
    (quiet : shape.all Piece.isQuiet) : notes'.text = notes.text := by
  induction h with
  | nil => rfl
  | cons first _ ih =>
      rw [List.all_cons, Bool.and_eq_true] at quiet
      rw [ih quiet.2, first.text_eq quiet.1]

theorem Shape.Reads.of_cons {piece : Piece} {shape : Shape}
    (h : Shape.Reads (piece :: shape) notes read rest notes') :
    ∃ here more between, read = here ++ more ∧ piece.Reads notes here (more ++ rest) between ∧
      shape.Reads between more rest notes' := by
  cases h with
  | cons first others => exact ⟨_, _, _, rfl, first, others⟩

theorem Shape.Reads.split {front back : Shape}
    (h : Shape.Reads (front ++ back) notes read rest notes') :
    ∃ before after between, read = before ++ after ∧ front.Reads notes before (after ++ rest) between ∧
      back.Reads between after rest notes' := by
  induction front generalizing notes read with
  | nil => exact ⟨[], read, notes, rfl, .nil, h⟩
  | cons piece front ih =>
      obtain ⟨here, _, _, rfl, first, others⟩ := h.of_cons
      obtain ⟨before, after, between, rfl, reads, later⟩ := ih others
      rw [List.append_assoc] at first
      exact ⟨_, after, between, (List.append_assoc ..).symm, .cons first reads, later⟩

/-- Where one piece of a shape notes a text and no later one does, that text is what the shape notes. -/
theorem Shape.Reads.noting (front back : Shape) {piece : Piece}
    (h : Shape.Reads (front ++ piece :: back) notes read rest notes') (quiet : back.all Piece.isQuiet) :
    ∃ before here after between between', read = before ++ (here ++ after) ∧
      piece.Reads between here (after ++ rest) between' ∧ notes'.text = between'.text := by
  obtain ⟨before, _, between, rfl, -, later⟩ := h.split
  obtain ⟨here, after, between', rfl, first, others⟩ := later.of_cons
  exact ⟨before, here, after, between, between', rfl, first, others.text_eq quiet⟩

end

/-- The placeholder stands in the text, with all the digits that follow the dollar sign. -/
structure Placeholder.Stands (p : Placeholder) (text : List Char) : Prop where
  place : '$' :: (p.digits ++ p.behind) <:+ text
  nonempty : p.digits ≠ []
  digits : ∀ x ∈ p.digits, isDigit x
  whole : Stops isDigit p.behind

section

variable {p : Placeholder} {text rest : List Char}

theorem Placeholder.Stands.of_suffix (h : p.Stands rest) (inside : rest <:+ text) : p.Stands text :=
  ⟨h.place.trans inside, h.nonempty, h.digits, h.whole⟩

/-- A placeholder at the end of a text stays the same if no digit follows. -/
theorem Placeholder.Stands.append (h : p.Stands text) (stops : Stops isDigit rest) :
    Placeholder.Stands ⟨p.digits, p.behind ++ rest⟩ (text ++ rest) where
  place := by
    obtain ⟨before, rfl⟩ := h.place
    exact ⟨before, by simp⟩
  nonempty := h.nonempty
  digits := h.digits
  whole := by
    have whole := h.whole
    cases behind : p.behind with
    | nil => exact stops
    | cons x behind =>
        rw [behind] at whole
        exact whole

theorem Piece.Reads.placeholders {piece : Piece} {notes notes' : Notes} {read : List Char}
    (h : piece.Reads notes read rest notes') :
    ∀ p ∈ notes'.placeholders, p ∈ notes.placeholders ∨ p.Stands (read ++ rest) := by
  intro p member
  cases h with
  | placeholder nonempty all whole =>
      rcases List.mem_append.mp member with before | here
      · exact .inl before
      · rw [List.mem_singleton.mp here]
        exact .inr ⟨List.suffix_rfl, nonempty, all, whole⟩
  | _ => exact .inl member

/-- All placeholders that a shape notes stand in what it has read or behind that. -/
theorem Shape.Reads.placeholders {shape : Shape} {notes notes' : Notes} {read : List Char}
    (h : shape.Reads notes read rest notes') :
    ∀ p ∈ notes'.placeholders, p ∈ notes.placeholders ∨ p.Stands (read ++ rest) := by
  induction h with
  | nil => exact fun p member => .inl member
  | @cons _ _ _ _ _ read more rest first _ ih =>
      intro p member
      rw [List.append_assoc]
      rcases ih p member with between | stands
      · exact first.placeholders p between
      · exact .inr (stands.of_suffix (List.suffix_append ..))

theorem stands_of_mem_placeholdersIn (h : p ∈ placeholdersIn text) : p.Stands text := by
  obtain ⟨found, member, rfl⟩ := List.mem_map.mp h
  obtain ⟨reads, inside⟩ := Pattern.of_mem_findAll
    (fun matched => ⟨_, (Piece.of_readPlaceholder? matched).1.symm⟩) member
  obtain ⟨cut, behind, nonempty, all, whole⟩ := Piece.of_readPlaceholder? reads
  refine ⟨?_, nonempty, all, behind ▸ whole⟩
  rw [behind, ← List.cons_append, ← cut]
  exact inside

end

/-- The column of a predicate as it is written. -/
def Predicate.spelledColumn (p : Predicate) : List Char :=
  p.qualifier.elim p.column (· ++ '.' :: p.column)

/-- The predicate stands in the text: its column, and behind that what its shape reads. -/
structure Predicate.Stands (p : Predicate) (f : Family) (text read rest : List Char) : Prop where
  place : p.spelledColumn ++ (read ++ rest) <:+ text
  qualified : p.qualifier.isSome = f.qualified
  column : isIdentifier p.column
  qualifier : ∀ name ∈ p.qualifier, isIdentifier name
  reads : f.kind.shape.Reads {} read rest p.notes

theorem of_readColumn? {qualified : Bool} {c after : Cursor} {found : Option (List Char) × List Char}
    (h : readColumn? qualified c = some (found, after)) :
    c.rest = found.1.elim found.2 (· ++ '.' :: found.2) ++ after.rest ∧
      found.1.isSome = qualified ∧ isIdentifier found.2 ∧ ∀ name ∈ found.1, isIdentifier name := by
  obtain ⟨⟨first, c₁⟩, named, h⟩ := Option.bind_eq_some_iff.mp h
  obtain ⟨cut, name⟩ := Cursor.of_identifier? named
  cases qualified with
  | false =>
      cases h
      exact ⟨cut, rfl, name, by simp⟩
  | true =>
      obtain ⟨c₂, point, h⟩ := Option.bind_eq_some_iff.mp h
      obtain ⟨⟨second, c₃⟩, named, h⟩ := Option.bind_eq_some_iff.mp h
      cases h
      obtain ⟨x, shown, same⟩ := Cursor.of_one? point
      obtain ⟨cut', name'⟩ := Cursor.of_identifier? named
      refine ⟨?_, rfl, name', by simpa using name⟩
      rw [cut, shown, cut', eq_of_beq same]
      simp

/-- A family that finds a predicate has read its column and what its shape reads. -/
theorem of_match? {f : Family} {c after : Cursor} {p : Predicate}
    (h : f.pattern.match? c = some (p, after)) :
    ∃ read, c.rest = p.spelledColumn ++ read ++ after.rest ∧ p.qualifier.isSome = f.qualified ∧
      isIdentifier p.column ∧ (∀ name ∈ p.qualifier, isIdentifier name) ∧
      f.kind.shape.Reads {} read after.rest p.notes := by
  simp only [Family.pattern] at h
  split at h
  · obtain ⟨⟨⟨qualifier, column⟩, c₁⟩, named, h⟩ := Option.bind_eq_some_iff.mp h
    obtain ⟨⟨notes, c₂⟩, read, h⟩ := Option.bind_eq_some_iff.mp h
    cases h
    obtain ⟨cut, qualified, name, names⟩ := of_readColumn? named
    obtain ⟨read, cut', reads⟩ := Shape.reads_of_read? read
    exact ⟨read, by rw [cut, cut', ← List.append_assoc]; rfl, qualified, name, names, reads⟩
  · contradiction

section

variable {f : Family} {text : List Char} {found : Match Predicate}

theorem of_mem_predicatesIn (h : found ∈ f.predicatesIn text) :
    f.pattern.match? found.place = some (found.value, found.after) ∧ found.place.rest <:+ text :=
  Pattern.of_mem_findAll (fun matched => by
    obtain ⟨read, cut, -⟩ := of_match? matched
    exact ⟨_, cut.symm⟩) h

/-- Every predicate that is found stands in the text. -/
theorem stands_of_mem_predicatesIn (h : found ∈ f.predicatesIn text) :
    ∃ read rest, found.value.Stands f text read rest := by
  obtain ⟨matched, inside⟩ := of_mem_predicatesIn h
  obtain ⟨read, cut, qualified, column, qualifier, reads⟩ := of_match? matched
  rw [List.append_assoc] at cut
  exact ⟨read, found.after.rest, cut ▸ inside, qualified, column, qualifier, reads⟩

end

end QueryHarvest.Sql
