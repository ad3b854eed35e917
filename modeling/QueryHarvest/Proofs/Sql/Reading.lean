import QueryHarvest.Proofs.Sql.Conjunction
import QueryHarvest.Proofs.Text.Characters
import QueryHarvest.Proofs.Text.Places

/-! # What shapes read in a conjunction

Behind a column a shape reads the tests of its own kind, to their end, and no other test. Behind any
other word it reads nothing, even where the next word is a column named like a keyword.
-/

namespace QueryHarvest.Sql

open Number Text

/-- What a character of a name is to the readers of a statement. -/
structure NamePart (c : Char) : Prop where
  ascii : c.toNat < 128
  identPart : isIdentPart c
  word : isWord c
  solid : isSolid c
  folded : foldLetter c = c
  lowered : lowerChar c = [c]

theorem namePart {c : Char} (h : isNamePart c) : NamePart c := by
  have ascii : c.toNat < 128 := by
    simp only [isNamePart, isNameStart, Char.isLower, Char.isDigit, Bool.or_eq_true,
      Bool.and_eq_true, decide_eq_true_eq, beq_iff_eq, UInt32.le_iff_toNat_le] at h
    rcases h with (⟨_, upper⟩ | rfl) | ⟨_, upper⟩
    · exact Nat.lt_of_le_of_lt upper (by decide)
    · decide
    · exact Nat.lt_of_le_of_lt upper (by decide)
  have facts : isNamePart c →
      isIdentPart c ∧ isWord c ∧ isSolid c ∧ foldLetter c = c ∧ lowerChar c = [c] :=
    of_ascii ascii (by decide +kernel)
  obtain ⟨identPart, word, solid, folded, lowered⟩ := facts h
  exact ⟨ascii, identPart, word, solid, folded, lowered⟩

theorem isIdentStart_of_isNameStart {c : Char} (h : isNameStart c) : isIdentStart c := by
  have part := namePart (show isNamePart c by rw [isNamePart, h, Bool.true_or])
  rw [isIdentStart, part.folded]
  rcases Bool.or_eq_true_iff.mp h with letter | underscore
  · rw [Char.isAlpha, letter, Bool.or_true, Bool.true_or]
  · rw [underscore, Bool.or_true]

namespace Name

theorem letters_eq_cons (name : Name) :
    ∃ x others, name.letters = x :: others ∧ isNameStart x ∧ ∀ y ∈ others, isNamePart y := by
  have h := name.isName
  unfold letters
  cases hl : name.text.toList with
  | nil => simp [hl, Sql.isName] at h
  | cons x others =>
      rw [hl] at h
      obtain ⟨start, parts⟩ := Bool.and_eq_true_iff.mp h
      exact ⟨x, others, rfl, start, List.all_eq_true.mp parts⟩

theorem namePart_of_mem {name : Name} {c : Char} (member : c ∈ name.letters) : NamePart c := by
  obtain ⟨x, others, hl, start, parts⟩ := name.letters_eq_cons
  rw [hl] at member
  rcases List.mem_cons.mp member with rfl | member
  · exact namePart (by rw [isNamePart, start, Bool.true_or])
  · exact namePart (parts c member)

theorem isIdentifier_letters (name : Name) : isIdentifier name.letters := by
  obtain ⟨x, others, hl, start, parts⟩ := name.letters_eq_cons
  rw [hl, isIdentifier, isIdentStart_of_isNameStart start, Bool.true_and]
  exact List.all_eq_true.mpr fun y hy => (namePart (parts y hy)).identPart

theorem solid_letters (name : Name) : Solid name.letters where
  nonempty := by
    obtain ⟨x, others, hl, _⟩ := name.letters_eq_cons
    simp [hl]
  passes _ member := (namePart_of_mem member).solid

@[simp] theorem lower_letters (name : Name) : lower name.letters = name.letters := by
  suffices ∀ (before letters : List Char), (∀ c ∈ letters, NamePart c) →
      lowerFrom before letters = letters from
    this [] _ fun _ member => namePart_of_mem member
  intro before letters parts
  induction letters generalizing before with
  | nil => rfl
  | cons c letters ih =>
      have part := parts c (List.mem_cons_self ..)
      have plain : (c.toNat == 0x3A3) = false := beq_false_of_ne (by have := part.ascii; omega)
      rw [lowerFrom, ih _ fun y hy => parts y (List.mem_cons_of_mem _ hy), plain, part.lowered]
      rfl

@[simp] theorem ofList_letters (name : Name) : String.ofList name.letters = name.text :=
  String.ofList_toList

end Name

/-- The text behind a filter: nothing, or the next one behind its `AND`. -/
def Closes (tail : List Char) : Prop :=
  tail = [] ∨ ∃ more, tail = ' ' :: 'A' :: 'N' :: 'D' :: ' ' :: more

theorem Closes.stops {tail : List Char} (h : Closes tail) {test : Char → Bool}
    (space : test ' ' = false) : Stops test tail := by
  rcases h with rfl | ⟨more, rfl⟩
  · exact stops_nil test
  · exact stops_cons space

theorem closes_spelledRest (filters : List Conjunct) : Closes (spelledRest filters) := by
  cases filters with
  | nil => exact .inl rfl
  | cons f filters => exact .inr ⟨_, rfl⟩

theorem isDigit_of_mem_toDigits {n : Nat} : ∀ c ∈ Nat.toDigits 10 n, isDigit c :=
  fun _ member => isDigit_ascii (isDigit_char_of_mem_toDigits member)

theorem readPlaceholder?_spelled {z : Option Char} {tail : List Char} (n : Nat)
    (stops : Stops isDigit tail) :
    Piece.readPlaceholder? ⟨z, spelledPlaceholder n ++ tail⟩ =
      some (⟨Nat.toDigits 10 n, tail⟩, ⟨(Nat.toDigits 10 n).getLast?, tail⟩) := by
  have digits := @Cursor.span1?_append isDigit (some '$') _ tail (Nat.toDigits_ne_nil (b := 10) (n := n))
    isDigit_of_mem_toDigits stops
  rw [Piece.readPlaceholder?, spelledPlaceholder, List.cons_append,
    Cursor.one?_of_passes (by rfl)]
  simp only [Option.bind_eq_bind, Option.bind_some, digits]
  rfl

theorem read_placeholder {z : Option Char} {tail : List Char} {notes : Notes} {shape : Shape} (n : Nat)
    (stops : Stops isDigit tail) :
    Shape.read? notes ⟨z, spelledPlaceholder n ++ tail⟩ (.placeholder :: shape) =
      Shape.read? { notes with placeholders := notes.placeholders ++ [⟨Nat.toDigits 10 n, tail⟩] }
        ⟨(Nat.toDigits 10 n).getLast?, tail⟩ shape := by
  rw [Shape.read?, Piece.read?, readPlaceholder?_spelled n stops]
  rfl

theorem mem_spelledList {first : Nat} {others : List Nat} {c : Char}
    (h : c ∈ spelledList first others) : c ≠ ')' := by
  have digit : ∀ {n : Nat}, ')' ∉ Nat.toDigits 10 n := fun member =>
    absurd (isDigit_char_of_mem_toDigits member) (by decide)
  rintro rfl
  simp [spelledList, spelledPlaceholder, digit] at h

/-- A list is read up to the first closing parenthesis. -/
theorem read_list {z : Option Char} {list tail : List Char} {notes : Notes} {shape : Shape}
    (filled : list ≠ []) (inside : ∀ c ∈ list, c ≠ ')') :
    Shape.read? notes ⟨z, list ++ ')' :: tail⟩ (.list :: shape) =
      Shape.read? { notes with text := list } ⟨list.getLast?, ')' :: tail⟩ shape := by
  have read := @Cursor.span1?_append (· != ')') z list (')' :: tail) filled
    (fun c member => bne_iff_ne.mpr (inside c member)) (stops_cons (by rfl))
  rw [Shape.read?, Piece.read?, read]
  rfl

/-- What is noted when a test is read as the kind it is reported under. -/
def Test.notes (tail : List Char) : Test → Notes
  | .equals n => { placeholders := [⟨Nat.toDigits 10 n, tail⟩] }
  | .isIn first others => { text := spelledList first others }
  | .notIn first others => { text := spelledList first others }
  | .anyOf n => { placeholders := [⟨Nat.toDigits 10 n, ')' :: tail⟩] }
  | .compares comparison n =>
    { placeholders := [⟨Nat.toDigits 10 n, tail⟩], text := comparison.spelled }
  | .between low high =>
    { placeholders :=
        [⟨Nat.toDigits 10 low, ' ' :: 'A' :: 'N' :: 'D' :: ' ' :: (spelledPlaceholder high ++ tail)⟩,
         ⟨Nat.toDigits 10 high, tail⟩] }
  | .like n => { placeholders := [⟨Nat.toDigits 10 n, tail⟩], text := ['L', 'I', 'K', 'E'] }
  | .ilike n => { placeholders := [⟨Nat.toDigits 10 n, tail⟩], text := ['I', 'L', 'I', 'K', 'E'] }
  | .isNotNull => { negated := true }
  | _ => {}

/-- A test is read to its end as the kind it is reported under. -/
theorem read_own {test : Test} {kind : PredicateKind} {operator : Operator} {tail : List Char}
    {z : Option Char} (own : test.report? = some (kind, operator)) (closes : Closes tail) :
    ∃ z', kind.shape.read? {} ⟨z, ' ' :: (test.spelled ++ tail)⟩ =
      some (test.notes tail, ⟨z', tail⟩) := by
  have stops : Stops isDigit tail := closes.stops (by rfl)
  cases test with
  | equals n =>
      cases own
      exact ⟨_, read_placeholder n stops⟩
  | isIn first others =>
      cases own
      simp only [Test.spelled, spelledIn, List.cons_append, List.append_assoc, List.nil_append]
      exact ⟨_, read_list (List.cons_ne_nil _ _) fun _ => mem_spelledList⟩
  | notIn first others =>
      cases own
      simp only [Test.spelled, spelledIn, List.cons_append, List.append_assoc, List.nil_append]
      exact ⟨_, read_list (List.cons_ne_nil _ _) fun _ => mem_spelledList⟩
  | anyOf n =>
      cases own
      simp only [Test.spelled, List.cons_append, List.append_assoc, List.nil_append]
      exact ⟨_, read_placeholder n (stops_cons (by rfl))⟩
  | compares comparison n =>
      cases own
      cases comparison <;> exact ⟨_, read_placeholder n stops⟩
  | between low high =>
      cases own
      simp only [Test.spelled, spelledRange, List.cons_append, List.append_assoc]
      have first := @read_placeholder (some ' ') _ {}
        [.gap, .word ['a', 'n', 'd'], .gap, .placeholder] low
        (@stops_cons isDigit ' ' ('A' :: 'N' :: 'D' :: ' ' :: (spelledPlaceholder high ++ tail)) (by rfl))
      exact ⟨_, first.trans (read_placeholder high stops)⟩
  | like n =>
      cases own
      exact ⟨_, read_placeholder n stops⟩
  | ilike n =>
      cases own
      exact ⟨_, read_placeholder n stops⟩
  | isNull =>
      cases own
      rcases closes with rfl | ⟨more, rfl⟩ <;> exact ⟨_, rfl⟩
  | isNotNull =>
      cases own
      rcases closes with rfl | ⟨more, rfl⟩ <;> exact ⟨_, rfl⟩
  | notLike | notIlike | notBetween => contradiction

/-- A test is not read as a kind other than its own. -/
theorem read_other {test : Test} {kind : PredicateKind} {tail : List Char} {z : Option Char}
    (other : ∀ operator, test.report? ≠ some (kind, operator)) :
    kind.shape.read? {} ⟨z, ' ' :: (test.spelled ++ tail)⟩ = none := by
  cases test with
  | compares comparison n =>
      cases comparison <;> cases kind <;> first | rfl | exact absurd rfl (other _)
  | _ => cases kind <;> first | rfl | exact absurd rfl (other _)

/-- What follows an identifier where no shape is read on over it: neither an opening parenthesis nor a
placeholder nor `NULL`. -/
structure Unanswering (rest : List Char) : Prop where
  ends : Stops isIdentPart rest
  opening : ∀ z notes shape, Shape.read? notes ⟨z, rest⟩ (.blanks :: .symbol '(' :: shape) = none
  dollar : ∀ z notes shape, Shape.read? notes ⟨z, rest⟩ (.gap :: .placeholder :: shape) = none
  null : ∀ z, Shape.read? {} ⟨z, rest⟩
    [.gap, .negation, .word ['n', 'u', 'l', 'l'], .wordEnd] = none

theorem unanswering_test (test : Test) (tail : List Char) :
    Unanswering (' ' :: (test.spelled ++ tail)) := by
  cases test with
  | compares comparison n =>
      cases comparison <;>
        exact ⟨stops_cons rfl, fun _ _ _ => rfl, fun _ _ _ => rfl, fun _ => rfl⟩
  | _ => exact ⟨stops_cons rfl, fun _ _ _ => rfl, fun _ _ _ => rfl, fun _ => rfl⟩

section

variable {z : Option Char} {letters text rest : List Char} {notes : Notes} {shape : Shape}

theorem stops_blank_letters (parts : ∀ c ∈ letters, isIdentPart c) (nonempty : letters ≠ []) :
    Stops isBlank (letters ++ text) := by
  cases letters with
  | nil => exact absurd rfl nonempty
  | cons c letters => exact stops_cons (isBlank_of_isIdentPart (parts c (List.mem_cons_self ..)))

/-- In front of an identifier no symbol stands. -/
theorem stops_letters (parts : ∀ c ∈ letters, isIdentPart c) (nonempty : letters ≠ []) {symbol : Char}
    (h : isIdentPart symbol = false) : Stops (· == symbol) (letters ++ text) := by
  cases letters with
  | nil => exact absurd rfl nonempty
  | cons c letters =>
      refine stops_cons (beq_false_of_ne ?_)
      rintro rfl
      simp [parts c (List.mem_cons_self ..)] at h

theorem skip_blank (stops : Stops isBlank text) : Cursor.skip isBlank ⟨z, text⟩ = ⟨z, text⟩ := by
  have read := @Cursor.span_append isBlank z [] text (by simp) stops
  rw [Cursor.skip, show text = [] ++ text from rfl, read]
  rfl

theorem read_blanks (stops : Stops isBlank text) :
    Shape.read? notes ⟨z, ' ' :: text⟩ (.blanks :: shape) =
      Shape.read? notes ⟨some ' ', text⟩ shape := by
  have space := @Cursor.span_append isBlank z [' '] text (by simp; rfl) stops
  rw [Shape.read?, Piece.read?, Cursor.skip, show ' ' :: text = [' '] ++ text from rfl, space]
  rfl

theorem read_gap (stops : Stops isBlank text) :
    Shape.read? notes ⟨z, ' ' :: text⟩ (.gap :: shape) = Shape.read? notes ⟨some ' ', text⟩ shape := by
  have space := @Cursor.span1?_append isBlank z [' '] text (by simp) (by simp; rfl) stops
  rw [Shape.read?, Piece.read?, show ' ' :: text = [' '] ++ text from rfl, space]
  rfl

theorem read_gap_none (stops : Stops isBlank text) :
    Shape.read? notes ⟨z, text⟩ (.gap :: shape) = none := by
  have read := @Cursor.span_append isBlank z [] text (by simp) stops
  rw [Shape.read?, Piece.read?, Cursor.span1?, show text = [] ++ text from rfl, read]
  rfl

theorem read_symbol_none {symbol : Char} (stops : Stops (· == symbol) text) :
    Shape.read? notes ⟨z, text⟩ (.symbol symbol :: shape) = none := by
  cases text with
  | nil => rfl
  | cons x text => simp [Shape.read?, Piece.read?, stops x rfl]

theorem read_placeholder_none (stops : Stops (· == '$') text) :
    Shape.read? notes ⟨z, text⟩ (.placeholder :: shape) = none := by
  cases text with
  | nil => rfl
  | cons x text =>
      simp [Shape.read?, Piece.read?, Piece.readPlaceholder?, stops x rfl]

theorem read_comparison_none (parts : ∀ c ∈ letters, isIdentPart c) (nonempty : letters ≠ []) :
    Shape.read? notes ⟨z, letters ++ text⟩ (.comparison :: shape) = none := by
  cases letters with
  | nil => exact absurd rfl nonempty
  | cons c letters =>
      have part := parts c (List.mem_cons_self ..)
      have unlike : comparison? (c :: (letters ++ text)) = none := by
        unfold comparison?
        split <;> first | rfl | (next same => obtain ⟨rfl, _⟩ := List.cons.inj same; contradiction)
      simp [Shape.read?, Piece.read?, Piece.readComparison?, unlike]

/-- A keyword met in front of an identifier is the whole identifier, or that goes on behind it. -/
theorem keyword_of_identifier {keyword : List Char} {after : Cursor} (alpha : ∀ x ∈ keyword, x.isAlpha)
    (ends : Stops isIdentPart rest)
    (found : Cursor.keyword? ⟨z, letters ++ rest⟩ keyword = some after) :
    letters.map foldLetter = keyword ∧ after.rest = rest ∨
      ∃ more, more ≠ [] ∧ (∀ c ∈ more, c ∈ letters) ∧ after.rest = more ++ rest := by
  obtain ⟨read, cut, folds⟩ := Cursor.of_keyword? found
  have part : ∀ c ∈ read, isIdentPart c := fun c member => by
    refine isIdentPart_of_isIdentStart ?_
    rw [isIdentStart, alpha _ (folds ▸ List.mem_map_of_mem member), Bool.true_or]
  rcases List.append_eq_append_iff.mp cut with ⟨past, rfl, same⟩ | ⟨more, rfl, same⟩
  · cases past with
    | nil => exact .inl ⟨by simpa using folds, same.symm⟩
    | cons x past =>
        have inside := ends x (by rw [same]; rfl)
        rw [part x (by simp)] at inside
        contradiction
  · by_cases done : more = []
    · subst done
      exact .inl ⟨by simpa using folds, by simpa using same⟩
    · exact .inr ⟨more, done, fun c member => List.mem_append_right _ member, same⟩

/-- A shape that goes on behind a keyword with a gap reads no identifier other than the keyword. -/
theorem gap_behind_keyword {keyword : List Char} {after : Cursor}
    (parts : ∀ c ∈ letters, isIdentPart c) (alpha : ∀ x ∈ keyword, x.isAlpha)
    (ends : Stops isIdentPart rest)
    (found : Cursor.keyword? ⟨z, letters ++ rest⟩ keyword = some after)
    (whole : letters.map foldLetter = keyword →
      ∀ z, Shape.read? notes ⟨z, rest⟩ (.gap :: shape) = none) :
    Shape.read? notes after (.gap :: shape) = none := by
  obtain ⟨before, text⟩ := after
  rcases keyword_of_identifier alpha ends found with ⟨same, rfl⟩ | ⟨more, nonempty, inside, rfl⟩
  · exact whole same before
  · exact read_gap_none (stops_blank_letters (fun c member => parts c (inside c member)) nonempty)

theorem read_word_none {keyword : List Char} {c : Cursor}
    (h : ∀ after, c.keyword? keyword = some after → Shape.read? notes after shape = none) :
    Shape.read? notes c (.word keyword :: shape) = none := by
  rw [Shape.read?, Piece.read?]
  cases found : c.keyword? keyword with
  | none => rfl
  | some after => exact h after found

theorem read_like_none {c : Cursor}
    (ilike : ∀ after, c.keyword? ['i', 'l', 'i', 'k', 'e'] = some after →
      ∀ notes, Shape.read? notes after shape = none)
    (like : ∀ after, c.keyword? ['l', 'i', 'k', 'e'] = some after →
      ∀ notes, Shape.read? notes after shape = none) :
    Shape.read? notes c (.like :: shape) = none := by
  rw [Shape.read?, Piece.read?, writtenWord?, writtenWord?]
  cases found : c.keyword? ['i', 'l', 'i', 'k', 'e'] with
  | some after => exact ilike after found _
  | none =>
      cases found : c.keyword? ['l', 'i', 'k', 'e'] with
      | some after => exact like after found _
      | none => rfl

/-- A keyword with an opening parenthesis is not read off an identifier that none follows. -/
theorem opening_behind_keyword {keyword : List Char} {after : Cursor}
    (parts : ∀ c ∈ letters, isIdentPart c) (alpha : ∀ x ∈ keyword, x.isAlpha) (h : Unanswering rest)
    (found : Cursor.keyword? ⟨z, letters ++ rest⟩ keyword = some after) :
    Shape.read? notes after (.blanks :: .symbol '(' :: shape) = none := by
  obtain ⟨before, text⟩ := after
  rcases keyword_of_identifier alpha h.ends found with ⟨-, rfl⟩ | ⟨more, nonempty, inside, rfl⟩
  · exact h.opening before notes shape
  · have others : ∀ c ∈ more, isIdentPart c := fun c member => parts c (inside c member)
    rw [Shape.read?, Piece.read?, skip_blank (stops_blank_letters others nonempty)]
    exact read_symbol_none (stops_letters others nonempty rfl)

/-- Behind a word that is followed by an identifier and by what answers no shape, nothing is read, if the
identifier is no `NOT` in front of a list. -/
theorem read_behind_word (named : isIdentifier letters) (h : Unanswering rest)
    (positive : letters.map foldLetter = ['n', 'o', 't'] → ∀ z, Shape.read? {} ⟨z, rest⟩
      [.gap, .word ['i', 'n'], .blanks, .symbol '(', .list, .symbol ')'] = none)
    (kind : PredicateKind) : kind.shape.read? {} ⟨z, ' ' :: (letters ++ rest)⟩ = none := by
  have parts := isIdentPart_of_mem named
  have nonempty : letters ≠ [] := by
    rintro rfl
    contradiction
  have blank : Stops isBlank (letters ++ rest) := stops_blank_letters parts nonempty
  have noSymbol {symbol : Char} (odd : isIdentPart symbol = false) :
      Stops (· == symbol) (letters ++ rest) := stops_letters parts nonempty odd
  cases kind with
  | equality | arrayEquality | integerLiteral | stringLiteral =>
      exact (read_blanks blank).trans (read_symbol_none (noSymbol rfl))
  | comparison => exact (read_blanks blank).trans (read_comparison_none parts nonempty)
  | membership =>
      refine (read_gap blank).trans (read_word_none fun after found => ?_)
      exact opening_behind_keyword parts (List.all_eq_true.mp rfl) h found
  | negatedMembership =>
      refine (read_gap blank).trans (read_word_none fun after found => ?_)
      exact gap_behind_keyword parts (List.all_eq_true.mp rfl) h.ends found positive
  | range =>
      refine (read_gap blank).trans (read_word_none fun after found => ?_)
      exact gap_behind_keyword parts (List.all_eq_true.mp rfl) h.ends found fun _ z => h.dollar z _ _
  | patternMatch =>
      refine (read_gap blank).trans (read_like_none ?_ ?_) <;> intro after found notes <;>
        exact gap_behind_keyword parts (List.all_eq_true.mp rfl) h.ends found fun _ z => h.dollar z _ _
  | nullCheck =>
      refine (read_gap blank).trans (read_word_none fun after found => ?_)
      exact gap_behind_keyword parts (List.all_eq_true.mp rfl) h.ends found fun _ => h.null

end

namespace Name

variable (name : Name)

theorem identPart_letters : ∀ c ∈ name.letters, isIdentPart c :=
  fun _ member => (namePart_of_mem member).identPart

@[simp] theorem map_foldLetter_letters : name.letters.map foldLetter = name.letters :=
  (List.map_congr_left fun _ member => (namePart_of_mem member).folded).trans (List.map_id _)

theorem map_foldLetter_ne_not : name.letters.map foldLetter ≠ ['n', 'o', 't'] := by
  intro same
  have reserved := name.unreserved
  rw [← name.ofList_letters, ← name.map_foldLetter_letters, same] at reserved
  contradiction

end Name

/-- Behind a word that is followed by a name and by what answers no shape, nothing is read. -/
theorem read_behind_name {name : Name} {rest : List Char} {z : Option Char} (h : Unanswering rest)
    (kind : PredicateKind) : kind.shape.read? {} ⟨z, ' ' :: (name.letters ++ rest)⟩ = none :=
  read_behind_word name.isIdentifier_letters h (fun same => absurd same name.map_foldLetter_ne_not) kind

end QueryHarvest.Sql
