import QueryHarvest.Proofs.Sql.Extraction

/-! # Identifiers among other words

A search goes through a statement word by word. Where identifiers in any case stand between fixed words,
nothing is read but the relation that follows a column.
-/

namespace QueryHarvest.Sql

open Number Text

/-- The name of a table or a column, in whatever case. -/
structure Identifier where
  letters : List Char
  isIdentifier : isIdentifier letters

namespace Identifier

variable (name : Identifier)

def text : String := String.ofList name.letters

/-- The name as it is reported. -/
def lowered : String := String.ofList (lower name.letters)

theorem identPart_letters : ∀ c ∈ name.letters, isIdentPart c :=
  isIdentPart_of_mem name.isIdentifier

theorem word_letters : ∀ c ∈ name.letters, isWord c :=
  fun c member => isWord_of_isIdentPart (name.identPart_letters c member)

/-- No mark stands in an identifier. -/
theorem not_mem_letters {mark : Char} (odd : isIdentPart mark = false) : mark ∉ name.letters := by
  intro member
  rw [name.identPart_letters mark member] at odd
  contradiction

theorem solid_letters : Solid name.letters where
  nonempty := by
    intro none
    have named := name.isIdentifier
    rw [none] at named
    contradiction
  passes c member := by
    have blank := isBlank_of_isIdentPart (name.identPart_letters c member)
    have apart {mark : Char} (odd : isIdentPart mark = false) : (c != mark) = true :=
      bne_iff_ne.mpr fun same => name.not_mem_letters odd (same ▸ member)
    rw [isSolid, isPlain, blank, apart rfl, apart rfl, apart rfl]
    rfl

@[simp] theorem toList_text : name.text.toList = name.letters :=
  String.toList_ofList

end Identifier

/-- An operator between a column and one placeholder. -/
inductive Relation where
  | equals
  | compares (comparison : Comparison)

namespace Relation

def operator : Relation → Operator
  | .equals => .equals
  | .compares comparison => .compares comparison

def text (r : Relation) : String := r.operator.text

/-- The kind of predicate under which the relation is reported. -/
def kind : Relation → PredicateKind
  | .equals => .equality
  | .compares _ => .comparison

/-- The relation to a placeholder. -/
def test (n : Nat) : Relation → Test
  | .equals => .equals n
  | .compares comparison => .compares comparison n

variable (r : Relation) (n : Nat)

@[simp] theorem isNullCheck_operator : r.operator.isNullCheck = false := by
  cases r <;> rfl

theorem toList_test : (r.text ++ " " ++ placeholder n).toList = (r.test n).spelled := by
  cases r <;> simp [text, operator, test, Test.spelled, Operator.text]

theorem report?_test : (r.test n).report? = some (r.kind, r.operator) := by
  cases r <;> rfl

theorem marks_test : Marks (r.test n).spelled := by
  cases r with
  | equals => exact marks_cons rfl (marks_cons rfl (marks_placeholder n))
  | compares comparison =>
      refine marks_append ?_ (marks_cons rfl (marks_placeholder n))
      cases comparison <;> simp [Comparison.spelled, Marks] <;> decide

/-- A relation is read to its end as the kind it is reported under. -/
theorem exists_read {z : Option Char} {tail : List Char} (stops : Stops isDigit tail) :
    ∃ z', r.kind.shape.read? {} ⟨z, ' ' :: ((r.test n).spelled ++ tail)⟩ =
      some ((r.test n).notes tail, ⟨z', tail⟩) := by
  cases r with
  | equals => exact ⟨_, read_placeholder n stops⟩
  | compares comparison => cases comparison <;> exact ⟨_, read_placeholder n stops⟩

/-- A relation is read as no other kind. -/
theorem read_none {kind : PredicateKind} (other : kind ≠ r.kind) (z : Option Char) (tail : List Char) :
    kind.shape.read? {} ⟨z, ' ' :: ((r.test n).spelled ++ tail)⟩ = none := by
  refine read_other fun operator own => other ?_
  rw [r.report?_test] at own
  cases own
  rfl

end Relation

/-- The parameter that an index stands for. -/
def numbered (parameters : List Value) (n : Nat) : Option Value :=
  if n = 0 then none else parameters[n - 1]?

theorem parameter?_eq_numbered (parameters : List Value) {n : Nat} (short : n < 10 ^ maxDigits) :
    parameter? parameters (Nat.toDigits 10 n) = .ok (numbered parameters n) := by
  cases n with
  | zero => rfl
  | succ n => exact parameter?_numbered parameters (Nat.succ_pos n) short

section

variable {parameters : List Value} {kind : PredicateKind}

/-- What is reported of a column with one value, if it is no reserved word. -/
def Identifier.reports (qualifier : Option Identifier) (column : Identifier) (operator : Operator)
    (found : Option Value) : List (Option String × String × Operator × List Value) :=
  if isReservedName column.lowered || qualifier.any fun table => isReservedName table.lowered then []
  else found.toList.map fun v => (qualifier.map Identifier.lowered, column.lowered, operator, [v])

/-- A predicate whose content is one value reports it of its column. -/
theorem reports_of_content {operator : Operator} {found : Option Value} (qualifier : Option Identifier)
    (column : Identifier) (notes : Notes) (valued : operator.isNullCheck = false)
    (content : Predicate.content ⟨qualifier.map Identifier.letters, column.letters, notes⟩ parameters kind =
      .ok (found.map fun v => (operator.text, [v]))) :
    Reports parameters kind [⟨qualifier.map Identifier.letters, column.letters, notes⟩]
      (Identifier.reports qualifier column operator found) := by
  have named : Predicate.columnName? ⟨qualifier.map Identifier.letters, column.letters, notes⟩ =
      if isReservedName column.lowered || qualifier.any fun table => isReservedName table.lowered then none
      else some ⟨qualifier.map Identifier.lowered, column.lowered⟩ := by
    cases qualifier <;> rfl
  rw [Identifier.reports]
  split
  · next reserved =>
    rw [if_pos reserved] at named
    exact .dropped (by rw [Predicate.condition?, named]; rfl)
  · next reserved =>
    rw [if_neg reserved] at named
    cases found with
    | none =>
        refine .dropped ?_
        simp only [Predicate.condition?, named, content]
        rfl
    | some v =>
        have made := @ofSpelling_text operator (qualifier.map Identifier.lowered) column.lowered [v]
          (by rw [valued]; rfl)
        refine .single (c := ⟨_, _, operator, [v], by rw [valued]; rfl⟩) ?_
        simp only [Predicate.condition?, named, content, Option.map_some, ok_bind, made]
        rfl

theorem content_relation (r : Relation) {n : Nat} (short : n < 10 ^ maxDigits) (parameters : List Value)
    (qualifier : Option (List Char)) (column tail : List Char) :
    Predicate.content ⟨qualifier, column, (r.test n).notes tail⟩ parameters r.kind =
      .ok ((numbered parameters n).map fun v => (r.operator.text, [v])) := by
  have value := parameter?_eq_numbered parameters short
  cases r with
  | equals =>
      simp only [Predicate.content, Predicate.parameterAt, Relation.test, Relation.kind, Test.notes,
        List.getElem?_cons_zero, value]
      cases numbered parameters n <;> rfl
  | compares comparison =>
      simp only [Predicate.content, Predicate.parameterAt, Relation.test, Relation.kind, Test.notes,
        List.getElem?_cons_zero, value, comparison_text]
      cases numbered parameters n <;> rfl

end

section

variable {α : Type} {p : Pattern α} {z : Option Char} {word rest : List Char}

/-- A word that no match begins with is passed over with the mark behind it. -/
theorem valuesFrom_word_mark (hp : p.Anchored) {mark : Char} (odd : isIdentStart mark = false)
    (letters : ∀ x ∈ word, isWord x) (missed : p.match? ⟨z, word ++ mark :: rest⟩ = none) :
    p.valuesFrom ⟨z, word ++ mark :: rest⟩ = p.valuesFrom ⟨some mark, rest⟩ := by
  rw [hp.valuesFrom_word letters missed]
  exact hp.valuesFrom_marks [mark] (marks_cons odd marks_nil)

/-- Nothing is found in marks at the end of a text. -/
theorem valuesFrom_marks_end (hp : p.Anchored) (h : Marks rest) : p.valuesFrom ⟨z, rest⟩ = [] := by
  have passed : p.valuesFrom ⟨z, rest ++ []⟩ = p.valuesFrom ⟨_, []⟩ := hp.valuesFrom_marks rest h
  rwa [List.append_nil, Pattern.valuesFrom_nil] at passed

theorem read_number_none {notes : Notes} {shape : Shape} (stops : Stops isDigit rest) :
    Shape.read? notes ⟨z, rest⟩ (.number :: shape) = none := by
  have read := @Cursor.span_append isDigit z [] rest (by simp) stops
  rw [Shape.read?, Piece.read?, Cursor.span1?, show rest = [] ++ rest from rfl, read]
  rfl

theorem read_quoted_none {notes : Notes} {shape : Shape} (stops : Stops (· == '\x27') rest) :
    Shape.read? notes ⟨z, rest⟩ (.quoted :: shape) = none := by
  cases rest with
  | nil => rfl
  | cons x rest => simp [Shape.read?, Piece.read?, Piece.readQuoted?, stops x rfl]

/-- No identifier begins with a digit. -/
theorem stops_digit_identifier (named : isIdentifier word) : Stops isDigit (word ++ rest) := by
  cases word with
  | nil => contradiction
  | cons x word => exact stops_cons (isDigit_of_isIdentStart (Bool.and_eq_true_iff.mp named).1)

/-- Behind an equals sign and an identifier that is followed by what answers no shape, nothing is read. -/
theorem read_behind_equals (named : isIdentifier word) (h : Unanswering rest) (kind : PredicateKind) :
    kind.shape.read? {} ⟨z, ' ' :: '=' :: ' ' :: (word ++ rest)⟩ = none := by
  have parts := isIdentPart_of_mem named
  have nonempty : word ≠ [] := by
    rintro rfl
    contradiction
  have blank : Stops isBlank (word ++ rest) := stops_blank_letters parts nonempty
  cases kind with
  | equality => exact (read_blanks blank).trans (read_placeholder_none (stops_letters parts nonempty rfl))
  | arrayEquality =>
      refine (read_blanks blank).trans (read_word_none fun after found => ?_)
      exact opening_behind_keyword parts (List.all_eq_true.mp rfl) h found
  | integerLiteral => exact (read_blanks blank).trans (read_number_none (stops_digit_identifier named))
  | stringLiteral => exact (read_blanks blank).trans (read_quoted_none (stops_letters parts nonempty rfl))
  | comparison | membership | negatedMembership | range | patternMatch | nullCheck => rfl

theorem isIdentStart_of_mark {mark : Char} (odd : isIdentPart mark = false) : isIdentStart mark = false :=
  Bool.eq_false_iff.mpr fun start => by simp [isIdentPart_of_isIdentStart start] at odd

/-- A word behind which a family of bare columns reads nothing is passed over. -/
theorem valuesFrom_unread {kind : PredicateKind} {mark : Char} (begins : isWord? z = false)
    (named : isIdentifier word) (odd : isIdentPart mark = false)
    (unread : ∀ z, kind.shape.read? {} ⟨z, mark :: rest⟩ = none) :
    kind.bare.valuesFrom ⟨z, word ++ mark :: rest⟩ = kind.bare.valuesFrom ⟨some mark, rest⟩ := by
  refine valuesFrom_word_mark (anchored_family _) (isIdentStart_of_mark odd)
    (fun x member => isWord_of_isIdentPart (isIdentPart_of_mem named x member)) ?_
  rw [match?_word begins named (stops_cons odd), unread]
  rfl

/-- The pattern of a kind of predicate on qualified columns. -/
abbrev PredicateKind.qualified (kind : PredicateKind) : Pattern Predicate :=
  Family.pattern ⟨kind, true⟩

/-- At two words with a point between them a family of qualified columns reads a table and a column. -/
theorem match?_qualified {kind : PredicateKind} {table column : List Char} (begins : isWord? z = false)
    (named : isIdentifier table) (named' : isIdentifier column) (stops : Stops isIdentPart rest) :
    kind.qualified.match? ⟨z, table ++ '.' :: (column ++ rest)⟩ =
      (kind.shape.read? {} ⟨column.getLast?, rest⟩).map
        fun (notes, after) => (⟨some table, column, notes⟩, after) := by
  have here : Cursor.beginsWord ⟨z, table ++ '.' :: (column ++ rest)⟩ = true := by
    rw [Cursor.beginsWord, begins]
    rfl
  have read : readColumn? true ⟨z, table ++ '.' :: (column ++ rest)⟩ =
      some ((some table, column), ⟨column.getLast?, rest⟩) := by
    rw [readColumn?, Cursor.identifier?_append named (stops_cons rfl)]
    simp only [Option.bind_eq_bind, Option.bind_some, if_true]
    rw [Cursor.one?_of_passes (by rfl), Option.bind_some, Cursor.identifier?_append named' stops]
    rfl
  simp only [Family.pattern, here, if_true, Family.readPredicate?, read]
  rw [Option.map_eq_bind]
  rfl

/-- A word without a point behind it is passed over by a family of qualified columns. -/
theorem valuesFrom_unqualified {kind : PredicateKind} {mark : Char} (named : isIdentifier word)
    (odd : isIdentPart mark = false) (other : mark ≠ '.') :
    kind.qualified.valuesFrom ⟨z, word ++ mark :: rest⟩ = kind.qualified.valuesFrom ⟨some mark, rest⟩ := by
  refine valuesFrom_word_mark (anchored_family _) (isIdentStart_of_mark odd)
    (fun x member => isWord_of_isIdentPart (isIdentPart_of_mem named x member)) ?_
  have read : readColumn? true ⟨z, word ++ mark :: rest⟩ = none := by
    rw [readColumn?, Cursor.identifier?_append named (stops_cons odd)]
    simp [other]
  simp [Family.pattern, Family.readPredicate?, read]

/-- A table and a column behind which nothing is read are passed over. -/
theorem valuesFrom_unread_column {kind : PredicateKind} {mark : Char} (begins : isWord? z = false)
    (table column : Identifier) (odd : isIdentPart mark = false) (other : mark ≠ '.')
    (unread : ∀ z, kind.shape.read? {} ⟨z, mark :: rest⟩ = none) :
    kind.qualified.valuesFrom ⟨z, table.letters ++ '.' :: (column.letters ++ mark :: rest)⟩ =
      kind.qualified.valuesFrom ⟨some mark, rest⟩ := by
  have missed : kind.qualified.match? ⟨z, table.letters ++ '.' :: (column.letters ++ mark :: rest)⟩ = none := by
    rw [match?_qualified begins table.isIdentifier column.isIdentifier (stops_cons odd), unread]
    rfl
  rw [valuesFrom_word_mark (anchored_family _) rfl table.word_letters missed,
    valuesFrom_unqualified column.isIdentifier odd other]

/-- A family of bare columns comes to the table that is selected from. -/
theorem valuesFrom_selected {kind : PredicateKind} (begins : isWord? z = false)
    (unread : ∀ z, kind.shape.read? {} ⟨z, ' ' :: rest⟩ = none) :
    kind.bare.valuesFrom ⟨z, 'S' :: 'E' :: 'L' :: 'E' :: 'C' :: 'T' :: ' ' :: '*' :: ' ' ::
      'F' :: 'R' :: 'O' :: 'M' :: ' ' :: rest⟩ = kind.bare.valuesFrom ⟨some ' ', rest⟩ := by
  calc kind.bare.valuesFrom ⟨z, ['S', 'E', 'L', 'E', 'C', 'T'] ++ ' ' :: '*' :: ' ' ::
          'F' :: 'R' :: 'O' :: 'M' :: ' ' :: rest⟩
    _ = kind.bare.valuesFrom ⟨some ' ', ['*', ' '] ++ 'F' :: 'R' :: 'O' :: 'M' :: ' ' :: rest⟩ :=
      valuesFrom_unread begins rfl rfl fun z => by cases kind <;> rfl
    _ = kind.bare.valuesFrom ⟨some ' ', ['F', 'R', 'O', 'M'] ++ ' ' :: rest⟩ :=
      (anchored_family _).valuesFrom_marks _ (marks_cons rfl (marks_cons rfl marks_nil))
    _ = kind.bare.valuesFrom ⟨some ' ', rest⟩ := valuesFrom_unread rfl rfl rfl unread

/-- So does a family of qualified columns. -/
theorem valuesFrom_selected_qualified {kind : PredicateKind} :
    kind.qualified.valuesFrom ⟨z, 'S' :: 'E' :: 'L' :: 'E' :: 'C' :: 'T' :: ' ' :: '*' :: ' ' ::
      'F' :: 'R' :: 'O' :: 'M' :: ' ' :: rest⟩ = kind.qualified.valuesFrom ⟨some ' ', rest⟩ := by
  have spaced {z : Option Char} (word : List Char) {rest : List Char} (named : isIdentifier word) :
      kind.qualified.valuesFrom ⟨z, word ++ ' ' :: rest⟩ = kind.qualified.valuesFrom ⟨some ' ', rest⟩ :=
    valuesFrom_unqualified named rfl (by decide)
  calc kind.qualified.valuesFrom ⟨z, ['S', 'E', 'L', 'E', 'C', 'T'] ++ ' ' :: '*' :: ' ' ::
          'F' :: 'R' :: 'O' :: 'M' :: ' ' :: rest⟩
    _ = kind.qualified.valuesFrom ⟨some ' ', ['*', ' '] ++ 'F' :: 'R' :: 'O' :: 'M' :: ' ' :: rest⟩ :=
      spaced _ rfl
    _ = kind.qualified.valuesFrom ⟨some ' ', ['F', 'R', 'O', 'M'] ++ ' ' :: rest⟩ :=
      (anchored_family _).valuesFrom_marks _ (marks_cons rfl (marks_cons rfl marks_nil))
    _ = kind.qualified.valuesFrom ⟨some ' ', rest⟩ := spaced _ rfl

end

section

variable {parameters : List Value} {z : Option Char} {n : Nat} {tail : List Char}
  (column : Identifier) (r : Relation) (kind : PredicateKind)

/-- In a relation at the end of a statement a family of bare columns finds the relation, if it is of its
kind. -/
theorem reports_relation (short : n < 10 ^ maxDigits) (begins : isWord? z = false) (marks : Marks tail)
    (stops : Stops isDigit tail) :
    Reports parameters kind
      (kind.bare.valuesFrom ⟨z, column.letters ++ ' ' :: ((r.test n).spelled ++ tail)⟩)
      (if kind = r.kind then Identifier.reports none column r.operator (numbered parameters n) else []) := by
  split
  · next same =>
    subst same
    obtain ⟨z', read⟩ := @Relation.exists_read r n column.letters.getLast? tail stops
    have found := @match?_word r.kind _ _ (' ' :: ((r.test n).spelled ++ tail)) begins column.isIdentifier
      (stops_cons rfl)
    rw [read] at found
    rw [Pattern.valuesFrom_match found, valuesFrom_marks_end (anchored_family _) marks]
    exact reports_of_content none column _ r.isNullCheck_operator
      (content_relation r short parameters none column.letters tail)
  · next other =>
    rw [valuesFrom_unread begins column.isIdentifier rfl fun z => r.read_none n other z tail,
      valuesFrom_marks_end (anchored_family _) (marks_append (r.marks_test n) marks)]
    exact .nil

/-- So does a family of qualified columns, with the table. -/
theorem reports_qualified_relation (table : Identifier) (short : n < 10 ^ maxDigits)
    (begins : isWord? z = false) (marks : Marks tail) (stops : Stops isDigit tail) :
    Reports parameters kind
      (kind.qualified.valuesFrom
        ⟨z, table.letters ++ '.' :: (column.letters ++ ' ' :: ((r.test n).spelled ++ tail))⟩)
      (if kind = r.kind then Identifier.reports (some table) column r.operator (numbered parameters n)
        else []) := by
  split
  · next same =>
    subst same
    obtain ⟨z', read⟩ := @Relation.exists_read r n column.letters.getLast? tail stops
    have found := @match?_qualified _ (' ' :: ((r.test n).spelled ++ tail)) r.kind _ _ begins
      table.isIdentifier column.isIdentifier (stops_cons rfl)
    rw [read] at found
    rw [Pattern.valuesFrom_match found, valuesFrom_marks_end (anchored_family _) marks]
    exact reports_of_content (some table) column _ r.isNullCheck_operator
      (content_relation r short parameters (some table.letters) column.letters tail)
  · next other =>
    rw [valuesFrom_unread_column begins table column rfl (by decide) fun z => r.read_none n other z tail,
      valuesFrom_marks_end (anchored_family _) (marks_append (r.marks_test n) marks)]
    exact .nil

end

end QueryHarvest.Sql
