import QueryHarvest.Proofs.Capture.Stretches
import QueryHarvest.Proofs.Sql.Joins
import QueryHarvest.Proofs.Sql.Sources
import QueryHarvest.Proofs.Sql.Stripping

/-! # A filter with a literal

A literal passes the removal of comments as a whole, and its runs of blanks become single spaces. A
filter of a qualified column by a literal without quotes is found with just that text, behind whatever
is found in the literal as if it stood alone.
-/

namespace QueryHarvest.Sql

open Text
open Capture (enclosed)

namespace Written

/-- In front of a text, a piece is written as it stands. -/
def IsKept (piece rest : List Char) : Prop :=
  ∀ (w : Written) (text : List Char), w.Holds text →
    ∃ w' : Written, w.Leads (piece ++ rest) w' rest ∧ w'.Holds (piece.reverse ++ text)

section

variable {piece more rest content : List Char}

theorem IsKept.append (first : IsKept piece (more ++ rest)) (second : IsKept more rest) :
    IsKept (piece ++ more) rest := by
  intro w text holds
  obtain ⟨w', leads, held⟩ := first w text holds
  obtain ⟨w'', later, last⟩ := second w' _ held
  refine ⟨w'', ?_, ?_⟩
  · rw [List.append_assoc]
    exact leads.trans later
  · rw [List.reverse_append, List.append_assoc]
    exact last

theorem isKept_lexeme (nonempty : piece ≠ []) (going : ';' ∉ piece ∨ 2 ≤ piece.length)
    (h : ∀ before, lexemeAt ⟨before, piece ++ rest⟩ = ⟨false, piece.length⟩) : IsKept piece rest := by
  intro w text holds
  refine ⟨w.keep piece, leads_kept nonempty h, ?_⟩
  rcases going with going | long
  · exact holds.keep going
  · unfold Written.keep
    split
    · simp at long
    · exact ⟨by rw [holds.text], rfl⟩

theorem isKept_space : IsKept [' '] rest :=
  fun _ _ holds => ⟨_, blank_written rfl holds rest⟩

/-- A word is kept that does not go on behind its identifier. -/
theorem isKept_identifier (name : Identifier)
    (stops : Stops (fun x => isWord x || x == '$' || x == '#') rest) : IsKept name.letters rest := by
  have letters := name.identPart_letters
  have solid := name.solid_letters
  refine isKept_lexeme solid.nonempty (.inl (name.not_mem_letters rfl)) fun before => ?_
  cases spelled : name.letters with
  | nil => exact absurd spelled solid.nonempty
  | cons c others =>
      rw [spelled] at letters
      have unmarked : c ∉ openingMarks := by
        intro member
        have marks : openingMarks.all (!isIdentPart ·) := by decide +kernel
        have mark := List.all_eq_true.mp marks c member
        rw [letters c (List.mem_cons_self ..)] at mark
        contradiction
      have word (x : Char) (member : x ∈ c :: others) : isWord x = true :=
        isWord_of_isIdentPart (letters x member)
      have length : (others ++ rest).takeWhile (fun x => isWord x || x == '$' || x == '#') = others := by
        rw [takeWhile_append stops, List.takeWhile_eq_self_iff]
        exact fun x member => by simp [word x (List.mem_cons_of_mem _ member)]
      rw [List.cons_append, lexemeAt_of_not_mem unmarked]
      simp only [wordLength?, word c (List.mem_cons_self ..), if_true, length]
      simp [Nat.add_comm]

theorem isKept_mark {c : Char} (h : c ∈ ['*', '.', '=']) : IsKept [c] rest := by
  have facts : c ∉ openingMarks ∧ c ≠ ';' ∧ isWord c = false ∧ isOperatorChar c = false ∧
      c ∉ ['$', ':', '?', '<'] := by
    simp only [List.mem_cons, List.not_mem_nil, or_false] at h
    rcases h with rfl | rfl | rfl <;> decide +kernel
  obtain ⟨unmarked, going, noWord, single, sigil⟩ := facts
  simp only [List.mem_cons, List.not_mem_nil, or_false, not_or] at sigil
  refine isKept_lexeme (List.cons_ne_nil c []) (.inl (by simpa using going.symm)) fun before => ?_
  have word : wordLength? (c :: rest) = none := by simp [wordLength?, noWord, sigil]
  rw [List.singleton_append, lexemeAt_of_not_mem unmarked, word,
    operatorLength?_eq_none single fun same => absurd same sigil.2.2.2]
  rfl

/-- A literal at the end of a text is closed by the last quote. -/
theorem lengthToClose?_end (whole : ∀ c ∈ content, c ≠ '\x27') :
    lengthToClose? '\x27' true (content ++ ['\x27']) = some (content.length + 1) := by
  induction content with
  | nil => rfl
  | cons c content ih =>
      obtain ⟨other, inside⟩ := List.forall_mem_cons.mp whole
      have later := ih inside
      rw [List.cons_append, lengthToClose?.eq_def]
      simp only [beq_iff_eq, other, if_false, Bool.true_and]
      split
      · cases content with
        | nil => rfl
        | cons d content =>
            have apart : d ≠ '\x27' := inside d (List.mem_cons_self ..)
            rw [List.cons_append] at later
            simp [apart, later]
      · rw [later]
        rfl

theorem isKept_literal (whole : ∀ c ∈ content, c ≠ '\x27') : IsKept (enclosed content) [] := by
  have quoted : quotedPiece? (enclosed content) = some (content.length + 2) := by
    simp [enclosed, quotedPiece?, lengthToClose?_end whole]
  have noTag : dollarTag? (enclosed content) = none := rfl
  have noComment : (blockComment? (enclosed content) <|> lineComment? (enclosed content)) = none := rfl
  have length : (enclosed content).length = content.length + 2 := by simp [enclosed]
  refine isKept_lexeme (List.cons_ne_nil _ _) (.inr (by rw [length]; omega)) fun before => ?_
  rw [List.append_nil, lexemeAt, dollarBody?_eq_none noTag]
  dsimp only
  rw [noComment, quoted, length]
  rfl

theorem IsKept.stripComments_eq (h : IsKept piece []) : stripComments piece = piece := by
  have start : Holds {} [] := ⟨rfl, rfl⟩
  obtain ⟨w, leads, holds⟩ := h _ _ start
  obtain ⟨last, read⟩ := leads none
  have final : w.writeFrom ⟨last, []⟩ = w := by
    rw [writeFrom]
    rfl
  rw [List.append_nil] at read holds
  rw [stripComments, Cursor.start, read, final, holds.text, List.reverse_reverse]

/-- Whether or not its comments are looked for, such a text is only collapsed and trimmed. -/
theorem IsKept.normalForm_eq (h : IsKept piece []) : normalForm piece = trim (collapse piece) := by
  rw [normalForm, h.stripComments_eq, ite_self]

end

end Written

theorem collapse_enclosed (content : List Char) :
    collapse (enclosed content) = enclosed (collapse content) := by
  rw [enclosed, List.cons_append, collapse_cons, collapseStep_solid rfl, collapse_concat rfl]
  rfl

/-- A literal, in a filter of a column of the table that is selected from. -/
structure LiteralFilter where
  table : Identifier
  column : Identifier
  content : List Char
  filled : content ≠ []
  whole : ∀ c ∈ content, c ≠ '\x27'

namespace LiteralFilter

variable (f : LiteralFilter)

def literal : String := String.ofList (enclosed f.content)

def text : String :=
  "SELECT * FROM " ++ f.table.text ++ " WHERE " ++ f.table.text ++ "." ++ f.column.text ++ " = " ++
    f.literal

/-- The statement with some text in the place of the literal. -/
def spelled (rest : List Char) : List Char :=
  'S' :: 'E' :: 'L' :: 'E' :: 'C' :: 'T' :: ' ' :: '*' :: ' ' :: 'F' :: 'R' :: 'O' :: 'M' :: ' ' ::
    (f.table.letters ++ ' ' :: 'W' :: 'H' :: 'E' :: 'R' :: 'E' :: ' ' ::
      (f.table.letters ++ '.' :: (f.column.letters ++ ' ' :: '=' :: ' ' :: rest)))

theorem toList_text : f.text.toList = f.spelled (enclosed f.content) := by
  have quoted : f.literal.toList = enclosed f.content := String.toList_ofList
  unfold text spelled
  rw [← quoted]
  generalize f.literal = literal
  simp

/-- The content with a space for every run of blanks. -/
def collapsed : List Char := collapse f.content

theorem isKept_text : Written.IsKept (f.spelled (enclosed f.content)) [] := by
  have word (letters : List Char) (named : isIdentifier letters) {c : Char} {rest : List Char}
      (stops : (isWord c || c == '$' || c == '#') = false) (later : Written.IsKept (c :: rest) []) :
      Written.IsKept (letters ++ c :: rest) [] :=
    .append (Written.isKept_identifier ⟨letters, named⟩ (stops_cons stops)) later
  have space {rest : List Char} (later : Written.IsKept rest []) : Written.IsKept (' ' :: rest) [] :=
    show Written.IsKept ([' '] ++ rest) [] from .append Written.isKept_space later
  have mark {c : Char} (h : c ∈ ['*', '.', '=']) {rest : List Char} (later : Written.IsKept rest []) :
      Written.IsKept (c :: rest) [] :=
    show Written.IsKept ([c] ++ rest) [] from .append (Written.isKept_mark h) later
  refine word ['S', 'E', 'L', 'E', 'C', 'T'] rfl rfl (space (mark (by simp) (space ?_)))
  refine word ['F', 'R', 'O', 'M'] rfl rfl (space (word _ f.table.isIdentifier rfl (space ?_)))
  refine word ['W', 'H', 'E', 'R', 'E'] rfl rfl (space (word _ f.table.isIdentifier rfl ?_))
  refine mark (by simp) ?_
  refine word _ f.column.isIdentifier rfl (space (mark (by simp) (space ?_)))
  exact Written.isKept_literal f.whole

theorem normalForm_literal : normalForm f.literal.toList = enclosed f.collapsed := by
  have kept := (Written.isKept_literal f.whole).normalForm_eq
  rw [literal, String.toList_ofList, kept, collapse_enclosed]
  exact trim_eq (stops_cons rfl) (by simp [enclosed, Stops]; rfl)

theorem rowed_front : ∃ front, Rowed isPlain front ∧ ∀ rest, f.spelled rest = front ++ ' ' :: rest := by
  have plain {word : List Char} (nonempty : word ≠ []) (h : word.all isPlain) : IsRun isPlain word :=
    ⟨nonempty, List.all_eq_true.mp h⟩
  have filter := Rowed.cons (plain (List.cons_ne_nil 'W' ['H', 'E', 'R', 'E']) rfl)
    (.cons (Join.plain_column f.table f.column) (.word (plain (List.cons_ne_nil '=' []) rfl)))
  have whole := Rowed.cons (plain (List.cons_ne_nil 'S' ['E', 'L', 'E', 'C', 'T']) rfl)
    (.cons (plain (List.cons_ne_nil '*' []) rfl)
      (.cons (plain (List.cons_ne_nil 'F' ['R', 'O', 'M']) rfl)
        (.cons (f.table.solid_letters.mono isPlain_of_isSolid) filter)))
  exact ⟨_, whole, fun rest => by simp [spelled]⟩

theorem normalForm_text : normalForm f.text.toList = f.spelled (enclosed f.collapsed) := by
  obtain ⟨front, rowed, spelled⟩ := f.rowed_front
  have collapsed : collapse (f.spelled (enclosed f.content)) = f.spelled (enclosed f.collapsed) := by
    rw [spelled, spelled, rowed.collapse_join, collapse_enclosed]
    · rfl
    · rw [collapse_enclosed]
      exact stops_cons rfl
  rw [f.toList_text, f.isKept_text.normalForm_eq, collapsed]
  refine trim_eq (stops_cons rfl) ?_
  rw [spelled]
  simp [enclosed, Stops]
  rfl

section

variable {kind : PredicateKind}

/-- A family of bare columns comes to the literal. -/
theorem valuesFrom_bare (other : kind ≠ .stringLiteral) (content : List Char) :
    kind.bare.valuesFrom (Cursor.start (f.spelled (enclosed content))) =
      kind.bare.valuesFrom (Cursor.start (enclosed content)) := by
  have selected : Unanswering (' ' :: 'W' :: 'H' :: 'E' :: 'R' :: 'E' :: ' ' :: (f.table.letters ++
      '.' :: (f.column.letters ++ ' ' :: '=' :: ' ' :: enclosed content))) :=
    ⟨stops_cons rfl, fun _ _ _ => rfl, fun _ _ _ => rfl, fun _ => rfl⟩
  have anchored := anchored_family ⟨kind, false⟩
  rw [spelled]
  calc kind.bare.valuesFrom ⟨none, 'S' :: 'E' :: 'L' :: 'E' :: 'C' :: 'T' :: ' ' :: '*' :: ' ' ::
          'F' :: 'R' :: 'O' :: 'M' :: ' ' :: (f.table.letters ++ ' ' ::
            'W' :: 'H' :: 'E' :: 'R' :: 'E' :: ' ' ::
              (f.table.letters ++ '.' :: (f.column.letters ++ ' ' :: '=' :: ' ' :: enclosed content)))⟩
    _ = kind.bare.valuesFrom ⟨some ' ', f.table.letters ++ ' ' :: 'W' :: 'H' :: 'E' :: 'R' :: 'E' :: ' ' ::
            (f.table.letters ++ '.' :: (f.column.letters ++ ' ' :: '=' :: ' ' :: enclosed content))⟩ :=
      valuesFrom_selected rfl fun z =>
        read_behind_word f.table.isIdentifier selected (fun _ _ => rfl) kind
    _ = kind.bare.valuesFrom ⟨some ' ', ['W', 'H', 'E', 'R', 'E'] ++ ' ' ::
            (f.table.letters ++ '.' :: (f.column.letters ++ ' ' :: '=' :: ' ' :: enclosed content))⟩ :=
      valuesFrom_unread rfl f.table.isIdentifier rfl fun z => by cases kind <;> rfl
    _ = kind.bare.valuesFrom ⟨some '.', f.column.letters ++ ' ' :: '=' :: ' ' :: enclosed content⟩ :=
      Join.valuesFrom_toColumn rfl f.table
    _ = kind.bare.valuesFrom ⟨some ' ', ['=', ' '] ++ enclosed content⟩ :=
      valuesFrom_unread rfl f.column.isIdentifier rfl fun z => by
        cases kind <;> first | rfl | exact absurd rfl other
    _ = kind.bare.valuesFrom ⟨some ' ', enclosed content⟩ :=
      anchored.valuesFrom_marks _ (marks_cons rfl (marks_cons rfl marks_nil))
    _ = kind.bare.valuesFrom (Cursor.start (enclosed content)) :=
      anchored.valuesFrom_before (stops_cons rfl) none

/-- A family of qualified columns comes to the column. -/
theorem valuesFrom_toFilter (rest : List Char) :
    kind.qualified.valuesFrom (Cursor.start (f.spelled rest)) =
      kind.qualified.valuesFrom
        ⟨some ' ', f.table.letters ++ '.' :: (f.column.letters ++ ' ' :: '=' :: ' ' :: rest)⟩ := by
  have spaced {z : Option Char} (word : List Char) {rest : List Char} (named : isIdentifier word) :
      kind.qualified.valuesFrom ⟨z, word ++ ' ' :: rest⟩ = kind.qualified.valuesFrom ⟨some ' ', rest⟩ :=
    valuesFrom_unqualified named rfl (by decide)
  rw [Cursor.start, spelled, valuesFrom_selected_qualified, spaced _ f.table.isIdentifier]
  exact spaced ['W', 'H', 'E', 'R', 'E'] rfl

theorem valuesFrom_qualified_other (other : kind ≠ .stringLiteral) (content : List Char) :
    kind.qualified.valuesFrom (Cursor.start (f.spelled (enclosed content))) =
      kind.qualified.valuesFrom (Cursor.start (enclosed content)) := by
  have anchored := anchored_family ⟨kind, true⟩
  have unread : ∀ z, kind.shape.read? {} ⟨z, ' ' :: '=' :: ' ' :: enclosed content⟩ = none := fun z => by
    cases kind <;> first | rfl | exact absurd rfl other
  rw [f.valuesFrom_toFilter, valuesFrom_unread_column rfl f.table f.column rfl (by decide) unread]
  exact (anchored.valuesFrom_marks ['=', ' '] (marks_cons rfl (marks_cons rfl marks_nil))).trans
    (anchored.valuesFrom_before (stops_cons rfl) none)

/-- The literal is read behind the column as it stands. -/
theorem valuesFrom_filter {content : List Char} (filled : content ≠ [])
    (whole : ∀ c ∈ content, c ≠ '\x27') :
    PredicateKind.stringLiteral.qualified.valuesFrom (Cursor.start (f.spelled (enclosed content))) =
      [⟨some f.table.letters, f.column.letters, { text := content }⟩] := by
  have inside := @Cursor.span1?_append (· != '\x27') (some '\x27') content ['\x27'] filled
    (by simpa using whole) (stops_cons rfl)
  have quoted : Piece.readQuoted? ⟨some ' ', enclosed content⟩ = some (content, ⟨some '\x27', []⟩) := by
    simp [Piece.readQuoted?, enclosed, inside]
  have read (z : Option Char) : PredicateKind.stringLiteral.shape.read? {}
      ⟨z, ' ' :: '=' :: ' ' :: enclosed content⟩ = some ({ text := content }, ⟨some '\x27', []⟩) := by
    calc PredicateKind.stringLiteral.shape.read? {} ⟨z, ' ' :: '=' :: ' ' :: enclosed content⟩
      _ = Shape.read? {} ⟨some ' ', enclosed content⟩ [.quoted] := rfl
      _ = _ := by
        rw [Shape.read?, Piece.read?, quoted]
        rfl
  have found := @match?_qualified (some ' ') (' ' :: '=' :: ' ' :: enclosed content) .stringLiteral _ _ rfl
    f.table.isIdentifier f.column.isIdentifier (stops_cons rfl)
  rw [read] at found
  rw [f.valuesFrom_toFilter, Pattern.valuesFrom_match found, Pattern.valuesFrom_nil]

end

end LiteralFilter

section

variable {content : List Char}

/-- A predicate begins with a letter or an underscore. -/
theorem Predicate.Stands.stops {p : Predicate} {f : Family} {text read rest : List Char}
    (h : p.Stands f text read rest) {symbol : Char} (odd : isIdentPart symbol = false)
    (more : List Char) :
    Stops (· == symbol) (p.spelledColumn ++ more) := by
  have named {name : List Char} (identifier : isIdentifier name) (more : List Char) :
      Stops (· == symbol) (name ++ more) :=
    stops_letters (isIdentPart_of_mem identifier) (by rintro rfl; contradiction) odd
  rw [spelledColumn]
  cases qualifier : p.qualifier with
  | none => exact named h.column more
  | some table =>
      rw [Option.elim_some, List.append_assoc]
      exact named (h.qualifier table qualifier) _

/-- No literal is found inside a literal. -/
theorem predicatesIn_enclosed (whole : ∀ c ∈ content, c ≠ '\x27') (qualified : Bool) :
    Family.predicatesIn ⟨.stringLiteral, qualified⟩ (enclosed content) = [] := by
  refine List.eq_nil_iff_forall_not_mem.mpr fun found member => ?_
  obtain ⟨read, rest, stands⟩ := stands_of_mem_predicatesIn member
  obtain ⟨literal, more, _, _, reads, -, -, before, after, -, -, place⟩ := equates stands rfl rfl
  cases reads with
  | @quoted _ body _ _ =>
      rcases List.suffix_cons_iff.mp place with same | inside
      · -- the first quote stands in front of no column
        have first : Stops (· == '\x27') (found.value.spelledColumn ++
            (before ++ '=' :: (after ++ (('\x27' :: (body ++ ['\x27'])) ++ (more ++ rest))))) :=
          stands.stops rfl _
        rw [same] at first
        exact absurd (first '\x27' rfl) (by decide)
      · have fewer := inside.sublist.count_le '\x27'
        have none : content.count '\x27' = 0 := List.count_eq_zero.mpr fun member => whole _ member rfl
        simp [none] at fewer
        omega

/-- Whatever a kind of predicate reads behind its column holds a blank or a sign. -/
theorem exists_sign {kind : PredicateKind} {read rest : List Char} {notes : Notes}
    (h : kind.shape.Reads {} read rest notes) :
    ∃ c ∈ read, isBlank c ∨ c ∈ ['=', '<', '>', '!'] := by
  have gap {shape : Shape} (h : Shape.Reads (.gap :: shape) {} read rest notes) :
      ∃ c ∈ read, isBlank c ∨ c ∈ ['=', '<', '>', '!'] := by
    obtain ⟨_, _, _, rfl, first, -⟩ := h.of_cons
    cases first with
    | gap nonempty blank =>
        obtain ⟨c, others, rfl⟩ := List.exists_cons_of_ne_nil nonempty
        exact ⟨c, List.mem_cons_self .., .inl (blank c (List.mem_cons_self ..))⟩
  have equals {shape : Shape} (h : Shape.Reads (.blanks :: .symbol '=' :: shape) {} read rest notes) :
      ∃ c ∈ read, isBlank c ∨ c ∈ ['=', '<', '>', '!'] := by
    obtain ⟨_, _, _, rfl, -, h⟩ := h.of_cons
    obtain ⟨_, _, _, rfl, second, -⟩ := h.of_cons
    cases second with
    | symbol => exact ⟨'=', by simp, .inr (by simp)⟩
  cases kind with
  | membership | negatedMembership | range | patternMatch | nullCheck => exact gap h
  | equality | arrayEquality | integerLiteral | stringLiteral => exact equals h
  | comparison =>
      obtain ⟨_, _, _, rfl, -, h⟩ := h.of_cons
      obtain ⟨_, _, _, rfl, second, -⟩ := h.of_cons
      cases second with
      | comparison comparison =>
          have sign : ∃ c ∈ comparison.text.toList, c ∈ ['=', '<', '>', '!'] := by
            cases comparison <;> simp [Comparison.text]
          obtain ⟨c, member, sign⟩ := sign
          exact ⟨c, List.mem_append_right _ (List.mem_append_left _ member), .inr sign⟩

/-- Nothing is found in a literal without blanks and signs. -/
theorem predicatesIn_unsigned (unsigned : ∀ c ∈ content, isBlank c = false ∧ c ∉ ['=', '<', '>', '!'])
    (f : Family) : f.predicatesIn (enclosed content) = [] := by
  refine List.eq_nil_iff_forall_not_mem.mpr fun found member => ?_
  obtain ⟨read, rest, stands⟩ := stands_of_mem_predicatesIn member
  obtain ⟨c, inside, sign⟩ := exists_sign stands.reads
  have member := stands.place.subset (by simp [inside] : c ∈ found.value.spelledColumn ++ (read ++ rest))
  simp only [enclosed, List.mem_append, List.mem_cons, List.not_mem_nil, or_false] at member
  rcases member with (rfl | member) | rfl
  · exact absurd sign (by decide)
  · simp [unsigned c member] at sign
  · exact absurd sign (by decide)

end

section

variable {text text' : List Char} {parameters : List Value} {families : List Family}

theorem conditionsIn_congr (same : ∀ f ∈ families, f.conditionsIn text parameters =
      f.conditionsIn text' parameters) :
    conditionsIn families text parameters = conditionsIn families text' parameters := by
  rw [conditionsIn, conditionsIn, mapM_congr same]

theorem conditionsIn_concat (families : List Family) (f : Family) :
    conditionsIn (families ++ [f]) text parameters = (do
      let front ← conditionsIn families text parameters
      return front ++ (← f.conditionsIn text parameters)) := by
  rw [conditionsIn, conditionsIn, List.mapM_append, List.mapM_cons, List.mapM_nil]
  cases families.mapM fun f => f.conditionsIn text parameters with
  | error => rfl
  | ok front => cases f.conditionsIn text parameters <;> simp

end

namespace LiteralFilter

variable (f : LiteralFilter)

/-- The filter as it is reported. -/
def condition : Condition :=
  ⟨some f.table.lowered, f.column.lowered, .equals, [.text (String.ofList f.collapsed)], rfl⟩

theorem collapsed_eq (visible : ∀ c ∈ f.content, isBlank c = false) : f.collapsed = f.content := by
  have read := collapse_append visible []
  rwa [List.append_nil, show collapse [] = [] from rfl, List.append_nil] at read

theorem filled_collapsed : f.collapsed ≠ [] :=
  collapse_ne_nil f.filled

theorem whole_collapsed : ∀ c ∈ f.collapsed, c ≠ '\x27' := by
  rintro c member rfl
  exact f.whole _ (mem_of_mem_collapse (by decide) member) rfl

theorem condition?_filter (table : isReservedName f.table.lowered = false)
    (column : isReservedName f.column.lowered = false) (parameters : List Value) :
    Predicate.condition? ⟨some f.table.letters, f.column.letters, { text := f.collapsed }⟩ parameters
      .stringLiteral = .ok (some f.condition) := by
  have named : Predicate.columnName? ⟨some f.table.letters, f.column.letters, { text := f.collapsed }⟩ =
      some ⟨some f.table.lowered, f.column.lowered⟩ := by
    have unreserved : (isReservedName f.column.lowered ||
        (some f.table.lowered).any isReservedName) = false := by
      rw [column, Option.any_some, table]
      rfl
    exact if_neg (Bool.eq_false_iff.mp unreserved)
  have made := @ofSpelling_text .equals (some f.table.lowered) f.column.lowered
    [.text (String.ofList f.collapsed)] rfl
  simp only [Predicate.condition?, named, Predicate.content, ok_bind, pure_eq_ok, made]
  rfl

theorem conditionsIn_last (table : isReservedName f.table.lowered = false)
    (column : isReservedName f.column.lowered = false) (parameters : List Value) :
    Family.conditionsIn ⟨.stringLiteral, true⟩ (f.spelled (enclosed f.collapsed)) parameters =
      .ok [f.condition] := by
  rw [conditionsIn_eq, f.valuesFrom_filter f.filled_collapsed f.whole_collapsed]
  have condition := f.condition?_filter table column parameters
  rw [List.mapM_cons, List.mapM_nil, condition]
  rfl

theorem conditions_text (table : isReservedName f.table.lowered = false)
    (column : isReservedName f.column.lowered = false) (parameters : List Value) :
    conditions f.text parameters = (conditions f.literal parameters).map (· ++ [f.condition]) := by
  have all : Family.all = Family.all.dropLast ++ [⟨.stringLiteral, true⟩] := rfl
  have others : ∀ family ∈ Family.all.dropLast,
      family.conditionsIn (f.spelled (enclosed f.collapsed)) parameters =
        family.conditionsIn (enclosed f.collapsed) parameters := by
    have kinds : ∀ family ∈ Family.all.dropLast, family.kind ≠ .stringLiteral := by decide
    intro family member
    have other := kinds family member
    obtain ⟨kind, qualified⟩ := family
    rw [conditionsIn_eq, conditionsIn_eq]
    cases qualified with
    | false => rw [f.valuesFrom_bare other]
    | true => rw [f.valuesFrom_qualified_other other]
  have nothing :
      Family.conditionsIn ⟨.stringLiteral, true⟩ (enclosed f.collapsed) parameters = .ok [] := by
    rw [Family.conditionsIn, predicatesIn_enclosed f.whole_collapsed]
    rfl
  rw [conditions, conditions, f.normalForm_text, f.normalForm_literal, all, conditionsIn_concat,
    conditionsIn_concat, conditionsIn_congr others, nothing, f.conditionsIn_last table column]
  cases conditionsIn Family.all.dropLast (enclosed f.collapsed) parameters with
  | error => rfl
  | ok front => simp

theorem conditions_literal (unsigned : ∀ c ∈ f.content, isBlank c = false ∧ c ∉ ['=', '<', '>', '!'])
    (parameters : List Value) : conditions f.literal parameters = .ok [] := by
  have nothing (family : Family) : family.conditionsIn (enclosed f.content) parameters = .ok [] := by
    rw [Family.conditionsIn, predicatesIn_unsigned unsigned]
    rfl
  rw [conditions, f.normalForm_literal, f.collapsed_eq fun c member => (unsigned c member).1,
    conditionsIn]
  simp only [nothing]
  rfl

end LiteralFilter

/-- A filter by a literal without quotes states what the literal alone would state, and then that the
column has the text of the literal, with a space for every run of blanks. If the literal holds neither
blanks nor signs, it states just this, of the text as it stands. -/
theorem literal_filter_extracted (f : LiteralFilter) (table : isReservedName f.table.lowered = false)
    (column : isReservedName f.column.lowered = false) (parameters : List Value) :
    conditions f.text parameters = (conditions f.literal parameters).map (· ++ [f.condition]) ∧
      ((∀ c ∈ f.content, isBlank c = false ∧ c ∉ ['=', '<', '>', '!']) →
        f.collapsed = f.content ∧ conditions f.text parameters = .ok [f.condition]) := by
  have stated := f.conditions_text table column parameters
  refine ⟨stated, fun unsigned => ⟨f.collapsed_eq fun c member => (unsigned c member).1, ?_⟩⟩
  rw [stated, f.conditions_literal unsigned]
  rfl

/-- A literal with comment marks and a backslash. -/
def markedLiteral : LiteralFilter where
  table := ⟨['O'], rfl⟩
  column := ⟨['n', 'o', 't', 'e'], rfl⟩
  content := ['a', '-', '-', '/', '*', '\\']
  filled := List.cons_ne_nil _ _
  whole _ member := ne_of_mem_of_not_mem member (by decide)

theorem markedLiteral_extracted :
    ∃ c, conditions "SELECT * FROM O WHERE O.note = 'a--/*\\'" [] = .ok [c] ∧
      c.fields = (some "o", "note", .equals, [.text "a--/*\\"]) := by
  have text : markedLiteral.text = "SELECT * FROM O WHERE O.note = 'a--/*\\'" := by decide +kernel
  have unsigned : ∀ c ∈ markedLiteral.content, isBlank c = false ∧ c ∉ ['=', '<', '>', '!'] := by
    simp [markedLiteral, isBlank]
  obtain ⟨-, whole⟩ := literal_filter_extracted markedLiteral (by decide +kernel) (by decide +kernel) []
  obtain ⟨same, found⟩ := whole unsigned
  rw [text] at found
  exact ⟨_, found, rfl⟩

/-- A literal with two blanks side by side. -/
def spacedLiteral : LiteralFilter where
  table := ⟨['o'], rfl⟩
  column := ⟨['n', 'o', 't', 'e'], rfl⟩
  content := ['a', ' ', ' ', 'b']
  filled := List.cons_ne_nil _ _
  whole _ member := ne_of_mem_of_not_mem member (by decide)

theorem spacedLiteral_shortened :
    ∃ c, conditions "SELECT * FROM o WHERE o.note = 'a  b'" [] = .ok [c] ∧
      c.fields = (some "o", "note", .equals, [.text "a b"]) := by
  have text : spacedLiteral.text = "SELECT * FROM o WHERE o.note = 'a  b'" := by decide +kernel
  have nothing : (conditions spacedLiteral.literal []).toOption.map List.length = some 0 := by
    decide +kernel
  obtain ⟨front, alone, none⟩ := exists_of_map_toOption nothing
  have found := spacedLiteral.conditions_text (by decide +kernel) (by decide +kernel) []
  rw [text, alone, List.length_eq_zero_iff.mp none] at found
  exact ⟨_, found, rfl⟩

end QueryHarvest.Sql
