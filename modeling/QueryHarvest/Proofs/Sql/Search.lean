import QueryHarvest.Proofs.Sql.Denotation
import QueryHarvest.Proofs.Text.Places

/-! # What searches find in a conjunction

A search goes through a conjunction word by word. Behind every word either a filter is read to its
end, or nothing is read; what is found are the filters themselves, and negations read as columns,
which are dropped.
-/

namespace QueryHarvest.Sql

open Number Text

def Marks (text : List Char) : Prop :=
  ∀ x ∈ text, isIdentStart x = false

theorem marks_nil : Marks [] := by
  simp [Marks]

theorem marks_cons {x : Char} {text : List Char} (hx : isIdentStart x = false) (h : Marks text) :
    Marks (x :: text) := by
  intro y member
  rcases List.mem_cons.mp member with rfl | member
  · exact hx
  · exact h y member

theorem marks_append {text more : List Char} (h : Marks text) (hmore : Marks more) :
    Marks (text ++ more) :=
  fun x member => (List.mem_append.mp member).elim (h x) (hmore x)

theorem digit_facts {c : Char} (h : c.isDigit) : isIdentStart c = false ∧ isSolid c := by
  have facts : c.isDigit → isIdentStart c = false ∧ isSolid c :=
    of_ascii (ascii_of_isDigit h) (by decide +kernel)
  exact facts h

theorem marks_placeholder (n : Nat) : Marks (spelledPlaceholder n) :=
  marks_cons (by rfl) fun _ member => (digit_facts (isDigit_char_of_mem_toDigits member)).1

theorem marks_list (first : Nat) (others : List Nat) : Marks (spelledList first others) := by
  refine marks_append (marks_placeholder first) fun x member => ?_
  obtain ⟨n, _, member⟩ := List.mem_flatMap.mp member
  exact marks_cons (by rfl) (marks_cons (by rfl) (marks_placeholder n)) x member

/-- The words of tests, other than the negations that a test begins with, and the texts behind them. -/
inductive OperatorWord : List Char → List Char → Prop where
  | isIn (rest : List Char) : OperatorWord ['I', 'N'] (' ' :: '(' :: rest)
  | anyOf (rest : List Char) : OperatorWord ['A', 'N', 'Y'] ('(' :: rest)
  | between (rest : List Char) :
      OperatorWord ['B', 'E', 'T', 'W', 'E', 'E', 'N'] (' ' :: '$' :: rest)
  | andHigh (rest : List Char) : OperatorWord ['A', 'N', 'D'] (' ' :: '$' :: rest)
  | like (rest : List Char) : OperatorWord ['L', 'I', 'K', 'E'] (' ' :: '$' :: rest)
  | ilike (rest : List Char) : OperatorWord ['I', 'L', 'I', 'K', 'E'] (' ' :: '$' :: rest)
  | isNull (rest : List Char) : OperatorWord ['I', 'S'] (' ' :: 'N' :: 'U' :: rest)
  | isNot (rest : List Char) : OperatorWord ['I', 'S'] (' ' :: 'N' :: 'O' :: 'T' :: ' ' :: 'N' :: 'U' :: 'L' :: 'L' :: rest)
  | notNull (rest : List Char) : OperatorWord ['N', 'O', 'T'] (' ' :: 'N' :: 'U' :: rest)
  | null {tail : List Char} (closes : Closes tail) : OperatorWord ['N', 'U', 'L', 'L'] tail

/-- No match of the pattern begins with a word of a test. -/
def Quiet {α : Type} (p : Pattern α) : Prop :=
  ∀ {word after : List Char}, OperatorWord word after → p.match? ⟨some ' ', word ++ after⟩ = none

/-- The test that a negation stands in front of. -/
def Test.positive? : Test → Option Test
  | .notIn first others => some (.isIn first others)
  | .notLike n => some (.like n)
  | .notIlike n => some (.ilike n)
  | .notBetween low high => some (.between low high)
  | _ => none

theorem spelled_negation {test positive : Test} (h : test.positive? = some positive) :
    test.spelled = 'N' :: 'O' :: 'T' :: ' ' :: positive.spelled ∧ positive.positive? = none := by
  cases test <;> cases h <;> exact ⟨rfl, rfl⟩

theorem isWord_operatorWord {word after : List Char} (h : OperatorWord word after) :
    ∀ x ∈ word, isWord x := by
  cases h <;> exact List.all_eq_true.mp rfl

theorem spelled_append (f : Conjunct) (tail : List Char) :
    f.spelled ++ tail = f.column.letters ++ ' ' :: (f.test.spelled ++ tail) := by
  simp [Conjunct.spelled]

section

variable {α : Type} {p : Pattern α} {tail : List Char} {z : Option Char}

theorem valuesFrom_closing (hp : p.Anchored) (marks : List Char) (h : Marks marks)
    (closes : Closes tail) : p.valuesFrom ⟨z, marks ++ tail⟩ = p.valuesFrom ⟨none, tail⟩ := by
  rw [hp.valuesFrom_marks marks h]
  exact hp.valuesFrom_before (closes.stops (by rfl)) none

theorem valuesFrom_space (hp : p.Anchored) (text : List Char) :
    p.valuesFrom ⟨z, ' ' :: text⟩ = p.valuesFrom ⟨some ' ', text⟩ :=
  hp.valuesFrom_marks [' '] (by simp; rfl)

/-- A word that no match begins with is passed over with the space behind it. -/
theorem valuesFrom_word_space (hp : p.Anchored) {word text : List Char}
    (letters : ∀ x ∈ word, isWord x) (missed : p.match? ⟨z, word ++ ' ' :: text⟩ = none) :
    p.valuesFrom ⟨z, word ++ ' ' :: text⟩ = p.valuesFrom ⟨some ' ', text⟩ := by
  rw [hp.valuesFrom_word letters missed, valuesFrom_space hp]

theorem valuesFrom_operator (hp : p.Anchored) (quiet : Quiet p) {word after : List Char}
    (h : OperatorWord word after) :
    p.valuesFrom ⟨some ' ', word ++ after⟩ = p.valuesFrom ⟨word.getLast?.or (some ' '), after⟩ :=
  hp.valuesFrom_word (isWord_operatorWord h) (quiet h)

/-- A quiet pattern finds nothing in a test without a negation. -/
theorem valuesFrom_test (hp : p.Anchored) (quiet : Quiet p) {test : Test}
    (plain : test.positive? = none) (closes : Closes tail) :
    p.valuesFrom ⟨some ' ', test.spelled ++ tail⟩ = p.valuesFrom ⟨none, tail⟩ := by
  have operator {word after : List Char} (h : OperatorWord word after) :=
    valuesFrom_operator hp quiet h
  have closing {z : Option Char} {marks : List Char} (h : Marks marks) :=
    @valuesFrom_closing _ p tail z hp marks h closes
  cases test with
  | equals n => exact closing (marks_cons rfl (marks_cons rfl (marks_placeholder n)))
  | compares comparison n =>
      refine closing (marks_append ?_ (marks_cons rfl (marks_placeholder n)))
      cases comparison <;> simp [Comparison.spelled, Marks] <;> decide
  | isIn first others =>
      calc p.valuesFrom ⟨some ' ', spelledIn first others ++ tail⟩
        _ = p.valuesFrom ⟨some 'N', ' ' :: '(' :: (spelledList first others ++ [')']) ++ tail⟩ :=
          operator (.isIn _)
        _ = p.valuesFrom ⟨none, tail⟩ :=
          closing (marks_cons rfl (marks_cons rfl (marks_append (marks_list first others)
            (marks_cons rfl marks_nil))))
  | anyOf n =>
      calc p.valuesFrom ⟨some ' ', (Test.anyOf n).spelled ++ tail⟩
        _ = p.valuesFrom ⟨some ' ', 'A' :: 'N' :: 'Y' :: '(' :: (spelledPlaceholder n ++ [')']) ++ tail⟩ :=
          hp.valuesFrom_marks ['=', ' '] (marks_cons rfl (marks_cons rfl marks_nil))
        _ = p.valuesFrom ⟨some 'Y', '(' :: (spelledPlaceholder n ++ [')']) ++ tail⟩ :=
          operator (.anyOf _)
        _ = p.valuesFrom ⟨none, tail⟩ :=
          closing (marks_cons rfl (marks_append (marks_placeholder n) (marks_cons rfl marks_nil)))
  | between low high =>
      have between : Marks (' ' :: (spelledPlaceholder low ++ [' '])) :=
        marks_cons rfl (marks_append (marks_placeholder low) (marks_cons rfl marks_nil))
      have last : (' ' :: (spelledPlaceholder low ++ [' '])).getLast? = some ' ' :=
        @List.getLast?_concat _ (' ' :: spelledPlaceholder low) ' '
      calc p.valuesFrom ⟨some ' ', spelledRange low high ++ tail⟩
        _ = p.valuesFrom ⟨some ' ', 'B' :: 'E' :: 'T' :: 'W' :: 'E' :: 'E' :: 'N' ::
              ((' ' :: (spelledPlaceholder low ++ [' '])) ++
                'A' :: 'N' :: 'D' :: ' ' :: (spelledPlaceholder high ++ tail))⟩ := by
          simp [spelledRange]
        _ = p.valuesFrom ⟨some 'N', (' ' :: (spelledPlaceholder low ++ [' '])) ++
              'A' :: 'N' :: 'D' :: ' ' :: (spelledPlaceholder high ++ tail)⟩ :=
          operator (.between _)
        _ = p.valuesFrom ⟨some ' ', 'A' :: 'N' :: 'D' :: ' ' :: (spelledPlaceholder high ++ tail)⟩ := by
          rw [hp.valuesFrom_marks _ between, last]
          rfl
        _ = p.valuesFrom ⟨some 'D', ' ' :: spelledPlaceholder high ++ tail⟩ := operator (.andHigh _)
        _ = p.valuesFrom ⟨none, tail⟩ := closing (marks_cons rfl (marks_placeholder high))
  | like n =>
      calc p.valuesFrom ⟨some ' ', spelledLike n ++ tail⟩
        _ = p.valuesFrom ⟨some 'E', ' ' :: spelledPlaceholder n ++ tail⟩ := operator (.like _)
        _ = p.valuesFrom ⟨none, tail⟩ := closing (marks_cons rfl (marks_placeholder n))
  | ilike n =>
      calc p.valuesFrom ⟨some ' ', 'I' :: spelledLike n ++ tail⟩
        _ = p.valuesFrom ⟨some 'E', ' ' :: spelledPlaceholder n ++ tail⟩ := operator (.ilike _)
        _ = p.valuesFrom ⟨none, tail⟩ := closing (marks_cons rfl (marks_placeholder n))
  | isNull =>
      calc p.valuesFrom ⟨some ' ', Test.isNull.spelled ++ tail⟩
        _ = p.valuesFrom ⟨some 'S', ' ' :: 'N' :: 'U' :: 'L' :: 'L' :: tail⟩ := operator (.isNull _)
        _ = p.valuesFrom ⟨some ' ', 'N' :: 'U' :: 'L' :: 'L' :: tail⟩ := valuesFrom_space hp _
        _ = p.valuesFrom ⟨some 'L', tail⟩ := operator (.null closes)
        _ = p.valuesFrom ⟨none, tail⟩ := closing marks_nil
  | isNotNull =>
      calc p.valuesFrom ⟨some ' ', Test.isNotNull.spelled ++ tail⟩
        _ = p.valuesFrom ⟨some 'S', ' ' :: 'N' :: 'O' :: 'T' :: ' ' :: 'N' :: 'U' :: 'L' :: 'L' :: tail⟩ :=
          operator (.isNot _)
        _ = p.valuesFrom ⟨some ' ', 'N' :: 'O' :: 'T' :: ' ' :: 'N' :: 'U' :: 'L' :: 'L' :: tail⟩ :=
          valuesFrom_space hp _
        _ = p.valuesFrom ⟨some 'T', ' ' :: 'N' :: 'U' :: 'L' :: 'L' :: tail⟩ := operator (.notNull _)
        _ = p.valuesFrom ⟨some ' ', 'N' :: 'U' :: 'L' :: 'L' :: tail⟩ := valuesFrom_space hp _
        _ = p.valuesFrom ⟨some 'L', tail⟩ := operator (.null closes)
        _ = p.valuesFrom ⟨none, tail⟩ := closing marks_nil
  | notIn | notLike | notIlike | notBetween => cases plain

/-- A quiet pattern that answers neither to the column nor to a negation finds nothing in a filter. -/
theorem valuesFrom_conjunct_quiet (hp : p.Anchored) (quiet : Quiet p) {f : Conjunct}
    (closes : Closes tail)
    (column : p.match? ⟨some ' ', f.spelled ++ tail⟩ = none)
    (negation : ∀ positive, f.test.positive? = some positive →
      p.match? ⟨some ' ', 'N' :: 'O' :: 'T' :: ' ' :: (positive.spelled ++ tail)⟩ = none) :
    p.valuesFrom ⟨some ' ', f.spelled ++ tail⟩ = p.valuesFrom ⟨none, tail⟩ := by
  rw [spelled_append] at column ⊢
  rw [valuesFrom_word_space hp (fun _ member => (Name.namePart_of_mem member).word) column]
  cases h : f.test.positive? with
  | none => exact valuesFrom_test hp quiet h closes
  | some positive =>
      obtain ⟨same, plain⟩ := spelled_negation h
      rw [same]
      have word := @valuesFrom_word_space _ _ _ hp ['N', 'O', 'T'] _ (List.all_eq_true.mp rfl)
        (negation positive h)
      exact word.trans (valuesFrom_test hp quiet plain closes)

end

/-- The pattern of a kind of predicate on bare columns. -/
abbrev PredicateKind.bare (kind : PredicateKind) : Pattern Predicate :=
  Family.pattern ⟨kind, false⟩

theorem anchored_family (f : Family) : f.pattern.Anchored where
  atWord h := if_neg (by rw [h]; exact Bool.false_ne_true)
  atLetter {c} stops := by
    have none_read : c.identifier? = none := by
      unfold Cursor.identifier?
      split
      · rfl
      · next x rest h => simp [stops x (by rw [h]; rfl)]
    unfold Family.pattern Family.readPredicate? readColumn?
    simp [none_read]

/-- At a word a family of bare columns reads the word as a column, and what follows by its shape. -/
theorem match?_word {kind : PredicateKind} {z : Option Char} {word rest : List Char}
    (begins : isWord? z = false) (identifier : isIdentifier word) (stops : Stops isIdentPart rest) :
    kind.bare.match? ⟨z, word ++ rest⟩ =
      (kind.shape.read? {} ⟨word.getLast?, rest⟩).map
        fun (notes, after) => (⟨none, word, notes⟩, after) := by
  have here : Cursor.beginsWord ⟨z, word ++ rest⟩ = true := by rw [Cursor.beginsWord, begins]; rfl
  have column : readColumn? false ⟨z, word ++ rest⟩ =
      some ((none, word), ⟨word.getLast?, rest⟩) := by
    rw [readColumn?, Cursor.identifier?_append identifier stops]
    rfl
  simp only [Family.pattern, here, if_true, Family.readPredicate?, column]
  rw [Option.map_eq_bind]
  rfl

theorem quiet_family (kind : PredicateKind) : Quiet kind.bare := by
  intro word after h
  cases h with
  | null closes => rcases closes with rfl | ⟨more, rfl⟩ <;> cases kind <;> rfl
  | _ => cases kind <;> rfl

theorem reported_own {parameters : List Value} {kind : PredicateKind} {operator : Operator}
    {f : Conjunct} (own : f.test.report? = some (kind, operator)) :
    f.reported parameters kind = [(none, f.column.text, operator, f.test.values parameters)] := by
  simp [Conjunct.reported, own]

theorem reported_other {parameters : List Value} {kind : PredicateKind} {f : Conjunct}
    (other : ∀ operator, f.test.report? ≠ some (kind, operator)) : f.reported parameters kind = [] := by
  unfold Conjunct.reported
  split
  · next own operator h =>
    exact if_neg fun same => other operator (by rw [h, same])
  · rfl

section

variable {kind : PredicateKind} {parameters : List Value} {f : Conjunct} {tail : List Char}

theorem match?_column (kind : PredicateKind) (f : Conjunct) (tail : List Char) :
    kind.bare.match? ⟨some ' ', f.spelled ++ tail⟩ =
      (kind.shape.read? {} ⟨f.column.letters.getLast?, ' ' :: (f.test.spelled ++ tail)⟩).map
        fun (notes, after) => (⟨none, f.column.letters, notes⟩, after) := by
  rw [spelled_append]
  exact match?_word rfl f.column.isIdentifier_letters (stops_cons rfl)

theorem match?_negation (kind : PredicateKind) (positive : Test) (tail : List Char) :
    kind.bare.match?
        ⟨some ' ', 'N' :: 'O' :: 'T' :: ' ' :: (positive.spelled ++ tail)⟩ =
      (kind.shape.read? {} ⟨some 'T', ' ' :: (positive.spelled ++ tail)⟩).map
        fun (notes, after) => (⟨none, ['N', 'O', 'T'], notes⟩, after) :=
  @match?_word kind (some ' ') ['N', 'O', 'T'] (' ' :: (positive.spelled ++ tail)) rfl rfl
    (stops_cons rfl)

/-- A match that ends with a filter is found, and the search goes on behind the filter. -/
theorem valuesFrom_to_end {c : Cursor} {z : Option Char} {found : Predicate} (closes : Closes tail)
    (h : kind.bare.match? c = some (found, ⟨z, tail⟩)) :
    kind.bare.valuesFrom c =
      found :: kind.bare.valuesFrom ⟨none, tail⟩ := by
  rw [Pattern.valuesFrom_match h,
    (anchored_family _).valuesFrom_before (closes.stops rfl) none]

/-- Of a filter a family finds what the filter reports under its kind. -/
theorem valuesFrom_conjunct (kind : PredicateKind) (fits : f.test.Fits parameters)
    (few : parameters.length < 10 ^ maxDigits) (closes : Closes tail) :
    ∃ found, kind.bare.valuesFrom ⟨some ' ', f.spelled ++ tail⟩ =
        found ++ kind.bare.valuesFrom ⟨none, tail⟩ ∧
      Reports parameters kind found (f.reported parameters kind) := by
  have atColumn := match?_column kind f tail
  by_cases own : ∃ operator, f.test.report? = some (kind, operator)
  · obtain ⟨operator, own⟩ := own
    obtain ⟨z, read⟩ := @read_own _ _ _ _ f.column.letters.getLast? own closes
    rw [read] at atColumn
    obtain ⟨c, stated, fields⟩ := condition_own own fits few tail
    refine ⟨[⟨none, f.column.letters, f.test.notes tail⟩], valuesFrom_to_end closes atColumn, ?_⟩
    rw [reported_own own, ← fields]
    exact .single stated
  have other : ∀ operator, f.test.report? ≠ some (kind, operator) := fun operator h =>
    own ⟨operator, h⟩
  rw [read_other other] at atColumn
  rw [reported_other other]
  by_cases negated : ∃ positive operator, f.test.positive? = some positive ∧
      positive.report? = some (kind, operator)
  · -- the negation is read as a column, which is reserved
    obtain ⟨positive, operator, negation, own⟩ := negated
    obtain ⟨z, read⟩ := @read_own _ _ _ _ (some 'T') own closes
    have atNegation := match?_negation kind positive tail
    rw [read] at atNegation
    refine ⟨[⟨none, ['N', 'O', 'T'], positive.notes tail⟩], ?_, .dropped (condition_negation _ _ _)⟩
    have toNegation : kind.bare.valuesFrom ⟨some ' ', f.spelled ++ tail⟩ =
        kind.bare.valuesFrom
          ⟨some ' ', 'N' :: 'O' :: 'T' :: ' ' :: (positive.spelled ++ tail)⟩ := by
      rw [spelled_append] at atColumn ⊢
      rw [valuesFrom_word_space (anchored_family _)
        (fun _ member => (Name.namePart_of_mem member).word) atColumn, (spelled_negation negation).1]
      rfl
    rw [toNegation]
    exact valuesFrom_to_end closes atNegation
  · refine ⟨[], ?_, .nil⟩
    refine valuesFrom_conjunct_quiet (anchored_family _) (quiet_family kind) closes atColumn ?_
    intro positive negation
    rw [match?_negation, read_other fun operator own => negated ⟨positive, operator, negation, own⟩]
    rfl

/-- In the filters behind the first one a family finds what they report under its kind. -/
theorem valuesFrom_rest (kind : PredicateKind) {filters : List Conjunct}
    (fits : ∀ f ∈ filters, f.test.Fits parameters) (few : parameters.length < 10 ^ maxDigits)
    (z : Option Char) :
    ∃ found, kind.bare.valuesFrom ⟨z, spelledRest filters⟩ = found ∧
      Reports parameters kind found (filters.flatMap (Conjunct.reported parameters kind)) := by
  induction filters generalizing z with
  | nil => exact ⟨[], Pattern.valuesFrom_nil z, .nil⟩
  | cons f filters ih =>
      obtain ⟨others, hothers, reports⟩ := ih (fun g member => fits g (List.mem_cons_of_mem _ member))
        none
      obtain ⟨found, hfound, report⟩ := valuesFrom_conjunct kind (fits f (List.mem_cons_self ..)) few
        (closes_spelledRest filters)
      refine ⟨found ++ others, ?_, report.append reports⟩
      have conjunction : kind.bare.match?
          ⟨some ' ', ['A', 'N', 'D'] ++ ' ' :: (f.spelled ++ spelledRest filters)⟩ = none := by
        rw [match?_word rfl rfl (stops_cons rfl), spelled_append,
          read_behind_name (unanswering_test f.test _)]
        rfl
      calc kind.bare.valuesFrom ⟨z, spelledRest (f :: filters)⟩
        _ = kind.bare.valuesFrom
              ⟨some ' ', ['A', 'N', 'D'] ++ ' ' :: (f.spelled ++ spelledRest filters)⟩ :=
          valuesFrom_space (anchored_family _) _
        _ = kind.bare.valuesFrom ⟨some ' ', f.spelled ++ spelledRest filters⟩ :=
          valuesFrom_word_space (anchored_family _) (List.all_eq_true.mp rfl) conjunction
        _ = found ++ others := by rw [hfound, hothers]

/-- In a conjunction a family of bare columns finds what the filters report under its kind. -/
theorem valuesFrom_query (kind : PredicateKind) (table : Name) {filters : List Conjunct}
    (fits : ∀ g ∈ f :: filters, g.test.Fits parameters) (few : parameters.length < 10 ^ maxDigits) :
    Reports parameters kind
      (kind.bare.valuesFrom (Cursor.start (query table (f :: filters)).toList))
      ((f :: filters).flatMap (Conjunct.reported parameters kind)) := by
  have anchored := anchored_family ⟨kind, false⟩
  obtain ⟨found, hfound, report⟩ := valuesFrom_conjunct kind (fits f (List.mem_cons_self ..)) few
    (closes_spelledRest filters)
  obtain ⟨others, hothers, reports⟩ := valuesFrom_rest kind
    (fun g member => fits g (List.mem_cons_of_mem _ member)) few none
  generalize htext : f.spelled ++ spelledRest filters = text at hfound
  have condition : Unanswering (' ' :: 'W' :: 'H' :: 'E' :: 'R' :: 'E' :: ' ' :: text) :=
    ⟨stops_cons rfl, fun _ _ _ => rfl, fun _ _ _ => rfl, fun _ => rfl⟩
  have atSelect : kind.bare.match? ⟨none, ['S', 'E', 'L', 'E', 'C', 'T'] ++
      ' ' :: '*' :: ' ' :: 'F' :: 'R' :: 'O' :: 'M' :: ' ' :: spelledTable table text⟩ = none := by
    rw [match?_word rfl rfl (stops_cons rfl)]
    cases kind <;> rfl
  have atFrom : kind.bare.match? ⟨some ' ', ['F', 'R', 'O', 'M'] ++
      ' ' :: spelledTable table text⟩ = none := by
    rw [match?_word rfl rfl (stops_cons rfl), spelledTable, read_behind_name condition]
    rfl
  have atTable : kind.bare.match? ⟨some ' ', spelledTable table text⟩ = none := by
    rw [spelledTable, match?_word rfl table.isIdentifier_letters (stops_cons rfl)]
    cases kind <;> rfl
  have atWhere : kind.bare.match? ⟨some ' ', ['W', 'H', 'E', 'R', 'E'] ++
      ' ' :: text⟩ = none := by
    rw [match?_word rfl rfl (stops_cons rfl), ← htext, spelled_append,
      read_behind_name (unanswering_test f.test _)]
    rfl
  have whole : kind.bare.valuesFrom
      (Cursor.start (query table (f :: filters)).toList) = found ++ others := by
    rw [toList_query, htext]
    calc kind.bare.valuesFrom ⟨none, ['S', 'E', 'L', 'E', 'C', 'T'] ++
          ' ' :: '*' :: ' ' :: 'F' :: 'R' :: 'O' :: 'M' :: ' ' :: spelledTable table text⟩
      _ = kind.bare.valuesFrom ⟨some ' ', ['*', ' '] ++
            'F' :: 'R' :: 'O' :: 'M' :: ' ' :: spelledTable table text⟩ :=
        valuesFrom_word_space anchored (List.all_eq_true.mp rfl) atSelect
      _ = kind.bare.valuesFrom ⟨some ' ', ['F', 'R', 'O', 'M'] ++ ' ' :: spelledTable table text⟩ :=
        anchored.valuesFrom_marks _ (marks_cons rfl (marks_cons rfl marks_nil))
      _ = kind.bare.valuesFrom ⟨some ' ', spelledTable table text⟩ :=
        valuesFrom_word_space anchored (List.all_eq_true.mp rfl) atFrom
      _ = kind.bare.valuesFrom ⟨some ' ', ['W', 'H', 'E', 'R', 'E'] ++ ' ' :: text⟩ :=
        valuesFrom_word_space anchored (fun _ member => (Name.namePart_of_mem member).word) atTable
      _ = kind.bare.valuesFrom ⟨some ' ', text⟩ :=
        valuesFrom_word_space anchored (List.all_eq_true.mp rfl) atWhere
      _ = found ++ others := by rw [hfound, hothers]
  rw [whole]
  exact report.append reports

end

theorem valuesFrom_qualified (kind : PredicateKind) {z : Option Char} {text : List Char}
    (h : '.' ∉ text) : (Family.pattern ⟨kind, true⟩).valuesFrom ⟨z, text⟩ = [] := by
  induction text generalizing z with
  | nil => exact Pattern.valuesFrom_nil z
  | cons x text ih =>
      have missed : (Family.pattern ⟨kind, true⟩).match? ⟨z, x :: text⟩ = none := by
        have column : readColumn? true ⟨z, x :: text⟩ = none := by
          unfold readColumn?
          cases read : Cursor.identifier? ⟨z, x :: text⟩ with
          | none => rfl
          | some found =>
              obtain ⟨word, after⟩ := found
              have rest := (Cursor.of_identifier? read).1
              have point : after.one? (· == '.') = none := by
                unfold Cursor.one?
                split
                · rfl
                · next y more hy =>
                  have differs : y ≠ '.' := by
                    rintro rfl
                    exact h (by rw [show x :: text = _ from rest, hy]; simp)
                  simp [differs]
              simp [point]
        simp [Family.pattern, Family.readPredicate?, column]
      rw [Pattern.valuesFrom_skip missed]
      exact ih fun member => h (List.mem_cons_of_mem _ member)

end QueryHarvest.Sql
