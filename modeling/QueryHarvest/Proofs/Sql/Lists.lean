import QueryHarvest.Proofs.Sql.Arity
import QueryHarvest.Proofs.Sql.Identifiers

/-! # What lists hold

A list goes from its opening parenthesis to the next closing one, and every placeholder between the two
counts for it, also one in a nested statement.
-/

namespace QueryHarvest.Sql

open Number Text

/-- The text between a column and the list that the operator compares it with. -/
inductive Introduces : Operator → List Char → Prop where
  | isIn {gap word blanks : List Char} (apart : gap ≠ []) (blank : ∀ x ∈ gap ++ blanks, isBlank x)
      (folds : word.map foldLetter = ['i', 'n']) : Introduces .isIn (gap ++ (word ++ blanks))
  | notIn {gap negation gap' word blanks : List Char} (apart : gap ≠ []) (apart' : gap' ≠ [])
      (blank : ∀ x ∈ gap ++ (gap' ++ blanks), isBlank x)
      (negates : negation.map foldLetter = ['n', 'o', 't'])
      (folds : word.map foldLetter = ['i', 'n']) :
      Introduces .notIn (gap ++ (negation ++ (gap' ++ (word ++ blanks))))

/-- Somewhere in the text the operator of a condition stands behind its column, and behind that the list. -/
structure Condition.Asks (c : Condition) (text list : List Char) : Prop where
  place : ∃ (p : Predicate) (front after : List Char), p.columnName? = some ⟨c.table, c.column⟩ ∧
    Introduces c.operator front ∧ p.spelledColumn ++ (front ++ '(' :: (list ++ ')' :: after)) <:+ text
  whole : ')' ∉ list

section

variable {f : Family} {p : Predicate} {parameters values : List Value} {text list read rest : List Char}

theorem eq_numbered_of_parameter? {digits : List Char} {v : Option Value}
    (h : parameter? parameters digits = .ok v) : v = numbered parameters (digitsValue digits) := by
  obtain ⟨n, read, same⟩ := bind_eq_ok_iff.mp h
  cases same
  rw [numbered, eq_digitsValue_of_ofDigits read]
  simp

/-- The values of a list are the parameters of the placeholders in it. -/
theorem values_of_parametersIn (h : parametersIn parameters list = .ok values) :
    values = (placeholdersIn list).filterMap fun q => numbered parameters (digitsValue q.digits) := by
  obtain ⟨found, read, same⟩ := bind_eq_ok_iff.mp h
  cases same
  have rows := mapM_eq_ok_iff.mp read
  clear read h
  generalize placeholdersIn list = row at rows
  induction rows with
  | nil => rfl
  | @cons q v row found first _ ih =>
      rw [eq_numbered_of_parameter? first, List.filterMap_cons, List.filterMap_cons, ih]
      rfl

/-- What is said with the operator of a list is read off a list. -/
theorem Predicate.Says.of_list {spelling : String} (h : p.Says parameters f.kind spelling values)
    (stands : p.Stands f text read rest) {operator : Operator}
    (spelled : Operator.ofText? spelling = some operator)
    (lists : operator = .isIn ∨ operator = .notIn) :
    (f.kind = .membership ∧ operator = .isIn ∨ f.kind = .negatedMembership ∧ operator = .notIn) ∧
      parametersIn parameters p.notes.text = .ok values := by
  have reads := stands.reads
  generalize f.kind = kind at h reads
  have other (operator' : Operator) (same : spelling = operator'.text)
      (unlisted : operator' ≠ .isIn ∧ operator' ≠ .notIn) : False := by
    rw [same, ofText?_text] at spelled
    cases spelled
    exact lists.elim unlisted.1 unlisted.2
  cases h with
  | membership read =>
      cases spelled
      exact ⟨.inl ⟨rfl, rfl⟩, read⟩
  | negatedMembership read =>
      cases spelled
      exact ⟨.inr ⟨rfl, rfl⟩, read⟩
  | comparison =>
      obtain ⟨_, _, _, _, _, -, noted, same⟩ := reads.noting [.blanks] [.blanks, .placeholder] rfl
      cases noted with
      | comparison comparison =>
          refine (other (.compares comparison) ?_ (by simp)).elim
          rw [same, comparison_upper]
          rfl
  | patternMatch =>
      rcases operator_pattern reads spelled with rfl | rfl <;> simp at lists
  | nullCheck => exact (other _ rfl (by split <;> simp)).elim
  | equality | items | anyOf | range | integerLiteral | stringLiteral => exact (other _ rfl (by simp)).elim

/-- A list is read between parentheses, and no closing one stands in it. -/
theorem reads_list {notes notes' : Notes}
    (h : Shape.Reads [.blanks, .symbol '(', .list, .symbol ')'] notes read rest notes') :
    ∃ blanks, (∀ x ∈ blanks, isBlank x) ∧ read = blanks ++ '(' :: (notes'.text ++ [')']) ∧
      ')' ∉ notes'.text := by
  obtain ⟨blanks, _, _, rfl, space, h⟩ := h.of_cons
  obtain ⟨_, _, _, rfl, opening, h⟩ := h.of_cons
  obtain ⟨list, _, _, rfl, listed, h⟩ := h.of_cons
  obtain ⟨_, _, _, rfl, closing, h⟩ := h.of_cons
  cases h
  cases space with
  | blanks blank =>
  cases opening
  cases closing
  cases listed with
  | list inside =>
  exact ⟨blanks, blank, by simp, fun member => inside _ member rfl⟩

/-- What is read off a list stands behind its column. -/
theorem introduced_of_reads {kind : PredicateKind} {operator : Operator}
    (lists : kind = .membership ∧ operator = .isIn ∨ kind = .negatedMembership ∧ operator = .notIn)
    (reads : kind.shape.Reads {} read rest p.notes) :
    ∃ front, Introduces operator front ∧ read = front ++ '(' :: (p.notes.text ++ [')']) ∧
      ')' ∉ p.notes.text := by
  rcases lists with ⟨rfl, rfl⟩ | ⟨rfl, rfl⟩
  · obtain ⟨gap, _, _, rfl, space, h⟩ := reads.of_cons
    obtain ⟨word, _, _, rfl, folds, h⟩ := h.of_cons
    obtain ⟨blanks, blank, rfl, whole⟩ := reads_list h
    cases space with
    | gap apart blank' =>
    refine ⟨gap ++ (word ++ blanks), .isIn apart ?_ folds.folds, by simp, whole⟩
    exact List.forall_mem_append.mpr ⟨blank', blank⟩
  · obtain ⟨gap, _, _, rfl, space, h⟩ := reads.of_cons
    obtain ⟨negation, _, _, rfl, negates, h⟩ := h.of_cons
    obtain ⟨gap', _, _, rfl, space', h⟩ := h.of_cons
    obtain ⟨word, _, _, rfl, folds, h⟩ := h.of_cons
    obtain ⟨blanks, blank, rfl, whole⟩ := reads_list h
    cases space with
    | gap apart first =>
    cases space' with
    | gap apart' second =>
    refine ⟨gap ++ (negation ++ (gap' ++ (word ++ blanks))),
      .notIn apart apart' ?_ negates.folds folds.folds, by simp, whole⟩
    simp only [List.forall_mem_append]
    exact ⟨first, second, blank⟩

end

/-- A condition on a list holds the parameters of the placeholders in the list of its own predicate. -/
theorem values_of_listed {statement : String} {parameters : List Value} {found : List Condition}
    (h : conditions statement parameters = .ok found) {c : Condition} (member : c ∈ found)
    (lists : c.operator = .isIn ∨ c.operator = .notIn) :
    ∃ list, c.Asks (normalForm statement.toList) list ∧
      c.values = (placeholdersIn list).filterMap fun q => numbered parameters (digitsValue q.digits) := by
  obtain ⟨f, matched, place, stated⟩ := condition?_of_mem_conditions h member
  obtain ⟨named, spelling, content, spelled⟩ := of_condition? stated
  obtain ⟨read, rest, stands⟩ := stands_of_mem_predicatesIn place
  obtain ⟨kind, values⟩ := (says_of_content content).of_list stands spelled lists
  obtain ⟨front, introduces, rfl, whole⟩ := introduced_of_reads kind stands.reads
  refine ⟨matched.value.notes.text, ⟨⟨matched.value, front, rest, named, introduces, ?_⟩, whole⟩,
    values_of_parametersIn values⟩
  simpa using stands.place

/-- A column that is looked up among the rows of a table on which another column is in some relation to
a parameter. -/
structure Lookup where
  column : Identifier
  selected : Identifier
  table : Identifier
  filtered : Identifier
  relation : Relation
  index : Nat

namespace Lookup

variable (s : Lookup)

def text : String :=
  s.column.text ++ " IN (SELECT " ++ s.selected.text ++ " FROM " ++ s.table.text ++ " WHERE " ++
    s.filtered.text ++ " " ++ s.relation.text ++ " " ++ placeholder s.index ++ ")"

/-- The nested statement up to its placeholder. -/
def spelledFront : List Char :=
  'S' :: 'E' :: 'L' :: 'E' :: 'C' :: 'T' :: ' ' :: (s.selected.letters ++ ' ' :: 'F' :: 'R' :: 'O' :: 'M' ::
    ' ' :: (s.table.letters ++ ' ' :: 'W' :: 'H' :: 'E' :: 'R' :: 'E' :: ' ' ::
      (s.filtered.letters ++ ' ' :: (s.relation.text.toList ++ [' ']))))

def spelledSelect : List Char :=
  s.spelledFront ++ spelledPlaceholder s.index

theorem spelledSelect_eq : s.spelledSelect =
    'S' :: 'E' :: 'L' :: 'E' :: 'C' :: 'T' :: ' ' :: (s.selected.letters ++ ' ' :: 'F' :: 'R' :: 'O' :: 'M' ::
      ' ' :: (s.table.letters ++ ' ' :: 'W' :: 'H' :: 'E' :: 'R' :: 'E' :: ' ' ::
        (s.filtered.letters ++ ' ' :: (s.relation.test s.index).spelled))) := by
  simp [spelledSelect, spelledFront, ← Relation.toList_test, toList_placeholder]

theorem toList_text : s.text.toList =
    s.column.letters ++ ' ' :: 'I' :: 'N' :: ' ' :: '(' :: (s.spelledSelect ++ [')']) := by
  simp [text, spelledSelect, spelledFront]

theorem neat : Neat s.text.toList := by
  have test := (neat_test (s.relation.test s.index)).append [')'] (List.all_eq_true.mp rfl)
  have nested := Rowed.cons (solid_of_all (List.cons_ne_nil '(' ['S', 'E', 'L', 'E', 'C', 'T']) rfl)
    (.cons s.selected.solid_letters
      (.cons (solid_of_all (List.cons_ne_nil 'F' ['R', 'O', 'M']) rfl)
        (.cons s.table.solid_letters
          (.cons (solid_of_all (List.cons_ne_nil 'W' ['H', 'E', 'R', 'E']) rfl)
            (.cons s.filtered.solid_letters test)))))
  rw [toList_text, spelledSelect_eq]
  simpa using Rowed.cons s.column.solid_letters (.cons (solid_of_all (List.cons_ne_nil 'I' ['N']) rfl) nested)

theorem not_mem_front {mark : Char} (h : mark = '$' ∨ mark = ')') : mark ∉ s.spelledFront := by
  have odd : isIdentPart mark = false := by rcases h with rfl | rfl <;> rfl
  have relation : mark ∉ s.relation.text.toList := by
    cases s.relation with
    | equals => rcases h with rfl | rfl <;> decide
    | compares comparison => cases comparison <;> rcases h with rfl | rfl <;> decide
  have selected := s.selected.not_mem_letters odd
  have table := s.table.not_mem_letters odd
  have filtered := s.filtered.not_mem_letters odd
  rcases h with rfl | rfl <;> simp [spelledFront, selected, table, filtered, relation]

/-- No closing parenthesis stands in the nested statement. -/
theorem ne_of_mem_select : ∀ c ∈ s.spelledSelect, c ≠ ')' := by
  rintro c member rfl
  rcases List.mem_append.mp member with front | last
  · exact s.not_mem_front (.inr rfl) front
  · rcases List.mem_cons.mp last with same | digit
    · contradiction
    · exact absurd (isDigit_char_of_mem_toDigits digit) (by decide)

/-- The one placeholder of the nested statement stands for its parameter. -/
theorem parametersIn_select (parameters : List Value) (short : s.index < 10 ^ maxDigits) :
    parametersIn parameters s.spelledSelect = .ok (numbered parameters s.index).toList := by
  have digits := @digits_spelledAmong s.spelledFront [(s.index, [])]
    (fun c member same => s.not_mem_front (.inl rfl) (same ▸ member)) (by simp)
    (by simpa using stops_nil isDigit) none
  have among : spelledAmong s.spelledFront [(s.index, [])] = s.spelledSelect := by
    simp [spelledAmong, spelledSelect]
  have found : (placeholdersIn s.spelledSelect).map (·.digits) = [Nat.toDigits 10 s.index] := by
    rw [← among]
    simpa [placeholdersIn, Pattern.allIn, Pattern.valuesFrom, Cursor.start] using digits
  obtain ⟨q, single, own⟩ := List.map_eq_singleton_iff.mp found
  have read : (placeholdersIn s.spelledSelect).mapM (fun q => parameter? parameters q.digits) =
      .ok [numbered parameters s.index] := by
    rw [single]
    refine mapM_eq_ok_iff.mpr (.cons ?_ .nil)
    rw [own, parameter?_eq_numbered parameters short]
  rw [parametersIn, read]
  cases numbered parameters s.index <;> rfl

/-- What is found in the statement under a kind of predicate on bare columns. -/
def reported (parameters : List Value) (kind : PredicateKind) :
    List (Option String × String × Operator × List Value) :=
  if kind = .membership then Identifier.reports none s.column .isIn (numbered parameters s.index)
  else if kind = s.relation.kind then
    Identifier.reports none s.filtered s.relation.operator (numbered parameters s.index)
  else []

variable (parameters : List Value) {kind : PredicateKind}

/-- Behind the column the whole list is read. -/
theorem reports_membership (short : s.index < 10 ^ maxDigits) :
    Reports parameters .membership (PredicateKind.membership.bare.valuesFrom (Cursor.start s.text.toList))
      (s.reported parameters .membership) := by
  have read : PredicateKind.membership.shape.read? {}
      ⟨s.column.letters.getLast?, ' ' :: 'I' :: 'N' :: ' ' :: '(' :: (s.spelledSelect ++ [')'])⟩ =
        some ({ text := s.spelledSelect }, ⟨some ')', []⟩) :=
    read_list (by simp [spelledSelect, spelledFront]) s.ne_of_mem_select
  have found := @match?_word .membership none _
    (' ' :: 'I' :: 'N' :: ' ' :: '(' :: (s.spelledSelect ++ [')'])) rfl s.column.isIdentifier (stops_cons rfl)
  rw [read] at found
  rw [toList_text, Cursor.start, Pattern.valuesFrom_match found, Pattern.valuesFrom_nil]
  refine reports_of_content none s.column _ rfl ?_
  simp only [Predicate.content, s.parametersIn_select parameters short]
  cases numbered parameters s.index <;> rfl

section

variable {z : Option Char} {text : List Char}

/-- Under other kinds than that of lists the search passes over a column with its list in sight. -/
theorem valuesFrom_list (other : kind ≠ .membership) (column : Identifier) :
    kind.bare.valuesFrom ⟨none, column.letters ++ ' ' :: 'I' :: 'N' :: ' ' :: '(' :: text⟩ =
      kind.bare.valuesFrom ⟨some '(', text⟩ := by
  calc kind.bare.valuesFrom ⟨none, column.letters ++ ' ' :: 'I' :: 'N' :: ' ' :: '(' :: text⟩
    _ = kind.bare.valuesFrom ⟨some ' ', ['I', 'N'] ++ ' ' :: '(' :: text⟩ :=
      valuesFrom_unread rfl column.isIdentifier rfl fun z => by
        cases kind <;> first | contradiction | rfl
    _ = kind.bare.valuesFrom ⟨some ' ', ['('] ++ text⟩ :=
      valuesFrom_unread rfl rfl rfl fun z => by cases kind <;> rfl
    _ = kind.bare.valuesFrom ⟨some '(', text⟩ :=
      (anchored_family _).valuesFrom_marks ['('] (marks_cons rfl marks_nil)

/-- A selection of one column is passed over. -/
theorem valuesFrom_selection (selected : Identifier) (begins : isWord? z = false) :
    kind.bare.valuesFrom ⟨z, 'S' :: 'E' :: 'L' :: 'E' :: 'C' :: 'T' :: ' ' ::
      (selected.letters ++ ' ' :: 'F' :: 'R' :: 'O' :: 'M' :: ' ' :: text)⟩ =
        kind.bare.valuesFrom ⟨some ' ', 'F' :: 'R' :: 'O' :: 'M' :: ' ' :: text⟩ := by
  have source : Unanswering (' ' :: 'F' :: 'R' :: 'O' :: 'M' :: ' ' :: text) :=
    ⟨stops_cons rfl, fun _ _ _ => rfl, fun _ _ _ => rfl, fun _ => rfl⟩
  calc kind.bare.valuesFrom ⟨z, ['S', 'E', 'L', 'E', 'C', 'T'] ++ ' ' ::
          (selected.letters ++ ' ' :: 'F' :: 'R' :: 'O' :: 'M' :: ' ' :: text)⟩
    _ = kind.bare.valuesFrom ⟨some ' ', selected.letters ++ ' ' :: 'F' :: 'R' :: 'O' :: 'M' :: ' ' :: text⟩ :=
      valuesFrom_unread begins rfl rfl fun z =>
        read_behind_word selected.isIdentifier source (fun _ _ => rfl) kind
    _ = kind.bare.valuesFrom ⟨some ' ', 'F' :: 'R' :: 'O' :: 'M' :: ' ' :: text⟩ :=
      valuesFrom_unread rfl selected.isIdentifier rfl fun z => by cases kind <;> rfl

/-- The search comes over a table to the condition on its rows. -/
theorem valuesFrom_rows (table filtered : Identifier) (r : Relation) (n : Nat) :
    kind.bare.valuesFrom ⟨some ' ', 'F' :: 'R' :: 'O' :: 'M' :: ' ' ::
      (table.letters ++ ' ' :: 'W' :: 'H' :: 'E' :: 'R' :: 'E' :: ' ' ::
        (filtered.letters ++ ' ' :: ((r.test n).spelled ++ text)))⟩ =
      kind.bare.valuesFrom ⟨some ' ', filtered.letters ++ ' ' :: ((r.test n).spelled ++ text)⟩ := by
  have related := unanswering_test (r.test n) text
  have positive : ∀ z, Shape.read? {} ⟨z, ' ' :: ((r.test n).spelled ++ text)⟩
      [.gap, .word ['i', 'n'], .blanks, .symbol '(', .list, .symbol ')'] = none := fun z =>
    @read_other _ .membership _ _ fun operator own => by
      rw [r.report?_test] at own
      cases r <;> cases own
  generalize ' ' :: ((r.test n).spelled ++ text) = rest at related positive
  have condition : Unanswering (' ' :: 'W' :: 'H' :: 'E' :: 'R' :: 'E' :: ' ' :: (filtered.letters ++ rest)) :=
    ⟨stops_cons rfl, fun _ _ _ => rfl, fun _ _ _ => rfl, fun _ => rfl⟩
  calc kind.bare.valuesFrom ⟨some ' ', ['F', 'R', 'O', 'M'] ++ ' ' ::
          (table.letters ++ ' ' :: 'W' :: 'H' :: 'E' :: 'R' :: 'E' :: ' ' :: (filtered.letters ++ rest))⟩
    _ = kind.bare.valuesFrom ⟨some ' ', table.letters ++ ' ' :: 'W' :: 'H' :: 'E' :: 'R' :: 'E' :: ' ' ::
          (filtered.letters ++ rest)⟩ :=
      valuesFrom_unread rfl rfl rfl fun z =>
        read_behind_word table.isIdentifier condition (fun _ _ => rfl) kind
    _ = kind.bare.valuesFrom ⟨some ' ', ['W', 'H', 'E', 'R', 'E'] ++ ' ' :: (filtered.letters ++ rest)⟩ :=
      valuesFrom_unread rfl table.isIdentifier rfl fun z => by cases kind <;> rfl
    _ = kind.bare.valuesFrom ⟨some ' ', filtered.letters ++ rest⟩ :=
      valuesFrom_unread rfl rfl rfl fun z =>
        read_behind_word filtered.isIdentifier related (fun _ => positive) kind

end

/-- Under any other kind the search comes to the relation. -/
theorem reports_other (other : kind ≠ .membership) (short : s.index < 10 ^ maxDigits) :
    Reports parameters kind (kind.bare.valuesFrom (Cursor.start s.text.toList))
      (s.reported parameters kind) := by
  have arrived : kind.bare.valuesFrom (Cursor.start s.text.toList) = kind.bare.valuesFrom
      ⟨some ' ', s.filtered.letters ++ ' ' :: ((s.relation.test s.index).spelled ++ [')'])⟩ := by
    have passed := @valuesFrom_list kind (s.spelledSelect ++ [')']) other s.column
    rw [toList_text, Cursor.start, passed, spelledSelect_eq]
    simp only [List.cons_append, List.append_assoc]
    rw [valuesFrom_selection s.selected rfl, valuesFrom_rows]
  rw [arrived, reported, if_neg other]
  exact reports_relation s.filtered s.relation kind short rfl (marks_cons rfl marks_nil) (stops_cons rfl)

theorem normalForm_text : normalForm s.text.toList = s.text.toList :=
  s.neat.normalForm_of_neat

theorem reports_text (short : s.index < 10 ^ maxDigits) (f : Family) :
    Reports parameters f.kind (f.pattern.valuesFrom (Cursor.start s.text.toList))
      (if f.qualified then [] else s.reported parameters f.kind) := by
  obtain ⟨kind, qualified⟩ := f
  cases qualified with
  | true =>
      rw [Cursor.start, valuesFrom_qualified kind (s.neat.no_mark '.' rfl (by decide))]
      exact .nil
  | false =>
      by_cases own : kind = .membership
      · subst own
        exact s.reports_membership parameters short
      · exact s.reports_other parameters own short

/-- What the statement is found to ask. -/
def contents : List (Option String × String × Operator × List Value) :=
  match s.relation with
  | .equals =>
    Identifier.reports none s.filtered .equals (numbered parameters s.index) ++
      Identifier.reports none s.column .isIn (numbered parameters s.index)
  | .compares comparison =>
    Identifier.reports none s.column .isIn (numbered parameters s.index) ++
      Identifier.reports none s.filtered (.compares comparison) (numbered parameters s.index)

theorem conditions_text (short : s.index < 10 ^ maxDigits) :
    ∃ found, conditions s.text parameters = .ok found ∧ found.map Condition.fields = s.contents parameters := by
  have all : (Family.all.flatMap fun f => if f.qualified then [] else s.reported parameters f.kind) =
      s.contents parameters := by
    unfold contents reported
    cases s.relation <;> simp [Family.all, Relation.kind, Relation.operator]
  rw [conditions, normalForm_text, ← all]
  exact conditionsIn_flatMap _ fun f _ => conditionsIn_of_reports (s.reports_text parameters short f)

end Lookup

/-- A condition on a list holds the parameters of the placeholders between the parentheses of its own
predicate, in the order of the text, without those that stand for nothing. A placeholder in a nested
statement is among them. -/
theorem lists_hold_placeholders :
    (∀ {statement : String} {parameters : List Value} {found : List Condition},
      conditions statement parameters = .ok found → ∀ c ∈ found, c.operator = .isIn ∨ c.operator = .notIn →
        ∃ list, c.Asks (normalForm statement.toList) list ∧
          c.values =
            (placeholdersIn list).filterMap fun q => numbered parameters (digitsValue q.digits)) ∧
    ∀ (s : Lookup) (parameters : List Value), s.index < 10 ^ maxDigits →
      ∃ found, conditions s.text parameters = .ok found ∧
        found.map Condition.fields = s.contents parameters :=
  ⟨fun h _ member lists => values_of_listed h member lists,
    fun s parameters short => s.conditions_text parameters short⟩

/-- A lookup with one-letter names. -/
def shortLookup : Lookup :=
  ⟨⟨['c'], rfl⟩, ⟨['d'], rfl⟩, ⟨['t'], rfl⟩, ⟨['e'], rfl⟩, .equals, 1⟩

theorem text_shortLookup : shortLookup.text = "c IN (SELECT d FROM t WHERE e = $1)" := by
  decide +kernel

theorem shortLookup_lists :
    ∃ found, conditions "c IN (SELECT d FROM t WHERE e = $1)" [.int 7] = .ok found ∧
      found.map Condition.fields = [(none, "e", .equals, [.int 7]), (none, "c", .isIn, [.int 7])] ∧
      ∃ c ∈ found, c.operator = .isIn ∧
        ∃ list, c.Asks (normalForm "c IN (SELECT d FROM t WHERE e = $1)".toList) list ∧
          c.values =
            (placeholdersIn list).filterMap fun q => numbered [.int 7] (digitsValue q.digits) := by
  obtain ⟨found, read, fields⟩ := lists_hold_placeholders.2 shortLookup [.int 7] (by decide +kernel)
  rw [text_shortLookup] at read
  have told : found.map Condition.fields =
      [(none, "e", .equals, [.int 7]), (none, "c", .isIn, [.int 7])] := fields
  obtain ⟨c, member, same⟩ := List.mem_map.mp (told ▸ List.mem_cons_of_mem _ (List.mem_cons_self ..))
  have operator : c.operator = .isIn := congrArg (·.2.2.1) same
  exact ⟨found, read, told, c, member, operator, lists_hold_placeholders.1 read c member (.inl operator)⟩

/-- The placeholder of the nested statement gives the outer column a list, of which it is no element. -/
theorem shortLookup_lists_outer :
    ∃ found, conditions "c IN (SELECT d FROM t WHERE e = $1)" [.int 7] = .ok found ∧
      ∃ c ∈ found, c.operator = .isIn ∧ c.column = "c" ∧ c.values = [.int 7] := by
  obtain ⟨found, read, fields⟩ := shortLookup.conditions_text [.int 7] (by decide +kernel)
  rw [text_shortLookup] at read
  have told : found.map Condition.fields =
      [(none, "e", .equals, [.int 7]), (none, "c", .isIn, [.int 7])] := fields
  obtain ⟨c, member, same⟩ := List.mem_map.mp (told ▸ List.mem_cons_of_mem _ (List.mem_cons_self ..))
  exact ⟨found, read, c, member, congrArg (·.2.2.1) same, congrArg (·.2.1) same, congrArg (·.2.2.2) same⟩

end QueryHarvest.Sql
