import QueryHarvest.Proofs.Sql.Denotation
import QueryHarvest.Proofs.Sql.Runs
import QueryHarvest.Proofs.Sql.Shapes

/-! # Where the values of conditions come from

Whatever the text of a statement is, as long as its numbers are not too long and two letters do not occur
in it, the search for conditions comes to an end without an error. Every value in a condition that is
found is a parameter that a placeholder in the text stands for, or an item of one, or a literal.
-/

namespace QueryHarvest.Sql

open Number Text

/-- No number in the text is too long to be read, and neither of the two letters occurs whose capitals
are beyond ASCII though they count as variants of ASCII letters. -/
structure Plain (text : List Char) : Prop where
  short : ∀ run, IsRun isDigit run → run <:+: text → run.length ≤ maxDigits
  dotted : ∀ c ∈ text, c.toNat ≠ 0x130
  kelvin : ∀ c ∈ text, c.toNat ≠ 0x212A

theorem Plain.of_isInfix {piece text : List Char} (h : Plain text) (inside : piece <:+: text) :
    Plain piece where
  short run hrun here := h.short run hrun (here.trans inside)
  dotted c member := h.dotted c (inside.subset member)
  kelvin c member := h.kelvin c (inside.subset member)

theorem Plain.normalForm {text : List Char} (h : Plain text) : Plain (normalForm text) where
  short run hrun here :=
    h.short run hrun (infix_of_infix_normalForm (fun _ => isDigit_of_isBlank) rfl rfl hrun here)
  dotted c member same := by
    have code : c = Char.ofNat 0x130 := by rw [← same, Char.ofNat_toNat]
    subst code
    exact h.dotted _ (mem_of_mem_normalForm rfl (by decide) (by decide) member) rfl
  kelvin c member same := by
    have code : c = Char.ofNat 0x212A := by rw [← same, Char.ofNat_toNat]
    subst code
    exact h.kelvin _ (mem_of_mem_normalForm rfl (by decide) (by decide) member) rfl

section

variable {text : List Char} {parameters : List Value}

/-- The value is the parameter that a placeholder in the text stands for. -/
def IsParameter (text : List Char) (parameters : List Value) (v : Value) : Prop :=
  ∃ p : Placeholder, p.Stands text ∧ 1 ≤ digitsValue p.digits ∧
    digitsValue p.digits ≤ parameters.length ∧ parameters[digitsValue p.digits - 1]? = some v

theorem Placeholder.Stands.short (plain : Plain text) {p : Placeholder} (h : p.Stands text) :
    p.digits.length ≤ maxDigits := by
  refine plain.short p.digits ⟨h.nonempty, h.digits⟩ ?_
  exact List.IsInfix.trans ⟨['$'], p.behind, rfl⟩ h.place.isInfix

theorem exists_parameter? (plain : Plain text) {p : Placeholder} (h : p.Stands text)
    (parameters : List Value) :
    ∃ found, parameter? parameters p.digits = .ok found ∧
      ∀ v ∈ found, IsParameter text parameters v := by
  have read : ofDigits p.digits = .ok (digitsValue p.digits) := if_pos (h.short plain)
  refine ⟨_, by rw [parameter?, read]; rfl, fun v found => ?_⟩
  split at found
  · cases found
  · next counted =>
    obtain ⟨inside, -⟩ := List.getElem?_eq_some_iff.mp found
    simp only [beq_iff_eq] at counted
    exact ⟨p, h, by omega, by omega, found⟩

theorem exists_parameterAt (plain : Plain text) {p : Predicate}
    (h : ∀ q ∈ p.notes.placeholders, q.Stands text) (parameters : List Value) (position : Nat) :
    ∃ found, p.parameterAt parameters position = .ok found ∧
      ∀ v ∈ found, IsParameter text parameters v := by
  rw [Predicate.parameterAt]
  cases placed : p.notes.placeholders[position]? with
  | none => exact ⟨none, rfl, by simp⟩
  | some q =>
      obtain ⟨found, read, sources⟩ :=
        exists_parameter? plain (h q (List.mem_of_getElem? placed)) parameters
      exact ⟨found, by simp only [read]; rfl, sources⟩

/-- The placeholders in a list stand for parameters, also in the text that the list is a part of. -/
theorem exists_parametersIn (plain : Plain text) {list behind : List Char}
    (inside : list ++ behind <:+ text) (whole : Stops isDigit behind) (parameters : List Value) :
    ∃ values, parametersIn parameters list = .ok values ∧
      ∀ v ∈ values, IsParameter text parameters v := by
  have stands {q : Placeholder} (member : q ∈ placeholdersIn list) :
      Placeholder.Stands ⟨q.digits, q.behind ++ behind⟩ text :=
    ((stands_of_mem_placeholdersIn member).append whole).of_suffix inside
  obtain ⟨found, read, sources⟩ := exists_mapM_ok_forall fun q member =>
    exists_parameter? plain (stands member) parameters
  refine ⟨found.filterMap id, by rw [parametersIn, read]; rfl, fun v member => ?_⟩
  obtain ⟨_, member, rfl⟩ := List.mem_filterMap.mp member
  obtain ⟨-, -, source⟩ := sources _ member
  exact source v rfl

end

/-- Behind a written column stand an equals sign and a literal, and behind that the rest of the text. -/
def Equates (text column literal rest : List Char) : Prop :=
  ∃ before after, (∀ x ∈ before, isBlank x) ∧ (∀ x ∈ after, isBlank x) ∧
    column ++ (before ++ '=' :: (after ++ (literal ++ rest))) <:+ text

/-- The value is an integer whose digits are written behind the column. -/
def IsInteger (text column : List Char) (v : Value) : Prop :=
  ∃ digits rest, IsRun isDigit digits ∧ Stops isDigit rest ∧ Equates text column digits rest ∧
    v = .int (digitsValue digits)

/-- The value is a text that is written in quotes behind the column. -/
def IsQuoted (text column : List Char) (v : Value) : Prop :=
  ∃ body rest, '\x27' ∉ body ∧ Equates text column ('\x27' :: (body ++ ['\x27'])) rest ∧
    v = .text (String.ofList body)

/-- What a predicate can say: an operator, and values that come from somewhere. -/
inductive Answer (p : Predicate) (text : List Char) (parameters : List Value) :
    Operator → List Value → Prop where
  | equals {v : Value} (source : IsParameter text parameters v) : Answer p text parameters .equals [v]
  | isIn {values : List Value} (filled : values ≠ [])
      (sources : ∀ v ∈ values, IsParameter text parameters v) : Answer p text parameters .isIn values
  | notIn {values : List Value} (filled : values ≠ [])
      (sources : ∀ v ∈ values, IsParameter text parameters v) : Answer p text parameters .notIn values
  | anyOf {v : Value} (source : IsParameter text parameters v) : Answer p text parameters .anyOf [v]
  | items {array : Value} {items : List Value} (source : IsParameter text parameters array)
      (holds : array = .list items ∨ array = .tuple items) (filled : items ≠ []) :
      Answer p text parameters .anyOf items
  | compares {comparison : Comparison} {v : Value} (source : IsParameter text parameters v) :
      Answer p text parameters (.compares comparison) [v]
  | between {low high : Value} (source : IsParameter text parameters low)
      (source' : IsParameter text parameters high) : Answer p text parameters .between [low, high]
  | like {v : Value} (source : IsParameter text parameters v) : Answer p text parameters .like [v]
  | ilike {v : Value} (source : IsParameter text parameters v) : Answer p text parameters .ilike [v]
  | isNull : Answer p text parameters .isNull []
  | isNotNull : Answer p text parameters .isNotNull []
  | literal {v : Value} (qualified : p.qualifier.isSome)
      (source : IsInteger text p.spelledColumn v ∨ IsQuoted text p.spelledColumn v) :
      Answer p text parameters .equals [v]

@[simp] theorem comparison_upper (comparison : Comparison) :
    String.ofList (upper comparison.text.toList) = comparison.text := by
  cases comparison <;> rfl

/-- Without the two letters a word that folds to ASCII has the capitals of ASCII. -/
theorem Plain.upper_eq {written word : List Char} (h : Plain written)
    (folds : written.map foldLetter = word) (ascii : word.all (·.toNat < 128)) :
    upper written = word.map Char.toUpper := by
  subst folds
  rw [upper, List.map_map, List.map_eq_flatMap]
  refine List.flatMap_congr fun c member => ?_
  have narrow := List.all_eq_true.mp ascii _ (List.mem_map_of_mem member)
  exact upperChar_of_foldLetter (of_decide_eq_true narrow) (h.dotted c member) (h.kelvin c member)

section

variable {p : Predicate} {f : Family} {text read rest : List Char}

theorem Predicate.Stands.placeholders (h : p.Stands f text read rest) :
    ∀ q ∈ p.notes.placeholders, q.Stands text := by
  intro q member
  rcases h.reads.placeholders q member with none | stands
  · cases none
  · exact stands.of_suffix ((List.suffix_append ..).trans h.place)

theorem Predicate.Stands.plain (h : p.Stands f text read rest) (plain : Plain text) :
    Plain (read ++ rest) :=
  plain.of_isInfix ((List.suffix_append ..).trans h.place).isInfix

/-- What is read off a predicate of some kind is an answer, or there is none. -/
def Answers (p : Predicate) (text : List Char) (parameters : List Value) (kind : PredicateKind) : Prop :=
  ∃ found : Option (Operator × List Value),
    p.content parameters kind = .ok (found.map fun (operator, values) => (operator.text, values)) ∧
      ∀ answer ∈ found, Answer p text parameters answer.1 answer.2

variable {parameters : List Value}

/-- The answer is about the parameter of the first placeholder. -/
theorem answers_of_first {kind : PredicateKind} (plain : Plain text)
    (placeholders : ∀ q ∈ p.notes.placeholders, q.Stands text) (operator : Operator)
    (content : p.content parameters kind = do
      return (← p.parameterAt parameters 0).map fun v => (operator.text, [v]))
    (answer : ∀ v, IsParameter text parameters v → Answer p text parameters operator [v]) :
    Answers p text parameters kind := by
  obtain ⟨first, read, sources⟩ := exists_parameterAt plain placeholders parameters 0
  refine ⟨first.map fun v => (operator, [v]), ?_, ?_⟩
  · rw [content, read]
    cases first <;> rfl
  · rintro _ found
    obtain ⟨v, hv, rfl⟩ := Option.map_eq_some_iff.mp found
    exact answer v (sources v hv)

theorem answers_equality (plain : Plain text)
    (placeholders : ∀ q ∈ p.notes.placeholders, q.Stands text) :
    Answers p text parameters .equality :=
  answers_of_first plain placeholders .equals rfl fun _ source => .equals source

theorem answers_comparison (plain : Plain text)
    (placeholders : ∀ q ∈ p.notes.placeholders, q.Stands text)
    (reads : PredicateKind.comparison.shape.Reads {} read rest p.notes) :
    Answers p text parameters .comparison := by
  obtain ⟨_, _, _, _, _, -, noted, same⟩ :=
    reads.noting [.blanks] [.blanks, .placeholder] rfl
  cases noted with
  | comparison comparison =>
      refine answers_of_first plain placeholders (.compares comparison) ?_
        fun _ source => .compares source
      rw [Predicate.content, same, comparison_upper]
      rfl

theorem answers_patternMatch (plain : Plain text)
    (placeholders : ∀ q ∈ p.notes.placeholders, q.Stands text) (inside : Plain (read ++ rest))
    (reads : PredicateKind.patternMatch.shape.Reads {} read rest p.notes) :
    Answers p text parameters .patternMatch := by
  obtain ⟨before, here, after, _, _, rfl, noted, same⟩ :=
    reads.noting [.gap] [.gap, .placeholder] rfl
  have short : Plain here := inside.of_isInfix ⟨before, after ++ rest, by simp⟩
  cases noted with
  | like folds =>
      refine answers_of_first plain placeholders .like ?_ fun _ source => .like source
      rw [Predicate.content, same, short.upper_eq folds (by decide)]
      rfl
  | ilike folds =>
      refine answers_of_first plain placeholders .ilike ?_ fun _ source => .ilike source
      rw [Predicate.content, same, short.upper_eq folds (by decide)]
      rfl

/-- The answer is about the parameters of a list. -/
theorem answers_of_list {kind : PredicateKind} (plain : Plain text) {list behind : List Char}
    (inside : list ++ behind <:+ text) (whole : Stops isDigit behind) {operator : Operator}
    (content : p.content parameters kind = do
      let values ← (parametersIn parameters list).mapError .integer
      return if values.isEmpty then none else some (operator.text, values))
    (answer : ∀ values, values ≠ [] → (∀ v ∈ values, IsParameter text parameters v) →
      Answer p text parameters operator values) :
    Answers p text parameters kind := by
  obtain ⟨values, read, sources⟩ := exists_parametersIn plain inside whole parameters
  refine ⟨if values.isEmpty then none else some (operator, values), ?_, ?_⟩
  · rw [content, read]
    cases values <;> rfl
  · rintro _ found
    cases values with
    | nil => cases found
    | cons v values =>
        cases found
        exact answer _ (List.cons_ne_nil v values) sources

/-- A list that is read up to a parenthesis stands in the text with no digit behind it. -/
theorem list_inside (h : p.Stands f text read rest) (front : Shape)
    (shape : f.kind.shape = front ++ .list :: [.symbol ')']) :
    ∃ behind, p.notes.text ++ behind <:+ text ∧ Stops isDigit behind := by
  have reads := h.reads
  rw [shape] at reads
  obtain ⟨before, here, after, _, _, rfl, noted, same⟩ := reads.noting front [.symbol ')'] rfl
  cases noted with
  | list _ whole =>
      refine ⟨after ++ rest, ?_, fun x first => ?_⟩
      · rw [same]
        refine List.IsSuffix.trans ⟨p.spelledColumn ++ before, ?_⟩ h.place
        simp
      · have closes := whole x first
        simp only [bne_eq_false_iff_eq] at closes
        rw [closes]
        rfl

theorem answers_membership (plain : Plain text) (h : p.Stands f text read rest)
    (kind : f.kind = .membership) : Answers p text parameters .membership := by
  obtain ⟨behind, inside, whole⟩ :=
    list_inside h [.gap, .word ['i', 'n'], .blanks, .symbol '('] (by rw [kind]; rfl)
  exact answers_of_list plain inside whole rfl fun _ => .isIn

theorem answers_negatedMembership (plain : Plain text) (h : p.Stands f text read rest)
    (kind : f.kind = .negatedMembership) : Answers p text parameters .negatedMembership := by
  obtain ⟨behind, inside, whole⟩ := list_inside h
    [.gap, .word ['n', 'o', 't'], .gap, .word ['i', 'n'], .blanks, .symbol '(']
    (by rw [kind]; rfl)
  exact answers_of_list plain inside whole rfl fun _ => .notIn

theorem answers_arrayEquality (plain : Plain text)
    (placeholders : ∀ q ∈ p.notes.placeholders, q.Stands text) :
    Answers p text parameters .arrayEquality := by
  obtain ⟨first, read, sources⟩ := exists_parameterAt plain placeholders parameters 0
  rw [Answers, Predicate.content, read]
  cases first with
  | none => exact ⟨none, rfl, by simp⟩
  | some array =>
      have source := sources array rfl
      have filled {items : List Value} (holds : array = .list items ∨ array = .tuple items)
          (nonempty : items ≠ []) :
          ∀ answer ∈ some (Operator.anyOf, items), Answer p text parameters answer.1 answer.2 := by
        rintro _ ⟨⟩
        exact .items source holds nonempty
      cases array with
      | list items =>
          cases items with
          | nil => exact ⟨none, rfl, by simp⟩
          | cons => exact ⟨_, rfl, filled (.inl rfl) (List.cons_ne_nil _ _)⟩
      | tuple items =>
          cases items with
          | nil => exact ⟨none, rfl, by simp⟩
          | cons => exact ⟨_, rfl, filled (.inr rfl) (List.cons_ne_nil _ _)⟩
      | _ =>
          refine ⟨some (.anyOf, [_]), rfl, ?_⟩
          rintro _ ⟨⟩
          exact .anyOf source

theorem answers_range (plain : Plain text)
    (placeholders : ∀ q ∈ p.notes.placeholders, q.Stands text) :
    Answers p text parameters .range := by
  obtain ⟨low, lowRead, lowSources⟩ :=
    exists_parameterAt plain placeholders parameters 0
  obtain ⟨high, highRead, highSources⟩ :=
    exists_parameterAt plain placeholders parameters 1
  rw [Answers, Predicate.content, lowRead]
  simp only [ok_bind, highRead]
  cases low with
  | none => exact ⟨none, rfl, by simp⟩
  | some low =>
      cases high with
      | none => exact ⟨none, rfl, by simp⟩
      | some high =>
          refine ⟨some (.between, [low, high]), rfl, ?_⟩
          rintro _ ⟨⟩
          exact .between (lowSources low rfl) (highSources high rfl)

theorem answers_nullCheck : Answers p text parameters .nullCheck := by
  cases negated : p.notes.negated with
  | true =>
      refine ⟨some (.isNotNull, []), by simp [Predicate.content, negated], ?_⟩
      rintro _ ⟨⟩
      exact .isNotNull
  | false =>
      refine ⟨some (.isNull, []), by simp [Predicate.content, negated], ?_⟩
      rintro _ ⟨⟩
      exact .isNull

/-- A literal is read behind an equals sign. -/
theorem equates (h : p.Stands f text read rest) {piece : Piece} {back : Shape}
    (shape : f.kind.shape = .blanks :: .symbol '=' :: .blanks :: piece :: back)
    (quiet : back.all Piece.isQuiet) :
    ∃ literal more between between', piece.Reads between literal (more ++ rest) between' ∧
      back.Reads between' more rest p.notes ∧ p.notes.text = between'.text ∧
      Equates text p.spelledColumn literal (more ++ rest) := by
  have reads := h.reads
  rw [shape] at reads
  obtain ⟨before, _, _, rfl, first, reads⟩ := reads.of_cons
  obtain ⟨_, _, _, rfl, second, reads⟩ := reads.of_cons
  obtain ⟨between, _, _, rfl, third, reads⟩ := reads.of_cons
  obtain ⟨literal, more, _, rfl, fourth, others⟩ := reads.of_cons
  have place := h.place
  cases first with
  | blanks blank =>
      cases second with
      | symbol =>
          cases third with
          | blanks blank' =>
              refine ⟨literal, more, _, _, fourth, others, others.text_eq quiet, before, between, blank,
                blank', ?_⟩
              simpa using place

theorem answers_integerLiteral (plain : Plain text) (h : p.Stands f text read rest)
    (kind : f.kind = .integerLiteral) (qualified : f.qualified) :
    Answers p text parameters .integerLiteral := by
  obtain ⟨digits, more, _, _, reads, -, noted, written⟩ := equates h (by rw [kind]; rfl) rfl
  cases reads with
  | number nonempty all whole =>
      have run : IsRun isDigit digits := ⟨nonempty, all⟩
      have short : digits.length ≤ maxDigits := by
        obtain ⟨before, between, -, -, place⟩ := written
        refine plain.short digits run (List.IsInfix.trans ?_ place.isInfix)
        exact ⟨p.spelledColumn ++ before ++ '=' :: between, more ++ rest, by simp⟩
      refine ⟨some (.equals, [.int (digitsValue digits)]), ?_, ?_⟩
      · rw [Predicate.content, noted, show ofDigits digits = .ok (digitsValue digits) from if_pos short]
        rfl
      · rintro _ ⟨⟩
        exact .literal (h.qualified.trans qualified) (.inl ⟨digits, more ++ rest, run, whole, written, rfl⟩)

theorem answers_stringLiteral (h : p.Stands f text read rest) (kind : f.kind = .stringLiteral)
    (qualified : f.qualified) : Answers p text parameters .stringLiteral := by
  obtain ⟨literal, more, _, _, reads, -, noted, written⟩ := equates h (by rw [kind]; rfl) rfl
  cases reads with
  | @quoted _ body _ all =>
      refine ⟨some (.equals, [.text (String.ofList body)]), by rw [Predicate.content, noted]; rfl, ?_⟩
      rintro _ ⟨⟩
      have whole : '\x27' ∉ body := fun member => all _ member rfl
      exact .literal (h.qualified.trans qualified) (.inr ⟨body, more ++ rest, whole, written, rfl⟩)

/-- Literals are looked for behind qualified columns only. -/
theorem qualified_of_mem_all : ∀ f ∈ Family.all,
    f.kind = .integerLiteral ∨ f.kind = .stringLiteral → f.qualified := by
  decide

/-- Every predicate of every family is answered. -/
theorem answers (plain : Plain text) (member : f ∈ Family.all) (h : p.Stands f text read rest)
    (parameters : List Value) : Answers p text parameters f.kind := by
  have reads := h.reads
  cases kind : f.kind with
  | equality => exact answers_equality plain h.placeholders
  | membership => exact answers_membership plain h kind
  | negatedMembership => exact answers_negatedMembership plain h kind
  | arrayEquality => exact answers_arrayEquality plain h.placeholders
  | comparison => exact answers_comparison plain h.placeholders (kind ▸ reads)
  | range => exact answers_range plain h.placeholders
  | patternMatch => exact answers_patternMatch plain h.placeholders (h.plain plain) (kind ▸ reads)
  | nullCheck => exact answers_nullCheck
  | integerLiteral =>
      exact answers_integerLiteral plain h kind (qualified_of_mem_all f member (.inl kind))
  | stringLiteral => exact answers_stringLiteral h kind (qualified_of_mem_all f member (.inr kind))

end

theorem Answer.values_isEmpty {p : Predicate} {text : List Char} {parameters : List Value}
    {operator : Operator} {values : List Value} (h : Answer p text parameters operator values) :
    values.isEmpty = operator.isNullCheck := by
  cases h with
  | isIn filled | notIn filled | items _ _ filled => exact List.isEmpty_eq_false_iff.mpr filled
  | _ => rfl

/-- The name of the column of a predicate in lower case. -/
def Predicate.loweredName (p : Predicate) : ColumnName :=
  ⟨p.qualifier.map fun name => String.ofList (lower name), String.ofList (lower p.column)⟩

/-- Neither the column nor the table is a reserved word. -/
structure ColumnName.Unreserved (name : ColumnName) : Prop where
  column : isReservedName name.column = false
  table : ∀ table ∈ name.table, isReservedName table = false

theorem columnName?_eq_some {p : Predicate} {name : ColumnName} (h : p.columnName? = some name) :
    name = p.loweredName ∧ p.loweredName.Unreserved := by
  simp only [Predicate.columnName?] at h
  split at h
  · cases h
  · next unreserved =>
    cases h
    simp only [Bool.or_eq_true, not_or, Bool.not_eq_true] at unreserved
    refine ⟨rfl, unreserved.1, fun table member => ?_⟩
    have missing := unreserved.2
    simp only [Predicate.loweredName, Option.mem_def] at member
    rwa [member] at missing

/-- The condition says about the column of a predicate what the predicate is answered with. -/
structure Predicate.Yields (p : Predicate) (text : List Char) (parameters : List Value) (c : Condition) :
    Prop where
  name : ColumnName.mk c.table c.column = p.loweredName
  unreserved : p.loweredName.Unreserved
  answer : Answer p text parameters c.operator c.values

section

variable {text : List Char}

theorem exists_condition? {p : Predicate} {f : Family} {read rest : List Char} (plain : Plain text)
    (member : f ∈ Family.all) (h : p.Stands f text read rest) (parameters : List Value) :
    ∃ found, p.condition? parameters f.kind = .ok found ∧
      ∀ c ∈ found, p.Yields text parameters c := by
  obtain ⟨found, content, sources⟩ := answers plain member h parameters
  rw [Predicate.condition?]
  cases named : p.columnName? with
  | none => exact ⟨none, rfl, by simp⟩
  | some name =>
      obtain ⟨rfl, unreserved⟩ := columnName?_eq_some named
      simp only [content]
      cases found with
      | none => exact ⟨none, rfl, by simp⟩
      | some found =>
          obtain ⟨operator, values⟩ := found
          have answer : Answer p text parameters operator values := sources _ rfl
          have made := @ofSpelling_text _ p.loweredName.table p.loweredName.column _
            answer.values_isEmpty
          refine ⟨some ⟨p.loweredName.table, p.loweredName.column, operator, values,
            answer.values_isEmpty⟩, ?_, ?_⟩
          · simp only [ok_bind, Option.map_some, made]
            rfl
          · rintro _ ⟨⟩
            exact ⟨rfl, unreserved, answer⟩

/-- The condition is what some predicate in the text yields. -/
def IsYielded (text : List Char) (parameters : List Value) (c : Condition) : Prop :=
  ∃ p f read rest, Predicate.Stands p f text read rest ∧ p.Yields text parameters c

theorem exists_familyConditionsIn {f : Family} (plain : Plain text) (member : f ∈ Family.all)
    (parameters : List Value) :
    ∃ found, f.conditionsIn text parameters = .ok found ∧
      ∀ c ∈ found, IsYielded text parameters c := by
  have each : ∀ matched ∈ f.predicatesIn text,
      ∃ found, matched.value.condition? parameters f.kind = .ok found ∧
        ∀ c ∈ found, IsYielded text parameters c := by
    intro matched inside
    obtain ⟨_, _, stands⟩ := stands_of_mem_predicatesIn inside
    obtain ⟨found, made, yields⟩ := exists_condition? plain member stands parameters
    exact ⟨found, made, fun c holds => ⟨_, _, _, _, stands, yields c holds⟩⟩
  obtain ⟨found, read, yielded⟩ := exists_mapM_ok_forall each
  refine ⟨found.filterMap id, by rw [Family.conditionsIn, read]; rfl, fun c inside => ?_⟩
  obtain ⟨_, inside, rfl⟩ := List.mem_filterMap.mp inside
  obtain ⟨-, -, yields⟩ := yielded _ inside
  exact yields c rfl

/-- Where numbers are short and the two letters are missing, the search ends without an error, and every
condition is what some predicate yields. -/
theorem exists_conditionsIn (plain : Plain text) (parameters : List Value) :
    ∃ found, conditionsIn Family.all text parameters = .ok found ∧
      ∀ c ∈ found, IsYielded text parameters c := by
  obtain ⟨found, read, yielded⟩ := exists_mapM_ok_forall fun f member =>
    exists_familyConditionsIn (f := f) plain member parameters
  refine ⟨found.flatten, by rw [conditionsIn, read]; rfl, fun c inside => ?_⟩
  obtain ⟨conditions, member, inside⟩ := List.mem_flatten.mp inside
  obtain ⟨-, -, yields⟩ := yielded conditions member
  exact yields c inside

end

end QueryHarvest.Sql
