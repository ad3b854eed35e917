import QueryHarvest.Proofs.Sql.Extraction
import QueryHarvest.Proofs.Sql.Sources
import QueryHarvest.Proofs.Sql.Stripping
import QueryHarvest.Proofs.Text.LetterCase

/-! # Letter case of statements

Outside of literals and comments, a statement in capitals has the tables and the conditions that it has in
small letters. What is noted on the way differs, but only in the case of names and of `LIKE`, and both are
brought into one case.
-/

namespace QueryHarvest.Sql

open Number Text Cursor

/-- The placeholder in the text in small letters. -/
def Placeholder.lowered (p : Placeholder) : Placeholder :=
  ⟨small p.digits, small p.behind⟩

/-- The notes from the text in small letters. -/
def Notes.lowered (notes : Notes) : Notes :=
  { notes with placeholders := notes.placeholders.map .lowered, text := small notes.text }

/-- Is the piece no letter that has to stand in one case? -/
def Piece.isBlind : Piece → Bool
  | .symbol s => !s.isAlpha
  | _ => true

theorem comparison?_cons (x : Char) (text : List Char) : comparison? (x :: text) =
    if x = '>' then if text.head? = some '=' then some ['>', '='] else some ['>']
    else if x = '<' then
      if text.head? = some '=' then some ['<', '=']
      else if text.head? = some '>' then some ['<', '>'] else some ['<']
    else if x = '!' ∧ text.head? = some '=' then some ['!', '='] else none := by
  unfold comparison?
  split <;> simp_all [List.head?_eq_some_iff]

/-- Comparisons have no letters in them. -/
@[simp] theorem comparison?_small (text : List Char) : comparison? (small text) = comparison? text := by
  cases text with
  | nil => rfl
  | cons x text =>
      have head (mark : Char) (h : mark.isAlpha = false) :
          (small text).head? = some mark ↔ text.head? = some mark := by
        cases text <;> simp [small, toLower_eq_iff mark h]
      rw [small, List.map_cons, ← small, comparison?_cons, comparison?_cons]
      simp only [toLower_eq_iff '>' rfl, toLower_eq_iff '<' rfl,
        toLower_eq_iff '!' rfl, head '=' rfl, head '>' rfl]

theorem small_comparison {text operator : List Char} (h : comparison? text = some operator) :
    small operator = operator := by
  unfold comparison? at h
  split at h <;> cases h <;> rfl

namespace Piece

theorem readPlaceholder?_blind : BlindReader Placeholder.lowered readPlaceholder? := by
  intro c
  rw [readPlaceholder?, one?_lowered (caseBlind_beq _ rfl), readPlaceholder?]
  cases c.one? (· == '$') with
  | none => rfl
  | some after =>
      have digits := span1?_blind caseBlind_isDigit after
      simp only [Option.map_some, Option.bind_eq_bind, Option.bind_some] at digits ⊢
      rw [digits]
      cases after.span1? isDigit <;> rfl

theorem readComparison?_blind : BlindReader small readComparison? := by
  intro c
  have same : comparison? c.lowered.rest = comparison? c.rest := comparison?_small c.rest
  rw [readComparison?, same, readComparison?]
  cases read : comparison? c.rest with
  | none => rfl
  | some operator =>
      have plain := small_comparison read
      have last : operator.getLast?.map Char.toLower = operator.getLast? := by
        rw [← List.getLast?_map, ← small, plain]
      simp [lowered, Prod.map, plain, last]
      simp [small]

theorem readQuoted?_blind : BlindReader small readQuoted? := by
  intro c
  have quote := caseBlind_beq '\x27' rfl
  rw [readQuoted?, one?_lowered quote, readQuoted?]
  cases c.one? (· == '\x27') with
  | none => rfl
  | some inside =>
      have read := span1?_blind (caseBlind_bne '\x27' rfl) inside
      simp only [Option.map_some, Option.bind_eq_bind, Option.bind_some] at read ⊢
      rw [read]
      cases inside.span1? (· != '\x27') with
      | none => rfl
      | some found =>
          simp only [Option.map_some, Option.bind_some, Prod.map, one?_lowered quote]
          cases found.2.one? (· == '\x27') <;> rfl

theorem readSecondName?_blind : BlindReader small readSecondName? := by
  intro c
  rw [readSecondName?, one?_lowered (caseBlind_beq _ rfl), readSecondName?]
  cases c.one? (· == '.') with
  | none => rfl
  | some after => exact identifier?_blind after

theorem readName?_blind : BlindReader small readName? := by
  intro c
  rw [readName?, identifier?_blind, readName?]
  cases c.identifier? with
  | none => rfl
  | some first =>
      have second := readSecondName?_blind first.2
      simp only [Option.map_some, Option.bind_eq_bind, Option.bind_some, Prod.map, second]
      cases readSecondName? first.2 with
      | none => rfl
      | some found => simp [small, Prod.map]

@[simp] theorem readNot?_lowered (c : Cursor) : readNot? c.lowered = (readNot? c).map lowered := by
  rw [readNot?, keyword?_lowered, readNot?]
  cases c.keyword? ['n', 'o', 't'] with
  | none => rfl
  | some after =>
      have gap := span1?_blind caseBlind_isBlank after
      simp only [Option.map_some, Option.bind_eq_bind, Option.bind_some] at gap ⊢
      rw [gap]
      cases after.span1? isBlank <;> rfl

theorem writtenWord?_blind (word : List Char) : BlindReader small (writtenWord? word) := by
  intro c
  rw [writtenWord?, keyword?_lowered, writtenWord?]
  cases c.keyword? word with
  | none => rfl
  | some after => simp [lowered, small, Prod.map]

theorem read?_lowered {piece : Piece} (blind : piece.isBlind) (notes : Notes) (c : Cursor) :
    piece.read? notes.lowered c.lowered = (piece.read? notes c).map (Prod.map Notes.lowered lowered) := by
  cases piece with
  | blanks =>
      rw [read?, skip_lowered caseBlind_isBlank]
      rfl
  | gap =>
      rw [read?, span1?_blind caseBlind_isBlank, read?, Option.map_map, Option.map_map]
      rfl
  | symbol s =>
      have symbol : s.isAlpha = false := by simpa [isBlind] using blind
      rw [read?, one?_lowered (caseBlind_beq s symbol), read?, Option.map_map, Option.map_map]
      rfl
  | word letters =>
      rw [read?, keyword?_lowered, read?, Option.map_map, Option.map_map]
      rfl
  | placeholder =>
      rw [read?, readPlaceholder?_blind, read?, Option.map_map, Option.map_map]
      refine Option.map_congr fun found _ => ?_
      simp [Notes.lowered, Prod.map]
  | comparison =>
      rw [read?, readComparison?_blind, read?, Option.map_map, Option.map_map]
      rfl
  | like =>
      rw [read?, writtenWord?_blind, writtenWord?_blind, ← Option.map_or, read?, Option.map_map,
        Option.map_map]
      rfl
  | negation =>
      rw [read?, readNot?_lowered, read?]
      cases readNot? c <;> rfl
  | list =>
      rw [read?, span1?_blind (caseBlind_bne _ rfl), read?, Option.map_map, Option.map_map]
      rfl
  | number =>
      rw [read?, span1?_blind caseBlind_isDigit, read?, Option.map_map, Option.map_map]
      rfl
  | quoted =>
      rw [read?, readQuoted?_blind, read?, Option.map_map, Option.map_map]
      rfl
  | name =>
      rw [read?, readName?_blind, read?, Option.map_map, Option.map_map]
      rfl
  | wordEnd =>
      rw [read?, isWord?_head?_lowered, read?]
      split <;> rfl
  | numberEnd =>
      have point : (c.lowered.rest.head? == some '.') = (c.rest.head? == some '.') := by
        obtain ⟨before, rest⟩ := c
        cases rest with
        | nil => rfl
        | cons x rest => exact caseBlind_beq '.' rfl x
      rw [read?, isWord?_head?_lowered, point, read?]
      split <;> rfl

end Piece

theorem Shape.read?_lowered {shape : Shape} (blind : shape.all Piece.isBlind) (notes : Notes) (c : Cursor) :
    shape.read? notes.lowered c.lowered = (shape.read? notes c).map (Prod.map Notes.lowered lowered) := by
  induction shape generalizing notes c with
  | nil => rfl
  | cons piece shape ih =>
      rw [List.all_cons, Bool.and_eq_true] at blind
      rw [Shape.read?, Piece.read?_lowered blind.1, Shape.read?]
      cases piece.read? notes c with
      | none => rfl
      | some found => exact ih blind.2 found.1 found.2

theorem referencePattern_blind {keywords : List (List Char)} :
    BlindReader small (referencePattern keywords).match? := by
  have blind : (referenceShape keywords).all Piece.isBlind := by
    simp [referenceShape, Piece.isBlind]
  intro c
  have read := Shape.read?_lowered blind {} c
  simp only [referencePattern, beginsWord_lowered]
  cases c.beginsWord with
  | false => rfl
  | true =>
      rw [if_pos rfl, if_pos rfl, Option.map_map]
      rw [show Notes.lowered {} = {} from rfl] at read
      rw [read, Option.map_map]
      rfl

@[simp] theorem namesBehind_small (text : List Char) : namesBehind (small text) = namesBehind text := by
  funext keywords
  rw [namesBehind_eq, start_small, Pattern.valuesFrom_lowered referencePattern_blind, List.map_map,
    namesBehind_eq]
  simp only [Function.comp_def, lower_small]

@[simp] theorem tablesIn_small (text : List Char) : tablesIn (small text) = tablesIn text := by
  rw [tablesIn, namesBehind_small, tablesIn]

theorem readColumn?_blind (qualified : Bool) :
    BlindReader (fun column => (column.1.map small, small column.2)) (readColumn? qualified) := by
  intro c
  rw [readColumn?, identifier?_blind, readColumn?]
  cases c.identifier? with
  | none => rfl
  | some first =>
      cases qualified with
      | false => rfl
      | true =>
          simp only [Option.map_some, Option.bind_eq_bind, Option.bind_some, Prod.map, if_true,
            one?_lowered (caseBlind_beq '.' rfl)]
          cases first.2.one? (· == '.') with
          | none => rfl
          | some after =>
              simp only [Option.map_some, Option.bind_some, identifier?_blind after]
              cases after.identifier? <;> rfl

/-- The predicate in the text in small letters. -/
def Predicate.lowered (p : Predicate) : Predicate :=
  ⟨p.qualifier.map small, small p.column, p.notes.lowered⟩

theorem blind_shape (kind : PredicateKind) : kind.shape.all Piece.isBlind := by
  cases kind <;> rfl

theorem Family.pattern_blind (f : Family) : BlindReader Predicate.lowered f.pattern.match? := by
  intro c
  simp only [Family.pattern, beginsWord_lowered]
  cases c.beginsWord with
  | false => rfl
  | true =>
      rw [if_pos rfl, if_pos rfl, Family.readPredicate?, readColumn?_blind, Family.readPredicate?]
      cases readColumn? f.qualified c with
      | none => rfl
      | some found =>
          have notes := Shape.read?_lowered (blind_shape f.kind) {} found.2
          rw [show Notes.lowered {} = {} from rfl] at notes
          simp only [Option.map_some, Option.bind_eq_bind, Option.bind_some, Prod.map, notes]
          cases f.kind.shape.read? {} found.2 <;> rfl

@[simp] theorem ofDigits_small (digits : List Char) : ofDigits (small digits) = ofDigits digits := by
  have value : digitsValue (small digits) = digitsValue digits := by
    rw [digitsValue, small, List.foldl_map, digitsValue]
    refine List.foldl_ext _ _ 0 fun n c _ => ?_
    rw [(Text.blind c).digit]
  rw [ofDigits, value, small, List.length_map, ofDigits]

@[simp] theorem parameter?_small (parameters : List Value) (digits : List Char) :
    parameter? parameters (small digits) = parameter? parameters digits := by
  rw [parameter?, ofDigits_small, parameter?]

@[simp] theorem parametersIn_small (parameters : List Value) (text : List Char) :
    parametersIn parameters (small text) = parametersIn parameters text := by
  have found : placeholdersIn (small text) = (placeholdersIn text).map .lowered :=
    Pattern.valuesFrom_lowered Piece.readPlaceholder?_blind (start text)
  rw [parametersIn, found, List.mapM_map, parametersIn]
  simp only [Function.comp_def, Placeholder.lowered, parameter?_small]

namespace Predicate

variable (p : Predicate) (parameters : List Value)

@[simp] theorem columnName?_lowered : p.lowered.columnName? = p.columnName? := by
  simp only [columnName?, lowered, lower_small, Option.map_map, Function.comp_def]

@[simp] theorem parameterAt_lowered (position : Nat) :
    p.lowered.parameterAt parameters position = p.parameterAt parameters position := by
  simp only [parameterAt, lowered, Notes.lowered, List.getElem?_map]
  cases p.notes.placeholders[position]? with
  | none => rfl
  | some placeholder => simp only [Option.map_some, Placeholder.lowered, parameter?_small]

theorem content_lowered {kind : PredicateKind} (other : kind ≠ .stringLiteral) :
    p.lowered.content parameters kind = p.content parameters kind := by
  cases kind with
  | stringLiteral => contradiction
  | nullCheck => rfl
  | equality | arrayEquality | range => simp only [content, parameterAt_lowered]
  | membership | negatedMembership =>
      simp only [content, lowered, Notes.lowered, parametersIn_small]
  | comparison | patternMatch =>
      simp only [content, parameterAt_lowered]
      simp only [lowered, Notes.lowered, upper_small]
  | integerLiteral => simp only [content, lowered, Notes.lowered, ofDigits_small]

theorem condition?_lowered {kind : PredicateKind} (other : kind ≠ .stringLiteral) :
    p.lowered.condition? parameters kind = p.condition? parameters kind := by
  simp only [condition?, columnName?_lowered, content_lowered p parameters other]

end Predicate

section

variable {text : List Char} (unquoted : '\x27' ∉ text) (parameters : List Value)

include unquoted

/-- Without a quote there is no literal to be found. -/
theorem predicatesIn_eq_nil {f : Family} (kind : f.kind = .stringLiteral) : f.predicatesIn text = [] := by
  refine List.eq_nil_iff_forall_not_mem.mpr fun found member => ?_
  obtain ⟨read, rest, stands⟩ := stands_of_mem_predicatesIn member
  obtain ⟨literal, more, _, _, reads, -, -, written⟩ := equates stands (by rw [kind]; rfl) rfl
  obtain ⟨before, between, -, -, place⟩ := written
  cases reads with
  | quoted => exact unquoted (place.subset (by simp))

@[simp] theorem familyConditionsIn_small (f : Family) :
    f.conditionsIn (small text) parameters = f.conditionsIn text parameters := by
  by_cases kind : f.kind = .stringLiteral
  · have unquoted' : '\x27' ∉ small text := mt (mem_small rfl).mp unquoted
    rw [Family.conditionsIn, predicatesIn_eq_nil unquoted' kind, Family.conditionsIn,
      predicatesIn_eq_nil unquoted kind]
  · rw [conditionsIn_eq, start_small, Pattern.valuesFrom_lowered f.pattern_blind, List.mapM_map,
      conditionsIn_eq]
    simp only [Function.comp_def, Predicate.condition?_lowered _ parameters kind]

@[simp] theorem conditionsIn_small (families : List Family) :
    conditionsIn families (small text) parameters = conditionsIn families text parameters := by
  rw [conditionsIn, funext fun f => familyConditionsIn_small unquoted parameters f, conditionsIn]

end

/-- An ASCII text with neither literals nor comments in it, and with no number that is too long. -/
structure Bare (text : List Char) : Prop where
  ascii : ∀ c ∈ text, c.toNat < 128
  unquoted : '\x27' ∉ text
  undashed : ¬ ['-', '-'] <:+: text
  unslashed : ¬ ['/', '*'] <:+: text
  short : ∀ run, IsRun isDigit run → run <:+: text → run.length ≤ maxDigits

namespace Bare

variable {text : List Char}

theorem unmarked (h : Bare text) : mayHoldComment text = false := by
  rw [← Bool.not_eq_true, mayHoldComment_iff]
  exact not_or.mpr ⟨h.undashed, h.unslashed⟩

theorem plain (h : Bare text) : Plain text where
  short := h.short
  dotted c member := by
    have := h.ascii c member
    omega
  kelvin c member := by
    have := h.ascii c member
    omega

@[simp] theorem isRun_small {run : List Char} : IsRun isDigit (small run) ↔ IsRun isDigit run := by
  have nonempty : Text.small run ≠ [] ↔ run ≠ [] := not_congr List.map_eq_nil_iff
  have passes : (∀ c ∈ Text.small run, isDigit c) ↔ ∀ c ∈ run, isDigit c := by
    simp only [Text.small, List.forall_mem_map, caseBlind_isDigit _]
  exact ⟨fun h => ⟨nonempty.mp h.nonempty, passes.mp h.passes⟩,
    fun h => ⟨nonempty.mpr h.nonempty, passes.mpr h.passes⟩⟩

theorem small (h : Bare text) : Bare (small text) where
  ascii := List.forall_mem_map.mpr fun c member => (Text.blind c).narrow (h.ascii c member)
  unquoted := mt (mem_small rfl).mp h.unquoted
  undashed := mt (mark_infix_small rfl).mp h.undashed
  unslashed := mt (mark_infix_small rfl).mp h.unslashed
  short run digits inside := by
    obtain ⟨written, here, rfl⟩ := infix_small.mp inside
    rw [Text.small, List.length_map]
    exact h.short written (isRun_small.mp digits) here

theorem normalForm_small (h : Bare text) : normalForm (Text.small text) = Text.small (normalForm text) := by
  rw [normalForm, h.small.unmarked, if_neg Bool.false_ne_true, collapse_small, trim_small, normalForm,
    h.unmarked, if_neg Bool.false_ne_true]

@[simp] theorem tablesIn_small (h : Bare text) :
    tablesIn (normalForm (Text.small text)) = tablesIn (normalForm text) := by
  rw [h.normalForm_small, Sql.tablesIn_small]

@[simp] theorem conditionsIn_small (h : Bare text) (parameters : List Value) :
    conditionsIn Family.all (normalForm (Text.small text)) parameters =
      conditionsIn Family.all (normalForm text) parameters := by
  have unquoted : '\x27' ∉ normalForm text :=
    mt (mem_of_mem_normalForm rfl (by decide) (by decide)) h.unquoted
  rw [h.normalForm_small, Sql.conditionsIn_small unquoted]

theorem of_length (ascii : text.all (·.toNat < 128)) (unquoted : '\x27' ∉ text)
    (unmarked : mayHoldComment text = false) (length : text.length ≤ maxDigits) : Bare text where
  ascii c member := of_decide_eq_true (List.all_eq_true.mp ascii c member)
  unquoted := unquoted
  undashed here := Bool.false_ne_true (unmarked.symm.trans (mayHoldComment_iff.mpr (.inl here)))
  unslashed here := Bool.false_ne_true (unmarked.symm.trans (mayHoldComment_iff.mpr (.inr here)))
  short _ _ inside := inside.length_le.trans length

end Bare

/-- Two statements that differ in letter case only, and that have neither literals nor comments nor too long
numbers, have the same tables and the same conditions, and the conditions of both are found. -/
theorem letter_case_invisible {statement other : String} (bare : Bare statement.toList)
    (bare' : Bare other.toList) (same : lower statement.toList = lower other.toList) :
    tables statement = tables other ∧
      ∀ parameters, ∃ found, conditions statement parameters = .ok found ∧
        conditions other parameters = .ok found := by
  have small : small statement.toList = small other.toList := by
    rw [lower_ascii bare.ascii, lower_ascii bare'.ascii] at same
    exact same
  refine ⟨?_, fun parameters => ?_⟩
  · rw [tables, ← bare.tablesIn_small, small, bare'.tablesIn_small, tables]
  · obtain ⟨found, read, -⟩ := exists_conditionsIn bare.plain.normalForm parameters
    refine ⟨found, read, ?_⟩
    rw [conditions, ← bare'.conditionsIn_small, ← small, bare.conditionsIn_small]
    exact read

/-- A statement in mixed case, with names, keywords and an operator that is noted as it is written. -/
def mixedStatement : String := "SELECT * FROM Users U WHERE U.Name iLike $1 AND Age >= $2 ORDER BY Id"

/-- The same statement in another mixture. -/
def remixedStatement : String := "select * from USERS u where u.NAME Ilike $1 and AGE >= $2 order by ID"

theorem mixture_invisible :
    tables mixedStatement = tables remixedStatement ∧
      ∀ parameters, ∃ found, conditions mixedStatement parameters = .ok found ∧
        conditions remixedStatement parameters = .ok found :=
  letter_case_invisible (.of_length (by decide) (by decide) (by decide) (by decide))
    (.of_length (by decide) (by decide) (by decide) (by decide)) (by decide +kernel)

end QueryHarvest.Sql
