import QueryHarvest.Proofs.Capture.Positional
import QueryHarvest.Proofs.Distinct

/-! # Markers by name

In a statement whose markers are `:name` and `%(name)s`, each marker becomes a placeholder with the rank
of its name among the distinct names, and all else stays as it is. The placeholders then stand for the
fields of these names.
-/

namespace QueryHarvest.Capture

open Number Text Sql

/-- A character that has no part in a named marker, a literal or a placeholder. -/
def isUnmarked (c : Char) : Bool :=
  c != '\x27' && c != '%' && c != ':' && c != '$'

/-- A name of ASCII letters, digits and underscores that begins with no digit. -/
def isMarkerName : List Char → Bool
  | [] => false
  | c :: name => (c.isAlpha || c == '_') && name.all fun c => c.isAlphanum || c == '_'

namespace Part

/-- What a statement with named markers may consist of. -/
def isAllowed : Part NamedMarker → Bool
  | .plain c => isUnmarked c
  | .marker m => isMarkerName m.name
  | .literal content => content.all fun c => c != '\x27' && c != '$'

/-- May a part stand directly in front of another? What follows a marker must not go on with its number
or its name, and a colon opens no marker behind a word or another marker. -/
def goesBefore : Part NamedMarker → Part NamedMarker → Bool
  | .marker (.percent _), .plain c => !isDigit c
  | .marker (.colon _), .plain c => !isWord c
  | .plain c, .marker (.colon _) => !isWord c
  | .marker _, .marker (.colon _) => false
  | _, _ => true

def name? : Part NamedMarker → Option String
  | .marker m => some (String.ofList m.name)
  | _ => none

end Part

/-- A statement with named markers. -/
structure NamedStatement where
  parts : List (Part NamedMarker)
  allowed : ∀ part ∈ parts, part.isAllowed
  apart : parts.IsChain (Part.goesBefore · ·)

namespace NamedStatement

/-- The statement as it is written for a driver. -/
def text (s : NamedStatement) : List Char :=
  s.parts.flatMap (Part.text NamedMarker.spelling)

/-- The names of its markers one after the other. -/
def names (s : NamedStatement) : List String :=
  s.parts.filterMap Part.name?

/-- The distinct names in the order of first occurrence. -/
def distinctNames (s : NamedStatement) : List String :=
  s.names.eraseDups

/-- The number of a name: its rank among the distinct names, from one on. -/
def numberOf (s : NamedStatement) (name : String) : Nat :=
  s.distinctNames.idxOf name + 1

/-- The statement with a placeholder for every marker. -/
def numbered (s : NamedStatement) : List Char :=
  s.parts.flatMap (Part.text fun m => dollar (s.numberOf (String.ofList m.name)))

end NamedStatement

theorem isUnmarked_iff {c : Char} : isUnmarked c ↔ c ≠ '\x27' ∧ c ≠ '%' ∧ c ≠ ':' ∧ c ≠ '$' := by
  simp only [isUnmarked, Bool.and_eq_true, bne_iff_ne, and_assoc]

section

variable {rest name : List Char} {c : Char}

theorem isWord_of_isAlphanum (h : c.isAlphanum || c == '_') : isWord c := by
  have ascii : c.toNat < 128 := by
    rcases Bool.or_eq_true_iff.mp h with letter | underscore
    · exact ascii_of_isAlphanum letter
    · rw [eq_of_beq underscore]
      decide
  rwa [isWord, if_pos ascii]

theorem isWord_of_isMarkerName (h : isMarkerName name) : ∀ c ∈ name, isWord c := by
  cases name with
  | nil => contradiction
  | cons first name =>
      obtain ⟨start, parts⟩ := Bool.and_eq_true_iff.mp h
      have letter : first.isAlphanum || first == '_' := by
        rw [Char.isAlphanum, Bool.or_right_comm, start, Bool.true_or]
      exact List.forall_mem_cons.mpr ⟨isWord_of_isAlphanum letter, fun c member =>
        isWord_of_isAlphanum (List.all_eq_true.mp parts c member)⟩

theorem span1?_name (h : isMarkerName name) (stops : Stops isWord rest) (before : Option Char) :
    Cursor.span1? isWord ⟨before, name ++ rest⟩ = some (name, ⟨name.getLast?, rest⟩) :=
  Cursor.span1?_append (by rintro rfl; contradiction) (isWord_of_isMarkerName h) stops

theorem match?_unmarked (unmarked : isUnmarked c) (before : Option Char) :
    namedMarkerPattern.match? ⟨before, c :: rest⟩ = none := by
  obtain ⟨-, percent, colon, -⟩ := isUnmarked_iff.mp unmarked
  simp only [namedMarkerPattern]
  split <;> simp_all

theorem match?_percent (h : isMarkerName name) (before : Option Char) :
    namedMarkerPattern.match? ⟨before, (NamedMarker.percent name).spelling ++ rest⟩ =
      some (.percent name, ⟨some 's', rest⟩) := by
  have stops : Stops isWord (')' :: 's' :: rest) := stops_cons rfl
  have read := span1?_name h stops (some '(')
  have spelled : (NamedMarker.percent name).spelling ++ rest =
      '%' :: '(' :: (name ++ ')' :: 's' :: rest) := by
    simp [NamedMarker.spelling]
  simp only [spelled, namedMarkerPattern, closePercent?, read, Option.bind_some]

theorem match?_colon (h : isMarkerName name) (stops : Stops isWord rest) {before : Option Char}
    (opens : colonOpens before) :
    namedMarkerPattern.match? ⟨before, (NamedMarker.colon name).spelling ++ rest⟩ =
      some (.colon name, ⟨name.getLast?, rest⟩) := by
  have read := span1?_name h stops (some ':')
  have start : name.head?.any fun x => x.isAlpha || x == '_' := by
    cases name with
    | nil => contradiction
    | cons first name => exact (Bool.and_eq_true_iff.mp h).1
  simp only [NamedMarker.spelling, List.cons_append, namedMarkerPattern, opens, closeColon?, read,
    Option.bind_some, start, if_true]

end

/-- A character that stands in front of a named marker with a colon lets the colon open it. -/
theorem colonOpens_plain {c : Char} {name : List Char} (allowed : (Part.plain c).isAllowed)
    (goes : (Part.plain c).goesBefore (.marker (.colon name))) : colonOpens (some c) := by
  simp only [Part.isAllowed, Part.goesBefore] at allowed goes
  rw [colonOpens, Bool.and_eq_true, bne_iff_ne]
  exact ⟨(isUnmarked_iff.mp allowed).2.2.1, goes⟩

/-- Parts that stand behind a marker with a colon do not begin with a word character. -/
theorem stops_behind_colon {name : List Char} {parts : List (Part NamedMarker)}
    (apart : (.marker (.colon name) :: parts).IsChain (Part.goesBefore · ·)) :
    Stops isWord (parts.flatMap (Part.text NamedMarker.spelling)) := by
  cases parts with
  | nil => exact stops_nil isWord
  | cons part parts =>
      have goes := apart.rel
      cases part with
      | plain c => exact stops_cons (by simpa [Part.goesBefore] using goes)
      | marker m => cases m <;> exact stops_cons rfl
      | literal => exact stops_cons rfl

theorem Part.whole_of_isAllowed {part : Part NamedMarker} (h : part.isAllowed) :
    part.Whole NamedMarker.spelling := by
  cases part with
  | plain c => exact (isUnmarked_iff.mp h).1
  | marker m =>
      have noQuote : ∀ c ∈ m.name, c ≠ '\x27' := by
        rintro c member rfl
        exact absurd (isWord_of_isMarkerName h _ member) (by decide)
      cases m <;> simp_all [Part.Whole, NamedMarker.spelling, NamedMarker.name, or_imp]
  | literal content =>
      intro c member
      have fine := List.all_eq_true.mp h c member
      simp only [Bool.and_eq_true, bne_iff_ne] at fine
      exact fine.1

/-- The markers are found, wherever a colon at the front may open one. -/
theorem markedFrom_named {parts : List (Part NamedMarker)} (allowed : ∀ part ∈ parts, part.isAllowed)
    (apart : parts.IsChain (Part.goesBefore · ·)) (before : Option Char)
    (opens : ∀ name, parts.head? = some (.marker (.colon name)) → colonOpens before) :
    markedFrom namedMarkerPattern before (parts.flatMap (Part.text NamedMarker.spelling)) =
      parts.flatMap (Part.found id) := by
  induction parts generalizing before with
  | nil => exact markedFrom_nil
  | cons part parts ih =>
      obtain ⟨first, others⟩ := List.forall_mem_cons.mp allowed
      obtain ⟨next, later⟩ := List.isChain_cons.mp apart
      have whole := Part.whole_of_isAllowed first
      rw [List.flatMap_cons, List.flatMap_cons]
      cases part with
      | plain c =>
          have opened (name : List Char) (follows : parts.head? = some (.marker (.colon name))) :=
            colonOpens_plain first (next _ follows)
          have unopened : OpensNone c (parts.flatMap (Part.text NamedMarker.spelling)) :=
            fun quote => absurd quote whole
          rw [← ih others later (some c) opened, Part.text, List.singleton_append,
            markedFrom_skip unopened (match?_unmarked first before)]
          rfl
      | marker m =>
          -- no colon opens a marker directly behind another one
          have closed (name : List Char) : parts.head? ≠ some (.marker (.colon name)) :=
            fun follows => by cases m <;> exact Bool.false_ne_true (next _ follows)
          have rest (last : Option Char) :=
            ih others later last fun name follows => absurd follows (closed name)
          cases m with
          | percent name =>
              have named : isMarkerName name := first
              rw [← rest (some 's'), Part.text, markedFrom_match whole.2 (match?_percent named before)]
              rfl
          | colon name =>
              have named : isMarkerName name := first
              have stops := stops_openRun (stops_behind_colon apart)
              have read := match?_colon named stops (opens name rfl)
              rw [← rest name.getLast?, Part.text, markedFrom_match whole.2 read]
              rfl
      | literal content =>
          rw [← ih others later none fun _ _ => rfl, Part.text, markedFrom_enclosed whole]
          rfl

namespace NamedStatement

variable (s : NamedStatement)

theorem marked_text : marked namedMarkerPattern s.text = s.parts.flatMap (Part.found id) := by
  rw [marked_eq_markedFrom]
  exact markedFrom_named s.allowed s.apart none fun _ _ => rfl

end NamedStatement

theorem numberNames_inl (isKnown : String → Bool) (order : List String) (text : List Char)
    (rest : List (Char ⊕ NamedMarker)) :
    numberNames isKnown order (text.map .inl ++ rest) =
      (text ++ (numberNames isKnown order rest).1, (numberNames isKnown order rest).2) := by
  induction text with
  | nil => rfl
  | cons c text ih => rw [List.map_cons, List.cons_append, numberNames, ih, List.cons_append]

theorem found_eq_inl {part : Part NamedMarker} (unnamed : part.name? = none)
    (spell : NamedMarker → List Char) : part.found id = (part.text spell).map .inl := by
  cases part with
  | marker m => cases unnamed
  | plain | literal => rfl

/-- The number that stands for a marker where some names came before it. -/
theorem numberNames_parts {isKnown : String → Bool} {parts : List (Part NamedMarker)}
    (known : ∀ name ∈ parts.filterMap Part.name?, isKnown name) (seen : List String) :
    numberNames isKnown seen.eraseDups (parts.flatMap (Part.found id)) =
      (parts.flatMap (Part.text fun m => dollar
          ((seen ++ parts.filterMap Part.name?).eraseDups.idxOf (String.ofList m.name) + 1)),
        (seen ++ parts.filterMap Part.name?).eraseDups) := by
  induction parts generalizing seen with
  | nil => rw [List.filterMap_nil, List.append_nil]; rfl
  | cons part parts ih =>
      rw [List.flatMap_cons, List.flatMap_cons]
      cases named : part.name? with
      | none =>
          rw [List.filterMap_cons_none named] at known ⊢
          rw [found_eq_inl named, numberNames_inl, ih known]
      | some name =>
          rw [List.filterMap_cons_some named] at known ⊢
          obtain ⟨here, later⟩ := List.forall_mem_cons.mp known
          cases part with
          | plain | literal => cases named
          | marker m =>
              cases named
              have grown : (if seen.eraseDups.contains (String.ofList m.name) then seen.eraseDups
                  else seen.eraseDups ++ [String.ofList m.name]) =
                    (seen ++ [String.ofList m.name]).eraseDups := by
                rw [eraseDups_concat]
                simp
              have place := idxOf_eraseDups_append (x := String.ofList m.name)
                (List.mem_append_right seen (List.mem_singleton_self _)) (parts.filterMap Part.name?)
              rw [List.append_assoc, List.singleton_append] at place
              have rest := ih later (seen ++ [String.ofList m.name])
              rw [List.append_assoc, List.singleton_append] at rest
              rw [Part.found, List.singleton_append, numberNames, id, if_pos here, grown]
              dsimp only
              rw [rest, Part.text, place]

namespace NamedStatement

variable (s : NamedStatement) {fields : List (String × Value)}

theorem numberNames_text {isKnown : String → Bool} (known : ∀ name ∈ s.names, isKnown name) :
    numberNames isKnown [] (marked namedMarkerPattern s.text) = (s.numbered, s.distinctNames) := by
  rw [marked_text]
  exact numberNames_parts known []

/-- The fields of the distinct names, in their order. -/
def row (s : NamedStatement) (fields : List (String × Value)) : List Value :=
  s.distinctNames.filterMap fun name => fields.lookup name

theorem unnamed_of_no_names (none : s.names = []) : ∀ part ∈ s.parts, part.name? = Option.none :=
  List.filterMap_eq_nil_iff.mp none

theorem bindParameters_text (known : ∀ name ∈ s.names, (fields.lookup name).isSome) :
    bindParameters (String.ofList s.text) (.object fields) =
      .ok (String.ofList s.numbered, s.row fields) := by
  cases fields with
  | nil =>
      -- without a field there is no name, and the statement stays as it is
      have none : s.names = [] := List.eq_nil_iff_forall_not_mem.mpr fun name member => by
        simpa using known name member
      have same : s.numbered = s.text := List.flatMap_congr fun part member => by
        have unnamed := s.unnamed_of_no_names none part member
        cases part with
        | marker m => cases unnamed
        | plain | literal => rfl
      rw [same, row, distinctNames, none]
      rfl
  | cons field fields =>
      rw [bindParameters, if_neg (by simp [Value.isVoid]), String.toList_ofList]
      simp only [s.numberNames_text known, row]

end NamedStatement

section

variable {parts : List (Part NamedMarker)} (number : String → Nat)

/-- A number put in the place of a marker ends where the marker ended. -/
theorem stops_behind_marker {m : NamedMarker}
    (apart : (.marker m :: parts).IsChain (Part.goesBefore · ·)) :
    Stops isDigit (parts.flatMap (Part.text fun m => dollar (number (String.ofList m.name)))) := by
  cases parts with
  | nil => exact stops_nil isDigit
  | cons part parts =>
      have goes := apart.rel
      cases part with
      | plain c =>
          refine stops_cons ?_
          cases m with
          | percent => simpa [Part.goesBefore] using goes
          | colon =>
              have noWord : isWord c = false := by simpa [Part.goesBefore] using goes
              exact Bool.eq_false_iff.mpr fun digit => by simp [isWord_of_isDigit digit] at noWord
      | marker | literal => exact stops_cons rfl

/-- The placeholders are found with the digits of the numbers that were put in. -/
theorem digits_numbered (allowed : ∀ part ∈ parts, part.isAllowed)
    (apart : parts.IsChain (Part.goesBefore · ·)) (before : Option Char) :
    (placeholderPattern.valuesFrom ⟨before,
        parts.flatMap (Part.text fun m => dollar (number (String.ofList m.name)))⟩).map (·.digits) =
      (parts.filterMap Part.name?).map fun name => Nat.toDigits 10 (number name) := by
  induction parts generalizing before with
  | nil => rw [List.flatMap_nil, Pattern.valuesFrom_nil]; rfl
  | cons part parts ih =>
      obtain ⟨first, others⟩ := List.forall_mem_cons.mp allowed
      rw [List.flatMap_cons]
      cases part with
      | plain c =>
          have noDollar : ∀ x ∈ [c], x ≠ '$' := by simpa using (isUnmarked_iff.mp first).2.2.2
          rw [Part.text, valuesFrom_no_dollar noDollar]
          exact ih others apart.tail _
      | literal content =>
          have noDollar : ∀ x ∈ content, x ≠ '$' := fun x member => by
            simpa using (Bool.and_eq_true_iff.mp (List.all_eq_true.mp first x member)).2
          rw [Part.text, valuesFrom_no_dollar (no_dollar_enclosed noDollar)]
          exact ih others apart.tail _
      | marker m =>
          have read := readPlaceholder?_spelled (z := before) (number (String.ofList m.name))
            (stops_behind_marker number apart)
          rw [Part.text, dollar_eq, Pattern.valuesFrom_match read, List.map_cons]
          exact congrArg _ (ih others apart.tail _)

end

theorem map_some_filterMap {α β : Type} {f : α → Option β} {xs : List α}
    (h : ∀ x ∈ xs, (f x).isSome) : (xs.filterMap f).map some = xs.map f := by
  induction xs with
  | nil => rfl
  | cons x xs ih =>
      obtain ⟨here, later⟩ := List.forall_mem_cons.mp h
      obtain ⟨y, found⟩ := Option.isSome_iff_exists.mp here
      rw [List.filterMap_cons_some found, List.map_cons, List.map_cons, ih later, found]

namespace NamedStatement

variable (s : NamedStatement) {fields : List (String × Value)}

theorem row_eq (known : ∀ name ∈ s.names, (fields.lookup name).isSome) :
    (s.row fields).map some = s.distinctNames.map fun name => fields.lookup name :=
  map_some_filterMap fun name member => known name (List.mem_eraseDups.mp member)

/-- The number of a name leads to its field. -/
theorem getElem?_row (known : ∀ name ∈ s.names, (fields.lookup name).isSome) {name : String}
    (member : name ∈ s.names) : (s.row fields)[s.numberOf name - 1]? = fields.lookup name := by
  have distinct : s.distinctNames[s.distinctNames.idxOf name]? = some name :=
    List.getElem?_idxOf (List.mem_eraseDups.mpr member)
  have placed := congrArg (·[s.distinctNames.idxOf name]?) (s.row_eq known)
  simp only [List.getElem?_map, distinct, Option.map_some] at placed
  rw [numberOf, Nat.add_sub_cancel]
  obtain ⟨value, here, kept⟩ := Option.map_eq_some_iff.mp placed
  rw [here, kept]

theorem parametersIn_numbered (known : ∀ name ∈ s.names, (fields.lookup name).isSome)
    (few : s.distinctNames.length < 10 ^ maxDigits) :
    parametersIn (s.row fields) s.numbered =
      .ok (s.names.filterMap fun name => fields.lookup name) := by
  have digits : (placeholdersIn s.numbered).map (·.digits) =
      (s.names.map s.numberOf).map (Nat.toDigits 10) := by
    rw [List.map_map]
    exact digits_numbered s.numberOf s.allowed s.apart none
  have bounds : ∀ name ∈ s.names, 1 ≤ s.numberOf name ∧ s.numberOf name < 10 ^ maxDigits := by
    intro name member
    have inside : s.distinctNames.idxOf name < s.distinctNames.length :=
      List.idxOf_lt_length_iff.mpr (List.mem_eraseDups.mpr member)
    exact ⟨Nat.le_add_left .., Nat.lt_of_le_of_lt inside few⟩
  rw [parametersIn_of_digits _ digits (List.forall_mem_map.mpr bounds), List.filterMap_map]
  exact congrArg Except.ok (List.filterMap_congr fun name member => s.getElem?_row known member)

end NamedStatement

/-- In a statement with named markers, every marker becomes a placeholder whose number is the rank of
its name among the distinct names, and all else stays. The parameters are the fields of the distinct
names in their order. Equal names have equal numbers, different names different ones, and the numbers are those
from one to the number of distinct names. As long as the digits of an index can write them, the
placeholders stand for the fields of all names one after the other. -/
theorem named_markers_resolved (s : NamedStatement) {fields : List (String × Value)}
    (known : ∀ name ∈ s.names, (fields.lookup name).isSome) :
    ∃ row, bindParameters (String.ofList s.text) (.object fields) =
        .ok (String.ofList s.numbered, row) ∧
      row.map some = s.distinctNames.map (fun name => fields.lookup name) ∧
      (∀ name ∈ s.names, ∀ other ∈ s.names, s.numberOf name = s.numberOf other ↔ name = other) ∧
      (∀ n, (∃ name ∈ s.names, s.numberOf name = n) ↔ 1 ≤ n ∧ n ≤ s.distinctNames.length) ∧
      (s.distinctNames.length < 10 ^ maxDigits → ∃ values, parametersIn row s.numbered = .ok values ∧
        values.map some = s.names.map fun name => fields.lookup name) := by
  refine ⟨s.row fields, s.bindParameters_text known, s.row_eq known, ?_, ?_, ?_⟩
  · intro name member other _
    rw [NamedStatement.numberOf, NamedStatement.numberOf, Nat.add_right_cancel_iff]
    exact List.idxOf_inj (List.mem_eraseDups.mpr member)
  · intro n
    cases n with
    | zero => simp [NamedStatement.numberOf]
    | succ n =>
        simp only [NamedStatement.numberOf, NamedStatement.distinctNames, Nat.add_right_cancel_iff,
          exists_idxOf_eraseDups_iff]
        exact ⟨fun inside => ⟨Nat.le_add_left .., inside⟩, And.right⟩
  · intro few
    exact ⟨_, s.parametersIn_numbered known few, map_some_filterMap known⟩

/-- A statement that names a field twice, in both spellings, beside a literal that looks like markers. -/
def repeatedNames : NamedStatement where
  parts := [.plain 'a', .plain '=', .marker (.colon ['i', 'd']), .plain ' ',
    .literal ":x %(y)s".toList, .marker (.percent ['n', '_', '1']), .marker (.percent ['i', 'd']),
    .plain ')', .marker (.colon ['n', '_', '1'])]
  allowed := by decide
  apart := by decide

theorem repeatedNames_resolved :
    String.ofList repeatedNames.text = "a=:id ':x %(y)s'%(n_1)s%(id)s):n_1" ∧
      bindParameters "a=:id ':x %(y)s'%(n_1)s%(id)s):n_1" (.object [("n_1", .null), ("id", .int 7)]) =
        .ok ("a=$1 ':x %(y)s'$2$1)$2", [.int 7, .null]) ∧
      parametersIn [.int 7, .null] "a=$1 ':x %(y)s'$2$1)$2".toList =
        .ok [.int 7, .null, .int 7, .null] := by
  have written : String.ofList repeatedNames.text = "a=:id ':x %(y)s'%(n_1)s%(id)s):n_1" := by decide
  have known : ∀ name ∈ repeatedNames.names,
      (([("n_1", .null), ("id", .int 7)] : List (String × Value)).lookup name).isSome := by decide
  obtain ⟨row, bound, fields, -, -, resolved⟩ := named_markers_resolved repeatedNames known
  obtain ⟨values, read, resolves⟩ := resolved (by decide +kernel)
  obtain rfl : row = [.int 7, .null] := List.map_injective_iff.mpr (Option.some_injective _) fields
  obtain rfl : values = [.int 7, .null, .int 7, .null] :=
    List.map_injective_iff.mpr (Option.some_injective _) resolves
  exact ⟨written, written ▸ bound, read⟩

end QueryHarvest.Capture
