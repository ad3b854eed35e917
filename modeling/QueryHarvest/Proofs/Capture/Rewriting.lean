import QueryHarvest.Proofs.Capture.Positional
import QueryHarvest.Proofs.Text.Places

/-! # Rewriting markers by place

A statement is read from left to right: literals stand verbatim, and outside them the longest marks that
may stand are replaced by placeholders. What is rewritten so holds no further mark, and stays as it is.
-/

namespace QueryHarvest.Capture

open Number Text

/-- A marker by place as it is written: the next parameter, or a colon with a number. -/
inductive Mark where
  | place (m : PlaceMarker)
  | numbered (digits : List Char)

namespace Mark

def spelling : Mark → List Char
  | .place m => m.spelling
  | .numbered digits => ':' :: digits

def value : Mark → Marker
  | .place _ => .next
  | .numbered digits => .numbered digits

/-- May a mark stand between what comes before and behind it? A colon stands neither behind a colon nor
behind a word character, and its number goes on to the last digit. -/
def Stands (before : Option Char) (rest : List Char) : Mark → Prop
  | .place _ => True
  | .numbered digits => (∀ c ∈ before, c ≠ ':' ∧ isWord c = false) ∧
      digits ≠ [] ∧ (∀ c ∈ digits, isDigit c) ∧ Stops isDigit rest

end Mark

/-- The statement that parts make up. -/
def textOf (parts : List (Part Mark)) : List Char :=
  parts.flatMap (Part.text Mark.spelling)

/-- The parts are what a statement is read as, where something stands before it. Every quote opens a
literal, up to the next one, unless no other quote follows (so that a literal with a doubled quote is
read as two). Every mark that may stand outside literals is a marker. -/
inductive IsReading : Option Char → List (Part Mark) → Prop where
  | nil {before} : IsReading before []
  | literal {before content parts} (closed : ∀ c ∈ content, c ≠ '\x27')
      (later : IsReading (some '\x27') parts) : IsReading before (.literal content :: parts)
  | marker {before m parts} (stands : m.Stands before (textOf parts))
      (later : IsReading m.spelling.getLast? parts) : IsReading before (.marker m :: parts)
  | plain {before c parts} (unopened : OpensNone c (textOf parts))
      (unmarked : ∀ (m : Mark) rest, c :: textOf parts = m.spelling ++ rest → ¬ m.Stands before rest)
      (later : IsReading (some c) parts) : IsReading before (.plain c :: parts)

section

variable {before before' : Option Char} {rest text : List Char} {parts : List (Part Mark)}

@[simp] theorem textOf_cons (part : Part Mark) (parts : List (Part Mark)) :
    textOf (part :: parts) = part.text Mark.spelling ++ textOf parts :=
  List.flatMap_cons

theorem Mark.spelling_ne_nil (m : Mark) : m.spelling ≠ [] := by
  cases m with
  | place m => cases m <;> exact List.cons_ne_nil _ _
  | numbered digits => exact List.cons_ne_nil _ _

/-- Every statement is read in some way. -/
theorem exists_isReading (before : Option Char) (text : List Char) :
    ∃ parts, IsReading before parts ∧ textOf parts = text := by
  induction hn : text.length using Nat.strong_induction_on generalizing before text with
  | h n ih =>
    cases text with
    | nil => exact ⟨[], .nil, rfl⟩
    | cons c text =>
        rcases enclosed_or_opensNone c text with ⟨content, rest, whole, same⟩ | unopened
        · have shorter : rest.length < n := by
            rw [← hn, same, List.length_append, enclosed, List.cons_append, List.length_cons]
            omega
          obtain ⟨parts, later, rfl⟩ := ih _ shorter (some '\x27') rest rfl
          exact ⟨.literal content :: parts, .literal whole later, by rw [textOf_cons, same]; rfl⟩
        · by_cases marks : ∃ (m : Mark) (rest : List Char),
            c :: text = m.spelling ++ rest ∧ m.Stands before rest
          · obtain ⟨m, rest, same, stands⟩ := marks
            have shorter : rest.length < n := by
              have := List.length_pos_iff.mpr m.spelling_ne_nil
              rw [← hn, same, List.length_append]
              omega
            obtain ⟨parts, later, rfl⟩ := ih _ shorter m.spelling.getLast? rest rfl
            exact ⟨.marker m :: parts, .marker stands later, by rw [textOf_cons, same]; rfl⟩
          · obtain ⟨parts, later, rfl⟩ := ih text.length (by rw [← hn]; exact Nat.lt_succ_self _)
              (some c) text rfl
            exact ⟨.plain c :: parts, .plain unopened
              (fun m rest same stands => marks ⟨m, rest, same, stands⟩) later, rfl⟩

theorem colonOpens_iff : colonOpens before ↔ ∀ c ∈ before, c ≠ ':' ∧ isWord c = false := by
  cases before with
  | none => simp [colonOpens]
  | some c => simp [colonOpens]

theorem match?_mark {m : Mark} (stands : m.Stands before rest) :
    markerPattern.match? ⟨before, m.spelling ++ rest⟩ = some (m.value, ⟨m.spelling.getLast?, rest⟩) := by
  cases m with
  | place m => cases m <;> rfl
  | numbered digits =>
      obtain ⟨opens, filled, passes, stops⟩ := stands
      have read := @Cursor.span1?_append _ (some ':') _ _ filled passes stops
      simp only [Mark.spelling, List.cons_append, markerPattern, colonOpens_iff.mpr opens, if_true, read,
        Option.map_some, Mark.value, List.getLast?_cons]
      rw [List.getLast?_eq_some_getLast filled]
      rfl

theorem mark_of_match? {value : Marker} {after : Cursor}
    (found : markerPattern.match? ⟨before, text⟩ = some (value, after)) :
    ∃ (m : Mark) (rest : List Char), text = m.spelling ++ rest ∧ m.Stands before rest := by
  simp only [markerPattern] at found
  split at found
  · exact ⟨.place .percent, _, rfl, trivial⟩
  · exact ⟨.place .question, _, rfl, trivial⟩
  · next rest _ =>
    split at found
    · next opens =>
        obtain ⟨⟨digits, after⟩, read, -⟩ := Option.map_eq_some_iff.mp found
        obtain ⟨cut, filled, passes, stops⟩ := Cursor.of_span1? read
        exact ⟨.numbered digits, after.rest, congrArg (List.cons ':') cut, colonOpens_iff.mp opens,
          filled, passes, stops⟩
    · contradiction
  · contradiction

/-- A mark that may stand in front of a literal may stand there without the literal too. -/
theorem Mark.Stands.append_iff {m : Mark} {later : List Char} (quoted : ∀ c ∈ later.head?, c = '\x27') :
    m.Stands before (rest ++ later) ↔ m.Stands before rest := by
  have stops : Stops isDigit (rest ++ later) ↔ Stops isDigit rest := by
    cases rest with
    | nil =>
        refine iff_of_true (fun c first => ?_) (stops_nil isDigit)
        rw [quoted c first]
        decide
    | cons c rest => exact Iff.rfl
  cases m with
  | place => exact Iff.rfl
  | numbered digits => exact and_congr_right' (and_congr_right' (and_congr_right' stops))

theorem stands_openRun {m : Mark} : m.Stands before (openRun rest) ↔ m.Stands before rest := by
  obtain ⟨later, same, quoted⟩ := exists_openRun_append rest
  conv_rhs => rw [same]
  exact (Mark.Stands.append_iff quoted).symm

theorem Mark.no_quote {m : Mark} (stands : m.Stands before rest) : ∀ c ∈ m.spelling, c ≠ '\x27' := by
  cases m with
  | place m => exact m.whole.2
  | numbered digits =>
      refine List.forall_mem_cons.mpr ⟨by decide, fun c member same => ?_⟩
      exact absurd (stands.2.2.1 c member) (by rw [same]; decide)

/-- Where no mark stands, none is found in front of the next literal either. -/
theorem match?_unmarked_openRun {c : Char}
    (unmarked : ∀ (m : Mark) rest, c :: text = m.spelling ++ rest → ¬ m.Stands before rest) :
    markerPattern.match? ⟨before, c :: openRun text⟩ = none := by
  cases found : markerPattern.match? ⟨before, c :: openRun text⟩ with
  | none => rfl
  | some read =>
      obtain ⟨m, rest, same, stands⟩ := mark_of_match? found
      obtain ⟨later, whole, quoted⟩ := exists_openRun_append text
      refine absurd ((Mark.Stands.append_iff quoted).mpr stands) (unmarked m (rest ++ later) ?_)
      rw [← List.append_assoc, ← same, List.cons_append, ← whole]

theorem markedFrom_isReading (reading : IsReading before parts) :
    markedFrom markerPattern before (textOf parts) = parts.flatMap (Part.found Mark.value) := by
  induction reading with
  | nil => exact markedFrom_nil
  | literal closed later ih =>
      rw [textOf_cons, Part.text, markedFrom_enclosed closed, List.flatMap_cons, ← ih]
      exact congrArg _ (markedFrom_before fun _ => rfl)
  | marker stands later ih =>
      have found := match?_mark (stands_openRun.mpr stands)
      rw [textOf_cons, Part.text, markedFrom_match (Mark.no_quote stands) found, ih]
      rfl
  | plain unopened unmarked later ih =>
      rw [textOf_cons, Part.text, List.singleton_append,
        markedFrom_skip unopened (match?_unmarked_openRun unmarked), ih]
      rfl

/-- The parts with a placeholder for every marker, as plain characters: with the next number, of those
behind `count`, or with the number that the marker has. -/
def replaced (count : Nat) : List (Part Mark) → List (Part Mark)
  | [] => []
  | .plain c :: parts => .plain c :: replaced count parts
  | .literal content :: parts => .literal content :: replaced count parts
  | .marker (.place _) :: parts => (dollar (count + 1)).map .plain ++ replaced (count + 1) parts
  | .marker (.numbered digits) :: parts => ('$' :: digits).map .plain ++ replaced count parts

@[simp] theorem textOf_plain (run : List Char) (parts : List (Part Mark)) :
    textOf (run.map .plain ++ parts) = run ++ textOf parts := by
  rw [textOf, List.flatMap_append, List.flatMap_map]
  exact congrArg (· ++ textOf parts) (List.flatMap_singleton' run)

theorem numberMarkers_found (count : Nat) (parts : List (Part Mark)) :
    numberMarkers count (parts.flatMap (Part.found Mark.value)) = textOf (replaced count parts) := by
  induction parts generalizing count with
  | nil => rfl
  | cons part parts ih =>
      rw [List.flatMap_cons]
      cases part with
      | plain c => rw [replaced, textOf_cons, ← ih]; rfl
      | literal content =>
          rw [replaced, textOf_cons, ← ih, Part.found, MarkedStatement.numberMarkers_inl]
          rfl
      | marker m => cases m <;> rw [replaced, textOf_plain, ← ih] <;> rfl

theorem unmarked_iff {c : Char} :
    (∀ (m : Mark) rest, c :: text = m.spelling ++ rest → ¬ m.Stands before rest) ↔
      c ≠ '?' ∧ (c = '%' → text.head? ≠ some 's') ∧
        (c = ':' → colonOpens before → Stops isDigit text) := by
  constructor
  · intro unmarked
    refine ⟨?_, ?_, ?_⟩
    · rintro rfl
      exact unmarked (.place .question) text rfl trivial
    · rintro rfl first
      obtain ⟨rest, rfl⟩ := List.head?_eq_some_iff.mp first
      exact unmarked (.place .percent) rest rfl trivial
    · rintro rfl opens d first
      by_contra digit
      obtain ⟨rest, rfl⟩ := List.head?_eq_some_iff.mp first
      have filled : (d :: rest).takeWhile isDigit ≠ [] := by simp [digit]
      refine unmarked (.numbered ((d :: rest).takeWhile isDigit)) ((d :: rest).dropWhile isDigit) ?_
        ⟨colonOpens_iff.mp opens, filled, fun _ => List.mem_takeWhile_imp, Cursor.dropWhile_stops _ _⟩
      exact congrArg (List.cons ':') List.takeWhile_append_dropWhile.symm
  · rintro ⟨question, percent, colon⟩ m rest same stands
    cases m with
    | place m =>
        cases m with
        | question => exact question (List.cons.inj same).1
        | percent =>
            obtain ⟨rfl, rfl⟩ := List.cons.inj same
            exact percent rfl rfl
    | numbered digits =>
        obtain ⟨opens, filled, passes, -⟩ := stands
        obtain ⟨rfl, rfl⟩ := List.cons.inj same
        obtain ⟨d, digits, rfl⟩ := List.exists_cons_of_ne_nil filled
        have digit := passes d (List.mem_cons_self ..)
        rw [colon rfl (colonOpens_iff.mpr opens) d rfl] at digit
        contradiction

theorem dollar_digits (n : Nat) :
    ∃ digits, dollar n = '$' :: digits ∧ digits ≠ [] ∧ ∀ c ∈ digits, isDigit c :=
  ⟨Nat.toDigits 10 n, dollar_eq n, Nat.toDigits_ne_nil, fun _ member =>
    isDigit_ascii (isDigit_char_of_mem_toDigits member)⟩

/-- A marker becomes a dollar sign with digits, in front of what the later parts become. -/
theorem replaced_marker {m : Mark} (stands : m.Stands before rest) (count : Nat)
    (parts : List (Part Mark)) :
    ∃ digits later, digits ≠ [] ∧ (∀ c ∈ digits, isDigit c) ∧
      replaced count (.marker m :: parts) = ('$' :: digits).map .plain ++ replaced later parts := by
  cases m with
  | place m =>
      obtain ⟨digits, same, filled, passes⟩ := dollar_digits (count + 1)
      exact ⟨digits, count + 1, filled, passes, by rw [replaced, same]⟩
  | numbered digits => exact ⟨digits, count, stands.2.1, stands.2.2.1, rfl⟩

/-- The parts begin as before, or with a placeholder. -/
theorem head?_replaced (reading : IsReading before parts) (count : Nat) :
    ∀ c ∈ (textOf (replaced count parts)).head?, c = '$' ∨ c ∈ (textOf parts).head? := by
  intro c first
  cases reading with
  | nil => exact .inr first
  | literal => exact .inr first
  | plain => exact .inr first
  | marker stands =>
      obtain ⟨digits, later, -, -, same⟩ := replaced_marker stands count _
      rw [same, textOf_plain] at first
      exact .inl (Option.some.inj first).symm

theorem no_quote_replaced (reading : IsReading before parts) (unquoted : ∀ c ∈ textOf parts, c ≠ '\x27')
    (count : Nat) : ∀ c ∈ textOf (replaced count parts), c ≠ '\x27' := by
  induction reading generalizing count with
  | nil => exact unquoted
  | literal => exact absurd rfl (unquoted '\x27' (List.mem_cons_self ..))
  | plain _ _ _ ih =>
      obtain ⟨here, later⟩ := List.forall_mem_cons.mp unquoted
      exact List.forall_mem_cons.mpr ⟨here, ih later count⟩
  | marker stands _ ih =>
      obtain ⟨digits, next, -, passes, same⟩ := replaced_marker stands count _
      rw [textOf_cons, List.forall_mem_append] at unquoted
      rw [same, textOf_plain, List.forall_mem_append, List.forall_mem_cons]
      refine ⟨⟨by decide, fun c member quote => ?_⟩, ih unquoted.2 next⟩
      exact absurd (passes c member) (by rw [quote]; decide)

/-- A row of plain characters without quotes and without the fronts of marks. -/
theorem IsReading.plain_append {run : List Char}
    (fine : ∀ c ∈ run, c ≠ '\x27' ∧ c ≠ '?' ∧ c ≠ '%' ∧ c ≠ ':')
    (later : IsReading (run.getLast?.or before) parts) : IsReading before (run.map .plain ++ parts) := by
  induction run generalizing before with
  | nil => exact later
  | cons c run ih =>
      obtain ⟨⟨quote, question, percent, colon⟩, others⟩ := List.forall_mem_cons.mp fine
      refine .plain (fun same => absurd same quote) (unmarked_iff.mpr
        ⟨question, fun same => absurd same percent, fun same => absurd same colon⟩) (ih others ?_)
      rw [List.getLast?_cons] at later
      cases last : run.getLast? <;> simpa [last] using later

theorem isReading_replaced (reading : IsReading before parts)
    (opens : colonOpens before' → colonOpens before) (count : Nat) :
    IsReading before' (replaced count parts) := by
  induction reading generalizing before' count with
  | nil => exact .nil
  | literal closed _ ih => exact .literal closed (ih id count)
  | plain unopened unmarked later ih =>
      obtain ⟨question, percent, colon⟩ := unmarked_iff.mp unmarked
      have head := head?_replaced later count
      refine .plain (fun quote => no_quote_replaced later (unopened quote) count) (unmarked_iff.mpr
        ⟨question, fun same first => ?_, fun same open_ d first => ?_⟩) (ih id count)
      · exact percent same ((head 's' first).resolve_left (by decide))
      · rcases head d first with rfl | first
        · rfl
        · exact colon same (opens open_) d first
  | marker stands later ih =>
      obtain ⟨digits, next, filled, passes, same⟩ := replaced_marker stands count _
      rw [same]
      refine .plain_append ?_ (ih ?_ next)
      · refine List.forall_mem_cons.mpr ⟨by decide, fun c member => ?_⟩
        refine ⟨?_, ?_, ?_, ?_⟩ <;> rintro rfl <;> exact absurd (passes _ member) (by decide)
      · -- behind a placeholder no colon opens a mark
        rw [List.getLast?_cons, List.getLast?_eq_some_getLast filled]
        simp [colonOpens, isWord_of_isDigit (passes _ (List.getLast_mem filled))]

theorem replaced_eq_self (unmarked : ∀ m, .marker m ∉ parts) (count : Nat) :
    replaced count parts = parts := by
  induction parts with
  | nil => rfl
  | cons part parts ih =>
      have later := ih fun m member => unmarked m (List.mem_cons_of_mem _ member)
      cases part with
      | plain | literal => rw [replaced, later]
      | marker m => exact absurd (List.mem_cons_self ..) (unmarked m)

theorem no_marker_replaced (count : Nat) (parts : List (Part Mark)) :
    ∀ m, .marker m ∉ replaced count parts := by
  induction parts generalizing count with
  | nil => exact fun _ => List.not_mem_nil
  | cons part parts ih =>
      intro m member
      cases part with
      | plain | literal => exact ih count m (by simpa [replaced] using member)
      | marker mark =>
          cases mark <;> exact ih _ m (by simpa [replaced] using member)

/-- Where a marker is replaced, the statement changes. -/
theorem no_marker_of_textOf_replaced (count : Nat) (reading : IsReading before parts)
    (same : textOf (replaced count parts) = textOf parts) : ∀ m, .marker m ∉ parts := by
  induction reading generalizing count with
  | nil => exact fun _ => List.not_mem_nil
  | literal _ _ ih =>
      have later := List.append_cancel_left same
      simpa using ih count later
  | plain _ _ _ ih =>
      have later := (List.cons.inj same).2
      simpa using ih count later
  | @marker _ m parts stands =>
      obtain ⟨digits, next, -, -, spelled⟩ := replaced_marker stands count parts
      rw [spelled, textOf_plain, textOf_cons] at same
      cases m with
      | place m => cases m <;> cases (List.cons.inj same).1
      | numbered => cases (List.cons.inj same).1

end

section

variable {parameters : Value} {row : List Value} {parts : List (Part Mark)}

theorem bindParameters_textOf (sequence : IsSequence parameters row) (reading : IsReading none parts) :
    bindParameters (String.ofList (textOf parts)) parameters =
      .ok (String.ofList (textOf (replaced 0 parts)), row) := by
  rw [sequence.bindParameters_eq, String.toList_ofList, marked_eq_markedFrom,
    markedFrom_isReading reading, numberMarkers_found]

/-- Every statement has a reading, and in every reading its markers become placeholders, with all else
verbatim; a statement that was rewritten stays as it is. -/
theorem markers_rewritten_once (statement : String) (sequence : IsSequence parameters row) :
    (∃ parts, IsReading none parts ∧ textOf parts = statement.toList) ∧
      ∀ parts, IsReading none parts → textOf parts = statement.toList →
        bindParameters statement parameters = .ok (String.ofList (textOf (replaced 0 parts)), row) ∧
          bindParameters (String.ofList (textOf (replaced 0 parts))) (.list row) =
            .ok (String.ofList (textOf (replaced 0 parts)), row) := by
  refine ⟨exists_isReading none statement.toList, fun parts reading same => ⟨?_, ?_⟩⟩
  · rw [← bindParameters_textOf sequence reading, same, String.ofList_toList]
  · have again : IsSequence (.list row) row := ⟨rfl, nofun, sequence.filled⟩
    rw [bindParameters_textOf again (isReading_replaced reading id 0),
      replaced_eq_self (no_marker_replaced 0 parts)]

/-- A statement with a cast, a doubled quote, markers side by side and a quote that is never closed. -/
def castAndQuotes : List (Part Mark) :=
  [.marker (.place .question), .plain ':', .plain ':', .plain 'x', .literal ['?'], .literal [':', '1'],
    .marker (.place .question), .marker (.numbered ['2']), .plain '\x27', .marker (.place .percent)]

theorem castAndQuotes_rewritten :
    bindParameters "?::x'?'':1'?:2'%s" (.tuple [.int 7, .null]) =
        .ok ("$1::x'?'':1'$2$2'$3", [.int 7, .null]) ∧
      bindParameters "$1::x'?'':1'$2$2'$3" (.list [.int 7, .null]) =
        .ok ("$1::x'?'':1'$2$2'$3", [.int 7, .null]) := by
  have sequence : IsSequence (.tuple [.int 7, .null]) [.int 7, .null] := ⟨rfl, by simp, List.cons_ne_nil _ _⟩
  have numbered : (Mark.numbered ['2']).Stands (some '?') ['\x27', '%', 's'] :=
    ⟨colonOpens_iff.mp rfl, List.cons_ne_nil _ _, List.forall_mem_singleton.mpr rfl, stops_cons rfl⟩
  have reading : IsReading none castAndQuotes := by
    have opensNone {c : Char} {text : List Char} (other : c ≠ '\x27') : OpensNone c text :=
      fun quote => absurd quote other
    refine .marker trivial (.plain (opensNone (by decide)) ?_ (.plain (opensNone (by decide)) ?_
      (.plain (opensNone (by decide)) ?_ (.literal (by simp) (.literal (by simp)
        (.marker trivial (.marker numbered (.plain ?_ ?_ (.marker trivial .nil)))))))))
    · exact unmarked_iff.mpr ⟨by decide, by simp, fun _ _ => stops_cons rfl⟩
    · exact unmarked_iff.mpr ⟨by decide, by simp, fun _ _ => stops_cons rfl⟩
    · exact unmarked_iff.mpr ⟨by decide, by simp, by simp⟩
    · exact fun _ => by simp [textOf, Part.text, Mark.spelling, PlaceMarker.spelling]
    · exact unmarked_iff.mpr ⟨by decide, by simp, by simp⟩
  exact (markers_rewritten_once "?::x'?'':1'?:2'%s" sequence).2 castAndQuotes reading rfl

theorem bindParameters_nil (given : itemsOf parameters = .ok [])
    (unnamed : ∀ fields, parameters ≠ .object fields) (statement : String) :
    bindParameters statement parameters = .ok (statement, []) := by
  rw [bindParameters, isVoid_eq_isEmpty given unnamed]
  · rfl
  · exact unnamed

/-- What is returned for parameters in a row is the statement itself just where there are no parameters
or no markers. -/
theorem unmarked_statement_kept (statement : String) (given : itemsOf parameters = .ok row)
    (unnamed : ∀ fields, parameters ≠ .object fields) :
    ∃ text, bindParameters statement parameters = .ok (text, row) ∧
      (text = statement ↔ row = [] ∨
        ∀ parts, IsReading none parts → textOf parts = statement.toList → ∀ m, .marker m ∉ parts) := by
  by_cases filled : row = []
  · subst filled
    exact ⟨statement, bindParameters_nil given unnamed statement, by simp⟩
  · have bound {parts : List (Part Mark)} (reading : IsReading none parts)
        (same : textOf parts = statement.toList) :
        bindParameters statement parameters = .ok (String.ofList (textOf (replaced 0 parts)), row) := by
      rw [← bindParameters_textOf ⟨given, unnamed, filled⟩ reading, same, String.ofList_toList]
    obtain ⟨parts, reading, same⟩ := exists_isReading none statement.toList
    refine ⟨_, bound reading same, fun kept => .inr fun others again spelled => ?_, fun unmarked => ?_⟩
    · have equal : String.ofList (textOf (replaced 0 others)) = statement := by
        rw [← kept]
        exact congrArg Prod.fst (Except.ok.inj ((bound again spelled).symm.trans (bound reading same)))
      refine no_marker_of_textOf_replaced 0 again ?_
      rw [spelled, ← equal, String.toList_ofList]
    · have none := (unmarked.resolve_left filled) parts reading same
      rw [replaced_eq_self none, same, String.ofList_toList]

/-- A statement with a numbered placeholder and an operator that is spelled like a marker. -/
def keyOperator : List (Part Mark) :=
  "SELECT * FROM t WHERE data ".toList.map .plain ++ (.marker (.place .question) ::
    (" ".toList.map .plain ++ (.literal ['k'] :: (" AND id = $1".toList.map .plain ++ []))))

theorem isReading_keyOperator : IsReading none keyOperator :=
  .plain_append (by simp) (.marker trivial (.plain_append (by simp)
    (.literal (by simp) (.plain_append (by simp) .nil))))

theorem keyOperator_changes :
    ∃ text, bindParameters "SELECT * FROM t WHERE data ? 'k' AND id = $1" (.list [.int 3]) =
        .ok (text, [.int 3]) ∧ text ≠ "SELECT * FROM t WHERE data ? 'k' AND id = $1" := by
  have given : itemsOf (.list [.int 3]) = .ok [.int 3] := rfl
  have spelled : textOf keyOperator = "SELECT * FROM t WHERE data ? 'k' AND id = $1".toList := by
    decide +kernel
  obtain ⟨text, bound, kept⟩ :=
    unmarked_statement_kept "SELECT * FROM t WHERE data ? 'k' AND id = $1" given nofun
  refine ⟨text, bound, fun same => ?_⟩
  have unmarked := (kept.mp same).resolve_left (List.cons_ne_nil _ _) keyOperator isReading_keyOperator
    spelled
  exact unmarked (.place .question) (List.mem_append_right _ (List.mem_cons_self ..))

theorem keyOperator_replaced :
    bindParameters "SELECT * FROM t WHERE data ? 'k' AND id = $1" (.list [.int 3]) =
      .ok ("SELECT * FROM t WHERE data $1 'k' AND id = $1", [.int 3]) := by
  have sequence : IsSequence (.list [.int 3]) [.int 3] := ⟨rfl, nofun, nofun⟩
  have bound := bindParameters_textOf sequence isReading_keyOperator
  have before : String.ofList (textOf keyOperator) = "SELECT * FROM t WHERE data ? 'k' AND id = $1" := by
    decide +kernel
  have after : String.ofList (textOf (replaced 0 keyOperator)) =
      "SELECT * FROM t WHERE data $1 'k' AND id = $1" := by
    decide +kernel
  rwa [before, after] at bound

end

end QueryHarvest.Capture
