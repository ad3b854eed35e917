import QueryHarvest.Proofs.Capture.Stretches
import QueryHarvest.Proofs.Sql.Placeholders

/-! # Markers by place

In a statement whose markers are `?` and `%s`, each marker becomes a placeholder with its place as the
number, and all else stays as it is. The placeholders then stand for the parameters in their order.
-/

namespace QueryHarvest.Capture

open Number Text Sql

/-- A character that has no part in a marker, a literal or a placeholder. -/
def isPlain (c : Char) : Bool :=
  c != '\x27' && c != '?' && c != '%' && c != ':' && c != '$'

/-- What may stand between two markers: a plain character, or a literal that holds neither a quote nor a
dollar sign. -/
inductive Piece where
  | plain (c : Char) (h : isPlain c)
  | literal (content : List Char) (h : ∀ c ∈ content, c ≠ '\x27' ∧ c ≠ '$')

/-- The pieces between two markers. -/
abbrev Segment := List Piece

def Piece.text : Piece → List Char
  | .plain c _ => [c]
  | .literal content _ => enclosed content

def Segment.text (segment : Segment) : List Char :=
  segment.flatMap Piece.text

/-- The spellings of a marker that stands for the next parameter. -/
inductive PlaceMarker where
  | question
  | percent

def PlaceMarker.spelling : PlaceMarker → List Char
  | .question => ['?']
  | .percent => ['%', 's']

/-- A statement with markers, each with the segment behind it. -/
structure MarkedStatement where
  front : Segment
  marks : List (PlaceMarker × Segment)

namespace MarkedStatement

/-- The statement as it is written for a driver. -/
def text (s : MarkedStatement) : List Char :=
  s.front.text ++ s.marks.flatMap fun m => m.1.spelling ++ Segment.text m.2

/-- The statement with a placeholder for every marker, numbered from one on. -/
def numbered (s : MarkedStatement) : List Char :=
  s.front.text ++ (s.marks.zipIdx 1).flatMap fun (m, i) => dollar i ++ Segment.text m.2

end MarkedStatement

def Piece.part : Piece → Part PlaceMarker
  | .plain c _ => .plain c
  | .literal content _ => .literal content

/-- The parts of a statement one after the other. -/
def MarkedStatement.parts (s : MarkedStatement) : List (Part PlaceMarker) :=
  s.front.map Piece.part ++ s.marks.flatMap fun m => .marker m.1 :: m.2.map Piece.part

theorem isPlain_iff {c : Char} :
    isPlain c ↔ c ≠ '\x27' ∧ c ≠ '?' ∧ c ≠ '%' ∧ c ≠ ':' ∧ c ≠ '$' := by
  simp only [isPlain, Bool.and_eq_true, bne_iff_ne, and_assoc]

theorem Piece.whole (piece : Piece) : piece.part.Whole PlaceMarker.spelling := by
  cases piece with
  | plain c h => exact (isPlain_iff.mp h).1
  | literal content h => exact fun c member => (h c member).1

theorem PlaceMarker.whole (m : PlaceMarker) : (Part.marker m).Whole PlaceMarker.spelling := by
  cases m <;> simp [Part.Whole, spelling]

section

variable {rest : List Char} {c : Char}

theorem match?_marker (m : PlaceMarker) (before : Option Char) :
    ∃ last, markerPattern.match? ⟨before, m.spelling ++ rest⟩ = some (.next, ⟨last, rest⟩) := by
  cases m <;> exact ⟨_, rfl⟩

theorem match?_plain (plain : isPlain c) (before : Option Char) :
    markerPattern.match? ⟨before, c :: rest⟩ = none := by
  obtain ⟨-, question, percent, colon, -⟩ := isPlain_iff.mp plain
  simp only [markerPattern]
  split <;> simp_all

end

/-- A part that is no literal is a plain character or a marker. -/
def IsOpen : Part PlaceMarker → Prop
  | .plain c => isPlain c
  | .marker _ => True
  | .literal _ => False

theorem markedFrom_open {parts : List (Part PlaceMarker)}
    (whole : ∀ part ∈ parts, part.Whole PlaceMarker.spelling)
    (open_ : ∀ part ∈ parts, part.isOutside → IsOpen part) (before : Option Char) :
    markedFrom markerPattern before (parts.flatMap (Part.text PlaceMarker.spelling)) =
      parts.flatMap (Part.found fun _ => .next) := by
  induction parts generalizing before with
  | nil => exact markedFrom_nil
  | cons part parts ih =>
      obtain ⟨here, later⟩ := List.forall_mem_cons.mp whole
      obtain ⟨first, others⟩ := List.forall_mem_cons.mp open_
      rw [List.flatMap_cons, List.flatMap_cons]
      cases part with
      | plain c =>
          have unopened : OpensNone c (parts.flatMap (Part.text PlaceMarker.spelling)) :=
            fun quote => absurd quote here
          rw [← ih later others (some c), Part.text, List.singleton_append,
            markedFrom_skip unopened (match?_plain (first rfl) before)]
          rfl
      | marker m =>
          obtain ⟨last, found⟩ := match?_marker m before
          rw [← ih later others last, Part.text, markedFrom_match here.2 found]
          rfl
      | literal content =>
          rw [← ih later others none, Part.text, markedFrom_enclosed here]
          rfl

namespace MarkedStatement

variable (s : MarkedStatement)

@[simp] theorem text_parts : s.parts.flatMap (Part.text PlaceMarker.spelling) = s.text := by
  have segment (pieces : Segment) :
      (pieces.map Piece.part).flatMap (Part.text PlaceMarker.spelling) = pieces.text := by
    rw [List.flatMap_map]
    refine List.flatMap_congr fun piece _ => ?_
    cases piece <;> rfl
  rw [parts, List.flatMap_append, segment, List.flatMap_assoc, text]
  refine congrArg _ (List.flatMap_congr fun m _ => ?_)
  rw [List.flatMap_cons, segment]
  rfl

theorem marked_text : marked markerPattern s.text = s.parts.flatMap (Part.found fun _ => .next) := by
  have known : ∀ part ∈ s.parts, part.Whole PlaceMarker.spelling ∧ (part.isOutside → IsOpen part) := by
    have piece (piece : Piece) : piece.part.Whole PlaceMarker.spelling ∧
        (piece.part.isOutside → IsOpen piece.part) := by
      refine ⟨piece.whole, ?_⟩
      cases piece with
      | plain c h => exact fun _ => h
      | literal => exact nofun
    intro part member
    rcases List.mem_append.mp member with member | member
    · obtain ⟨front, -, rfl⟩ := List.mem_map.mp member
      exact piece front
    · obtain ⟨m, -, member⟩ := List.mem_flatMap.mp member
      rcases List.mem_cons.mp member with rfl | member
      · exact ⟨m.1.whole, fun _ => trivial⟩
      · obtain ⟨later, -, rfl⟩ := List.mem_map.mp member
        exact piece later
  rw [← text_parts, marked_eq_markedFrom]
  exact markedFrom_open (fun part member => (known part member).1)
    (fun part member => (known part member).2) none

@[simp] theorem numberMarkers_inl (count : Nat) (text : List Char) (rest : List (Char ⊕ Marker)) :
    numberMarkers count (text.map .inl ++ rest) = text ++ numberMarkers count rest := by
  induction text with
  | nil => rfl
  | cons c text ih => rw [List.map_cons, List.cons_append, numberMarkers, ih, List.cons_append]

theorem found_segment (pieces : Segment) :
    (pieces.map Piece.part).flatMap (Part.found fun _ => Marker.next) = pieces.text.map .inl := by
  rw [List.flatMap_map, Segment.text, List.map_flatMap]
  refine List.flatMap_congr fun piece _ => ?_
  cases piece <;> rfl

theorem numberMarkers_marks (count : Nat) (marks : List (PlaceMarker × Segment)) :
    numberMarkers count ((marks.flatMap fun m => Part.marker m.1 :: m.2.map Piece.part).flatMap
        (Part.found fun _ => .next)) =
      (marks.zipIdx (count + 1)).flatMap fun (m, i) => dollar i ++ Segment.text m.2 := by
  induction marks generalizing count with
  | nil => rfl
  | cons m marks ih =>
      rw [List.flatMap_cons, List.flatMap_append, List.flatMap_cons, found_segment, Part.found,
        List.singleton_append, List.cons_append, numberMarkers, numberMarkers_inl, ih, List.zipIdx_cons,
        List.flatMap_cons, List.append_assoc]

theorem numberMarkers_text : numberMarkers 0 (marked markerPattern s.text) = s.numbered := by
  rw [marked_text, parts, List.flatMap_append, found_segment, numberMarkers_inl, numberMarkers_marks,
    numbered]

end MarkedStatement

@[simp] theorem dollar_eq (n : Nat) : dollar n = spelledPlaceholder n := by
  simp [dollar, spelledPlaceholder]

theorem no_dollar_enclosed {content : List Char} (h : ∀ c ∈ content, c ≠ '$') :
    ∀ c ∈ enclosed content, c ≠ '$' := by
  intro c member
  simp only [enclosed, List.mem_append, List.mem_cons, List.not_mem_nil, or_false] at member
  rcases member with (rfl | member) | rfl
  · decide
  · exact h c member
  · decide

theorem Segment.no_dollar (segment : Segment) : ∀ c ∈ segment.text, c ≠ '$' := by
  intro c member
  obtain ⟨piece, -, member⟩ := List.mem_flatMap.mp member
  cases piece with
  | plain d h =>
      rw [List.mem_singleton.mp member]
      exact (isPlain_iff.mp h).2.2.2.2
  | literal content h => exact no_dollar_enclosed (fun c inside => (h c inside).2) c member

/-- Parameters that are given one after the other, at least one, and not by name. -/
structure IsSequence (parameters : Value) (row : List Value) : Prop where
  given : itemsOf parameters = .ok row
  unnamed : ∀ fields, parameters ≠ .object fields
  filled : row ≠ []

section

variable {parameters : Value} {row : List Value}

theorem isVoid_eq_isEmpty (given : itemsOf parameters = .ok row)
    (unnamed : ∀ fields, parameters ≠ .object fields) : parameters.isVoid = row.isEmpty := by
  cases parameters with
  | list | tuple | bytes | buffer | text =>
      cases given
      rw [Bool.eq_iff_iff]
      simp [Value.isVoid]
  | object fields => exact absurd rfl (unnamed fields)
  | _ => cases given

theorem IsSequence.not_isVoid (h : IsSequence parameters row) : parameters.isVoid = false := by
  rw [isVoid_eq_isEmpty h.given h.unnamed]
  exact List.isEmpty_eq_false_iff.mpr h.filled

theorem IsSequence.bindParameters_eq (h : IsSequence parameters row) (statement : String) :
    bindParameters statement parameters =
      .ok (String.ofList (numberMarkers 0 (marked markerPattern statement.toList)), row) := by
  rw [bindParameters, h.not_isVoid, if_neg Bool.false_ne_true]
  · rw [h.given]
    rfl
  · exact h.unnamed

/-- Counting marks from some place on counts through a row of items, until these end. -/
theorem filterMap_zipIdx {α : Type} (marks : List α) (n : Nat) :
    (marks.zipIdx (n + 1)).filterMap (fun m => row[m.2 - 1]?) = (row.drop n).take marks.length := by
  induction marks generalizing n with
  | nil => rfl
  | cons mark marks ih =>
      rw [List.zipIdx_cons, List.filterMap_cons, ih, Nat.add_sub_cancel, List.length_cons]
      by_cases inside : n < row.length
      · rw [List.getElem?_eq_getElem inside, List.drop_eq_getElem_cons inside, List.take_succ_cons]
      · rw [List.getElem?_eq_none (by omega), List.drop_eq_nil_of_le (by omega),
          List.drop_eq_nil_of_le (by omega), List.take_nil, List.take_nil]

end

/-- In a statement with markers for the next parameter, every marker becomes a placeholder with its place
as the number and all else stays, and the placeholders stand for the parameters in order, as far as these
go. The number of markers is bounded by what the digits of an index can write. -/
theorem placed_markers_resolved (s : MarkedStatement)
    (apart : ∀ m ∈ s.marks, Stops isDigit (Segment.text m.2)) (few : s.marks.length < 10 ^ maxDigits)
    {parameters : Value} {row : List Value} (sequence : IsSequence parameters row) :
    bindParameters (String.ofList s.text) parameters = .ok (String.ofList s.numbered, row) ∧
      parametersIn row s.numbered = .ok (row.take (min s.marks.length row.length)) := by
  refine ⟨?_, ?_⟩
  · rw [sequence.bindParameters_eq, String.toList_ofList, s.numberMarkers_text]
  · have spelled : s.numbered =
        spelledAmong s.front.text ((s.marks.zipIdx 1).map fun (m, i) => (i, Segment.text m.2)) := by
      simp only [MarkedStatement.numbered, spelledAmong, List.flatMap_map, dollar_eq]
    have inside {m : (PlaceMarker × Segment) × Nat} (member : m ∈ s.marks.zipIdx 1) :
        m.1 ∈ s.marks ∧ 1 ≤ m.2 ∧ m.2 < 10 ^ maxDigits := by
      obtain ⟨counted, bound, -⟩ := List.mem_zipIdx member
      exact ⟨List.fst_mem_of_mem_zipIdx member, counted, by omega⟩
    rw [spelled, parametersIn_spelledAmong row s.front.no_dollar
      (List.forall_mem_map.mpr fun m _ => Segment.no_dollar m.1.2)
      (List.forall_mem_map.mpr fun m member => apart m.1 (inside member).1)
      (List.forall_mem_map.mpr fun m member => (inside member).2), List.filterMap_map]
    refine congrArg Except.ok ?_
    rw [← List.take_eq_take_min]
    exact filterMap_zipIdx s.marks 0

/-- A statement with markers in literals and a cast beside the markers that stand for parameters. -/
def quotedMarkers : MarkedStatement where
  front := [.plain 'a' rfl, .plain '=' rfl]
  marks := [(.question, [.plain ' ' rfl, .literal ['?', '%', 's'] (by simp),
      .literal [':', '1'] (by simp)]), (.percent, []), (.question, [.literal [] (by simp)])]

theorem quotedMarkers_resolved :
    quotedMarkers.text = "a=? '?%s'':1'%s?''".toList ∧
      bindParameters "a=? '?%s'':1'%s?''" (.tuple [.int 7, .null]) =
        .ok ("a=$1 '?%s'':1'$2$3''", [.int 7, .null]) ∧
      parametersIn [.int 7, .null] "a=$1 '?%s'':1'$2$3''".toList = .ok [.int 7, .null] := by
  have sequence : IsSequence (.tuple [.int 7, .null]) [.int 7, .null] := ⟨rfl, nofun, nofun⟩
  have apart : ∀ m ∈ quotedMarkers.marks, Stops isDigit (Segment.text m.2) := by
    simp only [quotedMarkers, List.forall_mem_cons]
    exact ⟨stops_cons rfl, stops_nil isDigit, stops_cons rfl, nofun⟩
  obtain ⟨bound, resolved⟩ := placed_markers_resolved quotedMarkers apart (by decide +kernel) sequence
  exact ⟨rfl, bound, resolved⟩

end QueryHarvest.Capture
