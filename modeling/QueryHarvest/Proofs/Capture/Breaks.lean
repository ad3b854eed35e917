import QueryHarvest.Proofs.Capture.Policies
import QueryHarvest.Proofs.Capture.Relocation
import QueryHarvest.Proofs.Json.Pieces

/-! # Logs that were written line by line

Texts that are records, written one a line, are read back as long as there is no line break in them. JSON
strings may hold three of the characters at which a log is cut into lines. A text that holds one of them
is a record by itself, but in a log it is cut there into malformed lines.
-/

namespace QueryHarvest.Capture

open Text Json Files

/-- A text without the three line breaks that may stand in a JSON string. -/
def isUnbroken (line : String) : Bool :=
  line.toList.all fun c => c != '\x85' && c != '\u2028' && c != '\u2029'

/-- A text is a record by itself, and holds no line end. -/
structure IsRecordLine (line : String) : Prop where
  accepted : ∃ record, parseLine none line = .ok record
  no_feed : ∀ c ∈ line.toList, c ≠ '\n' ∧ c ≠ '\r'

section

variable {line : List Char} {number : Nat}

theorem isBlank_of_isLineBreak {c : Char} (breaks : isLineBreak c) : isBlank c := by
  simp only [isLineBreak, isBlank, Bool.or_eq_true, Bool.and_eq_true, decide_eq_true_eq, beq_iff_eq] at *
  omega

/-- Line ends apart, a line break can stand in strings only. -/
theorem standsOutside_of_isLineBreak {c : Char} (breaks : isLineBreak c) (ends : c ≠ '\n' ∧ c ≠ '\r') :
    standsOutside c = false := by
  have noWord : isWordChar c = false := Bool.eq_false_iff.mpr fun inWord =>
    Reader.hidden_of_isBlank (isBlank_of_isLineBreak breaks) (Reader.visible_of_isWordChar inWord)
  have apart (mark : Char) (h : isLineBreak mark = false) : (c == mark) = false :=
    beq_false_of_ne fun same => Bool.false_ne_true ((same ▸ h).symm.trans breaks)
  rw [standsOutside, noWord, Bool.or_false, endsBare, isJsonBlank, apart ' ' rfl, apart '\t' rfl,
    beq_false_of_ne ends.1, beq_false_of_ne ends.2, apart ',' rfl, apart ':' rfl, apart '\x22' rfl,
    apart '[' rfl, apart ']' rfl, apart '\x7b' rfl, apart '\x7d' rfl]
  rfl

/-- Where a line break stands in a text that is read, it stands in a string. -/
theorem string_at_break {number : Nat} {front rest : List Char} {c : Char} {value : Value}
    (read : Json.read? number (String.ofList (front ++ c :: rest)) = some value)
    (breaks : isLineBreak c) (ends : c ≠ '\n' ∧ c ≠ '\r') :
    ∃ (before after last : Reader) (chars : List Char), ({ line := number } : Reader).run front = some before ∧
      before.step c = some after ∧ after.run rest = some last ∧ last.finish = some value ∧
      before.mode = .string chars ∧ after.mode = .string (c :: chars) ∧ 0x20 ≤ c.toNat := by
  obtain ⟨last, run, finish⟩ := read?_ofList_eq_some_iff.mp read
  obtain ⟨before, after, run, step, later⟩ := Reader.run_parts run
  have hidden := Reader.hidden_of_isBlank (isBlank_of_isLineBreak breaks)
  obtain ⟨chars, mode, mode', printable⟩ := Reader.step_hidden
    (standsOutside_of_isLineBreak breaks ends) hidden step ((Reader.Alive.of_finish finish).before later)
  exact ⟨before, after, last, chars, run, step, later, finish, mode, mode', printable⟩

theorem readLine?_ofList : readLine? (String.ofList line, number) =
    if trim line = [] then none
    else some ((readRecord number (String.ofList (trim line))).mapError (.malformed (some number))) := by
  have empty : (String.ofList (trim line)).isEmpty = decide (trim line = []) := by
    rw [Bool.eq_iff_iff, String.isEmpty_iff, decide_eq_true_eq, ← String.toList_inj, String.toList_ofList]
    rfl
  rw [readLine?, trimmed, String.toList_ofList, empty]
  by_cases blank : trim line = [] <;> simp [blank, parseLine]

theorem recordOn?_ofList_eq_some_iff {record : Record} :
    recordOn? (String.ofList line, number) = some record ↔
      readRecord number (String.ofList (trim line)) = .ok record := by
  rw [recordOn?, readLine?_ofList]
  by_cases blank : trim line = []
  · rw [if_pos blank, blank]
    refine ⟨fun found => absurd found (Option.some_ne_none record).symm, fun read => ?_⟩
    obtain ⟨fields, parsed, -⟩ := readRecord_eq_ok_iff.mp read
    obtain ⟨last, run, finish⟩ := read?_ofList_eq_some_iff.mp parsed
    cases run
    cases finish
  · rw [if_neg blank, Option.bind_some]
    cases readRecord number (String.ofList (trim line)) <;> simp

/-- There is no record on a piece that begins inside a string. -/
theorem recordOn?_piece {r next : Reader} {chars : List Char} (mode : r.mode = .string chars)
    (read : r.run line = some next) (alive : next.Alive) (number : Nat) :
    recordOn? (String.ofList line, number) = none := by
  rw [Option.eq_none_iff_forall_ne_some]
  intro record found
  obtain ⟨fields, parsed, takes⟩ := readRecord_eq_ok_iff.mp (recordOn?_ofList_eq_some_iff.mp found)
  obtain ⟨before, after, rfl, -⟩ := List.lookup_eq_some_iff.mp takes.query
  have plain : Reader.PlainKey "query" := plainKeys_of_piece mode read alive parsed _ rfl _
    (List.mem_append_right _ (List.mem_cons_self ..))
  exact absurd (plain 'q' (by decide)) (by decide)

theorem recordOn?_pieces {r last : Reader} {value : Value} {chars : List Char}
    (mode : r.mode = .string chars) (ends : ∀ c ∈ line, c ≠ '\n' ∧ c ≠ '\r')
    (read : r.run line = some last) (finish : last.finish = some value) :
    ∀ piece ∈ cuts line, ∀ number, recordOn? (String.ofList piece, number) = none := by
  induction line using cuts_induction generalizing r chars with
  | whole line whole =>
      rw [cuts_eq_single whole]
      intro piece member
      rw [List.mem_singleton.mp member]
      exact recordOn?_piece mode read (.of_finish finish)
  | broken front c rest whole breaks ih =>
      rw [cuts_append whole breaks]
      obtain ⟨before, after, run, step, later⟩ := Reader.run_parts read
      have alive := (Reader.Alive.of_finish finish).before later
      obtain ⟨others, mode', mode'', -⟩ := Reader.step_hidden
        (standsOutside_of_isLineBreak breaks (ends c (by simp)))
        (Reader.hidden_of_isBlank (isBlank_of_isLineBreak breaks)) step alive
      refine List.forall_mem_cons.mpr ⟨?_, ?_⟩
      · exact recordOn?_piece mode run (alive.before_step step)
      · exact ih mode'' (fun x member => ends x (by simp [member])) later

theorem readRecord_of_isRecordLine (h : IsRecordLine (String.ofList line)) (number : Nat) :
    ∃ record, readRecord number (String.ofList line) = .ok record := by
  obtain ⟨record, accepted⟩ := h.accepted
  exact ⟨_, readRecord_onLine number (mapError_eq_ok_iff.mp accepted)⟩

theorem read?_of_isRecordLine (h : IsRecordLine (String.ofList line)) (number : Nat) :
    ∃ value, Json.read? number (String.ofList line) = some value := by
  obtain ⟨record, read⟩ := readRecord_of_isRecordLine h number
  obtain ⟨fields, parsed, -⟩ := readRecord_eq_ok_iff.mp read
  exact ⟨_, parsed⟩

theorem isUnbroken_iff (h : IsRecordLine (String.ofList line)) :
    isUnbroken (String.ofList line) ↔ ∀ c ∈ line, isLineBreak c = false := by
  obtain ⟨value, read⟩ := read?_of_isRecordLine h 0
  have ends := h.no_feed
  rw [String.toList_ofList] at ends
  rw [isUnbroken, String.toList_ofList, List.all_eq_true]
  constructor
  · intro whole c member
    rw [Bool.eq_false_iff]
    intro breaks
    obtain ⟨front, rest, rfl⟩ := List.append_of_mem member
    obtain ⟨_, _, _, _, -, -, -, -, -, -, printable⟩ := string_at_break read breaks (ends c member)
    have apart := whole c member
    simp only [Bool.and_eq_true, bne_iff_ne] at apart
    simp only [isLineBreak, Bool.or_eq_true, Bool.and_eq_true, decide_eq_true_eq, beq_iff_eq] at breaks
    obtain code | code | code : c.toNat = 0x85 ∨ c.toNat = 0x2028 ∨ c.toNat = 0x2029 := by omega
    · exact apart.1.1 (Char.toNat_inj.mp code)
    · exact apart.1.2 (Char.toNat_inj.mp code)
    · exact apart.2 (Char.toNat_inj.mp code)
  · intro whole c member
    have unbroken := whole c member
    simp only [Bool.and_eq_true, bne_iff_ne]
    refine ⟨⟨?_, ?_⟩, ?_⟩ <;>
      · rintro rfl
        cases unbroken

/-- A line ends outside strings, and so not with a line break. -/
theorem getLast?_of_isRecordLine (h : IsRecordLine (String.ofList line)) :
    ∃ last, line.getLast? = some last ∧ isLineBreak last = false := by
  obtain ⟨value, read⟩ := read?_of_isRecordLine h 0
  have ends := h.no_feed
  rw [String.toList_ofList] at ends
  rcases List.eq_nil_or_concat' line with rfl | ⟨front, c, rfl⟩
  · obtain ⟨last, run, finish⟩ := read?_ofList_eq_some_iff.mp read
    cases run
    cases finish
  · refine ⟨c, List.getLast?_concat .., Bool.eq_false_iff.mpr fun breaks => ?_⟩
    obtain ⟨before, after, last, chars, -, -, run, finish, -, mode, -⟩ :=
      string_at_break read breaks (ends c (by simp))
    cases run
    obtain ⟨settled, settles, -⟩ := Reader.finish_eq_some_iff.mp finish
    cases settles with
    | between same | word same => cases same.symm.trans mode

/-- Uncut, a line of a log stands for its record. -/
theorem readLine?_of_isRecordLine (h : IsRecordLine (String.ofList line)) (number : Nat) :
    ∃ record : Record, readLine? (String.ofList line, number) = some (.ok record) ∧
      parseLine none (String.ofList line) = .ok (record.onLine 0) := by
  obtain ⟨record, accepted⟩ := h.accepted
  have read : readRecord 0 (String.ofList line) = .ok record := mapError_eq_ok_iff.mp accepted
  obtain ⟨fields, parsed, takes⟩ := readRecord_eq_ok_iff.mp read
  have trimmed : readRecord 0 (String.ofList (trim line)) = .ok record :=
    readRecord_eq_ok_iff.mpr ⟨fields, read?_trim parsed, takes⟩
  have here := readRecord_onLine number trimmed
  have same : record = (record.onLine number).onLine 0 :=
    Except.ok.inj (trimmed.symm.trans (readRecord_onLine 0 here))
  refine ⟨record.onLine number, ?_, accepted.trans (congrArg Except.ok same)⟩
  obtain ⟨answer, found, kept⟩ := Option.bind_eq_some_iff.mp (recordOn?_ofList_eq_some_iff.mpr here)
  cases answer with
  | error => cases kept
  | ok found' =>
      cases kept
      exact found

/-- A line with breaks is cut into lines without a record, the first of which is malformed since it ends
inside a string. -/
theorem cuts_of_broken (h : IsRecordLine (String.ofList line))
    (broken : isUnbroken (String.ofList line) = false) :
    ∃ front pieces, cuts line = front :: pieces ∧
      (∀ number, faultOn? (String.ofList front, number) =
        some (.malformed (some number) .invalidJson)) ∧
      ∀ piece ∈ pieces, ∀ number, recordOn? (String.ofList piece, number) = none := by
  induction line using cuts_induction with
  | whole line whole =>
      rw [(isUnbroken_iff h).mpr whole] at broken
      cases broken
  | broken front c rest whole breaks _ =>
      have ends := h.no_feed
      rw [String.toList_ofList] at ends
      have inside := ends c (by simp)
      refine ⟨front, cuts rest, cuts_append whole breaks rest, fun number => ?_, ?_⟩
      · obtain ⟨value, read⟩ := read?_of_isRecordLine h number
        obtain ⟨before, after, last, chars, run, step, later, finish, mode, -⟩ :=
          string_at_break read breaks inside
        have alive := ((Reader.Alive.of_finish finish).before later).before_step step
        obtain ⟨filled, invalid⟩ := read?_trim_of_string run mode alive
        rw [faultOn?, readLine?_ofList, if_neg filled]
        simp only [readRecord, invalid, mapError_error]
      · obtain ⟨value, read⟩ := read?_of_isRecordLine h 0
        obtain ⟨before, after, last, chars, -, -, later, finish, -, mode, -⟩ :=
          string_at_break read breaks inside
        exact recordOn?_pieces mode (fun x member => ends x (by simp [member])) later finish

end

/-- The pieces that a line is cut into at the breaks in it. -/
def pieces (line : String) : List String :=
  (cuts line.toList).map String.ofList

/-- A record is the one that stands on a line, wherever the line is. -/
def StandsOn (line : String) (record : Record) : Prop :=
  parseLine none line = .ok (record.onLine 0)

section

variable {line : String} {lines : List String} {number : Nat}

theorem pieces_of_isUnbroken (h : IsRecordLine line) (whole : isUnbroken line) : pieces line = [line] := by
  have same := String.ofList_toList (s := line)
  rw [← same] at h whole
  rw [pieces, cuts_eq_single ((isUnbroken_iff h).mp whole), List.map_singleton, same]

theorem readLine?_whole (h : IsRecordLine line) (number : Nat) :
    ∃ record, readLine? (line, number) = some (.ok record) ∧ StandsOn line record := by
  have same := String.ofList_toList (s := line)
  rw [← same] at h ⊢
  exact readLine?_of_isRecordLine h number

theorem pieces_of_broken (h : IsRecordLine line) (broken : isUnbroken line = false) :
    ∃ front rest, pieces line = front :: rest ∧
      (∀ number, faultOn? (front, number) = some (.malformed (some number) .invalidJson)) ∧
      ∀ piece ∈ rest, ∀ number, recordOn? (piece, number) = none := by
  have same := String.ofList_toList (s := line)
  rw [← same] at h broken
  obtain ⟨front, rest, cut, fault, none⟩ := cuts_of_broken h broken
  refine ⟨String.ofList front, rest.map String.ofList, ?_, fault, ?_⟩
  · rw [pieces, cut, List.map_cons]
  · intro piece member
    obtain ⟨chars, inside, rfl⟩ := List.mem_map.mp member
    exact none chars inside

@[simp] theorem recordsFrom_append (xs ys : List String) :
    recordsFrom number (xs ++ ys) = recordsFrom number xs ++ recordsFrom (number + xs.length) ys := by
  rw [recordsFrom, List.zipIdx_append, List.filterMap_append]
  rfl

@[simp] theorem faultsFrom_append (xs ys : List String) :
    faultsFrom number (xs ++ ys) = faultsFrom number xs ++ faultsFrom (number + xs.length) ys := by
  rw [faultsFrom, List.zipIdx_append, List.filterMap_append]
  rfl

theorem recordsFrom_eq_nil (h : ∀ line ∈ lines, ∀ number, recordOn? (line, number) = none) :
    recordsFrom number lines = [] := by
  induction lines generalizing number with
  | nil => rfl
  | cons line lines ih =>
      obtain ⟨first, others⟩ := List.forall_mem_cons.mp h
      rw [recordsFrom_cons, first, ih others]
      rfl

/-- In the whole log there are the records of the lines without breaks. -/
theorem recordsFrom_pieces (h : ∀ line ∈ lines, IsRecordLine line) (number : Nat) :
    List.Forall₂ StandsOn (lines.filter isUnbroken) (recordsFrom number (lines.flatMap pieces)) := by
  induction lines generalizing number with
  | nil => exact .nil
  | cons line lines ih =>
      obtain ⟨first, others⟩ := List.forall_mem_cons.mp h
      rw [List.flatMap_cons, recordsFrom_append]
      cases whole : isUnbroken line with
      | true =>
          obtain ⟨record, read, stands⟩ := readLine?_whole first number
          rw [List.filter_cons_of_pos whole, pieces_of_isUnbroken first whole, recordsFrom_cons, recordOn?,
            read]
          exact .cons stands (ih others _)
      | false =>
          obtain ⟨front, rest, cut, fault, none⟩ := pieces_of_broken first whole
          rw [List.filter_cons_of_neg (by simp [whole]), cut, recordsFrom_cons,
            recordOn?_of_fault (fault number), recordsFrom_eq_nil none]
          exact ih others _

theorem faultsFrom_pieces_eq_nil_iff (h : ∀ line ∈ lines, IsRecordLine line) (number : Nat) :
    faultsFrom number (lines.flatMap pieces) = [] ↔ lines.all isUnbroken := by
  induction lines generalizing number with
  | nil => simp [faultsFrom]
  | cons line lines ih =>
      obtain ⟨first, others⟩ := List.forall_mem_cons.mp h
      rw [List.flatMap_cons, faultsFrom_append, List.append_eq_nil_iff, ih others, List.all_cons]
      cases whole : isUnbroken line with
      | true =>
          obtain ⟨record, read, -⟩ := readLine?_whole first number
          have fault : faultOn? (line, number) = none := by rw [faultOn?, read]
          simp [pieces_of_isUnbroken first whole, fault, faultsFrom]
      | false =>
          obtain ⟨front, rest, cut, fault, -⟩ := pieces_of_broken first whole
          simp [cut, fault]

/-- The reading that does not skip comes to the first line with a break. -/
theorem readLinesFrom_abort_pieces (h : ∀ line ∈ lines, IsRecordLine line) (number : Nat) :
    let reading := readLinesFrom .abort number (lines.flatMap pieces)
    List.Forall₂ StandsOn (lines.takeWhile isUnbroken) reading.records ∧ reading.notices = [] ∧
      reading.error = if lines.all isUnbroken then none
        else some (.malformed (some (number + (lines.takeWhile isUnbroken).length)) .invalidJson) := by
  induction lines generalizing number with
  | nil => exact ⟨.nil, rfl, rfl⟩
  | cons line lines ih =>
      obtain ⟨first, others⟩ := List.forall_mem_cons.mp h
      rw [List.flatMap_cons, List.all_cons]
      cases whole : isUnbroken line with
      | true =>
          obtain ⟨record, read, stands⟩ := readLine?_whole first number
          obtain ⟨records, notices, error⟩ := ih others (number + 1)
          rw [List.takeWhile_cons_of_pos whole, pieces_of_isUnbroken first whole, List.singleton_append,
            readLinesFrom_cons, read]
          refine ⟨.cons stands records, notices, error.trans ?_⟩
          rw [Bool.true_and, List.length_cons, Nat.add_assoc, Nat.add_comm 1]
      | false =>
          obtain ⟨front, rest, cut, fault, -⟩ := pieces_of_broken first whole
          rw [List.takeWhile_cons_of_neg (by simp [whole]), cut, List.cons_append,
            readLinesFrom_cons_of_fault .abort (fault number)]
          exact ⟨.nil, rfl, rfl⟩

end

/-- A text holds some lines, which are separated by line feeds or each ended by one. -/
def HoldsLines (text : String) (lines : List String) : Prop :=
  text.toList = ['\n'].intercalate (lines.map String.toList) ∨
    text.toList = (lines.map String.toList).flatMap (· ++ ['\n'])

theorem linesOf_of_holdsLines {text : String} {lines : List String} (holds : HoldsLines text lines)
    (h : ∀ line ∈ lines, IsRecordLine line) : linesOf text = lines.flatMap pieces := by
  have plain : ∀ line ∈ lines.map String.toList, ∀ c ∈ line, c ≠ '\r' := by
    intro chars member
    obtain ⟨line, inside, rfl⟩ := List.mem_map.mp member
    exact fun c among => ((h line inside).no_feed c among).2
  have ends : ∀ line ∈ lines.map String.toList, ∃ last, line.getLast? = some last ∧
      isLineBreak last = false := by
    intro chars member
    obtain ⟨line, inside, rfl⟩ := List.mem_map.mp member
    exact getLast?_of_isRecordLine (by rw [String.ofList_toList]; exact h line inside)
  rw [linesOf]
  have cut : Text.lines text.toList = (lines.map String.toList).flatMap cuts := by
    rcases holds with separated | ended
    · rw [separated, lines_separated plain ends]
    · rw [ended, lines_ended plain]
  rw [cut, List.flatMap_map, List.map_flatMap]
  rfl

/-- What becomes of texts that are records by themselves when they are written one a line and read back.
Where none of them holds a line break, both policies find just their records. Otherwise the one ends at the
first that does, with the records before it; the other finds the records of those that do not, and warns. -/
theorem recordLines_read {files : FileTree} {shown : String} {content : Content} {text : String}
    {lines : List String} (stored : files.read (Path.ofText shown) = .ok content)
    (encoded : content.data.toByteArray = text.toByteArray) (holds : HoldsLines text lines)
    (h : ∀ line ∈ lines, IsRecordLine line) :
    let aborting := readLog files shown .abort
    let skipping := readLog files shown .skip
    (List.Forall₂ StandsOn (lines.takeWhile isUnbroken) aborting.records ∧ aborting.notices = [] ∧
      aborting.error = if lines.all isUnbroken then none
        else some (.malformed (some ((lines.takeWhile isUnbroken).length + 1)) .invalidJson)) ∧
    List.Forall₂ StandsOn (lines.filter isUnbroken) skipping.records ∧ skipping.error = none ∧
      (skipping.notices = [] ↔ lines.all isUnbroken) := by
  intro aborting skipping
  have abort : aborting = readLinesFrom .abort 1 (lines.flatMap pieces) := by
    rw [← linesOf_of_holdsLines holds h]
    exact readLog_of_text stored encoded .abort
  have skip : skipping = readLinesFrom .skip 1 (lines.flatMap pieces) := by
    rw [← linesOf_of_holdsLines holds h]
    exact readLog_of_text stored encoded .skip
  rw [abort, skip, readLinesFrom_skip, Nat.add_comm]
  refine ⟨readLinesFrom_abort_pieces h 1, recordsFrom_pieces h 1, rfl, ?_⟩
  rw [List.map_eq_nil_iff]
  exact faultsFrom_pieces_eq_nil_iff h 1

/-- Three records, with a line separator in the text of the second. -/
def separatorLines : List String :=
  ["\x7b\"query\": \"a\", \"params\": [NaN]\x7d", " \x7b\"query\": \"b\u2028\x7b\x7d\"\x7d",
    "\x7b\"query\": \"c\", \"timestamp\": \"nan\"\x7d "]

theorem separatorLines_read :
    let files : FileTree :=
      { entries := [(["log"], .file (.text ("\n".intercalate separatorLines)) false)] }
    (∀ line ∈ separatorLines, IsRecordLine line) ∧
      List.Forall₂ StandsOn (separatorLines.take 1) (readLog files "log" .abort).records ∧
      (readLog files "log" .abort).error = some (.malformed (some 2) .invalidJson) ∧
      List.Forall₂ StandsOn (separatorLines.eraseIdx 1) (readLog files "log" .skip).records ∧
      (readLog files "log" .skip).notices ≠ [] := by
  intro files
  have stored : files.read (Path.ofText "log") = .ok (.text ("\n".intercalate separatorLines)) := rfl
  have accepted : ∀ line ∈ separatorLines, (parseLine none line).isOk := by decide +kernel
  have ends : ∀ line ∈ separatorLines, ∀ c ∈ line.toList, c ≠ '\n' ∧ c ≠ '\r' := by
    simp [separatorLines]
  have h : ∀ line ∈ separatorLines, IsRecordLine line := fun line member =>
    ⟨exists_of_isOk (accepted line member), ends line member⟩
  have holds : HoldsLines ("\n".intercalate separatorLines) separatorLines := .inl (by decide +kernel)
  obtain ⟨⟨aborted, -, error⟩, skipped, -, warned⟩ :=
    recordLines_read stored (Utf8.toByteArray_toList _) holds h
  have front : separatorLines.takeWhile isUnbroken = separatorLines.take 1 := by decide +kernel
  have kept : separatorLines.filter isUnbroken = separatorLines.eraseIdx 1 := by decide +kernel
  have broken : separatorLines.all isUnbroken = false := by decide +kernel
  rw [front] at aborted error
  rw [kept] at skipped
  rw [broken] at error warned
  exact ⟨h, aborted, error, skipped, fun quiet => Bool.false_ne_true (warned.mp quiet)⟩

/-- A record by itself, with a line separator in a string literal. -/
def separatorLine : String :=
  "\x7b\"query\": \"SELECT '\u2028'\", \"params\": [1]\x7d"

/-- In a log, no policy finds it. -/
theorem separatorLine_lost :
    (parseLine none separatorLine).toOption.map Record.query = some "SELECT '\u2028'" ∧
      (∀ c ∈ separatorLine.toList, c ≠ '\n' ∧ c ≠ '\r') ∧
      let files : FileTree := { entries := [(["log"], .file (.text (separatorLine ++ "\n")) false)] }
      (readLog files "log" .abort).error = some (.malformed (some 1) .invalidJson) ∧
        (readLog files "log" .skip).records.length = 0 := by
  exact ⟨by decide +kernel, by simp [separatorLine], by decide +kernel, by decide +kernel⟩

end QueryHarvest.Capture
