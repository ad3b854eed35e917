import QueryHarvest.Capture.Log
import QueryHarvest.Proofs.Capture.Recording
import QueryHarvest.Proofs.Files.Writing

/-! # Logs read back

Every record stands on one line of visible ASCII that is read as a record of the same statement with
the same parameters. So a log that was written is read record by record, whatever the policy about
malformed lines.
-/

namespace QueryHarvest.Capture

open Number Json Text Files

theorem visible_apart {c : Char} (h : isVisible c) : isLineBreak c = false := by
  simp only [isVisible, Bool.and_eq_true, decide_eq_true_eq] at h
  refine Bool.eq_false_iff.mpr fun ends => ?_
  simp only [isLineBreak, Bool.or_eq_true, Bool.and_eq_true, decide_eq_true_eq, beq_iff_eq] at ends
  omega

section

variable {record : Record}

/-- The texts of the fields of a record. -/
def Record.fieldTexts (record : Record) : List String :=
  [string "query" ++ ": " ++ string record.query,
    string "params" ++ ": " ++ Layout.line.container 1 "[" "]" (itemsAt .line 2 record.parameters),
    string "timestamp" ++ ": " ++ textAt .line 1 (record.timestamp.elim .null .float)]

theorem text_toValue (record : Record) :
    Json.text record.toValue = Layout.line.container 0 "\x7b" "\x7d" record.fieldTexts := by
  simp only [Json.text, Record.toValue, textAt, fieldsAt, Record.fieldTexts]

/-- The line of a record is legible as its fields, with some number for the time. -/
theorem Record.Writable.legible (h : record.Writable) :
    ∃ time, Legible 102 (Json.text record.toValue) (.object [("query", .text record.query),
      ("params", .list record.parameters), ("timestamp", .float time)]) := by
  obtain ⟨n, small, written⟩ := h.time
  obtain ⟨time, word⟩ := word_float small
  have params := legible_array (legible_itemsAt record.parameters h.json 2) 1
  have query : LegibleField 101 (string "query" ++ ": " ++ string record.query)
      ("query", .text record.query) := ⟨_, rfl, (legible_string record.query).mono (Nat.zero_le _)⟩
  have parameters : LegibleField 101 (string "params" ++ ": " ++
      Layout.line.container 1 "[" "]" (itemsAt .line 2 record.parameters))
      ("params", .list record.parameters) := ⟨_, rfl, params.mono (Nat.succ_le_succ h.depth)⟩
  have timestamp : LegibleField 101 (string "timestamp" ++ ": " ++
      textAt .line 1 (record.timestamp.elim .null .float)) ("timestamp", .float time) := by
    refine ⟨_, rfl, ?_⟩
    simp only [written, Option.elim_some, textAt]
    exact (legible_word word).mono (Nat.zero_le _)
  refine ⟨time, ?_⟩
  rw [text_toValue]
  exact legible_object (.cons query (.cons parameters (.cons timestamp .nil))) (by simp) 0

/-- What is kept of an execution when its record is written and read. -/
def Record.content (record : Record) : String × List Value :=
  (record.query, record.parameters)

theorem parseLine_text (h : record.Writable) (number : Option Nat) :
    ∃ found, parseLine number (Json.text record.toValue) = .ok found ∧
      found.content = record.content := by
  obtain ⟨time, legible⟩ := h.legible
  refine ⟨⟨record.query, record.parameters, some time⟩, ?_, rfl⟩
  rw [parseLine, readRecord, legible.read? (by decide)]
  rfl

theorem text_braces (record : Record) :
    ∃ inner, (Json.text record.toValue).toList = '\x7b' :: (inner ++ ['\x7d']) := by
  obtain ⟨first, others, texts⟩ : ∃ first others, record.fieldTexts = first :: others := ⟨_, _, rfl⟩
  refine ⟨first.toList ++ joined others, ?_⟩
  rw [text_toValue, texts, toList_container, List.append_assoc]
  rfl

/-- The line of a record stays whole when the blanks at its ends are dropped. -/
@[simp] theorem trimmed_text (record : Record) :
    trimmed (Json.text record.toValue) = Json.text record.toValue := by
  obtain ⟨inner, braces⟩ := text_braces record
  have front : Stops isBlank (Json.text record.toValue).toList := by
    rw [braces]
    exact stops_cons rfl
  have back : Stops isBlank (Json.text record.toValue).toList.reverse := by
    rw [braces, List.reverse_cons, List.reverse_append]
    exact stops_cons rfl
  rw [trimmed, trim_eq front back, String.ofList_toList]

@[simp] theorem text_filled (record : Record) : (Json.text record.toValue).isEmpty = false := by
  obtain ⟨inner, braces⟩ := text_braces record
  refine Bool.eq_false_iff.mpr fun empty => ?_
  rw [String.isEmpty_iff.mp empty] at braces
  cases braces

end

/-- A reading that is complete and silent, with the contents of some records in their order. -/
structure Reading.Holds (reading : Reading) (records : List Record) : Prop where
  contents : reading.records.map Record.content = records.map Record.content
  silent : reading.notices = []
  complete : reading.error = none

theorem readLinesFrom_texts (policy : MalformedPolicy) {records : List Record}
    (h : ∀ record ∈ records, record.Writable) (number : Nat) :
    (readLinesFrom policy number (records.map fun record => Json.text record.toValue)).Holds records := by
  induction records generalizing number with
  | nil => exact ⟨rfl, rfl, rfl⟩
  | cons record records ih =>
      have later := ih (fun other member => h other (List.mem_cons_of_mem _ member)) (number + 1)
      obtain ⟨found, read, same⟩ := parseLine_text (h record (List.mem_cons_self ..)) (some number)
      rw [List.map_cons, readLinesFrom]
      simp only [trimmed_text, text_filled, Bool.false_eq_true, if_false, read]
      exact ⟨by rw [List.map_cons, List.map_cons, same, later.contents], later.silent, later.complete⟩

/-- The lines of a log, character by character. -/
def written (records : List Record) : List (List Char) :=
  records.map fun record => (Json.text record.toValue).toList

@[simp] theorem toList_logLines (records : List Record) :
    (logLines records).toList = (written records).flatMap (· ++ ['\n']) := by
  simp [logLines, written, List.flatMap_map]

theorem written_whole {records : List Record} (h : ∀ record ∈ records, record.Writable) :
    ∀ line ∈ written records, ∀ c ∈ line, isLineBreak c = false := by
  intro line member
  obtain ⟨record, hrecord, rfl⟩ := List.mem_map.mp member
  obtain ⟨_, legible⟩ := (h record hrecord).legible
  exact fun c inside => visible_apart (legible.visible c inside)

/-- The text of a log is read record by record. -/
theorem readText_logLines (policy : MalformedPolicy) {records : List Record}
    (h : ∀ record ∈ records, record.Writable) :
    (readText policy (String.ofList (unifyNewlines (logLines records).toList))).Holds records := by
  have whole := written_whole h
  have cut : linesOf (String.ofList (unifyNewlines (logLines records).toList)) =
      records.map fun record => Json.text record.toValue := by
    rw [linesOf_unifyNewlines, linesOf, toList_logLines, lines_written whole, written, List.map_map]
    simp
  rw [readText, readLines, cut]
  exact readLinesFrom_texts policy h 1

namespace Recorder

theorem dump_ok_iff {r : Recorder} {files after : FileTree} {p : Path} :
    (r.dump files p).value = .ok after ↔
      ∃ made, files.makeDirectories p.parent = .ok made ∧
        made.write p (.text (logLines r.records)) = .ok after := by
  rw [dump]
  cases directories : files.makeDirectories p.parent with
  | error error => simp [Except.bind]
  | ok made =>
      cases writes : made.write p (.text (logLines r.records)) with
      | error error => simp [Except.bind, writes]
      | ok tree => simp [Except.bind, writes]

/-- A log can be written to just those paths that accept a file. -/
theorem dump_accepts_iff {r : Recorder} {files : FileTree} {p : Path} :
    (∃ after, (r.dump files p).value = .ok after) ↔ files.Accepts p := by
  rw [FileTree.accepts_iff (.text (logLines r.records)), exists_comm]
  simp only [dump_ok_iff]

/-- A log that was written is read back. -/
theorem readLog_dump {r : Recorder} (h : r.Sound) {files after : FileTree} {shown : String}
    (ok : (r.dump files (Path.ofText shown)).value = .ok after) (policy : MalformedPolicy) :
    (readLog after shown policy).Holds r.records := by
  obtain ⟨made, -, writes⟩ := dump_ok_iff.mp ok
  have text : logText after shown = .ok (String.ofList (unifyNewlines (logLines r.records).toList)) := by
    rw [logText, FileTree.readText_of_write writes]
    rfl
  rw [readLog, text]
  exact readText_logLines policy h.records

/-- Whatever was recorded of usual values, at times in range, can be written to a path that accepts a
file, and is read from there in full under either policy. -/
theorem recordCalls_dump_readLog {clock : Nat → ClockReading} (times : ∀ n, (clock n).InRange)
    {calls : List (String × Value)} (usual : ∀ call ∈ calls, ∀ value ∈ call.2.bound, IsUsual value)
    {files : FileTree} {shown : String} (accepts : files.Accepts (Path.ofText shown)) :
    ∃ after, ((recordCalls { clock } calls).dump files (Path.ofText shown)).value = .ok after ∧
      ∀ policy, (readLog after shown policy).Holds (recordCalls { clock } calls).records := by
  have empty : ({ clock } : Recorder).Sound := ⟨times, by simp⟩
  have sound := recordCalls_sound empty usual
  obtain ⟨after, ok⟩ := dump_accepts_iff.mpr accepts
  exact ⟨after, ok, readLog_dump sound ok⟩

/-- A recorder that saw line ends in a statement and in a text bound to it. -/
def lineEnds : Recorder :=
  recordCalls ⟨fun _ => .whole 1704880800, 0, [], false⟩
    [("SELECT *\nFROM t WHERE a = ?", .tuple [.text "b\r\n\u2028", .list [.null, .int 7]])]

/-- Line ends in what is recorded leave the record on one line. -/
theorem lineEnds_dump_readLog :
    ∃ after, (lineEnds.dump {} (Path.ofText "logs/queries.jsonl")).value = .ok after ∧
      ∀ policy, (readLog after "logs/queries.jsonl" policy).Holds lineEnds.records :=
  @recordCalls_dump_readLog (fun _ => .whole 1704880800) (fun _ => ⟨by decide, by decide⟩) _ (by decide)
    _ _ ⟨by decide, by decide, by decide, by decide⟩

end Recorder

end QueryHarvest.Capture
