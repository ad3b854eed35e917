import QueryHarvest.Capture.Log
import QueryHarvest.Proofs.Outcome
import QueryHarvest.Proofs.Text.Lines
import QueryHarvest.Proofs.Text.Utf8

/-! # The two policies about malformed lines

Both policies find the same records and the same malformed lines. One passes over those lines with a
warning for each, the other ends at the first of them with what it has found before.
-/

namespace QueryHarvest.Capture

open Text Files

/-- What a line with its number is read as; a blank line is not read. -/
def readLine? (line : String × Nat) : Option (Except InputError Record) :=
  let text := trimmed line.1
  if text.isEmpty then none else some (parseLine (some line.2) text)

/-- The record on a line that is neither blank nor malformed. -/
def recordOn? (line : String × Nat) : Option Record :=
  (readLine? line).bind Except.toOption

/-- Why a line is malformed. -/
def faultOn? (line : String × Nat) : Option InputError :=
  match readLine? line with
  | some (.error error) => some error
  | _ => none

/-- The records of some lines that are counted from a number. -/
def recordsFrom (number : Nat) (lines : List String) : List Record :=
  (lines.zipIdx number).filterMap recordOn?

/-- The errors of the malformed ones among some lines that are counted from a number. -/
def faultsFrom (number : Nat) (lines : List String) : List InputError :=
  (lines.zipIdx number).filterMap faultOn?

section

variable {raw : String} {number : Nat}

theorem line?_of_faultOn? {error : InputError} (fault : faultOn? (raw, number) = some error) :
    error.line? = some number := by
  simp only [faultOn?, readLine?, parseLine] at fault
  split at fault
  · next read =>
    cases fault
    split at read
    · cases read
    cases h : readRecord number (trimmed raw) <;> simp [h] at read
    subst read
    rfl
  · cases fault

end

section

variable {lines : List String} {number : Nat}

@[simp] theorem recordsFrom_cons (raw : String) :
    recordsFrom number (raw :: lines) =
      (recordOn? (raw, number)).toList ++ recordsFrom (number + 1) lines := by
  rw [recordsFrom, List.zipIdx_cons, List.filterMap_cons]
  cases recordOn? (raw, number) <;> rfl

@[simp] theorem faultsFrom_cons (raw : String) :
    faultsFrom number (raw :: lines) =
      (faultOn? (raw, number)).toList ++ faultsFrom (number + 1) lines := by
  rw [faultsFrom, List.zipIdx_cons, List.filterMap_cons]
  cases faultOn? (raw, number) <;> rfl

theorem readLinesFrom_cons (policy : MalformedPolicy) (raw : String) :
    readLinesFrom policy number (raw :: lines) =
      let later := readLinesFrom policy (number + 1) lines
      match readLine? (raw, number) with
      | none => later
      | some (.ok record) => { later with records := record :: later.records }
      | some (.error error) =>
        match policy with
        | .abort => { error := some error }
        | .skip => { later with notices := skippedLine error :: later.notices } := by
  rw [readLinesFrom, readLine?]
  cases (trimmed raw).isEmpty with
  | true => rfl
  | false => cases parseLine (some number) (trimmed raw) <;> rfl

theorem readLinesFrom_cons_of_whole (policy : MalformedPolicy) {raw : String}
    (whole : faultOn? (raw, number) = none) :
    readLinesFrom policy number (raw :: lines) =
      let later := readLinesFrom policy (number + 1) lines
      { later with records := (recordOn? (raw, number)).toList ++ later.records } := by
  rw [readLinesFrom_cons, recordOn?]
  rw [faultOn?] at whole
  rcases h : readLine? (raw, number) with _ | error | record
  · rfl
  · rw [h] at whole
    cases whole
  · rfl

theorem readLinesFrom_cons_of_fault (policy : MalformedPolicy) {raw : String} {error : InputError}
    (fault : faultOn? (raw, number) = some error) :
    readLinesFrom policy number (raw :: lines) =
      match policy with
      | .abort => { error := some error }
      | .skip =>
        let later := readLinesFrom policy (number + 1) lines
        { later with notices := skippedLine error :: later.notices } := by
  rw [readLinesFrom_cons]
  rw [faultOn?] at fault
  rcases h : readLine? (raw, number) with _ | error | record <;> rw [h] at fault <;> cases fault
  rfl

theorem recordOn?_of_fault {line : String × Nat} {error : InputError}
    (fault : faultOn? line = some error) : recordOn? line = none := by
  rw [faultOn?] at fault
  rw [recordOn?]
  rcases h : readLine? line with _ | _ | _ <;> simp [h] at fault ⊢

/-- The reading that skips finds every record, and warns of every malformed line. -/
theorem readLinesFrom_skip (number : Nat) (lines : List String) :
    readLinesFrom .skip number lines =
      { records := recordsFrom number lines, notices := (faultsFrom number lines).map skippedLine } := by
  induction lines generalizing number with
  | nil => rfl
  | cons raw lines ih =>
      rw [recordsFrom_cons, faultsFrom_cons]
      cases h : faultOn? (raw, number) with
      | none => rw [readLinesFrom_cons_of_whole .skip h, ih]; rfl
      | some error =>
          rw [readLinesFrom_cons_of_fault .skip h, recordOn?_of_fault h, ih]
          rfl

theorem readLinesFrom_abort_of_whole (whole : faultsFrom number lines = []) :
    readLinesFrom .abort number lines = { records := recordsFrom number lines } := by
  induction lines generalizing number with
  | nil => rfl
  | cons raw lines ih =>
      rw [faultsFrom_cons, List.append_eq_nil_iff, Option.toList_eq_nil_iff] at whole
      rw [readLinesFrom_cons_of_whole .abort whole.1, ih whole.2, recordsFrom_cons]

/-- The reading that does not skip ends at the first malformed line. -/
theorem readLinesFrom_abort_of_fault {error : InputError} {later : List InputError}
    (faults : faultsFrom number lines = error :: later) :
    ∃ before raw after, lines = before ++ raw :: after ∧ faultsFrom number before = [] ∧
      faultOn? (raw, number + before.length) = some error ∧
      readLinesFrom .abort number lines =
        { records := recordsFrom number before, error := some error } := by
  induction lines generalizing number with
  | nil => cases faults
  | cons raw lines ih =>
      rw [faultsFrom_cons] at faults
      cases h : faultOn? (raw, number) with
      | none =>
          rw [h] at faults
          obtain ⟨before, next, after, rfl, whole, fault, read⟩ := ih faults
          refine ⟨raw :: before, next, after, rfl, ?_, ?_, ?_⟩
          · rw [faultsFrom_cons, h, whole]
            rfl
          · rwa [List.length_cons, Nat.add_comm _ 1, ← Nat.add_assoc]
          · rw [readLinesFrom_cons_of_whole .abort h, read, recordsFrom_cons]
      | some first =>
          rw [h] at faults
          cases faults
          exact ⟨[], raw, lines, rfl, rfl, h, readLinesFrom_cons_of_fault .abort h⟩

end

theorem decode_data_eq_ok_iff {content : Content} {text : String} :
    content.decode = .ok text ↔ content.data.toByteArray = text.toByteArray := by
  cases content with
  | text s =>
      rw [Content.decode, Content.data, Utf8.toByteArray_toList, Except.ok.injEq]
      exact String.toByteArray_inj.symm
  | bytes data => exact Utf8.decode_eq_ok_iff

section

variable {files : FileTree} {shown : String} {content : Content}

theorem readLog_of_text (stored : files.read (Path.ofText shown) = .ok content) {text : String}
    (encoded : content.data.toByteArray = text.toByteArray) (policy : MalformedPolicy) :
    readLog files shown policy = readLinesFrom policy 1 (linesOf text) := by
  have decoded := decode_data_eq_ok_iff.mpr encoded
  have log : logText files shown = .ok (String.ofList (unifyNewlines text.toList)) := by
    rw [logText, FileTree.readText, stored]
    simp only [ok_bind, mapError_ok, decoded, pure_eq_ok]
  rw [readLog, log]
  dsimp only
  rw [readText, linesOf_unifyNewlines, readLines]

theorem readLog_of_no_text (stored : files.read (Path.ofText shown) = .ok content)
    (broken : ¬ content.data.toByteArray.IsValidUTF8) :
    ∃ error : InputError, error.line? = none ∧
      ∀ policy, readLog files shown policy = { error := some error } := by
  have undecoded : ∀ text, content.decode ≠ .ok text := by
    intro text decoded
    rw [decode_data_eq_ok_iff.mp decoded] at broken
    exact broken text.isValidUTF8
  cases h : content.decode with
  | ok text => exact absurd h (undecoded text)
  | error fault =>
      refine ⟨.unreadable shown (ReadError.decoding fault).message, rfl, fun policy => ?_⟩
      have log : logText files shown =
          .error (.unreadable shown (ReadError.decoding fault).message) := by
        rw [logText, FileTree.readText, stored]
        simp only [ok_bind, mapError_ok, mapError_error, error_bind, h]
      rw [readLog, log]

/-- What the two policies make of a file that can be read. Bytes that are no text are refused by both.
Otherwise the one reads every line that is neither blank nor malformed, and warns of each malformed one;
the other does the same if there is none, and else ends at the first with the records before it. -/
theorem readLog_policies_agree (stored : files.read (Path.ofText shown) = .ok content) :
    (¬ content.data.toByteArray.IsValidUTF8 → ∃ error : InputError, error.line? = none ∧
      ∀ policy, readLog files shown policy = { error := some error }) ∧
    ∀ text : String, content.data.toByteArray = text.toByteArray →
      readLog files shown .skip =
        { records := recordsFrom 1 (linesOf text)
          notices := (faultsFrom 1 (linesOf text)).map skippedLine } ∧
      (faultsFrom 1 (linesOf text) = [] →
        readLog files shown .abort = { records := recordsFrom 1 (linesOf text) }) ∧
      ∀ error later, faultsFrom 1 (linesOf text) = error :: later →
        ∃ before raw after, linesOf text = before ++ raw :: after ∧ faultsFrom 1 before = [] ∧
          faultOn? (raw, before.length + 1) = some error ∧ error.line? = some (before.length + 1) ∧
          readLog files shown .abort =
            { records := recordsFrom 1 before, error := some error } := by
  refine ⟨readLog_of_no_text stored, fun text encoded => ?_⟩
  simp only [readLog_of_text stored encoded]
  refine ⟨readLinesFrom_skip 1 _, readLinesFrom_abort_of_whole, fun error later faults => ?_⟩
  obtain ⟨before, raw, after, cut, whole, fault, read⟩ := readLinesFrom_abort_of_fault faults
  rw [Nat.add_comm] at fault
  exact ⟨before, raw, after, cut, whole, fault, line?_of_faultOn? fault, read⟩

end

/-- A log whose second line is blank and whose third is malformed. -/
def mixedLines : String :=
  "\x7b\"query\": \"a\"\x7d\n \r\n[]\n\x7b\"query\": \"b\"\x7d"

theorem mixedLines_policies_agree :
    let files : FileTree := { entries := [(["log"], .file (.text mixedLines) false)] }
    (readLog files "log" .skip).records.map Record.query = ["a", "b"] ∧
      (readLog files "log" .skip).notices = [skippedLine (.malformed (some 3) .notAnObject)] ∧
      (readLog files "log" .abort).error = some (.malformed (some 3) .notAnObject) := by
  intro files
  have stored : files.read (Path.ofText "log") = .ok (.text mixedLines) := rfl
  obtain ⟨skip, -, abort⟩ :=
    (readLog_policies_agree stored).2 mixedLines (Utf8.toByteArray_toList _)
  obtain ⟨before, raw, after, -, -, -, -, read⟩ :=
    abort (.malformed (some 3) .notAnObject) [] (by decide)
  rw [skip, read]
  exact ⟨by decide, by decide, rfl⟩

end QueryHarvest.Capture
