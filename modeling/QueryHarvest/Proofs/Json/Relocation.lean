import QueryHarvest.Proofs.Json.Reading
import QueryHarvest.Proofs.Json.Steps

/-! # Reading on another line

The number of the line that a text stands on is kept in the not-a-numbers that are read, and changes
nothing else.
-/

namespace QueryHarvest

open Number

namespace Number

/-- The same number, read on another line. -/
def Binary64.onLine (line : Nat) : Binary64 → Binary64
  | .nan occurrence => .nan { occurrence with line }
  | x => x

@[simp] theorem Binary64.onLine_ofMagnitude (line : Nat) (negative : Bool) (q : Rat) :
    (ofMagnitude negative q).onLine line = ofMagnitude negative q := by
  unfold ofMagnitude
  rw [apply_ite (onLine line)]
  exact if_congr Iff.rfl rfl (apply_ite (onLine line) ..)

@[simp] theorem Binary64.onLine_ofDecimal (line : Nat) (negative : Bool) (digits : Nat) (exponent : Int) :
    (ofDecimal negative digits exponent).onLine line = ofDecimal negative digits exponent := by
  unfold ofDecimal
  dsimp only
  repeat' split
  all_goals first | rfl | exact onLine_ofMagnitude ..

end Number

namespace Value

mutual

/-- The same value, read on another line. -/
def onLine (line : Nat) : Value → Value
  | .float x => .float (x.onLine line)
  | .list items => .list (allOnLine line items)
  | .tuple items => .tuple (allOnLine line items)
  | .object fields => .object (fieldsOnLine line fields)
  | value => value

/-- `onLine` of every item. -/
def allOnLine (line : Nat) : List Value → List Value
  | [] => []
  | item :: rest => item.onLine line :: allOnLine line rest

/-- `onLine` of the value of every field. -/
def fieldsOnLine (line : Nat) : List (String × Value) → List (String × Value)
  | [] => []
  | (key, item) :: rest => (key, item.onLine line) :: fieldsOnLine line rest

end

@[simp] theorem allOnLine_eq (line : Nat) (items : List Value) :
    allOnLine line items = items.map (onLine line) := by
  induction items with
  | nil => rfl
  | cons item rest ih => rw [allOnLine, ih, List.map_cons]

@[simp] theorem fieldsOnLine_eq (line : Nat) (fields : List (String × Value)) :
    fieldsOnLine line fields = fields.map fun field => (field.1, field.2.onLine line) := by
  induction fields with
  | nil => rfl
  | cons field rest ih => rw [fieldsOnLine, ih, List.map_cons]

end Value

namespace Json

def Frame.onLine (line : Nat) : Frame → Frame
  | .array items => .array (items.map (Value.onLine line))
  | .object fields => .object (Value.fieldsOnLine line fields)
  | .field fields key => .field (Value.fieldsOnLine line fields) key

def Token.onLine (line : Nat) : Token → Token
  | .scalar value => .scalar (value.onLine line)
  | token => token

def Progress.onLine (line : Nat) : Progress → Progress
  | .unfinished expects frames => .unfinished expects (frames.map (Frame.onLine line))
  | .complete value => .complete (value.onLine line)

section

variable (line : Nat) {frames : List Frame} {progress next : Progress} {token : Token} {value : Value}

theorem setField_onLine (key : String) (value : Value) (fields : List (String × Value)) :
    setField key (value.onLine line) (Value.fieldsOnLine line fields) =
      Value.fieldsOnLine line (setField key value fields) := by
  simp only [setField, Value.fieldsOnLine_eq, List.any_map, Function.comp_def]
  split
  · simp only [List.map_map, Function.comp_def]
    refine List.map_congr_left fun field _ => ?_
    split <;> rfl
  · rfl

theorem put_onLine (taken : put frames value = some next) :
    put (frames.map (Frame.onLine line)) (value.onLine line) = some (next.onLine line) := by
  cases frames with
  | nil =>
      cases taken
      rfl
  | cons frame frames =>
      cases frame with
      | array | object =>
          cases taken
          try rfl
      | field fields key =>
          cases taken
          simp only [List.map_cons, Frame.onLine, put, setField_onLine]
          rfl

theorem begin?_onLine (taken : begin? frames token = some next) :
    begin? (frames.map (Frame.onLine line)) (token.onLine line) = some (next.onLine line) := by
  cases token with
  | scalar value => exact put_onLine line taken
  | openArray | openObject =>
      simp only [begin?] at taken
      split at taken
      · next room =>
        cases taken
        simp only [Token.onLine, begin?, List.length_map, room, if_true]
        rfl
      · cases taken
  | closeArray | closeObject | comma | colon => cases taken

theorem awaits_take? (h : Awaits progress frames) (taken : begin? frames token = some next) :
    progress.take? token = some next := by
  cases token with
  | scalar value => rwa [take?_scalar h]
  | openArray | openObject => rcases h with rfl | rfl <;> simpa [Progress.take?] using taken
  | closeArray | closeObject | comma | colon => cases taken

/-- What a token does on one line it does on another. -/
theorem take?_onLine (taken : progress.take? token = some next) :
    (progress.onLine line).take? (token.onLine line) = some (next.onLine line) := by
  unfold Progress.take? at taken
  split at taken
  · cases taken
  · exact put_onLine line taken
  · exact put_onLine line taken
  · exact awaits_take? (.inl rfl) (begin?_onLine line taken)
  · exact awaits_take? (.inr rfl) (begin?_onLine line taken)
  · cases taken
    rfl
  · have closed := put_onLine line taken
    rw [Value.onLine, Value.allOnLine_eq, List.map_reverse] at closed
    exact closed
  · cases taken
    rfl
  · have closed := put_onLine line taken
    rw [Value.onLine, Value.fieldsOnLine_eq, List.map_reverse, ← Value.fieldsOnLine_eq] at closed
    exact closed
  · cases taken
    rfl
  · cases taken
    simp [Progress.onLine, Frame.onLine, Token.onLine, Value.onLine, Progress.take?]
  · cases taken
    rfl
  · cases taken

end

theorem number?_onLine (line : Nat) {chars : List Char} {value : Value}
    (read : number? chars = some value) : value.onLine line = value := by
  simp only [number?] at read
  repeat' split at read
  all_goals first
    | cases read; done
    | cases read; rfl
    | cases read; exact congrArg Value.float (Binary64.onLine_ofDecimal ..)

theorem bare?_onLine (line : Nat) {occurrence : Occurrence} {chars : List Char} {value : Value}
    (read : bare? occurrence chars = some value) :
    bare? { occurrence with line } chars = some (value.onLine line) := by
  unfold bare? at read ⊢
  split at read
  case h_7 => rw [number?_onLine line read, ← read]
  all_goals
    cases read
    rfl

namespace Reader

/-- The same state, on another line. -/
def onLine (line : Nat) (r : Reader) : Reader :=
  { r with progress := r.progress.onLine line, line }

section

variable (line : Nat) {r next : Reader} {c : Char} {chars : List Char}

theorem emit_onLine {token : Token} (read : r.emit token = some next) :
    (r.onLine line).emit (token.onLine line) = some (next.onLine line) := by
  obtain ⟨progress, taken, same⟩ := Option.bind_eq_some_iff.mp read
  cases same
  exact emit_of_take? (take?_onLine line taken)

theorem begin_onLine (read : r.begin c = some next) :
    (r.onLine line).begin c = some (next.onLine line) := by
  cases kind : kindOf c with
  | blank | quote | word =>
      rw [begin_eq, kind] at read ⊢
      cases read
      rfl
  | mark token =>
      have apart : token.onLine line = token := by
        cases token with
        | scalar value => exact absurd rfl (mark_ne_scalar kind value)
        | openArray | closeArray | openObject | closeObject | comma | colon => rfl
      rw [begin_eq, kind] at read ⊢
      exact apart ▸ emit_onLine line read

theorem endBare_onLine (read : r.endBare chars = some next) :
    (r.onLine line).endBare chars = some (next.onLine line) := by
  obtain ⟨value, word, read⟩ := Option.bind_eq_some_iff.mp read
  obtain ⟨after, emitted, same⟩ := Option.bind_eq_some_iff.mp read
  cases same
  refine Option.bind_eq_some_iff.mpr ⟨_, bare?_onLine line word, ?_⟩
  exact Option.bind_eq_some_iff.mpr ⟨_, emit_onLine line emitted, rfl⟩

theorem endUnicode_onLine {high : Option Nat} {unit : Nat}
    (read : r.endUnicode chars high unit = some next) :
    (r.onLine line).endUnicode chars high unit = some (next.onLine line) := by
  unfold endUnicode at read ⊢
  cases high with
  | some high =>
      dsimp only at read ⊢
      split at read
      · next low =>
        cases read
        rw [if_pos low]
        rfl
      · cases read
  | none =>
      dsimp only at read ⊢
      split at read
      · next surrogate =>
        cases read
        rw [if_pos surrogate]
        rfl
      · next single =>
        rw [if_neg single]
        split at read
        · cases read
        · next plain =>
          cases read
          rw [if_neg plain]
          rfl

theorem step_onLine (read : r.step c = some next) :
    (r.onLine line).step c = some (next.onLine line) := by
  obtain ⟨mode, progress, number, scalars⟩ := r
  cases mode with
  | between => exact begin_onLine line read
  | bare chars =>
      simp only [step] at read
      split at read
      · next ends =>
        obtain ⟨after, ended, read⟩ := Option.bind_eq_some_iff.mp read
        have ended := endBare_onLine line ended
        simp only [step, onLine, ends, if_true]
        exact Option.bind_eq_some_iff.mpr ⟨_, ended, begin_onLine line read⟩
      · next inside =>
        cases read
        simp only [step, onLine, inside]
        rfl
  | string chars =>
      simp only [step] at read
      split at read
      · next quote =>
        simp only [step, onLine, quote, if_true]
        exact emit_onLine line read
      · next inside =>
        simp only [step, onLine, inside]
        split at read
        · next escapes =>
          cases read
          simp [escapes]
        · next plain =>
          split at read <;> cases read
          simp [*]
  | escape chars =>
      simp only [step] at read
      split at read
      · next unicode =>
        cases read
        simp only [step, onLine, unicode, if_true]
      · next simple =>
        obtain ⟨e, stands, rfl⟩ := Option.map_eq_some_iff.mp read
        simp [step, onLine, simple, stands]
  | unicode chars high count value =>
      simp only [step] at read
      split at read
      · cases read
      · next digit hex =>
        simp only [step, onLine, hex]
        split at read
        · next last =>
          rw [if_pos last]
          exact endUnicode_onLine line read
        · next more =>
          cases read
          rw [if_neg more]
  | afterHigh chars high =>
      simp only [step] at read
      split at read <;> cases read
      simp [step, onLine, *]
  | escapeAfterHigh chars high =>
      simp only [step] at read
      split at read <;> cases read
      simp [step, onLine, *]

theorem run_onLine (read : r.run chars = some next) :
    (r.onLine line).run chars = some (next.onLine line) := by
  induction chars generalizing r with
  | nil =>
      cases read
      rfl
  | cons c chars ih =>
      rw [run_cons] at read
      obtain ⟨after, first, read⟩ := Option.bind_eq_some_iff.mp read
      rw [run_cons, step_onLine line first, Option.bind_some, ih read]

theorem finish_onLine {value : Value} (read : r.finish = some value) :
    (r.onLine line).finish = some (value.onLine line) := by
  obtain ⟨last, settles, complete⟩ := finish_eq_some_iff.mp read
  refine finish_eq_some_iff.mpr ⟨last.onLine line, ?_, ?_⟩
  · cases settles with
    | between mode => exact .between mode
    | word mode ended => exact .word mode (endBare_onLine line ended)
  · rw [onLine, complete]
    rfl

end

end Reader

/-- What is read on one line is read on another. -/
theorem read?_onLine (line : Nat) {number : Nat} {text : String} {value : Value}
    (read : read? number text = some value) : read? line text = some (value.onLine line) := by
  obtain ⟨last, run, read⟩ := Option.bind_eq_some_iff.mp read
  exact Option.bind_eq_some_iff.mpr ⟨_, Reader.run_onLine line run, Reader.finish_onLine line read⟩

end Json

end QueryHarvest
