import QueryHarvest.Capture.Engine
import QueryHarvest.Proofs.Outcome

/-! # What a recorder has captured

While a recorder captures, its listener is registered with the engine once, and otherwise not at all.
Its records are those of the executions while it captured and of the calls to record, in their order,
since it was last cleared.
-/

namespace QueryHarvest.Capture

/-- A statement with the parameters of one execution. -/
abbrev RecordCall := String × Value

/-- Does the call leave a record? Its statement must not be blank, and its parameters must be such
that they can be stored. -/
def RecordCall.isRecorded (call : RecordCall) : Bool :=
  !(Text.trim call.1.toList).isEmpty && (Recorder.stored call.1 call.2).isOk

/-- The record holds the statement and the parameters of the call as they are stored, and a time that
the clock showed. -/
structure IsRecordOf (clock : Nat → ClockReading) (call : RecordCall) (record : Record) : Prop where
  stored : Recorder.stored call.1 call.2 = .ok (record.query, record.parameters)
  timed : ∃ tick time, (clock tick).milliseconds = .ok time ∧ record.timestamp = some time

/-- The clock shows a time whenever it is read. -/
def Readable (clock : Nat → ClockReading) : Prop :=
  ∀ tick, ∃ time, (clock tick).milliseconds = .ok time

namespace Recorder

variable {r : Recorder} {statement : String}

/-- From the one state of a recorder to the other some calls were recorded, and nothing else. -/
structure Records (r : Recorder) (calls : List RecordCall) (after : Recorder) : Prop where
  clock : after.clock = r.clock
  capturing : after.isCapturing = r.isCapturing
  records : ∃ made, after.records = r.records ++ made ∧
    List.Forall₂ (IsRecordOf r.clock) (calls.filter RecordCall.isRecorded) made

theorem Records.refl (r : Recorder) : r.Records [] r :=
  ⟨rfl, rfl, [], (List.append_nil _).symm, .nil⟩

theorem Records.trans {between after : Recorder} {calls later : List RecordCall}
    (h : r.Records calls between) (next : between.Records later after) :
    r.Records (calls ++ later) after := by
  obtain ⟨first, grown, firstOf⟩ := h.records
  obtain ⟨second, grownAgain, secondOf⟩ := next.records
  refine ⟨next.clock.trans h.clock, next.capturing.trans h.capturing, first ++ second, ?_, ?_⟩
  · rw [grownAgain, grown, List.append_assoc]
  · rw [List.filter_append]
    exact List.rel_append firstOf (h.clock ▸ secondOf)

/-- A call that is refused leaves the records as they were. -/
theorem records_of_record_error {parameters : Value} {error : RecordError}
    (refused : (r.record statement parameters).2 = .error error) :
    (r.record statement parameters).1.records = r.records := by
  unfold record at refused ⊢
  split
  · rfl
  split
  · rfl
  · next blank _ _ _ stored =>
    simp only [blank, stored] at refused
    split
    · rfl
    · next read =>
      simp only [read] at refused
      cases refused

/-- A call is recorded if it leaves a record, and otherwise changes nothing. -/
theorem records_record (readable : Readable r.clock) (call : RecordCall) :
    r.Records [call] (r.record call.1 call.2).1 := by
  obtain ⟨time, read⟩ := readable r.ticks
  unfold record
  split
  · next blank =>
    have passedOver : call.isRecorded = false := by simp [RecordCall.isRecorded, blank]
    exact ⟨rfl, rfl, [], by simp [passedOver]⟩
  · next filled =>
    split
    · next refused =>
      have passedOver : call.isRecorded = false := by simp [RecordCall.isRecorded, refused, Except.isOk,
        Except.toBool]
      exact ⟨rfl, rfl, [], by simp [passedOver]⟩
    · next query parameters stored =>
      have recorded : call.isRecorded = true := by simp [RecordCall.isRecorded, filled, stored, Except.isOk,
        Except.toBool]
      simp only [read]
      refine ⟨rfl, rfl, [⟨query, parameters, some time⟩], rfl, ?_⟩
      rw [List.filter_cons_of_pos recorded]
      exact .cons ⟨stored, r.ticks, time, read, rfl⟩ .nil

/-- The statement can be recorded with each of the sets of parameters. -/
def Storable (statement : String) (sets : List Value) : Prop :=
  ∀ parameters ∈ sets, (stored statement parameters).isOk

instance (statement : String) (sets : List Value) : Decidable (Storable statement sets) :=
  inferInstanceAs (Decidable (∀ parameters ∈ sets, _))

theorem record_ok (readable : Readable r.clock) {parameters : Value}
    (storable : (stored statement parameters).isOk) :
    ∃ made, (r.record statement parameters).2 = .ok made := by
  obtain ⟨time, read⟩ := readable r.ticks
  obtain ⟨result, stores⟩ := exists_of_isOk storable
  unfold record
  split
  · exact ⟨_, rfl⟩
  · simp only [stores, read]
    exact ⟨_, rfl⟩

/-- An execution with parameters that can be stored is recorded with every set of them. -/
theorem records_recordAll (readable : Readable r.clock) {sets : List Value}
    (storable : Storable statement sets) :
    (r.recordAll statement sets).2 = none ∧
      r.Records (sets.map (statement, ·)) (r.recordAll statement sets).1 := by
  induction sets generalizing r with
  | nil => exact ⟨rfl, .refl r⟩
  | cons parameters sets ih =>
      obtain ⟨first, others⟩ := List.forall_mem_cons.mp storable
      obtain ⟨made, ok⟩ := record_ok readable first
      have one := records_record readable (statement, parameters)
      obtain ⟨complete, later⟩ := ih (r := (r.record statement parameters).1)
        (by rwa [one.clock]) others
      have step : r.recordAll statement (parameters :: sets) =
          (r.record statement parameters).1.recordAll statement sets := by
        rw [recordAll, ← Prod.mk.eta (p := r.record statement parameters), ok]
      rw [step, List.map_cons]
      exact ⟨complete, one.trans later⟩

end Recorder

/-- Listening does what it says: a listener that is registered for the first time is registered once,
and no more when it is removed again. -/
structure Listening.Lawful {Listeners : Type} (engine : Listening Listeners) : Prop where
  count_listen : ∀ listeners, engine.count listeners = 0 → engine.count (engine.listen listeners) = 1
  count_remove : ∀ listeners, engine.count listeners = 1 → engine.count (engine.remove listeners) = 0

theorem Listening.lawful_named (name : String) : (named name).Lawful where
  count_listen listeners absent := by
    have fresh : name ∉ listeners := List.count_eq_zero.mp absent
    simp [named, fresh, List.count_eq_zero.mpr fresh]
  count_remove listeners once := by
    have counted : listeners.count name = 1 := once
    simp only [named, List.count_erase_self, counted]

/-- What happens to a recorder. -/
inductive Action where
  | start
  | stop
  | clear
  | record (statement : String) (parameters : Value)
  /-- The engine executes a statement, once or many times. -/
  | execute (statement : String) (parameters : Value) (many : Bool)

namespace Action

/-- Whether the recorder is switched on or off. -/
def switch? : Action → Option Bool
  | .start => some true
  | .stop => some false
  | _ => none

def isClear : Action → Bool
  | .clear => true
  | _ => false

/-- Was the recorder started since it was last stopped? -/
def startedIn (actions : List Action) : Bool :=
  (actions.filterMap switch?).getLast?.getD false

/-- The calls to record that an action gives rise to, after the actions before it. -/
def calls (before : List Action) : Action → List RecordCall
  | .record statement parameters => [(statement, parameters)]
  | .execute statement parameters many =>
    if startedIn before then (Recorder.parameterSets many parameters).map (statement, ·) else []
  | _ => []

/-- The calls that some actions give rise to, without those that are cleared later. -/
def callsFrom (before : List Action) : List Action → List RecordCall
  | [] => []
  | action :: later =>
    (if later.any isClear then [] else action.calls before) ++ callsFrom (before ++ [action]) later

/-- The calls to record since the recorder was last cleared. -/
def callsIn (actions : List Action) : List RecordCall :=
  callsFrom [] actions

/-- All parameters of an execution can be stored. -/
def Convertible : Action → Prop
  | .execute statement parameters many =>
    Recorder.Storable statement (Recorder.parameterSets many parameters)
  | _ => True

instance : (action : Action) → Decidable action.Convertible
  | .execute statement parameters many =>
    inferInstanceAs (Decidable (Recorder.Storable statement (Recorder.parameterSets many parameters)))
  | .start | .stop | .clear | .record .. => inferInstanceAs (Decidable True)

@[simp] theorem startedIn_append_singleton (before : List Action) (action : Action) :
    startedIn (before ++ [action]) = action.switch?.getD (startedIn before) := by
  rw [startedIn, List.filterMap_append, startedIn]
  cases action <;> simp [switch?]

theorem callsFrom_append_singleton (before actions : List Action) (action : Action) :
    callsFrom before (actions ++ [action]) =
      if action.isClear then [] else callsFrom before actions ++ action.calls (before ++ actions) := by
  induction actions generalizing before with
  | nil => cases action <;> simp [callsFrom, isClear, calls]
  | cons first actions ih =>
      rw [List.cons_append, callsFrom, ih, callsFrom]
      by_cases clears : action.isClear <;> simp [clears]

@[simp] theorem callsIn_append_singleton (actions : List Action) (action : Action) :
    callsIn (actions ++ [action]) =
      if action.isClear then [] else callsIn actions ++ action.calls actions := by
  simpa [callsIn] using callsFrom_append_singleton [] actions action

end Action

namespace Attached

variable {Listeners : Type} {engine : Listening Listeners} {a : Attached Listeners}
  {clock : Nat → ClockReading} {actions : List Action}

/-- The recorder and its engine after an action. -/
def act (engine : Listening Listeners) (a : Attached Listeners) : Action → Attached Listeners
  | .start => (a.start engine).value
  | .stop => (a.stop engine).value
  | .clear => { a with recorder := a.recorder.clear }
  | .record statement parameters => { a with recorder := (a.recorder.record statement parameters).1 }
  | .execute statement parameters many => (a.execute engine statement parameters many).1

/-- The recorder and its engine after some actions. -/
def run (engine : Listening Listeners) (a : Attached Listeners) (actions : List Action) :
    Attached Listeners :=
  actions.foldl (act engine) a

/-- A recorder that is registered as it should be is told of an execution just while it captures. -/
theorem execute_eq_observe (registered : engine.count a.listeners = a.recorder.isCapturing.toNat)
    (statement : String) (parameters : Value) (many : Bool) :
    a.execute engine statement parameters many =
      ({ a with recorder := (a.recorder.observe statement parameters many).1 },
        (a.recorder.observe statement parameters many).2) := by
  rw [execute, Recorder.observe, registered]
  cases a.recorder.isCapturing with
  | false => rfl
  | true =>
      simp only [Bool.toNat_true, Recorder.notify, if_true]
      split
      · next ended => rw [ended]
      · next ended => rw [ended]

/-- A recorder that stands as some actions have left it: it captures if it was started since it was last
stopped, is registered once if it captures, and holds the records of the calls that were not cleared. -/
structure Reflects (engine : Listening Listeners) (clock : Nat → ClockReading) (actions : List Action)
    (a : Attached Listeners) : Prop where
  timedBy : a.recorder.clock = clock
  capturing : a.recorder.isCapturing = Action.startedIn actions
  registered : engine.count a.listeners = a.recorder.isCapturing.toNat
  records : List.Forall₂ (IsRecordOf clock) ((Action.callsIn actions).filter RecordCall.isRecorded)
    a.recorder.records

/-- Calls that are recorded are reflected as the action that gave rise to them. -/
theorem Reflects.append (h : a.Reflects engine clock actions) {action : Action} {recorder : Recorder}
    (records : a.recorder.Records (action.calls actions) recorder)
    (steady : action.switch? = none) (kept : action.isClear = false) :
    Reflects engine clock (actions ++ [action]) { a with recorder } where
  timedBy := records.clock.trans h.timedBy
  capturing := by
    rw [Action.startedIn_append_singleton, steady, Option.getD_none, ← h.capturing]
    exact records.capturing
  registered := by
    rw [records.capturing]
    exact h.registered
  records := by
    obtain ⟨made, grown, recordsOf⟩ := records.records
    rw [grown, Action.callsIn_append_singleton, kept, if_neg Bool.false_ne_true, List.filter_append]
    exact List.rel_append h.records (h.timedBy ▸ recordsOf)

/-- An action leaves a recorder that reflects the actions before it so that it reflects this one too. -/
theorem reflects_act (lawful : engine.Lawful) (readable : Readable clock)
    (h : a.Reflects engine clock actions) {action : Action} (convertible : action.Convertible) :
    (a.act engine action).Reflects engine clock (actions ++ [action]) := by
  have calls {switch : Action} (none : ∀ before, switch.calls before = []) (kept : switch.isClear = false) :
      Action.callsIn (actions ++ [switch]) = Action.callsIn actions := by
    rw [Action.callsIn_append_singleton, kept, none, List.append_nil]
    rfl
  cases action with
  | start =>
      have started : Action.startedIn (actions ++ [.start]) = true :=
        Action.startedIn_append_singleton actions .start
      simp only [act, start, Recorder.start]
      cases capturing : a.recorder.isCapturing with
      | true =>
          refine ⟨h.timedBy, capturing.trans started.symm, h.registered, ?_⟩
          rw [calls (fun _ => rfl) rfl]
          exact h.records
      | false =>
          have absent : engine.count a.listeners = 0 := by rw [h.registered, capturing]; rfl
          refine ⟨h.timedBy, started.symm, lawful.count_listen _ absent, ?_⟩
          rw [calls (fun _ => rfl) rfl]
          exact h.records
  | stop =>
      have stopped : Action.startedIn (actions ++ [.stop]) = false :=
        Action.startedIn_append_singleton actions .stop
      simp only [act, stop, Recorder.stop]
      cases capturing : a.recorder.isCapturing with
      | true =>
          have once : engine.count a.listeners = 1 := by rw [h.registered, capturing]; rfl
          refine ⟨h.timedBy, stopped.symm, lawful.count_remove _ once, ?_⟩
          rw [calls (fun _ => rfl) rfl]
          exact h.records
      | false =>
          refine ⟨h.timedBy, capturing.trans stopped.symm, h.registered, ?_⟩
          rw [calls (fun _ => rfl) rfl]
          exact h.records
  | clear =>
      refine ⟨h.timedBy, ?_, h.registered, ?_⟩
      · rw [Action.startedIn_append_singleton]
        exact h.capturing
      · rw [Action.callsIn_append_singleton]
        exact .nil
  | record statement parameters =>
      have readable : Readable a.recorder.clock := h.timedBy ▸ readable
      exact h.append (Recorder.records_record readable (statement, parameters)) rfl rfl
  | execute statement parameters many =>
      have readable : Readable a.recorder.clock := h.timedBy ▸ readable
      rw [act, execute_eq_observe h.registered]
      refine h.append ?_ rfl rfl
      rw [Recorder.observe, Action.calls, ← h.capturing]
      cases a.recorder.isCapturing with
      | true => exact (Recorder.records_recordAll readable convertible).2
      | false => exact .refl _

/-- A recorder reflects whatever happened since it was made. -/
theorem reflects_run (lawful : engine.Lawful) (readable : Readable clock) {listeners : Listeners}
    (fresh : engine.count listeners = 0) (convertible : ∀ action ∈ actions, action.Convertible) :
    (run engine ⟨{ clock }, listeners⟩ actions).Reflects engine clock actions := by
  induction actions using List.reverseRecOn with
  | nil => exact ⟨rfl, rfl, fresh, .nil⟩
  | append_singleton actions action ih =>
      rw [run, List.foldl_append]
      have before := ih fun other member => convertible other (List.mem_append_left _ member)
      exact reflects_act lawful readable before (convertible action (by simp))

/-- At every moment the listener of a recorder is registered once if the recorder captures and otherwise
not at all, and it captures if it was started since it was last stopped. Its records are those of the
calls to record and of the executions while it captured, since it was last cleared; a call that is refused
leaves them as they were. -/
theorem records_are_history (lawful : engine.Lawful) (readable : Readable clock)
    {listeners : Listeners} (fresh : engine.count listeners = 0)
    (convertible : ∀ action ∈ actions, action.Convertible) :
    let after := run engine ⟨{ clock }, listeners⟩ actions
    engine.count after.listeners = (if after.recorder.isCapturing then 1 else 0) ∧
      after.recorder.isCapturing = Action.startedIn actions ∧
      List.Forall₂ (IsRecordOf clock) ((Action.callsIn actions).filter RecordCall.isRecorded)
        after.recorder.records ∧
      ∀ statement parameters error, (after.recorder.record statement parameters).2 = .error error →
        (after.recorder.record statement parameters).1.records = after.recorder.records := by
  intro after
  have reflects : after.Reflects engine clock actions := reflects_run lawful readable fresh convertible
  refine ⟨?_, reflects.capturing, reflects.records, fun _ _ _ => Recorder.records_of_record_error⟩
  rw [reflects.registered]
  cases after.recorder.isCapturing <;> rfl

/-- A recorder that is started twice and cleared while it captures. -/
def restarted : List Action :=
  [.start, .start, .record "SELECT 1" .null, .clear,
    .execute "INSERT INTO t VALUES (?)" (.list [.tuple [.int 1], .tuple [.int 2]]) true, .stop,
    .execute "SELECT 2" .null false, .record " " .null, .record "SELECT ?" (.int 3)]

theorem restarted_records :
    (∀ action ∈ restarted, action.Convertible) ∧
      let insert := "INSERT INTO t VALUES (?)"
      let after := run (.named "capture") ⟨{ clock := fun _ => .whole 7 }, ["audit"]⟩ restarted
      after.listeners.count "capture" = 0 ∧ after.recorder.isCapturing = false ∧
        List.Forall₂ (IsRecordOf fun _ => .whole 7)
          [(insert, .tuple [.int 1]), (insert, .tuple [.int 2])] after.recorder.records := by
  have convertible : ∀ action ∈ restarted, action.Convertible := by decide
  have history := @records_are_history _ _ (fun _ => .whole 7) _ (Listening.lawful_named "capture")
    (fun _ => ⟨_, rfl⟩) ["audit"] (by decide) convertible
  have off : Action.startedIn restarted = false := rfl
  refine ⟨convertible, ?_, history.2.1.trans off, history.2.2.1⟩
  have count := history.1
  rwa [history.2.1, off] at count

end Attached

end QueryHarvest.Capture
