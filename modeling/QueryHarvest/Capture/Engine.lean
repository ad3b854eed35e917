import QueryHarvest.Capture.Recorder

/-! # Recording at an engine

Before each execution an engine calls the listeners that are registered with it, each as often as it is
registered. Starting a recorder registers its listener, and stopping the recorder removes it. -/

namespace QueryHarvest.Capture

/-- How an engine keeps the listener of a recorder: it is registered, it is removed, and it is
registered so many times. -/
structure Listening (Listeners : Type) where
  listen : Listeners → Listeners
  remove : Listeners → Listeners
  count : Listeners → Nat

/-- Listeners that are told apart by name, in the order of their registration. One that is registered
is not registered again. -/
def Listening.named (name : String) : Listening (List String) where
  listen listeners := if listeners.contains name then listeners else listeners ++ [name]
  remove listeners := listeners.erase name
  count listeners := listeners.count name

/-- Call the listener of a recorder so many times with the sets of parameters of an execution, up to
the first error. -/
def Recorder.notify (r : Recorder) (statement : String) (sets : List Value) :
    Nat → Recorder × Option RecordError
  | 0 => (r, none)
  | times + 1 =>
    match r.recordAll statement sets with
    | (r, some error) => (r, some error)
    | (r, none) => r.notify statement sets times

/-- A recorder with the listeners of its engine. -/
structure Attached (Listeners : Type) where
  recorder : Recorder
  listeners : Listeners

namespace Attached

variable {Listeners : Type} (engine : Listening Listeners) (a : Attached Listeners)

def start : Noted (Attached Listeners) :=
  let started := a.recorder.start
  let listeners := if a.recorder.isCapturing then a.listeners else engine.listen a.listeners
  ⟨⟨started.value, listeners⟩, started.notices⟩

def stop : Noted (Attached Listeners) :=
  let stopped := a.recorder.stop
  let listeners := if a.recorder.isCapturing then engine.remove a.listeners else a.listeners
  ⟨⟨stopped.value, listeners⟩, stopped.notices⟩

/-- The engine is about to execute a statement, once or many times, and calls its listeners. -/
def execute (statement : String) (parameters : Value) (many : Bool) :
    Attached Listeners × Option RecordError :=
  let sets := Recorder.parameterSets many parameters
  let (recorder, error) := a.recorder.notify statement sets (engine.count a.listeners)
  ({ a with recorder }, error)

end Attached

end QueryHarvest.Capture
