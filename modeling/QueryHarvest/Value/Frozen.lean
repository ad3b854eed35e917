import QueryHarvest.Json.Writer

/-! # Frozen values

A value becomes fixed before it is collected: arrays become tuples and objects their canonical JSON
text. Sameness of fixed values goes by content, numbers of every kind by what they denote. -/

namespace QueryHarvest

open Number

/-- Why a value serves as no key. -/
inductive KeyError where
  /-- The value can be changed in place. -/
  | mutableBytes
  /-- The value is a signalling not-a-number. -/
  | signallingNan
  deriving DecidableEq, Repr

def KeyError.message : KeyError → String
  | .mutableBytes => "unhashable type: 'bytearray'"
  | .signallingNan => "Cannot hash a signaling NaN value."

namespace Value

mutual

/-- Arrays to tuples, objects to their canonical JSON text. -/
def freeze : Value → Value
  | .list items => .tuple (freezeAll items)
  | .tuple items => .tuple (freezeAll items)
  | .object fields => .text (Json.canonical (.object fields))
  | value => value

/-- `freeze` on every item. -/
def freezeAll : List Value → List Value
  | [] => []
  | item :: rest => item.freeze :: freezeAll rest

end

mutual

/-- The first reason, from left to right, why a fixed value serves as no key. -/
def keyError? : Value → Option KeyError
  | .buffer _ => some .mutableBytes
  | .decimal (.nan _ true _ _) => some .signallingNan
  | .tuple items => keyErrorIn? items
  | _ => none

def keyErrorIn? : List Value → Option KeyError
  | [] => none
  | item :: rest => item.keyError? <|> keyErrorIn? rest

end

/-- The occurrence of a value that is not a number. -/
def nanOccurrence? : Value → Option Occurrence
  | .float (.nan occurrence) => some occurrence
  | .decimal (.nan _ _ _ occurrence) => some occurrence
  | _ => none

/-- Are two values without parts the same? Numbers of every kind, truth values included, are compared
by what they denote, and not-a-numbers by their occurrence. -/
def sameScalar : Value → Value → Bool
  | .null, .null => true
  | .text a, .text b => a == b
  | .bytes a, .bytes b => a == b
  | .buffer a, .buffer b => a == b
  | .uuid a, .uuid b => a == b
  | .date a, .date b => a == b
  | .time a, .time b => a.same b
  | .dateTime a, .dateTime b => a.same b
  | a, b =>
    match a.number?, b.number? with
    | some x, some y => x == y
    | none, none =>
      match a.nanOccurrence?, b.nanOccurrence? with
      | some x, some y => x == y
      | _, _ => false
    | _, _ => false

mutual

def same : Value → Value → Bool
  | .tuple as, .tuple bs => sameAll as bs
  | a, b => sameScalar a b

/-- Are two rows of values the same item by item? -/
def sameAll : List Value → List Value → Bool
  | [], [] => true
  | a :: as, b :: bs => a.same b && sameAll as bs
  | _, _ => false

end

/-- The rank of a value's kind: null, truth value, number, text, array, and all else. -/
def rank : Value → Nat
  | .null => 0
  | .bool _ => 1
  | .int _ => 2
  | .float _ => 2
  | .text _ => 3
  | .list _ => 4
  | .tuple _ => 4
  | _ => 5

/-- Are two values collected as one? Their kinds must agree at the top; inside arrays only sameness
counts. -/
def merges (a b : Value) : Bool :=
  a.rank == b.rank && a.same b

end Value

end QueryHarvest
