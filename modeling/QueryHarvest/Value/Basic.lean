import QueryHarvest.Number.Decimal
import QueryHarvest.Calendar
import QueryHarvest.Uuid

/-! # Values

The values bound to the parameters of a captured statement: what JSON can write, and the further kinds
that a database driver accepts. -/

namespace QueryHarvest

open Number

/-- A bound value. -/
inductive Value where
  | null
  | bool (b : Bool)
  | int (n : Int)
  | float (x : Binary64)
  | text (s : String)
  | decimal (d : Decimal)
  | bytes (data : List UInt8)
  /-- Bytes that can be changed in place, and so serve as no key. -/
  | buffer (data : List UInt8)
  | uuid (u : Uuid)
  | date (d : Date)
  | time (t : ClockTime)
  | dateTime (d : DateTime)
  | list (items : List Value)
  | tuple (items : List Value)
  | object (fields : List (String × Value))
  deriving Repr, Inhabited

namespace Value

/-- Does the value hold nothing: null, false, a zero, or something of length zero? -/
def isVoid : Value → Bool
  | .null => true
  | .bool b => !b
  | .int n => n == 0
  | .float x => x.isZero
  | .text s => s.isEmpty
  | .decimal d => d.isZero
  | .bytes data => data.isEmpty
  | .buffer data => data.isEmpty
  | .list items => items.isEmpty
  | .tuple items => items.isEmpty
  | .object fields => fields.isEmpty
  | _ => false

/-- A number with the two infinities. -/
inductive Extended where
  | negInfinity
  | number (q : Rat)
  | infinity
  deriving DecidableEq

/-- The place of an extended number among numbers. -/
def Extended.compare : Extended → Extended → Ordering
  | .negInfinity, .negInfinity => .eq
  | .negInfinity, _ => .lt
  | .infinity, .infinity => .eq
  | .infinity, _ => .gt
  | .number _, .negInfinity => .gt
  | .number _, .infinity => .lt
  | .number a, .number b => if a < b then .lt else if a = b then .eq else .gt

def floatNumber? : Binary64 → Option Extended
  | .nan _ => none
  | .infinite negative => some (if negative then .negInfinity else .infinity)
  | x@(.finite ..) => x.toRat?.map .number

/-- The number that a value denotes; truth values count as one and zero. -/
def number? : Value → Option Extended
  | .bool b => some (.number (if b then 1 else 0))
  | .int n => some (.number n)
  | .float x => floatNumber? x
  | .decimal (.infinite negative) => some (if negative then .negInfinity else .infinity)
  | .decimal d => d.toRat?.map .number
  | _ => none

end Value

end QueryHarvest
