import QueryHarvest.Number.Binary64

/-! # Clock readings

A clock tells seconds, whole ones or with a fraction; records hold whole milliseconds. -/

namespace QueryHarvest.Capture

open Number

/-- What a clock shows, in seconds. -/
inductive ClockReading where
  | whole (seconds : Int)
  | real (seconds : Binary64)
  deriving DecidableEq, Repr

/-- Why a reading gives no milliseconds. -/
inductive ClockError where
  | notANumber
  | infinite
  deriving DecidableEq, Repr

def ClockError.message : ClockError → String
  | .notANumber => "cannot convert float NaN to integer"
  | .infinite => "cannot convert float infinity to integer"

def truncate (q : Rat) : Int :=
  q.num.tdiv q.den

/-- The milliseconds of a reading. A real number of seconds is multiplied and rounded before its
fraction is dropped. -/
def ClockReading.milliseconds : ClockReading → Except ClockError Binary64
  | .whole seconds => .ok (Binary64.ofInt (seconds * 1000))
  | .real seconds =>
    match seconds with
    | .nan _ => .error .notANumber
    | .infinite _ => .error .infinite
    | seconds@(.finite ..) =>
      match Binary64.ofRat ((seconds.toRat?.getD 0) * 1000) with
      | .finite negative mantissa exponent =>
        .ok (Binary64.ofInt (truncate (((Binary64.finite negative mantissa exponent).toRat?).getD 0)))
      | _ => .error .infinite

end QueryHarvest.Capture
