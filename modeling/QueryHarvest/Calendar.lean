/-! # Dates and times

Calendar values as database drivers hand them over, and their standard text. -/

namespace QueryHarvest

def padded (width n : Nat) : String :=
  let digits := toString n
  String.ofList (List.replicate (width - digits.length) '0') ++ digits

/-- A day of the calendar. -/
structure Date where
  year : Nat
  month : Nat
  day : Nat
  deriving DecidableEq, Repr

/-- A time of day, with an offset from UTC in minutes if it has one. -/
structure ClockTime where
  hour : Nat
  minute : Nat
  second : Nat
  microsecond : Nat
  offset : Option Int
  deriving DecidableEq, Repr

/-- A day and a time of day. -/
structure DateTime where
  date : Date
  time : ClockTime
  deriving DecidableEq, Repr

namespace Date

/-- `2024-01-10` -/
def isoText (d : Date) : String :=
  padded 4 d.year ++ "-" ++ padded 2 d.month ++ "-" ++ padded 2 d.day

/-- Days from a fixed origin to the first of March of a year that begins in March. -/
def daysBeforeYear (year : Int) : Int :=
  365 * year + year.fdiv 4 - year.fdiv 100 + year.fdiv 400

/-- The number of the day in the Gregorian calendar. -/
def dayNumber (d : Date) : Int :=
  let (year, month) : Int × Int :=
    if d.month ≤ 2 then ((d.year : Int) - 1, (d.month : Int) + 9) else (d.year, (d.month : Int) - 3)
  daysBeforeYear year + (153 * month + 2).fdiv 5 + d.day

end Date

/-- An offset from UTC: `+01:00`. -/
def offsetText (minutes : Int) : String :=
  (if minutes < 0 then "-" else "+") ++ padded 2 (minutes.natAbs / 60) ++ ":" ++
    padded 2 (minutes.natAbs % 60)

namespace ClockTime

/-- `03:04:05`, with a fraction when there are microseconds and an offset when there is one. -/
def isoText (t : ClockTime) : String :=
  padded 2 t.hour ++ ":" ++ padded 2 t.minute ++ ":" ++ padded 2 t.second ++
    (if t.microsecond == 0 then "" else "." ++ padded 6 t.microsecond) ++
    t.offset.elim "" offsetText

/-- Microseconds since midnight in UTC; without an offset, since midnight. -/
def instant (t : ClockTime) : Int :=
  let minutes : Int := (t.hour : Int) * 60 + t.minute - t.offset.getD 0
  (minutes * 60 + t.second) * 1000000 + t.microsecond

/-- Times are equal when both have an offset and mean the same instant, or neither has one and they
read the same. -/
def same (a b : ClockTime) : Bool :=
  a.offset.isSome == b.offset.isSome && a.instant == b.instant

end ClockTime

namespace DateTime

/-- The standard text, with a chosen mark between day and time. -/
def isoText (mark : String) (d : DateTime) : String :=
  d.date.isoText ++ mark ++ d.time.isoText

/-- Microseconds in UTC since the day numbered zero. -/
def instant (d : DateTime) : Int :=
  d.date.dayNumber * 86400000000 + d.time.instant

/-- Like `ClockTime.same`, with the day. -/
def same (a b : DateTime) : Bool :=
  a.time.offset.isSome == b.time.offset.isSome && a.instant == b.instant

end DateTime

end QueryHarvest
