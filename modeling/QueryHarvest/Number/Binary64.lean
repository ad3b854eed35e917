/-! # Binary floating point numbers

The numbers of the 64-bit binary format as exact data: a sign, a mantissa and a power of two. Two
not-a-numbers are the same only when they are the same occurrence, so each carries the place where it
was read. -/

namespace QueryHarvest.Number

/-- The place where a not-a-number was read: the number of the line, and a position in it. -/
structure Occurrence where
  line : Nat
  place : Nat
  deriving DecidableEq, Repr

/-- A number of the 64-bit binary format. -/
inductive Binary64 where
  /-- Not a number. -/
  | nan (occurrence : Occurrence)
  /-- One of the infinities. -/
  | infinite (negative : Bool)
  /-- `mantissa * 2 ^ exponent` with a sign, where the mantissa is below `2 ^ 53` and the exponent
  least, but not below -1074. -/
  | finite (negative : Bool) (mantissa : Nat) (exponent : Int)
  deriving DecidableEq, Repr

namespace Binary64

def twoPow : Int → Rat
  | .ofNat n => (Nat.pow 2 n : Nat)
  | .negSucc n => mkRat 1 (Nat.pow 2 (n + 1))

def tenPow : Int → Rat
  | .ofNat n => (Nat.pow 10 n : Nat)
  | .negSucc n => mkRat 1 (Nat.pow 10 (n + 1))

def toRat? : Binary64 → Option Rat
  | .nan _ => none
  | .infinite _ => none
  | .finite negative mantissa exponent =>
    let magnitude := (mantissa : Rat) * twoPow exponent
    some (if negative then -magnitude else magnitude)

def zero : Binary64 := .finite false 0 (-1074)

/-- The nearest integer to a non-negative number; a half goes to the even neighbour. -/
def roundHalfEven (q : Rat) : Nat :=
  let below := q.floor.toNat
  let rest := q - (below : Rat)
  let half := mkRat 1 2
  if rest < half then below
  else if half < rest then below + 1
  else if below % 2 == 0 then below else below + 1

/-- The value nearest to a number, a tie going to the even mantissa; the sign is given apart, so that
a zero can be negative. -/
def ofMagnitude (negative : Bool) (q : Rat) : Binary64 :=
  if q.num.toNat == 0 then .finite negative 0 (-1074)
  else
    let log := (q.num.toNat.log2 : Int) - (q.den.log2 : Int)
    let log := if q < twoPow log then log - 1 else log
    let exponent := max (log - 52) (-1074)
    let mantissa := roundHalfEven (q * twoPow (-exponent))
    let (mantissa, exponent) :=
      if mantissa == Nat.pow 2 53 then (Nat.pow 2 52, exponent + 1) else (mantissa, exponent)
    if exponent > 971 then .infinite negative else .finite negative mantissa exponent

def ofRat (q : Rat) : Binary64 :=
  if q < 0 then ofMagnitude true (-q) else ofMagnitude false q

def ofInt (n : Int) : Binary64 :=
  ofRat n

/-- The value nearest to `digits * 10 ^ exponent`. Exponents far beyond the format are decided by the
number of digits alone. -/
def ofDecimal (negative : Bool) (digits : Nat) (exponent : Int) : Binary64 :=
  if digits == 0 then .finite negative 0 (-1074)
  else
    let size := ((Nat.toDigits 10 digits).length : Int) + exponent
    if size > 400 then .infinite negative
    else if size < -400 then .finite negative 0 (-1074)
    else ofMagnitude negative ((digits : Rat) * tenPow exponent)

def isZero : Binary64 → Bool
  | .finite _ mantissa _ => mantissa == 0
  | _ => false

end Binary64

end QueryHarvest.Number
