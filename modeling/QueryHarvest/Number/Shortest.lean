import QueryHarvest.Number.Binary64

/-! # Shortest decimal text of a binary number

The fewest decimal digits that read back as the same number, and of those the nearest to it. -/

namespace QueryHarvest.Number

/-- The numbers that read back as one binary number: those between two bounds, the bounds themselves
included when the mantissa is even. -/
structure RoundingInterval where
  low : Rat
  high : Rat
  closed : Bool

def RoundingInterval.holds (i : RoundingInterval) (q : Rat) : Bool :=
  (i.low < q && q < i.high) || (i.closed && (q == i.low || q == i.high))

/-- The interval of a positive number `mantissa * 2 ^ exponent`. Below a power of two the neighbours
are twice as close. -/
def roundingInterval (mantissa : Nat) (exponent : Int) : RoundingInterval :=
  let unit := Binary64.twoPow exponent
  let value := (mantissa : Rat) * unit
  let least := mantissa == Nat.pow 2 52 && exponent > -1074
  let below := if least then unit * mkRat 1 4 else unit * mkRat 1 2
  { low := value - below, high := value + unit * mkRat 1 2, closed := mantissa % 2 == 0 }

/-- The power of ten at or below a positive number: `10 ^ p ≤ q < 10 ^ (p + 1)`. -/
def decimalLog (q : Rat) : Int :=
  let bits := (q.num.toNat.log2 : Int) - (q.den.log2 : Int)
  let guess := (bits * 30103).fdiv 100000 - 1
  if q < Binary64.tenPow (guess + 1) then guess
  else if q < Binary64.tenPow (guess + 2) then guess + 1
  else guess + 2

/-- The neighbour of `q` on the grid of multiples of `10 ^ place` that lies in the interval; of two
the nearer, of two equally near the even one. -/
def gridPoint? (i : RoundingInterval) (q : Rat) (place : Int) : Option Nat :=
  let scaled := q * Binary64.tenPow (-place)
  let below := scaled.floor.toNat
  let lowFits := i.holds ((below : Rat) * Binary64.tenPow place)
  let highFits := i.holds (((below + 1 : Nat) : Rat) * Binary64.tenPow place)
  if lowFits && highFits then
    some (Binary64.roundHalfEven scaled)
  else if lowFits then some below
  else if highFits then some (below + 1)
  else none

/-- The first of `count` ever finer grids that has a point in the interval, and that point. -/
def shortestFrom (i : RoundingInterval) (q : Rat) (place : Int) : Nat → Nat × Int
  | 0 => ((q * Binary64.tenPow (-place)).floor.toNat, place)
  | count + 1 =>
    match gridPoint? i q place with
    | some digits => (digits, place)
    | none => shortestFrom i q (place - 1) count

/-- Drop trailing zeros, raising the exponent; at most `count` of them. -/
def dropZeros (digits : Nat) (exponent : Int) : Nat → Nat × Int
  | 0 => (digits, exponent)
  | count + 1 =>
    if digits != 0 && digits % 10 == 0 then dropZeros (digits / 10) (exponent + 1) count
    else (digits, exponent)

/-- The shortest decimal `digits * 10 ^ exponent` that reads back as `mantissa * 2 ^ exponent`. -/
def shortestDecimal (mantissa : Nat) (exponent : Int) : Nat × Int :=
  let q := (mantissa : Rat) * Binary64.twoPow exponent
  let (digits, place) := shortestFrom (roundingInterval mantissa exponent) q (decimalLog q) 17
  dropZeros digits place 20

/-- An exponent with its sign and at least two digits. -/
def exponentText (n : Int) : String :=
  let digits := toString n.natAbs
  (if n < 0 then "-" else "+") ++ (if digits.length < 2 then "0" ++ digits else digits)

/-- A positive decimal in text: positional when its first digit stands between the fourth place after
the point and the sixteenth before it, else with an exponent. A positional text has a fraction. -/
def decimalText (digits : Nat) (exponent : Int) : String :=
  let chars := Nat.toDigits 10 digits
  let point : Int := (chars.length : Int) + exponent
  if -4 < point && point ≤ 16 then
    if point ≤ 0 then
      "0." ++ String.ofList (List.replicate (-point).toNat '0' ++ chars)
    else if exponent ≥ 0 then
      String.ofList (chars ++ List.replicate exponent.toNat '0') ++ ".0"
    else
      String.ofList (chars.take point.toNat) ++ "." ++ String.ofList (chars.drop point.toNat)
  else
    let mantissa := match chars with
      | [] => "0"
      | [c] => String.ofList [c]
      | c :: rest => String.ofList (c :: '.' :: rest)
    mantissa ++ "e" ++ exponentText (point - 1)

def Binary64.text : Binary64 → String
  | .nan _ => "nan"
  | .infinite negative => if negative then "-inf" else "inf"
  | .finite negative mantissa exponent =>
    let sign := if negative then "-" else ""
    if mantissa == 0 then sign ++ "0.0"
    else
      let (digits, place) := shortestDecimal mantissa exponent
      sign ++ decimalText digits place

end QueryHarvest.Number
