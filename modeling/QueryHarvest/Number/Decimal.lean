import QueryHarvest.Number.Binary64

/-! # Decimal numbers

Numbers kept as written: a sign, a coefficient and a power of ten, so that `1.50` and `1.5` are equal
and print differently. -/

namespace QueryHarvest.Number

/-- A decimal number. -/
inductive Decimal where
  /-- `coefficient * 10 ^ exponent` with a sign. -/
  | finite (negative : Bool) (coefficient : Nat) (exponent : Int)
  | infinite (negative : Bool)
  /-- Not a number; a signalling one is refused by every operation. -/
  | nan (negative signalling : Bool) (payload : String) (occurrence : Occurrence)
  deriving DecidableEq, Repr

namespace Decimal

def toRat? : Decimal → Option Rat
  | .finite negative coefficient exponent =>
    let magnitude := (coefficient : Rat) * Binary64.tenPow exponent
    some (if negative then -magnitude else magnitude)
  | _ => none

def isZero : Decimal → Bool
  | .finite _ coefficient _ => coefficient == 0
  | _ => false

/-- The integer that a finite decimal equals, if it equals one. -/
def toInt? : Decimal → Option Int
  | .finite negative coefficient (.ofNat exponent) =>
    let magnitude : Int := (coefficient * Nat.pow 10 exponent : Nat)
    some (if negative then -magnitude else magnitude)
  | .finite negative coefficient (.negSucc exponent) =>
    -- a coefficient with fewer digits than places is no multiple of the power
    if coefficient == 0 then some 0
    else if (Nat.toDigits 10 coefficient).length ≤ exponent + 1 then none
    else
      let unit := Nat.pow 10 (exponent + 1)
      if coefficient % unit == 0 then
        let magnitude : Int := ((coefficient / unit : Nat) : Int)
        some (if negative then -magnitude else magnitude)
      else none
  | _ => none

def toBinary64 : Decimal → Binary64
  | .finite negative coefficient exponent => Binary64.ofDecimal negative coefficient exponent
  | .infinite negative => .infinite negative
  | .nan _ _ _ occurrence => .nan occurrence

/-- The text of a finite decimal without its sign: positional while the exponent is not positive and
at most six places follow the point before the first digit, else with an exponent. -/
def magnitudeText (coefficient : Nat) (exponent : Int) : String :=
  let digits := Nat.toDigits 10 coefficient
  let size : Int := digits.length
  let left := exponent + size
  let point : Int := if exponent ≤ 0 && left > -6 then left else 1
  let body :=
    if point ≤ 0 then "0." ++ String.ofList (List.replicate (-point).toNat '0' ++ digits)
    else if point ≥ size then
      String.ofList (digits ++ List.replicate (point - size).toNat '0')
    else
      String.ofList (digits.take point.toNat) ++ "." ++ String.ofList (digits.drop point.toNat)
  let power := left - point
  if power == 0 then body
  else body ++ "E" ++ (if power < 0 then "-" else "+") ++ toString power.natAbs

def text : Decimal → String
  | .finite negative coefficient exponent =>
    (if negative then "-" else "") ++ magnitudeText coefficient exponent
  | .infinite negative => if negative then "-Infinity" else "Infinity"
  | .nan negative signalling payload _ =>
    (if negative then "-" else "") ++ (if signalling then "sNaN" else "NaN") ++ payload

def splitDecimalSign : List Char → Bool × List Char
  | '-' :: rest => (true, rest)
  | '+' :: rest => (false, rest)
  | chars => (false, chars)

/-- Read an optional exponent: nothing, or `e` with an integer. -/
def readExponent? : List Char → Option Int
  | [] => some 0
  | 'e' :: rest =>
    let (negative, digits) := splitDecimalSign rest
    if digits.isEmpty || !digits.all Char.isDigit then none
    else
      let magnitude : Int := ((String.ofList digits).toNat?.getD 0 : Nat)
      some (if negative then -magnitude else magnitude)
  | _ => none

/-- Read a decimal as it is written in ASCII: a sign, digits with at most one point and an exponent,
or the name of an infinity or of a not-a-number, in any case of letters. -/
def ofText? (occurrence : Occurrence) (text : String) : Option Decimal :=
  let (negative, chars) := splitDecimalSign (text.toList.map Char.toLower)
  let word := String.ofList chars
  if word == "inf" || word == "infinity" then some (.infinite negative)
  else if chars.take 3 == ['n', 'a', 'n'] && (chars.drop 3).all Char.isDigit then
    some (.nan negative false (String.ofList ((chars.drop 3).dropWhile (· == '0'))) occurrence)
  else if chars.take 4 == ['s', 'n', 'a', 'n'] && (chars.drop 4).all Char.isDigit then
    some (.nan negative true (String.ofList ((chars.drop 4).dropWhile (· == '0'))) occurrence)
  else
    let whole := chars.takeWhile Char.isDigit
    let (fraction, rest) := match chars.dropWhile Char.isDigit with
      | '.' :: rest => (rest.takeWhile Char.isDigit, rest.dropWhile Char.isDigit)
      | rest => ([], rest)
    if whole.isEmpty && fraction.isEmpty then none
    else do
      let exponent ← readExponent? rest
      let coefficient := (String.ofList (whole ++ fraction)).toNat?.getD 0
      return .finite negative coefficient (exponent - fraction.length)

end Decimal

end QueryHarvest.Number
