import QueryHarvest.Text.Blank
import QueryHarvest.Text.Digit
import QueryHarvest.Text.Quoted

/-! # Integers in text

Reading a decimal integer: blanks around it, a sign, digits of any script with single underscores
between them. More than 4300 digits are refused, leading zeros counted. Neither is an integer written
that has more of them. -/

namespace QueryHarvest.Number

open QueryHarvest.Text

/-- The longest run of digits that is read as an integer, or written for one. -/
def maxDigits : Nat := 4300

/-- Why a text is no integer. -/
inductive IntegerError where
  /-- The text is not a decimal integer. -/
  | malformed (text : String)
  /-- The text has more digits than are read. -/
  | tooLong (digits : Nat)
  deriving DecidableEq, Repr

def IntegerError.message : IntegerError → String
  | .malformed text =>
    "invalid literal for int() with base 10: " ++ String.ofList ((quoted text).toList.take 200)
  | .tooLong digits =>
    s!"Exceeds the limit ({maxDigits} digits) for integer string conversion: value has {digits} digits; use sys.set_int_max_str_digits() to increase the limit"

/-- Why a value is not written. -/
inductive WritingError where
  /-- An integer in it has more digits than are written. -/
  | tooManyDigits
  deriving DecidableEq, Repr

def WritingError.message : WritingError → String
  | .tooManyDigits =>
    s!"Exceeds the limit ({maxDigits} digits) for integer string conversion; use sys.set_int_max_str_digits() to increase the limit"

/-- The number that a run of digits writes, unless the run is too long. -/
def ofDigits (digits : List Char) : Except IntegerError Nat :=
  if digits.length ≤ maxDigits then .ok (digitsValue digits) else .error (.tooLong digits.length)

/-- The blanks allowed around an integer: those of ASCII without the information separators, and all
others. -/
def isPadding (c : Char) : Bool :=
  isBlank c && !(0x1C ≤ c.toNat && c.toNat ≤ 0x1F)

/-- Does a run of digits and underscores have single underscores only, each between two digits? The
flag tells whether a digit came before. -/
def wellSpaced : Bool → List Char → Bool
  | afterDigit, [] => afterDigit
  | afterDigit, c :: rest => if c == '_' then afterDigit && wellSpaced false rest else wellSpaced true rest

def splitSign : List Char → Bool × List Char
  | '-' :: rest => (true, rest)
  | '+' :: rest => (false, rest)
  | text => (false, text)

/-- Read an integer. The length of the run of digits is looked at before what follows it. -/
def parseInt (text : String) : Except IntegerError Int :=
  let (negative, body) := splitSign (text.toList.dropWhile isPadding)
  let run := body.takeWhile fun c => isDigit c || c == '_'
  let rest := body.dropWhile fun c => isDigit c || c == '_'
  if wellSpaced false run then do
    let magnitude ← ofDigits (run.filter (· != '_'))
    if rest.all isPadding then return if negative then -(magnitude : Int) else magnitude
    else throw (.malformed text)
  else .error (.malformed text)

end QueryHarvest.Number
