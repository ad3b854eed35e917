import QueryHarvest.Capture.Record
import QueryHarvest.Json.Reader

/-! # Lines of a query log

A line of a log is a JSON object with the text of a statement, its parameters and a time. Parameters
and time may be missing or null; other fields are not looked at. -/

namespace QueryHarvest.Capture

open Number Text

/-- Why a line is no record. -/
inductive FormatError where
  | invalidJson
  | notAnObject
  | missingQuery
  | queryNotText
  | parametersNotArray
  | timestampNotNumber
  | timestampUnreadable
  deriving DecidableEq, Repr

def FormatError.message : FormatError → String
  | .invalidJson => "Invalid JSON"
  | .notAnObject => "Input should be an object"
  | .missingQuery => "Field required"
  | .queryNotText => "Input should be a valid string"
  | .parametersNotArray => "Input should be a valid array"
  | .timestampNotNumber => "Input should be a valid number"
  | .timestampUnreadable => "Input should be a valid number, unable to parse string as a number"

/-- Why a log cannot be read. -/
inductive InputError where
  | malformed (line : Option Nat) (why : FormatError)
  /-- The file itself cannot be read. -/
  | unreadable (path reason : String)
  deriving DecidableEq, Repr

namespace InputError

def message : InputError → String
  | .malformed (some line) why => s!"Invalid query record on line {line}: " ++ why.message
  | .malformed none why => "Invalid query record: " ++ why.message
  | .unreadable path reason => "Cannot read query log " ++ path ++ ": " ++ reason

def line? : InputError → Option Nat
  | .malformed line _ => line
  | .unreadable .. => none

end InputError

/-- Read a decimal number with a fraction and an exponent: digits on at least one side of the point. -/
def readFloatDigits? (negative : Bool) (chars : List Char) : Option Binary64 :=
  let whole := chars.takeWhile Char.isDigit
  let (fraction, rest) := match chars.dropWhile Char.isDigit with
    | '.' :: rest => (rest.takeWhile Char.isDigit, rest.dropWhile Char.isDigit)
    | rest => ([], rest)
  let value := fun exponent : Int =>
    Binary64.ofDecimal negative (digitsValue (whole ++ fraction)) (exponent - fraction.length)
  if whole.isEmpty && fraction.isEmpty then none
  else
    match rest with
    | [] => some (value 0)
    | e :: rest =>
      let (negativeExponent, digits) := splitSign rest
      if (e == 'e' || e == 'E') && !digits.isEmpty && digits.all Char.isDigit then
        let magnitude : Int := digitsValue digits
        some (value (if negativeExponent then -magnitude else magnitude))
      else none

/-- Read a floating point number as it is written in a text: a sign, then digits or the name of an
infinity or of a not-a-number in any case. -/
def readFloat? (occurrence : Occurrence) (chars : List Char) : Option Binary64 :=
  let (negative, body) := splitSign chars
  match String.ofList (body.map Char.toLower) with
  | "inf" => some (.infinite negative)
  | "infinity" => some (.infinite negative)
  | "nan" => some (.nan occurrence)
  | _ => readFloatDigits? negative body

/-- Underscores stand singly and inside the text. -/
def underscoresFit : Bool → List Char → Bool
  | afterOther, [] => afterOther
  | afterOther, c :: rest =>
    if c == '_' then afterOther && underscoresFit false rest else underscoresFit true rest

/-- Read a time that is given as a text: with blanks around it, or else with single underscores in
it. -/
def readTimestampText? (occurrence : Occurrence) (text : String) : Option Binary64 :=
  let chars := text.toList
  let inner := ((chars.dropWhile isPadding).reverse.dropWhile isPadding).reverse
  match readFloat? occurrence inner with
  | some x => some x
  | none =>
    if underscoresFit false chars then readFloat? occurrence (chars.filter (· != '_')) else none

def readTimestamp (occurrence : Occurrence) : Value → Except FormatError (Option Binary64)
  | .null => .ok none
  | .bool b => .ok (some (Binary64.ofInt (if b then 1 else 0)))
  | .int n => .ok (some (Binary64.ofInt n))
  | .float x => .ok (some x)
  | .text s =>
    match readTimestampText? occurrence s with
    | some x => .ok (some x)
    | none => .error .timestampUnreadable
  | _ => .error .timestampNotNumber

/-- The record that the fields of an object make. -/
def recordOfFields (occurrence : Occurrence) (fields : List (String × Value)) :
    Except FormatError Record := do
  let query ← match fields.lookup "query" with
    | none => throw .missingQuery
    | some (.text query) => pure query
    | some _ => throw .queryNotText
  let parameters ← match fields.lookup "params" with
    | none => pure []
    | some .null => pure []
    | some (.list parameters) => pure parameters
    | some _ => throw .parametersNotArray
  let timestamp ← match fields.lookup "timestamp" with
    | none => pure none
    | some value => readTimestamp occurrence value
  return { query, parameters, timestamp }

/-- The record on a line; not-a-numbers are told apart by the number of the line. -/
def readRecord (number : Nat) (line : String) : Except FormatError Record :=
  match Json.read? number line with
  | none => .error .invalidJson
  | some (.object fields) => recordOfFields ⟨number, 0⟩ fields
  | some _ => .error .notAnObject

/-- The record on a line whose number may be known. -/
def parseLine (number : Option Nat) (line : String) : Except InputError Record :=
  (readRecord (number.getD 0) line).mapError (.malformed number)

end QueryHarvest.Capture
