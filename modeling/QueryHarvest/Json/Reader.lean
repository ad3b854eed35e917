import QueryHarvest.Number.Integer
import QueryHarvest.Value.Basic

/-! # Reading JSON

A strict reader in two layers, both of which take the text one character at a time. The lower layer
cuts it into tokens, the upper one keeps the containers that are still open. Beyond the standard, three
words are read that name the floating point values without digits. -/

namespace QueryHarvest.Json

open Number Text

/-- The deepest nesting of containers that is read. -/
def maxDepth : Nat := 200

/-- A piece of JSON between blanks. -/
inductive Token where
  | openArray
  | closeArray
  | openObject
  | closeObject
  | comma
  | colon
  /-- A value without parts; a text may turn out to be a key. -/
  | scalar (value : Value)

/-- An open container, with the newest part first. -/
inductive Frame where
  | array (items : List Value)
  | object (fields : List (String × Value))
  /-- An object whose newest key still lacks its value. -/
  | field (fields : List (String × Value)) (key : String)

/-- What may come next. -/
inductive Expects where
  | value
  | valueOrClose
  | separator
  | key
  | keyOrClose
  | colon

/-- How far a value has been read: some containers are open, innermost first, or it is complete. -/
inductive Progress where
  | unfinished (expects : Expects) (frames : List Frame)
  | complete (value : Value)

/-- Set a field: an old value of the key is replaced where it stands. -/
def setField (key : String) (value : Value) (fields : List (String × Value)) : List (String × Value) :=
  if fields.any (·.1 == key) then
    fields.map fun field => if field.1 == key then (key, value) else field
  else (key, value) :: fields

def put : List Frame → Value → Option Progress
  | [], value => some (.complete value)
  | .array items :: frames, value => some (.unfinished .separator (.array (value :: items) :: frames))
  | .field fields key :: frames, value =>
    some (.unfinished .separator (.object (setField key value fields) :: frames))
  | .object _ :: _, _ => none

def begin? (frames : List Frame) : Token → Option Progress
  | .scalar value => put frames value
  | .openArray =>
    if frames.length < maxDepth then some (.unfinished .valueOrClose (.array [] :: frames)) else none
  | .openObject =>
    if frames.length < maxDepth then some (.unfinished .keyOrClose (.object [] :: frames)) else none
  | _ => none

def Progress.take? : Progress → Token → Option Progress
  | .complete _, _ => none
  | .unfinished .valueOrClose (.array [] :: frames), .closeArray => put frames (.list [])
  | .unfinished .keyOrClose (.object [] :: frames), .closeObject => put frames (.object [])
  | .unfinished .value frames, token => begin? frames token
  | .unfinished .valueOrClose frames, token => begin? frames token
  | .unfinished .separator (.array items :: frames), .comma =>
    some (.unfinished .value (.array items :: frames))
  | .unfinished .separator (.array items :: frames), .closeArray => put frames (.list items.reverse)
  | .unfinished .separator (.object fields :: frames), .comma =>
    some (.unfinished .key (.object fields :: frames))
  | .unfinished .separator (.object fields :: frames), .closeObject =>
    put frames (.object fields.reverse)
  | .unfinished .key (.object fields :: frames), .scalar (.text key) =>
    some (.unfinished .colon (.field fields key :: frames))
  | .unfinished .keyOrClose (.object fields :: frames), .scalar (.text key) =>
    some (.unfinished .colon (.field fields key :: frames))
  | .unfinished .colon frames, .colon => some (.unfinished .value frames)
  | .unfinished .., _ => none

def isJsonBlank (c : Char) : Bool :=
  c == ' ' || c == '\t' || c == '\n' || c == '\r'

def endsBare (c : Char) : Bool :=
  isJsonBlank c || c == ',' || c == ':' || c == '\x22' || c == '[' || c == ']' || c == '\x7b' ||
    c == '\x7d'

/-- Read the part of a number after its integer digits: a fraction, an exponent, both or neither.
Gives the digits of the fraction and the exponent; `none` inside means that neither is there. -/
def fractionAndExponent? (chars : List Char) : Option (Option (List Char × Int)) :=
  let fractionRest : Option (List Char × List Char) :=
    match chars with
    | '.' :: rest =>
      let digits := rest.takeWhile Char.isDigit
      if digits.isEmpty then none else some (digits, rest.dropWhile Char.isDigit)
    | rest => some ([], rest)
  match fractionRest with
  | none => none
  | some (fraction, []) => some (if fraction.isEmpty then none else some (fraction, 0))
  | some (fraction, c :: rest) =>
    if c == 'e' || c == 'E' then
      let (negative, digits) := splitSign rest
      if digits.isEmpty || !digits.all Char.isDigit then none
      else
        let magnitude : Int := digitsValue digits
        some (some (fraction, if negative then -magnitude else magnitude))
    else none

/-- Read a number: an integer, or a floating point number if it has a fraction or an exponent. -/
def number? (chars : List Char) : Option Value :=
  let (negative, body) := match chars with
    | '-' :: rest => (true, rest)
    | rest => (false, rest)
  let whole := body.takeWhile Char.isDigit
  if whole.isEmpty || (whole.length > 1 && whole.head? == some '0') then none
  else
    match fractionAndExponent? (body.dropWhile Char.isDigit) with
    | none => none
    | some none =>
      match ofDigits whole with
      | .ok magnitude => some (.int (if negative then -(magnitude : Int) else magnitude))
      | .error _ => none
    | some (some (fraction, exponent)) =>
      some (.float (Binary64.ofDecimal negative (digitsValue (whole ++ fraction))
        (exponent - fraction.length)))

def bare? (occurrence : Occurrence) (chars : List Char) : Option Value :=
  match String.ofList chars with
  | "null" => some .null
  | "true" => some (.bool true)
  | "false" => some (.bool false)
  | "NaN" => some (.float (.nan occurrence))
  | "Infinity" => some (.float (.infinite false))
  | "-Infinity" => some (.float (.infinite true))
  | _ => number? chars

/-- What the character before belongs to. The characters of a text are kept newest first. -/
inductive Mode where
  | between
  | bare (chars : List Char)
  | string (chars : List Char)
  | escape (chars : List Char)
  /-- After `\u` and some hexadecimal digits, perhaps as the second half of a surrogate pair. -/
  | unicode (chars : List Char) (high : Option Nat) (count value : Nat)
  /-- After the first half of a surrogate pair. -/
  | afterHigh (chars : List Char) (high : Nat)
  | escapeAfterHigh (chars : List Char) (high : Nat)

/-- The state between two characters. -/
structure Reader where
  mode : Mode := .between
  progress : Progress := .unfinished .value []
  /-- The number of the line that the text stands in. -/
  line : Nat
  /-- The number of words and numbers so far, which tells them apart. -/
  scalars : Nat := 0

namespace Reader

def emit (r : Reader) (token : Token) : Option Reader := do
  let progress ← r.progress.take? token
  return { r with mode := .between, progress }

def begin (r : Reader) (c : Char) : Option Reader :=
  if isJsonBlank c then some { r with mode := .between }
  else if c == ',' then r.emit .comma
  else if c == ':' then r.emit .colon
  else if c == '[' then r.emit .openArray
  else if c == ']' then r.emit .closeArray
  else if c == '\x7b' then r.emit .openObject
  else if c == '\x7d' then r.emit .closeObject
  else if c == '\x22' then some { r with mode := .string [] }
  else some { r with mode := .bare [c] }

def endBare (r : Reader) (chars : List Char) : Option Reader := do
  let value ← bare? ⟨r.line, r.scalars⟩ chars.reverse
  let r ← r.emit (.scalar value)
  return { r with scalars := r.scalars + 1 }

/-- The character that a one-letter escape stands for. -/
def simpleEscape? (c : Char) : Option Char :=
  if c == '\x22' || c == '\\' || c == '/' then some c
  else if c == 'b' then some '\x08'
  else if c == 'f' then some '\x0c'
  else if c == 'n' then some '\n'
  else if c == 'r' then some '\r'
  else if c == 't' then some '\t'
  else none

/-- The end of a numeric escape: a character, or the first half of a surrogate pair. -/
def endUnicode (r : Reader) (chars : List Char) (high : Option Nat) (unit : Nat) : Option Reader :=
  match high with
  | some high =>
    if 0xDC00 ≤ unit && unit < 0xE000 then
      let code := 0x10000 + (high - 0xD800) * 0x400 + (unit - 0xDC00)
      some { r with mode := .string (Char.ofNat code :: chars) }
    else none
  | none =>
    if 0xD800 ≤ unit && unit < 0xDC00 then some { r with mode := .afterHigh chars unit }
    else if 0xDC00 ≤ unit && unit < 0xE000 then none
    else some { r with mode := .string (Char.ofNat unit :: chars) }

def step (r : Reader) (c : Char) : Option Reader :=
  match r.mode with
  | .between => r.begin c
  | .bare chars =>
    if endsBare c then do
      let r ← r.endBare chars
      r.begin c
    else some { r with mode := .bare (c :: chars) }
  | .string chars =>
    if c == '\x22' then r.emit (.scalar (.text (String.ofList chars.reverse)))
    else if c == '\\' then some { r with mode := .escape chars }
    else if c.toNat < 0x20 then none
    else some { r with mode := .string (c :: chars) }
  | .escape chars =>
    if c == 'u' then some { r with mode := .unicode chars none 0 0 }
    else (simpleEscape? c).map fun e => { r with mode := .string (e :: chars) }
  | .unicode chars high count value =>
    match Uuid.hexValue? c with
    | none => none
    | some digit =>
      let value := 16 * value + digit
      if count == 3 then r.endUnicode chars high value
      else some { r with mode := .unicode chars high (count + 1) value }
  | .afterHigh chars high =>
    if c == '\\' then some { r with mode := .escapeAfterHigh chars high } else none
  | .escapeAfterHigh chars high =>
    if c == 'u' then some { r with mode := .unicode chars (some high) 0 0 } else none

def finish (r : Reader) : Option Value := do
  let r ← match r.mode with
    | .between => some r
    | .bare chars => r.endBare chars
    | _ => none
  match r.progress with
  | .complete value => some value
  | .unfinished .. => none

end Reader

/-- Read one JSON value that fills the text, standing in the given line. -/
def read? (line : Nat) (text : String) : Option Value := do
  let start : Reader := { line }
  let last ← text.toList.foldlM Reader.step start
  last.finish

end QueryHarvest.Json
