import QueryHarvest.Number.Shortest
import QueryHarvest.Value.Basic

/-! # Values in plain text

Two texts of a value: `display` shows its kind, as log messages and orderings use it, and `plain` is
what stands inside a quoted literal. They differ for texts, decimals, identifiers and calendar values. -/

namespace QueryHarvest

open Text Number

def displayByte (quote : Char) (b : UInt8) : List Char :=
  let c := Char.ofNat b.toNat
  if c == quote || c == '\\' then ['\\', c]
  else if c == '\t' then ['\\', 't']
  else if c == '\n' then ['\\', 'n']
  else if c == '\r' then ['\\', 'r']
  else if 0x20 ≤ b.toNat && b.toNat < 0x7F then [c]
  else '\\' :: 'x' :: hex 2 b.toNat

/-- Displayed data: `b'\x00'`. -/
def displayBytes (data : List UInt8) : String :=
  let quote := if data.contains 0x27 && !data.contains 0x22 then '\x22' else '\x27'
  String.ofList ('b' :: quote :: data.flatMap (displayByte quote) ++ [quote])

def displayCall (name : String) (arguments : List String) : String :=
  name ++ "(" ++ String.intercalate ", " arguments ++ ")"

def displayOffset (minutes : Int) : String :=
  let seconds := minutes * 60
  if seconds == 0 then "datetime.timezone.utc"
  else
    let days := seconds.fdiv 86400
    let rest := seconds - days * 86400
    let parts := (if days == 0 then [] else ["days=" ++ toString days]) ++
      (if rest == 0 then [] else ["seconds=" ++ toString rest])
    displayCall "datetime.timezone" [displayCall "datetime.timedelta" parts]

/-- The arguments that display a time of day: seconds and microseconds only when they are needed. -/
def displayTimeArguments (t : ClockTime) : List String :=
  [toString t.hour, toString t.minute] ++
    (if t.second == 0 && t.microsecond == 0 then [] else [toString t.second]) ++
    (if t.microsecond == 0 then [] else [toString t.microsecond]) ++
    t.offset.elim [] fun minutes => ["tzinfo=" ++ displayOffset minutes]

def displayDateArguments (d : Date) : List String :=
  [toString d.year, toString d.month, toString d.day]

namespace Value

mutual

def display : Value → String
  | .null => "None"
  | .bool b => if b then "True" else "False"
  | .int n => toString n
  | .float x => x.text
  | .text s => quoted s
  | .decimal d => displayCall "Decimal" ["'" ++ d.text ++ "'"]
  | .bytes data => displayBytes data
  | .buffer data => displayCall "bytearray" [displayBytes data]
  | .uuid u => displayCall "UUID" ["'" ++ u.text ++ "'"]
  | .date d => displayCall "datetime.date" (displayDateArguments d)
  | .time t => displayCall "datetime.time" (displayTimeArguments t)
  | .dateTime d =>
    displayCall "datetime.datetime" (displayDateArguments d.date ++ displayTimeArguments d.time)
  | .list items => "[" ++ String.intercalate ", " (displayAll items) ++ "]"
  | .tuple [item] => "(" ++ item.display ++ ",)"
  | .tuple items => "(" ++ String.intercalate ", " (displayAll items) ++ ")"
  | .object fields => "\x7b" ++ String.intercalate ", " (displayFields fields) ++ "\x7d"

def displayAll : List Value → List String
  | [] => []
  | item :: rest => item.display :: displayAll rest

def displayFields : List (String × Value) → List String
  | [] => []
  | (key, item) :: rest => (quoted key ++ ": " ++ item.display) :: displayFields rest

end

def plain : Value → String
  | .text s => s
  | .decimal d => d.text
  | .uuid u => u.text
  | .date d => d.isoText
  | .time t => t.isoText
  | .dateTime d => d.isoText " "
  | value => value.display

end Value

end QueryHarvest
