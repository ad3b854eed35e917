import QueryHarvest.Value.Display

/-! # Writing JSON

The JSON text of a value, in ASCII: characters beyond it are written as escapes of their UTF-16 units.
A value of a kind that JSON lacks is written as a string that holds its plain text. -/

namespace QueryHarvest.Json

open Text Number

def utf16Units (code : Nat) : List Nat :=
  if code < 0x10000 then [code]
  else [0xD800 + (code - 0x10000) / 0x400, 0xDC00 + (code - 0x10000) % 0x400]

def escapeChar (c : Char) : List Char :=
  if c == '\x22' then ['\\', '\x22']
  else if c == '\\' then ['\\', '\\']
  else if c == '\n' then ['\\', 'n']
  else if c == '\r' then ['\\', 'r']
  else if c == '\t' then ['\\', 't']
  else if c == '\x08' then ['\\', 'b']
  else if c == '\x0c' then ['\\', 'f']
  else if 0x20 ≤ c.toNat && c.toNat ≤ 0x7E then [c]
  else (utf16Units c.toNat).flatMap fun unit => '\\' :: 'u' :: hex 4 unit

def string (s : String) : String :=
  String.ofList ('\x22' :: s.toList.flatMap escapeChar ++ ['\x22'])

/-- A JSON number; the three values that are no numbers have names. -/
def float : Binary64 → String
  | .nan _ => "NaN"
  | .infinite negative => if negative then "-Infinity" else "Infinity"
  | x => x.text

/-- How containers are laid out: on one line, or with one item a line and so many spaces per level. -/
inductive Layout where
  | line
  | indented (step : Nat)

/-- The items of a container between its brackets, at a nesting depth. -/
def Layout.container (layout : Layout) (depth : Nat) (opening closing : String)
    (items : List String) : String :=
  match layout, items with
  | _, [] => opening ++ closing
  | .line, items => opening ++ String.intercalate ", " items ++ closing
  | .indented step, items =>
    let margin := fun n => "\n" ++ String.ofList (List.replicate (step * n) ' ')
    opening ++ margin (depth + 1) ++ String.intercalate ("," ++ margin (depth + 1)) items ++
      margin depth ++ closing

mutual

def textAt (layout : Layout) (depth : Nat) : Value → String
  | .null => "null"
  | .bool b => if b then "true" else "false"
  | .int n => toString n
  | .float x => float x
  | .text s => string s
  | .list items => layout.container depth "[" "]" (itemsAt layout (depth + 1) items)
  | .tuple items => layout.container depth "[" "]" (itemsAt layout (depth + 1) items)
  | .object fields => layout.container depth "\x7b" "\x7d" (fieldsAt layout (depth + 1) fields)
  | value => string value.plain

def itemsAt (layout : Layout) (depth : Nat) : List Value → List String
  | [] => []
  | item :: rest => textAt layout depth item :: itemsAt layout depth rest

def fieldsAt (layout : Layout) (depth : Nat) : List (String × Value) → List String
  | [] => []
  | (key, item) :: rest =>
    (string key ++ ": " ++ textAt layout depth item) :: fieldsAt layout depth rest

end

def text (value : Value) : String :=
  textAt .line 0 value

/-- The JSON text of a value with two spaces per level. -/
def pretty (value : Value) : String :=
  textAt (.indented 2) 0 value

/-- Put a field into a list of fields that ascends by key. -/
def insertField (field : String × Value) : List (String × Value) → List (String × Value)
  | [] => [field]
  | other :: rest => if field.1 ≤ other.1 then field :: other :: rest else other :: insertField field rest

mutual

/-- The same value with the fields of every object in ascending order of their keys. -/
def sortKeys : Value → Value
  | .list items => .list (sortKeysAll items)
  | .tuple items => .tuple (sortKeysAll items)
  | .object fields => .object (sortFields fields)
  | value => value

/-- `sortKeys` on every item. -/
def sortKeysAll : List Value → List Value
  | [] => []
  | item :: rest => sortKeys item :: sortKeysAll rest

/-- `sortKeys` on every field, and the fields in order. -/
def sortFields : List (String × Value) → List (String × Value)
  | [] => []
  | (key, item) :: rest => insertField (key, sortKeys item) (sortFields rest)

end

/-- The JSON text of a value with sorted keys: the same for every order of the fields. -/
def canonical (value : Value) : String :=
  text (sortKeys value)

end QueryHarvest.Json
