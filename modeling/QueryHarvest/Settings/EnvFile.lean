import QueryHarvest.Text.Blank
import QueryHarvest.Text.Line

/-! # Environment files

The lines of an environment file bind names to values: `NAME=value`, perhaps behind `export`, with the
value bare, in single or in double quotes. A quoted value may go over several lines. What is no binding
is passed over to the end of its line. -/

namespace QueryHarvest.EnvFile

open Text

/-- A name with its value; a name without an equals sign has none. -/
structure Binding where
  name : String
  value : Option String
  deriving DecidableEq, Repr

/-- Something read from the front of a text, with the text behind it; or, where the text does not
read on, the text from there. -/
abbrev ReadOff (α : Type) := Except (List Char) (α × List Char)

def isInnerBlank (c : Char) : Bool :=
  isBlank c && c != '\n'

/-- Pass over the word `export` with the blanks behind it. -/
def skipExport (text : List Char) : List Char :=
  match text with
  | 'e' :: 'x' :: 'p' :: 'o' :: 'r' :: 't' :: c :: rest =>
    if isInnerBlank c then rest.dropWhile isInnerBlank else text
  | _ => text

/-- Read a name: in single quotes, or up to a blank, an equals sign or a hash. Before a hash there is
none. -/
def readName (text : List Char) : ReadOff (Option String) :=
  match text with
  | '#' :: _ => .ok (none, text)
  | '\x27' :: rest =>
    match rest.takeWhile (· != '\x27'), rest.dropWhile (· != '\x27') with
    | c :: name, _ :: rest => .ok (some (String.ofList (c :: name)), rest)
    | _, _ => .error text
  | _ =>
    let isPart := fun c : Char => c != '=' && c != '#' && !isBlank c
    match text.takeWhile isPart with
    | [] => .error text
    | name => .ok (some (String.ofList name), text.dropWhile isPart)

/-- Read up to the closing quote; one behind a backslash does not close, unless no other does: then the
last of those is the `fallback`. The characters read come newest first. -/
def closeQuote? (quote : Char) (fallback : Option (List Char × List Char)) (read : List Char) :
    List Char → Option (List Char × List Char)
  | [] => fallback
  | '\\' :: c :: rest =>
    if c == quote then
      closeQuote? quote (some ('\\' :: read, rest)) (c :: '\\' :: read) rest
    else closeQuote? quote fallback ('\\' :: read) (c :: rest)
  | c :: rest => if c == quote then some (read, rest) else closeQuote? quote fallback (c :: read) rest

/-- The character that an escape in double quotes stands for. -/
def doubleEscape? : Char → Option Char
  | '\\' => some '\\'
  | '\x27' => some '\x27'
  | '\x22' => some '\x22'
  | 'a' => some '\x07'
  | 'b' => some '\x08'
  | 'f' => some '\x0c'
  | 'n' => some '\n'
  | 'r' => some '\r'
  | 't' => some '\t'
  | 'v' => some '\x0b'
  | _ => none

/-- The character that an escape in single quotes stands for. -/
def singleEscape? : Char → Option Char
  | '\\' => some '\\'
  | '\x27' => some '\x27'
  | _ => none

/-- Replace the escapes in a value; other backslashes stay. -/
def unescape (escape? : Char → Option Char) : List Char → List Char
  | '\\' :: c :: rest =>
    match escape? c with
    | some x => x :: unescape escape? rest
    | none => '\\' :: unescape escape? (c :: rest)
  | c :: rest => c :: unescape escape? rest
  | [] => []

/-- Read a quoted value behind its opening quote. -/
def readQuoted (quote : Char) (escape? : Char → Option Char) (text rest : List Char) :
    ReadOff String :=
  match closeQuote? quote none [] rest with
  | some (read, rest) => .ok (String.ofList (unescape escape? read.reverse), rest)
  | none => .error text

/-- Cut off a comment: a hash behind a blank, and all after it. -/
def cutComment (afterBlank : Bool) : List Char → List Char
  | [] => []
  | c :: rest => if c == '#' && afterBlank then [] else c :: cutComment (isBlank c) rest

/-- A bare value: without its comment and the blanks at the end. -/
def bareValue (line : List Char) : String :=
  String.ofList ((cutComment false line).reverse.dropWhile isBlank).reverse

def readValue (text : List Char) : ReadOff String :=
  match text with
  | '\x27' :: rest => readQuoted '\x27' singleEscape? text rest
  | '\x22' :: rest => readQuoted '\x22' doubleEscape? text rest
  | _ => .ok (bareValue (text.takeWhile (· != '\n')), text.dropWhile (· != '\n'))

/-- Read what may stand behind a binding: blanks and a comment up to the end of the line. -/
def readLineEnd (text : List Char) : Except (List Char) (List Char) :=
  let rest := match text.dropWhile isInnerBlank with
    | '#' :: rest => rest.dropWhile (· != '\n')
    | rest => rest
  match rest with
  | [] => .ok []
  | '\n' :: rest => .ok rest
  | _ => .error text

/-- Read one binding, or a comment, at the beginning of a line. -/
def readBinding (text : List Char) : Except (List Char) (Option Binding × List Char) := do
  let (name, rest) ← readName (skipExport text)
  let (value, rest) ← match rest.dropWhile isInnerBlank with
    | '=' :: rest =>
      let (value, rest) ← readValue (rest.dropWhile isInnerBlank)
      pure (some value, rest)
    | rest => pure (none, rest)
  let rest ← readLineEnd rest
  return (name.map fun name => ⟨name, value⟩, rest)

/-- The text behind the line that a text begins with. -/
def restOfLine (text : List Char) : List Char :=
  (text.dropWhile (· != '\n')).drop 1

/-- Read all bindings. Every step takes at least one character, so that the reading ends. -/
def readBindings (text : List Char) : List Binding :=
  let body := text.dropWhile isBlank
  if body.isEmpty then []
  else
    let (found, rest) := match readBinding body with
      | .ok (found, rest) => (found.toList, rest)
      | .error rest => ([], restOfLine rest)
    if _h : rest.length < text.length then found ++ readBindings rest else found
termination_by text.length

def bindings (text : String) : List Binding :=
  readBindings (unifyNewlines text.toList)

end QueryHarvest.EnvFile
