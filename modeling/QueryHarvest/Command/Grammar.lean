import QueryHarvest.Text.Digit
import QueryHarvest.Text.Quoted

/-! # Command lines

A command line is a row of words: options, each perhaps with a value, and operands. Options may be cut
short as long as they stay unambiguous, and a value may follow in the same word. -/

namespace QueryHarvest.Command

open Text

/-- What an option does. -/
inductive OptionKind where
  /-- It shows help and ends the run. -/
  | help
  /-- It is there or not. -/
  | switch
  /-- It takes a value. -/
  | valued
  deriving DecidableEq, Repr

/-- An option: its spellings, the short one before the long. -/
structure Flag where
  spellings : List String
  kind : OptionKind
  deriving DecidableEq, Repr

def Flag.name (f : Flag) : String :=
  String.intercalate "/" f.spellings

/-- The operand of a command line. -/
inductive Operand where
  | nothing
  /-- One word. -/
  | word (name : String)
  /-- One of some words, and all words behind it. -/
  | choice (name : String) (choices : List String)
  deriving DecidableEq, Repr

/-- What a command line may hold. -/
structure Grammar where
  program : String
  flags : List Flag
  operand : Operand
  deriving DecidableEq, Repr

/-- What is wrong with a command line. -/
inductive Misuse where
  | ambiguous (word : String) (spellings : List String)
  | valueMissing (flag : Flag)
  | valueIgnored (flag : Flag) (value : String)
  | unknownChoice (name word : String) (choices : List String)
  | operandMissing (name : String)
  | unrecognized (words : List String)
  deriving DecidableEq, Repr

def Misuse.message : Misuse → String
  | .ambiguous word spellings =>
    "ambiguous option: " ++ word ++ " could match " ++ String.intercalate ", " spellings
  | .valueMissing flag => "argument " ++ flag.name ++ ": expected one argument"
  | .valueIgnored flag value =>
    "argument " ++ flag.name ++ ": ignored explicit argument " ++ quoted value
  | .unknownChoice name word choices =>
    "argument " ++ name ++ ": invalid choice: " ++ quoted word ++ " (choose from " ++
      String.intercalate ", " (choices.map quoted) ++ ")"
  | .operandMissing name => "the following arguments are required: " ++ name
  | .unrecognized words => "unrecognized arguments: " ++ String.intercalate " " words

/-- What a word of a command line is. -/
inductive WordKind where
  | operand
  /-- Two dashes, behind which all words are operands. -/
  | separator
  /-- An option, perhaps with a value in the same word. `marked` tells whether an equals sign is in
  front of the value, and `short` whether the option has a single dash. -/
  | option (flag : Flag) (short marked : Bool) (value : Option (List Char))
  | unknownOption
  deriving DecidableEq, Repr

/-- A word of a command line. -/
structure Word where
  text : String
  kind : WordKind
  deriving DecidableEq, Repr

/-- Does a word look like a negative number, with a line break at its end at most? -/
def looksNegative (word : List Char) : Bool :=
  match word with
  | '-' :: rest =>
    let rest := if rest.getLast? == some '\n' then rest.dropLast else rest
    match rest.dropWhile isDigit with
    | [] => !rest.isEmpty
    | '.' :: fraction => !fraction.isEmpty && fraction.all isDigit
    | _ => false
  | _ => false

/-- The parts of a word before and behind its first equals sign. -/
def splitEquals (word : List Char) : List Char × Option (List Char) :=
  match word.dropWhile (· != '=') with
  | [] => (word, none)
  | _ :: value => (word.takeWhile (· != '='), some value)

namespace Grammar

def spellings (g : Grammar) : List (String × Flag) :=
  g.flags.flatMap fun flag => flag.spellings.map fun spelling => (spelling, flag)

def flag? (g : Grammar) (spelling : List Char) : Option Flag :=
  g.spellings.lookup (String.ofList spelling)

def isShort (spelling : List Char) : Bool :=
  match spelling with
  | '-' :: '-' :: _ => false
  | _ => true

/-- What a word can be when it is no full spelling of an option: the options that a long one is short
for, or the option with one dash that a value follows. -/
def candidates (g : Grammar) (word : List Char) : List (String × WordKind) :=
  match word with
  | '-' :: '-' :: _ =>
    let (front, value) := splitEquals word
    g.spellings.filterMap fun (spelling, flag) =>
      if front.isPrefixOf spelling.toList then
        some (spelling, .option flag (isShort spelling.toList) value.isSome value)
      else none
  | _ =>
    g.spellings.filterMap fun (spelling, flag) =>
      if spelling.toList == word.take 2 then
        some (spelling, .option flag true false (some (word.drop 2)))
      else if word.isPrefixOf spelling.toList then
        some (spelling, .option flag (isShort spelling.toList) false none)
      else none

/-- What a word is that begins with a dash and is no full spelling of an option. -/
def kindOfDashed (g : Grammar) (text : String) : Except Misuse WordKind :=
  let word := text.toList
  match g.candidates word with
  | [(_, kind)] => .ok kind
  | a :: b :: rest => .error (.ambiguous text ((a :: b :: rest).map (·.1)))
  | [] => .ok (if looksNegative word || word.contains ' ' then .operand else .unknownOption)

def kindOf (g : Grammar) (text : String) : Except Misuse WordKind :=
  let word := text.toList
  match word with
  | '-' :: _ :: _ =>
    match g.flag? word, splitEquals word with
    | some flag, _ => .ok (.option flag (isShort word) false none)
    | none, (front, some value) =>
      match g.flag? front with
      | some flag => .ok (.option flag (isShort front) true (some value))
      | none => g.kindOfDashed text
    | none, _ => g.kindOfDashed text
  | _ => .ok .operand

/-- The words of a command line with what they are. -/
def words (g : Grammar) : List String → Except Misuse (List Word)
  | [] => .ok []
  | text :: rest =>
    if text == "--" then .ok (⟨text, .separator⟩ :: rest.map fun text => ⟨text, .operand⟩)
    else
      match g.kindOf text with
      | .error misuse => .error misuse
      | .ok kind => (g.words rest).map (⟨text, kind⟩ :: ·)

end Grammar

end QueryHarvest.Command
