import QueryHarvest.Command.Grammar

/-! # Reading command lines

The words of a command line are gone through from left to right. Options are taken with their values,
the operand at the first place where it fits, and what is left over is kept. -/

namespace QueryHarvest.Command

/-- Why a command line is not carried out. -/
inductive Stop where
  /-- Help was asked for. -/
  | help
  | misuse (program : String) (what : Misuse)
  deriving DecidableEq, Repr

/-- What has been read from a command line: options with their values, newest first, the words of the
operand, and the words left over. -/
structure Line where
  flags : List (Flag × Option String) := []
  operand : List String := []
  leftover : List String := []
  deriving DecidableEq, Repr

namespace Line

def value? (l : Line) (spelling : String) : Option String :=
  (l.flags.find? fun taken => taken.1.spellings.contains spelling).bind (·.2)

def has (l : Line) (spelling : String) : Bool :=
  l.flags.any fun taken => taken.1.spellings.contains spelling

end Line

/-- What one word with options takes: the options with their values, a word that is left over, and the
words behind. -/
structure Taken where
  flags : List (Flag × Option String)
  leftover : List String
  rest : List Word

/-- Take an option whose value does not stand in the same word. -/
def takeApart (flag : Flag) (rest : List Word) : Except Misuse Taken :=
  if flag.kind == .valued then
    match rest with
    | ⟨text, .operand⟩ :: rest => .ok ⟨[(flag, some text)], [], rest⟩
    | _ => .error (.valueMissing flag)
  else .ok ⟨[(flag, none)], [], rest⟩

/-- Take an option with the characters that follow it in its word. Behind a short option without a
value, each character is a further short option. -/
def takeJoined (g : Grammar) (flag : Flag) (short marked : Bool) (rest : List Word) :
    List Char → Except Misuse Taken
  | [] =>
    if flag.kind == .valued then .ok ⟨[(flag, some "")], [], rest⟩
    else .error (.valueIgnored flag "")
  | c :: value =>
    if flag.kind == .valued then .ok ⟨[(flag, some (String.ofList (c :: value)))], [], rest⟩
    else if !short || marked || c == '-' then
      .error (.valueIgnored flag (String.ofList (c :: value)))
    else
      match g.flag? ['-', c] with
      | none => .ok ⟨[(flag, none)], [String.ofList ('-' :: c :: value)], rest⟩
      | some next =>
        let taken := match value with
          | [] => takeApart next rest
          | '=' :: value => takeJoined g next true true rest value
          | value => takeJoined g next true false rest value
        taken.map fun taken => { taken with flags := (flag, none) :: taken.flags }

def takeOption (g : Grammar) (flag : Flag) (short marked : Bool) (value : Option (List Char))
    (rest : List Word) : Except Misuse Taken :=
  match value with
  | none => takeApart flag rest
  | some value => takeJoined g flag short marked rest value

def Word.isOption (w : Word) : Bool :=
  match w.kind with
  | .option .. => true
  | .unknownOption => true
  | _ => false

/-- Take the operand from the front of some words, if it begins there: its words, and the words
behind. One word goes with the separators beside it, and a choice goes with all words behind it. -/
def takeOperand? (operand : Operand) (words : List Word) : Option (List String × List Word) :=
  match operand, words.dropWhile fun w => w.kind == .separator with
  | .word _, ⟨text, .operand⟩ :: rest => some ([text], rest.dropWhile fun w => w.kind == .separator)
  | .choice .., ⟨_, .operand⟩ :: _ => some (words.map (·.text), [])
  | _, _ => none

def Line.add (l : Line) (taken : Taken) : Line :=
  { l with
    flags := taken.flags.reverse ++ l.flags
    leftover := l.leftover ++ taken.leftover }

/-- Read some words, of which there are no more than `fuel`, with what was read before. As long as an
option follows, the words in front of it are the operand or left over; behind the last option, the
operand is taken if it has not been, and the rest is left over. -/
def readWords (g : Grammar) : Nat → Option Operand → Line → List Word → Except Stop Line
  | 0, _, l, _ => .ok l
  | _, _, l, [] => .ok l
  | fuel + 1, pending, l, w :: rest =>
    match w.kind with
    | .option flag short marked value =>
      match takeOption g flag short marked value rest with
      | .error what => .error (.misuse g.program what)
      | .ok taken =>
        if taken.flags.any fun taken => taken.1.kind == .help then .error .help
        else readWords g fuel pending (l.add taken) taken.rest
    | .unknownOption => readWords g fuel pending { l with leftover := l.leftover ++ [w.text] } rest
    | _ =>
      match pending.bind fun operand => takeOperand? operand (w :: rest) with
      | some (taken, rest) => readWords g fuel none { l with operand := taken } rest
      | none =>
        let skipped := (w :: rest).takeWhile fun w => !w.isOption
        readWords g fuel pending { l with leftover := l.leftover ++ skipped.map (·.text) }
          ((w :: rest).dropWhile fun w => !w.isOption)

/-- What is wrong with the words taken for an operand. -/
def Operand.misuse? (operand : Operand) (words : List String) : Option Misuse :=
  match operand, words with
  | .nothing, _ => none
  | .word name, [] => some (.operandMissing name)
  | .word _, _ :: _ => none
  | .choice name _, [] => some (.operandMissing name)
  | .choice name choices, first :: _ =>
    if choices.contains first then none else some (.unknownChoice name first choices)

/-- Read a command line, whose operand must not be missing. -/
def Grammar.read (g : Grammar) (arguments : List String) : Except Stop Line := do
  let words ← (g.words arguments).mapError (.misuse g.program)
  let line ← readWords g words.length (some g.operand) {} words
  match g.operand.misuse? line.operand with
  | some what => throw (.misuse g.program what)
  | none => return line

end QueryHarvest.Command
