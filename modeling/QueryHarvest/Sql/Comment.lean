import QueryHarvest.Text.Case
import QueryHarvest.Text.Cursor

/-! # Comments

Removing the comments of a statement. Literals, quoted names, dollar-quoted bodies and runs of
operator characters are passed over as wholes, so that a comment mark inside them begins no comment.
A comment whose mark is followed by `+` is a hint and stays. -/

namespace QueryHarvest.Sql

open Text

/-- May a dollar tag begin with this character? Letters of the Latin alphabet with its accents, and
the underscore. -/
def isTagStart (c : Char) : Bool :=
  let code := c.toNat
  isIdentStart c || (0xC0 ≤ code && code ≤ 0xDC) || (0xE0 ≤ code && code ≤ 0xFC && code != 0xF7) ||
    code == 0x212B

/-- The dollar tag at the front of a text: `$`, an optional name, `$`. -/
def dollarTag? : List Char → Option (List Char)
  | '$' :: '$' :: _ => some ['$', '$']
  | '$' :: c :: rest =>
    if isTagStart c then
      let name := c :: rest.takeWhile isWord
      if (rest.dropWhile isWord).head? == some '$' then some ('$' :: name ++ ['$']) else none
    else none
  | _ => none

/-- Are two characters the same up to their case? Where lower case lengthens a character, its first
one counts. -/
def sameLetter (a b : Char) : Bool :=
  a == b || (lowerChar a).head? == (lowerChar b).head?

def startsWith : List Char → List Char → Bool
  | [], _ => true
  | _ :: _, [] => false
  | a :: mark, b :: text => sameLetter a b && startsWith mark text

/-- How many characters a text has up to and with the first occurrence of a mark. -/
def lengthThrough? (mark : List Char) : List Char → Option Nat
  | [] => if mark.isEmpty then some 0 else none
  | c :: text =>
    if startsWith mark (c :: text) then some mark.length
    else (lengthThrough? mark text).map (· + 1)

/-- How many characters follow up to and with the quote that closes a quoted piece. A doubled quote,
and where `escapes` allows it a quote behind a backslash, closes the piece only when no later quote
does. -/
def lengthToClose? (quote : Char) (escapes : Bool) : List Char → Option Nat
  | [] => none
  | c :: rest =>
    if c == quote then
      match rest with
      | d :: rest' =>
        if d == quote then some ((lengthToClose? quote escapes rest').elim 1 (· + 2)) else some 1
      | [] => some 1
    else if escapes && c == '\\' then
      match rest with
      | d :: rest' =>
        if d == quote then some ((lengthToClose? quote escapes rest').elim 2 (· + 2))
        else (lengthToClose? quote escapes (d :: rest')).map (· + 1)
      | [] => none
    else (lengthToClose? quote escapes rest).map (· + 1)

/-- How many characters a text has up to and with the end of its first line. -/
def lengthOfLine : List Char → Nat
  | [] => 0
  | '\r' :: '\n' :: _ => 2
  | c :: rest => if c == '\r' || c == '\n' then 1 else lengthOfLine rest + 1

def dollarBody? (c : Cursor) : Option Nat :=
  if isWord? c.before || c.before == some '\x22' || c.before == some '$' then none
  else do
    let tag ← dollarTag? c.rest
    let body ← lengthThrough? tag (c.rest.drop tag.length)
    return tag.length + body

/-- The length of a block comment, and whether it is a hint. -/
def blockComment? : List Char → Option (Bool × Nat)
  | '/' :: '*' :: '+' :: rest => (lengthThrough? ['*', '/'] rest).map fun n => (true, n + 3)
  | '/' :: '*' :: rest => (lengthThrough? ['*', '/'] rest).map fun n => (false, n + 2)
  | _ => none

/-- The length of a comment to the end of the line, and whether it is a hint. -/
def lineComment? : List Char → Option (Bool × Nat)
  | '-' :: '-' :: rest => some (rest.head? == some '+', lengthOfLine rest + 2)
  | '#' :: ' ' :: rest => some (rest.head? == some '+', lengthOfLine rest + 2)
  | _ => none

/-- May this character stand in a run of operators? -/
def isOperatorChar (c : Char) : Bool :=
  ['+', '/', '@', '#', '%', '^', '&', '|', '-'].contains c

/-- The length of an operator: the longest of the fixed ones, or a run of operator characters. -/
def operatorLength? : List Char → Option Nat
  | '-' :: '>' :: '>' :: _ => some 3
  | '-' :: '>' :: _ => some 2
  | '#' :: '>' :: '>' :: _ => some 3
  | '#' :: '>' :: _ => some 2
  | '@' :: '>' :: _ => some 2
  | '<' :: '@' :: _ => some 2
  | '#' :: '-' :: _ => some 2
  | '-' :: _ => some 1
  | text =>
    let run := text.takeWhile isOperatorChar
    if run.isEmpty then none else some run.length

def bracketed? (c : Cursor) : Option Nat :=
  if isWord? c.before || c.before == some ']' || c.before == some ')' then none
  else
    match c.rest with
    | '[' :: rest =>
      let inside := rest.takeWhile fun x => x != '[' && x != ']'
      if inside.isEmpty then none
      else if (rest.drop inside.length).head? == some ']' then some (inside.length + 2) else none
    | _ => none

def wordLength? : List Char → Option Nat
  | [] => none
  | c :: rest =>
    if isWord c then some (1 + (rest.takeWhile fun x => isWord x || x == '$' || x == '#').length)
    else if c == '$' || c == ':' || c == '?' then
      let name := rest.takeWhile isWord
      if name.isEmpty then none else some (name.length + 1)
    else none

def quotedPiece? : List Char → Option Nat
  | [] => none
  | c :: rest =>
    if c == '\x60' then (lengthToClose? c false rest).map (· + 1)
    else if c == '\x27' || c == '\x22' then (lengthToClose? c true rest).map (· + 1)
    else none

/-- What stands at a place: a comment, or something kept as it is, of some length. -/
structure Lexeme where
  isComment : Bool
  length : Nat

/-- The lexeme at a place; where no rule fits, one character is kept. -/
def lexemeAt (c : Cursor) : Lexeme :=
  match dollarBody? c with
  | some length => ⟨false, length⟩
  | none =>
    match blockComment? c.rest <|> lineComment? c.rest with
    | some (isHint, length) => ⟨!isHint, length⟩
    | none =>
      ⟨false, (quotedPiece? c.rest <|> bracketed? c <|> wordLength? c.rest <|>
        operatorLength? c.rest).getD 1⟩

/-- The text written so far, newest character first, and what decides on the blanks around comments. -/
structure Written where
  text : List Char := []
  /-- How many parentheses are open in the statement. -/
  depth : Int := 0
  /-- A statement has just ended, and blanks and comments after it are dropped. -/
  ended : Bool := false

namespace Written

/-- Write a kept lexeme. Behind a statement that has ended, blanks on the same line are dropped, and
anything else begins the next statement. -/
def keep (w : Written) (lexeme : List Char) : Written :=
  match lexeme with
  | [c] =>
    if w.ended && isBlank c && c != '\r' && c != '\n' then w
    else
      let depth := if w.ended then 0 else w.depth
      let depth := if c == '(' then depth + 1 else if c == ')' then depth - 1 else depth
      { text := c :: w.text, depth, ended := c == ';' && depth ≤ 0 }
  | chars =>
    { text := chars.reverse ++ w.text, depth := if w.ended then 0 else w.depth, ended := false }

/-- Write what takes the place of a comment: a space, but nothing behind an opening parenthesis or a
statement that has ended. -/
def replaceComment (w : Written) : Written :=
  if w.ended || w.text.head? == some '(' then w else { w with text := ' ' :: w.text }

/-- Go through a text from a place on, lexeme by lexeme. -/
def writeFrom (w : Written) (c : Cursor) : Written :=
  if _h : c.rest.isEmpty then w
  else
    let lexeme := lexemeAt c
    let read := c.rest.take (max 1 lexeme.length)
    (if lexeme.isComment then w.replaceComment else w.keep read).writeFrom
      ⟨read.getLast?.or c.before, c.rest.drop (max 1 lexeme.length)⟩
termination_by c.rest.length
decreasing_by
  have : 0 < c.rest.length := List.length_pos_iff.2 (by simpa using _h)
  simp only [List.length_drop]
  omega

end Written

/-- The text without its comments, each replaced by a space where blanks may stand. -/
def stripComments (text : List Char) : List Char :=
  (Written.writeFrom {} (Cursor.start text)).text.reverse

end QueryHarvest.Sql
