/-! # Lines

Cutting a text into lines, at every character that Unicode counts as a line break. -/

namespace QueryHarvest.Text

def withNext (text : List Char) : List (Char × Option Char) :=
  text.zip ((text.drop 1).map some ++ [none])

/-- A carriage return ends a line as a line feed does; before a line feed it is dropped. -/
def unifyNewlines (text : List Char) : List Char :=
  (withNext text).flatMap fun (c, next) =>
    if c == '\r' then (if next == some '\n' then [] else ['\n']) else [c]

def isLineBreak (c : Char) : Bool :=
  let code := c.toNat
  (0x0A ≤ code && code ≤ 0x0D) || (0x1C ≤ code && code ≤ 0x1E) || code == 0x85 || code == 0x2028 ||
    code == 0x2029

/-- Put one more character in front of the lines of a text. -/
def lineStep (c : Char) (lines : List (List Char)) : List (List Char) :=
  if isLineBreak c then [] :: lines
  else
    match lines with
    | [] => [[c]]
    | line :: rest => (c :: line) :: rest

/-- The lines of a text, without their ends. A break at the very end begins no further line. -/
def lines (text : List Char) : List (List Char) :=
  (unifyNewlines text).foldr lineStep []

def linesOf (text : String) : List String :=
  (lines text.toList).map String.ofList

end QueryHarvest.Text
