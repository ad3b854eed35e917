/-! # Blanks

The whitespace characters, and the two things done with runs of them: trimming the ends of a text and
collapsing every run to one space. -/

namespace QueryHarvest.Text

/-- White space: the ASCII controls that separate, and the Unicode spaces. U+200B, U+FEFF, U+180E and
U+2060 are not blank. -/
def isBlank (c : Char) : Bool :=
  let code := c.toNat
  (0x09 ≤ code && code ≤ 0x0D) || (0x1C ≤ code && code ≤ 0x20) || code == 0x85 || code == 0xA0 ||
    code == 0x1680 || (0x2000 ≤ code && code ≤ 0x200A) || code == 0x2028 || code == 0x2029 ||
    code == 0x202F || code == 0x205F || code == 0x3000

def trim (text : List Char) : List Char :=
  ((text.dropWhile isBlank).reverse.dropWhile isBlank).reverse

/-- Put one more character in front of a collapsed text: a blank becomes a space, and is lost in front
of another space. -/
def collapseStep (c : Char) (collapsed : List Char) : List Char :=
  if isBlank c then
    match collapsed with
    | ' ' :: _ => collapsed
    | _ => ' ' :: collapsed
  else c :: collapsed

def collapse (text : List Char) : List Char :=
  text.foldr collapseStep []

/-- The text of a string without the blanks at both ends. -/
def trimmed (text : String) : String :=
  String.ofList (trim text.toList)

end QueryHarvest.Text
