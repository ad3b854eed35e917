import QueryHarvest.Text.Table.Word

/-! # Word characters

A word is a run of letters, numbers and underscores, in any script. An identifier is the ASCII part of
that, met without regard to case: four letters beyond ASCII count as case variants of ASCII ones. -/

namespace QueryHarvest.Text

def isWord (c : Char) : Bool :=
  if c.toNat < 0x80 then c.isAlphanum || c == '_' else wordRanges.covers c.toNat

/-- Is there a word character here? The end of the text holds none. -/
def isWord? : Option Char → Bool
  | some c => isWord c
  | none => false

/-- The ASCII letter that a character is a case variant of, in lower case: U+0130 and U+0131 are
variants of `i`, U+017F of `s` and U+212A of `k`. Other characters stand for themselves. -/
def foldLetter (c : Char) : Char :=
  if c.toNat < 0x80 then c.toLower
  else if c.toNat == 0x130 || c.toNat == 0x131 then 'i'
  else if c.toNat == 0x17F then 's'
  else if c.toNat == 0x212A then 'k'
  else c

def isIdentStart (c : Char) : Bool :=
  (foldLetter c).isAlpha || c == '_'

def isIdentPart (c : Char) : Bool :=
  isIdentStart c || c.isDigit

end QueryHarvest.Text
