import QueryHarvest.Text.Table.Digit

/-! # Decimal digits

The decimal digits of every script, and the number that a run of them writes. -/

namespace QueryHarvest.Text

def digitValue? (c : Char) : Option Nat :=
  let code := c.toNat
  if code < 0x80 then
    if c.isDigit then some (code - 0x30) else none
  else
    (digitZeros.find? fun base => base ≤ code && code < base + 10).map (code - ·)

def isDigit (c : Char) : Bool :=
  (digitValue? c).isSome

/-- The number written by a run of digits, most significant first. Other characters count as zero. -/
def digitsValue (digits : List Char) : Nat :=
  digits.foldl (fun n c => 10 * n + (digitValue? c).getD 0) 0

end QueryHarvest.Text
