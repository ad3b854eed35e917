import QueryHarvest.Text.Quoted

/-! # Universally unique identifiers -/

namespace QueryHarvest

/-- A 128-bit identifier. -/
structure Uuid where
  number : Nat
  deriving DecidableEq, Repr

namespace Uuid

def hexValue? (c : Char) : Option Nat :=
  if c.isDigit then some (c.toNat - 0x30)
  else if 'a' ≤ c && c ≤ 'f' then some (c.toNat - 0x57)
  else if 'A' ≤ c && c ≤ 'F' then some (c.toNat - 0x37)
  else none

/-- Read an identifier: thirty-two hexadecimal digits, wherever hyphens and braces stand. -/
def ofText? (text : String) : Option Uuid := do
  let digits ← (text.toList.filter fun c => c != '-' && c != '\x7b' && c != '\x7d').mapM hexValue?
  if digits.length == 32 then some ⟨digits.foldl (fun n d => 16 * n + d) 0⟩ else none

/-- Five groups of lower-case hexadecimal digits. -/
def text (u : Uuid) : String :=
  let digits := Text.hex 32 u.number
  let group := fun start size => String.ofList ((digits.drop start).take size)
  String.intercalate "-" [group 0 8, group 8 4, group 12 4, group 16 4, group 20 12]

end Uuid

end QueryHarvest
