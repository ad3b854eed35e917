/-! # Ranges of code points

Character classes beyond ASCII are ascending lists of inclusive ranges. -/

namespace QueryHarvest.Text

/-- An ascending list of inclusive ranges of code points. -/
abbrev CodeRanges := List (Nat × Nat)

/-- Is the code point in one of the ranges? The search ends at the first range that starts above it. -/
def CodeRanges.covers : CodeRanges → Nat → Bool
  | [], _ => false
  | (lo, hi) :: rest, code => if code < lo then false else code ≤ hi || covers rest code

end QueryHarvest.Text
