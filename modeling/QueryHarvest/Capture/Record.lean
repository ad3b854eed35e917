import QueryHarvest.Number.Binary64
import QueryHarvest.Value.Basic

/-! # Captured statements -/

namespace QueryHarvest.Capture

open Number

/-- One execution of a statement: its text, its parameters and the time, in milliseconds. -/
structure Record where
  query : String
  parameters : List Value
  timestamp : Option Binary64

end QueryHarvest.Capture
