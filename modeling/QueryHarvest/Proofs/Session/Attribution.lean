import QueryHarvest.Proofs.Session.Ending
import QueryHarvest.Proofs.Sql.Joins
import QueryHarvest.Proofs.Value.Merging

/-! # Which table a filter is counted for

A condition without a table takes the first table of its statement. The twin without a table that every
qualified filter has takes it too, so that a filter on another table is counted for both.
-/

namespace QueryHarvest.Session

open Number Sql Capture Value

section

variable {s : Session} {c : Condition} {v : Value}

end

end QueryHarvest.Session
