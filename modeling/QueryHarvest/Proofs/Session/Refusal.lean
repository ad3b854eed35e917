import QueryHarvest.Proofs.Session.Coverage

/-! # What a refused value leaves behind

A value that serves as no key ends the adding of its statement halfway. What was added before it stays:
the session is left as by a statement that ends in front of the value, but for a key that the value was
the first on. Such a key keeps an entry without values, and with it the session has no result.
-/

namespace QueryHarvest.Session

open Sql Value

/-- The sessions that adding statements leads to, whether the adding fails or not. -/
inductive Reachable : Session → Prop
  | start : Reachable {}
  | add {s : Session} (h : Reachable s) (tables : List String) (conditions : List Condition) :
      Reachable (s.add tables conditions).session

/-- The session when a statement is counted and its tables are taken. -/
def begun (s : Session) (tables : List String) : Session :=
  { s with queryCount := s.queryCount + 1, tables := tables.foldl addTable s.tables }

section

variable {s : Session} {c : Condition} {error : KeyError}

/-- Whether a condition is refused or not, every entry keeps a key of its own. -/
theorem addCondition_distinct (distinct : (s.entries.map Entry.key).Nodup) (c : Condition) :
    ((s.addCondition c).session.entries.map Entry.key).Nodup := by
  have opened := (withEntry_distinct distinct c).1
  rw [session_addCondition]
  split
  · exact opened
  · rwa [keys_setValues]

theorem addConditions_distinct (distinct : (s.entries.map Entry.key).Nodup)
    (conditions : List Condition) :
    ((s.addConditions conditions).session.entries.map Entry.key).Nodup := by
  induction conditions generalizing s with
  | nil => exact distinct
  | cons c rest ih =>
      have next := addCondition_distinct distinct c
      cases ended : (s.addCondition c).error with
      | some error => simpa only [addConditions, ended] using next
      | none => simpa only [addConditions, ended] using ih next

theorem Reachable.distinct (reachable : Reachable s) : (s.entries.map Entry.key).Nodup := by
  induction reachable with
  | start => exact .nil
  | @add s _ tables conditions ih => exact addConditions_distinct (s := s.begun tables) ih _

end

section

variable {s : Session} {tables : List String} {conditions : List Condition}

end

end QueryHarvest.Session
