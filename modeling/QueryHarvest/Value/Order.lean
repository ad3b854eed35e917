import QueryHarvest.Value.Frozen

/-! # The order of values

Values are ordered by kind first, then within their kind: numbers by what they denote, texts by code
points, arrays item by item, and all else by its displayed text. Only a not-a-number stands in no
relation to other numbers. -/

namespace QueryHarvest.Value

open Number

/-- The place of one text before another, by code points. -/
def compareTexts (a b : String) : Ordering :=
  if a < b then .lt else if a = b then .eq else .gt

/-- The place of two numbers; a not-a-number only agrees with its own occurrence. -/
def compareNumbers? (a b : Value) : Option Ordering :=
  match a.number?, b.number? with
  | some x, some y => some (x.compare y)
  | _, _ =>
    match a.nanOccurrence?, b.nanOccurrence? with
    | some x, some y => if x = y then some .eq else none
    | _, _ => none

/-- The place of two values of one kind without parts. -/
def compareScalars? (a b : Value) : Option Ordering :=
  match a, b with
  | .null, .null => some .eq
  | .text s, .text t => some (compareTexts s t)
  | _, _ =>
    if a.rank == 5 then some (compareTexts a.display b.display) else compareNumbers? a b

mutual

/-- The place of two fixed values, if they stand in a relation. -/
def compare? : Value → Value → Option Ordering
  | .tuple as, .tuple bs => compareAll? as bs
  | a, b =>
    if a.rank < b.rank then some .lt
    else if b.rank < a.rank then some .gt
    else compareScalars? a b

/-- The place of two rows: the first two items that do not agree decide, then the length. -/
def compareAll? : List Value → List Value → Option Ordering
  | [], [] => some .eq
  | [], _ :: _ => some .lt
  | _ :: _, [] => some .gt
  | a :: as, b :: bs =>
    match a.compare? b with
    | some .eq => compareAll? as bs
    | place => place

end

def before (a b : Value) : Bool :=
  a.compare? b == some .lt

mutual

def holdsNan : Value → Bool
  | .tuple items => anyHoldsNan items
  | .list items => anyHoldsNan items
  | .float (.nan _) => true
  | _ => false

def anyHoldsNan : List Value → Bool
  | [] => false
  | item :: rest => item.holdsNan || anyHoldsNan rest

end

/-- The longest run at the front in which `next` relates each value to the one after it, and the rest. -/
def leadingRun (next : Value → Value → Bool) : Value → List Value → List Value × List Value
  | a, [] => ([a], [])
  | a, b :: rest =>
    if next a b then
      let (run, others) := leadingRun next b rest
      (a :: run, others)
    else ([a], b :: rest)

/-- Where a value goes in a row: the last place, found by halving, before which nothing is known to
stand after the value. The bounds `low` and `high` enclose it. -/
def insertionPoint (row : Array Value) (value : Value) (low high : Nat) : Nat :=
  if h : low < high then
    let middle := low + (high - low) / 2
    if (row[middle]?).any value.before then insertionPoint row value low middle
    else insertionPoint row value (middle + 1) high
  else low
termination_by high - low

/-- Put a value into a row, at the place that `insertionPoint` finds. -/
def insertByHalving (row : List Value) (value : Value) : List Value :=
  let place := insertionPoint row.toArray value 0 row.length
  row.take place ++ value :: row.drop place

/-- Sort by halving insertion after the leading run. Where not-a-numbers make the order partial, the
result depends on this course of comparisons. -/
def sortByHalving : List Value → List Value
  | [] => []
  | [a] => [a]
  | a :: b :: rest =>
    if b.before a then
      let (run, others) := leadingRun (fun x y => y.before x) a (b :: rest)
      others.foldl insertByHalving run.reverse
    else
      let (run, others) := leadingRun (fun x y => !y.before x) a (b :: rest)
      others.foldl insertByHalving run

def sort (values : List Value) : List Value :=
  if anyHoldsNan values then sortByHalving values
  else values.mergeSort fun a b => !b.before a

end QueryHarvest.Value
