import QueryHarvest.Text.Quoted
import QueryHarvest.Value.Basic

/-! # Storable values

Bound values are brought to kinds that a log can hold: decimals become numbers, calendar values and
identifiers texts, and bytes hexadecimal texts. Objects are stored as they are. -/

namespace QueryHarvest.Capture

/-- Why a value cannot be stored. -/
inductive StorageError where
  | infiniteDecimal
  | signallingDecimal
  deriving DecidableEq, Repr

def StorageError.message : StorageError → String
  | .infiniteDecimal => "cannot convert Infinity to integer"
  | .signallingDecimal => "[<class 'decimal.InvalidOperation'>]"

def hexText (data : List UInt8) : String :=
  String.ofList (data.flatMap fun b => Text.hex 2 b.toNat)

/-- A decimal as a number: an integer if it equals one, else the nearest binary number. -/
def storableDecimal (d : Number.Decimal) : Except StorageError Value :=
  match d with
  | .infinite _ => .error .infiniteDecimal
  | .nan _ true _ _ => .error .signallingDecimal
  | d =>
    match d.toInt? with
    | some n => .ok (.int n)
    | none => .ok (.float d.toBinary64)

mutual

def storable : Value → Except StorageError Value
  | .list items => (storableAll items).map .list
  | .tuple items => (storableAll items).map .list
  | .decimal d => storableDecimal d
  | .date d => .ok (.text d.isoText)
  | .time t => .ok (.text t.isoText)
  | .dateTime d => .ok (.text (d.isoText "T"))
  | .uuid u => .ok (.text u.text)
  | .bytes data => .ok (.text (hexText data))
  | .buffer data => .ok (.text (hexText data))
  | value => .ok value

/-- Bring all items to kinds that a log can hold. -/
def storableAll : List Value → Except StorageError (List Value)
  | [] => .ok []
  | item :: rest =>
    match storable item with
    | .error error => .error error
    | .ok item => (storableAll rest).map (item :: ·)

end

end QueryHarvest.Capture
