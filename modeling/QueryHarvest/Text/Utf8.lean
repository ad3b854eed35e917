import QueryHarvest.Text.Quoted

/-! # UTF-8

Decoding bytes, with the extent and the reason of a fault. -/

namespace QueryHarvest.Text.Utf8

/-- Why bytes are no UTF-8. -/
inductive Reason where
  | invalidStart
  | invalidContinuation
  | unexpectedEnd
  deriving DecidableEq, Repr

def Reason.message : Reason → String
  | .invalidStart => "invalid start byte"
  | .invalidContinuation => "invalid continuation byte"
  | .unexpectedEnd => "unexpected end of data"

/-- What stands at the front of some bytes: a character, or a fault, with the number of bytes that it
takes up. -/
inductive Piece where
  | char (c : Char) (size : Nat)
  | fault (reason : Reason) (size : Nat)

def isContinuation (b : UInt8) : Bool :=
  0x80 ≤ b.toNat && b.toNat < 0xC0

def low6 (b : UInt8) : Nat := b.toNat % 0x40

/-- The bytes allowed second after a lead byte: overlong forms, surrogates and code points beyond the
last are cut off here. -/
def secondAllowed (lead second : UInt8) : Bool :=
  isContinuation second &&
    (if lead == 0xE0 then 0xA0 ≤ second.toNat
     else if lead == 0xED then second.toNat < 0xA0
     else if lead == 0xF0 then 0x90 ≤ second.toNat
     else if lead == 0xF4 then second.toNat < 0x90
     else true)

def pieceAt (lead : UInt8) (rest : List UInt8) : Piece :=
  let b := lead.toNat
  if b < 0x80 then .char (Char.ofNat b) 1
  else if b < 0xC2 || 0xF5 ≤ b then .fault .invalidStart 1
  else
    match rest with
    | [] => .fault .unexpectedEnd 1
    | second :: rest =>
      if !secondAllowed lead second then .fault .invalidContinuation 1
      else if b < 0xE0 then .char (Char.ofNat (b % 0x20 * 0x40 + low6 second)) 2
      else
        match rest with
        | [] => .fault .unexpectedEnd 2
        | third :: rest =>
          if !isContinuation third then .fault .invalidContinuation 2
          else if b < 0xF0 then
            .char (Char.ofNat ((b % 0x10 * 0x40 + low6 second) * 0x40 + low6 third)) 3
          else
            match rest with
            | [] => .fault .unexpectedEnd 3
            | fourth :: _ =>
              if !isContinuation fourth then .fault .invalidContinuation 3
              else
                .char (Char.ofNat
                  (((b % 0x08 * 0x40 + low6 second) * 0x40 + low6 third) * 0x40 + low6 fourth)) 4

/-- The pieces of some bytes, newest first; `skip` bytes still belong to the piece before. -/
def piecesOnto (pieces : List Piece) : Nat → List UInt8 → List Piece
  | _, [] => pieces
  | skip + 1, _ :: rest => piecesOnto pieces skip rest
  | 0, b :: rest =>
    let piece := pieceAt b rest
    let size := match piece with
      | .char _ size => size
      | .fault _ size => size
    piecesOnto (piece :: pieces) (size - 1) rest

def pieces (bytes : List UInt8) : List Piece :=
  (piecesOnto [] 0 bytes).reverse

/-- The first fault of some bytes. -/
structure Fault where
  reason : Reason
  position : Nat
  size : Nat
  /-- The byte at the position. -/
  byte : UInt8
  deriving DecidableEq, Repr

def Fault.message (f : Fault) : String :=
  if f.size == 1 then
    "'utf-8' codec can't decode byte 0x" ++ String.ofList (hex 2 f.byte.toNat) ++
      s!" in position {f.position}: " ++ f.reason.message
  else
    s!"'utf-8' codec can't decode bytes in position {f.position}-{f.position + f.size - 1}: " ++
      f.reason.message

/-- Collect the characters of the pieces that begin at a position. -/
def collectFrom (bytes : List UInt8) (position : Nat) (chars : List Char) :
    List Piece → Except Fault (List Char)
  | [] => .ok chars.reverse
  | .char c size :: rest => collectFrom bytes (position + size) (c :: chars) rest
  | .fault reason size :: _ => .error ⟨reason, position, size, bytes.getD position 0⟩

def decode (bytes : List UInt8) : Except Fault String :=
  (collectFrom bytes 0 [] (pieces bytes)).map String.ofList

/-- The text that some bytes encode, with U+FFFD in the place of every fault. -/
def decodeLossy (bytes : List UInt8) : String :=
  String.ofList ((pieces bytes).map fun
    | .char c _ => c
    | .fault .. => Char.ofNat 0xFFFD)

end QueryHarvest.Text.Utf8
