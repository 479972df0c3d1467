import HundredDays.Data.BigEndian
import HundredDays.Memory.Buffer

namespace HundredDays.TickSerializer

open HundredDays.Memory

/-! The wire format of a tick in 17 bytes, once with a function for each width and once
with loops behind a template. -/

@[ext] structure Tick where
  symbolId : UInt32
  price : UInt64
  size : UInt32
  side : UInt8
deriving DecidableEq, Repr

/-- `TICK_WIRE_SIZE` -/
def tickWireSize : Nat := 4 + 8 + 4 + 1

/-! ### The C functions -/

def writeU32BE (buf : List UInt8) (offset : Nat) (val : UInt32) : Option (List UInt8) := do
  let buf ← writeByte buf offset (val >>> 24).toUInt8
  let buf ← writeByte buf (offset + 1) (val >>> 16).toUInt8
  let buf ← writeByte buf (offset + 2) (val >>> 8).toUInt8
  writeByte buf (offset + 3) val.toUInt8

def writeU64BE (buf : List UInt8) (offset : Nat) (val : UInt64) : Option (List UInt8) := do
  let buf ← writeByte buf offset (val >>> 56).toUInt8
  let buf ← writeByte buf (offset + 1) (val >>> 48).toUInt8
  let buf ← writeByte buf (offset + 2) (val >>> 40).toUInt8
  let buf ← writeByte buf (offset + 3) (val >>> 32).toUInt8
  let buf ← writeByte buf (offset + 4) (val >>> 24).toUInt8
  let buf ← writeByte buf (offset + 5) (val >>> 16).toUInt8
  let buf ← writeByte buf (offset + 6) (val >>> 8).toUInt8
  writeByte buf (offset + 7) val.toUInt8

def readU32BE (buf : List UInt8) (offset : Nat) : Option UInt32 := do
  let b0 ← readByte buf offset
  let b1 ← readByte buf (offset + 1)
  let b2 ← readByte buf (offset + 2)
  let b3 ← readByte buf (offset + 3)
  return b0.toUInt32 <<< 24 ||| b1.toUInt32 <<< 16 ||| b2.toUInt32 <<< 8 ||| b3.toUInt32

def readU64BE (buf : List UInt8) (offset : Nat) : Option UInt64 := do
  let b0 ← readByte buf offset
  let b1 ← readByte buf (offset + 1)
  let b2 ← readByte buf (offset + 2)
  let b3 ← readByte buf (offset + 3)
  let b4 ← readByte buf (offset + 4)
  let b5 ← readByte buf (offset + 5)
  let b6 ← readByte buf (offset + 6)
  let b7 ← readByte buf (offset + 7)
  return b0.toUInt64 <<< 56 ||| b1.toUInt64 <<< 48 ||| b2.toUInt64 <<< 40 ||| b3.toUInt64 <<< 32 |||
    b4.toUInt64 <<< 24 ||| b5.toUInt64 <<< 16 ||| b6.toUInt64 <<< 8 ||| b7.toUInt64

/-- The number returned and the buffer left behind. -/
def serializeTick (src : Tick) (buf : List UInt8) (bufLen : Nat) : Option (Nat × List UInt8) :=
  if bufLen < tickWireSize then some (0, buf)
  else do
    let buf ← writeU32BE buf 0 src.symbolId
    let buf ← writeU64BE buf 4 src.price
    let buf ← writeU32BE buf 12 src.size
    let buf ← writeByte buf 16 src.side
    return (tickWireSize, buf)

/-- The number returned and the tick left in `dst`. -/
def deserializeTick (buf : List UInt8) (bufLen : Nat) (dst : Tick) : Option (Int × Tick) :=
  if bufLen < tickWireSize then some (-1, dst)
  else do
    let symbolId ← readU32BE buf 0
    let dst := { dst with symbolId }
    let price ← readU64BE buf 4
    let dst := { dst with price }
    let size ← readU32BE buf 12
    let dst := { dst with size }
    let side ← readByte buf 16
    return (0, { dst with side })

/-! ### The C++ class -/

def writeBE32 (buf : List UInt8) (offset : Nat) (val : UInt32) : Option (List UInt8) := do
  let buf ← writeByte buf offset (val >>> 24).toUInt8
  let buf ← writeByte buf (offset + 1) (val >>> 16).toUInt8
  let buf ← writeByte buf (offset + 2) (val >>> 8).toUInt8
  writeByte buf (offset + 3) val.toUInt8

def writeBE64 (buf : List UInt8) (offset : Nat) (val : UInt64) : Option (List UInt8) :=
  (List.range 8).foldlM (fun buf i => writeByte buf (offset + i) (val >>> UInt64.ofNat (56 - 8 * i)).toUInt8) buf

/-- The bytes are promoted to `int`, the result is converted back. -/
def readBE32 (buf : List UInt8) (offset : Nat) : Option UInt32 := do
  let b0 ← readByte buf offset
  let b1 ← readByte buf (offset + 1)
  let b2 ← readByte buf (offset + 2)
  let b3 ← readByte buf (offset + 3)
  let promoted := fun byte : UInt8 => byte.toUInt32.toInt32
  return (promoted b0 <<< 24 ||| promoted b1 <<< 16 ||| promoted b2 <<< 8 ||| promoted b3).toUInt32

def readBE64 (buf : List UInt8) (offset : Nat) : Option UInt64 :=
  (List.range 8).foldlM (fun val i => do
    let byte ← readByte buf (offset + i)
    return val <<< 8 ||| byte.toUInt64) 0

/-- The types that the template takes, with the functions chosen by their size. -/
class Width (T : Type) where
  writeBE : List UInt8 → Nat → T → Option (List UInt8)
  readBE : List UInt8 → Nat → Option T
  size : Nat

instance : Width UInt32 where
  writeBE := writeBE32
  readBE := readBE32
  size := 4

instance : Width UInt64 where
  writeBE := writeBE64
  readBE := readBE64
  size := 8

open Width

/-- `TickSerializer::serialize` -/
def serialize (t : Tick) : Option (List UInt8) := do
  let buf := List.replicate tickWireSize 0
  let off := 0
  let buf ← writeBE buf off t.symbolId
  let off := off + size UInt32
  let buf ← writeBE buf off t.price
  let off := off + size UInt64
  let buf ← writeBE buf off t.size
  let off := off + size UInt32
  writeByte buf off t.side

/-- `TickSerializer::deserialize` -/
def deserialize (buf : List UInt8) (t : Tick) : Option (Bool × Tick) :=
  if buf.length < tickWireSize then some (false, t)
  else do
    let off := 0
    let symbolId ← readBE buf off
    let t := { t with symbolId }
    let off := off + size UInt32
    let price ← readBE buf off
    let t := { t with price }
    let off := off + size UInt64
    let size' ← readBE buf off
    let t := { t with size := size' }
    let off := off + size UInt32
    let side ← readByte buf off
    return (true, { t with side })

end HundredDays.TickSerializer
