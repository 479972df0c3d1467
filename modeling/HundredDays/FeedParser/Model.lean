import HundredDays.Data.BigEndian
import HundredDays.Memory.Buffer

namespace HundredDays.FeedParser

open HundredDays.Data HundredDays.Memory

/-! Parsing a feed of 16-byte ticks in place.

Pointers into the buffer are offsets, and the calls of `on_tick` are a list of what it
is called with.  The host is little-endian.
-/

/-- `TICK_SIZE` -/
def tickSize : Nat := 16

/-- What `memcpy` makes of bytes copied into a number. -/
def hostOrder (bytes : List UInt8) : Nat := fromBE bytes.reverse

/-- `BSWAP32` -/
def bswap32 (x : UInt32) : UInt32 := UInt32.ofNat (fromBE (toBE 4 x.toNat).reverse)

/-- `BSWAP64` -/
def bswap64 (x : UInt64) : UInt64 := UInt64.ofNat (fromBE (toBE 8 x.toNat).reverse)

def readBE32 (buf : List UInt8) (ptr : Nat) : Option UInt32 := do
  let bytes ← readBytes buf ptr 4
  let val := UInt32.ofNat (hostOrder bytes)
  return bswap32 val

def readBE64 (buf : List UInt8) (ptr : Nat) : Option UInt64 := do
  let bytes ← readBytes buf ptr 8
  let val := UInt64.ofNat (hostOrder bytes)
  return bswap64 val

/-- What a callback can read while it runs. -/
structure Tick where
  symbol : List UInt8
  price : UInt32
  quantity : UInt64
deriving DecidableEq, Repr

/-! ### The C parser -/

structure MarketTickView where
  symbol : Nat
  symLen : Nat
  price : UInt32
  quantity : UInt64
deriving DecidableEq, Repr

def MarketTickView.tick (view : MarketTickView) (buf : List UInt8) : Option Tick := do
  let symbol ← readBytes buf view.symbol view.symLen
  return { symbol, price := view.price, quantity := view.quantity }

/-- The loop, with the views passed to `on_tick` and the last offset. -/
def parseFeedFrom (buf : List UInt8) (len offset : Nat) : Option (List MarketTickView × Nat) :=
  if offset + tickSize ≤ len then do
    let tickPtr := offset
    let price ← readBE32 buf (tickPtr + 4)
    let quantity ← readBE64 buf (tickPtr + 8)
    let tick := { symbol := tickPtr, symLen := 4, price, quantity }
    let (later, consumed) ← parseFeedFrom buf len (offset + tickSize)
    return (tick :: later, consumed)
  else some ([], offset)
termination_by len - offset
decreasing_by
  have positive : 0 < tickSize := by decide
  omega

def parseFeed (buf : List UInt8) (len : Nat) : Option (List MarketTickView × Nat) := parseFeedFrom buf len 0

/-- The ticks and the count for a buffer of its own length. -/
def emit (buf : List UInt8) : Option (List Tick × Nat) := do
  let (views, consumed) ← parseFeed buf buf.length
  let ticks ← views.mapM fun view => view.tick buf
  return (ticks, consumed)

/-! ### The C++ parser -/

structure StringView where
  data : Nat
  size : Nat
deriving DecidableEq, Repr

structure MarketTickStringView where
  symbol : StringView
  price : UInt32
  quantity : UInt64
deriving DecidableEq, Repr

def MarketTickStringView.tick (view : MarketTickStringView) (memory : List UInt8) : Option Tick := do
  let symbol ← readBytes memory view.symbol.data view.symbol.size
  return { symbol, price := view.price, quantity := view.quantity }

def parseStreamFrom (memory : List UInt8) (stream : StringView) (offset : Nat) :
    Option (List MarketTickStringView × Nat) :=
  if offset + tickSize ≤ stream.size then do
    let tickPtr := stream.data + offset
    let price ← readBE32 memory (tickPtr + 4)
    let quantity ← readBE64 memory (tickPtr + 8)
    let tick := { symbol := { data := tickPtr, size := 4 }, price, quantity }
    let (later, consumed) ← parseStreamFrom memory stream (offset + tickSize)
    return (tick :: later, consumed)
  else some ([], offset)
termination_by stream.size - offset
decreasing_by
  have positive : 0 < tickSize := by decide
  omega

/-- `FeedParser::parse_feed` -/
def parseStream (memory : List UInt8) (stream : StringView) : Option (List MarketTickStringView × Nat) :=
  parseStreamFrom memory stream 0

def emitStream (memory : List UInt8) : Option (List Tick × Nat) := do
  let (views, consumed) ← parseStream memory { data := 0, size := memory.length }
  let ticks ← views.mapM fun view => view.tick memory
  return (ticks, consumed)

/-! ### Packets -/

/-- The packets one after another, each behind what the call before it did not consume. -/
def feed (parse : List UInt8 → Option (List Tick × Nat)) (tail : List UInt8) :
    List (List UInt8) → Option (List Tick × List UInt8)
  | [] => some ([], tail)
  | packet :: rest => do
      let buffer := tail ++ packet
      let (ticks, consumed) ← parse buffer
      let (later, left) ← feed parse (buffer.drop consumed) rest
      return (ticks ++ later, left)

end HundredDays.FeedParser
