import HundredDays.Data.Probing

namespace HundredDays.LookUpTable

/-! The open-addressing `SymbolTable` of C++, with byte strings as keys.

A probe loop that goes on for ever gives `none`.  The slots of a table are a function
on indices; those from the capacity on are never used.
-/

inductive SlotState where
  | EMPTY
  | OCCUPIED
  | DELETED
  deriving DecidableEq

abbrev Key := List UInt8

structure Slot (V : Type) where
  key : Key
  value : V
  state : SlotState

structure SymbolTable (V : Type) where
  slots : Nat → Slot V
  capacity : Nat
  count : Nat
  tombstones : Nat

/-- One round of the FNV-1a loops. -/
def hashByte (hash : UInt32) (byte : UInt8) : UInt32 := (hash ^^^ byte.toUInt32) * 0x01000193

def hashKey (key : Key) : UInt32 := key.foldl hashByte 0x811C9DC5

/-- `uint32_t` indices are masked with the low bits of `capacity - 1`. -/
def maskOf (capacity : Nat) : Nat := (capacity + 2 ^ 64 - 1) % 2 ^ 32

/-- A walk over `uint32_t` indices that repeats none is at most this long. -/
def rounds : Nat := 2 ^ 32

/-- The loop that all operations share: go on from slot to slot until one passes the
test, noting the first tombstone on the way (for the operations that use it), or
until the walk is back at its start. -/
def probeFrom (stops tombstone : Nat → Bool) (mask start : Nat) :
    Nat → Nat → Option Nat → Option (Option (Nat × Option Nat))
  | 0, _, _ => none
  | steps + 1, index, firstTombstone =>
      if stops index then some (some (index, firstTombstone))
      else
        let firstTombstone := if tombstone index then firstTombstone.or (some index) else firstTombstone
        let index := (index + 1) % 2 ^ 32 &&& mask
        if index = start then some none
        else probeFrom stops tombstone mask start steps index firstTombstone

def probe (stops tombstone : Nat → Bool) (mask start : Nat) : Option (Option (Nat × Option Nat)) :=
  probeFrom stops tombstone mask start rounds start none

/-- The test `load > MAX_LOAD` on doubles.  The capacity is a power of two, so the
quotient is exact as long as `used` is (below `2 ^ 53`); the double `0.7` is
`6305039478318694 / 2 ^ 53`. -/
def overloaded (used capacity : Nat) : Bool := 6305039478318694 * capacity < used * 2 ^ 53

namespace SymbolTable

variable {V : Type} [Inhabited V]

def emptySlot : Slot V := { key := [], value := default, state := .EMPTY }

def create (initialCapacity : Nat) : SymbolTable V :=
  { slots := fun _ => emptySlot, capacity := initialCapacity, count := 0, tombstones := 0 }

def start (capacity : Nat) (key : Key) : Nat := (hashKey key).toNat &&& maskOf capacity

def insertRaw (slots : Nat → Slot V) (capacity : Nat) (key : Key) (value : V) : Option (Nat → Slot V) :=
  (probe (fun index => (slots index).state ≠ .OCCUPIED) (fun _ => false) (maskOf capacity)
    (start capacity key)).map fun stopped =>
      match stopped with
      | some (index, _) => Function.update slots index { key, value, state := .OCCUPIED }
      | none => slots

def resize (table : SymbolTable V) (newCapacity : Nat) : Option (SymbolTable V) :=
  ((List.range table.capacity).foldlM (fun newSlots index =>
    let slot := table.slots index
    if slot.state = .OCCUPIED then insertRaw newSlots newCapacity slot.key slot.value else some newSlots)
    (fun _ => emptySlot)).map fun newSlots =>
      { table with slots := newSlots, capacity := newCapacity, tombstones := 0 }

/-- Whether the loops of `insert`, `lookup` and `remove` return at this slot. -/
def stopsAt (table : SymbolTable V) (key : Key) (index : Nat) : Bool :=
  let slot := table.slots index
  slot.state = .EMPTY || slot.state = .OCCUPIED && slot.key = key

def tombstoneAt (table : SymbolTable V) (index : Nat) : Bool := (table.slots index).state = .DELETED

def insertProbed (table : SymbolTable V) (key : Key) (value : V) : Option (Bool × SymbolTable V) :=
  (probe (table.stopsAt key) table.tombstoneAt (maskOf table.capacity) (start table.capacity key)).map
    fun stopped =>
      match stopped with
      | some (index, firstTombstone) =>
          if (table.slots index).state = .EMPTY then
            let dest := firstTombstone.getD index
            let wasTombstone := (table.slots dest).state = .DELETED
            (true, { table with
              slots := Function.update table.slots dest { key, value, state := .OCCUPIED }
              count := table.count + 1
              tombstones := if wasTombstone then table.tombstones - 1 else table.tombstones })
          else
            (true, { table with
              slots := Function.update table.slots index { table.slots index with value } })
      | none => (false, table)

def insert (table : SymbolTable V) (key : Key) (value : V) : Option (Bool × SymbolTable V) := do
  let table ← if overloaded (table.count + table.tombstones + 1) table.capacity then
      table.resize (table.capacity * 2 % 2 ^ 64)
    else some table
  table.insertProbed key value

def lookup (table : SymbolTable V) (key : Key) : Option (Option V) :=
  (probe (table.stopsAt key) (fun _ => false) (maskOf table.capacity) (start table.capacity key)).map
    fun stopped =>
      match stopped with
      | some (index, _) =>
          if (table.slots index).state = .EMPTY then none else some (table.slots index).value
      | none => none

def remove (table : SymbolTable V) (key : Key) : Option (Bool × SymbolTable V) :=
  (probe (table.stopsAt key) (fun _ => false) (maskOf table.capacity) (start table.capacity key)).map
    fun stopped =>
      match stopped with
      | some (index, _) =>
          if (table.slots index).state = .EMPTY then (false, table)
          else
            (true, { table with
              slots := Function.update table.slots index { table.slots index with state := .DELETED }
              count := table.count - 1
              tombstones := table.tombstones + 1 })
      | none => (false, table)

def size (table : SymbolTable V) : Nat := table.count

end SymbolTable

end HundredDays.LookUpTable
