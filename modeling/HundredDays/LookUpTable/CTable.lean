import HundredDays.LookUpTable.Model

namespace HundredDays.LookUpTable.C

/-! The symbol table of C.

A C string is the list of its characters; what is read behind the list is the
terminating NUL.  The `symbol` of a slot is the list of its eight characters.  Whether
`calloc` succeeds is a parameter, given the number of slots asked for.
-/

def SYMBOL_LENGTH : Nat := 8

structure Slot (V : Type) where
  symbol : Key
  price : V
  state : SlotState

structure SymbolTable (V : Type) where
  slots : Nat → Slot V
  capacity : Nat
  count : Nat
  tombstones : Nat

def hashFunc (str : Key) : UInt32 := (str.takeWhile (· ≠ 0)).foldl hashByte 0x811C9DC5

def strncpy (dest src : Key) (n : Nat) : Key :=
  (src.takeWhile (· ≠ 0) ++ List.replicate n 0).take n ++ dest.drop n

/-- Zero when the first characters agree, up to a NUL. -/
def strncmp (left right : Key) : Nat → Int
  | 0 => 0
  | n + 1 =>
      let first := left.headD 0
      let second := right.headD 0
      if first ≠ second then (first.toNat : Int) - second.toNat
      else if first = 0 then 0
      else strncmp left.tail right.tail n

/-- The two statements that store a symbol in a slot. -/
def storeSymbol (dest symbol : Key) : Key := (strncpy dest symbol (SYMBOL_LENGTH - 1)).set (SYMBOL_LENGTH - 1) 0

variable {V : Type} [Inhabited V]

/-- A slot of memory that `calloc` has cleared. -/
def clearSlot : Slot V := { symbol := List.replicate SYMBOL_LENGTH 0, price := default, state := .EMPTY }

def symbolTableCreate (capacity : Nat) : SymbolTable V :=
  { slots := fun _ => clearSlot, capacity, count := 0, tombstones := 0 }

def start (capacity : Nat) (symbol : Key) : Nat := (hashFunc symbol).toNat &&& maskOf capacity

def stopsAt (slots : Nat → Slot V) (symbol : Key) (index : Nat) : Bool :=
  let s := slots index
  s.state = .EMPTY || s.state = .OCCUPIED && strncmp s.symbol symbol SYMBOL_LENGTH = 0

def tombstoneAt (slots : Nat → Slot V) (index : Nat) : Bool := (slots index).state = .DELETED

def tableInsertRaw (slots : Nat → Slot V) (capacity : Nat) (symbol : Key) (price : V) :
    Option (Bool × (Nat → Slot V)) :=
  (probe (stopsAt slots symbol) (tombstoneAt slots) (maskOf capacity) (start capacity symbol)).map fun stopped =>
    match stopped with
    | some (index, firstTombstone) =>
        if (slots index).state = .EMPTY then
          let dest := firstTombstone.getD index
          (true, Function.update slots dest
            { symbol := storeSymbol (slots dest).symbol symbol, price, state := .OCCUPIED })
        else (true, Function.update slots index { slots index with price })
    | none => (false, slots)

def tableResize (calloc : Nat → Bool) (table : SymbolTable V) (newCapacity : Nat) :
    Option (Bool × SymbolTable V) :=
  if calloc newCapacity then
    ((List.range table.capacity).foldlM (fun newSlots index =>
      let slot := table.slots index
      if slot.state = .OCCUPIED then
        (tableInsertRaw newSlots newCapacity slot.symbol slot.price).map Prod.snd
      else some newSlots) (fun _ => clearSlot)).map fun newSlots =>
        (true, { table with slots := newSlots, capacity := newCapacity, tombstones := 0 })
  else some (false, table)

def insertProbed (table : SymbolTable V) (symbol : Key) (price : V) : Option (Bool × SymbolTable V) :=
  (probe (stopsAt table.slots symbol) (tombstoneAt table.slots) (maskOf table.capacity)
    (start table.capacity symbol)).map fun stopped =>
      match stopped with
      | some (index, firstTombstone) =>
          if (table.slots index).state = .EMPTY then
            let dest := firstTombstone.getD index
            let wasTombstone := (table.slots dest).state = .DELETED
            (true, { table with
              slots := Function.update table.slots dest
                { symbol := storeSymbol (table.slots dest).symbol symbol, price, state := .OCCUPIED }
              count := table.count + 1
              tombstones := if wasTombstone then table.tombstones - 1 else table.tombstones })
          else
            (true, { table with slots := Function.update table.slots index { table.slots index with price } })
      | none => (false, table)

def symbolTableInsert (calloc : Nat → Bool) (table : SymbolTable V) (symbol : Key) (price : V) :
    Option (Bool × SymbolTable V) :=
  if overloaded (table.count + table.tombstones + 1) table.capacity then
    (tableResize calloc table (table.capacity * 2 % 2 ^ 64)).bind fun resized =>
      if resized.1 then insertProbed resized.2 symbol price else some (false, resized.2)
  else insertProbed table symbol price

/-- The price stored in `*out_price`, when true is returned. -/
def symbolTableLookup (table : SymbolTable V) (symbol : Key) : Option (Option V) :=
  (probe (stopsAt table.slots symbol) (fun _ => false) (maskOf table.capacity)
    (start table.capacity symbol)).map fun stopped =>
      match stopped with
      | some (index, _) =>
          if (table.slots index).state = .EMPTY then none else some (table.slots index).price
      | none => none

def symbolTableDelete (table : SymbolTable V) (symbol : Key) : Option (Bool × SymbolTable V) :=
  (probe (stopsAt table.slots symbol) (fun _ => false) (maskOf table.capacity)
    (start table.capacity symbol)).map fun stopped =>
      match stopped with
      | some (index, _) =>
          if (table.slots index).state = .EMPTY then (false, table)
          else
            (true, { table with
              slots := Function.update table.slots index { table.slots index with state := .DELETED }
              count := table.count - 1
              tombstones := table.tombstones + 1 })
      | none => (false, table)

end HundredDays.LookUpTable.C
