import HundredDays.Memory.Pointer

namespace HundredDays.Buddy

open HundredDays.Memory

/-! The buddy allocator, on the bytes of its pool: `buddy_alloc.c`, and the class `BuddyAllocatorRaw`,
whose functions do the same.

Addresses are numbers and a null pointer is `none`.  Every free or live block
starts with a `BlockHeader`: `next` at byte 0, `prev` at byte 8, `order` at byte 16
and `is_free` at byte 17, padded to 24 bytes.  An operation that returns `none`
does not return.
-/

def headerSize : Nat := 24

/-- The array `free_lists` has this many entries. -/
def maxOrders : Nat := 16

/-- The `BuddyAllocator` record, with the memory its pointers lead to. -/
structure BuddyAllocator where
  memoryPool : Nat
  poolSize : Nat
  minBlockSize : Nat
  minOrder : Nat
  maxOrder : Nat
  freeLists : Nat → Option Nat
  memory : Nat → UInt8

namespace BuddyAllocator

variable (alloc : BuddyAllocator) (node : Nat)

def next : Option Nat := loadPointer alloc.memory node

def prev : Option Nat := loadPointer alloc.memory (node + 8)

def order : Nat := (alloc.memory (node + 16)).toNat

def isFree : Bool := alloc.memory (node + 17) != 0

def setNext (link : Option Nat) : BuddyAllocator :=
  { alloc with memory := storePointer alloc.memory node link }

def setPrev (link : Option Nat) : BuddyAllocator :=
  { alloc with memory := storePointer alloc.memory (node + 8) link }

def setByte (address : Nat) (byte : UInt8) : BuddyAllocator :=
  { alloc with memory := Function.update alloc.memory address byte }

def setOrder (order : Nat) : BuddyAllocator := alloc.setByte (node + 16) (UInt8.ofNat order)

def setFree (isFree : Bool) : BuddyAllocator := alloc.setByte (node + 17) (if isFree then 1 else 0)

def setList (index : Nat) (link : Option Nat) : BuddyAllocator :=
  { alloc with freeLists := Function.update alloc.freeLists index link }

end BuddyAllocator

/-- The loop of `log2_ceil`.  A size above `2 ^ 63` keeps it going for ever, since
`val` is shifted out to zero. -/
def log2CeilFrom (size : Nat) : Nat → Nat → Nat → Option Nat
  | 0, _, _ => none
  | steps + 1, val, order =>
      if val < size then log2CeilFrom size steps (val * 2 % 2 ^ 64) ((order + 1) % 256) else some order

def log2Ceil (size : Nat) : Option Nat := log2CeilFrom size 65 1 0

def listAdd (alloc : BuddyAllocator) (index : Nat) (node : Nat) : BuddyAllocator :=
  let alloc := alloc.setNext node (alloc.freeLists index)
  let alloc := alloc.setPrev node none
  let alloc := match alloc.freeLists index with
    | some head => alloc.setPrev head (some node)
    | none => alloc
  alloc.setList index (some node)

def listRemove (alloc : BuddyAllocator) (index : Nat) (node : Nat) : BuddyAllocator :=
  let alloc := match alloc.prev node with
    | some before => alloc.setNext before (alloc.next node)
    | none => alloc.setList index (alloc.next node)
  match alloc.next node with
  | some after => alloc.setPrev after (alloc.prev node)
  | none => alloc

/-- The difference of two `uint8_t`, stored in a `uint8_t`. -/
def listIndex (order minOrder : Nat) : Nat := (order + 256 - minOrder) % 256

/-- `none` when the assertion fails. -/
def buddyInit (memory : Nat → UInt8) (pool : Nat) (poolSize minBlockSize : Nat) : Option BuddyAllocator := do
  let minOrder ← log2Ceil minBlockSize
  let maxOrder ← log2Ceil poolSize
  if ((maxOrder : Int) - minOrder + 1) % 2 ^ 64 ≤ maxOrders then
    let alloc : BuddyAllocator :=
      { memoryPool := pool, poolSize, minBlockSize, minOrder, maxOrder, freeLists := fun _ => none, memory }
    let root := alloc.memoryPool
    let alloc := alloc.setOrder root maxOrder
    let alloc := alloc.setFree root true
    let alloc := alloc.setNext root none
    let alloc := alloc.setPrev root none
    some (alloc.setList (listIndex maxOrder minOrder) (some root))
  else none

/-- The number of free lists of this allocator. -/
def BuddyAllocator.orders (alloc : BuddyAllocator) : Nat := alloc.maxOrder - alloc.minOrder + 1

/-- The first list from an index on that is not empty. -/
def firstListFrom (alloc : BuddyAllocator) : Nat → Nat → Nat
  | 0, currentIdx => currentIdx
  | steps + 1, currentIdx =>
      if currentIdx < alloc.orders ∧ alloc.freeLists currentIdx = none then
        firstListFrom alloc steps (currentIdx + 1)
      else currentIdx

/-- Split a block until it is one of the target list, `steps` times. -/
def splitFrom (alloc : BuddyAllocator) (block : Nat) (targetIdx : Nat) : Nat → BuddyAllocator
  | 0 => alloc
  | steps + 1 =>
      let currentIdx := targetIdx + steps
      let alloc := alloc.setOrder block (alloc.order block - 1)
      let halfSize := 2 ^ alloc.order block
      let buddy := block + halfSize
      let alloc := alloc.setOrder buddy (alloc.order block)
      let alloc := alloc.setFree buddy true
      splitFrom (listAdd alloc currentIdx buddy) block targetIdx steps

def buddyAlloc (alloc : BuddyAllocator) (size : Nat) : Option (Option Nat × BuddyAllocator) := do
  let totalSize := (size + headerSize) % 2 ^ 64
  let ceil ← log2Ceil totalSize
  let reqOrder := if ceil < alloc.minOrder then alloc.minOrder else ceil
  if reqOrder > alloc.maxOrder then some (none, alloc)
  else
    let targetIdx := reqOrder - alloc.minOrder
    let currentIdx := firstListFrom alloc alloc.orders targetIdx
    if currentIdx > alloc.maxOrder - alloc.minOrder then some (none, alloc)
    else
      let block ← alloc.freeLists currentIdx
      let alloc := listRemove alloc currentIdx block
      let alloc := splitFrom alloc block targetIdx (currentIdx - targetIdx)
      let alloc := alloc.setFree block false
      some (some (block + headerSize), alloc)

/-- Merge a block with its buddy as long as that is free; each round raises the
order of the block, so `maxOrder` bounds how many there are. -/
def mergeFrom (alloc : BuddyAllocator) (block : Nat) (currentIdx : Nat) : Nat → Option BuddyAllocator
  | 0 => none
  | steps + 1 =>
      if alloc.order block < alloc.maxOrder then
        let offset := block - alloc.memoryPool
        let blockSize := 2 ^ alloc.order block
        let buddyOffset := offset ^^^ blockSize
        let buddy := alloc.memoryPool + buddyOffset
        if !alloc.isFree buddy ∨ alloc.order buddy ≠ alloc.order block then
          some (listAdd alloc currentIdx block)
        else
          let alloc := listRemove alloc currentIdx buddy
          let block := if buddy < block then buddy else block
          let alloc := alloc.setOrder block (alloc.order block + 1)
          mergeFrom alloc block (currentIdx + 1) steps
      else some (listAdd alloc currentIdx block)

def buddyFree (alloc : BuddyAllocator) (ptr : Option Nat) : Option BuddyAllocator :=
  match ptr with
  | none => some alloc
  | some ptr =>
      let block := ptr - headerSize
      let alloc := alloc.setFree block true
      mergeFrom alloc block (listIndex (alloc.order block) alloc.minOrder) (alloc.maxOrder + 1)

/-! ### The entries of `free_lists` that an operation reads or writes -/

/-- Those of the search. -/
def searchIndices (alloc : BuddyAllocator) : Nat → Nat → List Nat
  | 0, _ => []
  | steps + 1, currentIdx =>
      if currentIdx < alloc.orders then
        currentIdx :: if alloc.freeLists currentIdx = none then searchIndices alloc steps (currentIdx + 1) else []
      else []

def allocIndices (alloc : BuddyAllocator) (size : Nat) : List Nat :=
  match log2Ceil ((size + headerSize) % 2 ^ 64) with
  | none => []
  | some ceil =>
      let reqOrder := if ceil < alloc.minOrder then alloc.minOrder else ceil
      if reqOrder > alloc.maxOrder then []
      else
        let targetIdx := reqOrder - alloc.minOrder
        let currentIdx := firstListFrom alloc alloc.orders targetIdx
        searchIndices alloc alloc.orders targetIdx ++
          if currentIdx > alloc.maxOrder - alloc.minOrder then []
          else currentIdx :: List.range' targetIdx (currentIdx - targetIdx)

/-- Those of the rounds of `mergeFrom`. -/
def mergeIndices (alloc : BuddyAllocator) (block : Nat) (currentIdx : Nat) : Nat → List Nat
  | 0 => []
  | steps + 1 =>
      if alloc.order block < alloc.maxOrder then
        let offset := block - alloc.memoryPool
        let blockSize := 2 ^ alloc.order block
        let buddyOffset := offset ^^^ blockSize
        let buddy := alloc.memoryPool + buddyOffset
        if !alloc.isFree buddy ∨ alloc.order buddy ≠ alloc.order block then [currentIdx]
        else
          let alloc := listRemove alloc currentIdx buddy
          let block := if buddy < block then buddy else block
          let alloc := alloc.setOrder block (alloc.order block + 1)
          currentIdx :: mergeIndices alloc block (currentIdx + 1) steps
      else [currentIdx]

def freeIndices (alloc : BuddyAllocator) (ptr : Option Nat) : List Nat :=
  match ptr with
  | none => []
  | some ptr =>
      let block := ptr - headerSize
      let alloc := alloc.setFree block true
      mergeIndices alloc block (listIndex (alloc.order block) alloc.minOrder) (alloc.maxOrder + 1)

end HundredDays.Buddy
