import HundredDays.Memory.Pointer

namespace HundredDays.FirstFit

open HundredDays.Memory

/-! The first-fit free-list allocator, on the bytes of its pool.

A `FreeBlock` header holds `size` at byte 0 and `next` at byte 8; the payload of
`size` bytes follows it.  Addresses and sizes are `size_t` numbers, so sums of them
are taken modulo `2 ^ 64`.  An operation that returns `none` does not return.
-/

def poolSize : Nat := 1024

abbrev sizeofFreeBlock : Nat := 16

abbrev alignofMaxAlign : Nat := 16

/-- A list of 64-bit addresses without a cycle is shorter than this. -/
def rounds : Nat := 2 ^ 64

/-- The static variables, with the memory that the pointers lead to. -/
structure FreeListAllocator where
  memoryPool : Nat
  freeList : Option Nat
  memory : Nat → UInt8

namespace FreeListAllocator

variable (alloc : FreeListAllocator)

def size (block : Nat) : Nat := loadSize alloc.memory block

def next (block : Nat) : Option Nat := loadPointer alloc.memory (block + 8)

def setSize (block size : Nat) : FreeListAllocator :=
  { alloc with memory := storeSize alloc.memory block size }

def setNext (block : Nat) (link : Option Nat) : FreeListAllocator :=
  { alloc with memory := storePointer alloc.memory (block + 8) link }

/-- What the code does at `previous->next` or, without a previous block, at `free_list`. -/
def setLink (previous : Option Nat) (link : Option Nat) : FreeListAllocator :=
  match previous with
  | some block => alloc.setNext block link
  | none => { alloc with freeList := link }

end FreeListAllocator

def alignUp (size : Nat) : Nat :=
  (size + alignofMaxAlign - 1) % 2 ^ 64 &&& (2 ^ 64 - 1 - (alignofMaxAlign - 1))

def ptrInPool (alloc : FreeListAllocator) (ptr : Nat) : Bool :=
  alloc.memoryPool ≤ ptr && ptr < (alloc.memoryPool + poolSize) % 2 ^ 64

def freeListInit (memoryPool : Nat) (memory : Nat → UInt8) : FreeListAllocator :=
  let alloc : FreeListAllocator := { memoryPool, freeList := some memoryPool, memory }
  let alloc := alloc.setSize memoryPool (poolSize - sizeofFreeBlock)
  alloc.setNext memoryPool none

/-- Split the block that fits or consume it whole. -/
def takeBlock (alloc : FreeListAllocator) (previous : Option Nat) (current size : Nat) : FreeListAllocator :=
  let remaining := alloc.size current - size
  if remaining ≥ sizeofFreeBlock + alignofMaxAlign then
    let newBlock := (current + sizeofFreeBlock + size) % 2 ^ 64
    let alloc := alloc.setSize newBlock (remaining - sizeofFreeBlock)
    let alloc := alloc.setNext newBlock (alloc.next current)
    let alloc := alloc.setLink previous (some newBlock)
    alloc.setSize current size
  else alloc.setLink previous (alloc.next current)

/-- The loop of `free_list_alloc`. -/
def allocFrom (alloc : FreeListAllocator) (size : Nat) :
    Nat → Option Nat → Option Nat → Option (Option Nat × FreeListAllocator)
  | 0, _, _ => none
  | _ + 1, _, none => some (none, alloc)
  | steps + 1, previous, some current =>
      if alloc.size current ≥ size then
        some (some ((current + sizeofFreeBlock) % 2 ^ 64), takeBlock alloc previous current size)
      else allocFrom alloc size steps (some current) (alloc.next current)

def freeListAlloc (alloc : FreeListAllocator) (requestedSize : Nat) : Option (Option Nat × FreeListAllocator) :=
  if requestedSize = 0 then some (none, alloc)
  else allocFrom alloc (alignUp requestedSize) rounds none alloc.freeList

/-- The loop of `insert_free_block`. -/
def insertFrom (alloc : FreeListAllocator) (block : Nat) :
    Nat → Option Nat → Option Nat → Option FreeListAllocator
  | 0, _, _ => none
  | _ + 1, previous, none => some ((alloc.setNext block none).setLink previous (some block))
  | steps + 1, previous, some current =>
      if current < block then insertFrom alloc block steps (some current) (alloc.next current)
      else some ((alloc.setNext block (some current)).setLink previous (some block))

def insertFreeBlock (alloc : FreeListAllocator) (block : Nat) : Option FreeListAllocator :=
  insertFrom alloc block rounds none alloc.freeList

/-- The loop of `coalesce`. -/
def coalesceFrom (alloc : FreeListAllocator) : Nat → Option Nat → Option FreeListAllocator
  | 0, _ => none
  | _ + 1, none => some alloc
  | steps + 1, some current =>
      match alloc.next current with
      | none => some alloc
      | some next =>
          if (current + sizeofFreeBlock + alloc.size current) % 2 ^ 64 = next then
            let alloc := alloc.setSize current (alloc.size current + (sizeofFreeBlock + alloc.size next))
            let alloc := alloc.setNext current (alloc.next next)
            coalesceFrom alloc steps (some current)
          else coalesceFrom alloc steps (some next)

def coalesce (alloc : FreeListAllocator) : Option FreeListAllocator :=
  coalesceFrom alloc rounds alloc.freeList

/-- The loop of `is_already_free`. -/
def isListedFrom (alloc : FreeListAllocator) (block : Nat) : Nat → Option Nat → Option Bool
  | 0, _ => none
  | _ + 1, none => some false
  | steps + 1, some current =>
      if current = block then some true else isListedFrom alloc block steps (alloc.next current)

def isAlreadyFree (alloc : FreeListAllocator) (block : Nat) : Option Bool :=
  isListedFrom alloc block rounds alloc.freeList

def freeListFree (alloc : FreeListAllocator) (ptr : Option Nat) : Option (Bool × FreeListAllocator) :=
  match ptr with
  | none => some (true, alloc)
  | some ptr =>
      if !ptrInPool alloc ptr then some (false, alloc)
      else if ptr < alloc.memoryPool + sizeofFreeBlock then some (false, alloc)
      else
        let block := ptr - sizeofFreeBlock
        if !ptrInPool alloc block then some (false, alloc)
        else (isAlreadyFree alloc block).bind fun listed =>
          if listed then some (false, alloc)
          else (insertFreeBlock alloc block).bind fun alloc =>
            (coalesce alloc).map fun alloc => (true, alloc)

end HundredDays.FirstFit
