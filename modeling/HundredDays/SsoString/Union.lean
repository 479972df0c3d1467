import HundredDays.Memory.Blocks
import HundredDays.Memory.Pointer

namespace HundredDays.SsoString

open HundredDays.Memory

/-! The tagged union that both small-string types are.

In heap mode the union's 24 bytes are a pointer, a size and a capacity.  In stack
mode they are the characters, up to the inline capacity and a NUL, and then one
byte with the size.  The two layouts share their memory, so a change of mode
writes over the other layout.
-/

structure TaggedUnion where
  isLong : Bool
  storage : Nat → UInt8

/-- A C string: `strlen` finds its end at the first NUL.  With that NUL it is an
object, so that its size is a `size_t`. -/
structure CString where
  bytes : List UInt8
  nonzero : 0 ∉ bytes
  fits : bytes.length + 1 < 2 ^ 64

def CString.strlen (str : CString) : Nat := str.bytes.length

/-- What copying the string and its NUL copies. -/
def CString.terminated (str : CString) : List UInt8 := str.bytes ++ [0]

def CString.empty : CString := ⟨[], by simp, by simp⟩

namespace TaggedUnion

variable (string : TaggedUnion)

def heapPtr : Option Addr := loadPointer string.storage 0

def heapSize : Nat := loadSize string.storage 8

def heapCapacity : Nat := loadSize string.storage 16

/-- The byte after the characters and their NUL. -/
def stackSize (stackCap : Nat) : Nat := (string.storage (stackCap + 1)).toNat

def setLong (isLong : Bool) : TaggedUnion := { string with isLong }

def setHeapPtr (pointer : Option Addr) : TaggedUnion :=
  { string with storage := storePointer string.storage 0 pointer }

def setHeapSize (size : Nat) : TaggedUnion := { string with storage := storeSize string.storage 8 size }

def setHeapCapacity (capacity : Nat) : TaggedUnion :=
  { string with storage := storeSize string.storage 16 capacity }

def setStackSize (stackCap size : Nat) : TaggedUnion :=
  { string with storage := Function.update string.storage (stackCap + 1) (UInt8.ofNat size) }

/-- Copy characters into the stack layout, which has room for `stackCap + 1`. -/
def copyStackData (stackCap offset : Nat) (bytes : List UInt8) : Option TaggedUnion :=
  if offset + bytes.length ≤ stackCap + 1 then
    some { string with storage := overwrite string.storage offset bytes }
  else none

/-- Assign the stack layout of another union, byte for byte. -/
def assignStack (stackCap : Nat) (other : TaggedUnion) : TaggedUnion :=
  { string with storage := fun index => if index < stackCap + 2 then other.storage index else string.storage index }

def assignHeap (other : TaggedUnion) : TaggedUnion :=
  { string with storage := fun index => if index < 24 then other.storage index else string.storage index }

/-- What the object leads to, if anything. -/
def Owns (pointer : Addr) : Prop := string.isLong = true ∧ string.heapPtr = some pointer

end TaggedUnion

variable {string other : TaggedUnion} {stackCap : Nat} {blocks after : Blocks} {text more : List UInt8}
  {pointer : Addr}

/-- The object is a well-formed string with these characters. -/
inductive Denotes (stackCap : Nat) (blocks : Blocks) (string : TaggedUnion) (text : List UInt8) : Prop
  | stack (short : string.isLong = false) (fits : text.length ≤ stackCap)
      (size : string.stackSize stackCap = text.length) (bytes : Contains string.storage (text ++ [0]))
  | heap (pointer : Addr) (block : Block) (long : string.isLong = true) (beyond : stackCap < text.length)
      (leads : string.heapPtr = some pointer) (live : blocks pointer = some block)
      (size : string.heapSize = text.length) (room : text.length ≤ string.heapCapacity)
      (allocated : block.size = string.heapCapacity + 1) (narrow : string.heapCapacity + 1 < 2 ^ 64)
      (bytes : Contains block.byte (text ++ [0]))

namespace Denotes

/-- A string depends on the block it owns only. -/
theorem frame (denotes : Denotes stackCap blocks string text)
    (same : ∀ pointer, string.Owns pointer → after pointer = blocks pointer) :
    Denotes stackCap after string text := by
  cases denotes with
  | stack short fits size bytes => exact .stack short fits size bytes
  | heap pointer block long beyond leads live size room allocated narrow bytes =>
      exact .heap pointer block long beyond leads ((same pointer ⟨long, leads⟩).trans live) size room
        allocated narrow bytes

/-- The accessors, and what `c_str` leads to. -/
theorem long_iff (denotes : Denotes stackCap blocks string text) :
    string.isLong = true ↔ stackCap < text.length := by
  cases denotes with
  | stack short fits => simp [short, fits]
  | heap pointer block long beyond => simp [long, beyond]

theorem short (denotes : Denotes stackCap blocks string text) (short : string.isLong = false) :
    text.length ≤ stackCap ∧ string.stackSize stackCap = text.length ∧ Contains string.storage (text ++ [0]) := by
  cases denotes with
  | stack _ fits size bytes => exact ⟨fits, size, bytes⟩
  | heap pointer block long => simp [short] at long

theorem narrow (denotes : Denotes stackCap blocks string text) (byte : stackCap < 256) : text.length + 1 < 2 ^ 64 := by
  cases denotes with
  | stack _ fits => omega
  | heap pointer block _ _ _ _ _ room _ narrow => omega

theorem live (denotes : Denotes stackCap blocks string text) (owns : string.Owns pointer) :
    ∃ block, blocks pointer = some block := by
  cases denotes with
  | stack short => simp [owns.1] at short
  | heap found block long beyond leads live =>
      cases leads.symm.trans owns.2
      exact ⟨block, live⟩

theorem owner (denotes : Denotes stackCap blocks string text) (long : string.isLong = true) :
    ∃ pointer, string.Owns pointer := by
  cases denotes with
  | stack short => simp [long] at short
  | heap pointer block long beyond leads => exact ⟨pointer, long, leads⟩

end Denotes

/-! What the operations' stores make of a union. -/

variable {size capacity : Nat} {bytes : List UInt8}

theorem heapPtr_setHeapPtr (positive : 0 < pointer) (narrow : pointer < 2 ^ 64) :
    (string.setHeapPtr (some pointer)).heapPtr = some pointer := by
  apply loadPointer_storePointer
  rintro target same
  cases same
  exact ⟨positive, narrow⟩

theorem heapPtr_setHeapNull : (string.setHeapPtr none).heapPtr = none := by
  apply loadPointer_storePointer
  rintro target same
  cases same

@[simp] theorem heapPtr_setHeapSize : (string.setHeapSize size).heapPtr = string.heapPtr :=
  loadPointer_storeSize (by decide)

@[simp] theorem heapPtr_setHeapCapacity : (string.setHeapCapacity capacity).heapPtr = string.heapPtr :=
  loadPointer_storeSize (by decide)

theorem heapSize_setHeapSize (narrow : size < 2 ^ 64) : (string.setHeapSize size).heapSize = size :=
  loadSize_storeSize narrow

@[simp] theorem heapSize_setHeapPtr {link : Option Addr} : (string.setHeapPtr link).heapSize = string.heapSize :=
  loadSize_storePointer (by decide)

@[simp] theorem heapSize_setHeapCapacity : (string.setHeapCapacity capacity).heapSize = string.heapSize :=
  loadSize_storeSize_other (by decide)

theorem heapCapacity_setHeapCapacity (narrow : capacity < 2 ^ 64) :
    (string.setHeapCapacity capacity).heapCapacity = capacity :=
  loadSize_storeSize narrow

@[simp] theorem heapCapacity_setHeapPtr {link : Option Addr} :
    (string.setHeapPtr link).heapCapacity = string.heapCapacity :=
  loadSize_storePointer (by decide)

@[simp] theorem heapCapacity_setHeapSize : (string.setHeapSize size).heapCapacity = string.heapCapacity :=
  loadSize_storeSize_other (by decide)

/-- A union whose first 24 bytes are those of another in heap mode. -/
theorem heap_congr (same : ∀ index, index < 24 → string.storage index = other.storage index) :
    string.heapPtr = other.heapPtr ∧ string.heapSize = other.heapSize ∧
      string.heapCapacity = other.heapCapacity :=
  ⟨loadPointer_congr fun index _ below => same index (by omega),
    loadSize_congr fun index _ below => same index (by omega),
    loadSize_congr fun index _ below => same index (by omega)⟩

namespace Denotes

/-- Taking over the other string's heap buffer. -/
theorem assignHeap (denotes : Denotes stackCap blocks other text) (long : other.isLong = true) :
    Denotes stackCap blocks ((string.setLong true).assignHeap other) text ∧
      ∀ pointer, ((string.setLong true).assignHeap other).Owns pointer ↔ other.Owns pointer := by
  obtain ⟨ptr, size, capacity⟩ : ((string.setLong true).assignHeap other).heapPtr = other.heapPtr ∧
      ((string.setLong true).assignHeap other).heapSize = other.heapSize ∧
      ((string.setLong true).assignHeap other).heapCapacity = other.heapCapacity :=
    heap_congr fun index below => if_pos below
  constructor
  · cases denotes with
    | stack short => simp [long] at short
    | heap pointer block _ beyond leads live sized room allocated narrow bytes =>
        exact .heap pointer block rfl beyond (ptr.trans leads) live (size.trans sized)
          (by rw [capacity]; exact room) (by rw [capacity]; exact allocated) (by rw [capacity]; exact narrow) bytes
  · intro pointer
    simp only [TaggedUnion.Owns, ptr, long, true_and]
    exact and_iff_right rfl

theorem assignStack (denotes : Denotes stackCap blocks other text) (short : other.isLong = false) :
    Denotes stackCap blocks ((string.setLong false).assignStack stackCap other) text := by
  obtain ⟨fits, size, bytes⟩ := denotes.short short
  refine .stack rfl fits ?_ (bytes.congr fun index inside => if_pos ?_)
  · rw [← size, TaggedUnion.stackSize, TaggedUnion.stackSize]
    exact congrArg UInt8.toNat (if_pos (by omega))
  · rw [List.length_append, List.length_singleton] at inside
    omega

/-- Characters written into the stack layout after those it has. -/
theorem appendStack (denotes : Denotes stackCap blocks string text) (short : string.isLong = false)
    (fits : text.length + more.length ≤ stackCap) (byte : stackCap < 256) :
    ∃ copied, string.copyStackData stackCap text.length (more ++ [0]) = some copied ∧
      copied.isLong = false ∧
      Denotes stackCap blocks (copied.setStackSize stackCap (text.length + more.length)) (text ++ more) := by
  obtain ⟨_, _, bytes⟩ := denotes.short short
  have room : text.length + (more ++ [0]).length ≤ stackCap + 1 := by
    rw [List.length_append, List.length_singleton]
    omega
  refine ⟨_, if_pos room, short, .stack short ?_ ?_ ?_⟩
  · rw [List.length_append]
    exact fits
  · simp only [TaggedUnion.stackSize, TaggedUnion.setStackSize, Function.update_self, UInt8.toNat_ofNat',
      List.length_append]
    omega
  · rw [List.append_assoc]
    refine bytes.left.append.congr fun index inside => Function.update_of_ne ?_ _ _
    simp only [List.length_append, List.length_singleton] at inside room
    omega

/-- A string stored in the stack layout: its size, and then its characters. -/
theorem inlined (string : TaggedUnion) (blocks : Blocks) (str : CString) (short : string.isLong = false) (fits : str.strlen ≤ stackCap)
    (byte : stackCap < 256) :
    ∃ copied, (string.setStackSize stackCap str.strlen).copyStackData stackCap 0 str.terminated = some copied ∧
      copied.isLong = false ∧ Denotes stackCap blocks copied str.bytes := by
  have room : 0 + str.terminated.length ≤ stackCap + 1 := by
    simp only [CString.terminated, CString.strlen] at fits ⊢
    simp [fits]
  refine ⟨_, if_pos room, short, .stack short fits ?_ contains_overwrite⟩
  have outside : stackCap + 1 < 0 ∨ 0 + str.terminated.length ≤ stackCap + 1 := .inr room
  simp only [TaggedUnion.stackSize, overwrite_outside outside, TaggedUnion.setStackSize, Function.update_self,
    UInt8.toNat_ofNat']
  exact Nat.mod_eq_of_lt (by omega)

/-- The empty string, however the storage looks beyond its NUL. -/
theorem emptied (short : string.isLong = false) (size : string.storage (stackCap + 1) = 0)
    (first : string.storage 0 = 0) : Denotes stackCap blocks string [] := by
  refine .stack short (Nat.zero_le _) ?_ ?_
  · simp [TaggedUnion.stackSize, size]
  · intro index inside
    obtain rfl : index = 0 := by simpa using inside
    simpa using first

end Denotes

/-- A string in heap mode that has room for `newLen` characters, and holds some. -/
structure Roomy (blocks : Blocks) (string : TaggedUnion) (text : List UInt8) (newLen : Nat) (pointer : Addr)
    (block : Block) : Prop where
  long : string.isLong = true
  leads : string.heapPtr = some pointer
  live : blocks pointer = some block
  room : newLen ≤ string.heapCapacity
  allocated : block.size = string.heapCapacity + 1
  narrow : string.heapCapacity + 1 < 2 ^ 64
  bytes : Contains block.byte text

/-- Writing the characters and their NUL after those it holds. -/
theorem Roomy.appended {str : CString} {block : Block}
    (roomy : Roomy blocks string text (text.length + str.strlen) pointer block) (beyond : stackCap < text.length) :
    Denotes stackCap
      (Function.update blocks pointer (some { block with byte := overwrite block.byte text.length str.terminated }))
      (string.setHeapSize (text.length + str.strlen)) (text ++ str.bytes) := by
  obtain ⟨long, leads, live, room, allocated, narrow, bytes⟩ := roomy
  have sized : (text ++ str.bytes).length = text.length + str.strlen := List.length_append
  refine .heap pointer _ long (by omega) ?_ (Function.update_self ..) ?_ ?_ ?_ ?_ ?_
  · rw [heapPtr_setHeapSize, leads]
  · rw [heapSize_setHeapSize (by omega), sized]
  · rw [heapCapacity_setHeapSize, sized]
    exact room
  · rw [heapCapacity_setHeapSize]
    exact allocated
  · rw [heapCapacity_setHeapSize]
    exact narrow
  · rw [List.append_assoc]
    exact bytes.append

end HundredDays.SsoString
