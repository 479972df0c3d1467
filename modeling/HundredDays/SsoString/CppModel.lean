import HundredDays.SsoString.Ownership

namespace HundredDays.SsoString

open HundredDays.Memory

/-! `SSOString`, the C++ class, and programs that use any number of its objects.

An operation may stop for two reasons.  The outer `none` is an access outside a
live block or a second release of one; an inner `none` is `std::bad_alloc`.
`size_t` arithmetic wraps around at `2 ^ 64`.
-/

namespace SSOString

/-- `STACK_CAP` -/
def stackCap : Nat := 15

/-- The heap with the class's two counters. -/
structure Allocator where
  blocks : Blocks
  mallocCount : UInt64
  freeCount : UInt64

def alloc (heap : Allocator) (grant : Grant) (size : Nat) : Option (Option Addr × Allocator) :=
  let heap := { heap with mallocCount := heap.mallocCount + 1 }
  (heap.blocks.malloc grant (size % 2 ^ 64)).map fun (pointer, blocks) => (pointer, { heap with blocks })

def dealloc (heap : Allocator) (pointer : Option Addr) : Option Allocator :=
  match pointer with
  | none => some heap
  | some _ => (heap.blocks.free pointer).map fun blocks =>
      { heap with blocks, freeCount := heap.freeCount + 1 }

/-- `std::memcpy` into a heap buffer. -/
def memcpy (heap : Allocator) (pointer : Addr) (offset : Nat) (bytes : List UInt8) : Option Allocator :=
  (heap.blocks.write pointer offset bytes).map fun blocks => { heap with blocks }

/-- What a moved-from object is left as. -/
def clear (string : TaggedUnion) : TaggedUnion where
  isLong := false
  storage := Function.update (Function.update string.storage (stackCap + 1) 0) 0 0

/-- The default constructor; `storage` is what the object's memory held. -/
def default (storage : Nat → UInt8) : TaggedUnion := clear { isLong := false, storage }

def construct (storage : Nat → UInt8) (str : Option CString) (grant : Grant) (heap : Allocator) :
    Option (Option TaggedUnion × Allocator) :=
  let str := str.getD CString.empty
  let len := str.strlen
  if len ≤ stackCap then do
    let string := TaggedUnion.setStackSize { isLong := false, storage } stackCap len
    let string ← string.copyStackData stackCap 0 str.terminated
    some (some string, heap)
  else do
    let (ptr, heap) ← alloc heap grant (len + 1)
    match ptr with
    | none => some (none, heap)
    | some ptr =>
        let string := TaggedUnion.setHeapPtr { isLong := true, storage } (some ptr)
        let string := (string.setHeapSize len).setHeapCapacity len
        let heap ← memcpy heap ptr 0 str.terminated
        some (some string, heap)

/-- `~SSOString` -/
def destroy (string : TaggedUnion) (heap : Allocator) : Option Allocator :=
  if string.isLong then dealloc heap string.heapPtr else some heap

def copyConstruct (storage : Nat → UInt8) (other : TaggedUnion) (grant : Grant) (heap : Allocator) :
    Option (Option TaggedUnion × Allocator) :=
  let string : TaggedUnion := { isLong := other.isLong, storage }
  if string.isLong = false then some (some (string.assignStack stackCap other), heap)
  else do
    let len := other.heapSize
    let cap := other.heapCapacity
    let (ptr, heap) ← alloc heap grant (cap + 1)
    match ptr with
    | none => some (none, heap)
    | some ptr =>
        let string := ((string.setHeapPtr (some ptr)).setHeapSize len).setHeapCapacity cap
        let source ← other.heapPtr
        let bytes ← heap.blocks.read source (len + 1)
        let heap ← memcpy heap ptr 0 bytes
        some (some string, heap)

/-- The new object, and what it leaves of the other. -/
def moveConstruct (storage : Nat → UInt8) (other : TaggedUnion) : TaggedUnion × TaggedUnion :=
  let string : TaggedUnion := { isLong := other.isLong, storage }
  if string.isLong = false then (string.assignStack stackCap other, other)
  else (string.assignHeap other, clear other)

/-- Move assignment from another object. -/
def moveAssign (string other : TaggedUnion) (heap : Allocator) :
    Option (TaggedUnion × TaggedUnion × Allocator) := do
  let heap ← if string.isLong then dealloc heap string.heapPtr else some heap
  let string := string.setLong other.isLong
  if string.isLong = false then some (string.assignStack stackCap other, other, heap)
  else some (string.assignHeap other, clear other, heap)

/-- Copy assignment from another object, by way of a temporary. -/
def copyAssign (storage : Nat → UInt8) (string other : TaggedUnion) (grant : Grant) (heap : Allocator) :
    Option (Option TaggedUnion × Allocator) := do
  let (temp, heap) ← copyConstruct storage other grant heap
  match temp with
  | none => some (none, heap)
  | some temp =>
      let (string, temp, heap) ← moveAssign string temp heap
      let heap ← destroy temp heap
      some (some string, heap)

/-- Appending to a string in stack mode. -/
def appendStack (string : TaggedUnion) (str : CString) (curLen newLen : Nat) (grant : Grant)
    (heap : Allocator) : Option (Option TaggedUnion × Allocator) :=
  if newLen ≤ stackCap then do
    let string ← string.copyStackData stackCap curLen str.terminated
    some (some (string.setStackSize stackCap newLen), heap)
  else do
    let newCap := newLen * 2 % 2 ^ 64
    let (ptr, heap) ← alloc heap grant (newCap + 1)
    match ptr with
    | none => some (none, heap)
    | some newPtr =>
        let heap ← memcpy heap newPtr 0 (peek string.storage curLen)
        let heap ← memcpy heap newPtr curLen str.terminated
        let string := (string.setLong true).setHeapPtr (some newPtr)
        some (some ((string.setHeapSize newLen).setHeapCapacity newCap), heap)

/-- Making room in the heap buffer. -/
def grow (string : TaggedUnion) (curLen newLen : Nat) (grant : Grant) (heap : Allocator) :
    Option (Option TaggedUnion × Allocator) :=
  if newLen > string.heapCapacity then do
    let newCap := string.heapCapacity * 2 % 2 ^ 64
    let newCap := if newCap < newLen then newLen else newCap
    let (ptr, heap) ← alloc heap grant (newCap + 1)
    match ptr with
    | none => some (none, heap)
    | some newPtr =>
        let source ← string.heapPtr
        let bytes ← heap.blocks.read source curLen
        let heap ← memcpy heap newPtr 0 bytes
        let heap ← dealloc heap string.heapPtr
        some (some ((string.setHeapPtr (some newPtr)).setHeapCapacity newCap), heap)
  else some (some string, heap)

/-- Appending to a string in heap mode. -/
def appendHeap (string : TaggedUnion) (str : CString) (curLen newLen : Nat) (grant : Grant)
    (heap : Allocator) : Option (Option TaggedUnion × Allocator) := do
  let (grown, heap) ← grow string curLen newLen grant heap
  match grown with
  | none => some (none, heap)
  | some string =>
      let ptr ← string.heapPtr
      let heap ← memcpy heap ptr curLen str.terminated
      some (some (string.setHeapSize newLen), heap)

/-- `operator+=` -/
def append (string : TaggedUnion) (str : Option CString) (grant : Grant) (heap : Allocator) :
    Option (Option TaggedUnion × Allocator) :=
  match str with
  | none => some (some string, heap)
  | some str =>
      let curLen := if string.isLong = false then string.stackSize stackCap else string.heapSize
      if 2 ^ 64 - 1 - curLen < str.strlen then some (some string, heap)
      else if string.isLong = false then appendStack string str curLen (curLen + str.strlen) grant heap
      else appendHeap string str curLen (curLen + str.strlen) grant heap

def length (string : TaggedUnion) : Nat := if string.isLong then string.heapSize else string.stackSize stackCap

def capacity (string : TaggedUnion) : Nat := if string.isLong then string.heapCapacity else stackCap

/-- The first `count` bytes that `c_str` leads to. -/
def cStr (blocks : Blocks) (string : TaggedUnion) (count : Nat) : Option (List UInt8) :=
  if string.isLong then string.heapPtr.bind fun ptr => blocks.read ptr count
  else some (peek string.storage count)

end SSOString

open SSOString

/-- The objects of a program; those that are not alive are `none`. -/
structure Program (ι : Type*) where
  objects : ι → Option TaggedUnion
  heap : Allocator

/-- What a program does to its objects.  `storage` is what the memory of a new
object held before, and `grant` the allocator's answer if the operation asks for
memory. -/
inductive Action (ι : Type*) where
  | default (target : ι) (storage : Nat → UInt8)
  | construct (target : ι) (str : Option CString) (storage : Nat → UInt8) (grant : Grant)
  | copy (target source : ι) (storage : Nat → UInt8) (grant : Grant)
  | move (target source : ι) (storage : Nat → UInt8)
  | copyAssign (target source : ι) (storage : Nat → UInt8) (grant : Grant)
  | moveAssign (target source : ι)
  | append (target : ι) (str : Option CString) (grant : Grant)
  | destroy (target : ι)

namespace Program

variable {ι : Type*} [DecidableEq ι]

def start : Program ι := { objects := fun _ => none, heap := ⟨fun _ => none, 0, 0⟩ }

/-- The program after an operation on one object, and whether it completed; what
throws leaves the object as it was. -/
def finish (program : Program ι) (target : ι) :
    Option TaggedUnion × Allocator → Bool × Program ι
  | (none, heap) => (false, { program with heap })
  | (some string, heap) => (true, { objects := Function.update program.objects target (some string), heap })

/-- The target's and the source's objects after a move. -/
def moved (program : Program ι) (target source : ι) (string other : TaggedUnion) (heap : Allocator) :
    Bool × Program ι :=
  let objects := Function.update program.objects target (some string)
  (true, { objects := Function.update objects source (some other), heap })

def step (program : Program ι) : Action ι → Option (Bool × Program ι)
  | .default target storage => some (program.finish target (some (SSOString.default storage), program.heap))
  | .construct target str storage grant =>
      (SSOString.construct storage str grant program.heap).map (program.finish target)
  | .copy target source storage grant => (program.objects source).bind fun other =>
      (copyConstruct storage other grant program.heap).map (program.finish target)
  | .move target source storage => (program.objects source).map fun other =>
      let (string, other) := moveConstruct storage other
      program.moved target source string other program.heap
  | .copyAssign target source storage grant =>
      (program.objects target).bind fun string => (program.objects source).bind fun other =>
        if target = source then some (true, program)
        else (SSOString.copyAssign storage string other grant program.heap).map (program.finish target)
  | .moveAssign target source =>
      (program.objects target).bind fun string => (program.objects source).bind fun other =>
        if target = source then some (true, program)
        else (SSOString.moveAssign string other program.heap).map fun (string, other, heap) =>
          program.moved target source string other heap
  | .append target str grant => (program.objects target).bind fun string =>
      (SSOString.append string str grant program.heap).map (program.finish target)
  | .destroy target => (program.objects target).bind fun string =>
      (SSOString.destroy string program.heap).map fun heap =>
        (true, { objects := Function.update program.objects target none, heap })

end Program

end HundredDays.SsoString
