import HundredDays.SsoString.Union

namespace HundredDays.SsoString

open HundredDays.Memory

/-! `sso_string`, the C functions, and programs that use any number of its objects.

A C string that a function is given lies outside the objects and their buffers.  A
function that returns a pointer answers whether that pointer is not NULL.
-/

/-- `SSO_STACK_BUFFER_CAP` -/
def ssoStackBufferCap : Nat := 14

/-- The heap with the three counters of the tracked functions. -/
structure Tracked where
  blocks : Blocks
  mallocCount : UInt64
  reallocCount : UInt64
  freeCount : UInt64

def trackedMalloc (heap : Tracked) (grant : Grant) (size : Nat) : Option (Option Addr × Tracked) :=
  let heap := { heap with mallocCount := heap.mallocCount + 1 }
  (heap.blocks.malloc grant (size % 2 ^ 64)).map fun (pointer, blocks) => (pointer, { heap with blocks })

def trackedRealloc (heap : Tracked) (grant : Grant) (pointer : Option Addr) (size : Nat) :
    Option (Option Addr × Tracked) :=
  let heap := { heap with reallocCount := heap.reallocCount + 1 }
  (heap.blocks.realloc grant pointer (size % 2 ^ 64)).map fun (pointer, blocks) => (pointer, { heap with blocks })

def trackedFree (heap : Tracked) (pointer : Option Addr) : Option Tracked :=
  let heap := if pointer.isSome then { heap with freeCount := heap.freeCount + 1 } else heap
  (heap.blocks.free pointer).map fun blocks => { heap with blocks }

/-- `memcpy` into a heap buffer. -/
def Tracked.memcpy (heap : Tracked) (pointer : Addr) (offset : Nat) (bytes : List UInt8) : Option Tracked :=
  (heap.blocks.write pointer offset bytes).map fun blocks => { heap with blocks }

def ssoFree (ss : TaggedUnion) (heap : Tracked) : Option (TaggedUnion × Tracked) :=
  if ss.isLong then do
    let heap ← trackedFree heap ss.heapPtr
    let ss := ((ss.setHeapPtr none).setHeapSize 0).setHeapCapacity 0
    some (ss.setLong false, heap)
  else
    let ss := ss.setStackSize ssoStackBufferCap 0
    some (⟨false, Function.update ss.storage 0 0⟩, heap)

/-- An object that `memset` cleared. -/
def zeroed : TaggedUnion := { isLong := false, storage := fun _ => 0 }

/-- Storing a string in a cleared object. -/
def ssoFill (str : CString) (grant : Grant) (heap : Tracked) : Option (Bool × TaggedUnion × Tracked) :=
  let len := str.strlen
  if len ≤ ssoStackBufferCap then do
    let ss := (zeroed.setLong false).setStackSize ssoStackBufferCap len
    let ss ← ss.copyStackData ssoStackBufferCap 0 str.terminated
    some (true, ss, heap)
  else do
    let (ptr, heap) ← trackedMalloc heap grant (len + 1)
    let ss := (zeroed.setLong true).setHeapPtr ptr
    match ptr with
    | none => some (false, ss, heap)
    | some ptr =>
        let ss := (ss.setHeapSize len).setHeapCapacity len
        let heap ← heap.memcpy ptr 0 str.terminated
        some (true, ss, heap)

def ssoInit (ss : TaggedUnion) (str : Option CString) (grant : Grant) (heap : Tracked) :
    Option (Bool × TaggedUnion × Tracked) :=
  (if ss.isLong then ssoFree ss heap else some (ss, heap)).bind fun (_, heap) =>
    ssoFill (str.getD CString.empty) grant heap

/-- `sso_append` on an object in stack mode. -/
def ssoAppendStack (ss : TaggedUnion) (str : CString) (currLen newLen : Nat) (grant : Grant) (heap : Tracked) :
    Option (Bool × TaggedUnion × Tracked) :=
  if newLen ≤ ssoStackBufferCap then do
    let ss ← ss.copyStackData ssoStackBufferCap currLen str.terminated
    some (true, ss.setStackSize ssoStackBufferCap newLen, heap)
  else do
    let newCap := newLen * 2 % 2 ^ 64
    let (ptr, heap) ← trackedMalloc heap grant (newCap + 1)
    match ptr with
    | none => some (false, ss, heap)
    | some newPtr =>
        let heap ← heap.memcpy newPtr 0 (peek ss.storage currLen)
        let heap ← heap.memcpy newPtr currLen str.terminated
        let ss := (ss.setLong true).setHeapPtr (some newPtr)
        some (true, (ss.setHeapCapacity newCap).setHeapSize newLen, heap)

/-- Making room in the heap buffer; `false` is the NULL of `tracked_realloc`. -/
def ssoReserve (ss : TaggedUnion) (newLen : Nat) (grant : Grant) (heap : Tracked) :
    Option (Bool × TaggedUnion × Tracked) :=
  if newLen > ss.heapCapacity then do
    let newCap := ss.heapCapacity * 2 % 2 ^ 64
    let newCap := if newCap < newLen then newLen else newCap
    let (ptr, heap) ← trackedRealloc heap grant ss.heapPtr (newCap + 1)
    match ptr with
    | none => some (false, ss, heap)
    | some newPtr => some (true, (ss.setHeapCapacity newCap).setHeapPtr (some newPtr), heap)
  else some (true, ss, heap)

/-- `sso_append` on an object in heap mode. -/
def ssoAppendHeap (ss : TaggedUnion) (str : CString) (currLen newLen : Nat) (grant : Grant) (heap : Tracked) :
    Option (Bool × TaggedUnion × Tracked) := do
  let (room, ss, heap) ← ssoReserve ss newLen grant heap
  if room then
    let ptr ← ss.heapPtr
    let heap ← heap.memcpy ptr currLen str.terminated
    some (true, ss.setHeapSize newLen, heap)
  else some (false, ss, heap)

def ssoAppend (ss : TaggedUnion) (str : Option CString) (grant : Grant) (heap : Tracked) :
    Option (Bool × TaggedUnion × Tracked) :=
  match str with
  | none => some (false, ss, heap)
  | some str =>
      let currLen := if ss.isLong then ss.heapSize else ss.stackSize ssoStackBufferCap
      if 2 ^ 64 - 1 - currLen < str.strlen then some (false, ss, heap)
      else if ss.isLong = false then ssoAppendStack ss str currLen (currLen + str.strlen) grant heap
      else ssoAppendHeap ss str currLen (currLen + str.strlen) grant heap

/-- `sso_copy` between two different objects. -/
def ssoCopy (dist src : TaggedUnion) (grant : Grant) (heap : Tracked) : Option (Bool × TaggedUnion × Tracked) := do
  let (dist, heap) ← ssoFree dist heap
  let dist := dist.setLong src.isLong
  if src.isLong = false then some (true, dist.assignStack ssoStackBufferCap src, heap)
  else
    let len := src.heapSize
    let (ptr, heap) ← trackedMalloc heap grant (len + 1)
    let dist := dist.setHeapPtr ptr
    match ptr with
    | none => some (false, dist, heap)
    | some ptr =>
        let dist := (dist.setHeapSize len).setHeapCapacity len
        let source ← src.heapPtr
        let bytes ← heap.blocks.read source (len + 1)
        let heap ← heap.memcpy ptr 0 bytes
        some (true, dist, heap)

/-- The characters an object leads to, as `sso_get_cstr` hands them out: the first `count` of them. -/
def ssoGetCstr (blocks : Blocks) (ss : TaggedUnion) (count : Nat) : Option (List UInt8) :=
  if ss.isLong then ss.heapPtr.bind fun ptr => blocks.read ptr count
  else some (peek ss.storage count)

/-- A call, whose pointers may be NULL; `grant` is the allocator's answer if the call asks for memory. -/
inductive Call (ι : Type*) where
  | free (ss : Option ι)
  | init (ss : Option ι) (str : Option CString) (grant : Grant)
  | append (ss : Option ι) (str : Option CString) (grant : Grant)
  | copy (dist src : Option ι) (grant : Grant)

/-- The objects of a program, all of which exist from the start. -/
structure Strings (ι : Type*) where
  objects : ι → TaggedUnion
  heap : Tracked

namespace Strings

variable {ι : Type*} [DecidableEq ι]

def start : Strings ι := { objects := fun _ => zeroed, heap := ⟨fun _ => none, 0, 0, 0⟩ }

def finish (strings : Strings ι) (target : ι) (outcome : Bool × TaggedUnion × Tracked) : Bool × Strings ι :=
  (outcome.1, { objects := Function.update strings.objects target outcome.2.1, heap := outcome.2.2 })

/-- The state after a call, and whether it returned something other than NULL;
`sso_free` returns nothing. -/
def step (strings : Strings ι) : Call ι → Option (Bool × Strings ι)
  | .free none => some (true, strings)
  | .free (some ss) => (ssoFree (strings.objects ss) strings.heap).map fun (string, heap) =>
      strings.finish ss (true, string, heap)
  | .init none _ _ => some (false, strings)
  | .init (some ss) str grant => (ssoInit (strings.objects ss) str grant strings.heap).map (strings.finish ss)
  | .append none _ _ => some (false, strings)
  | .append (some ss) str grant => (ssoAppend (strings.objects ss) str grant strings.heap).map (strings.finish ss)
  | .copy (some dist) (some src) grant =>
      if dist = src then some (true, strings)
      else (ssoCopy (strings.objects dist) (strings.objects src) grant strings.heap).map (strings.finish dist)
  | .copy _ _ _ => some (false, strings)

end Strings

end HundredDays.SsoString
