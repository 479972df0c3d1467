import Mathlib.Logic.Function.Basic

namespace HundredDays.TreiberStack

/-! The lock-free stack with a tagged head and hazard pointers.

Each atomic load, store and compare-and-exchange, and each access to a link of a
node, is one step of one thread.  A node is its address.
-/

abbrev MAX_HAZARD_THREADS : Nat := 32

abbrev Node := Nat

structure TaggedPtr where
  ptr : Option Node
  tag : UInt64
deriving DecidableEq

/-- What the threads share, and the hazard slot of each of them. -/
structure Memory (Thread : Type) where
  next : Node → Option Node
  retireNext : Node → Option Node
  head : TaggedPtr
  hazard : Nat → Option Node
  nextHazardSlot : Nat
  hazardSlot : Thread → Option Nat

variable {Thread : Type}

/-- The nodes that were not allocated yet hold anything. -/
def stackInit (next retireNext : Node → Option Node) : Memory Thread :=
  { next, retireNext, head := { ptr := none, tag := 0 }, hazard := fun _ => none, nextHazardSlot := 0
    hazardSlot := fun _ => none }

/-- How far a thread is in `stack_push`. -/
inductive PushPhase where
  | called
  /-- About to link the node to the head that was loaded. -/
  | linking (old : TaggedPtr)
  | linked (old : TaggedPtr)
  | returned
deriving DecidableEq

/-- How far a thread is in `stack_pop`, with the head that was loaded. -/
inductive PopPhase where
  | called
  | loading
  | empty
  | loaded (node : Node) (tag : UInt64)
  | published (node : Node) (tag : UInt64)
  | validated (node : Node) (tag : UInt64)
  | read (node : Node) (tag : UInt64) (next : Option Node)
  | taken (node : Node)
  | returned (node : Option Node)
deriving DecidableEq

/-- What the pop returns, once that is decided. -/
def PopPhase.answer : PopPhase → Option (Option Node)
  | empty => some none
  | taken node => some (some node)
  | returned node => some node
  | _ => none

/-- A weak compare-and-exchange of the head, which may fail for no reason. -/
def Memory.exchange (memory : Memory Thread) (spurious : Bool) (expected desired : TaggedPtr) :
    Option (Memory Thread) :=
  if memory.head = expected ∧ spurious = false then some { memory with head := desired } else none

def stackPush (memory : Memory Thread) (node : Node) (spurious : Bool) : PushPhase → Memory Thread × PushPhase
  | .called => (memory, .linking memory.head)
  | .linking old => ({ memory with next := Function.update memory.next node old.ptr }, .linked old)
  | .linked old =>
      match memory.exchange spurious old { ptr := some node, tag := old.tag + 1 } with
      | some memory => (memory, .returned)
      | none => (memory, .linking memory.head)
  | .returned => (memory, .returned)

variable [DecidableEq Thread]

/-- The hazard slot of the thread, given out at its first pop; `none` when the
assertion fails. -/
def hazardSlotForThisThread (memory : Memory Thread) (thread : Thread) : Option (Memory Thread) :=
  match memory.hazardSlot thread with
  | some _ => some memory
  | none =>
      if memory.nextHazardSlot < MAX_HAZARD_THREADS then
        some { memory with
          nextHazardSlot := memory.nextHazardSlot + 1
          hazardSlot := Function.update memory.hazardSlot thread (some memory.nextHazardSlot) }
      else none

def Memory.setHazard (memory : Memory Thread) (thread : Thread) (node : Option Node) : Memory Thread :=
  match memory.hazardSlot thread with
  | some slot => { memory with hazard := Function.update memory.hazard slot node }
  | none => memory

def stackPop (memory : Memory Thread) (thread : Thread) (spurious : Bool) :
    PopPhase → Option (Memory Thread × PopPhase)
  | .called => (hazardSlotForThisThread memory thread).map fun memory => (memory, .loading)
  | .loading =>
      match memory.head.ptr with
      | none => some (memory, .empty)
      | some node => some (memory, .loaded node memory.head.tag)
  | .empty => some (memory.setHazard thread none, .returned none)
  | .loaded node tag => some (memory.setHazard thread (some node), .published node tag)
  | .published node tag =>
      if memory.head = { ptr := some node, tag } then some (memory, .validated node tag) else some (memory, .loading)
  | .validated node tag => some (memory, .read node tag (memory.next node))
  | .read node tag next =>
      match memory.exchange spurious { ptr := some node, tag } { ptr := next, tag := tag + 1 } with
      | some memory => some (memory, .taken node)
      | none => some (memory, .loading)
  | .taken node => some (memory.setHazard thread none, .returned (some node))
  | .returned _ => none

end HundredDays.TreiberStack
