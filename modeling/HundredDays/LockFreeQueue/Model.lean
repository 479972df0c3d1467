import Mathlib.Algebra.Ring.Int.Defs
import Mathlib.Algebra.Ring.Nat
import Mathlib.Logic.Function.Basic

namespace HundredDays.LockFreeQueue

/-! The queue template of the C++ example, for any capacity, with one thread.

A `size_t` is a number below `2 ^ 64`.  A weak compare-and-exchange may fail for no
reason, which each call does as often as it is told; a loop that is given too few
rounds has no result.
-/

structure LockFreeQueue (T : Type) where
  data : Nat → T
  sequence : Nat → Nat
  head : Nat
  tail : Nat

variable {T : Type}

def create (data : Nat → T) : LockFreeQueue T := { data, sequence := fun i => i, head := 0, tail := 0 }

/-- The conversion from `size_t` to `ptrdiff_t`. -/
def ptrdiff (value : Nat) : Int := if value < 2 ^ 63 then value else (value : Int) - 2 ^ 64

/-- The loop of `push`. -/
def pushFrom (capacity : Nat) (queue : LockFreeQueue T) (val : T) :
    Nat → Nat → Nat → Option (Bool × LockFreeQueue T)
  | 0, _, _ => none
  | rounds + 1, spurious, pos =>
      let slot := pos % capacity
      let diff := ptrdiff (queue.sequence slot) - ptrdiff pos
      if diff = 0 then
        if queue.tail = pos ∧ spurious = 0 then
          some (true, { queue with
            tail := (pos + 1) % 2 ^ 64
            data := Function.update queue.data slot val
            sequence := Function.update queue.sequence slot ((pos + 1) % 2 ^ 64) })
        else pushFrom capacity queue val rounds (spurious - 1) queue.tail
      else if diff < 0 then some (false, queue)
      else pushFrom capacity queue val rounds spurious queue.tail

/-- The loop of `pop`. -/
def popFrom (capacity : Nat) (queue : LockFreeQueue T) : Nat → Nat → Nat → Option (Option T × LockFreeQueue T)
  | 0, _, _ => none
  | rounds + 1, spurious, pos =>
      let slot := pos % capacity
      let diff := ptrdiff (queue.sequence slot) - ptrdiff ((pos + 1) % 2 ^ 64)
      if diff = 0 then
        if queue.head = pos ∧ spurious = 0 then
          some (some (queue.data slot), { queue with
            head := (pos + 1) % 2 ^ 64
            sequence := Function.update queue.sequence slot ((pos + capacity) % 2 ^ 64) })
        else popFrom capacity queue rounds (spurious - 1) queue.head
      else if diff < 0 then some (none, queue)
      else popFrom capacity queue rounds spurious queue.head

def push (capacity : Nat) (queue : LockFreeQueue T) (val : T) (rounds spurious : Nat) :
    Option (Bool × LockFreeQueue T) :=
  pushFrom capacity queue val rounds spurious queue.tail

def pop (capacity : Nat) (queue : LockFreeQueue T) (rounds spurious : Nat) : Option (Option T × LockFreeQueue T) :=
  popFrom capacity queue rounds spurious queue.head

/-! ### Sequences of calls -/

inductive Operation (T : Type) where
  | push (val : T)
  | pop

inductive Response (T : Type) where
  | pushed (accepted : Bool)
  | popped (val : Option T)

/-- What is called, and how often its compare-and-exchange fails for no reason. -/
structure Call (T : Type) where
  operation : Operation T
  spurious : Nat

def perform (capacity : Nat) (queue : LockFreeQueue T) (call : Call T) (rounds : Nat) :
    Option (Response T × LockFreeQueue T) :=
  match call.operation with
  | .push val => (push capacity queue val rounds call.spurious).map fun result => (.pushed result.1, result.2)
  | .pop => (pop capacity queue rounds call.spurious).map fun result => (.popped result.1, result.2)

/-- The queue as it is meant: a list that holds at most `capacity` values, the oldest first. -/
def respond (capacity : Nat) (items : List T) : Operation T → Response T × List T
  | .push val => if items.length = capacity then (.pushed false, items) else (.pushed true, items ++ [val])
  | .pop =>
      match items with
      | [] => (.popped none, [])
      | val :: rest => (.popped (some val), rest)

/-- Each call returns, with the response of the list. -/
def Follows (capacity : Nat) : LockFreeQueue T → List T → List (Call T) → Prop
  | _, _, [] => True
  | queue, items, call :: rest => ∃ rounds after,
      perform capacity queue call rounds = some ((respond capacity items call.operation).1, after) ∧
        Follows capacity after (respond capacity items call.operation).2 rest

end HundredDays.LockFreeQueue
