import Mathlib.Data.List.Infix
import Mathlib.Logic.Function.Basic

namespace HundredDays.SpscQueue

/-! The ring buffer between one producer and one consumer.

`queue_push` and `queue_pop` of C, and `try_push` and `try_pop` of C++, take the same
steps: each load, each access to a slot and each store of an index is one step, and
the two threads take turns in any way.
-/

structure LockFreeQueue (T : Type) where
  data : Nat → T
  head : UInt64
  tail : UInt64

/-- How far a push is. -/
inductive Producer (T : Type) where
  | idle
  | called (value : T)
  | tailLoaded (value : T) (currentTail : UInt64)
  /-- The last field is no variable of the code, but how many values were in the queue
  when the head was loaded. -/
  | headLoaded (value : T) (currentTail currentHead : UInt64) (present : Nat)
  | stored (value : T) (currentTail : UInt64)

/-- How far a pop is. -/
inductive Consumer (T : Type) where
  | idle
  | called
  | headLoaded (currentHead : UInt64)
  | tailLoaded (currentHead currentTail : UInt64) (present : Nat)
  | taken (currentHead : UInt64) (value : T)

/-- The queue, the threads and the history. -/
structure State (T : Type) where
  queue : LockFreeQueue T
  producer : Producer T
  consumer : Consumer T
  /-- The values whose push returned true. -/
  pushed : List T
  popped : List T
  /-- The slots that were written and not read since. -/
  unread : Nat → Bool
  /-- How many values each failed push and pop had found. -/
  failedPushes : List Nat
  failedPops : List Nat

inductive Action (T : Type) where
  | push (value : T)
  | pop
  | producer
  | consumer

variable {T : Type}

/-- Both indices start at the same value, as `seed_indices` sets them. -/
def State.initial (start : UInt64) (data : Nat → T) : State T :=
  { queue := { data, head := start, tail := start }, producer := .idle, consumer := .idle
    pushed := [], popped := [], unread := fun _ => false, failedPushes := [], failedPops := [] }

def State.present (state : State T) : Nat := state.pushed.length - state.popped.length

/-- The slot of an index, masked with `capacity - 1`. -/
def slot (capacity : Nat) (index : UInt64) : Nat := index.toNat &&& (capacity - 1)

/-- The next step of a push. -/
def queuePush (capacity : Nat) (state : State T) : Option (State T) :=
  match state.producer with
  | .idle => none
  | .called value => some { state with producer := .tailLoaded value state.queue.tail }
  | .tailLoaded value currentTail =>
      some { state with producer := .headLoaded value currentTail state.queue.head state.present }
  | .headLoaded value currentTail currentHead present =>
      if capacity ≤ (currentTail - currentHead).toNat then
        some { state with producer := .idle, failedPushes := present :: state.failedPushes }
      else
        some { state with
          queue := { state.queue with
            data := Function.update state.queue.data (slot capacity currentTail) value }
          unread := Function.update state.unread (slot capacity currentTail) true
          producer := .stored value currentTail }
  | .stored value currentTail =>
      some { state with
        queue := { state.queue with tail := currentTail + 1 }
        producer := .idle
        pushed := state.pushed ++ [value] }

/-- The next step of a pop. -/
def queuePop (capacity : Nat) (state : State T) : Option (State T) :=
  match state.consumer with
  | .idle => none
  | .called => some { state with consumer := .headLoaded state.queue.head }
  | .headLoaded currentHead =>
      some { state with consumer := .tailLoaded currentHead state.queue.tail state.present }
  | .tailLoaded currentHead currentTail present =>
      if currentHead = currentTail then
        some { state with consumer := .idle, failedPops := present :: state.failedPops }
      else
        some { state with
          unread := Function.update state.unread (slot capacity currentHead) false
          consumer := .taken currentHead (state.queue.data (slot capacity currentHead)) }
  | .taken currentHead value =>
      some { state with
        queue := { state.queue with head := currentHead + 1 }
        consumer := .idle
        popped := state.popped ++ [value] }

def step (capacity : Nat) (state : State T) : Action T → Option (State T)
  | .push value =>
      match state.producer with
      | .idle => some { state with producer := .called value }
      | _ => none
  | .pop =>
      match state.consumer with
      | .idle => some { state with consumer := .called }
      | _ => none
  | .producer => queuePush capacity state
  | .consumer => queuePop capacity state

end HundredDays.SpscQueue
