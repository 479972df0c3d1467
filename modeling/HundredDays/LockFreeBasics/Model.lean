import Mathlib.Data.List.Infix
import Mathlib.Logic.Function.Basic

namespace HundredDays.LockFreeBasics

/-! The ring of `SPSC.c`, which moves an index first and looks at the slot afterwards.

Each load, each compare-and-swap and each access to a slot is one step of the one thread
that pushes or of the one that pops, and the two take turns in any way.
-/

/-- `CAPACITY` -/
abbrev capacity : Nat := 1024

structure LockFreeQueue where
  data : Nat → UInt64
  head : Nat
  tail : Nat

/-- How far a push is. -/
inductive Producer where
  | idle
  | called (val : UInt64)
  | tailLoaded (val : UInt64) (tail : Nat)
  | notFull (val : UInt64) (tail nextTail : Nat)
  | claimed (val : UInt64) (tail : Nat)

/-- How far a pop is. -/
inductive Consumer where
  | idle
  | called
  | headLoaded (head : Nat)
  | notEmpty (head nextHead : Nat)
  | claimed (head : Nat)

/-- The queue, the threads and the history. -/
structure State where
  queue : LockFreeQueue
  producer : Producer
  consumer : Consumer
  /-- The values whose push claimed a slot. -/
  claimed : List UInt64
  /-- How many slots were claimed by pops. -/
  taken : Nat
  /-- The values that pops returned. -/
  popped : List UInt64
  /-- The slots that were written and not read since. -/
  unread : Nat → Bool
  readUnwritten : Bool
  overwroteUnread : Bool

inductive Action where
  | push (val : UInt64)
  | pop
  /-- The next step of the push; a weak compare-and-swap may also fail for no reason. -/
  | producer (spurious : Bool)
  | consumer (spurious : Bool)

/-- After `initialize`. -/
def State.initial (data : Nat → UInt64) : State where
  queue := { data, head := 0, tail := 0 }
  producer := .idle
  consumer := .idle
  claimed := []
  taken := 0
  popped := []
  unread := fun _ => false
  readUnwritten := false
  overwroteUnread := false

/-- The next step of a push. -/
def queuePush (state : State) (spurious : Bool) : Option State :=
  match state.producer with
  | .idle => none
  | .called val => some { state with producer := .tailLoaded val state.queue.tail }
  | .tailLoaded val tail =>
      let nextTail := (tail + 1) % capacity
      some { state with
        producer := if nextTail = state.queue.head then .idle else .notFull val tail nextTail }
  | .notFull val tail nextTail =>
      if state.queue.tail = tail ∧ !spurious then
        some { state with
          queue := { state.queue with tail := nextTail }
          producer := .claimed val tail
          claimed := state.claimed ++ [val] }
      else some { state with producer := .tailLoaded val state.queue.tail }
  | .claimed val tail =>
      some { state with
        queue := { state.queue with data := Function.update state.queue.data tail val }
        producer := .idle
        unread := Function.update state.unread tail true
        overwroteUnread := state.overwroteUnread || state.unread tail }

/-- The next step of a pop. -/
def queuePop (state : State) (spurious : Bool) : Option State :=
  match state.consumer with
  | .idle => none
  | .called => some { state with consumer := .headLoaded state.queue.head }
  | .headLoaded head =>
      some { state with
        consumer := if head = state.queue.tail then .idle else .notEmpty head ((head + 1) % capacity) }
  | .notEmpty head nextHead =>
      if state.queue.head = head ∧ !spurious then
        some { state with
          queue := { state.queue with head := nextHead }
          consumer := .claimed head
          taken := state.taken + 1 }
      else some { state with consumer := .headLoaded state.queue.head }
  | .claimed head =>
      some { state with
        consumer := .idle
        popped := state.popped ++ [state.queue.data head]
        unread := Function.update state.unread head false
        readUnwritten := state.readUnwritten || !state.unread head }

def step (state : State) : Action → Option State
  | .push val =>
      match state.producer with
      | .idle => some { state with producer := .called val }
      | _ => none
  | .pop =>
      match state.consumer with
      | .idle => some { state with consumer := .called }
      | _ => none
  | .producer spurious => queuePush state spurious
  | .consumer spurious => queuePop state spurious

end HundredDays.LockFreeBasics
