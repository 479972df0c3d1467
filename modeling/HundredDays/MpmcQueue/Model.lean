import Mathlib.Algebra.Ring.Int.Defs
import Mathlib.Algebra.Ring.Nat
import Mathlib.Data.List.Basic
import Mathlib.Logic.Function.Basic

namespace HundredDays.MpmcQueue

/-! The bounded queue of many producers and many consumers.

Each atomic load, compare-and-exchange and store, and each access to the data of a
slot, is one step of one thread.  A `size_t` is a number below `2 ^ 64`.
-/

abbrev CAPACITY : Nat := 1024

structure LockFreeQueue (T : Type) where
  data : Nat → T
  sequence : Nat → Nat
  head : Nat
  tail : Nat

variable {T : Type} {threads : Nat}

def initializeQueue (data : Nat → T) : LockFreeQueue T :=
  { data, sequence := fun i => i, head := 0, tail := 0 }

/-- The conversion from `size_t` to `intptr_t`. -/
def intptr (value : Nat) : Int := if value < 2 ^ 63 then value else (value : Int) - 2 ^ 64

/-- How far a thread is in `queue_push` or `queue_pop`. -/
inductive Phase (T : Type) where
  | idle
  | pushCalled (val : T)
  /-- About to load the sequence of the slot. -/
  | pushLooking (val : T) (pos : Nat)
  /-- About to compare, and to exchange or to load the tail again. -/
  | pushDeciding (val : T) (pos seq : Nat)
  | pushClaimed (val : T) (pos : Nat)
  | pushWritten (pos : Nat)
  | popCalled
  | popLooking (pos : Nat)
  | popDeciding (pos seq : Nat)
  | popClaimed (pos : Nat)
  | popRead (pos : Nat) (val : T)

/-- The queue, the threads and the history. -/
structure State (T : Type) (threads : Nat) where
  queue : LockFreeQueue T
  phase : Fin threads → Phase T
  /-- The pushes that have claimed a ticket, in the order of their tickets. -/
  pushes : List (Fin threads × T)
  /-- The pops that have claimed a ticket, with it, in the order of the claims. -/
  pops : List (Fin threads × Nat)
  /-- The tickets of the pops that have returned, with the values. -/
  returned : List (Nat × T)
  /-- The ticket whose value was written to a slot and not read yet. -/
  held : Nat → Option Nat
  /-- How many operations were called. -/
  operations : Nat

def State.initial (threads : Nat) (data : Nat → T) : State T threads :=
  { queue := initializeQueue data, phase := fun _ => .idle, pushes := [], pops := [], returned := []
    held := fun _ => none, operations := 0 }

inductive Action (T : Type) (threads : Nat) where
  | push (thread : Fin threads) (val : T)
  | pop (thread : Fin threads)
  /-- The next step of a thread; a weak compare-and-exchange may fail for no reason. -/
  | step (thread : Fin threads) (spurious : Bool)

/-- The next step of a push. -/
def queuePush (state : State T threads) (thread : Fin threads) (spurious : Bool) : Option (State T threads) :=
  let goto := fun phase => { state with phase := Function.update state.phase thread phase }
  match state.phase thread with
  | .pushCalled val => some (goto (.pushLooking val state.queue.tail))
  | .pushLooking val pos => some (goto (.pushDeciding val pos (state.queue.sequence (pos % CAPACITY))))
  | .pushDeciding val pos seq =>
      let diff := intptr seq - intptr pos
      if diff = 0 then
        if state.queue.tail = pos ∧ spurious = false then
          some { goto (.pushClaimed val pos) with
            queue := { state.queue with tail := (pos + 1) % 2 ^ 64 }
            pushes := state.pushes ++ [(thread, val)] }
        else some (goto (.pushLooking val state.queue.tail))
      else if diff < 0 then some (goto .idle)
      else some (goto (.pushLooking val state.queue.tail))
  | .pushClaimed val pos =>
      some { goto (.pushWritten pos) with
        queue := { state.queue with data := Function.update state.queue.data (pos % CAPACITY) val }
        held := Function.update state.held (pos % CAPACITY) (some pos) }
  | .pushWritten pos =>
      some { goto .idle with
        queue := { state.queue with
          sequence := Function.update state.queue.sequence (pos % CAPACITY) ((pos + 1) % 2 ^ 64) } }
  | _ => none

/-- The next step of a pop. -/
def queuePop (state : State T threads) (thread : Fin threads) (spurious : Bool) : Option (State T threads) :=
  let goto := fun phase => { state with phase := Function.update state.phase thread phase }
  match state.phase thread with
  | .popCalled => some (goto (.popLooking state.queue.head))
  | .popLooking pos => some (goto (.popDeciding pos (state.queue.sequence (pos % CAPACITY))))
  | .popDeciding pos seq =>
      let diff := intptr seq - intptr ((pos + 1) % 2 ^ 64)
      if diff = 0 then
        if state.queue.head = pos ∧ spurious = false then
          some { goto (.popClaimed pos) with
            queue := { state.queue with head := (pos + 1) % 2 ^ 64 }
            pops := state.pops ++ [(thread, pos)] }
        else some (goto (.popLooking state.queue.head))
      else if diff < 0 then some (goto .idle)
      else some (goto (.popLooking state.queue.head))
  | .popClaimed pos =>
      some { goto (.popRead pos (state.queue.data (pos % CAPACITY))) with
        held := Function.update state.held (pos % CAPACITY) none }
  | .popRead pos val =>
      some { goto .idle with
        queue := { state.queue with
          sequence := Function.update state.queue.sequence (pos % CAPACITY) ((pos + CAPACITY) % 2 ^ 64) }
        returned := state.returned ++ [(pos, val)] }
  | _ => none

def call (state : State T threads) (thread : Fin threads) (phase : Phase T) : Option (State T threads) :=
  match state.phase thread with
  | .idle =>
      some { state with
        phase := Function.update state.phase thread phase
        operations := state.operations + 1 }
  | _ => none

def step (state : State T threads) : Action T threads → Option (State T threads)
  | .push thread val => call state thread (.pushCalled val)
  | .pop thread => call state thread .popCalled
  | .step thread spurious => (queuePush state thread spurious).or (queuePop state thread spurious)

end HundredDays.MpmcQueue
