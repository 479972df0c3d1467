import HundredDays.Data.Links

namespace HundredDays.StealStack

open HundredDays.Data

/-! The stack whose consumers steal all of it at once.

The head is a bare pointer. Each atomic operation on it, and each write to a link, is one step of one
thread. A node is its address.
-/

abbrev Node := Nat

structure Memory where
  next : Node → Option Node
  head : Option Node

inductive PushPhase where
  | called
  /-- About to write what was loaded to `chain_tail->next`. -/
  | loaded (expected : Option Node)
  | linked
  | returned
deriving DecidableEq

/-- The exchange compares the head with `chain_tail->next`, and a failed one writes what it found there. -/
def push (memory : Memory) (chain_head chain_tail : Node) (spurious : Bool) : PushPhase → Memory × PushPhase
  | .called => (memory, .loaded memory.head)
  | .loaded expected => ({ memory with next := Function.update memory.next chain_tail expected }, .linked)
  | .linked =>
      if memory.head = memory.next chain_tail ∧ spurious = false then
        ({ memory with head := some chain_head }, .returned)
      else (memory, .loaded memory.head)
  | .returned => (memory, .returned)

def steal (memory : Memory) : Option Node × Memory := (memory.head, { memory with head := none })

inductive Event where
  | pushed (chain : List Node)
  | stolen (chain_head : Option Node)
deriving DecidableEq

inductive Phase where
  | idle
  /-- The nodes of the chain before its tail. -/
  | push (before : List Node) (chain_tail : Node) (phase : PushPhase)
deriving DecidableEq

inductive Holder (Thread : Type) where
  | stack
  | allocator
  | thread (thread : Thread)
deriving DecidableEq

/-- A node that is not on the stack belongs to a thread or to the allocator. -/
structure State (Thread : Type) where
  memory : Memory
  phase : Thread → Phase
  holder : Node → Holder Thread
  /-- The pushes and steals, in the step in which they take effect. -/
  history : List (Thread × Event)

variable {Thread : Type}

def State.initial (next : Node → Option Node) : State Thread :=
  { memory := { next, head := none }, phase := fun _ => .idle, holder := fun _ => .allocator, history := [] }

inductive Action (Thread : Type) where
  /-- The owner of the node writes to it and hands it on: `delete` and `new` among others. -/
  | hand (node : Node) (receiver : Option Thread) (next : Option Node)
  | push (thread : Thread) (before : List Node) (chain_tail : Node)
  /-- The next step of a push; a weak compare-and-exchange may fail for no reason. -/
  | step (thread : Thread) (spurious : Bool)
  | steal (thread : Thread)

variable [DecidableEq Thread]

/-- A thread in the middle of a push does nothing else with its nodes. -/
def State.free (state : State Thread) : Holder Thread → Bool
  | .stack => false
  | .allocator => true
  | .thread thread => state.phase thread = .idle

def State.stepPush (state : State Thread) (thread : Thread) (before : List Node) (chain_tail : Node) (spurious : Bool)
    (phase : PushPhase) : State Thread :=
  match StealStack.push state.memory (before.headD chain_tail) chain_tail spurious phase with
  | (memory, .returned) =>
      { memory
        phase := Function.update state.phase thread .idle
        holder := fun node => if node ∈ before ++ [chain_tail] then .stack else state.holder node
        history := state.history ++ [(thread, .pushed (before ++ [chain_tail]))] }
  | (memory, next) =>
      { state with memory, phase := Function.update state.phase thread (.push before chain_tail next) }

def step (state : State Thread) : Action Thread → Option (State Thread)
  | .hand node receiver next =>
      if state.free (state.holder node) then
        some { state with
          memory := { state.memory with next := Function.update state.memory.next node next }
          holder := Function.update state.holder node (receiver.elim .allocator .thread) }
      else none
  | .push thread before chain_tail =>
      if state.phase thread = .idle ∧ (before ++ [chain_tail]).Nodup ∧
          (∀ node ∈ before ++ [chain_tail], state.holder node = .thread thread) ∧
          Strand state.memory.next (before ++ [chain_tail]) then
        some { state with phase := Function.update state.phase thread (.push before chain_tail .called) }
      else none
  | .step thread spurious =>
      match state.phase thread with
      | .push before chain_tail phase => some (state.stepPush thread before chain_tail spurious phase)
      | .idle => none
  | .steal thread =>
      if state.phase thread = .idle then
        let (chain_head, memory) := steal state.memory
        some { state with
          memory
          holder := fun node => if state.holder node = .stack then .thread thread else state.holder node
          history := state.history ++ [(thread, .stolen chain_head)] }
      else none

end HundredDays.StealStack
