import HundredDays.TreiberStack.Model

namespace HundredDays.TreiberStack.Reclamation

/-! Retired nodes, and the producers and consumers of `main`.

Looking at one hazard slot is a step of a thread, and so is each access to the retire
list, which is done under a mutex.  `malloc` returns any node that is not allocated.
-/

abbrev MSGS_PER_PRODUCER : Nat := 10000

/-- What the code does not decide. -/
structure Chance where
  /-- What `malloc` returns. -/
  node : Node
  /-- The links in a node that was just allocated or just freed. -/
  next : Option Node
  retireNext : Option Node
  /-- Whether a weak compare-and-exchange fails for no reason. -/
  spurious : Bool

structure Store (Thread : Type) where
  memory : Memory Thread
  retireLock : Option Thread
  retireList : Option Node
  allocated : Node → Bool

variable {Thread : Type}

namespace Store

variable (store : Store Thread)

def scribble (node : Node) (chance : Chance) : Store Thread :=
  { store with memory := { store.memory with
      next := Function.update store.memory.next node chance.next
      retireNext := Function.update store.memory.retireNext node chance.retireNext } }

def malloc (chance : Chance) : Option (Store Thread) :=
  if store.allocated chance.node then none
  else some { store.scribble chance.node chance with allocated := Function.update store.allocated chance.node true }

def free (node : Node) (chance : Chance) : Store Thread :=
  { store.scribble node chance with allocated := Function.update store.allocated node false }

def lock (thread : Thread) : Option (Store Thread) :=
  if store.retireLock.isNone then some { store with retireLock := some thread } else none

def unlock : Store Thread := { store with retireLock := none }

def setRetireNext (node : Node) (link : Option Node) : Store Thread :=
  { store with memory := { store.memory with retireNext := Function.update store.memory.retireNext node link } }

/-- Lets the node before, or the list itself, lead to the next node. -/
def unlinkRetired (prev next : Option Node) : Store Thread :=
  match prev with
  | some prev => store.setRetireNext prev next
  | none => { store with retireList := next }

end Store

/-- One look at a slot; `none` when the next slot is to be looked at. -/
def nodeIsHazardous (memory : Memory Thread) (node : Node) (slot : Nat) : Option Bool :=
  if slot < MAX_HAZARD_THREADS then if memory.hazard slot = some node then some true else none
  else some false

/-- How far a thread is in `retire_node`. -/
inductive RetirePhase where
  | scanning (slot : Nat)
  | freeing
  | locking
  /-- Has the lock, and is about to link the node to the retire list. -/
  | linking
  | listing
  | unlocking
  | returned
deriving DecidableEq

def retireNode (store : Store Thread) (thread : Thread) (node : Node) (chance : Chance) :
    RetirePhase → Option (Store Thread × RetirePhase)
  | .scanning slot =>
      match nodeIsHazardous store.memory node slot with
      | none => some (store, .scanning (slot + 1))
      | some true => some (store, .locking)
      | some false => some (store, .freeing)
  | .freeing => some (store.free node chance, .returned)
  | .locking => (store.lock thread).map fun store => (store, .linking)
  | .linking => some (store.setRetireNext node store.retireList, .listing)
  | .listing => some ({ store with retireList := some node }, .unlocking)
  | .unlocking => some (store.unlock, .returned)
  | .returned => none

/-- How far a thread is in `retire_sweep`, with what `prev`, `cur` and `next` are. -/
inductive SweepPhase where
  | locking
  | starting
  | visiting (prev cur : Option Node)
  | scanning (prev : Option Node) (cur : Node) (next : Option Node) (slot : Nat)
  | unlinking (prev : Option Node) (cur : Node) (next : Option Node)
  | freeing (prev : Option Node) (cur : Node) (next : Option Node)
  | unlocking
  | returned
deriving DecidableEq

def retireSweep (store : Store Thread) (thread : Thread) (chance : Chance) :
    SweepPhase → Option (Store Thread × SweepPhase)
  | .locking => (store.lock thread).map fun store => (store, .starting)
  | .starting => some (store, .visiting none store.retireList)
  | .visiting _ none => some (store, .unlocking)
  | .visiting prev (some cur) => some (store, .scanning prev cur (store.memory.retireNext cur) 0)
  | .scanning prev cur next slot =>
      match nodeIsHazardous store.memory cur slot with
      | none => some (store, .scanning prev cur next (slot + 1))
      | some true => some (store, .visiting (some cur) next)
      | some false => some (store, .unlinking prev cur next)
  | .unlinking prev cur next => some (store.unlinkRetired prev next, .freeing prev cur next)
  | .freeing prev cur next => some (store.free cur chance, .visiting prev next)
  | .unlocking => some (store.unlock, .returned)
  | .returned => none

inductive ProducerPhase where
  /-- At the head of the loop over the messages. -/
  | loop (j : Nat)
  | pushing (j : Nat) (node : Node) (phase : PushPhase)
  | counting (j : Nat)
  | finished
deriving DecidableEq

inductive ConsumerPhase where
  /-- In the pop of the loop, or in that of the final drain. -/
  | popping (drain : Bool) (phase : PopPhase)
  /-- Found the stack empty; about to look for producers. -/
  | checking
  /-- Found no producer; about to look whether the stack is empty. -/
  | looking
  | retiring (node : Node) (phase : RetirePhase)
  /-- In a sweep of the loop, or in the one after it. -/
  | sweeping (final : Bool) (phase : SweepPhase)
  | reporting
  | returned
deriving DecidableEq

structure Consumer where
  phase : ConsumerPhase
  localCount : Nat

/-- What the threads do that the properties speak of. -/
inductive Event (consumers : Nat) where
  | allocated (node : Node)
  | pushed (node : Node)
  | popped (node : Node)
  | freed (node : Node)
  /-- The pop of the consumer loads a head that is this node. -/
  | loaded (consumer : Fin consumers) (node : Node)
  /-- The pop of the consumer reads the link of this node. -/
  | followed (consumer : Fin consumers) (node : Node)
deriving DecidableEq

/-- The number of producers is stored in an `int`; a `long` counts the nodes. -/
structure Main (producers consumers : Nat) where
  store : Store (Fin consumers)
  producer : Fin producers → ProducerPhase
  consumer : Fin consumers → Consumer
  activeProducers : Int32
  totalPushed : Nat
  totalConsumed : Nat
  history : List (Event consumers)

inductive Turn (producers consumers : Nat) where
  | produce (index : Fin producers) (chance : Chance)
  | consume (index : Fin consumers) (chance : Chance)

variable {producers consumers : Nat}

def popEvents (consumer : Fin consumers) : PopPhase → PopPhase → List (Event consumers)
  | .loading, .loaded node _ => [.loaded consumer node]
  | .validated node _, _ => [.followed consumer node]
  | .read _ _ _, .taken node => [.popped node]
  | _, _ => []

def retireEvents (node : Node) : RetirePhase → List (Event consumers)
  | .freeing => [.freed node]
  | _ => []

def sweepEvents : SweepPhase → List (Event consumers)
  | .freeing _ cur _ => [.freed cur]
  | _ => []

namespace Consumer

/-- What a consumer does when it is so far in a pop. -/
def afterPop (consumer : Consumer) (drain : Bool) : PopPhase → Consumer
  | .returned none => { consumer with phase := if drain then .sweeping true .locking else .checking }
  | .returned (some node) => { phase := .retiring node (.scanning 0), localCount := consumer.localCount + 1 }
  | phase => { consumer with phase := .popping drain phase }

def afterRetire (consumer : Consumer) (node : Node) : RetirePhase → Consumer
  | .returned => { consumer with
      phase := if consumer.localCount &&& 0xFF = 0 then .sweeping false .locking else .popping false .called }
  | phase => { consumer with phase := .retiring node phase }

def afterSweep (consumer : Consumer) (final : Bool) : SweepPhase → Consumer
  | .returned => { consumer with phase := if final then .reporting else .popping false .called }
  | phase => { consumer with phase := .sweeping final phase }

end Consumer

namespace Main

def initial (producers consumers : Nat) (next retireNext : Node → Option Node) : Main producers consumers :=
  { store := { memory := stackInit next retireNext, retireLock := none, retireList := none
               allocated := fun _ => false }
    producer := fun _ => .loop 0
    consumer := fun _ => { phase := .popping false .called, localCount := 0 }
    activeProducers := Int32.ofNat producers
    totalPushed := 0
    totalConsumed := 0
    history := [] }

variable (main : Main producers consumers)

/-- A producer goes on. -/
def setProducer (index : Fin producers) (phase : ProducerPhase) (store : Store (Fin consumers))
    (events : List (Event consumers)) : Main producers consumers :=
  { main with store, producer := Function.update main.producer index phase, history := main.history ++ events }

/-- A consumer goes on. -/
def setConsumer (index : Fin consumers) (consumer : Consumer) (store : Store (Fin consumers))
    (events : List (Event consumers)) : Main producers consumers :=
  { main with store, consumer := Function.update main.consumer index consumer, history := main.history ++ events }

def produce (index : Fin producers) (chance : Chance) : Option (Main producers consumers) :=
  match main.producer index with
  | .loop j =>
      if j < MSGS_PER_PRODUCER then
        (main.store.malloc chance).map fun store =>
          main.setProducer index (.pushing j chance.node .called) store [.allocated chance.node]
      else some { main.setProducer index .finished main.store [] with activeProducers := main.activeProducers - 1 }
  | .pushing j node phase =>
      match stackPush main.store.memory node chance.spurious phase with
      | (memory, .returned) => some (main.setProducer index (.counting j) { main.store with memory } [.pushed node])
      | (memory, next) => some (main.setProducer index (.pushing j node next) { main.store with memory } [])
  | .counting j =>
      some { main.setProducer index (.loop (j + 1)) main.store [] with totalPushed := main.totalPushed + 1 }
  | .finished => none

def consume (index : Fin consumers) (chance : Chance) : Option (Main producers consumers) :=
  match (main.consumer index).phase with
  | .popping drain phase =>
      (stackPop main.store.memory index chance.spurious phase).map fun (memory, next) =>
        main.setConsumer index ((main.consumer index).afterPop drain next) { main.store with memory }
          (popEvents index phase next)
  | .checking =>
      some (main.setConsumer index { main.consumer index with
        phase := if main.activeProducers = 0 then .looking else .popping false .called } main.store [])
  | .looking =>
      some (main.setConsumer index { main.consumer index with
        phase := .popping main.store.memory.head.ptr.isNone .called } main.store [])
  | .retiring node phase =>
      (retireNode main.store index node chance phase).map fun (store, next) =>
        main.setConsumer index ((main.consumer index).afterRetire node next) store
          (retireEvents node phase)
  | .sweeping final phase =>
      (retireSweep main.store index chance phase).map fun (store, next) =>
        main.setConsumer index ((main.consumer index).afterSweep final next) store
          (sweepEvents phase)
  | .reporting =>
      some { main.setConsumer index { main.consumer index with phase := .returned } main.store [] with
        totalConsumed := main.totalConsumed + (main.consumer index).localCount }
  | .returned => none

def step : Turn producers consumers → Option (Main producers consumers)
  | .produce index chance => main.produce index chance
  | .consume index chance => main.consume index chance

end Main

end HundredDays.TreiberStack.Reclamation
