import Mathlib.Data.List.Basic
import Mathlib.Logic.Function.Basic

namespace HundredDays.ActorModel

/-! The order router: actors with bounded mailboxes, and the program that sends orders through them.

One step of a thread ends with what the other threads can see of it: a message sent or received, a
message processed, the return from `run`.
-/

/-- The price is a double; here are its bits. -/
structure NewOrderPayload where
  order_id : UInt64
  symbol : UInt32
  price : UInt64
  quantity : UInt32
  side : UInt8
deriving DecidableEq

structure CancelOrderPayload where
  order_id : UInt64
  symbol : UInt32
deriving DecidableEq

inductive Order where
  | newOrder (payload : NewOrderPayload)
  | cancelOrder (payload : CancelOrderPayload)
deriving DecidableEq

def Order.symbol : Order → UInt32
  | newOrder payload => payload.symbol
  | cancelOrder payload => payload.symbol

variable {producers workers : Nat}

/-- An order travels with the producer that sent it, which no actor looks at. -/
inductive Message (producers : Nat) where
  | order (producer : Fin producers) (order : Order)
  | poisonPill
deriving DecidableEq

/-- Where the thread of an actor is in `run`. -/
inductive Position (producers : Nat) where
  /-- At the head of the loop. -/
  | loop
  /-- In `process_message`. -/
  | processing (msg : Message producers)
  | stopped
deriving DecidableEq

structure Actor (producers : Nat) where
  mailbox : List (Message producers)
  running : Bool
  position : Position producers
  /-- The messages that `process_message` is done with. -/
  processed : List (Message producers)

namespace Actor

def started : Actor producers :=
  { mailbox := [], running := true, position := .loop, processed := [] }

/-- A full mailbox blocks its sender. -/
def send (capacity : Nat) (actor : Actor producers) (msg : Message producers) : Option (Actor producers) :=
  if actor.mailbox.length < capacity then some { actor with mailbox := actor.mailbox ++ [msg] } else none

/-- From the head of the loop into `process_message`, or out of it. -/
def resume (actor : Actor producers) : Option (Actor producers) :=
  if actor.running then
    match actor.mailbox with
    | msg :: rest =>
        some { actor with mailbox := rest, running := decide (msg ≠ .poisonPill), position := .processing msg }
    | [] => none
  else some { actor with position := .stopped }

/-- `process_message` returns. -/
def finish (actor : Actor producers) (msg : Message producers) : Actor producers :=
  { actor with position := .loop, processed := actor.processed ++ [msg] }

end Actor

structure System (producers workers : Nat) where
  capacity : Nat
  /-- What each producer has yet to send. -/
  remaining : Fin producers → List Order
  /-- Main has joined the producers and sent the pill. -/
  pillSent : Bool
  router : Actor producers
  /-- The workers that the loop over them has passed. -/
  forwarded : Nat
  worker : Fin workers → Actor producers
  processed_count : Fin workers → UInt64

namespace System

def initial (capacity : Nat) (workers : Nat) (orders : Fin producers → List Order) : System producers workers :=
  { capacity, remaining := orders, pillSent := false, router := .started, forwarded := 0,
    worker := fun _ => .started, processed_count := fun _ => 0 }

/-- `symbol % workers.size()`, which needs a worker. -/
def target (workers : Nat) (order : Order) : Option (Fin workers) :=
  if any : 0 < workers then some ⟨order.symbol.toNat % workers, Nat.mod_lt _ any⟩ else none

variable (system : System producers workers)

/-- The next order of a producer goes to the router. -/
def produce (producer : Fin producers) : Option (System producers workers) :=
  match system.remaining producer with
  | order :: rest => (system.router.send system.capacity (.order producer order)).map fun router =>
      { system with remaining := Function.update system.remaining producer rest, router }
  | [] => none

/-- Main sends the pill once it has joined the producers. -/
def shutdown : Option (System producers workers) :=
  if system.pillSent = false ∧ ∀ producer, system.remaining producer = [] then
    (system.router.send system.capacity .poisonPill).map fun router => { system with pillSent := true, router }
  else none

def sendWorker (index : Fin workers) (msg : Message producers) : Option (System producers workers) :=
  ((system.worker index).send system.capacity msg).map fun worker =>
    { system with worker := Function.update system.worker index worker }

/-- `process_message` of the router: an order goes to one worker, a pill to each in turn. -/
def route (msg : Message producers) : Option (System producers workers) :=
  match msg with
  | .order _ order =>
      (target workers order).bind fun index =>
        (system.sendWorker index msg).map fun after => { after with router := after.router.finish msg }
  | .poisonPill =>
      if next : system.forwarded < workers then
        (system.sendWorker ⟨system.forwarded, next⟩ .poisonPill).map fun after =>
          { after with forwarded := system.forwarded + 1 }
      else some { system with router := system.router.finish msg }

def stepRouter : Option (System producers workers) :=
  match system.router.position with
  | .loop => system.router.resume.map fun router => { system with router }
  | .processing msg => system.route msg
  | .stopped => none

/-- `process_message` of a worker. -/
def tally (index : Fin workers) (msg : Message producers) : System producers workers :=
  { system with
    worker := Function.update system.worker index ((system.worker index).finish msg)
    processed_count :=
      match msg with
      | .order _ _ =>
          Function.update system.processed_count index (system.processed_count index + 1)
      | .poisonPill => system.processed_count }

def stepWorker (index : Fin workers) : Option (System producers workers) :=
  match (system.worker index).position with
  | .loop => (system.worker index).resume.map fun worker =>
      { system with worker := Function.update system.worker index worker }
  | .processing msg => some (system.tally index msg)
  | .stopped => none

/-- The thread that takes the next step. -/
inductive Thread (producers workers : Nat) where
  | producer (index : Fin producers)
  | main
  | router
  | worker (index : Fin workers)
deriving DecidableEq

def step : Thread producers workers → Option (System producers workers)
  | .producer index => system.produce index
  | .main => system.shutdown
  | .router => system.stepRouter
  | .worker index => system.stepWorker index

end System

end HundredDays.ActorModel
