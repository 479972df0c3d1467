import HundredDays.ActorModel.Routing
import HundredDays.Data.Ring
import HundredDays.Memory.Cells
import HundredDays.MpmcQueue.Clients
import Mathlib.Algebra.BigOperators.Fin

namespace HundredDays.CActor

open HundredDays.Data HundredDays.Memory HundredDays.MpmcQueue HundredDays.Semantics
open HundredDays.ActorModel (Order)

/-! The actor of the C program: messages in heap blocks, with their addresses in the queue.

Main is thread 0.  It allocates the messages, pushes them and ignores what the queue
answers; the actor frees what it pops.  An access through a pointer to no live block of
the right kind is a fault.
-/

inductive MessageType where
  | newOrder
  | cancelOrder
  | poisonPill
  deriving DecidableEq

inductive Block where
  /-- A message, with its payload pointer once that is set. -/
  | message (type : MessageType) (payload : Option Nat)
  | payload (order : Order)
  deriving DecidableEq

/-- What main sends, and what the actor prints. -/
inductive Mail where
  | order (order : Order)
  | poisonPill
  deriving DecidableEq

def Mail.type : Mail → MessageType
  | order (.newOrder _) => .newOrder
  | order (.cancelOrder _) => .cancelOrder
  | poisonPill => .poisonPill

/-- Where main is. -/
inductive Sender where
  /-- About to allocate the next message. -/
  | creating (rest : List Mail)
  /-- About to allocate the payload. -/
  | filling (order : Order) (msg : Nat) (rest : List Mail)
  /-- In `queue_push`. -/
  | sending (mail : Mail) (msg : Nat) (rest : List Mail)

/-- Where the actor is. -/
inductive Worker where
  | popping
  | dispatching (msg : Nat)
  | freeingPayload (msg : Nat)
  | freeingMessage (msg : Nat) (running : Bool)
  | stopped
  deriving DecidableEq

structure Process where
  heap : Nat → Option Block
  sender : Sender
  worker : Worker
  printed : List Mail
  /-- What the queue has accepted, and what it has refused. -/
  accepted : List Mail
  refused : List Mail
  fault : Bool

abbrev Program : Type := State Nat 2 × Process

/-- The messages of main: the orders and the poison pill. -/
def script (orders : List Order) : List Mail := orders.map .order ++ [.poisonPill]

def initial (orders : List Order) : Program :=
  (State.initial 2 fun _ => 0,
    { heap := fun _ => none, sender := .creating (script orders), worker := .popping, printed := []
      accepted := [], refused := [], fault := false })

inductive Input where
  /-- The next step of main; an allocation returns this address. -/
  | main (address : Nat) (spurious : Bool)
  | actor (spurious : Bool)

namespace Process

variable (process : Process)

def failed : Process := { process with fault := true }

/-- `malloc` returns an address that nothing has, and not null. -/
def malloc (address : Nat) (block : Block) : Option (Nat → Option Block) :=
  if 0 < address ∧ address < 2 ^ 64 ∧ process.heap address = none then
    some (Function.update process.heap address (some block))
  else none

/-- The steps of main between its pushes. -/
def create (address : Nat) : Option Process :=
  match process.sender with
  | .creating (mail :: rest) =>
      (process.malloc address (.message mail.type none)).map fun heap =>
        match mail with
        | .order order => { process with heap, sender := .filling order address rest }
        | .poisonPill => { process with heap, sender := .sending .poisonPill address rest }
  | .filling order msg rest =>
      (process.malloc address (.payload order)).map fun heap =>
        match heap msg with
        | some (.message type _) =>
            { process with
              heap := Function.update heap msg (some (.message type (some address)))
              sender := .sending (.order order) msg rest }
        | _ => process.failed
  | _ => none

/-- The message that the actor has popped is printed. -/
def dispatch (msg : Nat) : Process :=
  match process.heap msg with
  | some (.message .newOrder (some payload)) =>
      match process.heap payload with
      | some (.payload (.newOrder order)) =>
          { process with printed := process.printed ++ [.order (.newOrder order)], worker := .freeingPayload msg }
      | _ => process.failed
  | some (.message .cancelOrder (some payload)) =>
      match process.heap payload with
      | some (.payload (.cancelOrder order)) =>
          { process with printed := process.printed ++ [.order (.cancelOrder order)], worker := .freeingPayload msg }
      | _ => process.failed
  | some (.message .poisonPill _) =>
      { process with printed := process.printed ++ [.poisonPill], worker := .freeingMessage msg false }
  | _ => process.failed

def free (address : Nat) (worker : Worker) : Process :=
  match process.heap address with
  | some _ => { process with heap := Function.update process.heap address none, worker }
  | none => process.failed

/-- The steps of the actor between its pops. -/
def handle : Option Process :=
  match process.worker with
  | .dispatching msg => some (process.dispatch msg)
  | .freeingPayload msg =>
      match process.heap msg with
      | some (.message _ (some payload)) => some (process.free payload (.freeingMessage msg true))
      | _ => some process.failed
  | .freeingMessage msg running => some (process.free msg (if running then .popping else .stopped))
  | _ => none

/-- What a thread does when its call returns. -/
def resume (_thread : Fin 2) (response : Response Nat) : Process :=
  match response with
  | .pushed done =>
      match process.sender with
      | .sending mail _ rest =>
          if done then { process with sender := .creating rest, accepted := process.accepted ++ [mail] }
          else { process with sender := .creating rest, refused := process.refused ++ [mail] }
      | _ => process
  | .popped (some msg) => { process with worker := .dispatching msg }
  | .popped none => process

end Process

theorem two_threads : NeZero 2 := ⟨Nat.succ_ne_zero 1⟩

-- The instance by name keeps the numerals of the threads free of a proof.
attribute [local instance] two_threads

def advance (program : Program) (input : Input) : Option Program :=
  if program.2.fault then none
  else
    match input with
    | .main address spurious =>
        match program.2.sender, program.1.phase 0 with
        | .sending _ msg _, .idle => (step program.1 (.push 0 msg)).map fun after => (after, program.2)
        | .sending _ _ _, _ => stepInside Process.resume program 0 spurious
        | _, _ => (program.2.create address).map fun process => (program.1, process)
    | .actor spurious =>
        match program.2.worker, program.1.phase 1 with
        | .popping, .idle => (step program.1 (.pop 1)).map fun after => (after, program.2)
        | .popping, _ => stepInside Process.resume program 1 spurious
        | _, _ => program.2.handle.map fun process => (program.1, process)

/-- The actor is joined and main returns. -/
def finished (program : Program) : Prop :=
  program.2.worker = .stopped ∧ program.2.sender = .creating []

/-! ### Who owns what -/

/-- A message with all its blocks. -/
structure Parcel where
  mail : Mail
  msg : Nat
  payload : Nat

def Parcel.cells (parcel : Parcel) : List (Nat × Block) :=
  match parcel.mail with
  | .order order => [(parcel.msg, .message parcel.mail.type (some parcel.payload)), (parcel.payload, .payload order)]
  | .poisonPill => [(parcel.msg, .message .poisonPill none)]

/-- What main owns, which message has a ticket before the push returns, and what has none yet. -/
inductive Sends : Sender → Stage Nat → List (Nat × Block) → List Mail → List Mail → Prop where
  | creating (rest : List Mail) : Sends (.creating rest) .idle [] [] rest
  | filling (order : Order) (msg : Nat) (rest : List Mail) :
      Sends (.filling order msg rest) .idle [(msg, .message (Mail.order order).type none)] [] (.order order :: rest)
  | calling (parcel : Parcel) (rest : List Mail) :
      Sends (.sending parcel.mail parcel.msg rest) .idle parcel.cells [] (parcel.mail :: rest)
  | offering (parcel : Parcel) (rest : List Mail) :
      Sends (.sending parcel.mail parcel.msg rest) (.offering parcel.msg) parcel.cells [] (parcel.mail :: rest)
  | storing (mail : Mail) (msg : Nat) (rest : List Mail) : Sends (.sending mail msg rest) .storing [] [mail] rest

/-- What the actor owns, and what it has not printed yet. -/
inductive Works : Worker → Stage Nat → List (Nat × Block) → List Mail → Prop where
  | calling : Works .popping .idle [] []
  | seeking : Works .popping .seeking [] []
  | taking : Works .popping .taking [] []
  | dispatching (parcel : Parcel) : Works (.dispatching parcel.msg) .idle parcel.cells [parcel.mail]
  | freeingPayload (order : Order) (msg payload : Nat) :
      Works (.freeingPayload msg) .idle (Parcel.mk (.order order) msg payload).cells []
  | freeingMessage (msg : Nat) (block : Block) (running : Bool) :
      Works (.freeingMessage msg running) .idle [(msg, block)] []
  | stopped : Works .stopped .idle [] []

/-- The actor has seen the pill. -/
def Worker.ended : Worker → Bool
  | freeingMessage _ running => !running
  | stopped => true
  | _ => false

/-- Each message is printed, in the queue, refused or still to be sent. -/
structure Ledger (orders : List Order) (process : Process) (leaked waiting : List Parcel)
    (storing todo unprinted : List Mail) : Prop where
  history : process.printed ++ unprinted ++ waiting.map Parcel.mail = process.accepted ++ storing
  refused : leaked.map Parcel.mail = process.refused
  sent : ∃ done, done ++ todo = script orders ∧ (process.accepted ++ storing).Sublist done ∧
    (process.accepted ++ storing).length + process.refused.length = done.length
  ended : process.worker.ended = true ↔ .poisonPill ∈ process.printed

/-- The queue holds the addresses of the messages that wait. -/
structure Queued (state : State Nat 2) (waiting : List Parcel) (served : Nat) : Prop where
  addresses : (state.pushes.map Prod.snd).drop served = waiting.map Parcel.msg
  inOrder : state.returned.map Prod.fst = List.range served
  within : served ≤ state.pushes.length

structure Served (orders : List Order) (program : Program) (leaked waiting : List Parcel)
    (mine his : List (Nat × Block)) (storing todo unprinted : List Mail) : Prop where
  alive : program.2.fault = false
  sound : Sound program.1
  looked : Looked program.1
  sends : Sends program.2.sender (program.1.phase 0).stage mine storing todo
  works : Works program.2.worker (program.1.phase 1).stage his unprinted
  heap : Represents program.2.heap (leaked.flatMap Parcel.cells ++ waiting.flatMap Parcel.cells ++ mine ++ his)
  queued : Queued program.1 waiting (program.2.printed ++ unprinted).length
  ledger : Ledger orders program.2 leaked waiting storing todo unprinted

/-- A program in one of its reachable states. -/
def Running (orders : List Order) (program : Program) : Prop :=
  ∃ leaked waiting mine his storing todo unprinted, Served orders program leaked waiting mine his storing todo unprinted

variable {orders : List Order} {program next : Program} {process : Process} {state : State Nat 2}
  {leaked waiting : List Parcel} {mine his : List (Nat × Block)} {storing todo unprinted : List Mail}
  {address msg : Nat} {spurious : Bool}

theorem initial_running (orders : List Order) : Running orders (initial orders) :=
  ⟨[], [], [], [], [], script orders, [],
    { alive := rfl
      sound := initial_sound _
      looked := nofun
      sends := .creating _
      works := .calling
      heap := .empty
      queued := ⟨rfl, rfl, Nat.le_refl _⟩
      ledger := ⟨rfl, rfl, ⟨[], rfl, List.nil_sublist _, rfl⟩, by simp [initial, Worker.ended]⟩ }⟩

theorem malloc_spec {block : Block} {heap : Nat → Option Block} (allocated : process.malloc address block = some heap) :
    process.heap address = none ∧ heap = Function.update process.heap address (some block) := by
  simp only [Process.malloc, Option.ite_none_right_eq_some, Option.some.injEq] at allocated
  exact ⟨allocated.1.2.2, allocated.2.symm⟩

theorem Queued.keep {after : State Nat 2} {served : Nat} (queued : Queued state waiting served)
    (pushes : after.pushes = state.pushes) (returned : after.returned = state.returned) :
    Queued after waiting served :=
  ⟨pushes ▸ queued.addresses, returned ▸ queued.inOrder, pushes ▸ queued.within⟩

theorem popping_of_idle {phase : Phase Nat} (idle : phase.stage = .idle) : phase.popping = none := by
  rw [Phase.stage_eq_idle.mp idle]
  rfl

theorem Sends.quiet {sender : Sender} {phase : Phase Nat} (sends : Sends sender phase.stage mine storing todo) :
    phase.popping = none := by
  cases at_ : phase with
  | popClaimed pos =>
      rw [at_, Phase.stage] at sends
      cases sends
  | popRead pos val =>
      rw [at_, Phase.stage] at sends
      cases sends
  | _ => rfl

/-- The actor pops the first message that waits. -/
theorem Queued.pop {after : State Nat 2} {served pos val : Nat} (queued : Queued state waiting served)
    (sound : Sound after) (quiet : ∀ thread, (after.phase thread).popping = none) (pushes : after.pushes = state.pushes)
    (returned : after.returned = state.returned ++ [(pos, val)]) :
    ∃ parcel rest, waiting = parcel :: rest ∧ val = parcel.msg ∧ Queued after rest (served + 1) := by
  have tickets : after.returned.map Prod.fst = List.range served ++ [pos] := by
    rw [returned, List.map_append, queued.inOrder, List.map_singleton]
  have here : pos = served := sound.pop_inOrder quiet tickets
  have value := sound.returned (pos, val) (by rw [returned]; simp)
  rw [here, valueOf, pushes, ← List.getElem?_map] at value
  obtain ⟨inside, same⟩ := List.getElem?_eq_some_iff.mp value
  have addresses := queued.addresses
  rw [List.drop_eq_getElem_cons inside, same] at addresses
  obtain ⟨parcel, rest, rfl, first, later⟩ := List.map_eq_cons_iff.mp addresses.symm
  refine ⟨parcel, rest, rfl, first.symm, by rw [pushes]; exact later.symm, ?_, ?_⟩
  · rw [tickets, here, List.range_succ]
  · rw [pushes]
    exact Nat.succ_le_of_lt (by simpa using inside)

namespace Served

/-- Main allocates a message or a payload. -/
theorem create (served : Served orders program leaked waiting mine his storing todo unprinted)
    (created : program.2.create address = some process) : Running orders (program.1, process) := by
  obtain ⟨alive, sound, looked, sends, works, represents, queued, ledger⟩ := served
  generalize at_ : program.2.sender = sender at sends
  generalize here : (program.1.phase 0).stage = stage at sends
  cases sends with
  | creating =>
      cases todo with
      | nil => simp only [Process.create, at_, reduceCtorEq] at created
      | cons mail rest =>
          simp only [Process.create, at_] at created
          obtain ⟨heap, allocated, rfl⟩ := Option.map_eq_some_iff.mp created
          obtain ⟨fresh, rfl⟩ := malloc_spec allocated
          cases mail with
          | order order =>
              refine ⟨leaked, waiting, _, his, [], _, unprinted, alive, sound, looked,
                by rw [here]; exact .filling order address rest, works,
                (represents.allocate fresh _).perm ?_, queued, ledger.1, ledger.2, ledger.3, ledger.4⟩
              exact List.perm_iff_count.mpr fun cell => by
                simp only [List.count_append, List.count_cons, List.count_nil]
                omega
          | poisonPill =>
              refine ⟨leaked, waiting, _, his, [], _, unprinted, alive, sound, looked,
                by rw [here]; exact .calling ⟨.poisonPill, address, 0⟩ rest, works,
                (represents.allocate fresh _).perm ?_, queued, ledger.1, ledger.2, ledger.3, ledger.4⟩
              exact List.perm_iff_count.mpr fun cell => by
                simp only [List.count_append, List.count_cons, List.count_nil, Parcel.cells, Mail.type]
                omega
  | filling order msg rest =>
      simp only [Process.create, at_] at created
      obtain ⟨heap, allocated, rfl⟩ := Option.map_eq_some_iff.mp created
      obtain ⟨fresh, rfl⟩ := malloc_spec allocated
      have moved : Represents (Function.update program.2.heap address (some (.payload order)))
          ((msg, .message (Mail.order order).type none) :: (address, .payload order) ::
            (leaked.flatMap Parcel.cells ++ waiting.flatMap Parcel.cells ++ his)) :=
        (represents.allocate fresh (.payload order)).perm (List.perm_iff_count.mpr fun cell => by
          simp only [List.count_append, List.count_cons, List.count_nil]
          omega)
      rw [moved.lookup (List.mem_cons_self ..)]
      refine ⟨leaked, waiting, _, his, [], _, unprinted, alive, sound, looked,
        by rw [here]; exact .calling ⟨.order order, msg, address⟩ rest, works, moved.write.perm ?_, queued,
        ledger.1, ledger.2, ledger.3, ledger.4⟩
      exact List.perm_iff_count.mpr fun cell => by
        simp only [List.count_append, List.count_cons, List.count_nil, Parcel.cells]
        omega
  | calling parcel rest => simp only [Process.create, at_, reduceCtorEq] at created
  | offering parcel rest => simp only [Process.create, at_, reduceCtorEq] at created
  | storing mail msg rest => simp only [Process.create, at_, reduceCtorEq] at created

/-- What the actor prints of a message in its hands. -/
theorem dispatch_spec {parcel : Parcel} (represents : Represents process.heap
    (leaked.flatMap Parcel.cells ++ waiting.flatMap Parcel.cells ++ mine ++ parcel.cells)) :
    process.dispatch parcel.msg = { process with
      printed := process.printed ++ [parcel.mail]
      worker := match parcel.mail with
        | .order _ => .freeingPayload parcel.msg
        | .poisonPill => .freeingMessage parcel.msg false } := by
  obtain ⟨mail, msg, payload⟩ := parcel
  have message (block : Block) (member : (msg, block) ∈ (Parcel.mk mail msg payload).cells) :
      process.heap msg = some block := represents.lookup (List.mem_append_right _ member)
  have contents (block : Block) (member : (payload, block) ∈ (Parcel.mk mail msg payload).cells) :
      process.heap payload = some block := represents.lookup (List.mem_append_right _ member)
  cases mail with
  | order order =>
      cases order with
      | newOrder fields =>
          rw [Process.dispatch, message (.message .newOrder (some payload)) (List.mem_cons_self ..)]
          simp only [contents (.payload (.newOrder fields)) (by simp [Parcel.cells])]
      | cancelOrder fields =>
          rw [Process.dispatch, message (.message .cancelOrder (some payload)) (List.mem_cons_self ..)]
          simp only [contents (.payload (.cancelOrder fields)) (by simp [Parcel.cells])]
  | poisonPill => rw [Process.dispatch, message (.message .poisonPill none) (List.mem_cons_self ..)]

/-- The actor prints or frees. -/
theorem handle (served : Served orders program leaked waiting mine his storing todo unprinted)
    (handled : program.2.handle = some process) : Running orders (program.1, process) := by
  obtain ⟨alive, sound, looked, sends, works, represents, queued, ledger⟩ := served
  generalize at_ : program.2.worker = worker at works
  generalize here : (program.1.phase 1).stage = stage at works
  have ended := ledger.ended
  have history := ledger.history
  cases works with
  | dispatching parcel =>
      simp only [Process.handle, at_, Option.some.injEq] at handled
      rw [dispatch_spec represents] at handled
      subst process
      have unseen : Mail.poisonPill ∉ program.2.printed := by
        rw [← ended, at_]
        exact Bool.false_ne_true
      have printed : (program.2.printed ++ [parcel.mail] ++ []).length =
          (program.2.printed ++ [parcel.mail]).length := by
        rw [List.append_nil]
      obtain ⟨mail, msg, payload⟩ := parcel
      cases mail with
      | order order =>
          refine ⟨leaked, waiting, mine, _, storing, todo, [], alive, sound, looked, sends,
            by rw [here]; exact .freeingPayload order msg payload, represents, printed ▸ queued, ?_, ledger.refused,
            ledger.sent, ?_⟩
          · rwa [List.append_nil]
          · simp [Worker.ended, unseen]
      | poisonPill =>
          refine ⟨leaked, waiting, mine, _, storing, todo, [], alive, sound, looked, sends,
            by rw [here]; exact .freeingMessage msg (.message .poisonPill none) false, represents, printed ▸ queued, ?_,
            ledger.refused, ledger.sent, ?_⟩
          · rwa [List.append_nil]
          · simp [Worker.ended]
  | freeingPayload order msg payload =>
      have message := represents.lookup (List.mem_append_right _ (List.mem_cons_self ..))
      have contents : program.2.heap payload = some (.payload order) :=
        represents.lookup (List.mem_append_right _ (by simp [Parcel.cells]))
      simp only [Process.handle, at_, message, Process.free, contents, Option.some.injEq] at handled
      subst process
      have moved : Represents program.2.heap ((payload, .payload order) :: (leaked.flatMap Parcel.cells ++
          waiting.flatMap Parcel.cells ++ mine ++ [(msg, .message (Mail.order order).type (some payload))])) :=
        represents.perm (List.perm_iff_count.mpr fun cell => by
          simp only [List.count_append, List.count_cons, List.count_nil, Parcel.cells]
          omega)
      rw [at_] at ended
      exact ⟨leaked, waiting, mine, _, storing, todo, [], alive, sound, looked, sends,
        by rw [here]; exact .freeingMessage msg (.message (Mail.order order).type (some payload)) true, moved.release,
        queued, history, ledger.refused, ledger.sent, ended⟩
  | freeingMessage msg block running =>
      have message := represents.lookup (List.mem_append_right _ (List.mem_singleton_self _))
      simp only [Process.handle, at_, message, Process.free, Option.some.injEq] at handled
      subst process
      have moved : Represents program.2.heap ((msg, block) :: (leaked.flatMap Parcel.cells ++
          waiting.flatMap Parcel.cells ++ mine ++ [])) :=
        represents.perm (List.perm_iff_count.mpr fun cell => by
          simp only [List.count_append, List.count_cons, List.count_nil]
          omega)
      rw [at_] at ended
      cases running with
      | true =>
          exact ⟨leaked, waiting, mine, [], storing, todo, [], alive, sound, looked, sends,
            by rw [here]; exact .calling, moved.release, queued, history, ledger.refused, ledger.sent, ended⟩
      | false =>
          exact ⟨leaked, waiting, mine, [], storing, todo, [], alive, sound, looked, sends,
            by rw [here]; exact .stopped, moved.release, queued, history, ledger.refused, ledger.sent, ended⟩
  | calling => simp only [Process.handle, at_, reduceCtorEq] at handled
  | seeking => simp only [Process.handle, at_, reduceCtorEq] at handled
  | taking => simp only [Process.handle, at_, reduceCtorEq] at handled
  | stopped => simp only [Process.handle, at_, reduceCtorEq] at handled

/-- A step of main inside its push. -/
theorem pushing {after : State Nat 2} (served : Served orders program leaked waiting mine his storing todo unprinted)
    (sound : Sound after) (looked : Looked after)
    (stepped : stepInside Process.resume program 0 spurious = some (after, process)) :
    Running orders (after, process) := by
  obtain ⟨phase, response, moved, progress, resumed⟩ := stepInside_progress stepped
  obtain ⟨alive, _, _, sends, works, represents, queued, ledger⟩ := served
  dsimp only at moved progress resumed
  have other : after.phase 1 = program.1.phase 1 := by rw [moved, Function.update_of_ne (by decide)]
  have own : (after.phase 0).stage = phase.stage := by rw [moved, Function.update_self]
  rw [← other] at works
  generalize at_ : program.2.sender = sender at sends
  cases progress with
  | goOn stage busy pushes returned =>
      rw [← stage, ← own] at sends
      obtain rfl : process = program.2 := resumed
      exact ⟨leaked, waiting, mine, his, storing, todo, unprinted, alive, sound, looked, at_ ▸ sends, works, represents,
        queued.keep pushes returned, ledger⟩
  | claimPush val offering stores pushes returned =>
      rw [offering] at sends
      obtain rfl : process = program.2 := resumed
      cases sends with
      | offering parcel rest =>
          obtain ⟨done, split, inside, count⟩ := ledger.sent
          refine ⟨leaked, waiting ++ [parcel], [], his, [parcel.mail], rest, unprinted, alive, sound, looked, ?_, works,
            represents.perm ?_, ⟨?_, returned ▸ queued.inOrder, ?_⟩, ?_, ledger.refused,
            ⟨done ++ [parcel.mail], ?_, ?_, ?_⟩, ledger.ended⟩
          · rw [own, stores, at_]
            exact .storing parcel.mail parcel.msg rest
          · exact List.perm_iff_count.mpr fun cell => by
              simp only [List.flatMap_append, List.flatMap_singleton, List.count_append, List.count_nil]
              omega
          · rw [pushes, List.map_append, List.drop_append_of_le_length (by simpa using queued.within), queued.addresses,
              List.map_append]
            rfl
          · rw [pushes]
            exact Nat.le_trans queued.within (List.sublist_append_left _ _).length_le
          · have history := ledger.history
            rw [List.append_nil] at history
            rw [List.map_append, ← List.append_assoc, history]
            rfl
          · rw [List.append_assoc]
            exact split
          · rw [List.append_nil] at inside
            exact inside.append (List.Sublist.refl _)
          · simp only [List.append_nil, List.length_append, List.length_singleton] at count ⊢
            omega
  | stored storing idle pushes returned =>
      rw [storing] at sends
      cases sends with
      | storing mail msg =>
          simp only [Option.elim, Process.resume, at_, if_true] at resumed
          subst process
          obtain ⟨done, split, inside, count⟩ := ledger.sent
          refine ⟨leaked, waiting, [], his, [], todo, unprinted, alive, sound, looked, ?_, works, represents,
            queued.keep pushes returned, ?_, ledger.refused, ⟨done, split, ?_, ?_⟩, ledger.ended⟩
          · rw [own, idle]
            exact .creating todo
          · rw [List.append_nil]
            exact ledger.history
          · rwa [List.append_nil]
          · rwa [List.append_nil]
  | refused val offering idle pushes returned =>
      rw [offering] at sends
      cases sends with
      | offering parcel rest =>
          simp only [Option.elim, Process.resume, at_, Bool.false_eq_true, if_false] at resumed
          subst process
          obtain ⟨done, split, inside, count⟩ := ledger.sent
          refine ⟨leaked ++ [parcel], waiting, [], his, [], rest, unprinted, alive, sound, looked, ?_, works,
            represents.perm ?_, queued.keep pushes returned, ledger.history, ?_, ⟨done ++ [parcel.mail], ?_, ?_, ?_⟩,
            ledger.ended⟩
          · rw [own, idle]
            exact .creating rest
          · exact List.perm_iff_count.mpr fun cell => by
              simp only [List.flatMap_append, List.flatMap_singleton, List.count_append, List.count_nil]
              omega
          · rw [List.map_append, ledger.refused]
            rfl
          · rw [List.append_assoc]
            exact split
          · exact inside.trans (List.sublist_append_left _ _)
          · simp only [List.length_append, List.length_singleton] at count ⊢
            omega
  | claimPop seeking taking pushes returned =>
      rw [seeking] at sends
      cases sends
  | taken pos val taking idle pushes returned =>
      rw [taking] at sends
      cases sends
  | nothing seeking idle pushes returned =>
      rw [seeking] at sends
      cases sends

/-- A step of the actor inside its pop. -/
theorem popping {after : State Nat 2} (served : Served orders program leaked waiting mine his storing todo unprinted)
    (sound : Sound after) (looked : Looked after)
    (stepped : stepInside Process.resume program 1 spurious = some (after, process)) :
    Running orders (after, process) := by
  obtain ⟨phase, response, moved, progress, resumed⟩ := stepInside_progress stepped
  obtain ⟨alive, _, _, sends, works, represents, queued, ledger⟩ := served
  dsimp only at moved progress resumed
  have other : after.phase 0 = program.1.phase 0 := by rw [moved, Function.update_of_ne (by decide)]
  have own : (after.phase 1).stage = phase.stage := by rw [moved, Function.update_self]
  rw [← other] at sends
  generalize at_ : program.2.worker = worker at works
  cases progress with
  | goOn stage busy pushes returned =>
      rw [← stage, ← own] at works
      obtain rfl : process = program.2 := resumed
      exact ⟨leaked, waiting, mine, his, storing, todo, unprinted, alive, sound, looked, sends, at_ ▸ works, represents,
        queued.keep pushes returned, ledger⟩
  | claimPush val offering stores pushes returned =>
      rw [offering] at works
      cases works
  | stored storing idle pushes returned =>
      rw [storing] at works
      cases works
  | refused val offering idle pushes returned =>
      rw [offering] at works
      cases works
  | claimPop seeking taking pushes returned =>
      rw [seeking] at works
      obtain rfl : process = program.2 := resumed
      cases works with
      | seeking =>
          refine ⟨leaked, waiting, mine, [], storing, todo, [], alive, sound, looked, sends, ?_, represents,
            queued.keep pushes returned, ledger⟩
          rw [own, taking, at_]
          exact .taking
  | taken pos val taking idle pushes returned =>
      rw [taking] at works
      cases works with
      | taking =>
          obtain rfl : process = { program.2 with worker := .dispatching val } := resumed
          have quiet (thread : Fin 2) : (after.phase thread).popping = none := by
            match thread with
            | 0 => exact sends.quiet
            | 1 => exact popping_of_idle (own.trans idle)
          obtain ⟨parcel, rest, rfl, rfl, next⟩ := queued.pop sound quiet pushes returned
          refine ⟨leaked, rest, mine, parcel.cells, storing, todo, [parcel.mail], alive, sound, looked, sends, ?_,
            represents.perm ?_, ?_, ⟨?_, ledger.refused, ledger.sent, ?_⟩⟩
          · rw [own, idle]
            exact .dispatching parcel
          · exact List.perm_iff_count.mpr fun cell => by
              simp only [List.flatMap_cons, List.count_append, List.count_nil]
              omega
          · simpa using next
          · have history := ledger.history
            rwa [List.append_nil, List.map_cons, List.append_cons] at history
          · have ended := ledger.ended
            rwa [at_] at ended
  | nothing seeking idle pushes returned =>
      rw [seeking] at works
      obtain rfl : process = program.2 := resumed
      cases works with
      | seeking =>
          refine ⟨leaked, waiting, mine, [], storing, todo, [], alive, sound, looked, sends, ?_, represents,
            queued.keep pushes returned, ledger⟩
          rw [own, idle, at_]
          exact .calling

theorem pushes_eq (served : Served orders program leaked waiting mine his storing todo unprinted) :
    program.1.pushes.length = (program.2.accepted ++ storing).length := by
  have addresses := congrArg List.length served.queued.addresses
  have within := served.queued.within
  have history := congrArg List.length served.ledger.history
  simp only [List.length_drop, List.length_map, List.length_append] at addresses within history ⊢
  omega

theorem pushes_le (served : Served orders program leaked waiting mine his storing todo unprinted) :
    program.1.pushes.length + todo.length ≤ orders.length + 1 := by
  obtain ⟨done, split, inside, count⟩ := served.ledger.sent
  have whole := congrArg List.length split
  have pushes := served.pushes_eq
  simp only [script, List.length_append, List.length_map, List.length_singleton] at whole pushes count
  omega

/-- A message without a ticket is not among those that have one. -/
theorem offering_room (served : Served orders program leaked waiting mine his storing todo unprinted) {thread : Fin 2}
    {val : Nat} (offering : (program.1.phase thread).stage = .offering val) :
    program.1.pushes.length ≤ orders.length := by
  have most := served.pushes_le
  match thread with
  | 0 =>
      have sends := served.sends
      rw [offering] at sends
      generalize program.2.sender = sender at sends
      cases sends with
      | offering parcel rest =>
          rw [List.length_cons] at most
          omega
  | 1 =>
      have works := served.works
      rw [offering] at works
      generalize program.2.worker = worker at works
      cases works

theorem load_lt (served : Served orders program leaked waiting mine his storing todo unprinted)
    (small : 2 * orders.length + 4 < 2 ^ 63) : program.1.load < 2 ^ 63 := by
  have pending (thread : Fin 2) : (program.1.phase thread).pending ≤ 1 := by
    cases program.1.phase thread <;> simp [Phase.pending]
  have ordered := served.sound.ordered
  have pushes := served.sound.pushes
  have most := served.pushes_le
  have first := pending 0
  have second := pending 1
  rw [State.load, Fin.sum_univ_two]
  omega

/-- A thread begins a call. -/
theorem pushCalled {after : State Nat 2} (served : Served orders program leaked waiting mine his storing todo unprinted)
    {mail : Mail} {rest : List Mail} (sender : program.2.sender = .sending mail msg rest) (sound : Sound after)
    (looked : Looked after) (idle : program.1.phase 0 = .idle)
    (begun : call program.1 0 (.pushCalled msg) = some after) : Running orders (after, program.2) := by
  rw [call_idle idle, Option.some.injEq] at begun
  obtain ⟨alive, _, _, sends, works, represents, queued, ledger⟩ := served
  rw [sender, idle, Phase.stage] at sends
  subst after
  cases sends with
  | calling parcel =>
      refine ⟨leaked, waiting, parcel.cells, his, [], parcel.mail :: rest, unprinted, alive, sound, looked, ?_, works,
        represents, queued.keep rfl rfl, ledger⟩
      rw [sender]
      exact .offering parcel rest

theorem popCalled {after : State Nat 2} (served : Served orders program leaked waiting mine his storing todo unprinted)
    (worker : program.2.worker = .popping) (sound : Sound after)
    (looked : Looked after) (idle : program.1.phase 1 = .idle) (begun : call program.1 1 .popCalled = some after) :
    Running orders (after, program.2) := by
  rw [call_idle idle, Option.some.injEq] at begun
  obtain ⟨alive, _, _, sends, works, represents, queued, ledger⟩ := served
  rw [worker, idle, Phase.stage] at works
  subst after
  cases works with
  | calling =>
      refine ⟨leaked, waiting, mine, [], storing, todo, [], alive, sound, looked, sends, ?_, represents,
        queued.keep rfl rfl, ledger⟩
      rw [worker]
      exact .seeking

end Served

theorem advance_running {input : Input} (small : 2 * orders.length + 4 < 2 ^ 63) (running : Running orders program)
    (advanced : advance program input = some next) : Running orders next := by
  obtain ⟨leaked, waiting, mine, his, storing, todo, unprinted, served⟩ := running
  have few := served.load_lt small
  have kept {after : State Nat 2} {action : Action Nat 2} (stepped : step program.1 action = some after) :
      Sound after ∧ Looked after := ⟨served.sound.step few stepped, served.looked.step served.sound stepped⟩
  have inside {thread : Fin 2} {spurious : Bool}
      (stepped : stepInside Process.resume program thread spurious = some next) : Sound next.1 ∧ Looked next.1 := by
    obtain ⟨after, moved, rfl⟩ := Option.map_eq_some_iff.mp stepped
    exact kept moved
  have between {created : Option Process} (mapped : created.map (fun process => (program.1, process)) = some next)
      (goes : ∀ process, created = some process → Running orders (program.1, process)) : Running orders next := by
    obtain ⟨process, made, rfl⟩ := Option.map_eq_some_iff.mp mapped
    exact goes process made
  cases input with
  | main address spurious =>
      simp only [advance, served.alive, Bool.false_eq_true, if_false] at advanced
      split at advanced
      next mail msg rest sender idle =>
        obtain ⟨after, begun, rfl⟩ := Option.map_eq_some_iff.mp advanced
        exact served.pushCalled sender (kept begun).1 (kept begun).2 idle begun
      next => exact served.pushing (inside advanced).1 (inside advanced).2 advanced
      next => exact between advanced fun _ => served.create
  | actor spurious =>
      simp only [advance, served.alive, Bool.false_eq_true, if_false] at advanced
      split at advanced
      next worker idle =>
        obtain ⟨after, begun, rfl⟩ := Option.map_eq_some_iff.mp advanced
        exact served.popCalled worker (kept begun).1 (kept begun).2 idle begun
      next => exact served.popping (inside advanced).1 (inside advanced).2 advanced
      next => exact between advanced fun _ => served.handle

theorem create_refused {after : Process} (created : process.create address = some after) :
    after.refused = process.refused := by
  cases at_ : process.sender with
  | creating rest =>
      cases rest with
      | nil => simp only [Process.create, at_, reduceCtorEq] at created
      | cons mail rest =>
          simp only [Process.create, at_] at created
          obtain ⟨heap, _, rfl⟩ := Option.map_eq_some_iff.mp created
          cases mail <;> rfl
  | filling order msg rest =>
      simp only [Process.create, at_] at created
      obtain ⟨heap, _, rfl⟩ := Option.map_eq_some_iff.mp created
      split <;> rfl
  | sending mail msg rest => simp only [Process.create, at_, reduceCtorEq] at created

theorem handle_refused {after : Process} (handled : process.handle = some after) :
    after.refused = process.refused := by
  have free (address : Nat) (worker : Worker) : (process.free address worker).refused = process.refused := by
    unfold Process.free
    split <;> rfl
  have dispatch (msg : Nat) : (process.dispatch msg).refused = process.refused := by
    unfold Process.dispatch
    split
    next => split <;> rfl
    next => split <;> rfl
    next => rfl
    next => rfl
  unfold Process.handle at handled
  split at handled
  next =>
    cases handled
    exact dispatch _
  next =>
    split at handled
    next =>
      cases handled
      exact free _ _
    next =>
      cases handled
      rfl
  next =>
    cases handled
    exact free _ _
  next => cases handled

theorem resume_refused (thread : Fin 2) {response : Response Nat} (accepts : response ≠ .pushed false) :
    (process.resume thread response).refused = process.refused := by
  unfold Process.resume
  split
  next done =>
    split
    next =>
      split
      next => rfl
      next unaccepted => exact absurd (congrArg Response.pushed (Bool.eq_false_of_not_eq_true unaccepted)) accepts
    next => rfl
  next => rfl
  next => rfl

/-- A program of fewer messages than the queue has slots. -/
theorem advance_refused {input : Input} (few : orders.length < CAPACITY) (running : Running orders program)
    (none : program.2.refused = []) (advanced : advance program input = some next) : next.2.refused = [] := by
  obtain ⟨leaked, waiting, mine, his, storing, todo, unprinted, served⟩ := running
  have small : 2 * orders.length + 4 < 2 ^ 63 := by
    simp only [CAPACITY] at few
    omega
  have inside {thread : Fin 2} {spurious : Bool}
      (stepped : stepInside Process.resume program thread spurious = some next) : next.2.refused = [] := by
    obtain ⟨moved, resumed⟩ := stepInside_response stepped
    obtain ⟨phase, phases, progress⟩ := step_progress moved
    rw [phases, Function.update_self] at resumed
    have accepts := fun first => served.looked.accepted served.sound (served.load_lt small) first moved phases
    cases answer : (program.1.phase thread).response phase with
    | none =>
        rw [answer] at resumed
        rw [resumed]
        exact none
    | some response =>
        rw [answer] at resumed accepts progress
        refine (congrArg Process.refused resumed).trans ((resume_refused thread fun same => ?_).trans none)
        subst same
        refine accepts ?_ rfl
        cases progress with
        | refused val offering idle pushes returned =>
            have room := served.offering_room offering
            rw [← served.sound.pushes]
            omega
  cases input with
  | main address spurious =>
      simp only [advance, served.alive, Bool.false_eq_true, if_false] at advanced
      split at advanced
      next =>
        obtain ⟨after, begun, rfl⟩ := Option.map_eq_some_iff.mp advanced
        exact none
      next => exact inside advanced
      next =>
        obtain ⟨process, created, rfl⟩ := Option.map_eq_some_iff.mp advanced
        exact (create_refused created).trans none
  | actor spurious =>
      simp only [advance, served.alive, Bool.false_eq_true, if_false] at advanced
      split at advanced
      next =>
        obtain ⟨after, begun, rfl⟩ := Option.map_eq_some_iff.mp advanced
        exact none
      next => exact inside advanced
      next =>
        obtain ⟨process, handled, rfl⟩ := Option.map_eq_some_iff.mp advanced
        exact (handle_refused handled).trans none

/-! ### The end -/

/-- How many blocks a message takes. -/
def Mail.blocks : Mail → Nat
  | order _ => 2
  | poisonPill => 1

theorem length_cells (parcels : List Parcel) :
    (parcels.flatMap Parcel.cells).length = ((parcels.map Parcel.mail).map Mail.blocks).sum := by
  induction parcels with
  | nil => rfl
  | cons parcel rest ih =>
      obtain ⟨mail, msg, payload⟩ := parcel
      rw [List.flatMap_cons, List.length_append, ih, List.map_cons, List.map_cons, List.sum_cons]
      cases mail <;> rfl

/-- Nothing comes after the pill. -/
theorem eq_nil_of_pill {before after : List Mail} (inside : (before ++ after).Sublist (script orders))
    (pill : .poisonPill ∈ before) : after = [] := by
  obtain ⟨front, back, split, first, last⟩ := List.sublist_append_iff.mp inside
  have unmarked : ∀ mail ∈ front, ¬ mail = .poisonPill := by
    rintro mail member rfl
    obtain ⟨order, _, same⟩ := List.mem_map.mp (first.subset member)
    cases same
  obtain rfl | rfl := List.sublist_singleton.mp last
  · rw [List.append_nil] at split
    exact absurd rfl (unmarked _ (split ▸ List.mem_append_left after pill))
  · exact (append_eq_of_marked unmarked split ⟨_, pill, rfl⟩).2

namespace Served

/-- When the actor has stopped and main is done, only what was refused is left. -/
theorem ending (served : Served orders program leaked waiting mine his storing todo unprinted)
    (done : finished program) :
    program.2.printed = program.2.accepted ∧
      program.2.accepted.length + program.2.refused.length = orders.length + 1 ∧
      Represents program.2.heap (leaked.flatMap Parcel.cells) := by
  obtain ⟨stopped, through⟩ := done
  have sends := served.sends
  have works := served.works
  have represents := served.heap
  rw [through] at sends
  rw [stopped] at works
  generalize (program.1.phase 0).stage = stage at sends
  generalize (program.1.phase 1).stage = stage at works
  cases sends
  cases works
  obtain ⟨_, split, inside, count⟩ := served.ledger.sent
  have history := served.ledger.history
  simp only [List.append_nil] at history split inside count represents
  rw [split, ← history] at inside
  have pill := served.ledger.ended.mp (by rw [stopped]; rfl)
  obtain rfl := List.map_eq_nil_iff.mp (eq_nil_of_pill inside pill)
  rw [List.map_nil, List.append_nil] at history
  rw [split, script, List.length_append, List.length_map, List.length_singleton] at count
  rw [List.flatMap_nil, List.append_nil] at represents
  exact ⟨history, count, represents⟩

theorem printed_sublist (served : Served orders program leaked waiting mine his storing todo unprinted) :
    program.2.printed.Sublist (script orders) := by
  obtain ⟨done, split, inside, _⟩ := served.ledger.sent
  rw [← served.ledger.history, List.append_assoc] at inside
  exact ((List.sublist_append_left _ _).trans inside).trans (split ▸ List.sublist_append_left _ _)

end Served

def Sender.work (busy : Bool) : Sender → Nat
  | creating rest => 4 * rest.length
  | filling _ _ rest => 4 * rest.length + 3
  | sending _ _ rest => 4 * rest.length + if busy then 1 else 2

def Worker.work (busy : Bool) : Worker → Nat
  | popping => if busy then 4 else 0
  | dispatching _ => 3
  | freeingPayload _ => 2
  | freeingMessage _ _ => 1
  | stopped => 0

/-- A message costs most before it is printed. -/
def work (orders : List Order) (program : Program) : Nat :=
  program.2.sender.work (program.1.phase 0).stage.busy + program.2.worker.work (program.1.phase 1).stage.busy +
    8 * (orders.length + 1 - program.2.printed.length)

def Onward (orders : List Order) (program : Program) : Prop :=
  ∃ inputs next, run advance program inputs = some next ∧ work orders next < work orders program

theorem onward_of_advance {input : Input} (advanced : advance program input = some next)
    (less : work orders next < work orders program) : Onward orders program :=
  ⟨[input], next, run_cons_iff.mpr ⟨next, advanced, rfl⟩, less⟩

theorem parcels_le (parcels : List Parcel) : (parcels.flatMap Parcel.cells).length ≤ 2 * parcels.length := by
  rw [length_cells]
  induction parcels with
  | nil => exact Nat.le_refl _
  | cons parcel rest ih =>
      have blocks : parcel.mail.blocks ≤ 2 := by cases parcel.mail <;> simp [Mail.blocks]
      rw [List.map_cons, List.map_cons, List.sum_cons, List.length_cons]
      omega

theorem Parcel.cells_le (parcel : Parcel) : parcel.cells.length ≤ 2 := by simpa using parcels_le [parcel]

theorem Sends.cells_le {sender : Sender} {stage : Stage Nat} (sends : Sends sender stage mine storing todo) :
    mine.length ≤ 2 := by
  cases sends with
  | calling parcel => exact parcel.cells_le
  | offering parcel => exact parcel.cells_le
  | _ => simp

theorem Works.cells_le {worker : Worker} {stage : Stage Nat} (works : Works worker stage his unprinted) :
    his.length ≤ 2 := by
  cases works with
  | dispatching parcel => exact parcel.cells_le
  | freeingPayload order msg payload => exact Parcel.cells_le _
  | _ => simp

theorem Sends.pushes {sender : Sender} {stage : Stage Nat} (sends : Sends sender stage mine storing todo)
    (busy : stage ≠ .idle) : stage.pushes = true := by
  cases sends with
  | offering parcel rest => rfl
  | storing mail msg rest => rfl
  | _ => exact absurd rfl busy

theorem Works.pushes {worker : Worker} {stage : Stage Nat} (works : Works worker stage his unprinted) :
    stage.pushes = false := by
  cases works <;> rfl

theorem advance_popping (alive : process.fault = false) (at_ : process.worker = .popping)
    (busy : state.phase 1 ≠ .idle) :
    advance (state, process) (.actor false) = stepInside Process.resume (state, process) 1 false := by
  cases phase : state.phase 1 with
  | idle => exact absurd phase busy
  | _ => simp [advance, alive, at_, phase]

namespace Served

/-- Memory is never short for a moderate list of orders. -/
theorem exists_address (served : Served orders program leaked waiting mine his storing todo unprinted)
    (small : 2 * orders.length + 4 < 2 ^ 63) (block : Block) :
    ∃ address heap, program.2.malloc address block = some heap := by
  have ours := served.sends.cells_le
  have theirs := served.works.cells_le
  have lost := parcels_le leaked
  have held := parcels_le waiting
  have history := congrArg List.length served.ledger.history
  have refused := congrArg List.length served.ledger.refused
  obtain ⟨done, split, _, count⟩ := served.ledger.sent
  have whole := congrArg List.length split
  simp only [script, List.length_append, List.length_map, List.length_singleton] at whole count history refused
  obtain ⟨address, inside, fresh⟩ : ∃ address < 2 ^ 64 - 1, program.2.heap (address + 1) = none :=
    served.heap.exists_free (by
      simp only [List.length_append]
      omega)
  exact ⟨address + 1, _, if_pos ⟨Nat.succ_pos address, by omega, fresh⟩⟩

/-- Main allocates the next message, or its payload. -/
theorem exists_create (served : Served orders program leaked waiting mine his storing todo unprinted)
    (small : 2 * orders.length + 4 < 2 ^ 63)
    (allocating : (∃ mail rest, program.2.sender = .creating (mail :: rest)) ∨
      ∃ order msg rest, program.2.sender = .filling order msg rest) :
    ∃ address process, program.2.create address = some process ∧ process.worker = program.2.worker ∧
      process.printed = program.2.printed ∧ ∀ busy, process.sender.work busy < program.2.sender.work busy := by
  obtain ⟨mail, rest, at_⟩ | ⟨order, msg, rest, at_⟩ := allocating
  · obtain ⟨address, heap, allocated⟩ := served.exists_address small (.message mail.type none)
    cases mail with
    | order order =>
        refine ⟨address, { program.2 with heap, sender := .filling order address rest }, ?_, rfl, rfl, fun busy => ?_⟩
        · simp only [Process.create, at_, allocated, Option.map_some]
        · rw [at_]
          simp only [Sender.work, List.length_cons]
          omega
    | poisonPill =>
        refine ⟨address, { program.2 with heap, sender := .sending .poisonPill address rest }, ?_, rfl, rfl,
          fun busy => ?_⟩
        · simp only [Process.create, at_, allocated, Option.map_some]
        · rw [at_]
          simp only [Sender.work, List.length_cons]
          split <;> omega
  · obtain ⟨address, heap, allocated⟩ := served.exists_address small (.payload order)
    have message : heap msg = some (.message (Mail.order order).type none) := by
      obtain ⟨fresh, rfl⟩ := malloc_spec allocated
      have live := served.heap
      have sends := served.sends
      rw [at_] at sends
      generalize (program.1.phase 0).stage = stage at sends
      cases sends
      have found : program.2.heap msg = some (.message (Mail.order order).type none) :=
        live.lookup (List.mem_append_left _ (List.mem_append_right _ (List.mem_singleton_self _)))
      rw [Function.update_of_ne (by rintro rfl; cases fresh.symm.trans found), found]
    refine ⟨address, { program.2 with
      heap := Function.update heap msg (some (.message (Mail.order order).type (some address)))
      sender := .sending (.order order) msg rest }, ?_, rfl, rfl, fun busy => ?_⟩
    · simp only [Process.create, at_, allocated, Option.map_some, message]
    · rw [at_]
      simp only [Sender.work]
      split <;> omega

/-- The actor prints or frees what it has in its hands. -/
theorem exists_handle (served : Served orders program leaked waiting mine his storing todo unprinted)
    (handling : program.2.worker ≠ .popping ∧ program.2.worker ≠ .stopped) :
    (program.1.phase 1).stage = .idle ∧ ∃ process, program.2.handle = some process ∧
      process.sender = program.2.sender ∧
      process.worker.work false + 8 * (orders.length + 1 - process.printed.length) <
        program.2.worker.work false + 8 * (orders.length + 1 - program.2.printed.length) := by
  obtain ⟨alive, sound, looked, sends, works, represents, queued, ledger⟩ := served
  generalize at_ : program.2.worker = worker at works
  generalize here : (program.1.phase 1).stage = stage at works
  cases works with
  | dispatching parcel =>
      refine ⟨rfl, program.2.dispatch parcel.msg, by rw [Process.handle, at_], ?_⟩
      rw [dispatch_spec represents]
      refine ⟨rfl, ?_⟩
      simp only [List.length_append, List.length_singleton]
      cases parcel.mail <;> simp only [Worker.work] <;> omega
  | freeingPayload order msg payload =>
      have message := represents.lookup (List.mem_append_right _ (List.mem_cons_self ..))
      have contents : program.2.heap payload = some (.payload order) :=
        represents.lookup (List.mem_append_right _ (by simp [Parcel.cells]))
      refine ⟨rfl, { program.2 with
        heap := Function.update program.2.heap payload none, worker := .freeingMessage msg true }, ?_, rfl, ?_⟩
      · simp only [Process.handle, at_, message, Process.free, contents]
      · exact Nat.add_lt_add_right (Nat.lt_succ_self _) _
  | freeingMessage msg block running =>
      have message := represents.lookup (List.mem_append_right _ (List.mem_singleton_self _))
      refine ⟨rfl, { program.2 with
        heap := Function.update program.2.heap msg none
        worker := if running then .popping else .stopped }, ?_, rfl, ?_⟩
      · simp only [Process.handle, at_, message, Process.free]
      · refine Nat.add_lt_add_right ?_ _
        cases running <;> exact Nat.lt_succ_self _
  | calling => exact absurd at_ handling.1
  | seeking => exact absurd at_ handling.1
  | taking => exact absurd at_ handling.1
  | stopped => exact absurd at_ handling.2

theorem onward_create (served : Served orders program leaked waiting mine his storing todo unprinted)
    (small : 2 * orders.length + 4 < 2 ^ 63)
    (allocating : (∃ mail rest, program.2.sender = .creating (mail :: rest)) ∨
      ∃ order msg rest, program.2.sender = .filling order msg rest) : Onward orders program := by
  obtain ⟨address, process, created, worker, printed, less⟩ := served.exists_create small allocating
  have advanced : advance program (.main address false) = some (program.1, process) := by
    obtain ⟨mail, rest, at_⟩ | ⟨order, msg, rest, at_⟩ := allocating <;> simp [advance, served.alive, at_, created]
  refine onward_of_advance advanced ?_
  have here := less (program.1.phase 0).stage.busy
  simp only [work, worker, printed]
  omega

theorem onward_handle (served : Served orders program leaked waiting mine his storing todo unprinted)
    (handling : program.2.worker ≠ .popping ∧ program.2.worker ≠ .stopped) : Onward orders program := by
  obtain ⟨idle, process, handled, sender, less⟩ := served.exists_handle handling
  have advanced : advance program (.actor false) = some (program.1, process) := by
    cases at_ : program.2.worker with
    | popping => exact absurd at_ handling.1
    | _ => simp [advance, served.alive, at_, handled]
  refine onward_of_advance advanced ?_
  simp only [work, sender, idle, Stage.busy]
  omega

/-- Main calls the queue. -/
theorem onward_call (served : Served orders program leaked waiting mine his storing todo unprinted) {mail : Mail}
    {rest : List Mail} (at_ : program.2.sender = .sending mail msg rest) (idle : program.1.phase 0 = .idle) :
    Onward orders program := by
  obtain ⟨after, begun, phases⟩ : ∃ after, call program.1 0 (.pushCalled msg) = some after ∧
      after.phase = Function.update program.1.phase 0 (.pushCalled msg) := ⟨_, call_idle idle _, rfl⟩
  have advanced : advance program (.main 0 false) = some (after, program.2) := by
    simp [advance, served.alive, at_, idle, step, begun]
  refine onward_of_advance advanced ?_
  rw [work, work, phases, Function.update_self, Function.update_of_ne (by decide), at_, idle]
  simp [Sender.work, Phase.stage, Stage.busy]

/-- A call of main returns. -/
theorem onward_push (served : Served orders program leaked waiting mine his storing todo unprinted)
    (small : 2 * orders.length + 4 < 2 ^ 63) {mail : Mail} {rest : List Mail}
    (at_ : program.2.sender = .sending mail msg rest) (busy : program.1.phase 0 ≠ .idle) : Onward orders program := by
  have goes (state : State Nat 2) (busy : state.phase 0 ≠ .idle) :
      advance (state, program.2) (.main 0 false) = stepInside Process.resume (state, program.2) 0 false := by
    cases phase : state.phase 0 with
    | idle => exact absurd phase busy
    | _ => simp [advance, served.alive, at_, phase]
  obtain ⟨response, after, returns⟩ := served.sound.returns (served.load_lt small) (by simpa using busy)
  obtain ⟨inputs, completed⟩ := returns.inside goes
  refine ⟨inputs, _, completed, ?_⟩
  have kind : response.pushes = true := returns.response_pushes.trans (served.sends.pushes (by simpa using busy))
  cases response with
  | popped val => cases kind
  | pushed done =>
      have sent : ((program.2.resume 0 (.pushed done)).sender = .creating rest) ∧
          (program.2.resume 0 (.pushed done)).worker = program.2.worker ∧
          (program.2.resume 0 (.pushed done)).printed = program.2.printed := by
        simp only [Process.resume, at_]
        cases done <;> exact ⟨rfl, rfl, rfl⟩
      have working : (program.1.phase 0).stage.busy = true := Stage.busy_iff.mpr (by simpa using busy)
      rw [work, work, sent.1, sent.2.1, sent.2.2, returns.spec.1,
        Function.update_of_ne (show (1 : Fin 2) ≠ 0 by decide), at_, working]
      simp [Sender.work]

/-- A call of the actor returns. -/
theorem onward_pop (served : Served orders program leaked waiting mine his storing todo unprinted)
    (small : 2 * orders.length + 4 < 2 ^ 63) (at_ : program.2.worker = .popping) (busy : program.1.phase 1 ≠ .idle) :
    Onward orders program := by
  obtain ⟨response, after, returns⟩ := served.sound.returns (served.load_lt small) (by simpa using busy)
  obtain ⟨inputs, completed⟩ := returns.inside fun _ => advance_popping served.alive at_
  refine ⟨inputs, _, completed, ?_⟩
  have kind : response.pushes = false := returns.response_pushes.trans served.works.pushes
  have working : (program.1.phase 1).stage.busy = true := Stage.busy_iff.mpr (by simpa using busy)
  obtain done | (_ | val) := response
  · cases kind
  · rw [work, work, Process.resume, returns.spec.1, Function.update_self, Function.update_of_ne (by decide), at_,
      working]
    simp [Worker.work, Phase.stage, Stage.busy]
  · rw [work, work, Process.resume, returns.spec.1, Function.update_of_ne (by decide), at_, working]
    simp [Worker.work]

/-- An actor that has not seen the pill has a message to come, when main is done. -/
theorem waiting_of_popping (served : Served orders program leaked waiting mine his [] [] [])
    (none : program.2.refused = []) (at_ : program.2.worker = .popping) : waiting ≠ [] := by
  rintro rfl
  obtain ⟨done, split, inside, count⟩ := served.ledger.sent
  have history := served.ledger.history
  simp only [List.append_nil, List.map_nil, none, List.length_nil, Nat.add_zero] at split inside count history
  have ended := served.ledger.ended.mpr (by rw [history, inside.eq_of_length count, split]; simp [script])
  rw [at_] at ended
  cases ended

theorem dispatched (served : Served orders program leaked waiting mine his storing todo unprinted)
    (at_ : program.2.worker = .dispatching msg) :
    advance program (.actor false) = some (program.1, program.2.dispatch msg) ∧
      (program.2.dispatch msg).printed.length = program.2.printed.length + 1 ∧
      (program.2.dispatch msg).sender = program.2.sender ∧ ∀ busy, (program.2.dispatch msg).worker.work busy ≤ 2 := by
  refine ⟨by simp [advance, served.alive, at_, Process.handle], ?_⟩
  have works := served.works
  have represents := served.heap
  rw [at_] at works
  generalize (program.1.phase 1).stage = stage at works
  cases works with
  | dispatching parcel =>
      rw [dispatch_spec represents, List.length_append, List.length_singleton]
      refine ⟨rfl, rfl, fun busy => ?_⟩
      cases parcel.mail <;> simp [Worker.work]

/-- When main is done and the actor waits, it pops a message and prints it. -/
theorem onward_message (served : Served orders program leaked waiting mine his storing todo unprinted)
    (small : 2 * orders.length + 4 < 2 ^ 63) (none : program.2.refused = [])
    (through : program.2.sender = .creating []) (at_ : program.2.worker = .popping) (idle : program.1.phase 1 = .idle) :
    Onward orders program := by
  have sends := served.sends
  have works := served.works
  rw [through] at sends
  rw [at_] at works
  generalize here : (program.1.phase 0).stage = stage at sends
  generalize (program.1.phase 1).stage = stage at works
  cases sends
  have quietMain : program.1.phase 0 = .idle := Phase.stage_eq_idle.mp here
  obtain ⟨rfl, rfl⟩ : his = [] ∧ unprinted = [] := by cases works <;> exact ⟨rfl, rfl⟩
  have waits := List.length_pos_iff.mpr (served.waiting_of_popping none at_)
  have filled : program.1.queue.head < program.1.queue.tail := by
    have addresses := congrArg List.length served.queued.addresses
    have tickets := congrArg List.length served.queued.inOrder
    have head := served.sound.quiet_returned fun thread => by
      match thread with
      | 0 => rw [quietMain]; rfl
      | 1 => rw [idle]; rfl
    rw [← served.sound.pushes, ← head]
    simp only [List.length_drop, List.length_map, List.length_range] at addresses tickets
    omega
  obtain ⟨called, begun, queue, phases⟩ : ∃ called, call program.1 1 .popCalled = some called ∧
      called.queue = program.1.queue ∧ called.phase = Function.update program.1.phase 1 .popCalled :=
    ⟨_, call_idle idle _, rfl, rfl⟩
  have advanced : advance program (.actor false) = some (called, program.2) := by
    simp [advance, served.alive, at_, idle, step, begun]
  have running := advance_running small ⟨_, _, _, _, _, _, _, served⟩ advanced
  obtain ⟨_, _, _, _, _, _, _, servedCalled⟩ := id running
  obtain ⟨val, after, returns⟩ := servedCalled.sound.returns_popped (servedCalled.load_lt small)
    (fun thread => by
      match thread with
      | 0 => rw [phases, Function.update_of_ne (by decide), quietMain]; rfl
      | 1 => rw [phases, Function.update_self]; rfl)
    (by rwa [queue]) (by rw [phases, Function.update_self])
  obtain ⟨inputs, popped⟩ := returns.inside fun _ => advance_popping served.alive at_
  have runs := run_invariant (Running orders) (fun _ _ _ running advanced => advance_running small running advanced)
    running popped
  obtain ⟨_, _, _, _, _, _, _, servedPopped⟩ := id runs
  obtain ⟨prints, printed, sender, most⟩ := servedPopped.dispatched rfl
  obtain ⟨_, _, _, _, _, _, _, servedPrinted⟩ := advance_running small runs prints
  have within := servedPrinted.printed_sublist.length_le
  rw [printed, script, List.length_append, List.length_map, List.length_singleton] at within
  have all : program.2.printed.length + 1 ≤ orders.length + 1 := within
  refine ⟨.actor false :: (inputs ++ [.actor false]), _,
    run_cons_iff.mpr ⟨_, advanced, run_concat_iff.mpr ⟨_, popped, prints⟩⟩, ?_⟩
  have before : work orders program = 8 * (orders.length + 1 - program.2.printed.length) := by
    rw [work, through, at_, idle]
    simp [Sender.work, Worker.work, Phase.stage, Stage.busy]
  have bounded : ((program.2.resume 1 (.popped (some val))).dispatch val).worker.work (after.phase 1).stage.busy ≤ 2 :=
    most _
  rw [before, work, printed, sender]
  show (program.2.sender.work _ + _) + 8 * (orders.length + 1 - (program.2.printed.length + 1)) < _
  rw [through]
  simp only [Sender.work, List.length_nil]
  omega

/-- As long as the actor has not stopped, some steps bring it nearer to its end. -/
theorem onward (served : Served orders program leaked waiting mine his storing todo unprinted)
    (small : 2 * orders.length + 4 < 2 ^ 63) (none : program.2.refused = []) (undone : ¬ finished program) :
    Onward orders program := by
  by_cases handling : program.2.worker ≠ .popping ∧ program.2.worker ≠ .stopped
  · exact served.onward_handle handling
  cases at_ : program.2.sender with
  | creating rest =>
      cases rest with
      | cons mail rest => exact served.onward_create small (.inl ⟨mail, rest, at_⟩)
      | nil =>
          have popping : program.2.worker = .popping := by
            by_contra other
            exact handling ⟨other, fun stopped => undone ⟨stopped, at_⟩⟩
          by_cases idle : program.1.phase 1 = .idle
          · exact served.onward_message small none at_ popping idle
          · exact served.onward_pop small popping idle
  | filling order msg rest => exact served.onward_create small (.inr ⟨order, msg, rest, at_⟩)
  | sending mail msg rest =>
      by_cases idle : program.1.phase 0 = .idle
      · exact served.onward_call at_ idle
      · exact served.onward_push small at_ idle

end Served

/-- A main of no more messages than the queue has slots is never refused, and from every state that it can reach some
order of steps stops the actor, with all messages printed in their order and all memory freed. -/
theorem actor_completes (orders : List Order) (few : orders.length < CAPACITY) (inputs : List Input)
    (program : Program) (completed : run advance (initial orders) inputs = some program) :
    program.2.refused = [] ∧ ∃ more last, run advance program more = some last ∧ finished last ∧
      last.2.printed = script orders ∧ ∀ address, last.2.heap address = none := by
  have small : 2 * orders.length + 4 < 2 ^ 63 := by
    simp only [CAPACITY] at few
    omega
  have kept : ∀ program input after, Running orders program ∧ program.2.refused = [] →
      advance program input = some after → Running orders after ∧ after.2.refused = [] :=
    fun _ _ _ fine advanced => ⟨advance_running small fine.1 advanced, advance_refused few fine.1 fine.2 advanced⟩
  have fine := run_invariant (fun program => Running orders program ∧ program.2.refused = []) kept
    ⟨initial_running orders, rfl⟩ completed
  refine ⟨fine.2, ?_⟩
  clear completed
  generalize amount : work orders program = steps
  induction steps using Nat.strong_induction_on generalizing program with
  | _ steps ih =>
      obtain ⟨⟨leaked, waiting, mine, his, storing, todo, unprinted, served⟩, none⟩ := id fine
      by_cases done : finished program
      · obtain ⟨printed, count, represents⟩ := served.ending done
        refine ⟨[], program, rfl, done, served.printed_sublist.eq_of_length ?_, fun address => ?_⟩
        · rw [printed, script, List.length_append, List.length_map, List.length_singleton, ← count, none]
          rfl
        · obtain rfl := List.map_eq_nil_iff.mp (served.ledger.refused.trans none)
          exact represents.absent_iff.mpr List.not_mem_nil
      · obtain ⟨first, next, went, less⟩ := served.onward small none done
        have later := run_invariant (fun program => Running orders program ∧ program.2.refused = []) kept fine went
        obtain ⟨more, last, ended, rest⟩ := ih _ (amount ▸ less) next later rfl
        exact ⟨first ++ more, last, run_append_iff.mpr ⟨next, went, ended⟩, rest⟩

theorem actor_completes_two_orders :
    ∃ more last, run advance
        (initial [.newOrder ⟨1001, 65, 4639499264563609600, 10, 1⟩, .cancelOrder ⟨1001, 65⟩]) more = some last ∧
      finished last ∧
      last.2.printed = script [.newOrder ⟨1001, 65, 4639499264563609600, 10, 1⟩, .cancelOrder ⟨1001, 65⟩] ∧
      ∀ address, last.2.heap address = none :=
  (actor_completes [.newOrder ⟨1001, 65, 4639499264563609600, 10, 1⟩, .cancelOrder ⟨1001, 65⟩] (by decide) [] _ rfl).2

end HundredDays.CActor
