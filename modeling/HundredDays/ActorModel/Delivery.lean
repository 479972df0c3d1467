import HundredDays.ActorModel.Routing
import HundredDays.Data.Census
import HundredDays.Data.Ring
import HundredDays.Semantics.Run
import Mathlib.Algebra.Ring.Nat

namespace HundredDays.ActorModel

open HundredDays.Data HundredDays.Semantics

/-! Orders on their way through the router to the workers.

What an actor was ever sent is what it has processed, has in its hands, and has in its mailbox. A
worker was sent what the router is done with, so the two hops compose.
-/

variable {producers workers capacity : Nat}

theorem ends_at_pill {front back before : List (Message producers)} (fresh : .poisonPill ∉ before)
    (same : front ++ back = before ++ [.poisonPill]) (inside : .poisonPill ∈ front) :
    front = before ++ [.poisonPill] ∧ back = [] := by
  have unmarked : ∀ msg ∈ before, ¬ msg = .poisonPill := by
    intro msg here same
    exact fresh (same ▸ here)
  exact append_eq_of_marked unmarked same ⟨_, inside, rfl⟩

namespace Message

/-- The order in a message of this producer. -/
def sentBy (producer : Fin producers) : Message producers → Option Order
  | order sender sent => if sender = producer then some sent else none
  | poisonPill => none

/-- Whether the router sends the message to this worker. -/
def bound (index : Fin workers) : Message producers → Bool
  | order _ sent => decide (System.target workers sent = some index)
  | poisonPill => true

def isOrder : Message producers → Bool
  | order _ _ => true
  | poisonPill => false

end Message

/-- The orders that belong to a worker. -/
def share (orders : List Order) (index : Fin workers) : List Order :=
  orders.filter fun order => decide (System.target workers order = some index)

theorem filterMap_sentBy_filter_bound (producer : Fin producers) (index : Fin workers)
    (msgs : List (Message producers)) :
    (msgs.filter (Message.bound index)).filterMap (Message.sentBy producer) =
      share (msgs.filterMap (Message.sentBy producer)) index := by
  induction msgs with
  | nil => rfl
  | cons msg rest ih =>
      cases msg with
      | poisonPill =>
          rw [List.filter_cons_of_pos rfl, List.filterMap_cons_none rfl, List.filterMap_cons_none rfl, ih]
      | order sender sent =>
          by_cases mine : sender = producer
          · by_cases here : System.target workers sent = some index
            · simpa [Message.bound, Message.sentBy, share, mine, here] using ih
            · simpa [Message.bound, Message.sentBy, share, mine, here] using ih
          · by_cases here : System.target workers sent = some index
            · simpa [Message.bound, Message.sentBy, share, mine, here] using ih
            · simpa [Message.bound, Message.sentBy, share, mine, here] using ih

def Position.hand : Position producers → List (Message producers)
  | processing msg => [msg]
  | _ => []

namespace Actor

variable {actor after : Actor producers} {msg : Message producers}

/-- All messages that were ever sent to the actor, oldest first. -/
def received (actor : Actor producers) : List (Message producers) :=
  actor.processed ++ actor.position.hand ++ actor.mailbox

/-- The thread runs until it has taken the pill. -/
structure Sound (actor : Actor producers) : Prop where
  running : actor.running = true ↔ .poisonPill ∉ actor.processed ++ actor.position.hand
  stopped : actor.position = .stopped → actor.running = false

theorem started_sound : Sound (started : Actor producers) :=
  ⟨by simp [started, Position.hand], by intro stops; cases stops⟩

theorem send_spec (sent : actor.send capacity msg = some after) :
    actor.mailbox.length < capacity ∧ after = { actor with mailbox := actor.mailbox ++ [msg] } := by
  unfold send at sent
  split at sent <;> cases sent
  next room => exact ⟨room, rfl⟩

theorem send_received (sent : actor.send capacity msg = some after) : after.received = actor.received ++ [msg] := by
  obtain ⟨_, rfl⟩ := send_spec sent
  simp [received]

theorem Sound.send (sound : Sound actor) (sent : actor.send capacity msg = some after) : Sound after := by
  obtain ⟨_, rfl⟩ := send_spec sent
  exact ⟨sound.running, sound.stopped⟩

theorem resume_cases (resumed : actor.resume = some after) :
    (∃ msg rest, actor.running = true ∧ actor.mailbox = msg :: rest ∧
      after = { actor with mailbox := rest, running := decide (msg ≠ .poisonPill), position := .processing msg }) ∨
    (actor.running = false ∧ after = { actor with position := .stopped }) := by
  unfold resume at resumed
  by_cases runs : actor.running = true
  · rw [if_pos runs] at resumed
    cases holds : actor.mailbox with
    | nil =>
        rw [holds] at resumed
        cases resumed
    | cons msg rest =>
        rw [holds] at resumed
        cases resumed
        exact .inl ⟨msg, rest, runs, rfl, rfl⟩
  · rw [if_neg runs] at resumed
    cases resumed
    exact .inr ⟨Bool.not_eq_true _ ▸ runs, rfl⟩

theorem resume_received (loops : actor.position = .loop) (resumed : actor.resume = some after) :
    after.received = actor.received := by
  obtain ⟨msg, rest, _, holds, rfl⟩ | ⟨_, rfl⟩ := resume_cases resumed
  · simp [received, loops, holds, Position.hand]
  · simp [received, loops, Position.hand]

theorem Sound.resume (sound : Sound actor) (loops : actor.position = .loop) (resumed : actor.resume = some after) :
    Sound after := by
  have running := sound.running
  rw [loops] at running
  obtain ⟨msg, rest, runs, holds, rfl⟩ | ⟨stops, rfl⟩ := resume_cases resumed
  · constructor
    · have fresh := running.mp runs
      simp only [Position.hand, List.append_nil] at fresh
      simp only [Position.hand, List.mem_append, List.mem_singleton, decide_eq_true_eq]
      constructor
      · intro other inside
        exact inside.elim fresh fun same => other same.symm
      · intro none same
        exact none (.inr same.symm)
    · intro stops
      cases stops
  · exact ⟨running, fun _ => stops⟩

theorem finish_received (busy : actor.position = .processing msg) : (actor.finish msg).received = actor.received := by
  simp [received, finish, busy, Position.hand]

theorem Sound.finish (sound : Sound actor) (busy : actor.position = .processing msg) : Sound (actor.finish msg) := by
  constructor
  · have running := sound.running
    rw [busy] at running
    simpa [Actor.finish, Position.hand] using running
  · intro stops
    cases stops

/-- A thread that was not sent the pill goes on with what it has. -/
theorem Sound.busy (sound : Sound actor) (none : .poisonPill ∉ actor.received) (holds : actor.mailbox ≠ []) :
    (∃ msg, actor.position = .processing msg) ∨
      actor.position = .loop ∧ ∃ after, actor.resume = some after ∧ after.running = true := by
  have fresh : .poisonPill ∉ actor.processed ++ actor.position.hand :=
    fun inside => none (List.mem_append_left _ inside)
  have runs := sound.running.mpr fresh
  cases position : actor.position with
  | processing msg => exact .inl ⟨msg, rfl⟩
  | stopped =>
      have stops := sound.stopped position
      rw [runs] at stops
      cases stops
  | loop =>
      refine .inr ⟨rfl, ?_⟩
      obtain ⟨msg, rest, mailbox⟩ := List.exists_cons_of_ne_nil holds
      have other : msg ≠ .poisonPill := by
        intro same
        refine none (List.mem_append_right _ ?_)
        rw [mailbox, same]
        exact List.mem_cons_self
      unfold Actor.resume
      rw [if_pos runs, mailbox]
      exact ⟨_, rfl, decide_eq_true other⟩

end Actor

namespace System

variable {orders : Fin producers → List Order} {system after : System producers workers} {index : Fin workers}
  {msg : Message producers}

/-- What the router has sent to a worker. -/
def forwardedTo (system : System producers workers) (index : Fin workers) : List (Message producers) :=
  system.router.processed.filter (Message.bound index) ++
    if system.router.position = .processing .poisonPill ∧ index < system.forwarded then [.poisonPill] else []

/-- The counter of a worker, which wraps around. -/
def Counted (count : UInt64) (worker : Actor producers) : Prop :=
  count = UInt64.ofNat (worker.processed.countP Message.isOrder)

/-- Where all the orders are. -/
structure Routed (orders : Fin producers → List Order) (system : System producers workers) : Prop where
  room : 0 < system.capacity
  /-- The pill is the last message that the router is sent. -/
  ends : ∃ before, .poisonPill ∉ before ∧
    system.router.received = before ++ if system.pillSent then [.poisonPill] else []
  given : ∀ producer,
    system.router.received.filterMap (Message.sentBy producer) ++ system.remaining producer = orders producer
  exhausted : system.pillSent = true → ∀ producer, system.remaining producer = []
  router : system.router.Sound
  worker : ∀ index, (system.worker index).Sound
  passed : .poisonPill ∈ system.router.processed → workers ≤ system.forwarded
  unpassed : system.router.running = true → system.forwarded = 0
  delivered : ∀ index, (system.worker index).received = system.forwardedTo index
  counted : ∀ index, Counted (system.processed_count index) (system.worker index)

theorem initial_routed (orders : Fin producers → List Order) (room : 0 < capacity) :
    Routed orders (initial capacity workers orders) where
  room := room
  ends := ⟨[], by simp, rfl⟩
  given := fun _ => rfl
  exhausted := fun sent => by cases sent
  router := Actor.started_sound
  worker := fun _ => Actor.started_sound
  passed := fun inside => absurd inside List.not_mem_nil
  unpassed := fun _ => rfl
  delivered := fun _ => rfl
  counted := fun _ => rfl

namespace Routed

theorem produce {producer : Fin producers} (routed : Routed orders system)
    (stepped : system.produce producer = some after) : Routed orders after := by
  unfold System.produce at stepped
  cases left : system.remaining producer with
  | nil =>
      rw [left] at stepped
      cases stepped
  | cons order rest =>
      rw [left] at stepped
      obtain ⟨router, sent, rfl⟩ := Option.map_eq_some_iff.mp stepped
      have received := Actor.send_received sent
      have unsent : system.pillSent = false := by
        by_contra sentBefore
        have none := routed.exhausted (by simpa using sentBefore) producer
        rw [left] at none
        cases none
      obtain ⟨before, fresh, ends⟩ := routed.ends
      obtain ⟨_, same⟩ := Actor.send_spec sent
      refine { routed with
        ends := ?_, given := ?_, exhausted := ?_, router := routed.router.send sent
        passed := ?_, unpassed := ?_, delivered := ?_ }
      · refine ⟨before ++ [.order producer order], by simp [fresh], ?_⟩
        show router.received = _
        rw [received, ends, unsent]
        simp
      · intro each
        show router.received.filterMap _ ++ Function.update system.remaining producer rest each = _
        have given := routed.given each
        rw [received, List.filterMap_append]
        by_cases here : each = producer
        · rw [here] at given ⊢
          rw [Function.update_self, ← given, left]
          simp [Message.sentBy]
        · rw [Function.update_of_ne here, ← given]
          simp [Message.sentBy, Ne.symm here]
      · intro sentNow
        exact absurd (unsent.symm.trans sentNow) (by decide)
      · rw [same]
        exact routed.passed
      · rw [same]
        exact routed.unpassed
      · rw [same]
        exact routed.delivered

theorem shutdown (routed : Routed orders system) (stepped : system.shutdown = some after) : Routed orders after := by
  unfold System.shutdown at stepped
  split at stepped
  next ready =>
    obtain ⟨router, sent, rfl⟩ := Option.map_eq_some_iff.mp stepped
    have received := Actor.send_received sent
    obtain ⟨before, fresh, ends⟩ := routed.ends
    rw [ready.1] at ends
    obtain ⟨_, same⟩ := Actor.send_spec sent
    refine { routed with
      ends := ?_, given := ?_, exhausted := fun _ => ready.2, router := routed.router.send sent
      passed := ?_, unpassed := ?_, delivered := ?_ }
    · refine ⟨before, fresh, ?_⟩
      show router.received = _
      rw [received, ends]
      simp
    · intro producer
      show router.received.filterMap _ ++ system.remaining producer = _
      rw [received, List.filterMap_append, ← routed.given producer]
      simp [Message.sentBy]
    · rw [same]
      exact routed.passed
    · rw [same]
      exact routed.unpassed
    · rw [same]
      exact routed.delivered
  next => cases stepped

/-- The router takes a message or leaves its loop. -/
theorem resume {router : Actor producers} (routed : Routed orders system) (loops : system.router.position = .loop)
    (resumed : system.router.resume = some router) : Routed orders { system with router } := by
  have received := Actor.resume_received loops resumed
  have sound := routed.router.resume loops resumed
  obtain ⟨msg, rest, runs, holds, rfl⟩ | ⟨stops, rfl⟩ := Actor.resume_cases resumed
  · refine { routed with
      ends := ?_, given := ?_, router := sound, unpassed := fun _ => routed.unpassed runs, delivered := ?_ }
    · rw [received]
      exact routed.ends
    · rw [received]
      exact routed.given
    · intro index
      rw [routed.delivered index, forwardedTo, forwardedTo, loops]
      simp [routed.unpassed runs]
  · refine { routed with
      ends := ?_, given := ?_, router := sound, delivered := ?_ }
    · rw [received]
      exact routed.ends
    · rw [received]
      exact routed.given
    · intro index
      rw [routed.delivered index, forwardedTo, forwardedTo, loops]
      simp

/-- The router is done with an order as soon as the worker has it. -/
theorem route_order {worker : Actor producers} {producer : Fin producers} {order : Order}
    (routed : Routed orders system) (busy : system.router.position = .processing (.order producer order))
    (goes : target workers order = some index)
    (sent : (system.worker index).send system.capacity (.order producer order) = some worker) :
    Routed orders { system with
      worker := Function.update system.worker index worker
      router := system.router.finish (.order producer order) } := by
  have received := Actor.finish_received busy
  refine { routed with
    ends := ?_, given := ?_, router := routed.router.finish busy, worker := ?_, passed := ?_
    delivered := ?_, counted := ?_ }
  · rw [received]
    exact routed.ends
  · rw [received]
    exact routed.given
  · exact (Function.forall_update_iff _ fun _ => Actor.Sound).mpr
      ⟨(routed.worker index).send sent, fun each _ => routed.worker each⟩
  · intro inside
    simp only [Actor.finish, List.mem_append, List.mem_singleton, reduceCtorEq, or_false] at inside
    exact routed.passed inside
  · intro each
    have delivered := routed.delivered each
    rw [forwardedTo, busy] at delivered
    simp only [Position.processing.injEq, reduceCtorEq, false_and, if_false, List.append_nil] at delivered
    simp only [forwardedTo, Actor.finish, reduceCtorEq, false_and, if_false, List.append_nil, List.filter_append]
    by_cases here : each = index
    · rw [here] at delivered ⊢
      rw [Function.update_self, Actor.send_received sent, delivered]
      simp [Message.bound, goes]
    · have elsewhere : target workers order ≠ some each := by
        rw [goes]
        exact fun same => here (Option.some.inj same).symm
      rw [Function.update_of_ne here, delivered]
      simp [Message.bound, elsewhere]
  · obtain ⟨_, rfl⟩ := Actor.send_spec sent
    exact (Function.forall_update_iff _ fun each worker => Counted (system.processed_count each) worker).mpr
      ⟨routed.counted index, fun each _ => routed.counted each⟩

/-- The next worker gets its pill. -/
theorem route_pill {worker : Actor producers} (routed : Routed orders system)
    (busy : system.router.position = .processing .poisonPill) (next : system.forwarded < workers)
    (sent : (system.worker ⟨system.forwarded, next⟩).send system.capacity .poisonPill = some worker) :
    Routed orders { system with
      worker := Function.update system.worker ⟨system.forwarded, next⟩ worker
      forwarded := system.forwarded + 1 } := by
  have stopping : system.router.running ≠ true := by
    intro runs
    have fresh := routed.router.running.mp runs
    rw [busy] at fresh
    exact fresh (List.mem_append_right _ List.mem_cons_self)
  refine { routed with
    worker := ?_, passed := fun inside => Nat.le_succ_of_le (routed.passed inside)
    unpassed := fun runs => absurd runs stopping, delivered := ?_, counted := ?_ }
  · exact (Function.forall_update_iff _ fun _ => Actor.Sound).mpr
      ⟨(routed.worker _).send sent, fun each _ => routed.worker each⟩
  · intro each
    have delivered := routed.delivered each
    rw [forwardedTo, busy] at delivered
    simp only [true_and] at delivered
    simp only [forwardedTo, busy, true_and]
    by_cases here : each = ⟨system.forwarded, next⟩
    · rw [here] at delivered ⊢
      rw [if_neg (Nat.lt_irrefl _), List.append_nil] at delivered
      rw [Function.update_self, Actor.send_received sent, delivered, if_pos (Nat.lt_succ_self _)]
    · have other : each.val ≠ system.forwarded := fun same => here (Fin.ext same)
      rw [Function.update_of_ne here, delivered]
      have bounds : each.val < system.forwarded ↔ each.val < system.forwarded + 1 := by omega
      simp only [bounds]
  · obtain ⟨_, rfl⟩ := Actor.send_spec sent
    exact (Function.forall_update_iff _ fun each worker => Counted (system.processed_count each) worker).mpr
      ⟨routed.counted _, fun each _ => routed.counted each⟩

/-- Every worker has its pill. -/
theorem route_last (routed : Routed orders system) (busy : system.router.position = .processing .poisonPill)
    (all : workers ≤ system.forwarded) :
    Routed orders { system with router := system.router.finish .poisonPill } := by
  have received := Actor.finish_received busy
  refine { routed with
    ends := ?_, given := ?_, router := routed.router.finish busy, passed := fun _ => all, delivered := ?_ }
  · rw [received]
    exact routed.ends
  · rw [received]
    exact routed.given
  · intro index
    rw [routed.delivered index, forwardedTo, forwardedTo, busy, if_pos ⟨rfl, Nat.lt_of_lt_of_le index.isLt all⟩]
    simp only [Actor.finish, List.filter_append, reduceCtorEq, false_and, if_false, List.append_nil]
    rfl

theorem stepRouter (routed : Routed orders system) (stepped : system.stepRouter = some after) :
    Routed orders after := by
  unfold System.stepRouter at stepped
  cases position : system.router.position with
  | stopped =>
      rw [position] at stepped
      cases stepped
  | loop =>
      rw [position] at stepped
      obtain ⟨router, resumed, rfl⟩ := Option.map_eq_some_iff.mp stepped
      exact routed.resume position resumed
  | processing msg =>
      rw [position] at stepped
      cases msg with
      | order producer order =>
          obtain ⟨index, goes, sends⟩ := Option.bind_eq_some_iff.mp stepped
          obtain ⟨_, sent, rfl⟩ := Option.map_eq_some_iff.mp sends
          obtain ⟨worker, accepted, rfl⟩ := Option.map_eq_some_iff.mp sent
          exact routed.route_order position goes accepted
      | poisonPill =>
          simp only [route] at stepped
          split at stepped
          next next =>
            obtain ⟨_, sent, rfl⟩ := Option.map_eq_some_iff.mp stepped
            obtain ⟨worker, accepted, rfl⟩ := Option.map_eq_some_iff.mp sent
            exact routed.route_pill position next accepted
          next all =>
            cases stepped
            exact routed.route_last position (Nat.le_of_not_lt all)

theorem stepWorker (routed : Routed orders system) (stepped : system.stepWorker index = some after) :
    Routed orders after := by
  unfold System.stepWorker at stepped
  cases position : (system.worker index).position with
  | stopped =>
      rw [position] at stepped
      cases stepped
  | loop =>
      rw [position] at stepped
      obtain ⟨worker, resumed, rfl⟩ := Option.map_eq_some_iff.mp stepped
      refine { routed with worker := ?_, delivered := ?_, counted := ?_ }
      · exact (Function.forall_update_iff _ fun _ => Actor.Sound).mpr
          ⟨(routed.worker index).resume position resumed, fun each _ => routed.worker each⟩
      · exact (Function.forall_update_iff _ fun each worker => Actor.received worker = system.forwardedTo each).mpr
          ⟨(Actor.resume_received position resumed).trans (routed.delivered index), fun each _ => routed.delivered each⟩
      · refine (Function.forall_update_iff _ fun each worker => Counted (system.processed_count each) worker).mpr
          ⟨?_, fun each _ => routed.counted each⟩
        obtain ⟨msg, rest, _, _, rfl⟩ | ⟨_, rfl⟩ := Actor.resume_cases resumed
        · exact routed.counted index
        · exact routed.counted index
  | processing msg =>
      rw [position] at stepped
      cases stepped
      refine { routed with worker := ?_, delivered := ?_, counted := ?_ }
      · exact (Function.forall_update_iff _ fun _ => Actor.Sound).mpr
          ⟨(routed.worker index).finish position, fun each _ => routed.worker each⟩
      · exact (Function.forall_update_iff _ fun each worker => Actor.received worker = system.forwardedTo each).mpr
          ⟨(Actor.finish_received position).trans (routed.delivered index), fun each _ => routed.delivered each⟩
      · cases msg with
        | order producer order =>
            intro each
            by_cases here : each = index
            · have counted := routed.counted index
              rw [Counted] at counted
              simp only [tally, here, Function.update_self, Counted, Actor.finish, List.countP_append,
                List.countP_singleton, Message.isOrder, if_true, UInt64.ofNat_add, counted]
              rfl
            · simpa only [tally, Function.update_of_ne here] using routed.counted each
        | poisonPill =>
            refine (Function.forall_update_iff _ fun each worker => Counted (system.processed_count each) worker).mpr
              ⟨?_, fun each _ => routed.counted each⟩
            simpa [Counted, Actor.finish, Message.isOrder] using routed.counted index

theorem step {thread : Thread producers workers} (routed : Routed orders system)
    (stepped : system.step thread = some after) : Routed orders after := by
  cases thread with
  | producer index => exact routed.produce stepped
  | main => exact routed.shutdown stepped
  | router => exact routed.stepRouter stepped
  | worker index => exact routed.stepWorker stepped

end Routed

end System

end HundredDays.ActorModel
