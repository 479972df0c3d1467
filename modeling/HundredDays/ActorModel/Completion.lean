import HundredDays.ActorModel.Delivery
import Mathlib.Algebra.BigOperators.Fin
import Mathlib.Algebra.BigOperators.Ring.Finset

namespace HundredDays.ActorModel

open HundredDays.Data HundredDays.Semantics

/-! The program comes to its end, and then every worker has processed its share.

Each step takes from a finite amount of work, and while the router or a worker has not stopped some
thread can take a step: a full mailbox belongs to a worker that is not waiting.
-/

variable {producers workers capacity : Nat}

namespace Actor

variable {actor after : Actor producers} {msg : Message producers}

/-- The work that is left: so much for each message in the mailbox, so much for the one in hand, and
one step out of the loop. -/
def effort (each inHand : Nat) (actor : Actor producers) : Nat :=
  each * actor.mailbox.length +
    match actor.position with
    | .processing _ => inHand + (if actor.running then 0 else 1)
    | .loop => if actor.running then 0 else 1
    | .stopped => 0

theorem send_effort (each inHand : Nat) (sent : actor.send capacity msg = some after) :
    after.effort each inHand = actor.effort each inHand + each := by
  obtain ⟨_, rfl⟩ := send_spec sent
  simp only [effort, List.length_append, List.length_singleton, Nat.mul_succ]
  omega

theorem resume_effort {each inHand : Nat} (loops : actor.position = .loop) (less : inHand + 1 < each)
    (resumed : actor.resume = some after) : after.effort each inHand < actor.effort each inHand := by
  obtain ⟨msg, rest, runs, holds, rfl⟩ | ⟨stops, rfl⟩ := resume_cases resumed
  · simp only [effort, loops, holds, List.length_cons, Nat.mul_succ]
    split <;> omega
  · simp [effort, loops, stops]

theorem finish_effort (each inHand : Nat) (busy : actor.position = .processing msg) :
    (actor.finish msg).effort each inHand + inHand = actor.effort each inHand := by
  simp only [effort, busy]
  show each * actor.mailbox.length + (if actor.running then 0 else 1) + inHand = _
  omega

end Actor

namespace System

variable {orders : Fin producers → List Order} {system after : System producers workers} {index : Fin workers}
  {msg : Message producers}

/-- The work that is left. An order costs more the earlier it is on its way, and a pill more than the
pills that the router makes of it. -/
def effort (system : System producers workers) : Nat :=
  (5 * workers + 9) * (census List.length system.remaining + if system.pillSent then 0 else 1) +
    system.router.effort (5 * workers + 8) (5 * (workers - system.forwarded) + 6) +
    census (Actor.effort 4 2) system.worker

theorem produce_effort {producer : Fin producers} (stepped : system.produce producer = some after) :
    after.effort < system.effort := by
  unfold produce at stepped
  cases left : system.remaining producer with
  | nil =>
      rw [left] at stepped
      cases stepped
  | cons order rest =>
      rw [left] at stepped
      obtain ⟨router, sent, rfl⟩ := Option.map_eq_some_iff.mp stepped
      have fewer := census_update List.length system.remaining producer rest
      rw [left, List.length_cons] at fewer
      have before : census List.length system.remaining =
          census List.length (Function.update system.remaining producer rest) + 1 := by omega
      simp only [effort, before, Actor.send_effort _ _ sent, Nat.add_right_comm _ 1, Nat.mul_succ]
      omega

theorem shutdown_effort (stepped : system.shutdown = some after) : after.effort < system.effort := by
  unfold shutdown at stepped
  split at stepped
  next ready =>
    obtain ⟨router, sent, rfl⟩ := Option.map_eq_some_iff.mp stepped
    simp only [effort, ready.1, Actor.send_effort _ _ sent, Bool.false_eq_true, if_false, if_true, Nat.add_zero,
      Nat.mul_succ]
    omega
  next => cases stepped

theorem sendWorker_effort {worker : Actor producers} (sent : (system.worker index).send capacity msg = some worker) :
    census (Actor.effort 4 2) (Function.update system.worker index worker) =
      census (Actor.effort 4 2) system.worker + 4 := by
  have more := census_update (Actor.effort 4 2) system.worker index worker
  rw [Actor.send_effort 4 2 sent] at more
  omega

theorem stepRouter_effort (stepped : system.stepRouter = some after) : after.effort < system.effort := by
  unfold stepRouter at stepped
  cases position : system.router.position with
  | stopped =>
      rw [position] at stepped
      cases stepped
  | loop =>
      rw [position] at stepped
      obtain ⟨router, resumed, rfl⟩ := Option.map_eq_some_iff.mp stepped
      have enough : 5 * (workers - system.forwarded) + 6 + 1 < 5 * workers + 8 := by omega
      have less := Actor.resume_effort position enough resumed
      simp only [effort]
      omega
  | processing msg =>
      rw [position] at stepped
      have finished := Actor.finish_effort (5 * workers + 8) (5 * (workers - system.forwarded) + 6) position
      cases msg with
      | order producer order =>
          obtain ⟨index, goes, sends⟩ := Option.bind_eq_some_iff.mp stepped
          obtain ⟨_, sent, rfl⟩ := Option.map_eq_some_iff.mp sends
          obtain ⟨worker, accepted, rfl⟩ := Option.map_eq_some_iff.mp sent
          simp only [effort, sendWorker_effort accepted]
          omega
      | poisonPill =>
          simp only [route] at stepped
          split at stepped
          next next =>
            obtain ⟨_, sent, rfl⟩ := Option.map_eq_some_iff.mp stepped
            obtain ⟨worker, accepted, rfl⟩ := Option.map_eq_some_iff.mp sent
            simp only [effort, sendWorker_effort accepted, Actor.effort, position]
            omega
          next =>
            cases stepped
            simp only [effort]
            omega

theorem stepWorker_effort (stepped : system.stepWorker index = some after) : after.effort < system.effort := by
  unfold stepWorker at stepped
  cases position : (system.worker index).position with
  | stopped =>
      rw [position] at stepped
      cases stepped
  | loop =>
      rw [position] at stepped
      obtain ⟨worker, resumed, rfl⟩ := Option.map_eq_some_iff.mp stepped
      have enough : 2 + 1 < 4 := by decide
      have less := Actor.resume_effort position enough resumed
      have whole := census_update (Actor.effort 4 2) system.worker index worker
      simp only [effort]
      omega
  | processing msg =>
      rw [position] at stepped
      cases stepped
      have finished := Actor.finish_effort 4 2 position
      have whole := census_update (Actor.effort 4 2) system.worker index ((system.worker index).finish msg)
      show (5 * workers + 9) * (census List.length system.remaining + if system.pillSent then 0 else 1) + _ +
        census (Actor.effort 4 2) (Function.update system.worker index ((system.worker index).finish msg)) < _
      simp only [effort, tally]
      omega

theorem step_effort {thread : Thread producers workers} (stepped : system.step thread = some after) :
    after.effort < system.effort := by
  cases thread with
  | producer index => exact produce_effort stepped
  | main => exact shutdown_effort stepped
  | router => exact stepRouter_effort stepped
  | worker index => exact stepWorker_effort stepped

/-- No run is longer than the work. -/
theorem run_effort {threads : List (Thread producers workers)} (reached : run step system threads = some after) :
    threads.length + after.effort ≤ system.effort := by
  induction threads generalizing system with
  | nil =>
      cases reached
      simp
  | cons thread rest ih =>
      obtain ⟨next, stepped, remaining⟩ := run_cons_iff.mp reached
      have less := step_effort stepped
      have shorter := ih remaining
      rw [List.length_cons]
      omega

theorem initial_effort (orders : Fin producers → List Order) :
    (initial capacity workers orders).effort = (5 * workers + 9) * (census List.length orders + 1) := by
  have none : census (Actor.effort 4 2) (fun _ : Fin workers => (Actor.started : Actor producers)) = 0 :=
    census_eq_zero.mpr fun _ => rfl
  simp only [effort, initial, none]
  rfl

namespace Routed

/-- Nothing follows the pill to the router. -/
theorem last {front back : List (Message producers)} (routed : Routed orders system)
    (split : system.router.received = front ++ back) (inside : .poisonPill ∈ front) :
    system.pillSent = true ∧ back = [] ∧
      ∃ before, .poisonPill ∉ before ∧ front = before ++ [.poisonPill] ∧
        ∀ producer, before.filterMap (Message.sentBy producer) = orders producer := by
  obtain ⟨before, fresh, ends⟩ := routed.ends
  cases sent : system.pillSent with
  | false =>
      rw [sent, split, if_neg (by decide), List.append_nil] at ends
      exact absurd (ends ▸ List.mem_append_left back inside) fresh
  | true =>
      rw [sent, split, if_pos rfl] at ends
      obtain ⟨frontEnds, backEmpty⟩ := ends_at_pill fresh ends inside
      refine ⟨rfl, backEmpty, before, fresh, frontEnds, fun producer => ?_⟩
      have given := routed.given producer
      rw [routed.exhausted sent, List.append_nil, split, backEmpty, frontEnds, List.append_nil,
        List.filterMap_append] at given
      rw [← given]
      simp [Message.sentBy]

theorem passed_empty (routed : Routed orders system) (passed : .poisonPill ∈ system.router.processed) :
    system.router.position.hand = [] ∧ system.router.mailbox = [] := by
  obtain ⟨_, empty, _⟩ := routed.last (List.append_assoc _ _ _) passed
  exact List.append_eq_nil_iff.mp empty

/-- A pill reaches a worker from the router. -/
theorem pill_forwarded (routed : Routed orders system) (sent : .poisonPill ∈ (system.worker index).received) :
    .poisonPill ∈ system.router.processed ∨
      system.router.position = .processing .poisonPill ∧ index < system.forwarded := by
  rw [routed.delivered index, forwardedTo, List.mem_append] at sent
  rcases sent with passed | forwarded
  · exact .inl (List.mem_filter.mp passed).1
  · split at forwarded
    next now => exact .inr now
    next => cases forwarded

/-- A worker that is sent the pill has been sent its share. -/
theorem whole_share (routed : Routed orders system) (sent : .poisonPill ∈ (system.worker index).received) :
    ∃ before, .poisonPill ∉ before ∧ (system.worker index).received = before ++ [.poisonPill] ∧
      ∀ producer, before.filterMap (Message.sentBy producer) = share (orders producer) index := by
  have delivered := routed.delivered index
  rw [forwardedTo] at delivered
  rcases routed.pill_forwarded sent with passed | now
  · obtain ⟨_, empty, before, fresh, ends, all⟩ := routed.last (List.append_assoc _ _ _) passed
    have idle : system.router.position ≠ .processing .poisonPill := by
      intro busy
      rw [busy] at empty
      cases empty
    rw [if_neg (fun both => idle both.1), List.append_nil, ends, List.filter_append] at delivered
    refine ⟨before.filter (Message.bound index), fun inside => fresh (List.mem_filter.mp inside).1, delivered, ?_⟩
    intro producer
    rw [filterMap_sentBy_filter_bound, all]
  · have inHand : .poisonPill ∈ system.router.processed ++ system.router.position.hand := by
      rw [now.1]
      exact List.mem_append_right _ List.mem_cons_self
    obtain ⟨_, _, before, fresh, ends, all⟩ := routed.last rfl inHand
    rw [now.1] at ends
    have done : system.router.processed = before := List.append_cancel_right ends
    rw [if_pos now, done] at delivered
    refine ⟨before.filter (Message.bound index), fun inside => fresh (List.mem_filter.mp inside).1, delivered, ?_⟩
    intro producer
    rw [filterMap_sentBy_filter_bound, all]

/-- While the router has something for a worker, the worker has no pill. -/
theorem no_pill (routed : Routed orders system) (busy : system.router.position = .processing msg)
    (later : msg = .poisonPill → system.forwarded ≤ index) : .poisonPill ∉ (system.worker index).received := by
  intro sent
  rcases routed.pill_forwarded sent with passed | ⟨now, earlier⟩
  · have idle := (routed.passed_empty passed).1
    rw [busy] at idle
    cases idle
  · rw [busy, Position.processing.injEq] at now
    have before := later now
    omega

end Routed

/-- No worker that runs has stopped running in between. -/
def KeepsRunning (system after : System producers workers) : Prop :=
  ∀ index, (system.worker index).running = true → (after.worker index).running = true

theorem keepsRunning_update {worker : Actor producers}
    (keeps : (system.worker index).running = true → worker.running = true) (each : Fin workers)
    (runs : (system.worker each).running = true) :
    (Function.update system.worker index worker each).running = true := by
  by_cases here : each = index
  · rw [here] at runs ⊢
    rw [Function.update_self]
    exact keeps runs
  · rwa [Function.update_of_ne here]

/-- A worker without a pill either has room or goes on. -/
theorem makes_room (routed : Routed orders system) (msg : Message producers)
    (none : .poisonPill ∉ (system.worker index).received) :
    (∃ worker, (system.worker index).send system.capacity msg = some worker ∧
      worker.running = (system.worker index).running) ∨
    ∃ after, system.step (.worker index) = some after ∧ KeepsRunning system after := by
  by_cases room : (system.worker index).mailbox.length < system.capacity
  · exact .inl ⟨{ system.worker index with mailbox := (system.worker index).mailbox ++ [msg] }, if_pos room, rfl⟩
  · right
    have holds : (system.worker index).mailbox ≠ [] := by
      intro empty
      rw [empty] at room
      exact room routed.room
    rcases (routed.worker index).busy none holds with ⟨msg, busy⟩ | ⟨loops, worker, resumed, runs⟩
    · refine ⟨system.tally index msg, by simp only [step, stepWorker, busy], ?_⟩
      exact keepsRunning_update id
    · refine ⟨{ system with worker := Function.update system.worker index worker }, ?_, ?_⟩
      · simp only [step, stepWorker, loops, resumed, Option.map_some]
      · exact keepsRunning_update fun _ => runs

theorem progress_processing (routed : Routed orders system) (any : 0 < workers)
    (busy : system.router.position = .processing msg) :
    ∃ thread after, system.step thread = some after ∧ KeepsRunning system after := by
  cases msg with
  | order producer order =>
      obtain ⟨index, goes⟩ : ∃ index, target workers order = some index := ⟨_, dif_pos any⟩
      have none : .poisonPill ∉ (system.worker index).received :=
        routed.no_pill busy fun same => by cases same
      rcases makes_room routed (.order producer order) none with ⟨worker, sent, same⟩ | ⟨after, stepped, keeps⟩
      · refine ⟨.router, { system with
          worker := Function.update system.worker index worker, router := system.router.finish (.order producer order) },
          ?_, ?_⟩
        · simp only [step, stepRouter, busy, route, goes, Option.bind_some, sendWorker, sent, Option.map_some]
        · exact keepsRunning_update fun runs => same.trans runs
      · exact ⟨_, after, stepped, keeps⟩
  | poisonPill =>
      by_cases next : system.forwarded < workers
      · have none : .poisonPill ∉ (system.worker ⟨system.forwarded, next⟩).received :=
          routed.no_pill busy fun _ => Nat.le_refl _
        rcases makes_room routed .poisonPill none with ⟨worker, sent, same⟩ | ⟨after, stepped, keeps⟩
        · refine ⟨.router, { system with
            worker := Function.update system.worker ⟨system.forwarded, next⟩ worker
            forwarded := system.forwarded + 1 }, ?_, ?_⟩
          · simp only [step, stepRouter, busy, route, dif_pos next, sendWorker, sent, Option.map_some]
          · exact keepsRunning_update fun runs => same.trans runs
        · exact ⟨_, after, stepped, keeps⟩
      · refine ⟨.router, { system with router := system.router.finish .poisonPill }, ?_, fun _ runs => runs⟩
        simp only [step, stepRouter, busy, route, dif_neg next]

/-- At the head of its loop, the router or those that send to it go on. -/
theorem progress_loop (routed : Routed orders system) (loops : system.router.position = .loop) :
    ∃ thread after, system.step thread = some after ∧ KeepsRunning system after := by
  have resumes : ∀ router, system.router.resume = some router →
      ∃ thread after, system.step thread = some after ∧ KeepsRunning system after := by
    intro router resumed
    refine ⟨.router, { system with router }, ?_, fun _ runs => runs⟩
    simp only [step, stepRouter, loops, resumed, Option.map_some]
  by_cases runs : system.router.running = true
  · cases holds : system.router.mailbox with
    | cons msg rest => exact resumes _ (by rw [Actor.resume, if_pos runs, holds])
    | nil =>
        have room : ∀ msg, system.router.send system.capacity msg =
            some { system.router with mailbox := system.router.mailbox ++ [msg] } := by
          intro msg
          rw [Actor.send, if_pos]
          rw [holds]
          exact routed.room
        by_cases finished : ∀ producer, system.remaining producer = []
        · have unsent : system.pillSent = false := by
            by_contra sent
            obtain ⟨before, _, ends⟩ := routed.ends
            rw [if_pos (by simpa using sent), Actor.received, holds, List.append_nil] at ends
            refine routed.router.running.mp runs ?_
            rw [ends]
            exact List.mem_append_right _ List.mem_cons_self
          refine ⟨.main, { system with
            pillSent := true
            router := { system.router with mailbox := system.router.mailbox ++ [.poisonPill] } },
            ?_, fun _ runs => runs⟩
          simp only [step, shutdown]
          rw [if_pos ⟨unsent, finished⟩, room, Option.map_some]
        · obtain ⟨producer, some⟩ := not_forall.mp finished
          obtain ⟨order, rest, left⟩ := List.exists_cons_of_ne_nil some
          refine ⟨.producer producer, { system with
            remaining := Function.update system.remaining producer rest
            router := { system.router with mailbox := system.router.mailbox ++ [.order producer order] } },
            ?_, fun _ runs => runs⟩
          simp only [step, produce, left]
          rw [room, Option.map_some]
  · exact resumes _ (by rw [Actor.resume, if_neg runs])

/-- Once the router has stopped, every worker that has not goes on. -/
theorem progress_worker (routed : Routed orders system) (done : system.router.position = .stopped)
    (unfinished : (system.worker index).position ≠ .stopped) : ∃ after, system.step (.worker index) = some after := by
  have resumes : ∀ worker, (system.worker index).position = .loop → (system.worker index).resume = some worker →
      ∃ after, system.step (.worker index) = some after := by
    intro worker loops resumed
    exact ⟨_, by simp only [step, stepWorker, loops, resumed, Option.map_some]; rfl⟩
  have passed : .poisonPill ∈ system.router.processed := by
    by_contra missing
    have stops := routed.router.stopped done
    rw [routed.router.running.mpr (by simpa [done, Position.hand] using missing)] at stops
    cases stops
  cases position : (system.worker index).position with
  | stopped => exact absurd position unfinished
  | processing msg => exact ⟨_, by simp only [step, stepWorker, position]; rfl⟩
  | loop =>
      by_cases runs : (system.worker index).running = true
      · have sent : .poisonPill ∈ (system.worker index).received := by
          rw [routed.delivered index, forwardedTo]
          exact List.mem_append_left _ (List.mem_filter.mpr ⟨passed, rfl⟩)
        have fresh := (routed.worker index).running.mp runs
        cases holds : (system.worker index).mailbox with
        | nil =>
            rw [Actor.received, holds, List.append_nil] at sent
            exact absurd sent fresh
        | cons msg rest => exact resumes _ position (by rw [Actor.resume, if_pos runs, holds])
      · exact resumes _ position (by rw [Actor.resume, if_neg runs])

/-- All threads of actors have left `run`. -/
def Finished (system : System producers workers) : Prop :=
  system.router.position = .stopped ∧ ∀ index, (system.worker index).position = .stopped

theorem progress (routed : Routed orders system) (any : 0 < workers) (unfinished : ¬ Finished system) :
    ∃ thread after, system.step thread = some after := by
  cases position : system.router.position with
  | processing msg =>
      obtain ⟨thread, after, stepped, _⟩ := progress_processing routed any position
      exact ⟨thread, after, stepped⟩
  | loop =>
      obtain ⟨thread, after, stepped, _⟩ := progress_loop routed position
      exact ⟨thread, after, stepped⟩
  | stopped =>
      obtain ⟨index, goesOn⟩ : ∃ index, (system.worker index).position ≠ .stopped := by
        by_contra none
        exact unfinished ⟨position, by simpa using none⟩
      exact ⟨.worker index, progress_worker routed position goesOn⟩

/-- What can always be approached is reached, as there is only so much work. -/
theorem reach (Keep Goal : System producers workers → Prop) (routed : Routed orders system) (keep : Keep system)
    (approach : ∀ system : System producers workers, Routed orders system → Keep system → ¬ Goal system →
      ∃ thread after, system.step thread = some after ∧ Keep after) :
    ∃ threads after, run step system threads = some after ∧ Routed orders after ∧ Keep after ∧ Goal after := by
  induction work : system.effort using Nat.strong_induction_on generalizing system with
  | _ work ih =>
      by_cases goal : Goal system
      · exact ⟨[], system, rfl, routed, keep, goal⟩
      · obtain ⟨thread, next, stepped, kept⟩ := approach system routed keep goal
        have less := step_effort stepped
        rw [work] at less
        obtain ⟨threads, after, reached, rest⟩ := ih next.effort less (routed.step stepped) kept rfl
        exact ⟨thread :: threads, after, run_cons_iff.mpr ⟨next, stepped, reached⟩, rest⟩

theorem finishes (routed : Routed orders system) (any : 0 < workers) :
    ∃ threads after, run step system threads = some after ∧ Routed orders after ∧ Finished after := by
  obtain ⟨threads, after, reached, routedAfter, _, finished⟩ :=
    reach (fun _ => True) Finished routed trivial fun system routed _ unfinished => by
      obtain ⟨thread, after, stepped⟩ := progress routed any unfinished
      exact ⟨thread, after, stepped, trivial⟩
  exact ⟨threads, after, reached, routedAfter, finished⟩

/-- The orders of a producer that a worker has processed. -/
def handled (system : System producers workers) (producer : Fin producers) (index : Fin workers) : List Order :=
  (system.worker index).processed.filterMap (Message.sentBy producer)

theorem Routed.handled_prefix (routed : Routed orders system) (producer : Fin producers) (index : Fin workers) :
    system.handled producer index <+: share (orders producer) index := by
  have arrived : (system.worker index).processed <+: system.forwardedTo index := by
    rw [← routed.delivered index, Actor.received, List.append_assoc]
    exact List.prefix_append _ _
  have noOrder : (if system.router.position = .processing .poisonPill ∧ index < system.forwarded then
      [.poisonPill] else []).filterMap (Message.sentBy producer) = [] := by
    split <;> rfl
  have sent := arrived.filterMap (Message.sentBy producer)
  rw [forwardedTo, List.filterMap_append, noOrder, List.append_nil, filterMap_sentBy_filter_bound] at sent
  have passed : system.router.processed.filterMap (Message.sentBy producer) <+: orders producer := by
    rw [← routed.given producer, Actor.received, List.append_assoc, List.filterMap_append, List.append_assoc]
    exact List.prefix_append _ _
  exact sent.trans (passed.filter _)

/-- Once a worker has the pill it has processed its share. -/
theorem Routed.handled_share (routed : Routed orders system)
    (taken : .poisonPill ∈ (system.worker index).processed ++ (system.worker index).position.hand)
    (producer : Fin producers) : system.handled producer index = share (orders producer) index := by
  obtain ⟨before, fresh, ends, all⟩ := routed.whole_share (List.mem_append_left _ taken)
  obtain ⟨taken, _⟩ := ends_at_pill fresh ends taken
  rw [← all producer, handled]
  cases position : (system.worker index).position with
  | processing msg =>
      rw [position] at taken
      rw [(List.append_inj' taken rfl).1]
  | _ =>
      simp only [position, Position.hand, List.append_nil] at taken
      rw [taken, List.filterMap_append]
      simp [Message.sentBy]

theorem countP_isOrder (msgs : List (Message producers)) :
    msgs.countP Message.isOrder = ∑ producer, (msgs.filterMap (Message.sentBy producer)).length := by
  induction msgs with
  | nil => simp
  | cons msg rest ih =>
      cases msg with
      | poisonPill =>
          rw [List.countP_cons_of_neg Bool.false_ne_true, ih]
          rfl
      | order sender order =>
          have one : ∀ producer, ((Message.order sender order :: rest).filterMap (Message.sentBy producer)).length =
              (rest.filterMap (Message.sentBy producer)).length + if sender = producer then 1 else 0 := by
            intro producer
            by_cases mine : sender = producer
            · simp [Message.sentBy, mine]
            · simp [Message.sentBy, mine]
          rw [List.countP_cons_of_pos rfl, ih]
          simp only [one, Finset.sum_add_distrib, Finset.sum_ite_eq, Finset.mem_univ, if_true]

/-- Each order belongs to one worker. -/
theorem sum_share (any : 0 < workers) (orders : List Order) :
    ∑ index : Fin workers, (share orders index).length = orders.length := by
  induction orders with
  | nil => simp [share]
  | cons order rest ih =>
      obtain ⟨target, goes⟩ : ∃ index : Fin workers, target workers order = some index := ⟨_, dif_pos any⟩
      have one : ∀ index : Fin workers,
          (share (order :: rest) index).length = (share rest index).length + if target = index then 1 else 0 := by
        intro index
        by_cases here : target = index
        · simp [share, goes, here]
        · simp [share, goes, here]
      simp only [one, Finset.sum_add_distrib, ih, Finset.sum_ite_eq, Finset.mem_univ, if_true, List.length_cons]

/-- Every worker processes its share of every producer's orders, each once and in the order sent. -/
structure Delivered (orders : Fin producers → List Order) (system : System producers workers) : Prop where
  inOrder : ∀ producer index, system.handled producer index <+: share (orders producer) index
  beforePill : ∀ index, .poisonPill ∈ (system.worker index).processed ++ (system.worker index).position.hand →
    ∀ producer, system.handled producer index = share (orders producer) index
  whole : (∀ index, (system.worker index).position = .stopped) →
    ∀ producer index, system.handled producer index = share (orders producer) index
  counted : ∀ index, (system.processed_count index).toNat =
    (∑ producer, (system.handled producer index).length) % 2 ^ 64
  total : (∀ index, (system.worker index).position = .stopped) →
    (∀ index : Fin workers, ∑ producer, (share (orders producer) index).length < 2 ^ 64) →
    ∑ index, (system.processed_count index).toNat = ∑ producer, (orders producer).length

theorem Routed.stopped_share (routed : Routed orders system) (stopped : (system.worker index).position = .stopped)
    (producer : Fin producers) : system.handled producer index = share (orders producer) index := by
  refine routed.handled_share ?_ producer
  by_contra missing
  have stops := (routed.worker index).stopped stopped
  rw [(routed.worker index).running.mpr missing] at stops
  cases stops

theorem Routed.delivered_all (routed : Routed orders system) (any : 0 < workers) : Delivered orders system := by
  have counted : ∀ index, (system.processed_count index).toNat =
      (∑ producer, (system.handled producer index).length) % 2 ^ 64 := by
    intro index
    have counted := routed.counted index
    rw [Counted, countP_isOrder] at counted
    rw [counted, UInt64.toNat_ofNat']
    rfl
  refine ⟨routed.handled_prefix, fun index => routed.handled_share,
    fun stopped producer index => routed.stopped_share (stopped index) producer, counted, ?_⟩
  intro stopped small
  have exact : ∀ index, (system.processed_count index).toNat =
      ∑ producer, (share (orders producer) index).length := by
    intro index
    have same : ∑ producer, (system.handled producer index).length =
        ∑ producer, (share (orders producer) index).length :=
      Finset.sum_congr rfl fun producer _ => by rw [routed.stopped_share (stopped index) producer]
    rw [counted index, same, Nat.mod_eq_of_lt (small index)]
  simp only [exact]
  rw [Finset.sum_comm]
  exact Finset.sum_congr rfl fun producer _ => sum_share any (orders producer)

/-- In whatever order the threads go, every order is processed once, by its worker and in its turn;
and they come to an end. -/
theorem orders_delivered (orders : Fin producers → List Order) (room : 0 < capacity) (any : 0 < workers)
    {threads : List (Thread producers workers)}
    (reached : run step (initial capacity workers orders) threads = some system) :
    Delivered orders system ∧ (¬ Finished system → ∃ thread after, system.step thread = some after) ∧
      threads.length ≤ (5 * workers + 9) * (∑ producer, (orders producer).length + 1) := by
  have routed : Routed orders system :=
    run_invariant (Routed orders) (fun _ _ _ routed stepped => routed.step stepped)
      (initial_routed orders room) reached
  have bound := run_effort reached
  rw [initial_effort] at bound
  exact ⟨routed.delivered_all any, progress routed any, Nat.le_trans (Nat.le_add_right _ _) bound⟩

/-- One producer, one worker, and an order that is on its way. -/
theorem orders_delivered_cancel : ∃ system : System 1 1,
    run step (initial 1024 1 fun _ => [.cancelOrder { order_id := 5, symbol := 3 }]) [.producer 0, .router, .router] =
      some system ∧ Delivered (fun _ => [.cancelOrder { order_id := 5, symbol := 3 }]) system := by
  have reached : run step (initial 1024 1 fun _ : Fin 1 => [.cancelOrder { order_id := 5, symbol := 3 }])
      [.producer 0, .router, .router] = some _ := rfl
  exact ⟨_, rfl, (orders_delivered _ (by decide) (by decide) reached).1⟩

/-- As many orders as a counter has values. -/
def flood : Fin 1 → List Order :=
  fun _ => List.replicate (2 ^ 64) (.cancelOrder { order_id := 0, symbol := 0 })

theorem share_flood (index : Fin 1) : share (flood 0) index = flood 0 := by
  rw [share, List.filter_eq_self]
  intro order inside
  have same := List.eq_of_mem_replicate inside
  rw [same, Subsingleton.elim index 0]
  rfl

/-- The counter of the only worker ends at zero. -/
theorem processed_count_wraps : ∃ (threads : List (Thread 1 1)) (system : System 1 1),
    run step (initial 1024 1 flood) threads = some system ∧ (∀ index, (system.worker index).position = .stopped) ∧
      ∑ index, (system.processed_count index).toNat ≠ ∑ producer, (flood producer).length := by
  have start : Routed flood (initial 1024 1 flood) := initial_routed flood (by decide)
  obtain ⟨threads, system, reached, routed, finished⟩ := finishes start (by decide)
  refine ⟨threads, system, reached, finished.2, ?_⟩
  have counted := (routed.delivered_all (by decide)).counted 0
  have long : (flood 0).length = 2 ^ 64 := List.length_replicate
  rw [Fin.sum_univ_one, routed.stopped_share (finished.2 0), share_flood, long, Nat.mod_self] at counted
  rw [Fin.sum_univ_one, Fin.sum_univ_one, counted, long]
  decide

end System

end HundredDays.ActorModel
