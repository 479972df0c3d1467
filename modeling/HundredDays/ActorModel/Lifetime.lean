import HundredDays.ActorModel.Completion

namespace HundredDays.ActorModel

open HundredDays.Semantics

/-! The end of `main`: it joins the router and destroys it, and with it the workers.

The destructor of a worker first ends the worker part of the object and then, as the base actor that is
left, joins the thread. From the first of these on, `process_message` is the pure function of the base.
-/

variable {producers workers : Nat}

/-- What main waits for or does next. -/
inductive Teardown where
  | joinRouter
  /-- The destructor of the worker of this number. -/
  | destroy (index : Nat)
  /-- The destructor of its base, which joins the thread. -/
  | joinWorker (index : Nat)
deriving DecidableEq

/-- Whether the worker part of an actor is gone. -/
def Teardown.destroyed : Teardown → Nat → Prop
  | joinRouter, _ => False
  | destroy passed, index => index < passed
  | joinWorker passed, index => index ≤ passed

instance : ∀ teardown index, Decidable (Teardown.destroyed teardown index)
  | .joinRouter, _ => inferInstanceAs (Decidable False)
  | .destroy passed, index => inferInstanceAs (Decidable (index < passed))
  | .joinWorker passed, index => inferInstanceAs (Decidable (index ≤ passed))

structure Program (producers workers : Nat) where
  system : System producers workers
  teardown : Teardown
  /-- A pure virtual function was called, which ends the process. -/
  terminated : Bool

namespace Program

/-- An actor makes its own mailbox, with the default capacity. -/
def initial (workers : Nat) (orders : Fin producers → List Order) : Program producers workers :=
  { system := .initial 1024 workers orders, teardown := .joinRouter, terminated := false }

/-- Main once it has sent the pill. -/
def stepMain (program : Program producers workers) : Option (Program producers workers) :=
  match program.teardown with
  | .joinRouter =>
      if program.system.pillSent = true ∧ program.system.router.position = .stopped then
        some { program with teardown := .destroy 0 }
      else none
  | .destroy index => if index < workers then some { program with teardown := .joinWorker index } else none
  | .joinWorker index =>
      if next : index < workers then
        if (program.system.worker ⟨index, next⟩).position = .stopped then
          some { program with teardown := .destroy (index + 1) }
        else none
      else none

/-- The worker is about to call `process_message` of an object that has none any more. -/
def callsPure (program : Program producers workers) : System.Thread producers workers → Prop
  | .worker index => program.teardown.destroyed index ∧ (program.system.worker index).position.hand ≠ []
  | _ => False

instance (program : Program producers workers) : ∀ thread, Decidable (program.callsPure thread)
  | .producer _ => inferInstanceAs (Decidable False)
  | .main => inferInstanceAs (Decidable False)
  | .router => inferInstanceAs (Decidable False)
  | .worker index => inferInstanceAs
      (Decidable (program.teardown.destroyed index ∧ (program.system.worker index).position.hand ≠ []))

inductive Action (producers workers : Nat) where
  /-- Sending and receiving. -/
  | thread (thread : System.Thread producers workers)
  | teardown

def step (program : Program producers workers) (action : Action producers workers) :
    Option (Program producers workers) :=
  if program.terminated then none
  else
    match action with
    | .thread thread =>
        if program.callsPure thread then some { program with terminated := true }
        else (program.system.step thread).map fun system => { program with system }
    | .teardown => program.stepMain

/-- No thread is left behind in an actor that is being destroyed. -/
structure Safe (program : Program producers workers) : Prop where
  alive : program.terminated = false
  router : program.teardown ≠ .joinRouter → program.system.router.position = .stopped
  worker : ∀ index : Fin workers, program.teardown.destroyed index → (program.system.worker index).position = .stopped

variable {orders : Fin producers → List Order} {program after : Program producers workers}
  {system next : System producers workers}

theorem router_stays_stopped {thread : System.Thread producers workers}
    (stopped : system.router.position = .stopped) (stepped : system.step thread = some next) :
    next.router.position = .stopped := by
  cases thread with
  | producer index =>
      simp only [System.step, System.produce] at stepped
      split at stepped
      · obtain ⟨router, sent, rfl⟩ := Option.map_eq_some_iff.mp stepped
        obtain ⟨_, rfl⟩ := Actor.send_spec sent
        exact stopped
      · cases stepped
  | main =>
      simp only [System.step, System.shutdown] at stepped
      split at stepped
      · obtain ⟨router, sent, rfl⟩ := Option.map_eq_some_iff.mp stepped
        obtain ⟨_, rfl⟩ := Actor.send_spec sent
        exact stopped
      · cases stepped
  | router =>
      simp only [System.step, System.stepRouter, stopped] at stepped
      cases stepped
  | worker index =>
      simp only [System.step, System.stepWorker] at stepped
      split at stepped
      · obtain ⟨worker, _, rfl⟩ := Option.map_eq_some_iff.mp stepped
        exact stopped
      · cases stepped
        exact stopped
      · cases stepped

theorem stepMain_router (routed : program.teardown ≠ .joinRouter → program.system.router.position = .stopped)
    (stepped : program.stepMain = some after) :
    after.system = program.system ∧ after.terminated = program.terminated ∧
      after.system.router.position = .stopped := by
  unfold stepMain at stepped
  cases stage : program.teardown with
  | joinRouter =>
      simp only [stage] at stepped
      split at stepped <;> cases stepped
      next ready => exact ⟨rfl, rfl, ready.2⟩
  | destroy index =>
      simp only [stage] at stepped
      split at stepped <;> cases stepped
      exact ⟨rfl, rfl, routed (by simp [stage])⟩
  | joinWorker index =>
      simp only [stage] at stepped
      split at stepped
      · split at stepped <;> cases stepped
        exact ⟨rfl, rfl, routed (by simp [stage])⟩
      · cases stepped

/-- Without workers there is nobody to leave behind. -/
theorem Safe.step {action : Action producers 0} {program after : Program producers 0} (safe : Safe program)
    (stepped : step program action = some after) : Safe after := by
  unfold Program.step at stepped
  rw [if_neg (by simp [safe.alive])] at stepped
  cases action with
  | teardown =>
      obtain ⟨_, alive, stopped⟩ := stepMain_router safe.router stepped
      exact ⟨alive.trans safe.alive, fun _ => stopped, fun index => index.elim0⟩
  | thread thread =>
      dsimp only at stepped
      split at stepped
      next pure =>
        cases thread with
        | worker index => exact index.elim0
        | _ => exact pure.elim
      next =>
        obtain ⟨system, sent, rfl⟩ := Option.map_eq_some_iff.mp stepped
        exact ⟨safe.alive, fun later => router_stays_stopped (safe.router later) sent, fun index => index.elim0⟩

/-- Until main has joined the router, the program only sends and receives. -/
theorem run_threads {threads : List (System.Thread producers workers)}
    (reached : run System.step system threads = some next) :
    run step { system, teardown := .joinRouter, terminated := false } (threads.map .thread) =
      some { system := next, teardown := .joinRouter, terminated := false } := by
  induction threads generalizing system with
  | nil =>
      cases reached
      rfl
  | cons thread rest ih =>
      obtain ⟨middle, stepped, remaining⟩ := run_cons_iff.mp reached
      refine run_cons_iff.mpr ⟨_, ?_, ih remaining⟩
      have calls : ¬ callsPure ({ system, teardown := .joinRouter, terminated := false } : Program producers workers)
          thread := by
        cases thread with
        | worker index => exact fun both => both.1
        | _ => exact id
      simp only [step, if_neg calls, stepped, Option.map_some, Bool.false_eq_true, if_false]

/-- The router can stop before any worker has taken its pill. -/
theorem router_outruns_workers (orders : Fin producers → List Order) (any : 0 < workers) :
    ∃ threads system, run System.step (System.initial 1024 workers orders) threads = some system ∧
      System.Routed orders system ∧ (∀ index, (system.worker index).running = true) ∧
      system.router.position = .stopped := by
  refine System.reach (fun system => ∀ index, (system.worker index).running = true)
    (fun system => system.router.position = .stopped) (System.initial_routed orders (by decide)) (fun _ => rfl) ?_
  intro system routed running unfinished
  cases position : system.router.position with
  | stopped => exact absurd position unfinished
  | loop =>
      obtain ⟨thread, after, stepped, keeps⟩ := System.progress_loop routed position
      exact ⟨thread, after, stepped, fun index => keeps index (running index)⟩
  | processing msg =>
      obtain ⟨thread, after, stepped, keeps⟩ := System.progress_processing routed any position
      exact ⟨thread, after, stepped, fun index => keeps index (running index)⟩

/-- Main can destroy a worker whose thread is still in `run`. -/
theorem worker_left_behind (orders : Fin producers → List Order) (any : 0 < workers) :
    ∃ actions after, run step (initial workers orders) actions = some after ∧ ¬ Safe after := by
  obtain ⟨threads, system, reached, routed, running, stopped⟩ := router_outruns_workers orders any
  have passed : .poisonPill ∈ system.router.processed ++ system.router.position.hand := by
    by_contra missing
    have stops := routed.router.stopped stopped
    rw [routed.router.running.mpr missing] at stops
    cases stops
  obtain ⟨sent, _⟩ := routed.last rfl passed
  refine ⟨threads.map .thread ++ [.teardown, .teardown],
    { system, teardown := .joinWorker 0, terminated := false }, ?_, ?_⟩
  · refine run_append_iff.mpr ⟨_, run_threads reached, ?_⟩
    refine run_cons_iff.mpr ⟨{ system, teardown := .destroy 0, terminated := false }, ?_, ?_⟩
    · exact if_pos (And.intro sent stopped)
    · exact run_cons_iff.mpr ⟨_, if_pos any, rfl⟩
  · intro safe
    have gone := (routed.worker ⟨0, any⟩).stopped (safe.worker ⟨0, any⟩ (Nat.le_refl 0))
    rw [running ⟨0, any⟩] at gone
    cases gone

theorem initial_safe (orders : Fin producers → List Order) : Safe (initial 0 orders) :=
  ⟨rfl, fun later => absurd rfl later, fun index => index.elim0⟩

/-- The program is safe in all its runs just when it has no workers. -/
theorem always_safe_iff (workers : Nat) (orders : Fin producers → List Order) :
    (∀ actions after, run step (initial workers orders) actions = some after → Safe after) ↔ workers = 0 := by
  constructor
  · intro always
    by_contra some
    obtain ⟨actions, after, reached, left⟩ := worker_left_behind orders (Nat.pos_of_ne_zero some)
    exact left (always actions after reached)
  · rintro rfl actions after reached
    exact run_invariant Safe (fun _ _ _ safe stepped => safe.step stepped) (initial_safe orders) reached

/-- The router stops with an order in the mailbox of the worker; main destroys the worker, which takes
the order and calls the pure function. -/
theorem worker_calls_pure_function : ∃ (actions : List (Action 1 1)) (after : Program 1 1),
    run step (initial 1 fun _ => [.cancelOrder { order_id := 5, symbol := 3 }]) actions = some after ∧
      after.terminated = true :=
  ⟨[.thread (.producer 0), .thread .main, .thread .router, .thread .router, .thread .router, .thread .router,
    .thread .router, .thread .router, .teardown, .teardown, .thread (.worker 0), .thread (.worker 0)], _, rfl, rfl⟩

end Program

end HundredDays.ActorModel
