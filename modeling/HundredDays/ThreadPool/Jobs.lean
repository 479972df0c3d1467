import HundredDays.Data.Census
import HundredDays.ThreadPool.Orderly

namespace HundredDays.JobSystem

open HundredDays.Data HundredDays.Semantics
open HundredDays.ThreadPool (Task Worker Runs signal broadcast)

/-! The pool of the C++ program: an unbounded queue, futures, and a notification after the unlock.

A task is a function bound to its arguments, and its number is its place among the accepted
ones.  Running it gives a value or an exception, which its future keeps.  Whoever calls
`enqueue` returns from it before the destructor does.
-/

inductive Destructor where
  | idle
  /-- Has set `stop`, and has yet to notify. -/
  | stopping
  /-- In the loop of `join`. -/
  | joining (next : Nat)
  | returned
  deriving DecidableEq

structure ThreadPool (F A R : Type) (threads : Nat) where
  tasks : List (Task F A)
  stop : Bool
  workers : Fin threads → Worker F A
  /-- How many calls of `enqueue` have unlocked the mutex and have yet to notify. -/
  notifying : Nat
  destructor : Destructor
  accepted : List (Task F A)
  /-- The tasks whose enqueue threw. -/
  thrown : List (Task F A)
  /-- The tasks that a worker took to run, in this order. -/
  taken : List (Task F A)
  /-- The numbers of the tasks that have run to their end. -/
  finished : List Nat
  futures : Nat → Option R

variable {F A R : Type} {threads : Nat}

def ThreadPool.initial (threads : Nat) : ThreadPool F A R threads :=
  { tasks := [], stop := false, workers := fun _ => .ready, notifying := 0, destructor := .idle
    accepted := [], thrown := [], taken := [], finished := [], futures := fun _ => none }

inductive Action (F A R : Type) (threads : Nat) where
  /-- A worker goes on from the mutex. -/
  | work (worker : Fin threads)
  /-- The task of a worker returns or throws. -/
  | finish (worker : Fin threads) (result : R)
  /-- A worker wakes up by itself. -/
  | wake (worker : Fin threads)
  | enqueue (func : F) (args : A)
  /-- The `notify_one` of an `enqueue`, with the worker that it wakes. -/
  | notify (woken : Option (Fin threads))
  | destroy
  | notifyAll
  | join

def step (pool : ThreadPool F A R threads) : Action F A R threads → Option (ThreadPool F A R threads)
  | .work worker =>
      match pool.workers worker with
      | .ready =>
          match pool.tasks with
          | [] =>
              if pool.stop then some { pool with workers := Function.update pool.workers worker .exited }
              else some { pool with workers := Function.update pool.workers worker .waiting }
          | task :: rest =>
              some { pool with
                tasks := rest
                workers := Function.update pool.workers worker (.running task pool.taken.length)
                taken := pool.taken ++ [task] }
      | _ => none
  | .finish worker result =>
      match pool.workers worker with
      | .running _ number =>
          some { pool with
            workers := Function.update pool.workers worker .ready
            finished := number :: pool.finished
            futures := Function.update pool.futures number (some result) }
      | _ => none
  | .wake worker =>
      match pool.workers worker with
      | .waiting => some { pool with workers := Function.update pool.workers worker .ready }
      | _ => none
  | .enqueue func args =>
      if pool.destructor = .returned then none
      else if pool.stop then some { pool with thrown := pool.thrown ++ [{ func, args }] }
      else
        some { pool with
          tasks := pool.tasks ++ [{ func, args }]
          notifying := pool.notifying + 1
          accepted := pool.accepted ++ [{ func, args }] }
  | .notify woken =>
      if pool.notifying = 0 then none
      else
        (signal pool.workers woken).map fun workers =>
          { pool with workers, notifying := pool.notifying - 1 }
  | .destroy =>
      match pool.destructor with
      | .idle => some { pool with stop := true, destructor := .stopping }
      | _ => none
  | .notifyAll =>
      match pool.destructor with
      | .stopping => some { pool with workers := broadcast pool.workers, destructor := .joining 0 }
      | _ => none
  | .join =>
      match pool.destructor with
      | .joining next =>
          if inside : next < threads then
            if (pool.workers ⟨next, inside⟩).isExited then some { pool with destructor := .joining (next + 1) }
            else none
          else if pool.notifying = 0 then some { pool with destructor := .returned }
          else none
      | _ => none

/-! ### Every task runs once -/

variable {pool after : ThreadPool F A R threads} {worker : Fin threads} {action : Action F A R threads}

/-- The workers that no notification has to wake any more. -/
def Awake (pool : ThreadPool F A R threads) : Prop :=
  (∃ worker, pool.workers worker ≠ .waiting ∧ pool.workers worker ≠ .exited) ∨ 0 < pool.notifying ∨
    pool.destructor = .stopping

/-- How far the destructor is. -/
def Joined (pool : ThreadPool F A R threads) : Prop :=
  match pool.destructor with
  | .idle => pool.stop = false
  | .stopping => pool.stop = true
  | .joining next => pool.stop = true ∧ (∀ worker, pool.workers worker ≠ .waiting) ∧
      ∀ worker, worker.val < next → pool.workers worker = .exited
  | .returned => pool.stop = true ∧ ∀ worker, pool.workers worker = .exited

structure Sound (pool : ThreadPool F A R threads) : Prop where
  queued : pool.taken ++ pool.tasks = pool.accepted
  runs : Runs pool.workers pool.taken pool.finished
  futures : ∀ number, (pool.futures number).isSome ↔ number ∈ pool.finished
  joined : Joined pool
  exited : ∀ worker, pool.workers worker = .exited → pool.stop = true ∧ pool.tasks = []
  /-- While there are tasks, a worker is on its way to the mutex or will be. -/
  awake : 0 < threads → pool.tasks ≠ [] → Awake pool

theorem initial_sound : Sound (ThreadPool.initial threads : ThreadPool F A R threads) := by
  constructor
  · rfl
  · constructor
    · exact List.nodup_nil
    · simp [ThreadPool.initial]
    · simp [ThreadPool.initial]
    · simp [ThreadPool.initial]
  · simp [ThreadPool.initial]
  · rfl
  · intro worker here
    cases here
  · intro _ some
    exact absurd rfl some

/-- A worker that has not exited goes elsewhere. -/
theorem Joined.turn (joined : Joined pool) {activity : Worker F A} (present : pool.workers worker ≠ .exited)
    (waits : activity = .waiting → pool.stop = false) {tasks taken : List (Task F A)} {finished : List Nat}
    {futures : Nat → Option R} :
    Joined { pool with workers := Function.update pool.workers worker activity, tasks, taken, finished, futures } := by
  simp only [Joined] at joined ⊢
  cases at_ : pool.destructor with
  | idle =>
      rw [at_] at joined
      exact joined
  | stopping =>
      rw [at_] at joined
      exact joined
  | joining next =>
      rw [at_] at joined
      obtain ⟨stopped, awake, gone⟩ := joined
      refine ⟨stopped, fun other => ?_, fun other less => ?_⟩
      · rw [Function.update_apply]
        split
        · intro waiting
          cases stopped.symm.trans (waits waiting)
        · exact awake other
      · exact ThreadPool.stays_exited present other (gone other less)
  | returned =>
      rw [at_] at joined
      exact absurd (joined.2 worker) present

namespace Sound

/-- A worker that runs no task goes to another place where it runs none. -/
theorem settle (sound : Sound pool) {activity : Worker F A}
    (idle : ∀ task number, pool.workers worker ≠ .running task number)
    (present : pool.workers worker ≠ .exited) (lazy : ∀ task number, activity ≠ .running task number)
    (waits : activity = .waiting → pool.stop = false ∧ pool.tasks = [])
    (exits : activity = .exited → pool.stop = true ∧ pool.tasks = []) :
    Sound { pool with workers := Function.update pool.workers worker activity } := by
  constructor
  · exact sound.queued
  · exact sound.runs.rest idle lazy
  · exact sound.futures
  · exact sound.joined.turn present fun waiting => (waits waiting).1
  · intro other here
    simp only [Function.update_apply] at here
    split at here
    · exact exits here
    · exact sound.exited other here
  · intro hasWorkers filled
    by_cases waiting : activity = .waiting
    · exact absurd (waits waiting).2 filled
    · by_cases exited : activity = .exited
      · exact absurd (exits exited).2 filled
      · exact .inl ⟨worker, by simpa using waiting, by simpa using exited⟩

theorem take (sound : Sound pool) {task : Task F A} {rest : List (Task F A)} (ready : pool.workers worker = .ready)
    (queue : pool.tasks = task :: rest) :
    Sound { pool with
      tasks := rest
      workers := Function.update pool.workers worker (.running task pool.taken.length)
      taken := pool.taken ++ [task] } := by
  have queued := sound.queued
  constructor
  · rw [queue] at queued
    rw [← queued, List.append_assoc]
    rfl
  · exact sound.runs.take (by simp [ready]) task
  · exact sound.futures
  · exact sound.joined.turn (by simp [ready]) (by simp)
  · intro other here
    simp only [Function.update_apply] at here
    split at here
    · cases here
    · have empty := (sound.exited other here).2
      rw [queue] at empty
      cases empty
  · exact fun _ _ => .inl ⟨worker, by simp, by simp⟩

theorem finish (sound : Sound pool) {task : Task F A} {number : Nat} (here : pool.workers worker = .running task number)
    (result : R) :
    Sound { pool with
      workers := Function.update pool.workers worker .ready
      finished := number :: pool.finished
      futures := Function.update pool.futures number (some result) } := by
  constructor
  · exact sound.queued
  · exact sound.runs.finish here
  · intro other
    rw [List.mem_cons, ← sound.futures other]
    by_cases same : other = number <;> simp [same]
  · exact sound.joined.turn (by simp [here]) (by simp)
  · intro other there
    simp only [Function.update_apply] at there
    split at there
    · cases there
    · exact sound.exited other there
  · exact fun _ _ => .inl ⟨worker, by simp, by simp⟩

theorem enqueue (sound : Sound pool) (up : pool.stop = false) (task : Task F A) :
    Sound { pool with
      tasks := pool.tasks ++ [task]
      notifying := pool.notifying + 1
      accepted := pool.accepted ++ [task] } := by
  constructor
  · rw [← List.append_assoc, sound.queued]
  · exact sound.runs
  · exact sound.futures
  · exact sound.joined
  · intro other here
    cases up.symm.trans (sound.exited other here).1
  · exact fun _ _ => .inr (.inl (Nat.succ_pos _))

/-- No worker has exited while there are tasks. -/
theorem present (sound : Sound pool) (filled : pool.tasks ≠ []) (worker : Fin threads) :
    pool.workers worker ≠ .exited :=
  fun gone => filled (sound.exited worker gone).2

theorem notify (sound : Sound pool) {woken : Option (Fin threads)} {workers : Fin threads → Worker F A}
    (done : signal pool.workers woken = some workers) :
    Sound { pool with workers, notifying := pool.notifying - 1 } := by
  cases woken with
  | some woken =>
      simp only [signal, Option.ite_none_right_eq_some, Option.some.injEq] at done
      obtain ⟨waiting, rfl⟩ := done
      have here : pool.workers woken = .waiting := by
        cases there : pool.workers woken with
        | waiting => rfl
        | _ => simp [there, Worker.isWaiting] at waiting
      have settled : Sound { pool with workers := Function.update pool.workers woken .ready } :=
        sound.settle (by simp [here]) (by simp [here]) (by simp) (by simp) (by simp)
      exact ⟨settled.queued, settled.runs, settled.futures, settled.joined, settled.exited,
        fun _ _ => .inl ⟨woken, by simp, by simp⟩⟩
  | none =>
      simp only [signal, Option.ite_none_left_eq_some, Option.some.injEq] at done
      obtain ⟨nobody, rfl⟩ := done
      refine ⟨sound.queued, sound.runs, sound.futures, sound.joined, sound.exited, fun hasWorkers filled => ?_⟩
      refine .inl ⟨⟨0, hasWorkers⟩, fun waiting => ?_, sound.present filled _⟩
      have asleep : pool.workers ⟨0, hasWorkers⟩ = .waiting := waiting
      exact nobody ⟨_, by rw [asleep]; rfl⟩

theorem destroy (sound : Sound pool) (idle : pool.destructor = .idle) :
    Sound { pool with stop := true, destructor := .stopping } := by
  have joined := sound.joined
  rw [Joined, idle] at joined
  refine ⟨sound.queued, sound.runs, sound.futures, rfl, fun worker gone => ?_, fun _ _ => .inr (.inr rfl)⟩
  have stopped : pool.stop = true := (sound.exited worker gone).1
  cases stopped.symm.trans joined

theorem notifyAll (sound : Sound pool) (stopping : pool.destructor = .stopping) :
    Sound { pool with workers := broadcast pool.workers, destructor := .joining 0 } := by
  have joined := sound.joined
  rw [Joined, stopping] at joined
  have woken (worker : Fin threads) : broadcast pool.workers worker ≠ .waiting := by
    rw [broadcast]
    cases there : pool.workers worker <;> simp [Worker.isWaiting]
  have gone (worker : Fin threads) (here : broadcast pool.workers worker = .exited) :
      pool.workers worker = .exited := by
    rw [broadcast] at here
    cases there : pool.workers worker <;> simp_all [Worker.isWaiting]
  constructor
  · exact sound.queued
  · refine sound.runs.congr fun worker task number => ?_
    simp only [broadcast]
    cases there : pool.workers worker <;> simp [Worker.isWaiting]
  · exact sound.futures
  · exact ⟨joined, woken, fun worker less => absurd less (Nat.not_lt_zero _)⟩
  · exact fun worker here => sound.exited worker (gone worker here)
  · intro hasWorkers filled
    exact .inl ⟨⟨0, hasWorkers⟩, woken _, fun here => sound.present filled _ (gone _ here)⟩

theorem join (sound : Sound pool) (stepped : step pool .join = some after) : Sound after := by
  have joined := sound.joined
  simp only [step] at stepped
  split at stepped
  next number joining =>
    rw [Joined, joining] at joined
    obtain ⟨stopped, awake, gone⟩ := joined
    have kept (destructor : Destructor) (hasWorkers : 0 < threads) (filled : pool.tasks ≠ []) :
        Awake { pool with destructor } := by
      obtain active | notifying | stopping := sound.awake hasWorkers filled
      · exact .inl active
      · exact .inr (.inl notifying)
      · cases joining.symm.trans stopping
    split at stepped
    next inside =>
      split at stepped
      next exited =>
        cases stepped
        refine ⟨sound.queued, sound.runs, sound.futures, ⟨stopped, awake, fun worker less => ?_⟩, sound.exited, kept _⟩
        by_cases last : worker.val = number
        · have same : worker = ⟨number, inside⟩ := Fin.ext last
          cases there : pool.workers ⟨number, inside⟩ with
          | exited => rw [same, there]
          | _ => simp [there, Worker.isExited] at exited
        · exact gone worker (by omega)
      next => cases stepped
    next all =>
      split at stepped
      next =>
        cases stepped
        exact ⟨sound.queued, sound.runs, sound.futures, ⟨stopped, fun worker => gone worker (by omega)⟩, sound.exited,
          kept _⟩
      next => cases stepped
  next => cases stepped

theorem step (sound : Sound pool) (stepped : JobSystem.step pool action = some after) : Sound after := by
  cases action with
  | work worker =>
      simp only [JobSystem.step] at stepped
      split at stepped
      next ready =>
        split at stepped
        next empty =>
          split at stepped
          next stopped =>
            cases stepped
            exact sound.settle (by simp [ready]) (by simp [ready]) (by simp) (by simp) fun _ => ⟨stopped, empty⟩
          next up =>
            cases stepped
            exact sound.settle (by simp [ready]) (by simp [ready]) (by simp)
              (fun _ => ⟨Bool.eq_false_of_not_eq_true up, empty⟩) (by simp)
        next task rest queue =>
          cases stepped
          exact sound.take ready queue
      next => cases stepped
  | finish worker result =>
      simp only [JobSystem.step] at stepped
      split at stepped
      next task number running =>
        cases stepped
        exact sound.finish running result
      next => cases stepped
  | wake worker =>
      simp only [JobSystem.step] at stepped
      split at stepped
      next waiting =>
        cases stepped
        exact sound.settle (by simp [waiting]) (by simp [waiting]) (by simp) (by simp) (by simp)
      next => cases stepped
  | enqueue func args =>
      simp only [JobSystem.step] at stepped
      split at stepped
      next => cases stepped
      next =>
        split at stepped
        next =>
          cases stepped
          exact ⟨sound.queued, sound.runs, sound.futures, sound.joined, sound.exited, sound.awake⟩
        next up =>
          cases stepped
          exact sound.enqueue (Bool.eq_false_of_not_eq_true up) ⟨func, args⟩
  | notify woken =>
      simp only [JobSystem.step] at stepped
      split at stepped
      next => cases stepped
      next =>
        obtain ⟨workers, done, rfl⟩ := Option.map_eq_some_iff.mp stepped
        exact sound.notify done
  | destroy =>
      simp only [JobSystem.step] at stepped
      split at stepped
      next idle =>
        cases stepped
        exact sound.destroy idle
      next => cases stepped
  | notifyAll =>
      simp only [JobSystem.step] at stepped
      split at stepped
      next stopping =>
        cases stepped
        exact sound.notifyAll stopping
      next => cases stepped
  | join => exact sound.join stepped

end Sound

theorem run_sound {actions : List (Action F A R threads)}
    (completed : run step (ThreadPool.initial threads) actions = some pool) : Sound pool :=
  run_invariant Sound (fun _ _ _ sound stepped => sound.step stepped) initial_sound completed

/-! ### Every future gets ready -/

/-- What is done without new tasks and without the destructor beginning. -/
def Action.internal : Action F A R threads → Bool
  | work _ => true
  | finish _ _ => true
  | notify _ => true
  | notifyAll => true
  | _ => false

def effort : Worker F A → Nat
  | .running _ _ => 2
  | .ready => 1
  | _ => 0

/-- The work that is left; a notification may wake one worker, or all. -/
def work (pool : ThreadPool F A R threads) : Nat :=
  census effort pool.workers + 2 * pool.tasks.length + 2 * pool.notifying +
    if pool.destructor = .stopping then threads + 1 else 0

theorem effort_broadcast (workers : Fin threads → Worker F A) :
    census effort (broadcast workers) ≤ census effort workers + threads := by
  calc census effort (broadcast workers) ≤ ∑ worker, (effort (workers worker) + 1) :=
        Finset.sum_le_sum fun worker _ => by
          rw [broadcast]
          cases workers worker <;> simp [Worker.isWaiting, effort]
    _ = census effort workers + threads := by
        rw [Finset.sum_add_distrib, census]
        simp

/-- A task that has not run is running or still in the queue. -/
theorem Sound.undone_cases (sound : Sound pool) {number : Nat} (less : number < pool.accepted.length)
    (undone : pool.futures number = none) :
    (∃ worker task number, pool.workers worker = .running task number) ∨ pool.tasks ≠ [] := by
  have open_ : number ∉ pool.finished := by
    rw [← sound.futures, undone]
    simp
  by_cases empty : pool.tasks = []
  · have queued := sound.queued
    rw [empty, List.append_nil] at queued
    obtain done | ⟨worker, task, running⟩ := (sound.runs.started number).mp (by rwa [queued])
    · exact absurd done open_
    · exact .inl ⟨worker, task, number, running⟩
  · exact .inr empty

/-- What a step of the pool itself makes of it. -/
structure Forward (pool after : ThreadPool F A R threads) (action : Action F A R threads) : Prop where
  internal : action.internal = true
  stepped : step pool action = some after
  less : work after < work pool
  accepted : after.accepted = pool.accepted

theorem forward_finish {task : Task F A} {number : Nat} (running : pool.workers worker = .running task number)
    (result : R) : ∃ after, Forward pool after (.finish worker result) := by
  refine ⟨{ pool with
    workers := Function.update pool.workers worker .ready
    finished := number :: pool.finished
    futures := Function.update pool.futures number (some result) }, rfl, by simp only [step, running], ?_, rfl⟩
  have changed := census_update effort pool.workers worker .ready
  rw [running] at changed
  simp only [work, effort] at changed ⊢
  omega

theorem forward_take {task : Task F A} {rest : List (Task F A)} (ready : pool.workers worker = .ready)
    (queue : pool.tasks = task :: rest) : ∃ after, Forward pool after (.work worker) := by
  refine ⟨{ pool with
    tasks := rest
    workers := Function.update pool.workers worker (.running task pool.taken.length)
    taken := pool.taken ++ [task] }, rfl, by simp only [step, ready, queue], ?_, rfl⟩
  have changed := census_update effort pool.workers worker (.running task pool.taken.length)
  rw [ready] at changed
  simp only [work, effort, queue, List.length_cons] at changed ⊢
  omega

theorem forward_notify (notifying : 0 < pool.notifying) : ∃ woken after, Forward pool after (.notify woken) := by
  have open_ : pool.notifying ≠ 0 := Nat.ne_of_gt notifying
  by_cases asleep : ∃ worker, (pool.workers worker).isWaiting
  · obtain ⟨worker, waiting⟩ := asleep
    refine ⟨some worker, { pool with
      workers := Function.update pool.workers worker .ready, notifying := pool.notifying - 1 }, rfl,
      by simp only [step, if_neg open_, signal, if_pos waiting, Option.map_some], ?_, rfl⟩
    have changed := census_update effort pool.workers worker .ready
    simp only [work, effort] at changed ⊢
    omega
  · refine ⟨none, { pool with notifying := pool.notifying - 1 }, rfl,
      by simp only [step, if_neg open_, signal, if_neg asleep, Option.map_some], ?_, rfl⟩
    simp only [work]
    omega

theorem forward_notifyAll (stopping : pool.destructor = .stopping) : ∃ after, Forward pool after .notifyAll := by
  refine ⟨{ pool with workers := broadcast pool.workers, destructor := .joining 0 }, rfl,
    by simp only [step, stopping], ?_, rfl⟩
  have more := effort_broadcast pool.workers
  simp only [work, stopping, if_true, reduceCtorEq, if_false]
  omega

/-- Some worker or notification can go on as long as a task has not run. -/
theorem Sound.forward (sound : Sound pool) (hasWorkers : 0 < threads) (result : R)
    (undone : ∃ number < pool.accepted.length, pool.futures number = none) :
    ∃ action after, Forward pool after action := by
  obtain ⟨number, less, undone⟩ := undone
  by_cases active : ∃ worker task number, pool.workers worker = .running task number
  · obtain ⟨worker, task, number, running⟩ := active
    exact ⟨_, forward_finish running result⟩
  · have filled := (sound.undone_cases less undone).resolve_left active
    obtain ⟨worker, awake, present⟩ | notifying | stopping := sound.awake hasWorkers filled
    · obtain ⟨task, rest, queue⟩ := List.exists_cons_of_ne_nil filled
      cases here : pool.workers worker with
      | ready => exact ⟨_, forward_take here queue⟩
      | waiting => exact absurd here awake
      | running task number => exact absurd ⟨worker, task, number, here⟩ active
      | exited => exact absurd here present
    · obtain ⟨woken, after, goes⟩ := forward_notify notifying
      exact ⟨_, after, goes⟩
    · exact ⟨_, forward_notifyAll stopping⟩

/-- In every interleaving of workers and callers the tasks start in the order in which they were accepted and each
runs once, its future is ready when it has run and never before, and none is lost: when the destructor has returned
all futures are ready. -/
theorem job_system_safe (hasWorkers : 0 < threads) (actions : List (Action F A R threads))
    (pool : ThreadPool F A R threads) (completed : run step (ThreadPool.initial threads) actions = some pool) :
    pool.taken ++ pool.tasks = pool.accepted ∧ Runs pool.workers pool.taken pool.finished ∧
      (∀ number, (pool.futures number).isSome ↔ number ∈ pool.finished) ∧
      (pool.destructor = .returned → ∀ number, number < pool.accepted.length ↔ (pool.futures number).isSome) := by
  have sound := run_sound completed
  refine ⟨sound.queued, sound.runs, sound.futures, fun returned number => ?_⟩
  have joined := sound.joined
  rw [Joined, returned] at joined
  have queued := sound.queued
  rw [(sound.exited _ (joined.2 ⟨0, hasWorkers⟩)).2, List.append_nil] at queued
  rw [sound.futures, ← queued, sound.runs.started]
  refine or_iff_left ?_
  rintro ⟨worker, task, running⟩
  cases running.symm.trans (joined.2 worker)

theorem job_system_safe_one_worker : ∃ pool : ThreadPool Nat Nat Nat 1,
    run step (ThreadPool.initial 1)
      [.work 0, .enqueue 7 1, .notify (some 0), .work 0, .destroy, .enqueue 8 2, .finish 0 30, .notifyAll, .work 0,
        .join, .join] = some pool ∧ pool.futures 0 = some 30 ∧ pool.thrown = [⟨8, 2⟩] ∧
      ∀ number, number < pool.accepted.length ↔ (pool.futures number).isSome := by
  obtain ⟨pool, completed, result, thrown, returned⟩ : ∃ pool : ThreadPool Nat Nat Nat 1,
      run step (ThreadPool.initial 1)
        [.work 0, .enqueue 7 1, .notify (some 0), .work 0, .destroy, .enqueue 8 2, .finish 0 30, .notifyAll, .work 0,
          .join, .join] = some pool ∧ pool.futures 0 = some 30 ∧ pool.thrown = [⟨8, 2⟩] ∧
        pool.destructor = .returned := ⟨_, rfl, rfl, rfl, rfl⟩
  exact ⟨pool, completed, result, thrown, (job_system_safe (by decide) _ pool completed).2.2.2 returned⟩

/-- No wakeup is lost: from every state that can be reached, the workers and the notifications already due are enough to
run all accepted tasks, whatever these return. -/
theorem job_system_completes (hasWorkers : 0 < threads) (result : R) (actions : List (Action F A R threads))
    (pool : ThreadPool F A R threads) (completed : run step (ThreadPool.initial threads) actions = some pool) :
    ∃ more last, run step pool more = some last ∧ (∀ action ∈ more, action.internal = true) ∧
      last.accepted = pool.accepted ∧ ∀ number < pool.accepted.length, (last.futures number).isSome := by
  have sound := run_sound completed
  clear completed
  generalize amount : work pool = steps
  induction steps using Nat.strong_induction_on generalizing pool with
  | _ steps ih =>
      by_cases undone : ∃ number < pool.accepted.length, pool.futures number = none
      · obtain ⟨action, after, goes⟩ := sound.forward hasWorkers result undone
        obtain ⟨more, last, ended, internal, accepted, ready⟩ :=
          ih _ (amount ▸ goes.less) after (sound.step goes.stepped) rfl
        refine ⟨action :: more, last, run_cons_iff.mpr ⟨after, goes.stepped, ended⟩,
          List.forall_mem_cons.mpr ⟨goes.internal, internal⟩, accepted.trans goes.accepted, ?_⟩
        rwa [goes.accepted] at ready
      · refine ⟨[], pool, rfl, nofun, rfl, fun number less => ?_⟩
        rw [Option.isSome_iff_ne_none]
        exact fun none => undone ⟨number, less, none⟩

/-- The worker waits, and the destructor is between setting `stop` and waking it. -/
theorem job_system_completes_asleep : ∃ pool : ThreadPool Nat Nat Nat 1,
    run step (ThreadPool.initial 1) [.work 0, .enqueue 7 1, .destroy] = some pool ∧
      ∃ more last, run step pool more = some last ∧ (∀ action ∈ more, action.internal = true) ∧
        last.accepted = pool.accepted ∧ ∀ number < pool.accepted.length, (last.futures number).isSome :=
  ⟨_, rfl, job_system_completes (by decide) 30 [.work 0, .enqueue 7 1, .destroy] _ rfl⟩

end HundredDays.JobSystem
