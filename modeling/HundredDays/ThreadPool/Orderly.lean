import HundredDays.Data.Counter
import HundredDays.Semantics.Run
import HundredDays.ThreadPool.Model

namespace HundredDays.ThreadPool

open HundredDays.Data.Counter HundredDays.Data.Probing HundredDays.Semantics

/-! Every accepted task runs once, and no wakeup is lost. -/

variable {F A : Type} {threads capacity : Nat} {state after : State F A threads} {pool : Pool F A}
  {workers others : Fin threads → Worker F A} {accepted taken : List (Task F A)} {finished : List Nat}
  {task : Task F A} {worker : Fin threads} {number : Nat}

/-- The ring holds the tasks that were accepted and not yet taken. -/
structure Queued (capacity : Nat) (pool : Pool F A) (accepted taken : List (Task F A)) : Prop where
  size : pool.capacity = capacity
  head : pool.head < capacity
  count : taken.length + pool.count = accepted.length
  ordered : taken <+: accepted
  bounded : pool.count ≤ capacity
  tail : pool.tail = place capacity pool.head pool.count
  stored : ∀ index < pool.count,
    accepted[taken.length + index]? = some (pool.tasks (place capacity pool.head index))

namespace Queued

theorem add (queued : Queued capacity pool accepted taken) (room : pool.count < capacity) (task : Task F A) :
    Queued capacity { pool with
      tasks := Function.update pool.tasks pool.tail task
      tail := (pool.tail + 1) % pool.capacity
      count := pool.count + 1 } (accepted ++ [task]) taken := by
  obtain ⟨same, head, count, ordered, bounded, tail, stored⟩ := queued
  refine ⟨same, head, ?_, ordered.trans (List.prefix_append _ _), room, ?_, ?_⟩
  · simp only [List.length_append, List.length_singleton]
    omega
  · rw [same, tail, place_succ]
  · intro index less
    simp only at less ⊢
    by_cases last : index = pool.count
    · rw [last, count, List.getElem?_concat_length, tail, Function.update_self]
    · have before : index < pool.count := Nat.lt_of_le_of_ne (Nat.le_of_lt_succ less) last
      have apart : place capacity pool.head index ≠ place capacity pool.head pool.count :=
        place_ne before (by omega)
      rw [List.getElem?_append_left (by omega), stored index before, tail, Function.update_of_ne apart]

theorem take (queued : Queued capacity pool accepted taken) (filled : 0 < pool.count) :
    Queued capacity { pool with head := (pool.head + 1) % pool.capacity, count := pool.count - 1 } accepted
      (taken ++ [pool.tasks pool.head]) := by
  obtain ⟨same, head, count, ordered, bounded, tail, stored⟩ := queued
  obtain ⟨fewer, less⟩ := Nat.exists_eq_add_of_lt filled
  have first := stored 0 filled
  rw [Nat.add_zero, place_zero head] at first
  constructor
  · exact same
  · rw [same]
    exact Nat.mod_lt _ (Nat.lt_of_le_of_lt (Nat.zero_le _) head)
  · simp only [List.length_append, List.length_singleton]
    omega
  · obtain ⟨rest, split⟩ := ordered
    rw [← split, List.getElem?_append_right (Nat.le_refl _), Nat.sub_self] at first
    cases rest with
    | nil => cases first
    | cons next later =>
        rw [List.getElem?_cons_zero, Option.some_inj] at first
        exact ⟨later, by rw [← split, ← first, List.append_assoc]; rfl⟩
  · exact Nat.le_trans (Nat.sub_le _ _) bounded
  · simp only [Nat.zero_add] at less
    simp only [same, place_shift, tail, less, Nat.add_sub_cancel]
  · intro index before
    have inside : index + 1 < pool.count := by
      simp only at before
      omega
    rw [same, place_shift, ← stored (index + 1) inside, List.length_append, List.length_singleton, Nat.add_assoc,
      Nat.add_comm 1]

end Queued

/-- Each task that was taken is running or finished, and has one run. -/
structure Runs (workers : Fin threads → Worker F A) (taken : List (Task F A)) (finished : List Nat) : Prop where
  once : finished.Nodup
  started : ∀ number, number < taken.length ↔
    number ∈ finished ∨ ∃ worker task, workers worker = .running task number
  running : ∀ worker task number, workers worker = .running task number →
    number ∉ finished ∧ taken[number]? = some task
  single : ∀ worker other task same number, workers worker = .running task number →
    workers other = .running same number → worker = other

namespace Runs

/-- What idle workers do changes no run. -/
theorem congr (runs : Runs workers taken finished)
    (same : ∀ worker task number, others worker = .running task number ↔ workers worker = .running task number) :
    Runs others taken finished := by
  obtain ⟨once, started, running, single⟩ := runs
  constructor
  · exact once
  · intro number
    rw [started]
    simp only [same]
  · intro worker task number here
    exact running worker task number ((same worker task number).mp here)
  · intro worker other task again number here there
    exact single worker other task again number ((same _ _ _).mp here) ((same _ _ _).mp there)

theorem rest (runs : Runs workers taken finished) {activity : Worker F A}
    (idle : ∀ task number, workers worker ≠ .running task number)
    (lazy : ∀ task number, activity ≠ .running task number) :
    Runs (Function.update workers worker activity) taken finished := by
  apply runs.congr
  intro other task number
  by_cases here : other = worker
  · subst other
    rw [Function.update_self]
    exact ⟨fun running => absurd running (lazy task number), fun running => absurd running (idle task number)⟩
  · rw [Function.update_of_ne here]

theorem take (runs : Runs workers taken finished) (idle : ∀ task number, workers worker ≠ .running task number)
    (task : Task F A) :
    Runs (Function.update workers worker (.running task taken.length)) (taken ++ [task]) finished := by
  obtain ⟨once, started, running, single⟩ := runs
  have earlier : ∀ other task number, workers other = .running task number → number < taken.length :=
    fun other task number here => (started number).mpr (Or.inr ⟨other, task, here⟩)
  constructor
  · exact once
  · intro number
    rw [List.length_append, List.length_singleton, Nat.lt_succ_iff_lt_or_eq, started]
    constructor
    · intro either
      rcases either with (done | ⟨other, before, here⟩) | last
      · exact Or.inl done
      · have apart : other ≠ worker := by
          intro same
          exact idle before number (same ▸ here)
        exact Or.inr ⟨other, before, by rw [Function.update_of_ne apart, here]⟩
      · exact Or.inr ⟨worker, task, by rw [last, Function.update_self]⟩
    · intro either
      rcases either with done | ⟨other, before, here⟩
      · exact Or.inl (Or.inl done)
      · rw [Function.update_apply] at here
        split at here
        · cases here
          exact Or.inr rfl
        · exact Or.inl (Or.inr ⟨other, before, here⟩)
  · intro other before number here
    rw [Function.update_apply] at here
    split at here
    · cases here
      refine ⟨?_, List.getElem?_concat_length⟩
      intro done
      exact Nat.lt_irrefl _ ((started _).mpr (Or.inl done))
    · obtain ⟨open_, named⟩ := running other before number here
      refine ⟨open_, ?_⟩
      rw [List.getElem?_append_left (earlier other before number here)]
      exact named
  · intro first second before again number here there
    rw [Function.update_apply] at here there
    split at here
    next isFirst =>
      cases here
      split at there
      next isSecond => exact isFirst.trans isSecond.symm
      next => exact absurd (earlier _ _ _ there) (Nat.lt_irrefl _)
    next =>
      split at there
      next =>
        cases there
        exact absurd (earlier _ _ _ here) (Nat.lt_irrefl _)
      next => exact single _ _ _ _ _ here there

theorem finish (runs : Runs workers taken finished) (here : workers worker = .running task number) :
    Runs (Function.update workers worker .ready) taken (number :: finished) := by
  obtain ⟨once, started, running, single⟩ := runs
  have open_ := running worker task number here
  constructor
  · exact List.nodup_cons.mpr ⟨open_.1, once⟩
  · intro other
    rw [started, List.mem_cons]
    constructor
    · intro either
      rcases either with done | ⟨runner, before, there⟩
      · exact Or.inl (Or.inr done)
      · by_cases same : runner = worker
        · subst runner
          rw [here] at there
          cases there
          exact Or.inl (Or.inl rfl)
        · exact Or.inr ⟨runner, before, by rw [Function.update_of_ne same, there]⟩
    · intro either
      rcases either with (same | done) | ⟨runner, before, there⟩
      · exact Or.inr ⟨worker, task, same ▸ here⟩
      · exact Or.inl done
      · rw [Function.update_apply] at there
        split at there
        · cases there
        · exact Or.inr ⟨runner, before, there⟩
  · intro other before again there
    rw [Function.update_apply] at there
    split at there
    next => cases there
    next apart =>
      obtain ⟨notDone, named⟩ := running other before again there
      refine ⟨?_, named⟩
      rw [List.mem_cons, not_or]
      refine ⟨?_, notDone⟩
      intro same
      exact apart (single other worker before task again there (same ▸ here))
  · intro first second before again which there also
    rw [Function.update_apply] at there also
    split at there
    · cases there
    · split at also
      · cases also
      · exact single _ _ _ _ _ there also

end Runs

/-- How far `threadpool_destroy` is. -/
def Joined (state : State F A threads) : Prop :=
  match state.destroyer with
  | .idle => state.pool.shutdown = false
  | .joining next => state.pool.shutdown = true ∧ ∀ worker, worker.val < next → state.workers worker = .exited
  | .returned => state.pool.shutdown = true ∧ ∀ worker, state.workers worker = .exited

structure Sound (capacity : Nat) (state : State F A threads) : Prop where
  queued : Queued capacity state.pool state.accepted state.taken
  runs : Runs state.workers state.taken state.finished
  joined : Joined state
  asleep : ∀ worker, state.workers worker = .waiting → state.pool.shutdown = false
  exited : ∀ worker, state.workers worker = .exited → state.pool.shutdown = true ∧ state.pool.count = 0
  /-- While there are tasks, some worker is on its way to the mutex. -/
  awake : 0 < state.pool.count → ∃ worker, state.workers worker ≠ .waiting ∧ state.workers worker ≠ .exited

theorem initial_sound (hasRoom : 1 ≤ capacity) (tasks : Nat → Task F A) :
    Sound capacity (State.initial threads capacity tasks) := by
  constructor
  · constructor
    · rfl
    · exact hasRoom
    · rfl
    · exact List.prefix_refl _
    · exact Nat.zero_le _
    · rw [State.initial, threadpoolCreate, place_zero hasRoom]
    · intro index less
      cases less
  · constructor
    · exact List.nodup_nil
    · simp [State.initial]
    · simp [State.initial]
    · simp [State.initial]
  · rfl
  · intro worker here
    cases here
  · intro worker here
    cases here
  · intro filled
    cases filled

/-- Other workers exit, or not, as before. -/
theorem Joined.congr (joined : Joined state)
    (same : pool.shutdown = state.pool.shutdown)
    (kept : ∀ worker, state.workers worker = .exited → workers worker = .exited) :
    Joined { state with pool, workers, accepted, taken, finished } := by
  simp only [Joined] at joined ⊢
  cases here : state.destroyer with
  | idle =>
      rw [here] at joined
      exact same.trans joined
  | joining next =>
      rw [here] at joined
      exact ⟨same.trans joined.1, fun worker less => kept worker (joined.2 worker less)⟩
  | returned =>
      rw [here] at joined
      exact ⟨same.trans joined.1, fun worker => kept worker (joined.2 worker)⟩

theorem stays_exited {activity : Worker F A} (present : workers worker ≠ .exited) (other : Fin threads)
    (gone : workers other = .exited) : Function.update workers worker activity other = .exited := by
  have apart : other ≠ worker := by
    intro same
    exact present (same ▸ gone)
  rw [Function.update_of_ne apart]
  exact gone

/-- The three ways out of the mutex. -/
theorem workerThread_cases (pool : Pool F A) :
    (pool.count = 0 ∧ pool.shutdown = false ∧ workerThread pool = .wait) ∨
    (pool.count = 0 ∧ pool.shutdown = true ∧ workerThread pool = .exit) ∨
    (0 < pool.count ∧ workerThread pool = .run (pool.tasks pool.head)
      { pool with head := (pool.head + 1) % pool.capacity, count := pool.count - 1 }) := by
  rw [workerThread]
  cases down : pool.shutdown <;> by_cases empty : pool.count = 0
  · exact Or.inl ⟨empty, rfl, by simp [empty]⟩
  · exact Or.inr (Or.inr ⟨Nat.pos_of_ne_zero empty, by simp [empty]⟩)
  · exact Or.inr (Or.inl ⟨empty, rfl, by simp [empty]⟩)
  · exact Or.inr (Or.inr ⟨Nat.pos_of_ne_zero empty, by simp [empty]⟩)

theorem threadpoolAdd_cases (pool : Pool F A) (func : Option F) (args : A) :
    ((threadpoolAdd pool func args).1 ≠ 0 ∧ (threadpoolAdd pool func args).2 = pool) ∨
    ∃ f, func = some f ∧ pool.count ≠ pool.capacity ∧ pool.shutdown = false ∧
      threadpoolAdd pool func args = (0, { pool with
        tasks := Function.update pool.tasks pool.tail ⟨f, args⟩
        tail := (pool.tail + 1) % pool.capacity
        count := pool.count + 1 }) := by
  cases func with
  | none => exact Or.inl ⟨by simp [threadpoolAdd], rfl⟩
  | some f =>
      rw [threadpoolAdd]
      split
      next => exact Or.inl ⟨by simp, rfl⟩
      next opened =>
        rw [not_or, Bool.not_eq_true] at opened
        exact Or.inr ⟨f, rfl, opened.1, opened.2, rfl⟩

namespace Sound

/-- A worker that runs no task goes to another place where it runs none. -/
theorem settle (sound : Sound capacity state) {activity : Worker F A}
    (idle : ∀ task number, state.workers worker ≠ .running task number)
    (present : state.workers worker ≠ .exited) (lazy : ∀ task number, activity ≠ .running task number)
    (asleep : activity = .waiting → state.pool.shutdown = false ∧ state.pool.count = 0)
    (exited : activity = .exited → state.pool.shutdown = true ∧ state.pool.count = 0) :
    Sound capacity { state with workers := Function.update state.workers worker activity } := by
  constructor
  · exact sound.queued
  · exact sound.runs.rest idle lazy
  · exact sound.joined.congr rfl (stays_exited present)
  · intro other here
    simp only [Function.update_apply] at here
    split at here
    · exact (asleep here).1
    · exact sound.asleep other here
  · intro other here
    simp only [Function.update_apply] at here
    split at here
    · exact exited here
    · exact sound.exited other here
  · intro filled
    have filled : 0 < state.pool.count := filled
    obtain ⟨runner, notWaiting, notExited⟩ := sound.awake filled
    by_cases same : runner = worker
    · refine ⟨worker, ?_, ?_⟩
      · simp only [Function.update_self]
        intro here
        have empty := (asleep here).2
        omega
      · simp only [Function.update_self]
        intro here
        have empty := (exited here).2
        omega
    · exact ⟨runner, by simpa [same] using notWaiting, by simpa [same] using notExited⟩

theorem work (sound : Sound capacity state) (ready : state.workers worker = .ready)
    (stepped : step state (.work worker) = some after) : Sound capacity after := by
  have idle : ∀ task number, state.workers worker ≠ .running task number := by simp [ready]
  have present : state.workers worker ≠ .exited := by simp [ready]
  simp only [step, ready] at stepped
  rcases workerThread_cases state.pool with ⟨empty, up, result⟩ | ⟨empty, down, result⟩ | ⟨filled, result⟩
  · rw [result] at stepped
    cases stepped
    exact sound.settle idle present (by simp) (fun _ => ⟨up, empty⟩) (by simp)
  · rw [result] at stepped
    cases stepped
    exact sound.settle idle present (by simp) (by simp) (fun _ => ⟨down, empty⟩)
  · rw [result] at stepped
    cases stepped
    have elsewhere : ∀ other activity, activity = .waiting ∨ activity = .exited →
        Function.update state.workers worker (.running (state.pool.tasks state.pool.head) state.taken.length) other =
          activity → state.workers other = activity := by
      intro other activity either here
      rw [Function.update_apply] at here
      split at here
      · rw [← here] at either
        simp at either
      · exact here
    constructor
    · exact sound.queued.take filled
    · exact sound.runs.take idle _
    · exact sound.joined.congr rfl (stays_exited present)
    · intro other here
      exact sound.asleep other (elsewhere other _ (Or.inl rfl) here)
    · intro other here
      obtain ⟨down, empty⟩ := sound.exited other (elsewhere other _ (Or.inr rfl) here)
      omega
    · intro _
      exact ⟨worker, by simp, by simp⟩

theorem finish (sound : Sound capacity state) (here : state.workers worker = .running task number) :
    Sound capacity { state with
      workers := Function.update state.workers worker .ready
      finished := number :: state.finished } := by
  have present : state.workers worker ≠ .exited := by simp [here]
  constructor
  · exact sound.queued
  · exact sound.runs.finish here
  · exact sound.joined.congr rfl (stays_exited present)
  · intro other there
    simp only [Function.update_apply] at there
    split at there
    · cases there
    · exact sound.asleep other there
  · intro other there
    simp only [Function.update_apply] at there
    split at there
    · cases there
    · exact sound.exited other there
  · intro _
    exact ⟨worker, by simp, by simp⟩

/-- A task goes into the queue while some worker is on its way. -/
theorem enqueue (sound : Sound capacity state) (room : state.pool.count ≠ state.pool.capacity)
    (up : state.pool.shutdown = false) (task : Task F A)
    (awake : ∃ worker, state.workers worker ≠ .waiting ∧ state.workers worker ≠ .exited) :
    Sound capacity { state with
      pool := { state.pool with
        tasks := Function.update state.pool.tasks state.pool.tail task
        tail := (state.pool.tail + 1) % state.pool.capacity
        count := state.pool.count + 1 }
      accepted := state.accepted ++ [task] } := by
  have bounded := sound.queued.bounded
  rw [sound.queued.size] at room
  constructor
  · exact sound.queued.add (by omega) task
  · exact sound.runs
  · exact sound.joined.congr rfl fun _ gone => gone
  · exact sound.asleep
  · intro other here
    have down := (sound.exited other here).1
    rw [up] at down
    cases down
  · exact fun _ => awake

/-- The signal of an add leaves some worker on its way to the task. -/
theorem signalled (sound : Sound capacity state) (hasWorkers : 1 ≤ threads) (up : state.pool.shutdown = false)
    {woken : Option (Fin threads)} (done : signal state.workers woken = some workers) :
    Sound capacity { state with workers } ∧ ∃ worker, workers worker ≠ .waiting ∧ workers worker ≠ .exited := by
  cases woken with
  | some woken =>
      simp only [signal] at done
      split at done
      next waiting =>
        cases done
        cases here : state.workers woken with
        | waiting =>
            refine ⟨sound.settle (by simp [here]) (by simp [here]) (by simp) (by simp) (by simp), woken, ?_, ?_⟩
            · simp
            · simp
        | _ => simp [here, Worker.isWaiting] at waiting
      next => cases done
  | none =>
      simp only [signal] at done
      split at done
      next => cases done
      next nobody =>
        cases done
        refine ⟨sound, ⟨0, hasWorkers⟩, ?_, ?_⟩
        · intro waiting
          exact nobody ⟨_, by rw [waiting]; rfl⟩
        · intro gone
          have down := (sound.exited _ gone).1
          rw [up] at down
          cases down

theorem add (sound : Sound capacity state) (hasWorkers : 1 ≤ threads) {func : Option F} {args : A}
    {woken : Option (Fin threads)} (stepped : step state (.add func args woken) = some after) :
    Sound capacity after := by
  simp only [step] at stepped
  split at stepped
  next => cases stepped
  next =>
    rcases threadpoolAdd_cases state.pool func args with ⟨refused, same⟩ | ⟨f, rfl, room, up, result⟩
    · rw [if_neg refused] at stepped
      cases stepped
      rw [same]
      exact ⟨sound.queued, sound.runs, sound.joined, sound.asleep, sound.exited, sound.awake⟩
    · rw [result, if_pos rfl] at stepped
      obtain ⟨workers, done, finished⟩ := Option.map_eq_some_iff.mp stepped
      cases finished
      obtain ⟨soundAfter, awake⟩ := sound.signalled hasWorkers up done
      exact soundAfter.enqueue room up ⟨f, args⟩ awake

theorem wake (sound : Sound capacity state) (stepped : step state (.wake worker) = some after) :
    Sound capacity after := by
  simp only [step] at stepped
  cases here : state.workers worker with
  | waiting =>
      rw [here] at stepped
      cases stepped
      exact sound.settle (by simp [here]) (by simp [here]) (by simp) (by simp) (by simp)
  | _ =>
      rw [here] at stepped
      cases stepped

theorem destroy (sound : Sound capacity state) (stepped : step state .destroy = some after) :
    Sound capacity after := by
  simp only [step] at stepped
  have joined := sound.joined
  simp only [Joined] at joined
  cases here : state.destroyer with
  | idle =>
      rw [here] at stepped joined
      cases stepped
      have running : ∀ worker task number,
          broadcast state.workers worker = .running task number ↔ state.workers worker = .running task number := by
        intro worker task number
        rw [broadcast]
        cases there : state.workers worker <;> simp [Worker.isWaiting]
      obtain ⟨size, head, count, ordered, bounded, tail, stored⟩ := sound.queued
      constructor
      · exact ⟨size, head, count, ordered, bounded, tail, stored⟩
      · exact sound.runs.congr running
      · exact ⟨rfl, fun worker less => absurd less (Nat.not_lt_zero _)⟩
      · intro worker asleep
        simp only [broadcast] at asleep
        cases there : state.workers worker <;> simp [there, Worker.isWaiting] at asleep
      · intro worker gone
        simp only [broadcast] at gone
        cases there : state.workers worker with
        | exited =>
            have down := (sound.exited worker there).1
            rw [joined] at down
            cases down
        | _ => simp [there, Worker.isWaiting] at gone
      · intro filled
        obtain ⟨worker, notWaiting, notExited⟩ := sound.awake filled
        refine ⟨worker, ?_⟩
        simp only [broadcast]
        cases there : state.workers worker <;> simp_all [Worker.isWaiting]
  | _ =>
      rw [here] at stepped
      cases stepped

theorem join (sound : Sound capacity state) (stepped : step state .join = some after) : Sound capacity after := by
  simp only [step] at stepped
  have joined := sound.joined
  simp only [Joined] at joined
  cases here : state.destroyer with
  | joining next =>
      rw [here] at stepped joined
      simp only at stepped joined
      split at stepped
      next inside =>
        split at stepped
        next gone =>
          cases stepped
          refine ⟨sound.queued, sound.runs, ⟨joined.1, ?_⟩, sound.asleep, sound.exited, sound.awake⟩
          intro worker less
          by_cases last : worker.val = next
          · have same : worker = ⟨next, inside⟩ := Fin.ext last
            subst worker
            cases there : state.workers ⟨next, inside⟩ with
            | exited => rfl
            | _ => simp [there, Worker.isExited] at gone
          · exact joined.2 worker (by omega)
        next => cases stepped
      next all =>
        cases stepped
        exact ⟨sound.queued, sound.runs, ⟨joined.1, fun worker => joined.2 worker (by omega)⟩, sound.asleep,
          sound.exited, sound.awake⟩
  | _ =>
      rw [here] at stepped
      cases stepped

theorem step (sound : Sound capacity state) (hasWorkers : 1 ≤ threads) {action : Action F A threads}
    (stepped : step state action = some after) : Sound capacity after := by
  cases action with
  | work worker =>
      cases here : state.workers worker with
      | ready => exact sound.work here stepped
      | _ => simp [ThreadPool.step, here] at stepped
  | finish worker =>
      cases here : state.workers worker with
      | running task number =>
          simp only [ThreadPool.step, here] at stepped
          cases stepped
          exact sound.finish here
      | _ => simp [ThreadPool.step, here] at stepped
  | wake worker => exact sound.wake stepped
  | add func args woken => exact sound.add hasWorkers stepped
  | destroy => exact sound.destroy stepped
  | join => exact sound.join stepped

end Sound

end HundredDays.ThreadPool
