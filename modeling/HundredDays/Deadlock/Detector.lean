import HundredDays.Deadlock.LockGraph
import HundredDays.Semantics.Run
import Mathlib.Data.Finset.Sort
import Mathlib.Order.Defs.LinearOrder

namespace HundredDays.Deadlock

open HundredDays.Data HundredDays.Semantics Relation

/-! Any number of threads that lock and unlock `DeadlockDetectorMutex`es.

A lock is three steps (`add_request`, the native lock, `acquire`) and an unlock is
two (the native unlock, `release`); the steps of different threads interleave
freely.  A thread locks whatever it likes and unlocks what it holds.
-/

variable {Thread Mutex : Type}

/-- Where a thread stands: between calls, waiting for the native lock of a mutex
whose request was accepted, holding it before `acquire`, or past the native unlock
and before `release`. -/
inductive Phase (Mutex : Type) where
  | idle
  | requested (mutex : Mutex)
  | locked (mutex : Mutex)
  | unlocked (mutex : Mutex)
  deriving DecidableEq

structure State (Thread Mutex : Type) where
  phase : Thread → Phase Mutex
  owner : Mutex → Option Thread
  graph : LockGraph

inductive Action (Thread Mutex : Type) where
  | addRequest (thread : Thread) (mutex : Mutex) (order : Iteration)
  | nativeLock (thread : Thread)
  | acquire (thread : Thread)
  | nativeUnlock (thread : Thread) (mutex : Mutex)
  | release (thread : Thread)

def initial : State Thread Mutex :=
  { phase := fun _ => .idle, owner := fun _ => none, graph := LockGraph.empty }

namespace State

/-- The first thread is blocked on a mutex that the second holds natively. -/
def WaitsFor (state : State Thread Mutex) (waiter holder : Thread) : Prop :=
  ∃ mutex, state.phase waiter = .requested mutex ∧ state.owner mutex = some holder

/-- Threads that each hold a mutex the one before is blocked on, in a circle. -/
def CircularWait (state : State Thread Mutex) : Prop := Cyclic state.WaitsFor

def moveTo [DecidableEq Thread] (state : State Thread Mutex) (thread : Thread) (phase : Phase Mutex) :
    State Thread Mutex :=
  { state with phase := Function.update state.phase thread phase }

def setOwner [DecidableEq Mutex] (state : State Thread Mutex) (mutex : Mutex) (owner : Option Thread) :
    State Thread Mutex :=
  { state with owner := Function.update state.owner mutex owner }

/-- The state in which the thread does wait for the mutex. -/
def letWait [DecidableEq Thread] (state : State Thread Mutex) (thread : Thread) (mutex : Mutex) :
    State Thread Mutex :=
  state.moveTo thread (.requested mutex)

end State

/-- One atomic step, `none` when the thread cannot take it. -/
def step [DecidableEq Thread] [DecidableEq Mutex] (tid : Thread → Node) (id : Mutex → Node)
    (state : State Thread Mutex) : Action Thread Mutex → Option (State Thread Mutex)
  | .addRequest thread mutex order =>
      if state.phase thread = .idle then
        (state.graph.addRequest order (tid thread) (id mutex)).map fun result =>
          let state := { state with graph := result.2 }
          if result.1 then state else state.moveTo thread (.requested mutex)
      else none
  | .nativeLock thread =>
      match state.phase thread with
      | .requested mutex =>
          if state.owner mutex = none then
            some ((state.setOwner mutex (some thread)).moveTo thread (.locked mutex))
          else none
      | _ => none
  | .acquire thread =>
      match state.phase thread with
      | .locked mutex =>
          let state := { state with graph := state.graph.acquire (tid thread) (id mutex) }
          some (state.moveTo thread .idle)
      | _ => none
  | .nativeUnlock thread mutex =>
      if state.phase thread = .idle ∧ state.owner mutex = some thread then
        some ((state.setOwner mutex none).moveTo thread (.unlocked mutex))
      else none
  | .release thread =>
      match state.phase thread with
      | .unlocked mutex =>
          let state := { state with graph := state.graph.release (tid thread) (id mutex) }
          some (state.moveTo thread .idle)
      | _ => none

variable {tid : Thread → Node} {id : Mutex → Node} {state after : State Thread Mutex}
  {thread waiter holder : Thread} {mutex : Mutex} {node : Node}

/-- Thread hashes and mutex ids are pairwise distinct. -/
structure Distinct (tid : Thread → Node) (id : Mutex → Node) : Prop where
  threads : Function.Injective tid
  mutexes : Function.Injective id
  apart : ∀ thread mutex, tid thread ≠ id mutex

/-- How far the graph lags behind the native locks.  An edge of a thread is there
from its request to `acquire`; an edge of a mutex is missing between the native
lock and `acquire`, and is still there between the native unlock and `release`. -/
structure Linked (tid : Thread → Node) (id : Mutex → Node) (state : State Thread Mutex) : Prop where
  waiting : ∀ thread node, state.graph.Edge (tid thread) node ↔ ∃ mutex, node = id mutex ∧
    (state.phase thread = .requested mutex ∨ state.phase thread = .locked mutex)
  holding : ∀ mutex node, state.graph.Edge (id mutex) node ↔ ∃ thread, node = tid thread ∧
    (state.owner mutex = some thread ∧ state.phase thread ≠ .locked mutex ∨
      state.phase thread = .unlocked mutex)
  sources : ∀ node next, state.graph.Edge node next →
    (∃ thread, node = tid thread) ∨ ∃ mutex, node = id mutex
  owned : ∀ thread mutex, state.phase thread = .locked mutex → state.owner mutex = some thread
  given : ∀ thread mutex, state.phase thread = .unlocked mutex → state.owner mutex ≠ some thread

theorem State.WaitsFor.waiting (waits : state.WaitsFor waiter holder) :
    ∃ mutex, state.phase waiter = .requested mutex := by
  obtain ⟨mutex, requested, _⟩ := waits
  exact ⟨mutex, requested⟩

theorem waiting_of_transGen (waits : TransGen state.WaitsFor waiter holder) :
    ∃ mutex, state.phase waiter = .requested mutex := by
  obtain ⟨next, first, _⟩ := TransGen.head'_iff.mp waits
  exact first.waiting

namespace Linked

/-- Threads that wait in a circle are connected in the graph: each of them is past
`acquire` for what it holds. -/
theorem edge_of_waits (linked : Linked tid id state) (waits : TransGen state.WaitsFor waiter holder)
    (blocked : state.phase holder = .requested mutex) :
    TransGen state.graph.Edge (tid waiter) (tid holder) := by
  have two : ∀ waiter middle held, state.WaitsFor waiter middle → state.phase middle = .requested held →
      TransGen state.graph.Edge (tid waiter) (tid middle) := by
    intro waiter middle held waits requested
    obtain ⟨wanted, asked, owner⟩ := waits
    have request : state.graph.Edge (tid waiter) (id wanted) :=
      (linked.waiting waiter _).mpr ⟨wanted, rfl, Or.inl asked⟩
    have hold : state.graph.Edge (id wanted) (tid middle) :=
      (linked.holding wanted _).mpr ⟨middle, rfl, Or.inl ⟨owner, by simp [requested]⟩⟩
    exact TransGen.head request (TransGen.single hold)
  induction waits using TransGen.head_induction_on with
  | single step => exact two _ _ _ step blocked
  | head step rest ih =>
      obtain ⟨held, requested⟩ := waiting_of_transGen rest
      exact (two _ _ _ step requested).trans ih

/-- A path of the graph to a blocked thread is a chain of threads that wait: a stale
edge leads to a thread without edges, and a request that the native lock has
already served is followed by none. -/
theorem waits_of_edge (distinct : Distinct tid id) (linked : Linked tid id state)
    (blocked : state.phase holder = .requested mutex)
    (path : TransGen state.graph.Edge node (tid holder)) :
    (∀ waiter, node = tid waiter → TransGen state.WaitsFor waiter holder) ∧
    (∀ wanted, node = id wanted → ∃ owner, state.owner wanted = some owner ∧
      state.phase owner ≠ .locked wanted ∧ ReflTransGen state.WaitsFor owner holder) := by
  induction path using TransGen.head_induction_on with
  | single step =>
      constructor
      · intro waiter same
        rw [same, linked.waiting] at step
        obtain ⟨wanted, impossible, _⟩ := step
        exact absurd impossible (distinct.apart holder wanted)
      · intro wanted same
        rw [same, linked.holding] at step
        obtain ⟨owner, target, held⟩ := step
        rw [← distinct.threads target, blocked] at held
        exact ⟨holder, by simpa using held, by simp [blocked], ReflTransGen.refl⟩
  | head step rest ih =>
      constructor
      · intro waiter same
        rw [same, linked.waiting] at step
        obtain ⟨wanted, target, asked⟩ := step
        obtain ⟨owner, owned, acquired, chain⟩ := ih.2 wanted target
        cases asked with
        | inl requested => exact TransGen.head' ⟨wanted, requested, owned⟩ chain
        | inr locked =>
            have holds := linked.owned waiter wanted locked
            rw [owned, Option.some_inj] at holds
            exact absurd (holds ▸ locked) acquired
      · intro wanted same
        rw [same, linked.holding] at step
        obtain ⟨owner, target, held⟩ := step
        have chain := ih.1 owner target
        obtain ⟨asked, requested⟩ := waiting_of_transGen chain
        rw [requested] at held
        exact ⟨owner, by simpa using held, by simp [requested], chain.to_reflTransGen⟩

/-- A thread on a cycle of the graph is blocked. -/
theorem blocked_of_cycle (distinct : Distinct tid id) (linked : Linked tid id state)
    (cycle : TransGen state.graph.Edge (tid thread) (tid thread)) :
    ∃ mutex, state.phase thread = .requested mutex := by
  obtain ⟨middle, first, back⟩ := TransGen.head'_iff.mp cycle
  obtain ⟨mutex, same, asked⟩ := (linked.waiting thread middle).mp first
  subst middle
  cases asked with
  | inl requested => exact ⟨mutex, requested⟩
  | inr locked =>
      -- The mutex has no edge to its holder yet; any other edge of it is stale.
      obtain ⟨next, second, onward⟩ := TransGen.head'_iff.mp (Relation.reflTransGen_iff_eq_or_transGen.mp back
        |>.resolve_left (distinct.apart thread mutex))
      obtain ⟨other, target, held⟩ := (linked.holding mutex next).mp second
      subst next
      have holds := linked.owned thread mutex locked
      cases held with
      | inl owner =>
          rw [holds, Option.some_inj] at owner
          exact absurd (owner.1 ▸ locked) owner.2
      | inr unlocked =>
          have apart : other ≠ thread := by
            intro same
            rw [same, locked] at unlocked
            cases unlocked
          obtain ⟨beyond, third, _⟩ := TransGen.head'_iff.mp
            (Relation.reflTransGen_iff_eq_or_transGen.mp onward |>.resolve_left
              (fun same => apart (distinct.threads same).symm))
          obtain ⟨_, _, asked⟩ := (linked.waiting other beyond).mp third
          simp [unlocked] at asked

/-- The graph has a cycle exactly when threads wait in a circle. -/
theorem cyclic_iff (distinct : Distinct tid id) (linked : Linked tid id state) :
    Cyclic state.graph.Edge ↔ state.CircularWait := by
  constructor
  · intro cyclic
    obtain ⟨node, cycle⟩ := cyclic
    have onThread : ∃ thread, TransGen state.graph.Edge (tid thread) (tid thread) := by
      obtain ⟨next, first, back⟩ := TransGen.head'_iff.mp cycle
      cases linked.sources node next first with
      | inl found =>
          obtain ⟨thread, same⟩ := found
          exact ⟨thread, same ▸ cycle⟩
      | inr found =>
          obtain ⟨mutex, same⟩ := found
          obtain ⟨thread, target, _⟩ := (linked.holding mutex next).mp (same ▸ first)
          exact ⟨thread, target ▸ TransGen.tail' back first⟩
    obtain ⟨thread, cycle⟩ := onThread
    obtain ⟨mutex, blocked⟩ := linked.blocked_of_cycle distinct cycle
    exact ⟨thread, (linked.waits_of_edge distinct blocked cycle).1 thread rfl⟩
  · intro circular
    obtain ⟨thread, cycle⟩ := circular
    obtain ⟨mutex, blocked⟩ := waiting_of_transGen cycle
    exact ⟨tid thread, linked.edge_of_waits cycle blocked⟩

end Linked

/-- The whole invariant. -/
structure Safe (tid : Thread → Node) (id : Mutex → Node) (state : State Thread Mutex) : Prop where
  linked : Linked tid id state
  noCircularWait : ¬ state.CircularWait

theorem initial_safe : Safe tid id initial := by
  constructor
  · constructor <;> simp [initial, LockGraph.Edge, LockGraph.empty]
  · intro circular
    obtain ⟨thread, cycle⟩ := circular
    obtain ⟨mutex, blocked⟩ := waiting_of_transGen cycle
    cases blocked

/-- No cycle appears when every thread that still waits waited before, for the
same threads or for one that does not wait. -/
theorem State.CircularWait.of_waits (circular : after.CircularWait)
    (kept : ∀ waiter holder, after.WaitsFor waiter holder →
      state.WaitsFor waiter holder ∨ ∀ mutex, after.phase holder ≠ .requested mutex) :
    state.CircularWait := by
  obtain ⟨thread, cycle⟩ := circular
  obtain ⟨mutex, blocked⟩ := waiting_of_transGen cycle
  have path : ∀ waiter, TransGen after.WaitsFor waiter thread → TransGen state.WaitsFor waiter thread := by
    intro waiter waits
    induction waits using TransGen.head_induction_on with
    | single step =>
        exact TransGen.single ((kept _ _ step).resolve_right (fun free => free mutex blocked))
    | head step rest ih =>
        obtain ⟨other, requested⟩ := waiting_of_transGen rest
        exact TransGen.head ((kept _ _ step).resolve_right (fun free => free other requested)) ih
  exact ⟨thread, path thread cycle⟩

/-- A thread between calls has no edges. -/
theorem Linked.no_edge (linked : Linked tid id state) (idle : state.phase thread = .idle) :
    ¬ state.graph.Edge (tid thread) node := by
  rw [linked.waiting]
  simp [idle]

/-- The graph matters only through its edges. -/
theorem Linked.congr {graph : LockGraph} (linked : Linked tid id state) (same : graph.adj = state.graph.adj) :
    Linked tid id { state with graph } := by
  have edges : graph.Edge = state.graph.Edge := by
    unfold LockGraph.Edge
    rw [same]
  constructor
  · rw [edges]
    exact linked.waiting
  · rw [edges]
    exact linked.holding
  · rw [edges]
    exact linked.sources
  · exact linked.owned
  · exact linked.given

variable [DecidableEq Thread]

/-- The request edge is what the graph lacks for the state in which the thread waits. -/
theorem Linked.letWait (distinct : Distinct tid id) (linked : Linked tid id state)
    (idle : state.phase thread = .idle) :
    Linked tid id ({ state with graph := state.graph.insertEdge (tid thread) (id mutex) }.letWait thread mutex) := by
  constructor
  · intro other node
    simp only [State.letWait, State.moveTo, LockGraph.edge_insertEdge, linked.waiting,
      distinct.threads.eq_iff, Function.update_apply]
    by_cases same : other = thread
    · subst other
      simp [idle]
    · simp [same]
  · intro other node
    simp only [State.letWait, State.moveTo, LockGraph.edge_insertEdge, linked.holding,
      (distinct.apart thread other).symm, false_and, or_false, Function.update_apply]
    apply exists_congr
    intro holder
    by_cases same : holder = thread
    · subst holder
      simp [idle]
    · simp [same]
  · intro node next edge
    cases LockGraph.edge_insertEdge.mp edge with
    | inl before => exact linked.sources node next before
    | inr new => exact Or.inl ⟨thread, new.1⟩
  · intro other held locked
    by_cases same : other = thread
    · subst other
      simp [State.letWait, State.moveTo] at locked
    · simp only [State.letWait, State.moveTo, Function.update_of_ne same] at locked ⊢
      exact linked.owned other held locked
  · intro other held unlocked
    by_cases same : other = thread
    · subst other
      simp [State.letWait, State.moveTo] at unlocked
    · simp only [State.letWait, State.moveTo, Function.update_of_ne same] at unlocked ⊢
      exact linked.given other held unlocked

/-- A request throws exactly when letting the thread wait would close a circular
wait, and then leaves the edges alone; otherwise the thread may wait. -/
theorem Linked.addRequest (distinct : Distinct tid id) (linked : Linked tid id state)
    (idle : state.phase thread = .idle) (order : Iteration) (mutex : Mutex) :
    ∃ throws after, state.graph.addRequest order (tid thread) (id mutex) = some (throws, after) ∧
      (throws = true ↔ (state.letWait thread mutex).CircularWait) ∧
      (throws = true → after.adj = state.graph.adj) ∧
      (throws = false → after = state.graph.insertEdge (tid thread) (id mutex)) := by
  have fresh : ¬ state.graph.Edge (tid thread) (id mutex) := linked.no_edge idle
  obtain ⟨throws, after, requested, cyclic, kept, added⟩ := LockGraph.addRequest_spec fresh
  exact ⟨throws, after, requested, cyclic.trans (Linked.cyclic_iff distinct (linked.letWait distinct idle)),
    kept, added⟩

theorem Linked.acquire (distinct : Distinct tid id) (linked : Linked tid id state)
    (locked : state.phase thread = .locked mutex) :
    Linked tid id ({ state with graph := state.graph.acquire (tid thread) (id mutex) }.moveTo thread .idle) := by
  have owned := linked.owned thread mutex locked
  have edges : ∀ source target, (state.graph.acquire (tid thread) (id mutex)).Edge source target ↔
      (state.graph.Edge source target ∧ ¬ (source = tid thread ∧ target = id mutex)) ∨
        source = id mutex ∧ target = tid thread := by
    intro source target
    rw [LockGraph.acquire, LockGraph.edge_insertEdge, LockGraph.edge_eraseEdge]
  constructor
  · intro other node
    simp only [State.moveTo, edges, linked.waiting, distinct.threads.eq_iff, distinct.apart, false_and,
      or_false, Function.update_apply]
    by_cases same : other = thread
    · subst other
      simp [locked]
    · simp [same]
  · intro other node
    simp only [State.moveTo, edges, linked.holding, distinct.mutexes.eq_iff,
      (distinct.apart thread other).symm, false_and, not_false_eq_true, and_true, Function.update_apply]
    grind
  · intro node next edge
    cases (edges node next).mp edge with
    | inl before => exact linked.sources node next before.1
    | inr new => exact Or.inr ⟨mutex, new.1⟩
  · have kept := linked.owned
    simp only [State.moveTo, Function.update_apply]
    grind
  · have kept := linked.given
    simp only [State.moveTo, Function.update_apply]
    grind

theorem Linked.release (distinct : Distinct tid id) (linked : Linked tid id state)
    (unlocked : state.phase thread = .unlocked mutex) :
    Linked tid id ({ state with graph := state.graph.release (tid thread) (id mutex) }.moveTo thread .idle) := by
  have given := linked.given thread mutex unlocked
  constructor
  · intro other node
    simp only [State.moveTo, LockGraph.release, LockGraph.edge_eraseEdge, linked.waiting, distinct.apart,
      false_and, not_false_eq_true, and_true, Function.update_apply]
    grind
  · intro other node
    simp only [State.moveTo, LockGraph.release, LockGraph.edge_eraseEdge, linked.holding,
      distinct.mutexes.eq_iff, Function.update_apply]
    have injective := distinct.threads
    grind [Function.Injective]
  · intro node next edge
    exact linked.sources node next (LockGraph.edge_eraseEdge.mp edge).1
  · have kept := linked.owned
    simp only [State.moveTo, Function.update_apply]
    grind
  · have kept := linked.given
    simp only [State.moveTo, Function.update_apply]
    grind

variable [DecidableEq Mutex]

theorem Linked.nativeLock (linked : Linked tid id state) (requested : state.phase thread = .requested mutex)
    (free : state.owner mutex = none) :
    Linked tid id ((state.setOwner mutex (some thread)).moveTo thread (.locked mutex)) := by
  constructor
  · intro other node
    simp only [State.moveTo, State.setOwner, linked.waiting, Function.update_apply]
    grind
  · intro other node
    simp only [State.moveTo, State.setOwner, linked.holding, Function.update_apply]
    grind
  · exact linked.sources
  · have kept := linked.owned
    simp only [State.moveTo, State.setOwner, Function.update_apply]
    grind
  · have kept := linked.given
    simp only [State.moveTo, State.setOwner, Function.update_apply]
    grind

theorem Linked.nativeUnlock (linked : Linked tid id state) (idle : state.phase thread = .idle)
    (owner : state.owner mutex = some thread) :
    Linked tid id ((state.setOwner mutex none).moveTo thread (.unlocked mutex)) := by
  constructor
  · intro other node
    simp only [State.moveTo, State.setOwner, linked.waiting, Function.update_apply]
    grind
  · intro other node
    simp only [State.moveTo, State.setOwner, linked.holding, Function.update_apply]
    grind
  · exact linked.sources
  · have kept := linked.owned
    simp only [State.moveTo, State.setOwner, Function.update_apply]
    grind
  · have kept := linked.given
    simp only [State.moveTo, State.setOwner, Function.update_apply]
    grind

theorem step_safe (distinct : Distinct tid id) (action : Action Thread Mutex) (safe : Safe tid id state)
    (stepped : step tid id state action = some after) : Safe tid id after := by
  cases action with
  | addRequest thread mutex order =>
      simp only [step] at stepped
      split at stepped
      next idle =>
        obtain ⟨result, requested, next⟩ := Option.map_eq_some_iff.mp stepped
        obtain ⟨throws, graph, answered, closes, kept, added⟩ := safe.linked.addRequest distinct idle order mutex
        rw [answered, Option.some_inj] at requested
        subst result after
        cases throws with
        | true => exact ⟨safe.linked.congr (kept rfl), safe.noCircularWait⟩
        | false =>
            rw [added rfl]
            exact ⟨safe.linked.letWait distinct idle, fun circular => absurd (closes.mpr circular) (by simp)⟩
      next => cases stepped
  | nativeLock thread =>
      simp only [step] at stepped
      split at stepped
      next mutex requested =>
        split at stepped
        next free =>
          cases stepped
          refine ⟨safe.linked.nativeLock requested free, fun circular => safe.noCircularWait ?_⟩
          apply circular.of_waits
          intro waiter holder waits
          obtain ⟨wanted, asked, owner⟩ := waits
          by_cases same : wanted = mutex
          · -- The new owner has just stopped waiting.
            right
            simp only [State.moveTo, State.setOwner, same, Function.update_self, Option.some_inj] at owner
            subst holder
            simp [State.moveTo, State.setOwner]
          · left
            simp only [State.moveTo, State.setOwner, Function.update_apply] at asked owner
            exact ⟨wanted, by grind, by grind⟩
        next => cases stepped
      next => cases stepped
  | acquire thread =>
      simp only [step] at stepped
      split at stepped
      next mutex locked =>
        cases stepped
        refine ⟨safe.linked.acquire distinct locked, fun circular => safe.noCircularWait ?_⟩
        apply circular.of_waits
        intro waiter holder waits
        obtain ⟨wanted, asked, owner⟩ := waits
        simp only [State.moveTo, Function.update_apply] at asked
        exact Or.inl ⟨wanted, by grind, owner⟩
      next => cases stepped
  | nativeUnlock thread mutex =>
      simp only [step] at stepped
      split at stepped
      next ready =>
        cases stepped
        refine ⟨safe.linked.nativeUnlock ready.1 ready.2, fun circular => safe.noCircularWait ?_⟩
        apply circular.of_waits
        intro waiter holder waits
        obtain ⟨wanted, asked, owner⟩ := waits
        simp only [State.moveTo, State.setOwner, Function.update_apply] at asked owner
        exact Or.inl ⟨wanted, by grind, by grind⟩
      next => cases stepped
  | release thread =>
      simp only [step] at stepped
      split at stepped
      next mutex unlocked =>
        cases stepped
        refine ⟨safe.linked.release distinct unlocked, fun circular => safe.noCircularWait ?_⟩
        apply circular.of_waits
        intro waiter holder waits
        obtain ⟨wanted, asked, owner⟩ := waits
        simp only [State.moveTo, Function.update_apply] at asked
        exact Or.inl ⟨wanted, by grind, owner⟩
      next => cases stepped

theorem run_safe {actions : List (Action Thread Mutex)} (distinct : Distinct tid id)
    (ran : run (step tid id) initial actions = some state) : Safe tid id state :=
  run_invariant (Safe tid id) (fun _ action _ safe stepped => step_safe distinct action safe stepped)
    initial_safe ran

/-- No schedule leads to a circular wait, and in every state that is reached a
request of a thread between calls returns; it throws exactly when letting the
thread wait would close a circular wait, and then leaves all edges as they were. -/
theorem detector_sound_and_precise {actions : List (Action Thread Mutex)} (distinct : Distinct tid id)
    (ran : run (step tid id) initial actions = some state) :
    ¬ state.CircularWait ∧
    ∀ thread mutex order, state.phase thread = .idle →
      ∃ throws graph, state.graph.addRequest order (tid thread) (id mutex) = some (throws, graph) ∧
        (throws = true ↔ (state.letWait thread mutex).CircularWait) ∧
        (throws = true → graph.adj = state.graph.adj) := by
  have safe := run_safe distinct ran
  refine ⟨safe.noCircularWait, ?_⟩
  intro thread mutex order idle
  obtain ⟨throws, graph, answered, closes, kept, _⟩ := safe.linked.addRequest distinct idle order mutex
  exact ⟨throws, graph, answered, closes, kept⟩

def sorted (set : Multiset Node) : List Node :=
  Quot.liftOn set (List.insertionSort (· ≤ ·)) fun left right same => by
    rw [← List.mergeSort_eq_insertionSort, ← List.mergeSort_eq_insertionSort, ← Multiset.coe_sort,
      ← Multiset.coe_sort, Multiset.coe_eq_coe.mpr same]

theorem coe_sorted (set : Multiset Node) : (sorted set : Multiset Node) = set :=
  Quot.inductionOn set fun list => Multiset.coe_eq_coe.mpr (List.perm_insertionSort _ list)

/-- The elements in ascending order. -/
def ascending : Iteration where
  elements := fun _ set => sorted set.val
  once := fun _ set => Multiset.coe_nodup.mp (by rw [coe_sorted]; exact set.nodup)
  mem_elements := fun _ set node => by rw [← Multiset.mem_coe, coe_sorted, Finset.mem_val]

/-- Two threads take a mutex each, and one asks for the other's: the second thread
is then refused. -/
theorem crossed_requests :
    ∃ state : State Bool Bool,
      run (step (fun thread => if thread then 1 else 2) (fun mutex => if mutex then 101 else 102)) initial
        [.addRequest true true ascending, .addRequest false false ascending, .nativeLock true,
          .nativeLock false, .acquire true, .acquire false, .addRequest true false ascending] = some state ∧
      ¬ state.CircularWait ∧ (state.letWait false true).CircularWait ∧
      ∃ graph, state.graph.addRequest ascending 2 101 = some (true, graph) ∧ graph.adj = state.graph.adj := by
  have finishes : ((run (step (fun thread => if thread then 1 else 2) (fun mutex => if mutex then 101 else 102))
      (initial : State Bool Bool)
      [.addRequest true true ascending, .addRequest false false ascending, .nativeLock true,
        .nativeLock false, .acquire true, .acquire false, .addRequest true false ascending]).bind fun state =>
      (state.graph.addRequest ascending 2 101).map fun result => (decide (state.phase false = .idle), result.1)) =
      some (true, true) := by
    decide +kernel
  obtain ⟨state, ran, later⟩ := Option.bind_eq_some_iff.mp finishes
  obtain ⟨result, answered, both⟩ := Option.map_eq_some_iff.mp later
  have distinct : Distinct (fun thread : Bool => if thread then (1 : Node) else 2)
      (fun mutex : Bool => if mutex then (101 : Node) else 102) := by
    constructor <;> decide
  obtain ⟨safe, precise⟩ := detector_sound_and_precise distinct ran
  obtain ⟨throws, graph, same, closes, kept⟩ := precise false true ascending (by simpa using congrArg Prod.fst both)
  have refused : result.1 = true := by simpa using congrArg Prod.snd both
  have equal : result = (throws, graph) := Option.some.inj (answered.symm.trans same)
  rw [equal] at refused
  simp only at refused
  subst throws
  exact ⟨state, ran, safe, closes.mp rfl, graph, same, kept rfl⟩

end HundredDays.Deadlock
