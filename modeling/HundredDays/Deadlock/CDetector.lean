import HundredDays.Deadlock.CRefinement
import HundredDays.Deadlock.Detector

namespace HundredDays.Deadlock.CDetector

open HundredDays.Data HundredDays.Semantics Relation

/-! Threads that call `my_mutex_lock` and `my_mutex_unlock`.

A lock is its request, the native lock and the section after it; an unlock is the native
unlock and the section after it. The steps of different threads interleave freely, and a
thread unlocks what it holds.
-/

variable {Thread Mutex : Type}

/-- Where a thread stands, with the places of the nodes that `my_mutex_lock` has looked up. -/
inductive Phase (Mutex : Type) where
  | idle
  | requested (mutex : Mutex) (places : Nat × Nat)
  | locked (mutex : Mutex) (places : Nat × Nat)
  | unlocked (mutex : Mutex)
  deriving DecidableEq

structure State (Thread Mutex : Type) where
  phase : Thread → Phase Mutex
  owner : Mutex → Option Thread
  graph : Graph

inductive Action (Thread Mutex : Type) where
  | request (thread : Thread) (mutex : Mutex)
  | nativeLock (thread : Thread)
  | acquire (thread : Thread)
  | nativeUnlock (thread : Thread) (mutex : Mutex)
  | release (thread : Thread)

def start : State Thread Mutex := { phase := fun _ => .idle, owner := fun _ => none, graph := Graph.empty }

/-- `int tid = (int)pthread_self()` -/
def tid (pthreadSelf : Thread → BitVec 64) (thread : Thread) : BitVec 32 := (pthreadSelf thread).setWidth 32

namespace State

def moveTo [DecidableEq Thread] (state : State Thread Mutex) (thread : Thread) (phase : Phase Mutex) :
    State Thread Mutex :=
  { state with phase := Function.update state.phase thread phase }

def setOwner [DecidableEq Mutex] (state : State Thread Mutex) (mutex : Mutex) (owner : Option Thread) :
    State Thread Mutex :=
  { state with owner := Function.update state.owner mutex owner }

/-- The mutex that a thread waits for. -/
def wanted (state : State Thread Mutex) (thread : Thread) : Option Mutex :=
  match state.phase thread with
  | .requested mutex _ => some mutex
  | _ => none

end State

/-- One atomic step, `none` when the thread cannot take it or the process exits. -/
def step [DecidableEq Thread] [DecidableEq Mutex] (pthreadSelf : Thread → BitVec 64) (id : Mutex → BitVec 32)
    (state : State Thread Mutex) : Action Thread Mutex → Option (State Thread Mutex)
  | .request thread mutex =>
      if state.phase thread = .idle then
        (state.graph.request (tid pthreadSelf thread) (id mutex)).map fun result =>
          let state := { state with graph := result.2.2 }
          if result.1 then state else state.moveTo thread (.requested mutex result.2.1)
      else none
  | .nativeLock thread =>
      match state.phase thread with
      | .requested mutex places =>
          if state.owner mutex = none then
            some ((state.setOwner mutex (some thread)).moveTo thread (.locked mutex places))
          else none
      | _ => none
  | .acquire thread =>
      match state.phase thread with
      | .locked _ places =>
          let state := { state with graph := state.graph.acquire places.1 places.2 }
          some (state.moveTo thread .idle)
      | _ => none
  | .nativeUnlock thread mutex =>
      if state.phase thread = .idle ∧ state.owner mutex = some thread then
        some ((state.setOwner mutex none).moveTo thread (.unlocked mutex))
      else none
  | .release thread =>
      match state.phase thread with
      | .unlocked mutex =>
          (state.graph.release (tid pthreadSelf thread) (id mutex)).map fun graph =>
            { state with graph }.moveTo thread .idle
      | _ => none

variable {pthreadSelf : Thread → BitVec 64} {id : Mutex → BitVec 32} {state after : State Thread Mutex}
  {image next : Deadlock.State Thread Mutex} {thread : Thread} {mutex : Mutex}

/-! ### The detector in C is the one of the graph of numbers -/

def Phase.forget : Phase Mutex → Deadlock.Phase Mutex
  | .idle => .idle
  | .requested mutex _ => .requested mutex
  | .locked mutex _ => .locked mutex
  | .unlocked mutex => .unlocked mutex

def Action.forget : Action Thread Mutex → Deadlock.Action Thread Mutex
  | .request thread mutex => .addRequest thread mutex ascending
  | .nativeLock thread => .nativeLock thread
  | .acquire thread => .acquire thread
  | .nativeUnlock thread mutex => .nativeUnlock thread mutex
  | .release thread => .release thread

def threadNode (pthreadSelf : Thread → BitVec 64) (thread : Thread) : GraphNode :=
  { id := tid pthreadSelf thread, type := .thread }

def mutexNode (id : Mutex → BitVec 32) (mutex : Mutex) : GraphNode := { id := id mutex, type := .mutex }

structure Refines (pthreadSelf : Thread → BitVec 64) (id : Mutex → BitVec 32) (state : State Thread Mutex)
    (image : Deadlock.State Thread Mutex) : Prop where
  phase : ∀ thread, image.phase thread = (state.phase thread).forget
  owner : image.owner = state.owner
  graph : state.graph.Pictures image.graph
  places : ∀ thread mutex places,
    state.phase thread = .requested mutex places ∨ state.phase thread = .locked mutex places →
      state.graph.nodes[places.1]? = some (threadNode pthreadSelf thread) ∧
        state.graph.nodes[places.2]? = some (mutexNode id mutex)

theorem start_refines : Refines pthreadSelf id start (initial : Deadlock.State Thread Mutex) := by
  refine ⟨fun _ => rfl, rfl, ⟨List.nodup_nil, ?_, ?_⟩, ?_⟩
  · rintro _ _ ⟨⟩
  · intro source target
    simp [initial, LockGraph.empty, LockGraph.Edge, start, Graph.empty]
  · rintro _ _ _ (⟨⟨⟩⟩ | ⟨⟨⟩⟩)

theorem distinct_numbers (threads : Function.Injective (tid pthreadSelf)) (mutexes : Function.Injective id) :
    Distinct (fun thread => (threadNode pthreadSelf thread).number) (fun mutex => (mutexNode id mutex).number) := by
  refine ⟨?_, ?_, ?_⟩
  · intro first second same
    exact threads (congrArg GraphNode.id (GraphNode.number_injective same))
  · intro first second same
    exact mutexes (congrArg GraphNode.id (GraphNode.number_injective same))
  · intro thread mutex same
    cases congrArg GraphNode.type (GraphNode.number_injective same)

theorem Refines.setOwner [DecidableEq Mutex] (refines : Refines pthreadSelf id state image) (mutex : Mutex)
    (owner : Option Thread) : Refines pthreadSelf id (state.setOwner mutex owner) (image.setOwner mutex owner) := by
  refine ⟨refines.phase, ?_, refines.graph, refines.places⟩
  simp only [State.setOwner, Deadlock.State.setOwner, refines.owner]

variable [DecidableEq Thread]

/-- A thread moves on, and the table keeps the nodes that it has. -/
theorem Refines.moveTo (refines : Refines pthreadSelf id state image) {graph : Graph} {lockGraph : LockGraph}
    (pictures : graph.Pictures lockGraph) (phase : Phase Mutex)
    (kept : ∀ (place : Nat) (node : GraphNode), state.graph.nodes[place]? = some node → graph.nodes[place]? = some node)
    (places : ∀ mutex places, phase = .requested mutex places ∨ phase = .locked mutex places →
      graph.nodes[places.1]? = some (threadNode pthreadSelf thread) ∧ graph.nodes[places.2]? = some (mutexNode id mutex)) :
    Refines pthreadSelf id ({ state with graph }.moveTo thread phase)
      ({ image with graph := lockGraph }.moveTo thread phase.forget) := by
  refine ⟨?_, refines.owner, pictures, ?_⟩
  · intro other
    by_cases same : other = thread
    · subst same
      simp [State.moveTo, Deadlock.State.moveTo]
    · simp [State.moveTo, Deadlock.State.moveTo, same, refines.phase]
  · intro other mutex found stands
    by_cases same : other = thread
    · subst same
      simp only [State.moveTo, Function.update_self] at stands
      exact places mutex found stands
    · simp only [State.moveTo, Function.update_of_ne same] at stands
      obtain ⟨first, second⟩ := refines.places other mutex found stands
      exact ⟨kept _ _ first, kept _ _ second⟩

variable [DecidableEq Mutex]

theorem Refines.step (refines : Refines pthreadSelf id state image) (action : Action Thread Mutex)
    (stepped : step pthreadSelf id state action = some after) :
    ∃ next, Deadlock.step (fun thread => (threadNode pthreadSelf thread).number) (fun mutex => (mutexNode id mutex).number)
      image action.forget = some next ∧ Refines pthreadSelf id after next := by
  cases action with
  | request thread mutex =>
      simp only [CDetector.step] at stepped
      split_ifs at stepped with idle
      obtain ⟨⟨refused, ⟨place, position⟩, graph⟩, requested, rfl⟩ := Option.map_eq_some_iff.mp stepped
      obtain ⟨⟨lockGraph, answered, pictures⟩, first, second, kept⟩ := refines.graph.request ascending requested
      have idleImage : image.phase thread = .idle := by rw [refines.phase, idle]; rfl
      have answer : image.graph.addRequest ascending (threadNode pthreadSelf thread).number (mutexNode id mutex).number =
          some (refused, lockGraph) := answered
      simp only [Action.forget, Deadlock.step, if_pos idleImage, answer, Option.map_some]
      cases refused with
      | true =>
          refine ⟨_, rfl, refines.phase, refines.owner, pictures, ?_⟩
          intro other mutex found stands
          obtain ⟨here, there⟩ := refines.places other mutex found stands
          exact ⟨kept _ _ here, kept _ _ there⟩
      | false =>
          refine ⟨_, rfl, refines.moveTo pictures (.requested mutex (place, position)) kept ?_⟩
          rintro _ _ (⟨⟨⟩⟩ | ⟨⟨⟩⟩)
          exact ⟨first, second⟩
  | nativeLock thread =>
      simp only [CDetector.step] at stepped
      split at stepped
      next mutex places requested =>
        split_ifs at stepped with free
        cases stepped
        have image' : image.phase thread = .requested mutex := by rw [refines.phase, requested]; rfl
        have freeImage : image.owner mutex = none := by rw [refines.owner, free]
        refine ⟨_, by simp only [Action.forget, Deadlock.step, image', if_pos freeImage]; rfl, ?_⟩
        refine (refines.setOwner mutex (some thread)).moveTo refines.graph (.locked mutex places) (fun _ _ found => found) ?_
        rintro _ _ (⟨⟨⟩⟩ | ⟨⟨⟩⟩)
        exact refines.places thread mutex places (.inl requested)
      next => cases stepped
  | acquire thread =>
      simp only [CDetector.step] at stepped
      split at stepped
      next mutex places locked =>
        cases stepped
        have image' : image.phase thread = .locked mutex := by rw [refines.phase, locked]; rfl
        obtain ⟨first, second⟩ := refines.places thread mutex places (.inr locked)
        refine ⟨_, by simp only [Action.forget, Deadlock.step, image']; rfl, ?_⟩
        refine refines.moveTo (refines.graph.acquire first second) .idle (fun _ _ found => found) ?_
        rintro _ _ (⟨⟨⟩⟩ | ⟨⟨⟩⟩)
      next => cases stepped
  | nativeUnlock thread mutex =>
      simp only [CDetector.step] at stepped
      split_ifs at stepped with ready
      cases stepped
      have readyImage : image.phase thread = .idle ∧ image.owner mutex = some thread := by
        rw [refines.phase, ready.1, refines.owner]
        exact ⟨rfl, ready.2⟩
      refine ⟨_, by simp only [Action.forget, Deadlock.step, if_pos readyImage]; rfl, ?_⟩
      refine (refines.setOwner mutex none).moveTo refines.graph (.unlocked mutex) (fun _ _ found => found) ?_
      rintro _ _ (⟨⟨⟩⟩ | ⟨⟨⟩⟩)
  | release thread =>
      simp only [CDetector.step] at stepped
      split at stepped
      next mutex unlocked =>
        obtain ⟨graph, released, rfl⟩ := Option.map_eq_some_iff.mp stepped
        have image' : image.phase thread = .unlocked mutex := by rw [refines.phase, unlocked]; rfl
        obtain ⟨pictures, kept⟩ := refines.graph.release released
        refine ⟨_, by simp only [Action.forget, Deadlock.step, image']; rfl, ?_⟩
        refine refines.moveTo pictures .idle kept ?_
        rintro _ _ (⟨⟨⟩⟩ | ⟨⟨⟩⟩)
      next => cases stepped

theorem Refines.run_step {actions : List (Action Thread Mutex)}
    (ran : run (CDetector.step pthreadSelf id) start actions = some state) :
    ∃ image, run (fun image action => Deadlock.step (fun thread => (threadNode pthreadSelf thread).number)
      (fun mutex => (mutexNode id mutex).number) image (Action.forget action)) initial actions = some image ∧
        Refines pthreadSelf id state image := by
  refine run_simulation ?_ start_refines ran
  intro state image action after refines stepped
  exact refines.step action stepped

/-! ### Precision -/

/-- Threads that each wait for a mutex that the next one holds, in a circle. -/
def CircularWait (wanted : Thread → Option Mutex) (owner : Mutex → Option Thread) : Prop :=
  Cyclic fun waiter holder => ∃ mutex, wanted waiter = some mutex ∧ owner mutex = some holder

/-- The edges that are recorded for a thread: to the mutex that it asks for, and from those it has taken. -/
inductive Recorded (pthreadSelf : Thread → BitVec 64) (id : Mutex → BitVec 32) (state : State Thread Mutex)
    (thread : Thread) : GraphNode → GraphNode → Prop where
  | asks (mutex : Mutex) (places : Nat × Nat)
      (stands : state.phase thread = .requested mutex places ∨ state.phase thread = .locked mutex places) :
      Recorded pthreadSelf id state thread (threadNode pthreadSelf thread) (mutexNode id mutex)
  | holds (mutex : Mutex) (stands : state.owner mutex = some thread ∨ state.phase thread = .unlocked mutex) :
      Recorded pthreadSelf id state thread (mutexNode id mutex) (threadNode pthreadSelf thread)

/-- A request returns where the table has room, and returns -1 only where waiting would close a circle;
an unlock removes no edge that is recorded for another thread. -/
structure Precise (pthreadSelf : Thread → BitVec 64) (id : Mutex → BitVec 32) (state : State Thread Mutex) : Prop where
  answers : ∀ thread mutex, state.phase thread = .idle → state.graph.nodes.length + 2 ≤ maxNodes →
    ∃ refused places graph, state.graph.request (tid pthreadSelf thread) (id mutex) = some (refused, places, graph)
  refuses : ∀ thread mutex places graph, state.phase thread = .idle →
    state.graph.request (tid pthreadSelf thread) (id mutex) = some (true, places, graph) →
      CircularWait (Function.update state.wanted thread (some mutex)) state.owner
  keeps : ∀ thread mutex after, state.phase thread = .unlocked mutex →
    step pthreadSelf id state (.release thread) = some after → ∀ other, other ≠ thread → ∀ source target,
      Recorded pthreadSelf id state other source target → state.graph.Joined source target →
        after.graph.Joined source target

omit [DecidableEq Mutex] in
theorem Refines.refuses (refines : Refines pthreadSelf id state image) (distinct : Distinct
      (fun thread => (threadNode pthreadSelf thread).number) (fun mutex => (mutexNode id mutex).number))
    (linked : Linked (fun thread => (threadNode pthreadSelf thread).number) (fun mutex => (mutexNode id mutex).number) image)
    {places : Nat × Nat} {graph : Graph} (idle : state.phase thread = .idle)
    (requested : state.graph.request (tid pthreadSelf thread) (id mutex) = some (true, places, graph)) :
    CircularWait (Function.update state.wanted thread (some mutex)) state.owner := by
  obtain ⟨⟨lockGraph, answered, _⟩, _⟩ := refines.graph.request ascending requested
  have idleImage : image.phase thread = .idle := by
    rw [refines.phase, idle]
    rfl
  obtain ⟨throws, after, same, closes, _⟩ := linked.addRequest distinct idleImage ascending mutex
  cases answered.symm.trans same
  have waits : ∀ waiter holder, (image.letWait thread mutex).WaitsFor waiter holder → ∃ wanted,
      Function.update state.wanted thread (some mutex) waiter = some wanted ∧ state.owner wanted = some holder := by
    rintro waiter holder ⟨wanted, asked, owner⟩
    refine ⟨wanted, ?_, refines.owner ▸ owner⟩
    by_cases same : waiter = thread
    · subst same
      simp only [Deadlock.State.letWait, Deadlock.State.moveTo, Function.update_self] at asked ⊢
      cases asked
      rfl
    · simp only [Deadlock.State.letWait, Deadlock.State.moveTo, Function.update_of_ne same, refines.phase] at asked ⊢
      rw [State.wanted]
      cases stands : state.phase waiter <;> rw [stands] at asked <;> cases asked
      rfl
  obtain ⟨waiter, cycle⟩ := closes.mp rfl
  exact ⟨waiter, TransGen.mono waits waiter waiter cycle⟩

theorem Refines.keeps (refines : Refines pthreadSelf id state image) (threads : Function.Injective (tid pthreadSelf))
    (unlocked : state.phase thread = .unlocked mutex) (stepped : CDetector.step pthreadSelf id state (.release thread) = some after)
    {other : Thread} (differs : other ≠ thread) {source target : GraphNode}
    (recorded : Recorded pthreadSelf id state other source target) (joined : state.graph.Joined source target) :
    after.graph.Joined source target := by
  simp only [CDetector.step, unlocked] at stepped
  obtain ⟨graph, released, rfl⟩ := Option.map_eq_some_iff.mp stepped
  obtain ⟨pictures, _⟩ := refines.graph.release released
  have edge := refines.graph.joined_iff.mp joined
  refine pictures.joined_iff.mpr (LockGraph.edge_eraseEdge.mpr ⟨edge, ?_⟩)
  rintro ⟨first, second⟩
  cases recorded with
  | asks => cases congrArg GraphNode.type (GraphNode.number_injective first)
  | holds => exact differs (threads (congrArg GraphNode.id (GraphNode.number_injective second)))

/-- Where the nodes of the threads are distinct, every state that is reached is precise. -/
theorem precise_of_distinct (threads : Function.Injective (tid pthreadSelf)) (mutexes : Function.Injective id)
    {actions : List (Action Thread Mutex)} (ran : run (step pthreadSelf id) start actions = some state) :
    Precise pthreadSelf id state := by
  obtain ⟨image, ranImage, refines⟩ := Refines.run_step ran
  have distinct := distinct_numbers threads mutexes
  have safe : Safe (fun thread => (threadNode pthreadSelf thread).number) (fun mutex => (mutexNode id mutex).number) image :=
    run_invariant _ (fun _ _ _ safe stepped => step_safe distinct _ safe stepped) initial_safe ranImage
  refine ⟨?_, ?_, ?_⟩
  · intro thread mutex _ room
    exact refines.graph.request_answers room
  · intro thread mutex places graph idle requested
    exact refines.refuses distinct safe.linked idle requested
  · intro thread mutex after unlocked stepped other differs source target recorded joined
    exact refines.keeps threads unlocked stepped differs recorded joined

/-- A mutex that is held through one node is refused to every thread of that node. -/
theorem request_held (tid id : BitVec 32) : ∃ graph,
    (Graph.mk [⟨tid, .thread⟩, ⟨id, .mutex⟩] fun row column => decide (row = 1 ∧ column = 0)).request tid id =
      some (true, (0, 1), graph) := by
  have first : ∀ adj, (Graph.mk [⟨tid, .thread⟩, ⟨id, .mutex⟩] adj).getOrCreateNode tid .thread =
      some (0, Graph.mk [⟨tid, .thread⟩, ⟨id, .mutex⟩] adj) := by
    intro adj
    simp [Graph.getOrCreateNode, List.findIdx?_cons]
  have second : ∀ adj, (Graph.mk [⟨tid, .thread⟩, ⟨id, .mutex⟩] adj).getOrCreateNode id .mutex =
      some (1, Graph.mk [⟨tid, .thread⟩, ⟨id, .mutex⟩] adj) := by
    intro adj
    simp [Graph.getOrCreateNode, List.findIdx?_cons]
  have cycle : ((Graph.mk [⟨tid, .thread⟩, ⟨id, .mutex⟩] fun row column => decide (row = 1 ∧ column = 0)).setEdge
      0 1 true).detectCycle = some true := rfl
  simp only [Graph.request, Option.bind_eq_bind, first, second, Option.bind_some, cycle]
  exact ⟨_, rfl⟩

theorem request_empty (tid id : BitVec 32) : ∃ graph, Graph.empty.request tid id = some (false, (0, 1), graph) ∧
    graph.acquire 0 1 = Graph.mk [⟨tid, .thread⟩, ⟨id, .mutex⟩] fun row column => decide (row = 1 ∧ column = 0) := by
  have first : Graph.empty.getOrCreateNode tid .thread = some (0, Graph.mk [⟨tid, .thread⟩] fun _ _ => false) := rfl
  have second : (Graph.mk [⟨tid, .thread⟩] fun _ _ => false).getOrCreateNode id .mutex =
      some (1, Graph.mk [⟨tid, .thread⟩, ⟨id, .mutex⟩] fun _ _ => false) := by
    simp [Graph.getOrCreateNode, List.findIdx?_cons, maxNodes]
  have acyclic : ((Graph.mk [⟨tid, .thread⟩, ⟨id, .mutex⟩] fun _ _ => false).setEdge 0 1 true).detectCycle =
      some false := rfl
  simp only [Graph.request, Option.bind_eq_bind, first, second, Option.bind_some, acyclic]
  refine ⟨_, rfl, ?_⟩
  simp only [Bool.false_eq_true, if_false, Graph.acquire, Graph.setEdge, Graph.mk.injEq, true_and]
  funext row column
  by_cases back : row = 1 ∧ column = 0
  · simp [back]
  · by_cases ahead : row = 0 ∧ column = 1
    · simp [ahead]
    · simp [back, ahead]

/-- Two threads of one node: what the first holds is refused to the second, though nobody waits. -/
theorem not_precise_of_shared {first second : Thread} (differs : first ≠ second)
    (shared : tid pthreadSelf first = tid pthreadSelf second) (mutex : Mutex) :
    ∃ (actions : List (Action Thread Mutex)) (state : State Thread Mutex),
      run (step pthreadSelf id) start actions = some state ∧ ¬ Precise pthreadSelf id state := by
  obtain ⟨graph, requested, acquired⟩ := request_empty (tid pthreadSelf first) (id mutex)
  let asking : State Thread Mutex := { start with graph }.moveTo first (.requested mutex (0, 1))
  let locking : State Thread Mutex := (asking.setOwner mutex (some first)).moveTo first (.locked mutex (0, 1))
  let held : State Thread Mutex := { locking with graph := graph.acquire 0 1 }.moveTo first .idle
  have idle : ∀ thread, held.phase thread = .idle := by
    intro thread
    by_cases same : thread = first
    · subst same
      exact Function.update_self ..
    · simp [held, locking, asking, State.moveTo, State.setOwner, start]
  have ran : run (step pthreadSelf id) start [.request first mutex, .nativeLock first, .acquire first] = some held := by
    refine run_cons_iff.mpr ⟨asking, ?_, run_cons_iff.mpr ⟨locking, ?_, run_cons_iff.mpr ⟨held, ?_, rfl⟩⟩⟩
    · simp only [step, start, if_true, requested]
      rfl
    · have stands : asking.phase first = .requested mutex (0, 1) := Function.update_self ..
      have free : asking.owner mutex = none := rfl
      simp only [step, stands, if_pos free]
      rfl
    · have stands : locking.phase first = .locked mutex (0, 1) := Function.update_self ..
      simp only [step, stands]
      rfl
  refine ⟨_, held, ran, fun precise => ?_⟩
  obtain ⟨refusal, refused⟩ := request_held (tid pthreadSelf first) (id mutex)
  rw [← acquired] at refused
  obtain ⟨waiter, cycle⟩ := precise.refuses second mutex (0, 1) refusal (idle second) (shared ▸ refused)
  have waits : waiter = second := by
    obtain ⟨_, ⟨wanted, asks, _⟩, _⟩ := TransGen.head'_iff.mp cycle
    by_cases same : waiter = second
    · exact same
    · rw [Function.update_of_ne same, State.wanted, idle] at asks
      cases asks
  obtain ⟨_, _, wanted, _, owner⟩ := TransGen.tail'_iff.mp cycle
  have holder : held.owner = Function.update (fun _ => none) mutex (some first) := rfl
  rw [holder, Function.update_apply] at owner
  split_ifs at owner
  exact differs ((Option.some.inj owner).trans waits)

/-- The detector is precise in every run exactly when the low halves of the thread ids are distinct. -/
theorem precise_iff_distinct [Nonempty Mutex] (mutexes : Function.Injective id) :
    (∀ (actions : List (Action Thread Mutex)) (state : State Thread Mutex),
      run (step pthreadSelf id) start actions = some state → Precise pthreadSelf id state) ↔
        Function.Injective fun thread => (pthreadSelf thread).setWidth 32 := by
  constructor
  · intro precise first second shared
    obtain ⟨mutex⟩ := ‹Nonempty Mutex›
    apply Classical.byContradiction
    intro differs
    obtain ⟨actions, state, ran, fails⟩ := not_precise_of_shared differs shared mutex
    exact fails (precise actions state ran)
  · intro threads actions state ran
    exact precise_of_distinct threads mutexes ran

theorem precise_iff_distinct_pair :
    Function.Injective (fun thread : Bool => if thread then (0x7f0000801700 : BitVec 64) else 0x7f0000000700) ∧
    ∀ (actions : List (Action Bool Unit)) (state : State Bool Unit),
      run (step (fun thread => if thread then 0x7f0000801700 else 0x7f0000000700) fun _ => 101) start actions = some state →
        Precise (fun thread => if thread then 0x7f0000801700 else 0x7f0000000700) (fun _ => 101) state :=
  ⟨by decide, (precise_iff_distinct fun _ _ _ => rfl).mpr (by decide)⟩

/-- Two threads whose ids agree in the low half. -/
theorem not_precise : ¬ ∀ (pthreadSelf : Bool → BitVec 64) (id : Unit → BitVec 32), Function.Injective pthreadSelf →
    Function.Injective id → ∀ (actions : List (Action Bool Unit)) (state : State Bool Unit),
      run (step pthreadSelf id) start actions = some state → Precise pthreadSelf id state := by
  intro precise
  let pthreadSelf : Bool → BitVec 64 := fun thread => if thread then 0x7f0100000700 else 0x7f0000000700
  obtain ⟨actions, state, ran, fails⟩ : ∃ (actions : List (Action Bool Unit)) (state : State Bool Unit),
      run (step pthreadSelf fun _ => 101) start actions = some state ∧ ¬ Precise pthreadSelf (fun _ => 101) state :=
    not_precise_of_shared (show true ≠ false by decide) (by decide) ()
  exact fails (precise pthreadSelf (fun _ => 101) (by decide) (fun _ _ _ => rfl) actions state ran)

end HundredDays.Deadlock.CDetector
