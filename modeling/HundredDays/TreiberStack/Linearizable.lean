import HundredDays.TreiberStack.Nodes
import HundredDays.Semantics.Run
import Mathlib.Data.List.Basic

namespace HundredDays.TreiberStack

open HundredDays.Data
open HundredDays.Data.Counter
open HundredDays.Semantics

/-! Any threads that push nodes of their own and pop.

A node that is not on the stack belongs to a thread or to the allocator.  Its owner
may write to it and may hand it on: to the allocator, which is `free`, or out of
it, which is `malloc`.
-/

variable {Thread : Type} [DecidableEq Thread]

inductive Event where
  | pushed (node : Node)
  /-- The pop returns this node, or NULL. -/
  | popped (node : Option Node)
deriving DecidableEq

/-- The sequential stack. -/
def apply : List Node → Thread × Event → Option (List Node)
  | nodes, (_, .pushed node) => some (node :: nodes)
  | node :: rest, (_, .popped (some top)) => if top = node then some rest else none
  | [], (_, .popped none) => some []
  | _, _ => none

inductive Phase where
  | idle
  | push (node : Node) (phase : PushPhase)
  | pop (phase : PopPhase)
deriving DecidableEq

inductive Holder (Thread : Type) where
  | stack
  | allocator
  | thread (thread : Thread)
deriving DecidableEq

structure State (Thread : Type) where
  memory : Memory Thread
  phase : Thread → Phase
  holder : Node → Holder Thread
  /-- Each operation in the step in which it takes effect. -/
  history : List (Thread × Event)
  /-- Each operation when it returns. -/
  returned : List (Thread × Event)

def State.initial (next retireNext : Node → Option Node) : State Thread :=
  { memory := stackInit next retireNext, phase := fun _ => .idle, holder := fun _ => .allocator, history := []
    returned := [] }

inductive Action (Thread : Type) where
  /-- The owner of the node writes to it and hands it on. -/
  | hand (node : Node) (receiver : Option Thread) (next retireNext : Option Node)
  | push (thread : Thread) (node : Node)
  | pop (thread : Thread)
  /-- The next step of a thread; a weak compare-and-exchange may fail for no reason. -/
  | step (thread : Thread) (spurious : Bool)

/-- A thread in the middle of an operation does nothing else with its nodes. -/
def State.free (state : State Thread) : Holder Thread → Bool
  | .stack => false
  | .allocator => true
  | .thread thread => state.phase thread = .idle

def State.stepPush (state : State Thread) (thread : Thread) (node : Node) (phase : PushPhase) (spurious : Bool) :
    State Thread :=
  match stackPush state.memory node spurious phase with
  | (memory, .returned) =>
      { memory
        phase := Function.update state.phase thread .idle
        holder := Function.update state.holder node .stack
        history := state.history ++ [(thread, .pushed node)]
        returned := state.returned ++ [(thread, .pushed node)] }
  | (memory, next) => { state with memory, phase := Function.update state.phase thread (.push node next) }

/-- A pop takes effect in the step that decides what it returns. -/
def PopPhase.effect (phase next : PopPhase) : Option (Option Node) :=
  if phase.answer = none then next.answer else none

def State.takeEffect (state : State Thread) (thread : Thread) : Option (Option Node) → State Thread
  | none => state
  | some none => { state with history := state.history ++ [(thread, .popped none)] }
  | some (some node) =>
      { state with
        holder := Function.update state.holder node (.thread thread)
        history := state.history ++ [(thread, .popped (some node))] }

def State.goOn (state : State Thread) (thread : Thread) (memory : Memory Thread) : PopPhase → State Thread
  | .returned answer =>
      { state with
        memory
        phase := Function.update state.phase thread .idle
        returned := state.returned ++ [(thread, .popped answer)] }
  | next => { state with memory, phase := Function.update state.phase thread (.pop next) }

def State.stepPop (state : State Thread) (thread : Thread) (phase : PopPhase) (spurious : Bool) :
    Option (State Thread) :=
  (stackPop state.memory thread spurious phase).map fun result =>
    (state.takeEffect thread (phase.effect result.2)).goOn thread result.1 result.2

def step (state : State Thread) : Action Thread → Option (State Thread)
  | .hand node receiver next retireNext =>
      if state.free (state.holder node) then
        some { state with
          memory := { state.memory with
            next := Function.update state.memory.next node next
            retireNext := Function.update state.memory.retireNext node retireNext }
          holder := Function.update state.holder node (receiver.elim .allocator .thread) }
      else none
  | .push thread node =>
      if state.phase thread = .idle ∧ state.holder node = .thread thread then
        some { state with phase := Function.update state.phase thread (.push node .called) }
      else none
  | .pop thread =>
      if state.phase thread = .idle then
        some { state with phase := Function.update state.phase thread (.pop .called) }
      else none
  | .step thread spurious =>
      match state.phase thread with
      | .push node phase => some (state.stepPush thread node phase spurious)
      | .pop phase => state.stepPop thread phase spurious
      | .idle => none

/-- How often the history exchanged the head. -/
def swaps (history : List (Thread × Event)) : Nat :=
  history.countP fun entry => entry.2 ≠ .popped none

/-- What an operation will return that has taken effect. -/
def Phase.answer : Phase → Option Event
  | pop phase => phase.answer.map .popped
  | _ => none

def PhaseSound (memory : Memory Thread) (holder : Node → Holder Thread) (swaps : Nat) (thread : Thread) :
    Phase → Prop
  | .idle => True
  | .push node phase => holder node = .thread thread ∧ phase ≠ .returned ∧ PushSound memory node phase
  | .pop phase => PopSound memory swaps phase

structure Sound (state : State Thread) (nodes : List Node) : Prop where
  represents : Represents state.memory nodes (swaps state.history)
  legal : run apply [] state.history = some nodes
  holders : ∀ node, state.holder node = .stack ↔ node ∈ nodes
  phases : ∀ thread, PhaseSound state.memory state.holder (swaps state.history) thread (state.phase thread)
  answers : ∀ thread, state.history.filter (fun entry => entry.1 = thread) =
    state.returned.filter (fun entry => entry.1 = thread) ++
      (state.phase thread).answer.toList.map fun event => (thread, event)

variable {state after : State Thread} {memory newMemory : Memory Thread} {nodes : List Node} {node : Node}
  {holder newHolder : Node → Holder Thread} {count : Nat} {thread : Thread} {phase : Phase} {spurious : Bool}

theorem initial_sound (next retireNext : Node → Option Node) :
    Sound (State.initial next retireNext : State Thread) [] := by
  constructor
  · exact Represents.init next retireNext
  · rfl
  · intro node
    simp [State.initial]
  · intro thread
    trivial
  · intro thread
    rfl

namespace PhaseSound

omit [DecidableEq Thread] in
/-- Another thread leaves the stack and the node of this thread as they are. -/
theorem congr (sound : PhaseSound memory holder count thread phase) (head : newMemory.head = memory.head)
    (link : ∀ node, memory.head.ptr = some node → newMemory.next node = memory.next node)
    (own : ∀ node pushing, phase = .push node pushing → holder node = .thread thread →
      newMemory.next node = memory.next node ∧ newHolder node = .thread thread) :
    PhaseSound newMemory newHolder count thread phase := by
  cases phase with
  | idle => trivial
  | push node pushing =>
      obtain ⟨held, live, known⟩ := sound
      obtain ⟨same, kept⟩ := own node pushing rfl held
      refine ⟨kept, live, ?_⟩
      cases pushing with
      | linked old => exact same.trans known
      | _ => trivial
  | pop popping => exact PopSound.congr sound head link

omit [DecidableEq Thread] in
/-- Another thread exchanges the head. -/
theorem exchanged (sound : PhaseSound memory holder count thread phase) (next : newMemory.next = memory.next)
    (own : ∀ node, holder node = .thread thread → newHolder node = .thread thread) :
    PhaseSound newMemory newHolder (count + 1) thread phase := by
  cases phase with
  | idle => trivial
  | push node pushing =>
      obtain ⟨held, live, known⟩ := sound
      refine ⟨own node held, live, ?_⟩
      cases pushing with
      | linked old => exact (congrFun next node).trans known
      | _ => trivial
  | pop popping => exact PopSound.exchanged sound newMemory

end PhaseSound

omit [DecidableEq Thread] in
theorem swaps_concat (history : List (Thread × Event)) (entry : Thread × Event) :
    swaps (history ++ [entry]) = swaps history + if entry.2 = .popped none then 0 else 1 := by
  by_cases empty : entry.2 = .popped none <;> simp [swaps, List.countP_append, empty]

theorem answers_other {history returned : List (Thread × Event)} {other : Thread} (different : other ≠ thread)
    {answer : Option Event} (more moreReturned : List (Thread × Event))
    (answers : history.filter (fun entry => entry.1 = other) =
      returned.filter (fun entry => entry.1 = other) ++ answer.toList.map fun event => (other, event))
    (mine : ∀ entry ∈ more, entry.1 = thread) (mineReturned : ∀ entry ∈ moreReturned, entry.1 = thread) :
    (history ++ more).filter (fun entry => entry.1 = other) =
      (returned ++ moreReturned).filter (fun entry => entry.1 = other) ++
        answer.toList.map fun event => (other, event) := by
  have none_ : ∀ entries : List (Thread × Event), (∀ entry ∈ entries, entry.1 = thread) →
      entries.filter (fun entry => entry.1 = other) = [] := by
    intro entries only
    rw [List.filter_eq_nil_iff]
    intro entry inside
    simpa [only entry inside] using different.symm
  rw [List.filter_append, List.filter_append, none_ more mine, none_ moreReturned mineReturned, List.append_nil,
    List.append_nil, answers]

namespace Sound

theorem head_mem (sound : Sound state nodes) (top : state.memory.head.ptr = some node) : node ∈ nodes := by
  have start := sound.represents.chain.start_eq_head?
  rw [top] at start
  exact List.mem_of_mem_head? start.symm

theorem hand (sound : Sound state nodes) {next retireNext : Option Node} {receiver : Holder Thread}
    (free : state.free (state.holder node) = true) (away : receiver ≠ .stack) :
    Sound { state with
      memory := { state.memory with
        next := Function.update state.memory.next node next
        retireNext := Function.update state.memory.retireNext node retireNext }
      holder := Function.update state.holder node receiver } nodes := by
  have outside : node ∉ nodes := by
    intro inside
    rw [(sound.holders node).mpr inside] at free
    cases free
  have apart : ∀ other ∈ nodes, other ≠ node := fun other inside same => outside (same ▸ inside)
  constructor
  · refine sound.represents.congr rfl ?_
    intro member inside
    exact Function.update_of_ne (apart member inside) _ _
  · exact sound.legal
  · intro other
    by_cases here : other = node
    · rw [here]
      simp [away, outside]
    · simp only [Function.update_of_ne here]
      exact sound.holders other
  · intro thread
    refine (sound.phases thread).congr rfl ?_ ?_
    · intro top first
      exact Function.update_of_ne (apart top (sound.head_mem first)) _ _
    · intro other pushing busy held
      have different : other ≠ node := by
        intro same
        rw [← same, held] at free
        simp [State.free, busy] at free
      exact ⟨Function.update_of_ne different _ _, (Function.update_of_ne different _ _).trans held⟩
  · exact sound.answers

/-- The other threads do not notice how this one goes on. -/
theorem advance (sound : Sound state nodes) (next : Phase) (head : newMemory.head = state.memory.head)
    (links : newMemory.next = state.memory.next)
    (known : PhaseSound newMemory state.holder (swaps state.history) thread next)
    (returned : List (Thread × Event)) (mine : ∀ entry ∈ returned, entry.1 = thread)
    (answered : (state.phase thread).answer.toList.map (fun event => (thread, event)) =
      returned ++ next.answer.toList.map fun event => (thread, event)) :
    Sound { state with
      memory := newMemory
      phase := Function.update state.phase thread next
      returned := state.returned ++ returned } nodes := by
  constructor
  · exact sound.represents.congr head fun node _ => congrFun links node
  · exact sound.legal
  · exact sound.holders
  · refine (Function.forall_update_iff state.phase fun thread phase => PhaseSound _ _ _ thread phase).mpr
      ⟨known, ?_⟩
    intro other _
    exact (sound.phases other).congr head (fun node _ => congrFun links node)
      fun node _ _ held => ⟨congrFun links node, held⟩
  · intro other
    by_cases here : other = thread
    · have only : returned.filter (fun entry => entry.1 = thread) = returned := by
        rw [List.filter_eq_self]
        simpa using mine
      simp only [here, sound.answers thread, answered, List.filter_append, only, List.append_assoc,
        Function.update_self]
    · simp only [Function.update_of_ne here]
      have answers := answers_other here [] returned (sound.answers other) (by simp) mine
      rwa [List.append_nil] at answers

/-- A thread that calls an operation. -/
theorem call (sound : Sound state nodes) (idle : state.phase thread = .idle)
    (known : PhaseSound state.memory state.holder (swaps state.history) thread phase) (new : phase.answer = none) :
    Sound { state with phase := Function.update state.phase thread phase } nodes := by
  have advanced := sound.advance phase rfl rfl known [] (by simp) (by rw [idle, new]; rfl)
  simpa using advanced

theorem stepPush {pushing : PushPhase} (sound : Sound state nodes) (busy : state.phase thread = .push node pushing) :
    ∃ nodes, Sound (state.stepPush thread node pushing spurious) nodes := by
  have known := sound.phases thread
  rw [busy] at known
  obtain ⟨held, live, linked⟩ := known
  have outside : node ∉ nodes := by
    intro inside
    rw [(sound.holders node).mpr inside] at held
    cases held
  have answers := sound.answers thread
  rw [busy] at answers
  generalize result : stackPush state.memory node spurious pushing = stepped
  obtain ⟨memory, next⟩ := stepped
  obtain ⟨rfl, ready, rfl⟩ | ⟨unfinished, linkedNow, link, rfl⟩ := stackPush_spec linked live result
  · refine ⟨node :: nodes, ?_⟩
    simp only [State.stepPush, result]
    constructor
    · rw [swaps_concat]
      exact sound.represents.push outside ready
    · exact run_concat_iff.mpr ⟨nodes, sound.legal, rfl⟩
    · intro other
      by_cases here : other = node
      · simp [here]
      · simp only [Function.update_of_ne here, List.mem_cons, here, false_or]
        exact sound.holders other
    · refine (Function.forall_update_iff state.phase fun thread phase => PhaseSound _ _ _ thread phase).mpr
        ⟨trivial, ?_⟩
      intro other different
      rw [swaps_concat]
      refine (sound.phases other).exchanged rfl ?_
      intro own heldOther
      have apart : own ≠ node := by
        intro same
        rw [same, held] at heldOther
        exact different (Holder.thread.inj heldOther).symm
      exact (Function.update_of_ne apart _ _).trans heldOther
    · intro other
      by_cases here : other = thread
      · rw [here]
        simp only [Function.update_self, List.filter_append, answers]
        simp [Phase.answer]
      · simp only [Function.update_of_ne here]
        exact answers_other here [_] [_] (sound.answers other) (by simp) (by simp)
  · refine ⟨nodes, ?_⟩
    have shape : state.stepPush thread node pushing spurious = { state with
        memory := { state.memory with next := Function.update state.memory.next node link }
        phase := Function.update state.phase thread (.push node next) } := by
      cases next with
      | returned => exact absurd rfl unfinished
      | _ => simp only [State.stepPush, result]
    rw [shape]
    have apart : ∀ other ∈ nodes, other ≠ node := fun other inside same => outside (same ▸ inside)
    constructor
    · refine sound.represents.congr rfl ?_
      intro member inside
      exact Function.update_of_ne (apart member inside) _ _
    · exact sound.legal
    · exact sound.holders
    · refine (Function.forall_update_iff state.phase fun thread phase => PhaseSound _ _ _ thread phase).mpr
        ⟨⟨held, unfinished, linkedNow⟩, ?_⟩
      intro other different
      refine (sound.phases other).congr rfl ?_ ?_
      · intro top first
        exact Function.update_of_ne (apart top (sound.head_mem first)) _ _
      · intro own _ _ heldOther
        have differs : own ≠ node := by
          intro same
          rw [same, held] at heldOther
          exact different (Holder.thread.inj heldOther).symm
        exact ⟨Function.update_of_ne differs _ _, heldOther⟩
    · intro other
      by_cases here : other = thread
      · rw [here]
        simpa [Phase.answer] using answers
      · simp only [Function.update_of_ne here]
        exact sound.answers other

/-- A pop takes the first node. -/
theorem take {rest : List Node} {popping : PopPhase} (sound : Sound state (node :: rest))
    (busy : state.phase thread = .pop popping) (undecided : popping.answer = none) :
    Sound { state with
      memory := { state.memory with head := { ptr := state.memory.next node, tag := state.memory.head.tag + 1 } }
      phase := Function.update state.phase thread (.pop (.taken node))
      holder := Function.update state.holder node (.thread thread)
      history := state.history ++ [(thread, .popped (some node))] } rest := by
  have answers := sound.answers thread
  rw [busy, Phase.answer, undecided] at answers
  have fresh : node ∉ rest := (List.nodup_cons.mp sound.represents.distinct).1
  constructor
  · rw [swaps_concat]
    exact sound.represents.pop
  · exact run_concat_iff.mpr ⟨node :: rest, sound.legal, by simp [apply]⟩
  · intro other
    by_cases here : other = node
    · simp [here, fresh]
    · simp only [Function.update_of_ne here]
      rw [sound.holders other, List.mem_cons, or_iff_right here]
  · refine (Function.forall_update_iff state.phase fun thread phase => PhaseSound _ _ _ thread phase).mpr
      ⟨trivial, ?_⟩
    intro other _
    rw [swaps_concat]
    refine (sound.phases other).exchanged rfl ?_
    intro own held
    have apart : own ≠ node := by
      intro same
      rw [same, (sound.holders node).mpr (by simp)] at held
      cases held
    exact (Function.update_of_ne apart _ _).trans held
  · intro other
    by_cases here : other = thread
    · rw [here]
      simp only [List.filter_append, answers, Function.update_self]
      simp [Phase.answer, PopPhase.answer]
    · simp only [Function.update_of_ne here]
      simpa using answers_other here [_] [] (sound.answers other) (by simp) (by simp)

/-- A pop finds the stack empty. -/
theorem findEmpty {popping : PopPhase} (sound : Sound state []) (busy : state.phase thread = .pop popping)
    (undecided : popping.answer = none) :
    Sound { state with
      phase := Function.update state.phase thread (.pop .empty)
      history := state.history ++ [(thread, .popped none)] } [] := by
  have answers := sound.answers thread
  rw [busy, Phase.answer, undecided] at answers
  have same : swaps (state.history ++ [(thread, .popped none)]) = swaps state.history := by
    rw [swaps_concat, if_pos rfl, Nat.add_zero]
  constructor
  · rw [same]
    exact sound.represents
  · exact run_concat_iff.mpr ⟨[], sound.legal, rfl⟩
  · exact sound.holders
  · rw [same]
    exact (Function.forall_update_iff state.phase fun thread phase => PhaseSound _ _ _ thread phase).mpr
      ⟨trivial, fun other _ => sound.phases other⟩
  · intro other
    by_cases here : other = thread
    · rw [here]
      simp only [List.filter_append, answers, Function.update_self]
      simp [Phase.answer, PopPhase.answer]
    · simp only [Function.update_of_ne here]
      simpa using answers_other here [_] [] (sound.answers other) (by simp) (by simp)

theorem stepPop {popping : PopPhase} (sound : Sound state nodes) (busy : state.phase thread = .pop popping)
    (few : swaps state.history < 2 ^ 64) (stepped : state.stepPop thread popping spurious = some after) :
    ∃ nodes, Sound after nodes := by
  have known := sound.phases thread
  rw [busy] at known
  obtain ⟨⟨memory, next⟩, popped, made⟩ := Option.map_eq_some_iff.mp stepped
  obtain ⟨node, rest, rfl, undecided, rfl, rfl⟩ | ⟨rfl, undecided, rfl, rfl⟩ | ⟨decided, knows, head, links⟩ :=
    stackPop_spec sound.represents few known popped
  · have effect : popping.effect (.taken node) = some (some node) := if_pos undecided
    rw [effect] at made
    subst after
    exact ⟨rest, sound.take busy undecided⟩
  · have effect : popping.effect .empty = some none := if_pos undecided
    rw [effect] at made
    subst after
    exact ⟨[], sound.findEmpty busy undecided⟩
  · have effect : popping.effect next = none := by
      rw [PopPhase.effect, decided]
      split <;> simp_all
    rw [effect] at made
    have answered : (state.phase thread).answer = next.answer.map Event.popped := by
      rw [busy, Phase.answer, decided]
    subst after
    by_cases finished : ∃ answer, next = .returned answer
    · obtain ⟨answer, rfl⟩ := finished
      exact ⟨nodes, sound.advance .idle head links trivial [(thread, .popped answer)] (by simp)
        (by rw [answered]; rfl)⟩
    · have goesOn : state.goOn thread memory next =
          { state with memory, phase := Function.update state.phase thread (.pop next) } := by
        cases next with
        | returned answer => exact absurd ⟨answer, rfl⟩ finished
        | _ => rfl
      have advanced := sound.advance (.pop next) head links knows [] (by simp) (by rw [answered]; rfl)
      rw [List.append_nil] at advanced
      exact ⟨nodes, goesOn ▸ advanced⟩

end Sound

theorem step_sound {action : Action Thread} (sound : Sound state nodes) (few : swaps state.history < 2 ^ 64)
    (stepped : step state action = some after) : ∃ nodes, Sound after nodes := by
  cases action with
  | hand node receiver next retireNext =>
      simp only [step] at stepped
      split at stepped <;> cases stepped
      next free => exact ⟨nodes, sound.hand free (by cases receiver <;> simp)⟩
  | push thread node =>
      simp only [step] at stepped
      split at stepped <;> cases stepped
      next ready => exact ⟨nodes, sound.call ready.1 ⟨ready.2, by simp, trivial⟩ rfl⟩
  | pop thread =>
      simp only [step] at stepped
      split at stepped <;> cases stepped
      next idle => exact ⟨nodes, sound.call idle trivial rfl⟩
  | step thread spurious =>
      simp only [step] at stepped
      split at stepped
      next node phase busy =>
        cases stepped
        exact sound.stepPush busy
      next phase busy => exact sound.stepPop busy few stepped
      next => cases stepped

theorem step_history {action : Action Thread} (stepped : step state action = some after) :
    state.history <+: after.history := by
  cases action with
  | hand node receiver next retireNext =>
      simp only [step] at stepped
      split at stepped <;> cases stepped
      exact List.prefix_refl _
  | push thread node =>
      simp only [step] at stepped
      split at stepped <;> cases stepped
      exact List.prefix_refl _
  | pop thread =>
      simp only [step] at stepped
      split at stepped <;> cases stepped
      exact List.prefix_refl _
  | step thread spurious =>
      simp only [step] at stepped
      split at stepped
      next node phase busy =>
        cases stepped
        unfold State.stepPush
        split
        · exact List.prefix_append _ _
        · exact List.prefix_refl _
      next phase busy =>
        obtain ⟨result, _, made⟩ := Option.map_eq_some_iff.mp stepped
        subst after
        have same : ∀ state : State Thread, (state.goOn thread result.1 result.2).history = state.history := by
          intro state
          unfold State.goOn
          split <;> rfl
        rw [same]
        unfold State.takeEffect
        split
        · exact List.prefix_refl _
        · exact List.prefix_append _ _
        · exact List.prefix_append _ _
      next => cases stepped

/-- What linearizes the operations: they take effect one after another as on a
sequential stack, and return what they returned there. -/
structure Linearized (state : State Thread) (nodes : List Node) : Prop where
  legal : run apply [] state.history = some nodes
  chain : Chain state.memory.next state.memory.head.ptr nodes
  distinct : nodes.Nodup
  /-- No node is lost, and none is on the stack that is not its own. -/
  holders : ∀ node, state.holder node = .stack ↔ node ∈ nodes
  /-- An operation that is not finished has taken effect at most once. -/
  answers : ∀ thread, state.history.filter (fun entry => entry.1 = thread) =
    state.returned.filter (fun entry => entry.1 = thread) ++
      (state.phase thread).answer.toList.map fun event => (thread, event)

theorem run_sound {next retireNext : Node → Option Node} {actions : List (Action Thread)}
    (completed : run step (State.initial next retireNext) actions = some state)
    (few : state.history.length < 2 ^ 64) : ∃ nodes, Sound state nodes := by
  refine run_invariant (fun state : State Thread => state.history.length < 2 ^ 64 → ∃ nodes, Sound state nodes) ?_
    (fun _ => ⟨[], initial_sound next retireNext⟩) completed few
  intro state action after earlier stepped few
  have grows := (step_history stepped).length_le
  obtain ⟨nodes, sound⟩ := earlier (by omega)
  exact step_sound sound (Nat.lt_of_le_of_lt List.countP_le_length (by omega)) stepped

/-- Every run in which fewer than `2 ^ 64` operations take effect is linearizable. -/
theorem stack_linearizable (next retireNext : Node → Option Node) (actions : List (Action Thread))
    (completed : run step (State.initial next retireNext) actions = some state)
    (few : state.history.length < 2 ^ 64) : ∃ nodes, Linearized state nodes := by
  obtain ⟨nodes, sound⟩ := run_sound completed few
  exact ⟨nodes, sound.legal, sound.represents.chain, sound.represents.distinct, sound.holders, sound.answers⟩

/-- The schedule against the tag: while a pop is about to exchange the head, its node is
popped, freed, allocated and pushed again at the same address. -/
def reusedAddress : List (Action (Fin 2)) :=
  let steps := fun thread count => List.replicate count (.step thread false)
  [.hand 7 (some 0) none none, .hand 8 (some 0) none none] ++
    .push 0 8 :: steps 0 3 ++ .push 0 7 :: steps 0 3 ++ .pop 1 :: steps 1 5 ++
    .pop 0 :: steps 0 7 ++ .pop 0 :: steps 0 7 ++
    [.hand 7 none none none, .hand 7 (some 0) none none] ++ .push 0 7 :: steps 0 3 ++ steps 1 7

theorem stack_linearizable_reused_address :
    ∃ state nodes, run step (State.initial (fun _ => none) fun _ => none) reusedAddress = some state ∧
      state.history = [(0, .pushed 8), (0, .pushed 7), (0, .popped (some 7)), (0, .popped (some 8)),
        (0, .pushed 7), (1, .popped (some 7))] ∧ Linearized state nodes := by
  have finishes : (run step (State.initial (fun _ => none) fun _ => none) reusedAddress).map State.history =
      some [(0, .pushed 8), (0, .pushed 7), (0, .popped (some 7)), (0, .popped (some 8)), (0, .pushed 7),
        (1, .popped (some 7))] := by
    decide +kernel
  obtain ⟨state, ran, history⟩ := Option.map_eq_some_iff.mp finishes
  obtain ⟨nodes, linearized⟩ :=
    stack_linearizable (fun _ => none) (fun _ => none) reusedAddress ran (by rw [history]; decide)
  exact ⟨state, nodes, ran, history, linearized⟩

end HundredDays.TreiberStack
