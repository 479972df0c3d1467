import HundredDays.Semantics.Run
import HundredDays.StealStack.Model
import Mathlib.Data.List.Induction

namespace HundredDays.StealStack

open HundredDays.Data HundredDays.Semantics

/-! Each steal takes what was pushed since the one before.

A push succeeds only when the tail of its chain links to the head, so what is installed is right even if
the head is an old node at a new place.
-/

variable {Thread : Type}

/-- What is on the stack after the history, and the stolen chains; the newest first. -/
def parts (history : List (Thread × Event)) : List Node × List (List Node) :=
  history.foldl
    (fun parts entry =>
      match entry.2 with
      | .pushed chain => (chain ++ parts.1, parts.2)
      | .stolen _ => ([], parts.1 :: parts.2))
    ([], [])

/-- The nodes pushed since the last steal, the newest first. -/
def content (history : List (Thread × Event)) : List Node := (parts history).1

def stolenChains (history : List (Thread × Event)) : List (List Node) := (parts history).2

/-- All nodes ever pushed, the newest first. -/
def pushedNodes (history : List (Thread × Event)) : List Node :=
  history.foldl
    (fun nodes entry =>
      match entry.2 with
      | .pushed chain => chain ++ nodes
      | .stolen _ => nodes)
    []

section Histories

variable {history : List (Thread × Event)} {thread : Thread} {chain : List Node} {pointer : Option Node}

@[simp] theorem content_pushed : content (history ++ [(thread, .pushed chain)]) = chain ++ content history := by
  rw [content, parts, List.foldl_concat]
  rfl

@[simp] theorem content_stolen : content (history ++ [(thread, .stolen pointer)]) = [] := by
  rw [content, parts, List.foldl_concat]

@[simp] theorem pushedNodes_pushed :
    pushedNodes (history ++ [(thread, .pushed chain)]) = chain ++ pushedNodes history := by
  rw [pushedNodes, List.foldl_concat]
  rfl

@[simp] theorem pushedNodes_stolen : pushedNodes (history ++ [(thread, .stolen pointer)]) = pushedNodes history := by
  rw [pushedNodes, List.foldl_concat]
  rfl

theorem stolenChains_pushed : stolenChains (history ++ [(thread, .pushed chain)]) = stolenChains history := by
  rw [stolenChains, parts, List.foldl_concat]
  rfl

theorem stolenChains_stolen :
    stolenChains (history ++ [(thread, .stolen pointer)]) = content history :: stolenChains history := by
  rw [stolenChains, parts, List.foldl_concat]
  rfl

/-- Every pushed node is in one stolen chain or still on the stack. -/
theorem pushedNodes_split (history : List (Thread × Event)) :
    pushedNodes history = content history ++ (stolenChains history).flatten := by
  induction history using List.reverseRecOn with
  | nil => rfl
  | append_singleton history entry ih =>
      obtain ⟨thread, event⟩ := entry
      cases event with
      | pushed chain => rw [pushedNodes_pushed, content_pushed, stolenChains_pushed, ih, List.append_assoc]
      | stolen pointer =>
          rw [pushedNodes_stolen, content_stolen, stolenChains_stolen, ih, List.flatten_cons, List.nil_append]

end Histories

/-- What a thread owns in the middle of a push. -/
def PhaseSound (next : Node → Option Node) (holder : Node → Holder Thread) (thread : Thread) : Phase → Prop
  | .idle => True
  | .push before chain_tail phase =>
      (before ++ [chain_tail]).Nodup ∧ (∀ node ∈ before ++ [chain_tail], holder node = .thread thread) ∧
        Strand next (before ++ [chain_tail]) ∧ phase ≠ .returned

structure Sound (state : State Thread) : Prop where
  chain : Chain state.memory.next state.memory.head (content state.history)
  distinct : (content state.history).Nodup
  holders : ∀ node, state.holder node = .stack ↔ node ∈ content state.history
  phases : ∀ thread, PhaseSound state.memory.next state.holder thread (state.phase thread)

variable {state after : State Thread} {thread other : Thread} {node : Node} {phase : Phase}
  {next links : Node → Option Node} {holder given : Node → Holder Thread}

theorem initial_sound (next : Node → Option Node) : Sound (State.initial next : State Thread) := by
  refine ⟨rfl, List.nodup_nil, ?_, fun _ => trivial⟩
  intro node
  simp [State.initial, content, parts]

/-- The thread keeps its nodes and their links. -/
theorem PhaseSound.congr (sound : PhaseSound next holder thread phase)
    (own : ∀ before chain_tail pushing, phase = .push before chain_tail pushing → ∀ node ∈ before ++ [chain_tail],
      holder node = .thread thread → given node = .thread thread ∧ (node ∈ before → links node = next node)) :
    PhaseSound links given thread phase := by
  cases phase with
  | idle => trivial
  | push before chain_tail pushing =>
      obtain ⟨distinct, held, strand, live⟩ := sound
      refine ⟨distinct, ?_, ?_, live⟩
      · intro node inside
        exact (own before chain_tail pushing rfl node inside (held node inside)).1
      · refine strand.congr fun node inside => ?_
        have within := List.mem_append_left [chain_tail] inside
        exact (own before chain_tail pushing rfl node within (held node within)).2 inside

variable [DecidableEq Thread]

namespace Sound

omit [DecidableEq Thread] in
theorem hand {receiver : Holder Thread} {value : Option Node} (sound : Sound state)
    (free : state.free (state.holder node) = true) (away : receiver ≠ .stack) :
    Sound { state with
      memory := { state.memory with next := Function.update state.memory.next node value }
      holder := Function.update state.holder node receiver } := by
  have outside : node ∉ content state.history := by
    intro inside
    rw [(sound.holders node).mpr inside] at free
    cases free
  refine ⟨sound.chain.update_outside outside, sound.distinct, ?_, ?_⟩
  · refine (Function.forall_update_iff _ fun each (holder : Holder Thread) =>
      holder = .stack ↔ each ∈ content state.history).mpr
      ⟨⟨fun same => absurd same away, fun inside => absurd inside outside⟩, fun each _ => sound.holders each⟩
  · intro thread
    refine (sound.phases thread).congr fun before chain_tail pushing busy each _ held => ?_
    have different : each ≠ node := by
      intro same
      rw [← same, held] at free
      simp [State.free, busy] at free
    exact ⟨(Function.update_of_ne different _ _).trans held, fun _ => Function.update_of_ne different _ _⟩

theorem call {before : List Node} {chain_tail : Node} (sound : Sound state)
    (distinct : (before ++ [chain_tail]).Nodup)
    (held : ∀ node ∈ before ++ [chain_tail], state.holder node = .thread thread)
    (strand : Strand state.memory.next (before ++ [chain_tail])) :
    Sound { state with phase := Function.update state.phase thread (.push before chain_tail .called) } := by
  refine ⟨sound.chain, sound.distinct, sound.holders, ?_⟩
  exact (Function.forall_update_iff _ fun each phase => PhaseSound state.memory.next state.holder each phase).mpr
    ⟨⟨distinct, held, strand, by simp⟩, fun each _ => sound.phases each⟩

/-- Linking the tail changes nothing for anybody else. -/
theorem link {before : List Node} {chain_tail : Node} {pushing : PushPhase} {value : Option Node} (sound : Sound state)
    (busy : state.phase thread = .push before chain_tail pushing) :
    Sound { state with
      memory := { state.memory with next := Function.update state.memory.next chain_tail value }
      phase := Function.update state.phase thread (.push before chain_tail .linked) } := by
  have mine := sound.phases thread
  rw [busy] at mine
  obtain ⟨distinct, held, strand, _⟩ := mine
  have tailHeld := held chain_tail (by simp)
  have outside : chain_tail ∉ content state.history := by
    intro inside
    rw [(sound.holders chain_tail).mpr inside] at tailHeld
    cases tailHeld
  have apart : ∀ node ∈ before, node ≠ chain_tail := by
    intro node inside same
    exact (List.nodup_append.mp distinct).2.2 node inside chain_tail (by simp) same
  refine ⟨sound.chain.update_outside outside, sound.distinct, sound.holders, ?_⟩
  refine (Function.forall_update_iff _ fun each phase =>
    PhaseSound (Function.update state.memory.next chain_tail value) state.holder each phase).mpr ⟨?_, ?_⟩
  · refine ⟨distinct, held, strand.congr fun node inside => ?_, by simp⟩
    exact Function.update_of_ne (apart node inside) _ _
  · intro other different
    refine (sound.phases other).congr fun _ _ _ _ node _ owned => ⟨owned, fun _ => ?_⟩
    have elsewhere : node ≠ chain_tail := by
      intro same
      rw [same, tailHeld] at owned
      exact different (Holder.thread.inj owned).symm
    exact Function.update_of_ne elsewhere _ _

/-- The exchange installs the chain in front of what the tail links to. -/
theorem install {before : List Node} {chain_tail : Node} {pushing : PushPhase} (sound : Sound state)
    (busy : state.phase thread = .push before chain_tail pushing)
    (linked : state.memory.head = state.memory.next chain_tail) :
    Sound
      { memory := { state.memory with head := some (before.headD chain_tail) }
        phase := Function.update state.phase thread .idle
        holder := fun node => if node ∈ before ++ [chain_tail] then .stack else state.holder node
        history := state.history ++ [(thread, .pushed (before ++ [chain_tail]))] } := by
  have mine := sound.phases thread
  rw [busy] at mine
  obtain ⟨distinct, held, strand, _⟩ := mine
  have fresh : ∀ node ∈ before ++ [chain_tail], node ∉ content state.history := by
    intro node inside stacked
    have owned := held node inside
    rw [(sound.holders node).mpr stacked] at owned
    cases owned
  constructor
  · rw [content_pushed, List.append_assoc, List.singleton_append]
    refine strand.chain ?_
    rw [← linked]
    exact sound.chain
  · rw [content_pushed]
    refine List.nodup_append.mpr ⟨distinct, sound.distinct, fun first inside second stacked same => ?_⟩
    exact fresh first inside (same ▸ stacked)
  · intro node
    show (if node ∈ before ++ [chain_tail] then Holder.stack else state.holder node) = .stack ↔ _
    have split : node ∈ before ++ [chain_tail] ++ content state.history ↔
        node ∈ before ++ [chain_tail] ∨ node ∈ content state.history := List.mem_append
    rw [content_pushed, split]
    by_cases inside : node ∈ before ++ [chain_tail]
    · exact ⟨fun _ => .inl inside, fun _ => if_pos inside⟩
    · rw [if_neg inside, sound.holders node]
      exact ⟨.inr, fun either => either.resolve_left inside⟩
  · refine (Function.forall_update_iff _ fun each phase => PhaseSound state.memory.next _ each phase).mpr
      ⟨trivial, ?_⟩
    intro other different
    refine (sound.phases other).congr fun _ _ _ _ node _ owned => ⟨?_, fun _ => rfl⟩
    have outside : node ∉ before ++ [chain_tail] := by
      intro inside
      rw [held node inside] at owned
      exact different (Holder.thread.inj owned).symm
    exact (if_neg outside).trans owned

theorem steal (sound : Sound state) (thread : Thread) :
    Sound { state with
      memory := { state.memory with head := none }
      holder := fun node => if state.holder node = .stack then .thread thread else state.holder node
      history := state.history ++ [(thread, .stolen state.memory.head)] } := by
  constructor
  · rw [content_stolen]
    rfl
  · rw [content_stolen]
    exact List.nodup_nil
  · intro node
    rw [content_stolen]
    by_cases stacked : state.holder node = .stack
    · simp [stacked]
    · simp [stacked]
  · intro other
    refine (sound.phases other).congr fun _ _ _ _ node _ owned => ⟨?_, fun _ => rfl⟩
    have outside : state.holder node ≠ .stack := by
      rw [owned]
      simp
    exact (if_neg outside).trans owned

theorem stepPush {before : List Node} {chain_tail : Node} {pushing : PushPhase} {spurious : Bool}
    (sound : Sound state) (busy : state.phase thread = .push before chain_tail pushing) :
    Sound (state.stepPush thread before chain_tail spurious pushing) := by
  have mine := sound.phases thread
  rw [busy] at mine
  obtain ⟨distinct, held, strand, live⟩ := mine
  have waits : ∀ next : PushPhase, next ≠ .returned →
      Sound { state with phase := Function.update state.phase thread (.push before chain_tail next) } := by
    intro next unfinished
    refine ⟨sound.chain, sound.distinct, sound.holders, ?_⟩
    exact (Function.forall_update_iff _ fun each phase => PhaseSound state.memory.next state.holder each phase).mpr
      ⟨⟨distinct, held, strand, unfinished⟩, fun each _ => sound.phases each⟩
  cases pushing with
  | called => exact waits _ (by simp)
  | loaded expected => exact sound.link busy
  | returned => exact absurd rfl live
  | linked =>
      simp only [State.stepPush, push]
      by_cases won : state.memory.head = state.memory.next chain_tail ∧ spurious = false
      · rw [if_pos won]
        exact sound.install busy won.1
      · rw [if_neg won]
        exact waits _ (by simp)

theorem step {action : Action Thread} (sound : Sound state) (stepped : StealStack.step state action = some after) :
    Sound after := by
  cases action with
  | hand node receiver value =>
      simp only [StealStack.step] at stepped
      split at stepped <;> cases stepped
      next free => exact sound.hand free (by cases receiver <;> simp)
  | push thread before chain_tail =>
      simp only [StealStack.step] at stepped
      split at stepped <;> cases stepped
      next ready => exact sound.call ready.2.1 ready.2.2.1 ready.2.2.2
  | step thread spurious =>
      simp only [StealStack.step] at stepped
      split at stepped <;> cases stepped
      next before chain_tail pushing busy => exact sound.stepPush busy
  | steal thread =>
      simp only [StealStack.step] at stepped
      split at stepped <;> cases stepped
      exact sound.steal thread

end Sound

/-- A steal takes the whole chain, and the nodes of it then belong to the thread. -/
theorem steal_takes (sound : Sound state) (stepped : step state (.steal thread) = some after) :
    after.memory.head = none ∧ after.memory.next = state.memory.next ∧
      after.history = state.history ++ [(thread, .stolen state.memory.head)] ∧
      ∀ node ∈ content state.history, after.holder node = .thread thread := by
  simp only [step] at stepped
  split at stepped <;> cases stepped
  exact ⟨rfl, rfl, rfl, fun node inside => if_pos ((sound.holders node).mpr inside)⟩

/-- What a step of a push leaves alone, and what it may add to the history. -/
theorem stepPush_frame {before : List Node} {chain_tail : Node} {pushing : PushPhase} (spurious : Bool)
    (sound : Sound state) (busy : state.phase thread = .push before chain_tail pushing) :
    (∀ node other, state.holder node = .thread other → other ≠ thread →
      (state.stepPush thread before chain_tail spurious pushing).memory.next node = state.memory.next node ∧
        (state.stepPush thread before chain_tail spurious pushing).holder node = .thread other) ∧
    ((state.stepPush thread before chain_tail spurious pushing).history = state.history ∨
      (state.stepPush thread before chain_tail spurious pushing).history =
        state.history ++ [(thread, .pushed (before ++ [chain_tail]))]) := by
  have mine := sound.phases thread
  rw [busy] at mine
  obtain ⟨_, held, _, live⟩ := mine
  cases pushing with
  | called => exact ⟨fun node other owned _ => ⟨rfl, owned⟩, .inl rfl⟩
  | returned => exact absurd rfl live
  | loaded expected =>
      refine ⟨fun node other owned different => ⟨?_, owned⟩, .inl rfl⟩
      have elsewhere : node ≠ chain_tail := by
        intro same
        rw [same, held chain_tail (by simp)] at owned
        exact different (Holder.thread.inj owned).symm
      exact Function.update_of_ne elsewhere _ _
  | linked =>
      simp only [State.stepPush, push]
      by_cases won : state.memory.head = state.memory.next chain_tail ∧ spurious = false
      · rw [if_pos won]
        refine ⟨fun node other owned different => ⟨rfl, ?_⟩, .inr rfl⟩
        have outside : node ∉ before ++ [chain_tail] := by
          intro inside
          rw [held node inside] at owned
          exact different (Holder.thread.inj owned).symm
        exact (if_neg outside).trans owned
      · rw [if_neg won]
        exact ⟨fun node other owned _ => ⟨rfl, owned⟩, .inl rfl⟩

end HundredDays.StealStack
