import HundredDays.Data.Counter
import HundredDays.Data.Links
import HundredDays.TreiberStack.Model

namespace HundredDays.TreiberStack

open HundredDays.Data
open HundredDays.Data.Counter

/-! The nodes on the stack, and what a thread knows that has loaded the head.

The tag counts the exchanges of the head.  As long as they are fewer than `2 ^ 64`,
a head with the tag that was loaded is the head that was loaded.
-/

variable {Thread : Type} {memory after : Memory Thread} {nodes : List Node} {swaps : Nat} {node : Node}
  {ptr : Option Node} {tag : UInt64} {spurious : Bool}

structure Represents (memory : Memory Thread) (nodes : List Node) (swaps : Nat) : Prop where
  chain : Chain memory.next memory.head.ptr nodes
  distinct : nodes.Nodup
  tag : memory.head.tag = counter 0 swaps

/-- The thread has loaded this head, and when nothing was exchanged since, it knows something. -/
def Seen (memory : Memory Thread) (swaps : Nat) (ptr : Option Node) (tag : UInt64) (current : Prop) : Prop :=
  ∃ index ≤ swaps, tag = counter 0 index ∧ (index = swaps → memory.head.ptr = ptr ∧ current)

/-- What a thread in `stack_push` knows. -/
def PushSound (memory : Memory Thread) (node : Node) : PushPhase → Prop
  | .linked old => memory.next node = old.ptr
  | _ => True

/-- What a thread in `stack_pop` knows. -/
def PopSound (memory : Memory Thread) (swaps : Nat) : PopPhase → Prop
  | .loaded node tag => Seen memory swaps (some node) tag True
  | .published node tag => Seen memory swaps (some node) tag True
  | .validated node tag => Seen memory swaps (some node) tag True
  | .read node tag next => Seen memory swaps (some node) tag (next = memory.next node)
  | _ => True

theorem Represents.init (next retireNext : Node → Option Node) :
    Represents (stackInit next retireNext : Memory Thread) [] 0 := by
  constructor
  · rfl
  · exact List.nodup_nil
  · exact counter_zero.symm

namespace Seen

variable {fact other : Prop}

theorem load (represents : Represents memory nodes swaps) (known : fact) :
    Seen memory swaps memory.head.ptr memory.head.tag fact :=
  ⟨swaps, Nat.le_refl _, represents.tag, fun _ => ⟨rfl, known⟩⟩

theorem exchanged (seen : Seen memory swaps ptr tag fact) (after : Memory Thread) (other : Prop) :
    Seen after (swaps + 1) ptr tag other := by
  obtain ⟨index, before, counted, _⟩ := seen
  exact ⟨index, by omega, counted, fun now => absurd now (by omega)⟩

theorem congr (seen : Seen memory swaps ptr tag fact) (head : after.head = memory.head)
    (still : memory.head.ptr = ptr → fact → other) : Seen after swaps ptr tag other := by
  obtain ⟨index, before, counted, known⟩ := seen
  refine ⟨index, before, counted, fun now => ?_⟩
  obtain ⟨same, holds⟩ := known now
  exact ⟨by rw [head, same], still same holds⟩

/-- The tag tells whether the head was exchanged. -/
theorem current (seen : Seen memory swaps ptr tag fact) (represents : Represents memory nodes swaps)
    (few : swaps < 2 ^ 64) (same : memory.head.tag = tag) : fact := by
  obtain ⟨index, before, counted, known⟩ := seen
  have now : index = swaps := by
    have tags : counter 0 index = counter 0 swaps := by
      rw [← counted, ← same, represents.tag]
    exact (counter_eq_iff before (by omega)).mp tags
  exact (known now).2

end Seen

namespace Represents

/-- The links and the head decide which nodes are on the stack. -/
theorem congr (represents : Represents memory nodes swaps) (head : after.head = memory.head)
    (links : ∀ node ∈ nodes, after.next node = memory.next node) : Represents after nodes swaps := by
  constructor
  · rw [head]
    exact represents.chain.congr links
  · exact represents.distinct
  · rw [head]
    exact represents.tag

theorem push (represents : Represents memory nodes swaps) (fresh : node ∉ nodes)
    (linked : memory.next node = memory.head.ptr) :
    Represents { memory with head := { ptr := some node, tag := memory.head.tag + 1 } } (node :: nodes)
      (swaps + 1) := by
  constructor
  · exact ⟨rfl, linked ▸ represents.chain⟩
  · exact List.nodup_cons.mpr ⟨fresh, represents.distinct⟩
  · rw [counter_succ, ← represents.tag]

theorem pop {rest : List Node} (represents : Represents memory (node :: rest) swaps) :
    Represents { memory with head := { ptr := memory.next node, tag := memory.head.tag + 1 } } rest
      (swaps + 1) := by
  constructor
  · exact represents.chain.2
  · exact (List.nodup_cons.mp represents.distinct).2
  · rw [counter_succ, ← represents.tag]

end Represents

theorem PopSound.exchanged {phase : PopPhase} (sound : PopSound memory swaps phase) (after : Memory Thread) :
    PopSound after (swaps + 1) phase := by
  cases phase with
  | loaded node tag => exact Seen.exchanged sound after _
  | published node tag => exact Seen.exchanged sound after _
  | validated node tag => exact Seen.exchanged sound after _
  | read node tag next => exact Seen.exchanged sound after _
  | _ => trivial

theorem PopSound.congr {phase : PopPhase} (sound : PopSound memory swaps phase) (head : after.head = memory.head)
    (link : ∀ node, memory.head.ptr = some node → after.next node = memory.next node) :
    PopSound after swaps phase := by
  cases phase with
  | loaded node tag => exact Seen.congr sound head fun _ known => known
  | published node tag => exact Seen.congr sound head fun _ known => known
  | validated node tag => exact Seen.congr sound head fun _ known => known
  | read node tag next => exact Seen.congr sound head fun same known => known.trans (link node same).symm
  | _ => trivial

/-- One step of a push: it links the node, or exchanges the head for the linked node. -/
theorem stackPush_spec {phase next : PushPhase} (sound : PushSound memory node phase) (live : phase ≠ .returned)
    (stepped : stackPush memory node spurious phase = (after, next)) :
    (next = .returned ∧ memory.next node = memory.head.ptr ∧
      after = { memory with head := { ptr := some node, tag := memory.head.tag + 1 } }) ∨
    (next ≠ .returned ∧ PushSound after node next ∧
      ∃ link, after = { memory with next := Function.update memory.next node link }) := by
  have same : { memory with next := Function.update memory.next node (memory.next node) } = memory := by
    rw [Function.update_eq_self]
  cases phase with
  | called =>
      cases stepped
      exact .inr ⟨by simp, trivial, _, same.symm⟩
  | linking old =>
      cases stepped
      exact .inr ⟨by simp, Function.update_self _ _ _, _, rfl⟩
  | linked old =>
      simp only [stackPush, Memory.exchange] at stepped
      by_cases won : memory.head = old ∧ spurious = false
      · rw [if_pos won] at stepped
        cases stepped
        obtain ⟨rfl, _⟩ := won
        exact .inl ⟨rfl, sound, rfl⟩
      · rw [if_neg won] at stepped
        cases stepped
        exact .inr ⟨by simp, trivial, _, same.symm⟩
  | returned => exact absurd rfl live

@[simp] theorem setHazard_head [DecidableEq Thread] (memory : Memory Thread) (thread : Thread) (ptr : Option Node) :
    (memory.setHazard thread ptr).head = memory.head := by
  unfold Memory.setHazard
  split <;> rfl

@[simp] theorem setHazard_next [DecidableEq Thread] (memory : Memory Thread) (thread : Thread) (ptr : Option Node) :
    (memory.setHazard thread ptr).next = memory.next := by
  unfold Memory.setHazard
  split <;> rfl

/-- One step of a pop: it takes the first node, finds the stack empty, or leaves the stack as it is. -/
theorem stackPop_spec [DecidableEq Thread] {thread : Thread} {phase next : PopPhase}
    (represents : Represents memory nodes swaps) (few : swaps < 2 ^ 64) (sound : PopSound memory swaps phase)
    (stepped : stackPop memory thread spurious phase = some (after, next)) :
    (∃ node rest, nodes = node :: rest ∧ phase.answer = none ∧ next = .taken node ∧
      after = { memory with head := { ptr := memory.next node, tag := memory.head.tag + 1 } }) ∨
    (nodes = [] ∧ phase.answer = none ∧ next = .empty ∧ after = memory) ∨
    (next.answer = phase.answer ∧ PopSound after swaps next ∧ after.head = memory.head ∧
      after.next = memory.next) := by
  cases phase with
  | called =>
      obtain ⟨given, found, result⟩ := Option.map_eq_some_iff.mp stepped
      cases result
      unfold hazardSlotForThisThread at found
      split at found
      next =>
        cases found
        exact .inr (.inr ⟨rfl, trivial, rfl, rfl⟩)
      next =>
        split at found
        next =>
          cases found
          exact .inr (.inr ⟨rfl, trivial, rfl, rfl⟩)
        next => cases found
  | loading =>
      have start := represents.chain.start_eq_head?
      simp only [stackPop] at stepped
      cases top : memory.head.ptr with
      | none =>
          rw [top] at stepped start
          cases stepped
          exact .inr (.inl ⟨List.head?_eq_none_iff.mp start.symm, rfl, rfl, rfl⟩)
      | some node =>
          have loaded : Seen memory swaps memory.head.ptr memory.head.tag True := Seen.load represents trivial
          rw [top] at stepped loaded
          cases stepped
          exact .inr (.inr ⟨rfl, loaded, rfl, rfl⟩)
  | empty =>
      cases stepped
      exact .inr (.inr ⟨rfl, trivial, setHazard_head .., setHazard_next ..⟩)
  | loaded node tag =>
      cases stepped
      exact .inr (.inr ⟨rfl, Seen.congr sound (setHazard_head ..) fun _ known => known, setHazard_head ..,
        setHazard_next ..⟩)
  | published node tag =>
      simp only [stackPop] at stepped
      split at stepped <;> cases stepped
      · exact .inr (.inr ⟨rfl, sound, rfl, rfl⟩)
      · exact .inr (.inr ⟨rfl, trivial, rfl, rfl⟩)
  | validated node tag =>
      cases stepped
      exact .inr (.inr ⟨rfl, Seen.congr sound rfl fun _ _ => rfl, rfl, rfl⟩)
  | read node tag link =>
      simp only [stackPop, Memory.exchange] at stepped
      by_cases won : memory.head = { ptr := some node, tag } ∧ spurious = false
      · rw [if_pos won] at stepped
        cases stepped
        obtain ⟨same, _⟩ := won
        have known : link = memory.next node := Seen.current sound represents few (by rw [same])
        have chain := represents.chain
        rw [same] at chain
        cases nodes with
        | nil => cases chain
        | cons first rest =>
            obtain ⟨here, _⟩ := chain
            cases here
            exact .inl ⟨node, rest, rfl, rfl, rfl, by rw [known, same]⟩
      · rw [if_neg won] at stepped
        cases stepped
        exact .inr (.inr ⟨rfl, trivial, rfl, rfl⟩)
  | taken node =>
      cases stepped
      exact .inr (.inr ⟨rfl, trivial, setHazard_head .., setHazard_next ..⟩)
  | returned node => cases stepped

end HundredDays.TreiberStack
