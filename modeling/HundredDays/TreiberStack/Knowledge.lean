import HundredDays.TreiberStack.Custody

namespace HundredDays.TreiberStack.Reclamation

open HundredDays.Data

/-! What each thread knows, and that the other threads leave it true. -/

variable {producers consumers : Nat} {world after : World producers consumers} {node : Node}
  {producer : Fin producers} {consumer : Fin consumers}

def ProducerPhase.custody : ProducerPhase → Option Node
  | .pushing _ node _ => some node
  | _ => none

/-- The node that a consumer has in its hands. -/
def ConsumerPhase.custody : ConsumerPhase → Option Node
  | .popping _ phase => phase.answer.join
  | .retiring _ .unlocking => none
  | .retiring _ .returned => none
  | .retiring node _ => some node
  | .sweeping _ (.freeing _ cur _) => some cur
  | _ => none

/-- The consumer holds the lock of the retire list. -/
def ConsumerPhase.critical : ConsumerPhase → Bool
  | .retiring _ .linking => true
  | .retiring _ .listing => true
  | .retiring _ .unlocking => true
  | .sweeping _ .locking => false
  | .sweeping _ .returned => false
  | .sweeping _ _ => true
  | _ => false

/-- The last head that the consumer has loaded is this node, which was not freed since. -/
def Unfreed (consumer : Fin consumers) (node : Node) (history : List (Event consumers)) : Prop :=
  ∃ before middle, history = before ++ .loaded consumer node :: middle ∧ (∀ other, .loaded consumer other ∉ middle) ∧
    .freed node ∉ middle

/-- The node that a pop has loaded is not freed as long as it is the head, and not at all once the hazard is valid. -/
def Fresh (world : World producers consumers) (consumer : Fin consumers) : PopPhase → Prop
  | .loaded node tag =>
      Seen world.store.memory (swaps world.history) (some node) tag (Unfreed consumer node world.history)
  | .published node tag =>
      Seen world.store.memory (swaps world.history) (some node) tag (Unfreed consumer node world.history)
  | .validated node _ => Unfreed consumer node world.history
  | _ => True

/-- Where a sweep is in the retire list. -/
def SweepSound (retired : List Node) : SweepPhase → Prop
  | .visiting prev cur => ∃ visited rest, retired = visited ++ rest ∧ prev = visited.getLast? ∧ cur = rest.head?
  | .scanning prev cur next _ => ∃ visited rest, retired = visited ++ cur :: rest ∧ prev = visited.getLast? ∧
      next = rest.head?
  | .unlinking prev cur next => ∃ visited rest, retired = visited ++ cur :: rest ∧ prev = visited.getLast? ∧
      next = rest.head?
  | .freeing prev _ next => ∃ visited rest, retired = visited ++ rest ∧ prev = visited.getLast? ∧ next = rest.head?
  | _ => True

/-- What is in the slot of a consumer. -/
def HazardSound (memory : Memory (Fin consumers)) (consumer : Fin consumers) : ConsumerPhase → Prop
  | .popping _ .loading => memory.hazardSlot consumer ≠ none
  | .popping _ (.loaded _ _) => memory.hazardSlot consumer ≠ none
  | .popping _ (.published node _) => hazardOf memory consumer = some node
  | .popping _ (.validated node _) => hazardOf memory consumer = some node
  | .popping _ (.read node _ _) => hazardOf memory consumer = some node
  | .popping _ .empty => True
  | .popping _ (.taken _) => True
  | _ => hazardOf memory consumer = none

def Knows (world : World producers consumers) (consumer : Fin consumers) : ConsumerPhase → Prop
  | .popping _ phase => PopSound world.store.memory (swaps world.history) phase ∧ Fresh world consumer phase
  | .retiring node .listing => world.store.memory.retireNext node = world.store.retireList
  | .sweeping _ phase => SweepSound world.retired phase
  | _ => True

structure ProducerSound (world : World producers consumers) (producer : Fin producers) (phase : ProducerPhase) :
    Prop where
  custody : ∀ node, world.place node = .agent (.inl producer) ↔ phase.custody = some node
  knows : ∀ j node push, phase = .pushing j node push → push ≠ .returned ∧ PushSound world.store.memory node push

structure ConsumerSound (world : World producers consumers) (consumer : Fin consumers) (phase : ConsumerPhase) :
    Prop where
  custody : ∀ node, world.place node = .agent (.inr consumer) ↔ phase.custody = some node
  critical : world.store.retireLock = some consumer ↔ phase.critical = true
  hazard : HazardSound world.store.memory consumer phase
  knows : Knows world consumer phase

theorem ProducerSound.undisturbed {phase : ProducerPhase} (sound : ProducerSound world producer phase)
    (undisturbed : Undisturbed (.inl producer) world after) : ProducerSound after producer phase := by
  constructor
  · intro node
    rw [undisturbed.own]
    exact sound.custody node
  · intro j node push equal
    subst equal
    obtain ⟨live, linked⟩ := sound.knows j node push rfl
    have held := (sound.custody node).mpr rfl
    refine ⟨live, ?_⟩
    cases push with
    | linked old => exact (undisturbed.links node held).1.trans linked
    | _ => trivial

theorem Unfreed.append {history events : List (Event consumers)} (unfreed : Unfreed consumer node history)
    (unloaded : ∀ other, .loaded consumer other ∉ events) (kept : .freed node ∉ events) :
    Unfreed consumer node (history ++ events) := by
  obtain ⟨before, middle, rfl, last, alive⟩ := unfreed
  refine ⟨before, middle ++ events, by simp, fun other => ?_, ?_⟩
  · rw [List.mem_append, not_or]
    exact ⟨last other, unloaded other⟩
  · rw [List.mem_append, not_or]
    exact ⟨alive, kept⟩

theorem PopSound.undisturbed {phase : PopPhase} (shared : Shared world)
    (sound : PopSound world.store.memory (swaps world.history) phase)
    (undisturbed : Undisturbed (.inr consumer) world after) :
    PopSound after.store.memory (swaps after.history) phase := by
  obtain ⟨head, same, links⟩ | more := undisturbed.head
  · rw [same]
    exact PopSound.congr sound head fun node top => links node (shared.head_mem top)
  · rw [more]
    exact PopSound.exchanged sound after.store.memory

theorem Fresh.undisturbed {phase : PopPhase} (shared : Shared world) (fresh : Fresh world consumer phase)
    (undisturbed : Undisturbed (.inr consumer) world after)
    (guarded : ∀ node tag, phase = .validated node tag → ∀ events, after.history = world.history ++ events →
      .freed node ∉ events) : Fresh after consumer phase := by
  obtain ⟨events, history, emitted⟩ := undisturbed.events
  have unloaded (other : Node) : .loaded consumer other ∉ events := fun listed =>
    (emitted _ listed).1 consumer other rfl rfl
  have seen (node : Node) (tag : UInt64)
      (seen : Seen world.store.memory (swaps world.history) (some node) tag (Unfreed consumer node world.history)) :
      Seen after.store.memory (swaps after.history) (some node) tag (Unfreed consumer node after.history) := by
    obtain ⟨head, same, _⟩ | more := undisturbed.head
    · rw [same]
      refine Seen.congr seen head fun top unfreed => ?_
      rw [history]
      exact unfreed.append unloaded fun listed => (emitted _ listed).2 node rfl (shared.head_mem top)
    · rw [more]
      exact Seen.exchanged seen after.store.memory _
  cases phase with
  | loaded node tag => exact seen node tag fresh
  | published node tag => exact seen node tag fresh
  | validated node tag =>
      have unfreed : Unfreed consumer node world.history := fresh
      show Unfreed consumer node after.history
      rw [history]
      exact unfreed.append unloaded (guarded node tag rfl events history)
  | _ => trivial

theorem HazardSound.congr {memory after : Memory (Fin consumers)} {phase : ConsumerPhase}
    (sound : HazardSound memory consumer phase) (slot : after.hazardSlot consumer = memory.hazardSlot consumer)
    (hazard : hazardOf after consumer = hazardOf memory consumer) : HazardSound after consumer phase := by
  unfold HazardSound at sound ⊢
  rw [slot, hazard]
  exact sound

theorem ConsumerSound.undisturbed {phase : ConsumerPhase} (shared : Shared world)
    (sound : ConsumerSound world consumer phase) (undisturbed : Undisturbed (.inr consumer) world after)
    (guarded : ∀ drain node tag, phase = .popping drain (.validated node tag) →
      ∀ events, after.history = world.history ++ events → .freed node ∉ events) :
    ConsumerSound after consumer phase := by
  obtain ⟨slot, hazard⟩ := undisturbed.hazard consumer rfl
  obtain ⟨lock, kept⟩ := undisturbed.locked consumer rfl
  constructor
  · intro node
    rw [undisturbed.own]
    exact sound.custody node
  · rw [lock]
    exact sound.critical
  · exact sound.hazard.congr slot hazard
  · have knows := sound.knows
    cases phase with
    | popping drain pop =>
        refine ⟨PopSound.undisturbed shared knows.1 undisturbed, Fresh.undisturbed shared knows.2 undisturbed ?_⟩
        intro node tag equal
        subst equal
        exact guarded drain node tag rfl
    | retiring node retire =>
        cases retire with
        | listing =>
            have held := (sound.custody node).mpr rfl
            obtain ⟨_, retireList⟩ := kept (sound.critical.mpr rfl)
            exact (undisturbed.links node held).2.trans (knows.trans retireList.symm)
        | _ => trivial
    | sweeping final sweep =>
        by_cases inside : sweep = .locking ∨ sweep = .returned
        · rcases inside with rfl | rfl <;> trivial
        · have critical : (ConsumerPhase.sweeping final sweep).critical = true := by
            rw [not_or] at inside
            cases sweep <;> simp_all [ConsumerPhase.critical]
          obtain ⟨retired, _⟩ := kept (sound.critical.mpr critical)
          show SweepSound after.retired sweep
          rw [retired]
          exact knows
    | _ => trivial

end HundredDays.TreiberStack.Reclamation
