import HundredDays.Data.Census
import HundredDays.TreiberStack.Safety

namespace HundredDays.TreiberStack.Reclamation

open HundredDays.Data

/-! The counters of the threads against the history. -/

variable {producers consumers : Nat} {world : World producers consumers} {main after : Main producers consumers}
  {producer : Fin producers} {consumer : Fin consumers} {chance : Chance}

/-- How many nodes the producer has pushed. -/
def ProducerPhase.pushed : ProducerPhase → Nat
  | .loop j => j
  | .pushing j _ _ => j
  | .counting j => j + 1
  | .finished => MSGS_PER_PRODUCER

/-- How many rounds of its loop it has begun. -/
def ProducerPhase.begun : ProducerPhase → Nat
  | .loop j => j
  | .pushing j _ _ => j + 1
  | .counting j => j + 1
  | .finished => MSGS_PER_PRODUCER

def ProducerPhase.active (phase : ProducerPhase) : Nat := if phase = .finished then 0 else 1

/-- Whether the pop has a node to return. -/
def gained (phase : PopPhase) : Nat := if phase.answer.join.isSome then 1 else 0

/-- What the consumer has popped and not reported. -/
def Consumer.pending (consumer : Consumer) : Nat :=
  match consumer.phase with
  | .popping _ phase => consumer.localCount + gained phase
  | .returned => 0
  | _ => consumer.localCount

structure Counted (main : Main producers consumers) : Prop where
  pushed : pushes main.history = census ProducerPhase.pushed main.producer
  begun : ∀ producer, (main.producer producer).begun ≤ MSGS_PER_PRODUCER
  popped : main.totalConsumed + census Consumer.pending main.consumer = pops main.history
  active : main.activeProducers = Int32.ofNat (census ProducerPhase.active main.producer)

theorem ProducerPhase.pushed_le (phase : ProducerPhase) : phase.pushed ≤ phase.begun := by
  cases phase <;> simp [ProducerPhase.pushed, ProducerPhase.begun]

theorem ProducerPhase.active_le (phase : ProducerPhase) : phase.active ≤ 1 := by
  unfold ProducerPhase.active
  split <;> omega

theorem ofNat_eq_zero {count : Nat} (few : count < 2 ^ 32) (zero : Int32.ofNat count = 0) : count = 0 := by
  have bits : (Int32.ofNat count).toBitVec.toNat = (0 : Int32).toBitVec.toNat := by rw [zero]
  rw [Int32.toBitVec_ofNat', BitVec.toNat_ofNat, Nat.mod_eq_of_lt few] at bits
  exact bits

/-- With fewer than `2 ^ 32` producers the tag of the head does not wrap around. -/
theorem Counted.swaps_lt (counted : Counted main) (sound : Sound main world) (few : producers < 2 ^ 32) :
    swaps main.history < 2 ^ 64 := by
  have total : census ProducerPhase.pushed main.producer ≤ producers * MSGS_PER_PRODUCER := by
    have bound := census_le fun producer =>
      Nat.le_trans (main.producer producer).pushed_le (counted.begun producer)
    rwa [Fintype.card_fin] at bound
  have balance := sound.shared.balance
  rw [sound.history, ← counted.pushed.symm] at balance
  rw [swaps_eq, counted.pushed]
  simp only [MSGS_PER_PRODUCER] at total
  omega

/-- No producer is at work when the number of active producers is 0. -/
theorem Counted.finished (counted : Counted main) (few : producers < 2 ^ 32) (none : main.activeProducers = 0)
    (producer : Fin producers) : main.producer producer = .finished := by
  have total : census ProducerPhase.active main.producer ≤ producers * 1 := by
    have bound : census ProducerPhase.active main.producer ≤ Fintype.card (Fin producers) * 1 :=
      census_le fun producer => (main.producer producer).active_le
    rwa [Fintype.card_fin] at bound
  have zero := ofNat_eq_zero (by omega) (counted.active.symm.trans none)
  have mine := census_eq_zero.mp zero producer
  unfold ProducerPhase.active at mine
  split at mine
  · assumption
  · cases mine

namespace Counted

theorem setProducer (counted : Counted main) {phase : ProducerPhase} {store : Store (Fin consumers)}
    {events : List (Event consumers)} (gains : (main.producer producer).pushed + pushes events = phase.pushed)
    (begun : phase.begun ≤ MSGS_PER_PRODUCER) (unpopped : pops events = 0)
    (active : phase.active = (main.producer producer).active) :
    Counted (main.setProducer producer phase store events) := by
  constructor
  · have more := census_update ProducerPhase.pushed main.producer producer phase
    have before := counted.pushed
    show pushes (main.history ++ events) = census ProducerPhase.pushed (Function.update main.producer producer phase)
    rw [pushes_append]
    omega
  · intro other
    show (Function.update main.producer producer phase other).begun ≤ MSGS_PER_PRODUCER
    by_cases here : other = producer
    · rw [here, Function.update_self]
      exact begun
    · rw [Function.update_of_ne here]
      exact counted.begun other
  · show main.totalConsumed + census Consumer.pending main.consumer = pops (main.history ++ events)
    rw [pops_append, unpopped, Nat.add_zero]
    exact counted.popped
  · have same := census_update ProducerPhase.active main.producer producer phase
    show main.activeProducers = Int32.ofNat (census ProducerPhase.active (Function.update main.producer producer phase))
    rw [counted.active]
    congr 1
    omega

theorem produce (counted : Counted main)
    (stepped : main.produce producer chance = some after) : Counted after := by
  have begun := counted.begun producer
  unfold Main.produce at stepped
  cases doing : main.producer producer with
  | loop j =>
      rw [doing] at begun
      simp only [doing] at stepped
      split at stepped
      · obtain ⟨given, _, rfl⟩ := Option.map_eq_some_iff.mp stepped
        exact counted.setProducer (by rw [doing]; rfl) (by assumption) rfl (by rw [doing]; rfl)
      · cases stepped
        have last : j = MSGS_PER_PRODUCER := by
          simp only [ProducerPhase.begun] at begun
          omega
        have all := census_update ProducerPhase.pushed main.producer producer .finished
        have fewer := census_update ProducerPhase.active main.producer producer .finished
        rw [doing] at all fewer
        simp only [ProducerPhase.pushed, ProducerPhase.active] at all fewer
        constructor
        · show pushes (main.history ++ []) =
            census ProducerPhase.pushed (Function.update main.producer producer .finished)
          rw [List.append_nil, counted.pushed]
          omega
        · intro other
          show (Function.update main.producer producer .finished other).begun ≤ MSGS_PER_PRODUCER
          by_cases here : other = producer
          · rw [here, Function.update_self]
            exact Nat.le_refl _
          · rw [Function.update_of_ne here]
            exact counted.begun other
        · show main.totalConsumed + census Consumer.pending main.consumer = pops (main.history ++ [])
          rw [List.append_nil]
          exact counted.popped
        · show main.activeProducers - 1 =
            Int32.ofNat (census ProducerPhase.active (Function.update main.producer producer .finished))
          have one : census ProducerPhase.active main.producer =
              census ProducerPhase.active (Function.update main.producer producer .finished) + 1 := by
            simp at fewer
            omega
          rw [counted.active, one, Int32.ofNat_add]
          exact Int32.add_sub_cancel _ _
  | pushing j node phase =>
      rw [doing] at begun
      simp only [doing] at stepped
      split at stepped
      · cases stepped
        exact counted.setProducer (by rw [doing]; rfl) begun rfl (by rw [doing]; rfl)
      · cases stepped
        exact counted.setProducer (by rw [doing]; rfl) begun rfl (by rw [doing]; rfl)
  | counting j =>
      rw [doing] at begun
      simp only [doing] at stepped
      cases stepped
      have kept : Counted (main.setProducer producer (.loop (j + 1)) main.store []) :=
        counted.setProducer (by rw [doing]; rfl) begun rfl (by rw [doing]; rfl)
      exact ⟨kept.pushed, kept.begun, kept.popped, kept.active⟩
  | finished =>
      simp only [doing] at stepped
      cases stepped

theorem setConsumer (counted : Counted main) {before next : Consumer} {store : Store (Fin consumers)}
    {events : List (Event consumers)} (doing : main.consumer consumer = before)
    (gains : before.pending + pops events = next.pending) (unpushed : pushes events = 0) :
    Counted (main.setConsumer consumer next store events) := by
  constructor
  · show pushes (main.history ++ events) = census ProducerPhase.pushed main.producer
    rw [pushes_append, unpushed, Nat.add_zero]
    exact counted.pushed
  · exact counted.begun
  · have more := census_update Consumer.pending main.consumer consumer next
    have popped := counted.popped
    rw [doing] at more
    show main.totalConsumed + census Consumer.pending (Function.update main.consumer consumer next) =
      pops (main.history ++ events)
    rw [pops_append]
    omega
  · exact counted.active

theorem afterPop_pending (before : Consumer) (drain : Bool) (phase : PopPhase) :
    (before.afterPop drain phase).pending = before.localCount + gained phase := by
  cases phase with
  | returned answer =>
      cases answer with
      | none => cases drain <;> rfl
      | some node => rfl
  | _ => rfl

/-- A pop that gains a node has popped it. -/
theorem stackPop_gained {memory given : Memory (Fin consumers)} {spurious : Bool} {phase next : PopPhase}
    (stepped : stackPop memory consumer spurious phase = some (given, next)) :
    gained phase + pops (popEvents consumer phase next) = gained next ∧ pushes (popEvents consumer phase next) = 0 := by
  cases phase with
  | called =>
      obtain ⟨slotted, found, result⟩ := Option.map_eq_some_iff.mp stepped
      cases result
      exact ⟨rfl, rfl⟩
  | loading =>
      simp only [stackPop] at stepped
      split at stepped <;> cases stepped <;> exact ⟨rfl, rfl⟩
  | published node tag =>
      simp only [stackPop] at stepped
      split at stepped <;> cases stepped <;> exact ⟨rfl, rfl⟩
  | read node tag link =>
      simp only [stackPop] at stepped
      split at stepped <;> cases stepped <;> exact ⟨rfl, rfl⟩
  | returned answer => cases stepped
  | _ =>
      cases stepped
      exact ⟨rfl, rfl⟩

theorem consume (counted : Counted main) (stepped : main.consume consumer chance = some after) : Counted after := by
  unfold Main.consume at stepped
  generalize doing : main.consumer consumer = before at stepped
  obtain ⟨phase, localCount⟩ := before
  cases phase with
  | popping drain phase =>
      obtain ⟨⟨memory, next⟩, popped, rfl⟩ := Option.map_eq_some_iff.mp stepped
      obtain ⟨gains, unpushed⟩ := stackPop_gained popped
      refine counted.setConsumer doing ?_ unpushed
      rw [afterPop_pending, ← gains, ← Nat.add_assoc]
      rfl
  | checking =>
      cases stepped
      refine counted.setConsumer doing ?_ rfl
      split <;> rfl
  | looking =>
      cases stepped
      exact counted.setConsumer doing rfl rfl
  | retiring node phase =>
      obtain ⟨⟨given, next⟩, _, rfl⟩ := Option.map_eq_some_iff.mp stepped
      have unpushed : pushes (retireEvents node phase : List (Event consumers)) = 0 := by cases phase <;> rfl
      have unpopped : pops (retireEvents node phase : List (Event consumers)) = 0 := by cases phase <;> rfl
      refine counted.setConsumer doing ?_ unpushed
      rw [unpopped]
      cases next with
      | returned =>
          simp only [Consumer.afterRetire]
          split <;> rfl
      | _ => rfl
  | sweeping final phase =>
      obtain ⟨⟨given, next⟩, _, rfl⟩ := Option.map_eq_some_iff.mp stepped
      have unpushed : pushes (sweepEvents phase : List (Event consumers)) = 0 := by cases phase <;> rfl
      have unpopped : pops (sweepEvents phase : List (Event consumers)) = 0 := by cases phase <;> rfl
      refine counted.setConsumer doing ?_ unpushed
      rw [unpopped]
      cases next with
      | returned => cases final <;> rfl
      | _ => rfl
  | reporting =>
      cases stepped
      have more := census_update Consumer.pending main.consumer consumer ⟨.returned, localCount⟩
      have popped := counted.popped
      rw [doing] at more
      constructor
      · show pushes (main.history ++ []) = census ProducerPhase.pushed main.producer
        rw [List.append_nil]
        exact counted.pushed
      · exact counted.begun
      · show main.totalConsumed + localCount +
            census Consumer.pending (Function.update main.consumer consumer ⟨.returned, localCount⟩) =
          pops (main.history ++ [])
        rw [List.append_nil]
        simp only [Consumer.pending] at more popped ⊢
        omega
      · exact counted.active
  | returned => cases stepped

end Counted

end HundredDays.TreiberStack.Reclamation
