import HundredDays.TreiberStack.Steps

namespace HundredDays.TreiberStack.Reclamation

open HundredDays.Data

/-! A node that is in a valid hazard is not freed. -/

variable {producers consumers : Nat} {world : World producers consumers} {main after : Main producers consumers}
  {node : Node} {producer : Fin producers} {consumer other : Fin consumers} {chance : Chance}

theorem ConsumerSound.afterPop {drain : Bool} {phase : PopPhase}
    (sound : ConsumerSound world consumer (.popping drain phase)) (before : Consumer) :
    ConsumerSound world consumer (before.afterPop drain phase).phase := by
  cases phase with
  | returned answer =>
      cases answer with
      | none => cases drain <;> exact sound.goOn rfl rfl sound.hazard trivial
      | some node => exact sound.goOn rfl rfl sound.hazard trivial
  | _ => exact sound

theorem ConsumerSound.afterRetire {phase : RetirePhase} (sound : ConsumerSound world consumer (.retiring node phase))
    (before : Consumer) : ConsumerSound world consumer (before.afterRetire node phase).phase := by
  cases phase with
  | returned =>
      simp only [Consumer.afterRetire]
      split
      · exact sound.goOn rfl rfl sound.hazard trivial
      · exact sound.goOn rfl rfl sound.hazard ⟨trivial, trivial⟩
  | _ => exact sound

theorem ConsumerSound.afterSweep {final : Bool} {phase : SweepPhase}
    (sound : ConsumerSound world consumer (.sweeping final phase)) (before : Consumer) :
    ConsumerSound world consumer (before.afterSweep final phase).phase := by
  cases phase with
  | returned =>
      cases final
      · exact sound.goOn rfl rfl sound.hazard ⟨trivial, trivial⟩
      · exact sound.goOn rfl rfl sound.hazard trivial
  | _ => exact sound

/-- A step of a consumer. -/
theorem consume_moved (shared : Shared world) (store : world.store = main.store)
    (history : world.history = main.history) (few : swaps main.history < 2 ^ 64) (sound : ConsumerSound world consumer (main.consumer consumer).phase)
    (stepped : main.consume consumer chance = some after) : ∃ next : World producers consumers,
      next.store = after.store ∧ next.history = after.history ∧ Moved (.inr consumer) world next ∧
        ConsumerSound next consumer (after.consumer consumer).phase := by
  have still (next : Consumer) (known : ConsumerSound world consumer next.phase) :
      ∃ next' : World producers consumers, next'.store = main.store ∧ next'.history = main.history ++ [] ∧
        Moved (.inr consumer) world next' ∧
          ConsumerSound next' consumer (Function.update main.consumer consumer next consumer).phase := by
    rw [Function.update_self, List.append_nil]
    exact ⟨world, store, history, shared.stays _, known⟩
  unfold Main.consume at stepped
  cases doing : (main.consumer consumer).phase with
  | popping drain phase =>
      simp only [doing] at stepped sound
      obtain ⟨⟨memory, next⟩, popped, rfl⟩ := Option.map_eq_some_iff.mp stepped
      rw [← store] at popped
      rw [← history] at few
      obtain ⟨afterwards, stored, recorded, moved, known⟩ := pop_moved shared few sound popped
      refine ⟨afterwards, ?_, ?_, moved, ?_⟩
      · rw [stored, store]
        rfl
      · rw [recorded, history]
        rfl
      · simp only [Main.setConsumer, Function.update_self]
        exact known.afterPop _
  | checking =>
      simp only [doing] at stepped sound
      cases stepped
      refine still _ ?_
      show ConsumerSound world consumer (if _ then _ else _)
      split
      · exact sound.goOn rfl rfl sound.hazard trivial
      · exact sound.goOn rfl rfl sound.hazard ⟨trivial, trivial⟩
  | looking =>
      simp only [doing] at stepped sound
      cases stepped
      exact still _ (sound.goOn rfl rfl sound.hazard ⟨trivial, trivial⟩)
  | retiring node phase =>
      simp only [doing] at stepped sound
      obtain ⟨⟨memory, next⟩, retired, rfl⟩ := Option.map_eq_some_iff.mp stepped
      rw [← store] at retired
      obtain ⟨afterwards, stored, recorded, moved, known⟩ := retire_moved shared sound retired
      refine ⟨afterwards, stored, ?_, moved, ?_⟩
      · rw [recorded, history]
        rfl
      · simp only [Main.setConsumer, Function.update_self]
        exact known.afterRetire _
  | sweeping final phase =>
      simp only [doing] at stepped sound
      obtain ⟨⟨memory, next⟩, swept, rfl⟩ := Option.map_eq_some_iff.mp stepped
      rw [← store] at swept
      obtain ⟨afterwards, stored, recorded, moved, known⟩ := sweep_moved shared sound swept
      refine ⟨afterwards, stored, ?_, moved, ?_⟩
      · rw [recorded, history]
        rfl
      · simp only [Main.setConsumer, Function.update_self]
        exact known.afterSweep _
  | reporting =>
      simp only [doing] at stepped sound
      cases stepped
      exact still _ (sound.goOn rfl rfl sound.hazard trivial)
  | returned =>
      simp only [doing] at stepped
      cases stepped

/-- The node that a consumer looks for in the slots, and the slots it has passed. -/
def ConsumerPhase.scanned : ConsumerPhase → Option (Node × Nat)
  | .retiring node (.scanning slot) => some (node, slot)
  | .retiring node .freeing => some (node, MAX_HAZARD_THREADS)
  | .sweeping _ (.scanning _ cur _ slot) => some (cur, slot)
  | .sweeping _ (.unlinking _ cur _) => some (cur, MAX_HAZARD_THREADS)
  | .sweeping _ (.freeing _ cur _) => some (cur, MAX_HAZARD_THREADS)
  | _ => none

theorem nodeIsHazardous_none {memory : Memory (Fin consumers)} {slot : Nat}
    (looked : nodeIsHazardous memory node slot = none) : memory.hazard slot ≠ some node := by
  intro here
  simp only [nodeIsHazardous, here] at looked
  split at looked <;> cases looked

theorem nodeIsHazardous_false {memory : Memory (Fin consumers)} {slot : Nat}
    (looked : nodeIsHazardous memory node slot = some false) : MAX_HAZARD_THREADS ≤ slot := by
  unfold nodeIsHazardous at looked
  split at looked
  · split at looked <;> cases looked
  · omega

/-- A node that is looked for is not on the stack. -/
theorem ConsumerSound.scanned {phase : ConsumerPhase} {slot : Nat} (shared : Shared world)
    (sound : ConsumerSound world consumer phase) (looks : phase.scanned = some (node, slot)) :
    world.place node ≠ .stack := by
  have held (mine : phase.custody = some node) : world.place node ≠ .stack := by
    rw [(sound.custody node).mpr mine]
    simp
  have retired (inside : node ∈ world.retired) : world.place node ≠ .stack := by
    rw [(shared.retired node).mpr inside]
    simp
  cases phase with
  | retiring other retire =>
      cases retire with
      | scanning other =>
          cases looks
          exact held rfl
      | freeing =>
          cases looks
          exact held rfl
      | _ => cases looks
  | sweeping final sweep =>
      cases sweep with
      | scanning prev cur link other =>
          cases looks
          obtain ⟨visited, rest, split, _⟩ := sound.knows
          exact retired (by rw [split]; simp)
      | unlinking prev cur link =>
          cases looks
          obtain ⟨visited, rest, split, _⟩ := sound.knows
          exact retired (by rw [split]; simp)
      | freeing prev cur link =>
          cases looks
          exact held rfl
      | _ => cases looks
  | _ => cases looks

/-- A scan goes on from a slot that does not hold the node, or is over. -/
def Onward (memory : Memory (Fin consumers)) (node : Node) (slot : Nat) (before : Option (Node × Nat)) : Prop :=
  slot = 0 ∨ ∃ passed, before = some (node, passed) ∧
    (slot ≤ passed ∨ slot = passed + 1 ∧ memory.hazard passed ≠ some node)

theorem afterRetire_scanned (before : Consumer) (phase : RetirePhase) :
    (before.afterRetire node phase).phase.scanned = (ConsumerPhase.retiring node phase).scanned := by
  cases phase with
  | returned =>
      simp only [Consumer.afterRetire]
      split <;> rfl
  | _ => rfl

theorem afterSweep_scanned (before : Consumer) (final : Bool) (phase : SweepPhase) :
    (before.afterSweep final phase).phase.scanned = (ConsumerPhase.sweeping final phase).scanned := by
  cases phase with
  | returned => cases final <;> rfl
  | _ => rfl

theorem retireNode_scanned {store given : Store (Fin consumers)} {other : Node} {slot : Nat} {phase next : RetirePhase}
    (stepped : retireNode store consumer node chance phase = some (given, next))
    (looks : (ConsumerPhase.retiring node next).scanned = some (other, slot)) :
    Onward store.memory other slot (ConsumerPhase.retiring node phase).scanned := by
  cases phase with
  | scanning before =>
      simp only [retireNode] at stepped
      split at stepped
      · rename_i looked
        cases stepped
        cases looks
        exact .inr ⟨before, rfl, .inr ⟨rfl, nodeIsHazardous_none looked⟩⟩
      · cases stepped
        cases looks
      · rename_i looked
        cases stepped
        cases looks
        exact .inr ⟨before, rfl, .inl (nodeIsHazardous_false looked)⟩
  | locking =>
      obtain ⟨locked, found, result⟩ := Option.map_eq_some_iff.mp stepped
      cases result
      cases looks
  | returned => cases stepped
  | _ =>
      cases stepped
      cases looks

theorem retireSweep_scanned {store given : Store (Fin consumers)} {final : Bool} {slot : Nat} {phase next : SweepPhase}
    (stepped : retireSweep store consumer chance phase = some (given, next))
    (looks : (ConsumerPhase.sweeping final next).scanned = some (node, slot)) :
    Onward store.memory node slot (ConsumerPhase.sweeping final phase).scanned := by
  cases phase with
  | scanning prev cur link before =>
      simp only [retireSweep] at stepped
      split at stepped
      · rename_i looked
        cases stepped
        cases looks
        exact .inr ⟨before, rfl, .inr ⟨rfl, nodeIsHazardous_none looked⟩⟩
      · cases stepped
        cases looks
      · rename_i looked
        cases stepped
        cases looks
        exact .inr ⟨before, rfl, .inl (nodeIsHazardous_false looked)⟩
  | locking =>
      obtain ⟨locked, found, result⟩ := Option.map_eq_some_iff.mp stepped
      cases result
      cases looks
  | visiting prev cur =>
      cases cur with
      | none =>
          cases stepped
          cases looks
      | some cur =>
          cases stepped
          cases looks
          exact .inl rfl
  | unlinking prev cur link =>
      cases stepped
      cases looks
      exact .inr ⟨_, rfl, .inl (Nat.le_refl _)⟩
  | returned => cases stepped
  | _ =>
      cases stepped
      cases looks

theorem consume_scanned {slot : Nat} (stepped : main.consume consumer chance = some after)
    (looks : (after.consumer consumer).phase.scanned = some (node, slot)) :
    Onward main.store.memory node slot (main.consumer consumer).phase.scanned := by
  unfold Main.consume at stepped
  cases doing : (main.consumer consumer).phase with
  | popping drain phase =>
      simp only [doing] at stepped
      obtain ⟨⟨memory, next⟩, popped, rfl⟩ := Option.map_eq_some_iff.mp stepped
      simp only [Main.setConsumer, Function.update_self] at looks
      cases next with
      | returned answer =>
          cases answer with
          | none => cases drain <;> cases looks
          | some other =>
              cases looks
              exact .inl rfl
      | _ => cases looks
  | retiring other phase =>
      simp only [doing] at stepped
      obtain ⟨⟨given, next⟩, retired, rfl⟩ := Option.map_eq_some_iff.mp stepped
      simp only [Main.setConsumer, Function.update_self, afterRetire_scanned] at looks
      exact retireNode_scanned retired looks
  | sweeping final phase =>
      simp only [doing] at stepped
      obtain ⟨⟨given, next⟩, swept, rfl⟩ := Option.map_eq_some_iff.mp stepped
      simp only [Main.setConsumer, Function.update_self, afterSweep_scanned] at looks
      exact retireSweep_scanned swept looks
  | checking =>
      simp only [doing] at stepped
      cases stepped
      simp only [Main.setConsumer, Function.update_self] at looks
      split at looks <;> cases looks
  | returned =>
      simp only [doing] at stepped
      cases stepped
  | _ =>
      simp only [doing] at stepped
      cases stepped
      simp only [Main.setConsumer, Function.update_self] at looks
      cases looks

/-- A hazard is valid when the head is still the node. -/
theorem consume_validated {drain : Bool} {tag : UInt64} (stepped : main.consume consumer chance = some after)
    (valid : (after.consumer consumer).phase = .popping drain (.validated node tag)) :
    main.store.memory.head.ptr = some node := by
  unfold Main.consume at stepped
  cases doing : (main.consumer consumer).phase with
  | popping drain phase =>
      simp only [doing] at stepped
      obtain ⟨⟨memory, next⟩, popped, rfl⟩ := Option.map_eq_some_iff.mp stepped
      simp only [Main.setConsumer, Function.update_self] at valid
      have here : next = .validated node tag := by
        cases next with
        | returned answer =>
            cases answer with
            | none => cases drain <;> cases valid
            | some other => cases valid
        | _ => exact (ConsumerPhase.popping.inj valid).2
      subst here
      cases phase with
      | called =>
          obtain ⟨given, found, result⟩ := Option.map_eq_some_iff.mp popped
          cases result
      | loading =>
          simp only [stackPop] at popped
          split at popped <;> cases popped
      | published other tag =>
          simp only [stackPop] at popped
          split at popped
          · rename_i current
            cases popped
            rw [current]
          · cases popped
      | read other tag link =>
          simp only [stackPop] at popped
          split at popped <;> cases popped
      | _ => cases popped
  | retiring other phase =>
      simp only [doing] at stepped
      obtain ⟨⟨given, next⟩, retired, rfl⟩ := Option.map_eq_some_iff.mp stepped
      simp only [Main.setConsumer, Function.update_self] at valid
      cases next with
      | returned =>
          simp only [Consumer.afterRetire] at valid
          split at valid <;> cases valid
      | _ => cases valid
  | sweeping final phase =>
      simp only [doing] at stepped
      obtain ⟨⟨given, next⟩, swept, rfl⟩ := Option.map_eq_some_iff.mp stepped
      simp only [Main.setConsumer, Function.update_self] at valid
      cases next with
      | returned => cases final <;> cases valid
      | _ => cases valid
  | checking =>
      simp only [doing] at stepped
      cases stepped
      simp only [Main.setConsumer, Function.update_self] at valid
      split at valid <;> cases valid
  | returned =>
      simp only [doing] at stepped
      cases stepped
  | _ =>
      simp only [doing] at stepped
      cases stepped
      simp only [Main.setConsumer, Function.update_self] at valid
      cases valid

/-- A step of a consumer frees a node that was found in no slot, and follows one in a valid hazard. -/
theorem consume_history (stepped : main.consume consumer chance = some after) :
    after.history = main.history ∨ ∃ event, after.history = main.history ++ [event] ∧
      (∀ node, event = .freed node → (main.consumer consumer).phase.scanned = some (node, MAX_HAZARD_THREADS)) ∧
      ∀ other node, event = .followed other node →
        other = consumer ∧ ∃ drain tag, (main.consumer consumer).phase = .popping drain (.validated node tag) := by
  have silent (events : List (Event consumers)) (none : events = []) : main.history ++ events = main.history := by
    rw [none, List.append_nil]
  unfold Main.consume at stepped
  cases doing : (main.consumer consumer).phase with
  | popping drain phase =>
      simp only [doing] at stepped
      obtain ⟨⟨memory, next⟩, popped, rfl⟩ := Option.map_eq_some_iff.mp stepped
      simp only [Main.setConsumer]
      cases phase with
      | loading =>
          cases next with
          | loaded node tag => exact .inr ⟨_, rfl, by simp, by simp⟩
          | _ => exact .inl (silent _ rfl)
      | validated node tag =>
          refine .inr ⟨_, rfl, by simp, ?_⟩
          intro other node equal
          cases equal
          exact ⟨rfl, drain, tag, rfl⟩
      | read node tag link =>
          cases next with
          | taken node => exact .inr ⟨_, rfl, by simp, by simp⟩
          | _ => exact .inl (silent _ rfl)
      | _ => exact .inl (silent _ rfl)
  | retiring other phase =>
      simp only [doing] at stepped
      obtain ⟨⟨given, next⟩, retired, rfl⟩ := Option.map_eq_some_iff.mp stepped
      simp only [Main.setConsumer]
      cases phase with
      | freeing =>
          refine .inr ⟨_, rfl, ?_, by simp⟩
          intro node equal
          cases equal
          rfl
      | _ => exact .inl (silent _ rfl)
  | sweeping final phase =>
      simp only [doing] at stepped
      obtain ⟨⟨given, next⟩, swept, rfl⟩ := Option.map_eq_some_iff.mp stepped
      simp only [Main.setConsumer]
      cases phase with
      | freeing prev cur link =>
          refine .inr ⟨_, rfl, ?_, by simp⟩
          intro node equal
          cases equal
          rfl
      | _ => exact .inl (silent _ rfl)
  | returned =>
      simp only [doing] at stepped
      cases stepped
  | _ =>
      simp only [doing] at stepped
      cases stepped
      exact .inl (silent _ rfl)

end HundredDays.TreiberStack.Reclamation
