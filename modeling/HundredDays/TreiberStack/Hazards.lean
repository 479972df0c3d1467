import HundredDays.TreiberStack.Knowledge

namespace HundredDays.TreiberStack.Reclamation

/-! The hazard slots during a pop. -/

variable {consumers : Nat} {memory after : Memory (Fin consumers)} {consumer other : Fin consumers} {ptr : Option Node}
  {spurious drain : Bool} {phase next : PopPhase}

theorem hazardOf_congr (hazard : after.hazard = memory.hazard)
    (slot : after.hazardSlot consumer = memory.hazardSlot consumer) :
    hazardOf after consumer = hazardOf memory consumer := by
  rw [hazardOf, hazardOf, hazard, slot]

@[simp] theorem setHazard_hazardSlot : (memory.setHazard consumer ptr).hazardSlot = memory.hazardSlot := by
  unfold Memory.setHazard
  split <;> rfl

@[simp] theorem setHazard_retireNext : (memory.setHazard consumer ptr).retireNext = memory.retireNext := by
  unfold Memory.setHazard
  split <;> rfl

theorem Slots.setHazard (slots : Slots memory) (consumer : Fin consumers) (ptr : Option Node) :
    Slots (memory.setHazard consumer ptr) := by
  unfold Memory.setHazard
  cases mine : memory.hazardSlot consumer with
  | none => exact slots
  | some slot =>
      constructor
      · exact slots.given
      · exact slots.few
      · exact slots.injective
      · intro other unused
        have differs : other ≠ slot := by
          intro equal
          subst equal
          exact unused consumer mine
        exact (Function.update_of_ne differs _ _).trans (slots.unused other unused)

theorem hazardOf_setHazard (given : memory.hazardSlot consumer ≠ none) :
    hazardOf (memory.setHazard consumer ptr) consumer = ptr := by
  obtain ⟨slot, mine⟩ := Option.ne_none_iff_exists'.mp given
  simp [hazardOf, Memory.setHazard, mine]

theorem hazardOf_setHazard_none : hazardOf (memory.setHazard consumer none) consumer = none := by
  cases mine : memory.hazardSlot consumer <;> simp [hazardOf, Memory.setHazard, mine]

theorem hazardOf_setHazard_other (slots : Slots memory) (differs : other ≠ consumer) :
    hazardOf (memory.setHazard consumer ptr) other = hazardOf memory other := by
  unfold Memory.setHazard
  cases mine : memory.hazardSlot consumer with
  | none => rfl
  | some slot =>
      cases theirs : memory.hazardSlot other with
      | none => simp [hazardOf, theirs]
      | some another =>
          have apart : another ≠ slot := by
            intro equal
            subst equal
            exact differs (slots.injective other consumer another theirs mine)
          simp [hazardOf, theirs, Function.update_of_ne apart]

theorem given_of_hazardOf {node : Node} (hazard : hazardOf memory consumer = some node) :
    memory.hazardSlot consumer ≠ none := by
  intro none
  rw [hazardOf, none] at hazard
  cases hazard

theorem Slots.give (slots : Slots memory) (unslotted : memory.hazardSlot consumer = none)
    (room : memory.nextHazardSlot < MAX_HAZARD_THREADS) (hazard : after.hazard = memory.hazard)
    (nextSlot : after.nextHazardSlot = memory.nextHazardSlot + 1)
    (given : after.hazardSlot = Function.update memory.hazardSlot consumer (some memory.nextHazardSlot)) :
    Slots after := by
  have own : after.hazardSlot consumer = some memory.nextHazardSlot := by rw [given, Function.update_self]
  have others (other : Fin consumers) (differs : other ≠ consumer) :
      after.hazardSlot other = memory.hazardSlot other := by rw [given, Function.update_of_ne differs]
  have below (other : Fin consumers) (slot : Nat) (differs : other ≠ consumer)
      (theirs : after.hazardSlot other = some slot) : slot < memory.nextHazardSlot := by
    rw [others other differs] at theirs
    exact slots.given other slot theirs
  constructor
  · intro other slot theirs
    rw [nextSlot]
    by_cases here : other = consumer
    · rw [here, own] at theirs
      cases theirs
      exact Nat.lt_succ_self _
    · exact Nat.lt_succ_of_lt (below other slot here theirs)
  · rw [nextSlot]
    exact room
  · intro first second slot one two
    by_cases here : first = consumer <;> by_cases there : second = consumer
    · rw [here, there]
    · rw [here, own] at one
      cases one
      exact absurd (below second _ there two) (Nat.lt_irrefl _)
    · rw [there, own] at two
      cases two
      exact absurd (below first _ here one) (Nat.lt_irrefl _)
    · rw [others first here] at one
      rw [others second there] at two
      exact slots.injective first second slot one two
  · intro slot unused
    rw [hazard]
    refine slots.unused slot fun other theirs => unused other ?_
    have differs : other ≠ consumer := by
      intro equal
      subst equal
      rw [unslotted] at theirs
      cases theirs
    rw [others other differs, theirs]

/-- A consumer gets a slot that no other has. -/
theorem hazardSlotForThisThread_spec (slots : Slots memory)
    (given : hazardSlotForThisThread memory consumer = some after) :
    Slots after ∧ after.retireNext = memory.retireNext ∧ after.hazardSlot consumer ≠ none ∧
      ∀ other, other ≠ consumer →
        after.hazardSlot other = memory.hazardSlot other ∧ hazardOf after other = hazardOf memory other := by
  unfold hazardSlotForThisThread at given
  cases mine : memory.hazardSlot consumer with
  | some slot =>
      rw [mine] at given
      cases given
      exact ⟨slots, rfl, by simp [mine], fun _ _ => ⟨rfl, rfl⟩⟩
  | none =>
      rw [mine] at given
      simp only at given
      split at given
      · cases given
        refine ⟨slots.give mine (by assumption) rfl rfl rfl, rfl, by simp, fun other differs => ?_⟩
        have same : Function.update memory.hazardSlot consumer (some memory.nextHazardSlot) other =
            memory.hazardSlot other := Function.update_of_ne differs _ _
        exact ⟨same, hazardOf_congr rfl same⟩
      · cases given

/-- A pop leaves the slots of the other consumers alone. -/
theorem stackPop_slots (slots : Slots memory) (sound : HazardSound memory consumer (.popping drain phase))
    (stepped : stackPop memory consumer spurious phase = some (after, next)) :
    Slots after ∧ after.retireNext = memory.retireNext ∧ HazardSound after consumer (.popping drain next) ∧
      ∀ other, other ≠ consumer →
        after.hazardSlot other = memory.hazardSlot other ∧ hazardOf after other = hazardOf memory other := by
  have still {next : PopPhase} (known : HazardSound memory consumer (.popping drain next)) :
      Slots memory ∧ memory.retireNext = memory.retireNext ∧ HazardSound memory consumer (.popping drain next) ∧
        ∀ other, other ≠ consumer →
          memory.hazardSlot other = memory.hazardSlot other ∧ hazardOf memory other = hazardOf memory other :=
    ⟨slots, rfl, known, fun _ _ => ⟨rfl, rfl⟩⟩
  have published (ptr : Option Node) {next : PopPhase}
      (known : HazardSound (memory.setHazard consumer ptr) consumer (.popping drain next)) :
      Slots (memory.setHazard consumer ptr) ∧ (memory.setHazard consumer ptr).retireNext = memory.retireNext ∧
        HazardSound (memory.setHazard consumer ptr) consumer (.popping drain next) ∧
        ∀ other, other ≠ consumer → (memory.setHazard consumer ptr).hazardSlot other = memory.hazardSlot other ∧
          hazardOf (memory.setHazard consumer ptr) other = hazardOf memory other :=
    ⟨slots.setHazard consumer ptr, setHazard_retireNext, known, fun other differs =>
      ⟨by rw [setHazard_hazardSlot], hazardOf_setHazard_other slots differs⟩⟩
  cases phase with
  | called =>
      obtain ⟨given, found, result⟩ := Option.map_eq_some_iff.mp stepped
      cases result
      exact hazardSlotForThisThread_spec slots found
  | loading =>
      simp only [stackPop] at stepped
      split at stepped <;> cases stepped
      · exact still trivial
      · exact still sound
  | empty =>
      cases stepped
      exact published none hazardOf_setHazard_none
  | loaded node tag =>
      cases stepped
      exact published (some node) (hazardOf_setHazard sound)
  | published node tag =>
      simp only [stackPop] at stepped
      split at stepped <;> cases stepped
      · exact still sound
      · exact still (given_of_hazardOf sound)
  | validated node tag =>
      cases stepped
      exact still sound
  | read node tag link =>
      simp only [stackPop, Memory.exchange] at stepped
      by_cases won : memory.head = { ptr := some node, tag } ∧ spurious = false
      · rw [if_pos won] at stepped
        cases stepped
        exact ⟨slots.congr rfl rfl rfl, rfl, trivial, fun _ _ => ⟨rfl, rfl⟩⟩
      · rw [if_neg won] at stepped
        cases stepped
        exact still (given_of_hazardOf sound)
  | taken node =>
      cases stepped
      exact published none hazardOf_setHazard_none
  | returned node => cases stepped

end HundredDays.TreiberStack.Reclamation
