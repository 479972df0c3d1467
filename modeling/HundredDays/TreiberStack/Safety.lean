import HundredDays.TreiberStack.Guarded

namespace HundredDays.TreiberStack.Reclamation

open HundredDays.Data

/-! Whatever the producers and the consumers do, no pop follows a node that was freed. -/

variable {producers consumers : Nat} {world next : World producers consumers} {main after : Main producers consumers}
  {node : Node} {producer : Fin producers} {consumer : Fin consumers} {chance : Chance}
  {history : List (Event consumers)} {event : Event consumers}

/-- A pop reads the link of a node that was not freed since the pop loaded it as the head. -/
def Guarded (history : List (Event consumers)) : Prop :=
  ∀ before consumer node later, history = before ++ .followed consumer node :: later → Unfreed consumer node before

/-- A scan has not passed the slot of a consumer whose hazard is the node, and valid. -/
def Clear (main : Main producers consumers) : Prop :=
  ∀ scanner consumer node passed drain tag, (main.consumer scanner).phase.scanned = some (node, passed) →
    (main.consumer consumer).phase = .popping drain (.validated node tag) →
      ∃ slot, main.store.memory.hazardSlot consumer = some slot ∧ passed ≤ slot

/-- What holds between any two steps of the threads. -/
structure Sound (main : Main producers consumers) (world : World producers consumers) : Prop where
  store : world.store = main.store
  history : world.history = main.history
  shared : Shared world
  producer : ∀ producer, ProducerSound world producer (main.producer producer)
  consumer : ∀ consumer, ConsumerSound world consumer (main.consumer consumer).phase
  clear : Clear main
  guarded : Guarded main.history

theorem Guarded.concat (guarded : Guarded history)
    (alive : ∀ consumer node, event = .followed consumer node → Unfreed consumer node history) :
    Guarded (history ++ [event]) := by
  intro before consumer node later split
  cases later using List.reverseRecOn with
  | nil =>
      obtain ⟨rfl, here⟩ := List.append_inj' split rfl
      exact alive consumer node (List.singleton_inj.mp here)
  | append_singleton later last _ =>
      rw [← List.cons_append, ← List.append_assoc] at split
      exact guarded before consumer node later (List.append_inj' split rfl).1

theorem Guarded.append (guarded : Guarded history) {events : List (Event consumers)}
    (unfollowed : ∀ event ∈ events, ∀ consumer node, event ≠ .followed consumer node) :
    Guarded (history ++ events) := by
  induction events using List.reverseRecOn with
  | nil =>
      rw [List.append_nil]
      exact guarded
  | append_singleton events last ih =>
      rw [← List.append_assoc]
      have earlier := ih fun event listed => unfollowed event (List.mem_append_left _ listed)
      exact earlier.concat fun consumer node here => absurd here (unfollowed last (by simp) consumer node)

/-- A producer allocates and pushes. -/
theorem produce_frame (stepped : main.produce producer chance = some after) : after.consumer = main.consumer ∧
    (∃ phase, after.producer = Function.update main.producer producer phase) ∧
    ∃ events, after.history = main.history ++ events ∧
      ∀ event ∈ events, ∃ node, event = .allocated node ∨ event = .pushed node := by
  have silent : ∃ events, main.history ++ [] = main.history ++ events ∧
      ∀ event ∈ events, ∃ node, event = .allocated node ∨ event = .pushed node := ⟨[], rfl, by simp⟩
  unfold Main.produce at stepped
  cases doing : main.producer producer with
  | loop j =>
      simp only [doing] at stepped
      split at stepped
      · obtain ⟨given, _, rfl⟩ := Option.map_eq_some_iff.mp stepped
        exact ⟨rfl, ⟨_, rfl⟩, _, rfl, by simp⟩
      · cases stepped
        exact ⟨rfl, ⟨_, rfl⟩, silent⟩
  | pushing j node phase =>
      simp only [doing] at stepped
      split at stepped
      · cases stepped
        exact ⟨rfl, ⟨_, rfl⟩, _, rfl, by simp⟩
      · cases stepped
        exact ⟨rfl, ⟨_, rfl⟩, silent⟩
  | counting j =>
      simp only [doing] at stepped
      cases stepped
      exact ⟨rfl, ⟨_, rfl⟩, silent⟩
  | finished =>
      simp only [doing] at stepped
      cases stepped

theorem consume_frame (stepped : main.consume consumer chance = some after) : after.producer = main.producer ∧
    ∃ next, after.consumer = Function.update main.consumer consumer next := by
  unfold Main.consume at stepped
  cases doing : (main.consumer consumer).phase with
  | popping drain phase =>
      simp only [doing] at stepped
      obtain ⟨_, _, rfl⟩ := Option.map_eq_some_iff.mp stepped
      exact ⟨rfl, _, rfl⟩
  | retiring other phase =>
      simp only [doing] at stepped
      obtain ⟨_, _, rfl⟩ := Option.map_eq_some_iff.mp stepped
      exact ⟨rfl, _, rfl⟩
  | sweeping final phase =>
      simp only [doing] at stepped
      obtain ⟨_, _, rfl⟩ := Option.map_eq_some_iff.mp stepped
      exact ⟨rfl, _, rfl⟩
  | returned =>
      simp only [doing] at stepped
      cases stepped
  | _ =>
      simp only [doing] at stepped
      cases stepped
      exact ⟨rfl, _, rfl⟩

namespace Sound

/-- A valid hazard is in the slot of its consumer. -/
theorem hazard (sound : Sound main world) {drain : Bool} {tag : UInt64}
    (valid : (main.consumer consumer).phase = .popping drain (.validated node tag)) :
    ∃ slot, main.store.memory.hazardSlot consumer = some slot ∧ main.store.memory.hazard slot = some node := by
  have known := (sound.consumer consumer).hazard
  rw [valid, sound.store] at known
  exact Option.bind_eq_some_iff.mp known

/-- A node that was found in no slot is not in a valid hazard. -/
theorem unfound (sound : Sound main world) {scanner : Fin consumers} {drain : Bool} {tag : UInt64}
    (found : (main.consumer scanner).phase.scanned = some (node, MAX_HAZARD_THREADS)) :
    (main.consumer consumer).phase ≠ .popping drain (.validated node tag) := by
  intro valid
  obtain ⟨slot, given, passed⟩ := sound.clear scanner consumer node _ drain tag found valid
  rw [← sound.store] at given
  have below := sound.shared.slots.given consumer slot given
  have few := sound.shared.slots.few
  omega

theorem produce (sound : Sound main world) (stepped : main.produce producer chance = some after) :
    ∃ next, Sound after next := by
  obtain ⟨next, store, history, moved, known⟩ :=
    produce_moved sound.shared sound.store sound.history (sound.producer producer) stepped
  obtain ⟨consumers, ⟨phase, producers⟩, events, emitted, kinds⟩ := produce_frame stepped
  refine ⟨next, store, history, moved.shared, ?_, ?_, ?_, ?_⟩
  · intro other
    by_cases here : other = producer
    · rw [here]
      exact known
    · rw [producers, Function.update_of_ne here]
      exact (sound.producer other).undisturbed (moved.others _ fun same => here (Sum.inl.inj same))
  · intro consumer
    rw [consumers]
    refine (sound.consumer consumer).undisturbed sound.shared (moved.others _ (by simp)) ?_
    intro drain node tag _ others recorded freed
    rw [history, emitted, sound.history] at recorded
    rw [← List.append_cancel_left recorded] at freed
    obtain ⟨other, kind⟩ := kinds _ freed
    simp at kind
  · intro scanner consumer node passed drain tag looks valid
    rw [consumers] at looks valid
    have same := ((moved.others (.inr consumer) (by simp)).hazard consumer rfl).1
    rw [← store, same, sound.store]
    exact sound.clear scanner consumer node passed drain tag looks valid
  · rw [emitted]
    refine sound.guarded.append fun event listed consumer node here => ?_
    obtain ⟨other, kind⟩ := kinds event listed
    simp [here] at kind

theorem consume (sound : Sound main world) (few : swaps main.history < 2 ^ 64)
    (stepped : main.consume consumer chance = some after) : ∃ next, Sound after next := by
  obtain ⟨next, store, history, moved, known⟩ :=
    consume_moved sound.shared sound.store sound.history few (sound.consumer consumer) stepped
  obtain ⟨producers, own, consumers⟩ := consume_frame stepped
  have others (other : Fin _) (differs : other ≠ consumer) : after.consumer other = main.consumer other := by
    rw [consumers, Function.update_of_ne differs]
  have slots (other : Fin _) (differs : other ≠ consumer) :
      after.store.memory.hazardSlot other = main.store.memory.hazardSlot other := by
    rw [← store, ← sound.store]
    exact ((moved.others (.inr other) fun same => differs (Sum.inr.inj same)).hazard other rfl).1
  refine ⟨next, store, history, moved.shared, ?_, ?_, ?_, ?_⟩
  · intro producer
    rw [producers]
    exact (sound.producer producer).undisturbed (moved.others _ (by simp))
  · intro other
    by_cases here : other = consumer
    · rw [here]
      exact known
    · rw [others other here]
      refine (sound.consumer other).undisturbed sound.shared (moved.others _ fun same => here (Sum.inr.inj same)) ?_
      intro drain node tag valid events emitted freed
      rw [history, sound.history] at emitted
      obtain silent | ⟨event, recorded, frees, _⟩ := consume_history stepped
      · rw [silent] at emitted
        rw [List.self_eq_append_right.mp emitted] at freed
        cases freed
      · rw [recorded] at emitted
        rw [← List.append_cancel_left emitted, List.mem_singleton] at freed
        exact sound.unfound (frees node freed.symm) valid
  · intro scanner other node passed drain tag looks valid
    by_cases here : other = consumer
    · have differs : scanner ≠ consumer := by
        intro equal
        subst equal
        rw [here] at valid
        rw [valid] at looks
        cases looks
      rw [here] at valid
      rw [others scanner differs] at looks
      have top := consume_validated stepped valid
      rw [← sound.store] at top
      have stacked := (sound.shared.stack node).mpr (sound.shared.head_mem top)
      exact absurd stacked ((sound.consumer scanner).scanned sound.shared looks)
    · rw [others other here] at valid
      rw [slots other here]
      by_cases mine : scanner = consumer
      · obtain ⟨slot, given, inside⟩ := sound.hazard valid
        rw [mine] at looks
        obtain zero | ⟨before, looked, onward⟩ := consume_scanned stepped looks
        · exact ⟨slot, given, by omega⟩
        · obtain ⟨slot, given', behind⟩ := sound.clear consumer other node before drain tag looked valid
          cases given.symm.trans given'
          refine ⟨slot, given, ?_⟩
          obtain earlier | ⟨later, away⟩ := onward
          · omega
          · have apart : before ≠ slot := by
              intro equal
              subst equal
              exact away inside
            omega
      · rw [others scanner mine] at looks
        exact sound.clear scanner other node passed drain tag looks valid
  · obtain silent | ⟨event, recorded, _, follows⟩ := consume_history stepped
    · rw [silent]
      exact sound.guarded
    · rw [recorded]
      refine sound.guarded.concat fun other node here => ?_
      obtain ⟨rfl, drain, tag, valid⟩ := follows other node here
      have fresh := (sound.consumer other).knows
      rw [valid] at fresh
      rw [← sound.history]
      exact fresh.2

end Sound

end HundredDays.TreiberStack.Reclamation
