import HundredDays.Semantics.Run
import HundredDays.TreiberStack.Accounts

namespace HundredDays.TreiberStack.Reclamation

open HundredDays.Data
open HundredDays.Semantics

/-! What is left when all consumers have returned.

The last consumer that sweeps the retire list finds no hazard in the slots.
-/

variable {producers consumers : Nat} {world : World producers consumers} {main after : Main producers consumers}
  {node : Node} {producer : Fin producers} {consumer : Fin consumers} {chance : Chance}

/-- How far a consumer is towards its end: it has found no producer, no node, or its last pop is over. -/
def ConsumerPhase.closing : ConsumerPhase → Nat
  | .looking => 1
  | .popping drain _ => if drain then 2 else 0
  | .sweeping final _ => if final then 3 else 0
  | .reporting => 3
  | .returned => 3
  | _ => 0

/-- The consumer is in its last sweep, and has left no node on the retire list so far. -/
def ConsumerPhase.clearing : ConsumerPhase → Bool
  | .sweeping true .locking => true
  | .sweeping true .starting => true
  | .sweeping true (.visiting none _) => true
  | .sweeping true (.scanning none _ _ _) => true
  | .sweeping true (.unlinking none _ _) => true
  | .sweeping true (.freeing none _ _) => true
  | _ => false

structure Closing (main : Main producers consumers) : Prop where
  deserted : ∀ consumer producer, 1 ≤ (main.consumer consumer).phase.closing → main.producer producer = .finished
  emptied : ∀ consumer, 2 ≤ (main.consumer consumer).phase.closing → main.store.memory.head.ptr = none
  cleared : (∀ consumer, 3 ≤ (main.consumer consumer).phase.closing) →
    main.store.retireList = none ∨ ∃ consumer, (main.consumer consumer).phase.clearing = true

/-- How a consumer comes closer to its end. -/
theorem consume_closing (stepped : main.consume consumer chance = some after) :
    (after.consumer consumer).phase.closing ≤ (main.consumer consumer).phase.closing ∨
    ((after.consumer consumer).phase.closing = 1 ∧ main.activeProducers = 0) ∨
    ((main.consumer consumer).phase.closing = 1 ∧ (after.consumer consumer).phase.closing = 2 ∧
      main.store.memory.head.ptr = none) ∨
    ((main.consumer consumer).phase.closing = 2 ∧ (after.consumer consumer).phase.clearing = true) := by
  unfold Main.consume at stepped
  cases doing : (main.consumer consumer).phase with
  | popping drain phase =>
      simp only [doing] at stepped
      obtain ⟨⟨memory, next⟩, popped, rfl⟩ := Option.map_eq_some_iff.mp stepped
      simp only [Main.setConsumer, Function.update_self]
      cases next with
      | returned answer =>
          cases answer with
          | none =>
              cases drain with
              | false => exact .inl (Nat.zero_le _)
              | true => exact .inr (.inr (.inr ⟨rfl, rfl⟩))
          | some node => exact .inl (Nat.zero_le _)
      | _ => exact .inl (Nat.le_refl _)
  | checking =>
      simp only [doing] at stepped
      cases stepped
      simp only [Main.setConsumer, Function.update_self]
      split
      · rename_i none
        exact .inr (.inl ⟨rfl, none⟩)
      · exact .inl (Nat.zero_le _)
  | looking =>
      simp only [doing] at stepped
      cases stepped
      simp only [Main.setConsumer, Function.update_self]
      cases top : main.store.memory.head.ptr with
      | none => exact .inr (.inr (.inl ⟨rfl, rfl, rfl⟩))
      | some node => exact .inl (Nat.zero_le _)
  | retiring node phase =>
      simp only [doing] at stepped
      obtain ⟨⟨given, next⟩, _, rfl⟩ := Option.map_eq_some_iff.mp stepped
      simp only [Main.setConsumer, Function.update_self]
      cases next with
      | returned =>
          simp only [Consumer.afterRetire]
          split <;> exact .inl (Nat.zero_le _)
      | _ => exact .inl (Nat.zero_le _)
  | sweeping final phase =>
      simp only [doing] at stepped
      obtain ⟨⟨given, next⟩, _, rfl⟩ := Option.map_eq_some_iff.mp stepped
      simp only [Main.setConsumer, Function.update_self]
      cases next with
      | returned => cases final <;> exact .inl (Nat.le_refl _)
      | _ => exact .inl (Nat.le_refl _)
  | reporting =>
      simp only [doing] at stepped
      cases stepped
      simp only [Main.setConsumer, Function.update_self]
      exact .inl (Nat.le_refl _)
  | returned =>
      simp only [doing] at stepped
      cases stepped

theorem Shared.empty_iff (shared : Shared world) : world.store.memory.head.ptr = none ↔ world.nodes = [] := by
  rw [shared.represents.chain.start_eq_head?, List.head?_eq_none_iff]

theorem Shared.unretired_iff (shared : Shared world) : world.store.retireList = none ↔ world.retired = [] := by
  rw [shared.chain.start_eq_head?, List.head?_eq_none_iff]

/-- A consumer pushes nothing. -/
theorem Sound.stays_empty {next : World producers consumers} (sound : Sound main world) (counted : Counted main)
    (kept : Sound after next) (recounted : Counted after) (stepped : main.consume consumer chance = some after)
    (empty : main.store.memory.head.ptr = none) : after.store.memory.head.ptr = none := by
  have same : pushes after.history = pushes main.history := by
    rw [recounted.pushed, counted.pushed, (consume_frame stepped).1]
  have more : pops main.history ≤ pops after.history := by
    obtain silent | ⟨event, recorded, _⟩ := consume_history stepped
    · rw [silent]
    · rw [recorded, pops_append]
      omega
  rw [← sound.store, sound.shared.empty_iff] at empty
  rw [← kept.store, kept.shared.empty_iff, ← List.length_eq_zero_iff]
  have before := sound.shared.balance
  have now := kept.shared.balance
  rw [empty, List.length_nil, sound.history] at before
  rw [kept.history] at now
  omega

/-- Nothing is in a slot when the last pop of each consumer is over. -/
theorem Sound.unhazarded (sound : Sound main world) (closed : ∀ consumer, 3 ≤ (main.consumer consumer).phase.closing)
    (slot : Nat) : main.store.memory.hazard slot = none := by
  by_cases given : ∃ consumer, main.store.memory.hazardSlot consumer = some slot
  · obtain ⟨consumer, given⟩ := given
    have late := closed consumer
    have hazard := (sound.consumer consumer).hazard
    rw [sound.store] at hazard
    have none : hazardOf main.store.memory consumer = none := by
      cases doing : (main.consumer consumer).phase with
      | popping drain phase =>
          rw [doing] at late
          simp only [ConsumerPhase.closing] at late
          split at late <;> omega
      | _ =>
          rw [doing] at hazard
          exact hazard
    rwa [hazardOf, given] at none
  · have slots := sound.shared.slots
    rw [sound.store] at slots
    exact slots.unused slot fun consumer here => given ⟨consumer, here⟩

theorem nodeIsHazardous_true {memory : Memory (Fin consumers)} {slot : Nat}
    (looked : nodeIsHazardous memory node slot = some true) : memory.hazard slot = some node := by
  unfold nodeIsHazardous at looked
  split at looked
  · split at looked
    · assumption
    · cases looked
  · cases looked

/-- A last sweep without hazards leaves nothing on the retire list. -/
theorem retireSweep_cleared {store : Store (Fin consumers)} {phase next : SweepPhase} (shared : Shared world)
    (knows : SweepSound world.retired phase) (unhazarded : ∀ slot, world.store.memory.hazard slot = none)
    (was : world.store.retireList = none ∨ (ConsumerPhase.sweeping true phase).clearing = true)
    (stepped : retireSweep world.store consumer chance phase = some (store, next)) :
    store.retireList = none ∨ (ConsumerPhase.sweeping true next).clearing = true := by
  cases phase with
  | locking =>
      obtain ⟨locked, found, result⟩ := Option.map_eq_some_iff.mp stepped
      cases result
      exact .inr rfl
  | starting =>
      cases stepped
      exact .inr rfl
  | visiting prev cur =>
      cases cur with
      | none =>
          cases stepped
          cases prev with
          | none =>
              obtain ⟨visited, rest, split, before, here⟩ := knows
              refine .inl (shared.unretired_iff.mpr ?_)
              rw [split, List.getLast?_eq_none_iff.mp before.symm, List.head?_eq_none_iff.mp here.symm]
              rfl
          | some prev => exact .inl (was.resolve_right Bool.false_ne_true)
      | some cur =>
          cases stepped
          cases prev with
          | none => exact .inr rfl
          | some prev => exact .inl (was.resolve_right Bool.false_ne_true)
  | scanning prev cur link slot =>
      simp only [retireSweep] at stepped
      split at stepped
      · cases stepped
        cases prev with
        | none => exact .inr rfl
        | some prev => exact .inl (was.resolve_right Bool.false_ne_true)
      · rename_i looked
        have hazard := nodeIsHazardous_true looked
        rw [unhazarded] at hazard
        cases hazard
      · cases stepped
        cases prev with
        | none => exact .inr rfl
        | some prev => exact .inl (was.resolve_right Bool.false_ne_true)
  | unlinking prev cur link =>
      cases stepped
      cases prev with
      | none => exact .inr rfl
      | some prev => exact .inl (was.resolve_right Bool.false_ne_true)
  | freeing prev cur link =>
      cases stepped
      cases prev with
      | none => exact .inr rfl
      | some prev => exact .inl (was.resolve_right Bool.false_ne_true)
  | unlocking =>
      cases stepped
      exact .inl (was.resolve_right Bool.false_ne_true)
  | returned => cases stepped

theorem Sound.consume_cleared (sound : Sound main world) (unhazarded : ∀ slot, main.store.memory.hazard slot = none)
    (closed : 3 ≤ (main.consumer consumer).phase.closing)
    (was : main.store.retireList = none ∨ (main.consumer consumer).phase.clearing = true)
    (stepped : main.consume consumer chance = some after) :
    after.store.retireList = none ∨ (after.consumer consumer).phase.clearing = true := by
  have known := (sound.consumer consumer).knows
  unfold Main.consume at stepped
  cases doing : (main.consumer consumer).phase with
  | sweeping final phase =>
      rw [doing] at known closed was
      simp only [doing] at stepped
      obtain ⟨⟨given, next⟩, swept, rfl⟩ := Option.map_eq_some_iff.mp stepped
      simp only [Main.setConsumer, Function.update_self]
      cases final with
      | false => simp [ConsumerPhase.closing] at closed
      | true =>
          rw [← sound.store] at unhazarded was swept
          have cleared := retireSweep_cleared sound.shared known unhazarded was swept
          cases next <;> exact cleared
  | reporting =>
      rw [doing] at was
      simp only [doing] at stepped
      cases stepped
      exact .inl (was.resolve_right Bool.false_ne_true)
  | popping drain phase =>
      rw [doing] at closed
      simp only [ConsumerPhase.closing] at closed
      split at closed <;> omega
  | returned =>
      simp only [doing] at stepped
      cases stepped
  | _ =>
      rw [doing] at closed
      simp [ConsumerPhase.closing] at closed

theorem produce_retireList (stepped : main.produce producer chance = some after) :
    after.store.retireList = main.store.retireList := by
  unfold Main.produce at stepped
  cases doing : main.producer producer with
  | loop j =>
      simp only [doing] at stepped
      split at stepped
      · obtain ⟨given, found, rfl⟩ := Option.map_eq_some_iff.mp stepped
        unfold Store.malloc at found
        split at found <;> cases found
        rfl
      · cases stepped
        rfl
  | pushing j node phase =>
      simp only [doing] at stepped
      split at stepped <;> cases stepped <;> rfl
  | counting j =>
      simp only [doing] at stepped
      cases stepped
      rfl
  | finished =>
      simp only [doing] at stepped
      cases stepped

namespace Closing

/-- While a producer is at work no consumer has seen that there is none. -/
theorem busy (closing : Closing main) (stepped : main.produce producer chance = some after) (consumer : Fin consumers) :
    (main.consumer consumer).phase.closing = 0 := by
  by_contra late
  have finished := closing.deserted consumer producer (by omega)
  simp only [Main.produce, finished] at stepped
  cases stepped

theorem produce (closing : Closing main) (stepped : main.produce producer chance = some after) : Closing after := by
  have busy := closing.busy stepped
  have same := (produce_frame stepped).1
  have early (consumer : Fin consumers) : (after.consumer consumer).phase.closing = 0 := by
    rw [same]
    exact busy consumer
  constructor
  · intro consumer other late
    have none := early consumer
    omega
  · intro consumer late
    have none := early consumer
    omega
  · intro late
    rw [produce_retireList stepped, same]
    refine closing.cleared fun consumer => ?_
    rw [← same]
    exact late consumer

theorem consume {next : World producers consumers} (closing : Closing main) (sound : Sound main world)
    (counted : Counted main) (kept : Sound after next) (recounted : Counted after) (few : producers < 2 ^ 32)
    (stepped : main.consume consumer chance = some after) : Closing after := by
  obtain ⟨same, own, consumers⟩ := consume_frame stepped
  have others (other : Fin _) (differs : other ≠ consumer) : after.consumer other = main.consumer other := by
    rw [consumers, Function.update_of_ne differs]
  have onward := consume_closing stepped
  have empty := sound.stays_empty counted kept recounted stepped
  constructor
  · intro other producer late
    rw [same]
    by_cases here : other = consumer
    · rw [here] at late
      obtain earlier | ⟨_, none⟩ | ⟨before, _⟩ | ⟨before, _⟩ := onward
      · exact closing.deserted consumer producer (by omega)
      · exact counted.finished few none producer
      · exact closing.deserted consumer producer (by omega)
      · exact closing.deserted consumer producer (by omega)
    · rw [others other here] at late
      exact closing.deserted other producer late
  · intro other late
    by_cases here : other = consumer
    · rw [here] at late
      obtain earlier | ⟨one, _⟩ | ⟨_, _, top⟩ | ⟨before, _⟩ := onward
      · exact empty (closing.emptied consumer (by omega))
      · omega
      · exact empty top
      · exact empty (closing.emptied consumer (by omega))
    · rw [others other here] at late
      exact empty (closing.emptied other late)
  · intro late
    by_cases before : 3 ≤ (main.consumer consumer).phase.closing
    · have closed (other : Fin _) : 3 ≤ (main.consumer other).phase.closing := by
        by_cases here : other = consumer
        · rw [here]
          exact before
        · rw [← others other here]
          exact late other
      have step (was : main.store.retireList = none ∨ (main.consumer consumer).phase.clearing = true) :=
        sound.consume_cleared (sound.unhazarded closed) before was stepped
      obtain unretired | ⟨other, clears⟩ := closing.cleared closed
      · exact (step (.inl unretired)).imp_right fun clears => ⟨consumer, clears⟩
      · by_cases here : other = consumer
        · rw [here] at clears
          exact (step (.inr clears)).imp_right fun clears => ⟨consumer, clears⟩
        · rw [← others other here] at clears
          exact .inr ⟨other, clears⟩
    · obtain earlier | ⟨one, _⟩ | ⟨_, two, _⟩ | ⟨_, clears⟩ := onward
      · exact absurd (Nat.le_trans (late consumer) earlier) before
      · have three := late consumer
        omega
      · have three := late consumer
        omega
      · exact .inr ⟨consumer, clears⟩

end Closing

structure Invariant (main : Main producers consumers) : Prop where
  sound : ∃ world, Sound main world
  counted : Counted main
  closing : Closing main

theorem Invariant.step {turn : Turn producers consumers} (invariant : Invariant main) (few : producers < 2 ^ 32)
    (stepped : main.step turn = some after) : Invariant after := by
  obtain ⟨world, sound⟩ := invariant.sound
  cases turn with
  | produce producer chance =>
      constructor
      · exact sound.produce stepped
      · exact invariant.counted.produce stepped
      · exact invariant.closing.produce stepped
  | consume consumer chance =>
      obtain ⟨next, kept⟩ := sound.consume (invariant.counted.swaps_lt sound few) stepped
      have recounted := invariant.counted.consume stepped
      constructor
      · exact ⟨next, kept⟩
      · exact recounted
      · exact invariant.closing.consume sound invariant.counted kept recounted few stepped

theorem Shared.initial (producers : Nat) (next retireNext : Node → Option Node) :
    Shared (⟨(Main.initial producers consumers next retireNext).store, fun _ => .allocator, [], [], []⟩ :
      World producers consumers) := by
  constructor
  · exact Represents.init next retireNext
  · simp
  · simp [Main.initial]
  · rfl
  · exact List.nodup_nil
  · simp
  · constructor
    · intro consumer slot given
      cases given
    · exact Nat.zero_le _
    · intro consumer other slot given
      cases given
    · intro slot _
      rfl
  · intro node
    exact ⟨0, rfl, rfl⟩
  · rfl

theorem Invariant.initial (producers consumers : Nat) (next retireNext : Node → Option Node) :
    Invariant (Main.initial producers consumers next retireNext) := by
  constructor
  · refine ⟨_, rfl, rfl, Shared.initial producers next retireNext, ?_, ?_, ?_, ?_⟩
    · intro producer
      constructor
      · simp [Main.initial, ProducerPhase.custody]
      · intro j node push equal
        cases equal
    · intro consumer
      constructor
      · simp [Main.initial, ConsumerPhase.custody, PopPhase.answer]
      · simp [Main.initial, ConsumerPhase.critical]
      · rfl
      · exact ⟨trivial, trivial⟩
    · intro scanner consumer node passed drain tag looks
      cases looks
    · intro before consumer node later split
      simp [Main.initial] at split
  · constructor
    · exact (census_eq_zero.mpr fun _ => rfl).symm
    · intro producer
      exact Nat.zero_le _
    · have none : census Consumer.pending (Main.initial producers consumers next retireNext).consumer = 0 :=
        census_eq_zero.mpr fun _ => rfl
      rw [none]
      rfl
    · simp [Main.initial, census, ProducerPhase.active]
  · constructor
    · intro consumer producer late
      cases late
    · intro consumer late
      rfl
    · intro late
      exact .inl rfl

/-- Nothing is left: each node has been freed as often as it was pushed. -/
structure Reclaimed (main : Main producers consumers) : Prop where
  stack : main.store.memory.head.ptr = none
  retireList : main.store.retireList = none
  freed : ∀ node, ∃ times, Lived node main.history (4 * times)
  consumed : main.totalConsumed = pushes main.history

theorem Invariant.reclaimed (invariant : Invariant main) (consumer : Fin consumers)
    (returned : ∀ consumer, (main.consumer consumer).phase = .returned) : Reclaimed main := by
  obtain ⟨world, sound⟩ := invariant.sound
  have closed (consumer : Fin consumers) : 3 ≤ (main.consumer consumer).phase.closing := by
    rw [returned consumer]
    exact Nat.le_refl 3
  have top := invariant.closing.emptied consumer (Nat.le_of_succ_le (closed consumer))
  have unretired : main.store.retireList = none := by
    obtain unretired | ⟨other, clears⟩ := invariant.closing.cleared closed
    · exact unretired
    · rw [returned other] at clears
      cases clears
  have nodes : world.nodes = [] := by rw [← sound.shared.empty_iff, sound.store, top]
  have retired : world.retired = [] := by rw [← sound.shared.unretired_iff, sound.store, unretired]
  have home (node : Node) : world.place node = .allocator := by
    cases here : world.place node with
    | allocator => rfl
    | stack =>
        rw [sound.shared.stack, nodes] at here
        cases here
    | retired =>
        rw [sound.shared.retired, retired] at here
        cases here
    | agent owner =>
        cases owner with
        | inl producer =>
            have held := ((sound.producer producer).custody node).mp here
            rw [invariant.closing.deserted consumer producer (Nat.le_trans (by decide) (closed consumer))] at held
            cases held
        | inr owner =>
            have held := ((sound.consumer owner).custody node).mp here
            rw [returned owner] at held
            cases held
  constructor
  · exact top
  · exact unretired
  · intro node
    obtain ⟨count, lived, stage⟩ := sound.shared.lives node
    rw [home node] at stage
    rw [sound.history] at lived
    refine ⟨count / 4, ?_⟩
    rwa [Nat.mul_div_cancel' (Nat.dvd_of_mod_eq_zero stage)]
  · have popped := invariant.counted.popped
    have balance := sound.shared.balance
    have told : census Consumer.pending main.consumer = 0 := by
      rw [census_eq_zero]
      intro consumer
      rw [Consumer.pending, returned consumer]
    rw [nodes, List.length_nil, sound.history] at balance
    omega

/-- No pop follows a node that was freed since the pop loaded it.  A node is freed once after each
pop of it, and not again before it is allocated, pushed and popped again.  When all consumers have
returned nothing is left. -/
theorem nodes_reclaimed (few : producers < 2 ^ 32) (next retireNext : Node → Option Node)
    (turns : List (Turn producers consumers))
    (ran : run Main.step (Main.initial producers consumers next retireNext) turns = some main) :
    Guarded main.history ∧ (∀ node, ∃ count, Lived node main.history count) ∧
      (0 < consumers → (∀ consumer, (main.consumer consumer).phase = .returned) → Reclaimed main) := by
  have invariant : Invariant main :=
    run_invariant Invariant (fun _ _ _ kept stepped => kept.step few stepped)
      (Invariant.initial producers consumers next retireNext) ran
  obtain ⟨world, sound⟩ := invariant.sound
  refine ⟨sound.guarded, fun node => ?_, fun some returned => invariant.reclaimed ⟨0, some⟩ returned⟩
  obtain ⟨count, lived, _⟩ := sound.shared.lives node
  rw [sound.history] at lived
  exact ⟨count, lived⟩

/-- `malloc` returns this node, and no compare-and-exchange fails for no reason. -/
def quietly (node : Node) : Chance := { node, next := none, retireNext := none, spurious := false }

/-- The producer pushes a node. -/
def onePushed {consumers count : Nat} (producer : Fin count) : List (Turn count consumers) :=
  List.replicate 4 (.produce producer (quietly 7))

/-- The consumer finds neither a node nor a producer. -/
def noneFound {producers : Nat} : List (Turn producers 1) := List.replicate 13 (.consume ⟨0, by decide⟩ (quietly 0))

theorem nodes_reclaimed_seven :
    (∃ main : Main 1 1,
      main.history = [.allocated 7, .pushed 7, .loaded 0 7, .followed 0 7, .popped 7, .freed 7] ∧
        Guarded main.history ∧ ∀ node, ∃ count, Lived node main.history count) ∧
    ∃ main : Main 0 1, (main.consumer 0).phase = .returned ∧ Reclaimed main := by
  constructor
  · have finishes : (run Main.step (Main.initial 1 1 (fun _ => none) fun _ => none)
        (onePushed 0 ++ List.replicate 41 (.consume 0 (quietly 0)))).map Main.history =
        some [.allocated 7, .pushed 7, .loaded 0 7, .followed 0 7, .popped 7, .freed 7] := by decide +kernel
    obtain ⟨main, ran, history⟩ := Option.map_eq_some_iff.mp finishes
    obtain ⟨guarded, lives, _⟩ := nodes_reclaimed (by decide) (fun _ => none) (fun _ => none) _ ran
    exact ⟨main, history, guarded, lives⟩
  · have finishes : (run Main.step (Main.initial 0 1 (fun _ => none) fun _ => none) noneFound).map
        (fun main => (main.consumer 0).phase) = some .returned := by decide +kernel
    obtain ⟨main, ran, returned⟩ := Option.map_eq_some_iff.mp finishes
    obtain ⟨_, _, reclaimed⟩ := nodes_reclaimed (by decide) (fun _ => none) (fun _ => none) _ ran
    refine ⟨main, returned, reclaimed (by decide) fun consumer => ?_⟩
    rw [Subsingleton.elim consumer 0]
    exact returned

/-- Without a consumer, or with so many producers that their number is 0 as an `int`, a node may be left. -/
theorem nodes_left :
    (∃ main : Main 1 0, run Main.step (Main.initial 1 0 (fun _ => none) fun _ => none) (onePushed 0) = some main ∧
      (∀ consumer, (main.consumer consumer).phase = .returned) ∧ main.store.memory.head.ptr = some 7) ∧
    ∃ main : Main (2 ^ 32) 1, run Main.step (Main.initial (2 ^ 32) 1 (fun _ => none) fun _ => none)
      (noneFound ++ onePushed ⟨0, by decide⟩) = some main ∧
      (∀ consumer, (main.consumer consumer).phase = .returned) ∧ main.store.memory.head.ptr = some 7 := by
  constructor
  · have finishes : (run Main.step (Main.initial 1 0 (fun _ => none) fun _ => none) (onePushed 0)).map
        (fun main => main.store.memory.head.ptr) = some (some 7) := by decide +kernel
    obtain ⟨main, ran, top⟩ := Option.map_eq_some_iff.mp finishes
    exact ⟨main, ran, fun consumer => consumer.elim0, top⟩
  · have finishes : (run Main.step (Main.initial (2 ^ 32) 1 (fun _ => none) fun _ => none)
        (noneFound ++ onePushed ⟨0, by decide⟩)).map
        (fun main => ((main.consumer 0).phase, main.store.memory.head.ptr)) = some (.returned, some 7) := by
      decide +kernel
    obtain ⟨main, ran, ends⟩ := Option.map_eq_some_iff.mp finishes
    obtain ⟨returned, top⟩ := Prod.mk.inj ends
    refine ⟨main, ran, fun consumer => ?_, top⟩
    rw [Subsingleton.elim consumer 0]
    exact returned

end HundredDays.TreiberStack.Reclamation
