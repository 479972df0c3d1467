import HundredDays.TreiberStack.Hazards

namespace HundredDays.TreiberStack.Reclamation

open HundredDays.Data

/-! The steps of producers and consumers keep what they know. -/

variable {producers consumers : Nat} {world : World producers consumers} {main : Main producers consumers}
  {node : Node} {producer : Fin producers} {consumer : Fin consumers} {mine : Agent producers consumers}
  {chance : Chance}

theorem custody_gained {place : Node → Place producers consumers} {held : Option Node}
    (before : ∀ other, place other = .agent mine ↔ held = some other) (empty : held = none) (other : Node) :
    Function.update place node (.agent mine) other = .agent mine ↔ some node = some other := by
  rw [Option.some_inj]
  by_cases here : other = node
  · simp [here]
  · rw [Function.update_of_ne here, before, empty]
    simp [Ne.symm here]

theorem custody_lost {place : Node → Place producers consumers} {target : Place producers consumers}
    {held : Option Node} (before : ∀ other, place other = .agent mine ↔ held = some other) (own : held = some node)
    (away : target ≠ .agent mine) (other : Node) :
    Function.update place node target other = .agent mine ↔ none = some other := by
  by_cases here : other = node
  · simp [here, away]
  · rw [Function.update_of_ne here, before, own]
    simp [Ne.symm here]

theorem Shared.stays (shared : Shared world) (mine : Agent producers consumers) : Moved mine world world :=
  shared.moved mine [] rfl rfl rfl rfl rfl rfl (fun _ _ => ⟨rfl, rfl⟩) shared.slots (fun _ _ => ⟨rfl, rfl⟩)
    (fun _ _ => Iff.rfl) (by simp) (by simp)

/-- A step of a producer. -/
theorem produce_moved {after : Main producers consumers} (shared : Shared world) (store : world.store = main.store)
    (history : world.history = main.history) (sound : ProducerSound world producer (main.producer producer))
    (stepped : main.produce producer chance = some after) : ∃ next : World producers consumers,
      next.store = after.store ∧ next.history = after.history ∧ Moved (.inl producer) world next ∧
        ProducerSound next producer (after.producer producer) := by
  have quiet (phase : ProducerPhase) (empty : (main.producer producer).custody = none) (none : phase.custody = none) :
      Moved (.inl producer) world world ∧ ProducerSound world producer phase := by
    refine ⟨shared.stays (.inl producer), ?_, ?_⟩
    · rw [none, ← empty]
      exact sound.custody
    · intro j node push equal
      subst equal
      cases none
  unfold Main.produce at stepped
  cases doing : main.producer producer with
  | loop j =>
      simp only [doing] at stepped
      split at stepped
      · obtain ⟨given, found, rfl⟩ := Option.map_eq_some_iff.mp stepped
        simp only [Store.malloc] at found
        split at found
        · cases found
        · rename_i free
          cases found
          have origin : world.place chance.node = .allocator := by
            by_contra elsewhere
            rw [← store, (shared.allocated chance.node).mpr elsewhere] at free
            exact free rfl
          have empty : (main.producer producer).custody = none := by rw [doing]; rfl
          refine ⟨⟨_, Function.update world.place chance.node (.agent (.inl producer)), world.nodes, world.retired, _⟩,
            rfl, rfl, shared.handed chance (.inl origin) (.inr ⟨rfl, rfl⟩) (.inl rfl) (by rw [origin]; rfl)
              (by rw [origin]; rfl) ?_ rfl rfl rfl ?_, ?_, ?_⟩
          · rw [store]
            rfl
          · rw [history]
            rfl
          · simp only [Main.setProducer, Function.update_self]
            exact custody_gained sound.custody empty
          · simp only [Main.setProducer, Function.update_self]
            intro j node push equal
            cases equal
            exact ⟨by simp, trivial⟩
      · cases stepped
        refine ⟨world, store, by simpa [Main.setProducer] using history, ?_⟩
        simp only [Main.setProducer, Function.update_self]
        exact quiet .finished (by rw [doing]; rfl) rfl
  | counting j =>
      simp only [doing] at stepped
      cases stepped
      refine ⟨world, store, by simpa [Main.setProducer] using history, ?_⟩
      simp only [Main.setProducer, Function.update_self]
      exact quiet (.loop (j + 1)) (by rw [doing]; rfl) rfl
  | pushing j node phase =>
      obtain ⟨live, linked⟩ := sound.knows j node phase doing
      have held := (sound.custody node).mpr (by rw [doing]; rfl)
      simp only [doing] at stepped
      rw [← store] at stepped
      generalize result : stackPush world.store.memory node chance.spurious phase = pushed at stepped
      obtain ⟨memory, next⟩ := pushed
      obtain ⟨rfl, ready, rfl⟩ | ⟨unfinished, linkedNow, link, rfl⟩ := stackPush_spec linked live result
      · cases stepped
        refine ⟨⟨_, Function.update world.place node .stack, node :: world.nodes, world.retired, _⟩, rfl, rfl,
          shared.pushed held ready ?_ rfl rfl rfl ?_, ?_, ?_⟩
        · rfl
        · rw [history]
          rfl
        · simp only [Main.setProducer, Function.update_self]
          exact custody_lost sound.custody (by rw [doing]; rfl) (by simp)
        · simp only [Main.setProducer, Function.update_self]
          intro j node push equal
          cases equal
      · have made : after = main.setProducer producer (.pushing j node next) { world.store with
            memory := { world.store.memory with next := Function.update world.store.memory.next node link } } [] := by
          cases next with
          | returned => exact absurd rfl unfinished
          | _ => exact (Option.some.inj stepped).symm
        subst made
        refine ⟨{ world with store := { world.store with
            memory := { world.store.memory with next := Function.update world.store.memory.next node link } } },
          rfl, by simpa [Main.setProducer] using history,
          shared.moved (.inl producer) [] rfl rfl rfl rfl rfl rfl ?_ (shared.slots.congr rfl rfl rfl)
            (fun _ _ => ⟨rfl, rfl⟩) (fun _ _ => Iff.rfl) (by simp) (by simp), ?_, ?_⟩
        · intro other elsewhere
          have differs : other ≠ node := by
            intro equal
            subst equal
            exact elsewhere held
          exact ⟨Function.update_of_ne differs _ _, rfl⟩
        · simp only [Main.setProducer, Function.update_self]
          rw [doing] at sound
          exact sound.custody
        · simp only [Main.setProducer, Function.update_self]
          intro j node push equal
          cases equal
          exact ⟨unfinished, linkedNow⟩
  | finished =>
      simp only [doing] at stepped
      cases stepped

section Pop

variable {drain spurious : Bool} {phase next : PopPhase} {memory : Memory (Fin consumers)}
  {after : World producers consumers}

theorem stackPop_taken (stepped : stackPop world.store.memory consumer spurious phase = some (memory, .taken node)) :
    ∃ tag link, phase = .read node tag link := by
  cases phase with
  | called =>
      obtain ⟨given, found, result⟩ := Option.map_eq_some_iff.mp stepped
      cases result
  | loading =>
      simp only [stackPop] at stepped
      split at stepped <;> cases stepped
  | published other tag =>
      simp only [stackPop] at stepped
      split at stepped <;> cases stepped
  | read other tag link =>
      simp only [stackPop] at stepped
      split at stepped <;> cases stepped
      exact ⟨tag, link, rfl⟩
  | _ => cases stepped

/-- A step of a pop that takes no node looks at one at most. -/
theorem popEvents_by (untaken : phase.answer = none → ∀ node, next ≠ .taken node) :
    ∀ event ∈ popEvents consumer phase next, event.by consumer := by
  intro event emitted
  cases phase with
  | loading =>
      cases next with
      | loaded node tag => exact List.mem_singleton.mp emitted ▸ rfl
      | _ => cases emitted
  | validated node tag => exact List.mem_singleton.mp emitted ▸ rfl
  | read node tag link =>
      cases next with
      | taken node => exact absurd rfl (untaken rfl node)
      | _ => cases emitted
  | _ => cases emitted

theorem Fresh.stepped (shared : Shared world) (few : swaps world.history < 2 ^ 64) (fresh : Fresh world consumer phase)
    (stepped : stackPop world.store.memory consumer spurious phase = some (memory, next))
    (store : after.store.memory = memory) (history : after.history = world.history ++ popEvents consumer phase next)
    (same : swaps after.history = swaps world.history) : Fresh after consumer next := by
  have carried {node : Node} {tag : UInt64} (head : memory.head = world.store.memory.head)
      (quiet : after.history = world.history)
      (seen : Seen world.store.memory (swaps world.history) (some node) tag (Unfreed consumer node world.history)) :
      Seen after.store.memory (swaps after.history) (some node) tag (Unfreed consumer node after.history) := by
    rw [store, quiet]
    exact Seen.congr seen head fun _ known => known
  cases phase with
  | called =>
      obtain ⟨given, found, result⟩ := Option.map_eq_some_iff.mp stepped
      cases result
      trivial
  | loading =>
      simp only [stackPop] at stepped
      cases top : world.store.memory.head.ptr with
      | none =>
          rw [top] at stepped
          cases stepped
          trivial
      | some node =>
          rw [top] at stepped
          cases stepped
          have unfreed : Unfreed consumer node after.history := ⟨world.history, [], history, by simp, by simp⟩
          have loaded := Seen.load shared.represents unfreed
          rw [top] at loaded
          show Seen after.store.memory (swaps after.history) (some node) _ (Unfreed consumer node after.history)
          rw [store, same]
          exact loaded
  | loaded node tag =>
      cases stepped
      exact carried (setHazard_head ..) (history.trans (List.append_nil _)) fresh
  | published node tag =>
      simp only [stackPop] at stepped
      split at stepped
      · rename_i current
        cases stepped
        have unfreed : Unfreed consumer node world.history := Seen.current fresh shared.represents few (by rw [current])
        show Unfreed consumer node after.history
        rw [history]
        exact unfreed.append (by simp [popEvents]) (by simp [popEvents])
      · cases stepped
        trivial
  | read node tag link =>
      simp only [stackPop] at stepped
      split at stepped <;> cases stepped <;> trivial
  | returned node => cases stepped
  | _ =>
      cases stepped
      trivial

/-- A step of a pop. -/
theorem pop_moved (shared : Shared world) (few : swaps world.history < 2 ^ 64)
    (sound : ConsumerSound world consumer (.popping drain phase))
    (stepped : stackPop world.store.memory consumer spurious phase = some (memory, next)) :
    ∃ after : World producers consumers, after.store = { world.store with memory } ∧
      after.history = world.history ++ popEvents consumer phase next ∧ Moved (.inr consumer) world after ∧
        ConsumerSound after consumer (.popping drain next) := by
  obtain ⟨slots, retireNext, hazard, others⟩ := stackPop_slots shared.slots sound.hazard stepped
  have looking (head : memory.head = world.store.memory.head) (links : memory.next = world.store.memory.next)
      (untaken : phase.answer = none → ∀ node, next ≠ .taken node) (kept : next.answer.join = phase.answer.join)
      (known : PopSound memory (swaps world.history) next) :
      ∃ after : World producers consumers, after.store = { world.store with memory } ∧
        after.history = world.history ++ popEvents consumer phase next ∧ Moved (.inr consumer) world after ∧
          ConsumerSound after consumer (.popping drain next) := by
    have looks : ∀ event ∈ popEvents consumer phase next, event.by consumer := popEvents_by untaken
    have silent : ∀ event ∈ popEvents consumer phase next, event.exchanges = false := by
      intro event emitted
      have look := looks event emitted
      cases event with
      | loaded other node => rfl
      | followed other node => rfl
      | _ => exact look.elim
    obtain ⟨same, _, _⟩ := counts_append world.history silent
    refine ⟨{ world with
      store := { world.store with memory }
      history := world.history ++ popEvents consumer phase next }, rfl, rfl,
      shared.moved (.inr consumer) _ rfl rfl rfl head rfl rfl ?_ slots ?_ (fun _ _ => Iff.rfl) rfl
        (fun event emitted => ⟨consumer, rfl, looks event emitted⟩), ?_⟩
    · intro node _
      exact ⟨congrFun links node, congrFun retireNext node⟩
    · intro other differs
      exact others other fun here => differs (congrArg Sum.inr here.symm)
    · constructor
      · intro node
        rw [sound.custody]
        simp only [ConsumerPhase.custody, kept]
      · exact sound.critical
      · exact hazard
      · constructor
        · rw [same]
          exact known
        · exact Fresh.stepped shared few sound.knows.2 stepped rfl rfl same
  obtain ⟨node, rest, top, unanswered, rfl, rfl⟩ | ⟨_, unanswered, rfl, rfl⟩ | ⟨kept, known, head, links⟩ :=
    stackPop_spec shared.represents few sound.knows.1 stepped
  · have taking : popEvents consumer phase (.taken node) = [.popped node] := by
      obtain ⟨tag, link, rfl⟩ := stackPop_taken stepped
      rfl
    refine ⟨⟨_, Function.update world.place node (.agent (.inr consumer)), rest, world.retired, _⟩, rfl, rfl,
      shared.popped top rfl rfl rfl rfl (by rw [taking]), ?_⟩
    constructor
    · exact custody_gained sound.custody (by simp [ConsumerPhase.custody, unanswered])
    · exact sound.critical
    · exact hazard
    · exact ⟨trivial, trivial⟩
  · exact looking rfl rfl (by simp) (by rw [unanswered]; rfl) trivial
  · refine looking head links ?_ (by rw [kept]) known
    intro unanswered node taken
    rw [taken, unanswered] at kept
    cases kept

end Pop

def World.relock (world : World producers consumers) (lock : Option (Fin consumers)) : World producers consumers :=
  { world with store := { world.store with retireLock := lock } }

/-- A consumer takes the lock of the retire list, or gives it back. -/
theorem Shared.relocked (shared : Shared world) (lock : Option (Fin consumers))
    (before : world.store.retireLock = none ∨ world.store.retireLock = some consumer)
    (afterwards : lock = none ∨ lock = some consumer) :
    Moved (.inr consumer) world (world.relock lock) := by
  refine shared.moved (.inr consumer) [] rfl rfl rfl rfl rfl rfl (fun _ _ => ⟨rfl, rfl⟩) shared.slots
    (fun _ _ => ⟨rfl, rfl⟩) (fun other differs => ?_) (List.append_nil _).symm (by simp)
  have away : consumer ≠ other := fun here => differs (congrArg Sum.inr here)
  show lock = some other ↔ world.store.retireLock = some other
  rcases before with unlocked | locked <;> rcases afterwards with rfl | rfl <;> simp_all

theorem ConsumerSound.goOn {phase next : ConsumerPhase} (sound : ConsumerSound world consumer phase)
    (custody : next.custody = phase.custody) (critical : next.critical = phase.critical)
    (hazard : HazardSound world.store.memory consumer next) (knows : Knows world consumer next) :
    ConsumerSound world consumer next := by
  constructor
  · rw [custody]
    exact sound.custody
  · rw [critical]
    exact sound.critical
  · exact hazard
  · exact knows

/-- A consumer that takes the free lock of the retire list. -/
theorem ConsumerSound.locks {phase : ConsumerPhase} {store : Store (Fin consumers)} (shared : Shared world)
    (sound : ConsumerSound world consumer phase) (found : world.store.lock consumer = some store)
    (next : ConsumerPhase) (custody : next.custody = phase.custody) (critical : next.critical = true)
    (hazard : HazardSound world.store.memory consumer next)
    (knows : Knows (world.relock (some consumer)) consumer next) :
    store = (world.relock (some consumer)).store ∧ Moved (.inr consumer) world (world.relock (some consumer)) ∧
      ConsumerSound (world.relock (some consumer)) consumer next := by
  unfold Store.lock at found
  split at found
  · rename_i unlocked
    cases found
    refine ⟨rfl, shared.relocked (some consumer) (.inl (Option.isNone_iff_eq_none.mp unlocked)) (.inr rfl), ?_⟩
    constructor
    · rw [custody]
      exact sound.custody
    · exact iff_of_true rfl critical
    · exact hazard
    · exact knows
  · cases found

/-- A consumer that gives the lock of the retire list back. -/
theorem ConsumerSound.unlocks {phase : ConsumerPhase} (shared : Shared world)
    (sound : ConsumerSound world consumer phase) (locked : phase.critical = true)
    (next : ConsumerPhase) (custody : next.custody = phase.custody) (critical : next.critical = false)
    (hazard : HazardSound world.store.memory consumer next) (knows : Knows (world.relock none) consumer next) :
    Moved (.inr consumer) world (world.relock none) ∧ ConsumerSound (world.relock none) consumer next := by
  refine ⟨shared.relocked none (.inr (sound.critical.mpr locked)) (.inl rfl), ?_⟩
  constructor
  · rw [custody]
    exact sound.custody
  · simp [World.relock, critical]
  · exact hazard
  · exact knows

/-- A step of `retire_node`. -/
theorem retire_moved {phase next : RetirePhase} {store : Store (Fin consumers)} (shared : Shared world)
    (sound : ConsumerSound world consumer (.retiring node phase))
    (stepped : retireNode world.store consumer node chance phase = some (store, next)) :
    ∃ after : World producers consumers, after.store = store ∧
      after.history = world.history ++ retireEvents node phase ∧
        Moved (.inr consumer) world after ∧ ConsumerSound after consumer (.retiring node next) := by
  have idle := sound.hazard
  cases phase with
  | scanning slot =>
      have still (next : RetirePhase) (custody : (ConsumerPhase.retiring node next).custody = some node)
          (critical : (ConsumerPhase.retiring node next).critical = false)
          (knows : Knows world consumer (.retiring node next)) :
          ∃ after : World producers consumers, after.store = world.store ∧ after.history = world.history ++ [] ∧
            Moved (.inr consumer) world after ∧ ConsumerSound after consumer (.retiring node next) :=
        ⟨world, rfl, (List.append_nil _).symm, shared.stays _, sound.goOn custody critical idle knows⟩
      simp only [retireNode] at stepped
      split at stepped <;> cases stepped <;> exact still _ rfl rfl trivial
  | freeing =>
      cases stepped
      have held := (sound.custody node).mpr rfl
      refine ⟨⟨_, Function.update world.place node .allocator, world.nodes, world.retired, _⟩, rfl, rfl,
        shared.handed chance (.inr held) (.inl ⟨rfl, rfl⟩) (.inr rfl) (by rw [held]; rfl)
          (by simp [held, Place.stage]) rfl rfl rfl rfl rfl, ?_⟩
      constructor
      · exact custody_lost sound.custody rfl (by simp)
      · exact sound.critical
      · exact idle
      · trivial
  | locking =>
      obtain ⟨given, found, result⟩ := Option.map_eq_some_iff.mp stepped
      cases result
      obtain ⟨rfl, moved, known⟩ := sound.locks shared found (.retiring node .linking) rfl rfl idle trivial
      exact ⟨world.relock (some consumer), rfl, (List.append_nil _).symm, moved, known⟩
  | linking =>
      cases stepped
      have held := (sound.custody node).mpr rfl
      refine ⟨{ world with store := world.store.setRetireNext node world.store.retireList }, rfl,
        (List.append_nil _).symm,
        shared.moved (.inr consumer) [] rfl rfl rfl rfl rfl rfl ?_ (shared.slots.congr rfl rfl rfl)
          (fun _ _ => ⟨rfl, rfl⟩) (fun _ _ => Iff.rfl) (by simp) (by simp), ?_⟩
      · intro other elsewhere
        have differs : other ≠ node := by
          intro equal
          subst equal
          exact elsewhere held
        exact ⟨rfl, Function.update_of_ne differs _ _⟩
      · constructor
        · exact sound.custody
        · exact sound.critical
        · exact idle
        · exact Function.update_self _ _ _
  | listing =>
      cases stepped
      refine ⟨⟨_, Function.update world.place node .retired, world.nodes, node :: world.retired, world.history⟩, rfl,
        (List.append_nil _).symm, shared.listed ((sound.custody node).mpr rfl) (sound.critical.mpr rfl) sound.knows rfl
          rfl rfl rfl rfl, ?_⟩
      constructor
      · exact custody_lost sound.custody rfl (by simp)
      · exact sound.critical
      · exact idle
      · trivial
  | unlocking =>
      cases stepped
      obtain ⟨moved, known⟩ := sound.unlocks shared rfl (.retiring node .returned) rfl rfl idle trivial
      exact ⟨world.relock none, rfl, (List.append_nil _).symm, moved, known⟩
  | returned => cases stepped

/-- A step of `retire_sweep`. -/
theorem sweep_moved {final : Bool} {phase next : SweepPhase} {store : Store (Fin consumers)} (shared : Shared world)
    (sound : ConsumerSound world consumer (.sweeping final phase))
    (stepped : retireSweep world.store consumer chance phase = some (store, next)) :
    ∃ after : World producers consumers, after.store = store ∧
      after.history = world.history ++ sweepEvents phase ∧ Moved (.inr consumer) world after ∧
        ConsumerSound after consumer (.sweeping final next) := by
  have idle := sound.hazard
  have still (next : SweepPhase) (events : (sweepEvents phase : List (Event consumers)) = [])
      (custody : (ConsumerPhase.sweeping final next).custody = (ConsumerPhase.sweeping final phase).custody)
      (critical : (ConsumerPhase.sweeping final next).critical = (ConsumerPhase.sweeping final phase).critical)
      (knows : SweepSound world.retired next) :
      ∃ after : World producers consumers, after.store = world.store ∧
        after.history = world.history ++ sweepEvents phase ∧ Moved (.inr consumer) world after ∧
          ConsumerSound after consumer (.sweeping final next) :=
    ⟨world, rfl, by rw [events, List.append_nil], shared.stays _, sound.goOn custody critical idle knows⟩
  cases phase with
  | locking =>
      obtain ⟨given, found, result⟩ := Option.map_eq_some_iff.mp stepped
      cases result
      obtain ⟨rfl, moved, known⟩ := sound.locks shared found (.sweeping final .starting) rfl rfl idle trivial
      exact ⟨world.relock (some consumer), rfl, (List.append_nil _).symm, moved, known⟩
  | starting =>
      cases stepped
      exact still _ rfl rfl rfl ⟨[], world.retired, rfl, rfl, shared.chain.start_eq_head?⟩
  | visiting prev cur =>
      obtain ⟨visited, rest, split, before, here⟩ : SweepSound world.retired (.visiting prev cur) := sound.knows
      cases cur with
      | none =>
          cases stepped
          exact still _ rfl rfl rfl trivial
      | some cur =>
          cases stepped
          cases rest with
          | nil => cases here
          | cons first rest =>
              cases here
              have chain := shared.chain
              rw [split] at chain
              exact still _ rfl rfl rfl ⟨visited, rest, split, before, chain.next_of_append⟩
  | scanning prev cur link slot =>
      have knows : SweepSound world.retired (.scanning prev cur link slot) := sound.knows
      simp only [retireSweep] at stepped
      split at stepped <;> cases stepped
      · exact still _ rfl rfl rfl knows
      · obtain ⟨visited, rest, split, before, following⟩ := knows
        exact still _ rfl rfl rfl ⟨visited ++ [cur], rest, by simpa using split, by simp, following⟩
      · exact still _ rfl rfl rfl knows
  | unlinking prev cur link =>
      obtain ⟨visited, rest, split, rfl, rfl⟩ : SweepSound world.retired (.unlinking prev cur link) := sound.knows
      cases stepped
      refine ⟨⟨_, Function.update world.place cur (.agent (.inr consumer)), world.nodes, visited ++ rest,
        world.history⟩, rfl, (List.append_nil _).symm, shared.unlisted split (sound.critical.mpr rfl) rfl rfl rfl rfl rfl, ?_⟩
      constructor
      · exact custody_gained sound.custody rfl
      · cases visited.getLast? <;> exact sound.critical
      · cases visited.getLast? <;> exact idle
      · exact ⟨visited, rest, rfl, rfl, rfl⟩
  | freeing prev cur link =>
      have knows : SweepSound world.retired (.freeing prev cur link) := sound.knows
      have held := (sound.custody cur).mpr rfl
      cases stepped
      refine ⟨⟨_, Function.update world.place cur .allocator, world.nodes, world.retired, _⟩, rfl, rfl,
        shared.handed chance (.inr held) (.inl ⟨rfl, rfl⟩) (.inr rfl) (by rw [held]; rfl)
          (by simp [held, Place.stage]) rfl rfl rfl rfl rfl, ?_⟩
      constructor
      · exact custody_lost sound.custody rfl (by simp)
      · exact sound.critical
      · exact idle
      · exact knows
  | unlocking =>
      cases stepped
      obtain ⟨moved, known⟩ := sound.unlocks shared rfl (.sweeping final .returned) rfl rfl idle trivial
      exact ⟨world.relock none, rfl, (List.append_nil _).symm, moved, known⟩
  | returned => cases stepped

end HundredDays.TreiberStack.Reclamation
