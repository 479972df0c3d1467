import HundredDays.SpscQueue.Model
import HundredDays.Data.Counter
import HundredDays.Semantics.Run
import Mathlib.Algebra.Ring.Nat

namespace HundredDays.SpscQueue

open HundredDays.Data.Counter HundredDays.Data.Probing HundredDays.Semantics

/-! The ring buffer is a bounded queue, also where its indices wrap around. -/

variable {T : Type} {state after : State T} {start : UInt64} {exponent : Nat} {value : T}

/-- The values written so far, with the one that is not yet published. -/
def State.written (state : State T) : Nat :=
  state.pushed.length + match state.producer with
    | .stored _ _ => 1
    | _ => 0

/-- The values read so far, with the one whose slot is not yet given back. -/
def State.read (state : State T) : Nat :=
  state.popped.length + match state.consumer with
    | .taken _ _ => 1
    | _ => 0

/-- What the producer has loaded.  The head may have moved on since. -/
def ProducerSound (start : UInt64) (capacity : Nat) (state : State T) : Prop :=
  match state.producer with
  | .idle => True
  | .called _ => True
  | .tailLoaded _ currentTail => currentTail = state.queue.tail
  | .headLoaded _ currentTail currentHead present => currentTail = state.queue.tail ∧
      ∃ seen, seen ≤ state.popped.length ∧ state.pushed.length ≤ seen + capacity ∧
        currentHead = counter start seen ∧ present = state.pushed.length - seen
  | .stored value currentTail => currentTail = state.queue.tail ∧
      state.pushed.length < state.popped.length + capacity ∧
      state.queue.data (place capacity start.toNat state.pushed.length) = value

def ConsumerSound (start : UInt64) (capacity : Nat) (state : State T) : Prop :=
  match state.consumer with
  | .idle => True
  | .called => True
  | .headLoaded currentHead => currentHead = state.queue.head
  | .tailLoaded currentHead currentTail present => currentHead = state.queue.head ∧
      ∃ seen, seen ≤ state.pushed.length ∧ state.popped.length ≤ seen ∧ seen ≤ state.popped.length + capacity ∧
        currentTail = counter start seen ∧ present = seen - state.popped.length
  | .taken currentHead value => currentHead = state.queue.head ∧
      state.pushed[state.popped.length]? = some value

structure Sound (start : UInt64) (exponent : Nat) (state : State T) : Prop where
  tail : state.queue.tail = counter start state.pushed.length
  head : state.queue.head = counter start state.popped.length
  ordered : state.popped <+: state.pushed
  bounded : state.pushed.length ≤ state.popped.length + 2 ^ exponent
  data : ∀ index value, state.popped.length ≤ index → state.pushed[index]? = some value →
    state.queue.data (place (2 ^ exponent) start.toNat index) = value
  unread : ∀ position, state.unread position = true ↔
    ∃ index, state.read ≤ index ∧ index < state.written ∧ place (2 ^ exponent) start.toNat index = position
  producer : ProducerSound start (2 ^ exponent) state
  consumer : ConsumerSound start (2 ^ exponent) state
  failedPushes : ∀ present ∈ state.failedPushes, present = 2 ^ exponent
  failedPops : ∀ present ∈ state.failedPops, present = 0

theorem initial_sound (data : Nat → T) : Sound start exponent (State.initial start data) := by
  constructor
  all_goals simp [State.initial, State.read, State.written, ProducerSound, ConsumerSound]

namespace Sound

/-- A step of the producer that only looks. -/
theorem lookProducer (sound : Sound start exponent state) {producer : Producer T} {failedPushes : List Nat}
    (same : { state with producer, failedPushes }.written = state.written)
    (loaded : ProducerSound start (2 ^ exponent) { state with producer, failedPushes })
    (refused : ∀ present ∈ failedPushes, present = 2 ^ exponent) :
    Sound start exponent { state with producer, failedPushes } := by
  refine ⟨sound.tail, sound.head, sound.ordered, sound.bounded, sound.data, ?_, loaded, sound.consumer, refused,
    sound.failedPops⟩
  intro position
  rw [same]
  exact sound.unread position

/-- A step of the consumer that only looks. -/
theorem lookConsumer (sound : Sound start exponent state) {consumer : Consumer T} {failedPops : List Nat}
    (same : { state with consumer, failedPops }.read = state.read)
    (loaded : ConsumerSound start (2 ^ exponent) { state with consumer, failedPops })
    (missed : ∀ present ∈ failedPops, present = 0) :
    Sound start exponent { state with consumer, failedPops } := by
  refine ⟨sound.tail, sound.head, sound.ordered, sound.bounded, sound.data, ?_, sound.producer, loaded,
    sound.failedPushes, missed⟩
  intro position
  rw [same]
  exact sound.unread position

theorem popped_le (sound : Sound start exponent state) : state.popped.length ≤ state.pushed.length :=
  sound.ordered.length_le

theorem read_le (sound : Sound start exponent state) : state.read ≤ state.pushed.length := by
  have fewer := sound.popped_le
  have consumer := sound.consumer
  rw [State.read]
  rw [ConsumerSound] at consumer
  cases here : state.consumer with
  | taken currentHead value =>
      rw [here] at consumer
      obtain ⟨below, _⟩ := List.getElem?_eq_some_iff.mp consumer.2
      exact below
  | _ => simpa using fewer

theorem written_le (sound : Sound start exponent state) :
    state.written ≤ state.popped.length + 2 ^ exponent := by
  have bounded := sound.bounded
  have producer := sound.producer
  rw [State.written]
  rw [ProducerSound] at producer
  cases here : state.producer with
  | stored value currentTail =>
      rw [here] at producer
      exact producer.2.1
  | _ => simpa using bounded

/-- The slot that a push with room writes holds no value to be read. -/
theorem write_free (sound : Sound start exponent state)
    (room : state.pushed.length < state.popped.length + 2 ^ exponent)
    (unpublished : state.written = state.pushed.length) :
    state.unread (place (2 ^ exponent) start.toNat state.pushed.length) = false := by
  rw [← Bool.not_eq_true, sound.unread, unpublished]
  intro found
  obtain ⟨index, least, less, same⟩ := found
  have read : state.popped.length ≤ state.read := Nat.le_add_right _ _
  exact place_ne less (by omega) same

/-- Writing a slot that holds no value to be read. -/
theorem write (sound : Sound start exponent state) {currentTail currentHead : UInt64} {present : Nat}
    (here : state.producer = .headLoaded value currentTail currentHead present)
    (room : state.pushed.length < state.popped.length + 2 ^ exponent) (current : currentTail = state.queue.tail) :
    Sound start exponent { state with
      queue := { state.queue with
        data := Function.update state.queue.data (place (2 ^ exponent) start.toNat state.pushed.length) value }
      unread := Function.update state.unread (place (2 ^ exponent) start.toNat state.pushed.length) true
      producer := .stored value currentTail } := by
  have reading := sound.read_le
  obtain ⟨tail, head, ordered, bounded, data, unread, _, consumer, failedPushes, failedPops⟩ := sound
  simp only [State.written, here, Nat.add_zero] at unread
  refine ⟨tail, head, ordered, bounded, ?_, ?_, ⟨current, room, Function.update_self _ _ _⟩, consumer, failedPushes,
    failedPops⟩
  · intro index other least found
    have later : state.popped.length ≤ index := least
    have below : index < state.pushed.length := (List.getElem?_eq_some_iff.mp found).1
    have apart : place (2 ^ exponent) start.toNat index ≠ place (2 ^ exponent) start.toNat state.pushed.length :=
      place_ne below (by omega)
    exact (Function.update_of_ne apart _ _).trans (data index other least found)
  · intro position
    simp only [State.written, State.read, Function.update_apply] at unread reading ⊢
    split
    next same => exact ⟨fun _ => ⟨_, reading, Nat.lt_succ_self _, same.symm⟩, fun _ => rfl⟩
    next differ =>
      rw [unread]
      constructor
      · intro found
        obtain ⟨index, least, less, same⟩ := found
        exact ⟨index, least, by omega, same⟩
      · intro found
        obtain ⟨index, least, less, same⟩ := found
        have apart : index ≠ state.pushed.length := by
          intro equal
          exact differ (equal ▸ same.symm)
        exact ⟨index, least, by omega, same⟩

/-- Storing the tail publishes the value. -/
theorem publish (sound : Sound start exponent state) {currentTail : UInt64}
    (here : state.producer = .stored value currentTail) :
    Sound start exponent { state with
      queue := { state.queue with tail := currentTail + 1 }
      producer := .idle
      pushed := state.pushed ++ [value] } := by
  obtain ⟨tail, head, ordered, bounded, data, unread, producer, consumer, failedPushes, failedPops⟩ := sound
  simp only [State.written, here] at unread
  simp only [ProducerSound, here] at producer
  obtain ⟨current, room, holds⟩ := producer
  constructor
  · rw [current, tail, List.length_append, List.length_singleton, counter_succ]
  · exact head
  · exact ordered.trans (List.prefix_append _ _)
  · rw [List.length_append, List.length_singleton]
    exact room
  · intro index other least found
    by_cases last : index = state.pushed.length
    · rw [last, List.getElem?_concat_length, Option.some_inj] at found
      rw [last, ← found]
      exact holds
    · have below : index < state.pushed.length := by
        obtain ⟨below, _⟩ := List.getElem?_eq_some_iff.mp found
        rw [List.length_append, List.length_singleton] at below
        omega
      rw [List.getElem?_append_left below] at found
      exact data index other least found
  · intro position
    simp only [State.written, List.length_append, List.length_singleton, Nat.add_zero]
    exact unread position
  · trivial
  · simp only [ConsumerSound] at consumer ⊢
    cases inside : state.consumer with
    | tailLoaded currentHead currentTail present =>
        rw [inside] at consumer
        obtain ⟨same, seen, most, least, near, loaded, counted⟩ := consumer
        exact ⟨same, seen, by simp; omega, least, near, loaded, counted⟩
    | taken currentHead other =>
        rw [inside] at consumer
        obtain ⟨below, _⟩ := List.getElem?_eq_some_iff.mp consumer.2
        exact ⟨consumer.1, by rw [List.getElem?_append_left below]; exact consumer.2⟩
    | headLoaded currentHead =>
        rw [inside] at consumer
        exact consumer
    | _ => trivial
  · exact failedPushes
  · exact failedPops

/-- Reading the slot of the oldest value. -/
theorem take (sound : Sound start exponent state) {currentHead currentTail : UInt64} {present : Nat}
    (here : state.consumer = .tailLoaded currentHead currentTail present)
    (current : currentHead = state.queue.head) (filled : state.popped.length < state.pushed.length) :
    Sound start exponent { state with
      unread := Function.update state.unread (place (2 ^ exponent) start.toNat state.popped.length) false
      consumer := .taken currentHead
        (state.queue.data (place (2 ^ exponent) start.toNat state.popped.length)) } := by
  have written := sound.written_le
  obtain ⟨tail, head, ordered, bounded, data, unread, producer, _, failedPushes, failedPops⟩ := sound
  simp only [State.read, here, Nat.add_zero] at unread
  have first : state.pushed[state.popped.length]? = some state.pushed[state.popped.length] :=
    List.getElem?_eq_getElem filled
  refine ⟨tail, head, ordered, bounded, data, ?_, producer, ⟨current, ?_⟩, failedPushes, failedPops⟩
  · intro position
    simp only [State.written, State.read, Function.update_apply] at unread written ⊢
    split
    next same =>
      constructor
      · intro impossible
        cases impossible
      · intro found
        obtain ⟨index, least, less, equal⟩ := found
        have apart : place (2 ^ exponent) start.toNat state.popped.length ≠
            place (2 ^ exponent) start.toNat index := place_ne (by omega) (by omega)
        exact absurd (equal.trans same).symm apart
    next differ =>
      rw [unread]
      constructor
      · intro found
        obtain ⟨index, least, less, same⟩ := found
        have apart : index ≠ state.popped.length := by
          intro equal
          exact differ (equal ▸ same.symm)
        exact ⟨index, by omega, less, same⟩
      · intro found
        obtain ⟨index, least, less, same⟩ := found
        exact ⟨index, by omega, less, same⟩
  · rw [data _ _ (Nat.le_refl _) first]
    exact first

/-- Storing the head gives the slot back. -/
theorem release (sound : Sound start exponent state) {currentHead : UInt64}
    (here : state.consumer = .taken currentHead value) :
    Sound start exponent { state with
      queue := { state.queue with head := currentHead + 1 }
      consumer := .idle
      popped := state.popped ++ [value] } := by
  have reading := sound.read_le
  obtain ⟨tail, head, ordered, bounded, data, unread, producer, consumer, failedPushes, failedPops⟩ := sound
  simp only [State.read, here] at unread reading
  simp only [ConsumerSound, here] at consumer
  obtain ⟨current, holds⟩ := consumer
  constructor
  · exact tail
  · rw [current, head, List.length_append, List.length_singleton, counter_succ]
  · obtain ⟨rest, split⟩ := ordered
    rw [← split, List.getElem?_append_right (Nat.le_refl _), Nat.sub_self] at holds
    cases rest with
    | nil => cases holds
    | cons first later =>
        rw [List.getElem?_cons_zero, Option.some_inj] at holds
        exact ⟨later, by rw [← split, ← holds, List.append_assoc]; rfl⟩
  · rw [List.length_append, List.length_singleton]
    exact Nat.le_trans bounded (by omega)
  · intro index other least found
    rw [List.length_append, List.length_singleton] at least
    exact data index other (by omega) found
  · intro position
    simp only [State.read, List.length_append, List.length_singleton, Nat.add_zero]
    exact unread position
  · simp only [ProducerSound] at producer ⊢
    cases inside : state.producer with
    | tailLoaded other currentTail =>
        rw [inside] at producer
        exact producer
    | headLoaded other currentTail currentHead present =>
        rw [inside] at producer
        obtain ⟨same, seen, most, near, loaded, counted⟩ := producer
        exact ⟨same, seen, by rw [List.length_append]; omega, near, loaded, counted⟩
    | stored other currentTail =>
        rw [inside] at producer
        obtain ⟨same, room, placed⟩ := producer
        exact ⟨same, by rw [List.length_append]; omega, placed⟩
    | _ => trivial
  · trivial
  · exact failedPushes
  · exact failedPops

/-- A push that finds the queue full did so when it loaded the head. -/
theorem full_iff (sound : Sound start exponent state) (small : exponent < 64) {currentTail currentHead : UInt64}
    {present : Nat} (here : state.producer = .headLoaded value currentTail currentHead present) :
    currentTail = state.queue.tail ∧ slot (2 ^ exponent) currentTail =
        place (2 ^ exponent) start.toNat state.pushed.length ∧
      (2 ^ exponent ≤ (currentTail - currentHead).toNat → present = 2 ^ exponent) ∧
      (¬ 2 ^ exponent ≤ (currentTail - currentHead).toNat →
        state.pushed.length < state.popped.length + 2 ^ exponent) := by
  have fewer := sound.popped_le
  have producer := sound.producer
  simp only [ProducerSound, here] at producer
  obtain ⟨current, seen, most, near, loaded, counted⟩ := producer
  have size : 2 ^ exponent < 2 ^ 64 := Nat.pow_lt_pow_right (by decide) small
  have distance : (currentTail - currentHead).toNat = state.pushed.length - seen := by
    rw [current, sound.tail, loaded]
    exact toNat_sub (by omega) (by omega)
  refine ⟨current, ?_, ?_, ?_⟩
  · rw [current, sound.tail, slot, slot_eq (Nat.le_of_lt small)]
  · intro full
    omega
  · intro room
    omega

/-- A pop that finds the queue empty did so when it loaded the tail. -/
theorem empty_iff (sound : Sound start exponent state) (small : exponent < 64) {currentHead currentTail : UInt64}
    {present : Nat} (here : state.consumer = .tailLoaded currentHead currentTail present) :
    currentHead = state.queue.head ∧ slot (2 ^ exponent) currentHead =
        place (2 ^ exponent) start.toNat state.popped.length ∧
      (currentHead = currentTail → present = 0) ∧
      (currentHead ≠ currentTail → state.popped.length < state.pushed.length) := by
  have consumer := sound.consumer
  simp only [ConsumerSound, here] at consumer
  obtain ⟨current, seen, most, least, near, loaded, counted⟩ := consumer
  have size : 2 ^ exponent < 2 ^ 64 := Nat.pow_lt_pow_right (by decide) small
  have same : currentHead = currentTail ↔ state.popped.length = seen := by
    rw [current, sound.head, loaded]
    exact counter_eq_iff least (by omega)
  refine ⟨current, ?_, ?_, ?_⟩
  · rw [current, sound.head, slot, slot_eq (Nat.le_of_lt small)]
  · intro empty
    have equal := same.mp empty
    omega
  · intro filled
    have differ : state.popped.length ≠ seen := fun equal => filled (same.mpr equal)
    omega

theorem queuePush (sound : Sound start exponent state) (small : exponent < 64)
    (stepped : queuePush (2 ^ exponent) state = some after) : Sound start exponent after := by
  rw [SpscQueue.queuePush] at stepped
  cases here : state.producer with
  | idle =>
      rw [here] at stepped
      cases stepped
  | called value =>
      rw [here] at stepped
      cases stepped
      exact sound.lookProducer (by simp [State.written, here]) rfl sound.failedPushes
  | tailLoaded value currentTail =>
      rw [here] at stepped
      cases stepped
      have loaded := sound.producer
      simp only [ProducerSound, here] at loaded
      exact sound.lookProducer (by simp [State.written, here])
        ⟨loaded, _, Nat.le_refl _, sound.bounded, sound.head, rfl⟩ sound.failedPushes
  | headLoaded value currentTail currentHead present =>
      obtain ⟨current, same, refused, room⟩ := sound.full_iff small here
      rw [here] at stepped
      simp only at stepped
      split at stepped
      next full =>
        cases stepped
        exact sound.lookProducer (by simp [State.written, here]) trivial
          (List.forall_mem_cons.mpr ⟨refused full, sound.failedPushes⟩)
      next notFull =>
        cases stepped
        rw [same]
        exact sound.write here (room notFull) current
  | stored value currentTail =>
      rw [here] at stepped
      cases stepped
      exact sound.publish here

theorem queuePop (sound : Sound start exponent state) (small : exponent < 64)
    (stepped : queuePop (2 ^ exponent) state = some after) : Sound start exponent after := by
  rw [SpscQueue.queuePop] at stepped
  cases here : state.consumer with
  | idle =>
      rw [here] at stepped
      cases stepped
  | called =>
      rw [here] at stepped
      cases stepped
      exact sound.lookConsumer (by simp [State.read, here]) rfl sound.failedPops
  | headLoaded currentHead =>
      rw [here] at stepped
      cases stepped
      have loaded := sound.consumer
      simp only [ConsumerSound, here] at loaded
      exact sound.lookConsumer (by simp [State.read, here])
        ⟨loaded, _, Nat.le_refl _, sound.popped_le, sound.bounded, sound.tail, rfl⟩ sound.failedPops
  | tailLoaded currentHead currentTail present =>
      obtain ⟨current, same, missed, filled⟩ := sound.empty_iff small here
      rw [here] at stepped
      simp only at stepped
      split at stepped
      next empty =>
        cases stepped
        exact sound.lookConsumer (by simp [State.read, here]) trivial
          (List.forall_mem_cons.mpr ⟨missed empty, sound.failedPops⟩)
      next notEmpty =>
        cases stepped
        rw [same]
        exact sound.take here current (filled notEmpty)
  | taken currentHead value =>
      rw [here] at stepped
      cases stepped
      exact sound.release here

theorem step (sound : Sound start exponent state) (small : exponent < 64) {action : Action T}
    (stepped : step (2 ^ exponent) state action = some after) : Sound start exponent after := by
  cases action with
  | push value =>
      rw [SpscQueue.step] at stepped
      cases here : state.producer with
      | idle =>
          rw [here] at stepped
          cases stepped
          exact sound.lookProducer (by simp [State.written, here]) trivial sound.failedPushes
      | _ =>
          rw [here] at stepped
          cases stepped
  | pop =>
      rw [SpscQueue.step] at stepped
      cases here : state.consumer with
      | idle =>
          rw [here] at stepped
          cases stepped
          exact sound.lookConsumer (by simp [State.read, here]) trivial sound.failedPops
      | _ =>
          rw [here] at stepped
          cases stepped
  | producer => exact sound.queuePush small stepped
  | consumer => exact sound.queuePop small stepped

end Sound

/-- What the threads see is a queue of at most `capacity` values. -/
structure BoundedFifo (capacity : Nat) (state : State T) : Prop where
  /-- What was popped is what was pushed, in order. -/
  ordered : state.popped <+: state.pushed
  occupancy : (state.queue.tail - state.queue.head).toNat = state.present ∧ state.present ≤ capacity
  /-- A push is about to write only a slot with nothing to be read. -/
  writes : ∀ value currentTail currentHead present,
    state.producer = .headLoaded value currentTail currentHead present →
    (currentTail - currentHead).toNat < capacity → state.unread (slot capacity currentTail) = false
  /-- A pop is about to read only a slot that was written and not read since. -/
  reads : ∀ currentHead currentTail present, state.consumer = .tailLoaded currentHead currentTail present →
    currentHead ≠ currentTail → state.unread (slot capacity currentHead) = true
  /-- A push failed only when the queue was full as it loaded the head. -/
  failedPushes : ∀ present ∈ state.failedPushes, present = capacity
  /-- A pop failed only when the queue was empty as it loaded the tail. -/
  failedPops : ∀ present ∈ state.failedPops, present = 0

theorem Sound.boundedFifo (sound : Sound start exponent state) (small : exponent < 64) :
    BoundedFifo (2 ^ exponent) state := by
  have size : 2 ^ exponent < 2 ^ 64 := Nat.pow_lt_pow_right (by decide) small
  have fewer := sound.popped_le
  have bounded := sound.bounded
  constructor
  · exact sound.ordered
  · rw [sound.tail, sound.head, toNat_sub fewer (by omega), State.present]
    omega
  · intro value currentTail currentHead present here less
    obtain ⟨_, same, _, room⟩ := sound.full_iff small here
    rw [same]
    exact sound.write_free (room (Nat.not_le.mpr less)) (by simp [State.written, here])
  · intro currentHead currentTail present here differ
    obtain ⟨_, same, _, filled⟩ := sound.empty_iff small here
    rw [same, sound.unread]
    refine ⟨state.popped.length, ?_, Nat.lt_of_lt_of_le (filled differ) (Nat.le_add_right _ _), rfl⟩
    simp [State.read, here]
  · exact sound.failedPushes
  · exact sound.failedPops

/-- From any start of the two indices, and whatever turns the two threads take, the ring
buffer is a bounded queue. -/
theorem spsc_bounded_fifo (exponent : Nat) (small : exponent < 64) (start : UInt64) (data : Nat → T)
    (actions : List (Action T))
    (ran : run (step (2 ^ exponent)) (State.initial start data) actions = some state) :
    BoundedFifo (2 ^ exponent) state := by
  have sound : Sound start exponent state :=
    run_invariant (Sound start exponent) (fun _ _ _ sound stepped => sound.step small stepped)
      (initial_sound data) ran
  exact sound.boundedFifo small

theorem spsc_bounded_fifo_wrapping : ∃ state, run (step (2 ^ 1)) (State.initial (0xFFFFFFFFFFFFFFFF) fun _ => 0)
      [.push 7, .producer, .producer, .producer, .pop, .consumer, .producer, .consumer, .push 8, .consumer,
        .producer, .producer, .consumer] = some state ∧ BoundedFifo (2 ^ 1) state := by
  have finishes : (run (step (2 ^ 1)) (State.initial (0xFFFFFFFFFFFFFFFF) fun _ => 0)
      [.push 7, .producer, .producer, .producer, .pop, .consumer, .producer, .consumer, .push 8, .consumer,
        .producer, .producer, .consumer]).isSome = true := by
    decide +kernel
  obtain ⟨state, ran⟩ := Option.isSome_iff_exists.mp finishes
  exact ⟨state, ran, spsc_bounded_fifo 1 (by decide) (0xFFFFFFFFFFFFFFFF) (fun _ => 0) _ ran⟩

end HundredDays.SpscQueue
