import HundredDays.LockFreeBasics.Model
import HundredDays.Semantics.Run
import Mathlib.Algebra.Order.Ring.Nat

namespace HundredDays.LockFreeBasics

open HundredDays.Semantics

/-! A slot that a push claimed is readable before it is written.  Nothing else goes wrong:
the slot that stays empty keeps a push away from the slot that a pop still reads. -/

variable {state after : State} {spurious : Bool}

/-- The slots written so far. -/
def State.written (state : State) : Nat :=
  match state.producer with
  | .claimed _ _ => state.claimed.length - 1
  | _ => state.claimed.length

/-- What the producer has loaded.  The head may have moved on since. -/
def ProducerSound (state : State) : Prop :=
  match state.producer with
  | .idle | .called _ => True
  | .tailLoaded _ tail => tail = state.queue.tail
  | .notFull _ tail nextTail => tail = state.queue.tail ∧ nextTail = (state.claimed.length + 1) % capacity ∧
      state.claimed.length + 1 < state.taken + capacity
  | .claimed val tail => ∃ earlier, state.claimed = earlier ++ [val] ∧ tail = earlier.length % capacity

def ConsumerSound (state : State) : Prop :=
  match state.consumer with
  | .idle | .called => state.taken = state.popped.length
  | .headLoaded head => state.taken = state.popped.length ∧ head = state.queue.head
  | .notEmpty head nextHead => state.taken = state.popped.length ∧ head = state.queue.head ∧
      nextHead = (state.taken + 1) % capacity ∧ state.taken < state.claimed.length
  | .claimed head => state.taken = state.popped.length + 1 ∧ head = state.popped.length % capacity

structure Sound (state : State) : Prop where
  tail : state.queue.tail = state.claimed.length % capacity
  head : state.queue.head = state.taken % capacity
  ordered : state.taken ≤ state.claimed.length
  bounded : state.claimed.length < state.taken + capacity
  behind : state.popped.length ≤ state.written
  data : ∀ index val, state.popped.length ≤ index → index < state.written → state.claimed[index]? = some val →
    state.queue.data (index % capacity) = val
  returned : state.popped <+: state.claimed
  unread : ∀ slot, state.unread slot = true ↔
    ∃ index, state.popped.length ≤ index ∧ index < state.written ∧ index % capacity = slot
  readUnwritten : state.readUnwritten = false
  overwroteUnread : state.overwroteUnread = false
  producer : ProducerSound state
  consumer : ConsumerSound state

theorem initial_sound (data : Nat → UInt64) : Sound (State.initial data) := by
  refine ⟨rfl, rfl, Nat.le_refl _, Nat.zero_lt_succ _, Nat.le_refl _, ?_, List.nil_prefix, ?_, rfl, rfl, trivial, rfl⟩
  · intro index val _ below
    exact absurd below (Nat.not_lt_zero index)
  · intro slot
    constructor
    · intro absurd
      cases absurd
    · rintro ⟨index, _, below, _⟩
      exact absurd below (Nat.not_lt_zero index)

/-- The slot is not read while the push that claimed it has yet to write it. -/
def Prompt (state : State) (action : Action) : Prop :=
  (∃ spurious, action = .consumer spurious) →
    ∀ head, state.consumer = .claimed head → ∀ val, state.producer ≠ .claimed val head

namespace Sound

theorem taken_le (sound : Sound state) : state.taken ≤ state.popped.length + 1 := by
  have consumer := sound.consumer
  rw [ConsumerSound] at consumer
  split at consumer <;> omega

theorem popped_le (sound : Sound state) : state.popped.length ≤ state.taken := by
  have consumer := sound.consumer
  rw [ConsumerSound] at consumer
  split at consumer <;> omega

/-- A step of the producer that looks only. -/
theorem look (sound : Sound state) {producer : Producer}
    (same : { state with producer }.written = state.written) (loaded : ProducerSound { state with producer }) :
    Sound { state with producer } := by
  obtain ⟨tail, head, ordered, bounded, behind, data, returned, unread, readUnwritten, overwroteUnread, _, consumer⟩ := sound
  refine ⟨tail, head, ordered, bounded, same ▸ behind, ?_, returned, ?_, readUnwritten, overwroteUnread, loaded, consumer⟩
  · rw [same]
    exact data
  · rw [same]
    exact unread

/-- A step of the consumer that looks only. -/
theorem lookConsumer (sound : Sound state) {consumer : Consumer} (loaded : ConsumerSound { state with consumer }) :
    Sound { state with consumer } := by
  obtain ⟨tail, head, ordered, bounded, behind, data, returned, unread, readUnwritten, overwroteUnread, producer, _⟩ := sound
  exact ⟨tail, head, ordered, bounded, behind, data, returned, unread, readUnwritten, overwroteUnread, producer, loaded⟩

theorem claim (sound : Sound state) {val : UInt64} {tail nextTail : Nat}
    (here : state.producer = .notFull val tail nextTail) :
    Sound { state with
      queue := { state.queue with tail := nextTail }
      producer := .claimed val tail
      claimed := state.claimed ++ [val] } := by
  have loaded := sound.producer
  rw [ProducerSound, here] at loaded
  obtain ⟨current, next, room⟩ := loaded
  have unwritten : state.written = state.claimed.length := by rw [State.written, here]
  have length : (state.claimed ++ [val]).length = state.claimed.length + 1 := by simp
  have same : ({ state with
      queue := { state.queue with tail := nextTail }
      producer := .claimed val tail
      claimed := state.claimed ++ [val] } : State).written = state.written := by
    change (state.claimed ++ [val]).length - 1 = _
    rw [length, Nat.add_sub_cancel, unwritten]
  have consumer := sound.consumer
  refine ⟨?_, sound.head, ?_, ?_, same ▸ sound.behind, ?_, sound.returned.trans (List.prefix_append ..), ?_,
    sound.readUnwritten, sound.overwroteUnread, ⟨state.claimed, rfl, current.trans sound.tail⟩, ?_⟩
  · rw [length]
    exact next
  · rw [length]
    exact Nat.le_succ_of_le sound.ordered
  · rw [length]
    exact room
  · intro index value least below found
    rw [same, unwritten] at below
    rw [List.getElem?_append_left below] at found
    exact sound.data index value least (by omega) found
  · rw [same]
    exact sound.unread
  · rw [ConsumerSound] at consumer ⊢
    cases phase : state.consumer with
    | notEmpty head nextHead =>
        simp only [phase] at consumer ⊢
        rw [length]
        exact ⟨consumer.1, consumer.2.1, consumer.2.2.1, Nat.lt_succ_of_lt consumer.2.2.2⟩
    | _ =>
        simp only [phase] at consumer ⊢
        exact consumer

theorem write (sound : Sound state) {val : UInt64} {tail : Nat} (here : state.producer = .claimed val tail) :
    Sound { state with
      queue := { state.queue with data := Function.update state.queue.data tail val }
      producer := .idle
      unread := Function.update state.unread tail true
      overwroteUnread := state.overwroteUnread || state.unread tail } := by
  have loaded := sound.producer
  rw [ProducerSound, here] at loaded
  obtain ⟨earlier, split, rfl⟩ := loaded
  have length : state.claimed.length = earlier.length + 1 := by rw [split]; simp
  have unwritten : state.written = earlier.length := by rw [State.written, here, length, Nat.add_sub_cancel]
  have bounded := sound.bounded
  have reading := sound.taken_le
  have behind := sound.behind
  rw [unwritten] at behind
  -- no value that is still to be read is in the slot
  have apart : ∀ index, state.popped.length ≤ index → index < earlier.length →
      index % capacity ≠ earlier.length % capacity := by
    intro index least below
    simp only [capacity] at bounded ⊢
    omega
  have free : state.unread (earlier.length % capacity) = false := by
    rw [← Bool.not_eq_true, sound.unread, unwritten]
    rintro ⟨index, least, below, same⟩
    exact apart index least below same
  refine ⟨sound.tail, sound.head, sound.ordered, bounded, ?_, ?_, sound.returned, ?_, sound.readUnwritten, ?_, trivial,
    sound.consumer⟩
  · change state.popped.length ≤ state.claimed.length
    omega
  · intro index value least below found
    change index < state.claimed.length at below
    by_cases last : index = earlier.length
    · subst last
      have same : value = val := by
        rw [split, List.getElem?_concat_length, Option.some.injEq] at found
        exact found.symm
      rw [same]
      exact Function.update_self ..
    · refine (Function.update_of_ne (apart index least (by omega)) _ _).trans ?_
      exact sound.data index value least (by omega) found
  · intro slot
    change Function.update state.unread (earlier.length % capacity) true slot = true ↔
      ∃ index, state.popped.length ≤ index ∧ index < state.claimed.length ∧ index % capacity = slot
    rw [length]
    by_cases inside : slot = earlier.length % capacity
    · rw [inside, Function.update_self]
      exact ⟨fun _ => ⟨earlier.length, behind, Nat.lt_succ_self _, rfl⟩, fun _ => rfl⟩
    · rw [Function.update_of_ne inside, sound.unread, unwritten]
      constructor
      · rintro ⟨index, least, below, same⟩
        exact ⟨index, least, Nat.lt_succ_of_lt below, same⟩
      · rintro ⟨index, least, below, same⟩
        have differs : index ≠ earlier.length := by
          rintro rfl
          exact inside same.symm
        exact ⟨index, least, by omega, same⟩
  · change (state.overwroteUnread || state.unread _) = false
    rw [sound.overwroteUnread, free]
    rfl

theorem queuePush (sound : Sound state) (stepped : queuePush state spurious = some after) : Sound after := by
  have loaded := sound.producer
  rw [ProducerSound] at loaded
  rw [LockFreeBasics.queuePush] at stepped
  cases here : state.producer with
  | idle =>
      rw [here] at stepped
      cases stepped
  | called val =>
      simp only [here, Option.some.injEq] at stepped
      subst stepped
      exact sound.look (by simp only [State.written, here]) rfl
  | tailLoaded val tail =>
      simp only [here, Option.some.injEq] at stepped loaded
      subst stepped
      have ordered := sound.ordered
      have bounded := sound.bounded
      by_cases full : (tail + 1) % capacity = state.queue.head
      · simp only [if_pos full]
        exact sound.look (by simp only [State.written, here]) trivial
      · simp only [if_neg full]
        refine sound.look (by simp only [State.written, here]) ⟨loaded, ?_, ?_⟩
        · rw [loaded, sound.tail]
          simp only [capacity]
          omega
        · rw [loaded, sound.tail, sound.head] at full
          change state.claimed.length + 1 < state.taken + capacity
          simp only [capacity] at full bounded ⊢
          omega
  | notFull val tail nextTail =>
      simp only [here] at stepped loaded
      split_ifs at stepped with won
      · cases stepped
        exact sound.claim here
      · cases stepped
        exact sound.look (by simp only [State.written, here]) rfl
  | claimed val tail =>
      simp only [here, Option.some.injEq] at stepped
      subst stepped
      exact sound.write here

theorem take (sound : Sound state) {head nextHead : Nat} (here : state.consumer = .notEmpty head nextHead) :
    Sound { state with
      queue := { state.queue with head := nextHead }
      consumer := .claimed head
      taken := state.taken + 1 } := by
  have loaded := sound.consumer
  rw [ConsumerSound, here] at loaded
  obtain ⟨taken, current, next, more⟩ := loaded
  have producer := sound.producer
  refine ⟨sound.tail, next, more, Nat.lt_of_lt_of_le sound.bounded (Nat.add_le_add_right (Nat.le_succ _) _),
    sound.behind, sound.data, sound.returned, sound.unread, sound.readUnwritten, sound.overwroteUnread, ?_, ?_⟩
  · rw [ProducerSound] at producer ⊢
    cases phase : state.producer with
    | notFull val tail nextTail =>
        simp only [phase] at producer ⊢
        exact ⟨producer.1, producer.2.1, by omega⟩
    | idle => trivial
    | called val => trivial
    | _ =>
        simp only [phase] at producer ⊢
        exact producer
  · refine ⟨congrArg (· + 1) taken, ?_⟩
    rw [current, sound.head, taken]

/-- A slot is written when it is read, unless the push that claimed it is about to write it. -/
theorem read_written (sound : Sound state) {head : Nat} (here : state.consumer = .claimed head)
    (prompt : ∀ val, state.producer ≠ .claimed val head) : state.popped.length < state.written := by
  have consumer := sound.consumer
  have producer := sound.producer
  rw [ConsumerSound, here] at consumer
  rw [ProducerSound] at producer
  have ordered := sound.ordered
  rw [State.written]
  cases phase : state.producer with
  | claimed val tail =>
      simp only [phase] at producer ⊢
      obtain ⟨earlier, split, rfl⟩ := producer
      have length : state.claimed.length = earlier.length + 1 := by rw [split]; simp
      have differs : state.popped.length ≠ earlier.length := by
        intro same
        rw [← same, ← consumer.2] at phase
        exact prompt val phase
      omega
  | _ =>
      simp only
      omega

/-- The slot of the next value to be read. -/
theorem unread_next (sound : Sound state) :
    state.unread (state.popped.length % capacity) = true ↔ state.popped.length < state.written := by
  rw [sound.unread]
  have bounded := sound.bounded
  have reading := sound.taken_le
  have written : state.written ≤ state.claimed.length := by
    rw [State.written]
    split <;> omega
  constructor
  · rintro ⟨index, least, below, _⟩
    omega
  · intro below
    exact ⟨state.popped.length, Nat.le_refl _, below, rfl⟩

theorem read (sound : Sound state) {head : Nat} (here : state.consumer = .claimed head)
    (written : state.popped.length < state.written) :
    Sound { state with
      consumer := .idle
      popped := state.popped ++ [state.queue.data head]
      unread := Function.update state.unread head false
      readUnwritten := state.readUnwritten || !state.unread head } := by
  have consumer := sound.consumer
  rw [ConsumerSound, here] at consumer
  obtain ⟨taken, rfl⟩ := consumer
  have bounded := sound.bounded
  have published : state.written ≤ state.claimed.length := by
    rw [State.written]
    split <;> omega
  have below : state.popped.length < state.claimed.length := by omega
  have value : state.queue.data (state.popped.length % capacity) = state.claimed[state.popped.length] :=
    sound.data _ _ (Nat.le_refl _) written (List.getElem?_eq_getElem below)
  have length : (state.popped ++ [state.queue.data (state.popped.length % capacity)]).length =
      state.popped.length + 1 := by simp
  refine ⟨sound.tail, sound.head, sound.ordered, bounded, ?_, ?_, ?_, ?_, ?_, sound.overwroteUnread, sound.producer, ?_⟩
  · rw [length]
    exact written
  · intro index val least earlier found
    rw [length] at least
    exact sound.data index val (Nat.le_of_succ_le least) earlier found
  · rw [value]
    have front : state.popped = state.claimed.take state.popped.length := List.prefix_iff_eq_take.mp sound.returned
    have longer := List.take_succ_eq_append_getElem below
    rw [← front] at longer
    rw [← longer]
    exact List.take_prefix ..
  · intro slot
    rw [length]
    change Function.update state.unread _ false slot = true ↔
      ∃ index, state.popped.length + 1 ≤ index ∧ index < state.written ∧ index % capacity = slot
    by_cases same : slot = state.popped.length % capacity
    · subst same
      rw [Function.update_self]
      refine ⟨Bool.noConfusion, ?_⟩
      rintro ⟨index, least, earlier, same⟩
      simp only [capacity] at bounded same
      omega
    · rw [Function.update_of_ne same, sound.unread]
      constructor
      · rintro ⟨index, least, earlier, here⟩
        have differs : index ≠ state.popped.length := by
          rintro rfl
          exact same here.symm
        exact ⟨index, by omega, earlier, here⟩
      · rintro ⟨index, least, earlier, here⟩
        exact ⟨index, Nat.le_of_succ_le least, earlier, here⟩
  · change (state.readUnwritten || !state.unread _) = false
    rw [sound.readUnwritten, sound.unread_next.mpr written]
    rfl
  · change state.taken = (state.popped ++ [_]).length
    rw [length]
    exact taken

theorem queuePop (sound : Sound state) (prompt : Prompt state (.consumer spurious))
    (stepped : queuePop state spurious = some after) : Sound after := by
  have loaded := sound.consumer
  rw [ConsumerSound] at loaded
  rw [LockFreeBasics.queuePop] at stepped
  cases here : state.consumer with
  | idle =>
      rw [here] at stepped
      cases stepped
  | called =>
      simp only [here, Option.some.injEq] at stepped loaded
      subst stepped
      exact sound.lookConsumer ⟨loaded, rfl⟩
  | headLoaded head =>
      simp only [here, Option.some.injEq] at stepped loaded
      subst stepped
      have ordered := sound.ordered
      by_cases empty : head = state.queue.tail
      · simp only [if_pos empty]
        exact sound.lookConsumer loaded.1
      · simp only [if_neg empty]
        refine sound.lookConsumer ⟨loaded.1, loaded.2, ?_, ?_⟩
        · rw [loaded.2, sound.head]
          simp only [capacity]
          omega
        · rw [loaded.2, sound.head, sound.tail] at empty
          have differs : state.taken ≠ state.claimed.length := by
            intro same
            rw [same] at empty
            exact empty rfl
          change state.taken < state.claimed.length
          omega
  | notEmpty head nextHead =>
      simp only [here] at stepped loaded
      split_ifs at stepped with won
      · cases stepped
        exact sound.take here
      · cases stepped
        exact sound.lookConsumer ⟨loaded.1, rfl⟩
  | claimed head =>
      simp only [here, Option.some.injEq] at stepped
      subst stepped
      exact sound.read here (sound.read_written here (prompt ⟨spurious, rfl⟩ head here))

theorem step (state : State) (action : Action) (after : State) (sound : Sound state) (prompt : Prompt state action)
    (stepped : step state action = some after) : Sound after := by
  cases action with
  | push val =>
      simp only [LockFreeBasics.step] at stepped
      cases here : state.producer with
      | idle =>
          simp only [here, Option.some.injEq] at stepped
          subst stepped
          exact sound.look (by simp only [State.written, here]) trivial
      | _ => simp [here] at stepped
  | pop =>
      simp only [LockFreeBasics.step] at stepped
      have loaded := sound.consumer
      rw [ConsumerSound] at loaded
      cases here : state.consumer with
      | idle =>
          simp only [here, Option.some.injEq] at stepped loaded
          subst stepped
          exact sound.lookConsumer loaded
      | _ => simp [here] at stepped
  | producer spurious => exact sound.queuePush stepped
  | consumer spurious => exact sound.queuePop prompt stepped

/-- A slot that the push is about to write is read too early. -/
theorem early (state : State) (action : Action) (after : State) (sound : Sound state) (late : ¬ Prompt state action)
    (stepped : LockFreeBasics.step state action = some after) : after.readUnwritten = true := by
  simp only [Prompt, not_forall, not_not] at late
  obtain ⟨⟨spurious, rfl⟩, head, here, val, pending⟩ := late
  simp only [LockFreeBasics.step, LockFreeBasics.queuePop, here, Option.some.injEq] at stepped
  subst stepped
  have consumer := sound.consumer
  have producer := sound.producer
  rw [ConsumerSound, here] at consumer
  rw [ProducerSound, pending] at producer
  obtain ⟨earlier, split, same⟩ := producer
  have length : state.claimed.length = earlier.length + 1 := by rw [split]; simp
  have unwritten : state.written = earlier.length := by rw [State.written, pending, length, Nat.add_sub_cancel]
  have behind := sound.behind
  have bounded := sound.bounded
  have ordered := sound.ordered
  have last : state.popped.length = earlier.length := by
    have slots := consumer.2.symm.trans same
    simp only [capacity] at slots bounded
    omega
  have unread : state.unread head = false := by
    rw [← Bool.not_eq_true, consumer.2, sound.unread_next, unwritten, last]
    exact Nat.lt_irrefl _
  change (state.readUnwritten || !state.unread head) = true
  rw [unread, Bool.not_false, Bool.or_true]

end Sound

/-- A slot that was read too early stays so. -/
theorem readUnwritten_stays (state : State) (action : Action) (after : State) (early : state.readUnwritten = true)
    (stepped : step state action = some after) : after.readUnwritten = true := by
  cases action with
  | push val =>
      simp only [step] at stepped
      split at stepped
      · cases stepped
        exact early
      · cases stepped
  | pop =>
      simp only [step] at stepped
      split at stepped
      · cases stepped
        exact early
      · cases stepped
  | producer spurious =>
      simp only [step, queuePush] at stepped
      split at stepped
      · cases stepped
      · cases stepped
        exact early
      · cases stepped
        exact early
      · split_ifs at stepped <;> cases stepped <;> exact early
      · cases stepped
        exact early
  | consumer spurious =>
      simp only [step, queuePop] at stepped
      split at stepped
      · cases stepped
      · cases stepped
        exact early
      · cases stepped
        exact early
      · split_ifs at stepped <;> cases stepped <;> exact early
      · cases stepped
        change (state.readUnwritten || _) = true
        rw [early, Bool.true_or]

/-- What a queue for one producer and one consumer does. -/
structure Fifo (state : State) : Prop where
  returned : state.popped <+: state.claimed
  written : state.readUnwritten = false
  read : state.overwroteUnread = false

/-- A run is that of a queue exactly when no pop reads a slot that a push has claimed and
not yet written. -/
theorem fifo_iff_prompt (data : Nat → UInt64) (actions : List Action) (after : State)
    (completed : run step (State.initial data) actions = some after) :
    Fifo after ↔ Meets step Prompt (State.initial data) actions := by
  constructor
  · intro fifo
    apply meets_of_unspoiled Sound (fun state => state.readUnwritten = true) Sound.step Sound.early readUnwritten_stays
      (initial_sound data) completed
    rw [fifo.written]
    exact Bool.noConfusion
  · intro meets
    have sound := run_invariant_meeting Sound Sound.step (initial_sound data) meets completed
    exact ⟨sound.returned, sound.readUnwritten, sound.overwroteUnread⟩

/-- One value through the queue, the pop after the push. -/
def inTurn : List Action :=
  [.push 7, .producer false, .producer false, .producer false, .producer false, .pop, .consumer false, .consumer false,
    .consumer false, .consumer false]

/-- The pop between the claim of the slot and the write. -/
def inBetween : List Action :=
  [.push 7, .producer false, .producer false, .producer false, .pop, .consumer false, .consumer false, .consumer false,
    .consumer false]

theorem fifo_iff_prompt_in_turn :
    ∃ after, run step (State.initial fun _ => 0) inTurn = some after ∧ after.popped = [7] ∧
      (Fifo after ↔ Meets step Prompt (State.initial fun _ => 0) inTurn) :=
  ⟨_, rfl, rfl, fifo_iff_prompt (fun _ => 0) inTurn _ rfl⟩

/-- The pop returns what was in the slot before. -/
theorem popped_unwritten :
    ∃ after, run step (State.initial fun _ => 0) inBetween = some after ∧ after.claimed = [7] ∧ after.popped = [0] ∧
      ¬ Fifo after := by
  refine ⟨_, rfl, rfl, rfl, fun fifo => ?_⟩
  have early := fifo.written
  cases early

end HundredDays.LockFreeBasics
