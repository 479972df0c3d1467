import HundredDays.SpscQueue.Fifo
import Mathlib.Order.Interval.Finset.Nat

namespace HundredDays.SpscQueue

open HundredDays.Data.Counter HundredDays.Data.Probing HundredDays.Semantics

/-! The lifetimes of the objects in the slots of the class template.

A push constructs an object in a slot, a pop moves from one and destroys it.  Constructors
and assignments may throw.  The class has no destructor of its own, and its slots are raw
storage, so that nothing happens to the objects in them when it is destroyed.
-/

/-- What happens to an object; storage without an object gives `none`. -/
inductive Event where
  | constructed (object : Nat)
  | used (object : Option Nat)
  | destroyed (object : Option Nat)
deriving DecidableEq

/-- The class, with the object in each slot, the number of objects made and what happened. -/
structure RingBuffer (T : Type) where
  ring : State T
  occupant : Nat → Option Nat
  made : Nat
  events : List Event

/-- A step of one of the threads, or an exception in one. -/
inductive Turn (T : Type) where
  | ring (action : Action T)
  | constructorThrows
  | moveThrows

namespace RingBuffer

variable {T : Type}

def initial (start : UInt64) (data : Nat → T) : RingBuffer T :=
  { ring := State.initial start data, occupant := fun _ => none, made := 0, events := [] }

/-- The placement-new of a push, and the assignment and the destructor call of a pop. -/
def lifetimes (capacity : Nat) (buffer : RingBuffer T) : Action T → RingBuffer T
  | .producer =>
      match buffer.ring.producer with
      | .headLoaded _ currentTail currentHead _ =>
          if capacity ≤ (currentTail - currentHead).toNat then buffer
          else { buffer with
            occupant := Function.update buffer.occupant (slot capacity currentTail) (some buffer.made)
            made := buffer.made + 1
            events := buffer.events ++ [.constructed buffer.made] }
      | _ => buffer
  | .consumer =>
      match buffer.ring.consumer with
      | .tailLoaded currentHead currentTail _ =>
          if currentHead = currentTail then buffer
          else
            let object := buffer.occupant (slot capacity currentHead)
            { buffer with
              occupant := Function.update buffer.occupant (slot capacity currentHead) none
              events := buffer.events ++ [.used object, .destroyed object] }
      | _ => buffer
  | _ => buffer

def step (capacity : Nat) (buffer : RingBuffer T) : Turn T → Option (RingBuffer T)
  | .ring action =>
      (SpscQueue.step capacity buffer.ring action).map fun ring => { buffer.lifetimes capacity action with ring }
  | .constructorThrows =>
      match buffer.ring.producer with
      | .headLoaded _ currentTail currentHead _ =>
          if capacity ≤ (currentTail - currentHead).toNat then none
          else some { buffer with ring := { buffer.ring with producer := .idle } }
      | _ => none
  | .moveThrows =>
      match buffer.ring.consumer with
      | .tailLoaded currentHead currentTail _ =>
          if currentHead = currentTail then none
          else some { buffer with
            ring := { buffer.ring with consumer := .idle }
            events := buffer.events ++ [.used (buffer.occupant (slot capacity currentHead))] }
      | _ => none

/-- What `~RingBuffer` does to the objects. -/
def destructor (buffer : RingBuffer T) : List Event := buffer.events

end RingBuffer

/-- The objects that are alive and those that were destroyed.  No object is made twice, and only those alive are used
and destroyed. -/
def observe (known : Finset Nat × Finset Nat) : Event → Option (Finset Nat × Finset Nat)
  | .constructed object =>
      if object ∈ known.1 ∪ known.2 then none else some (insert object known.1, known.2)
  | .used object =>
      match object with
      | some object => if object ∈ known.1 then some known else none
      | none => none
  | .destroyed object =>
      match object with
      | some object => if object ∈ known.1 then some (known.1.erase object, insert object known.2) else none
      | none => none

/-- Every object is destroyed exactly once, and not used after that. -/
def Owned (events : List Event) : Prop := ∃ dead, run observe (∅, ∅) events = some (∅, dead)

variable {T : Type} {state after : State T} {start : UInt64} {exponent : Nat} {buffer next : RingBuffer T}

/-- The events of the first objects, of which some were destroyed, in order. -/
structure Housed (start : UInt64) (exponent : Nat) (buffer : RingBuffer T) : Prop where
  sound : Sound start exponent buffer.ring
  made : buffer.made = buffer.ring.written
  occupied : ∀ index, buffer.ring.read ≤ index → index < buffer.ring.written →
    buffer.occupant (place (2 ^ exponent) start.toNat index) = some index
  followed : run observe (∅, ∅) buffer.events =
    some (Finset.Ico buffer.ring.read buffer.ring.written, Finset.range buffer.ring.read)

theorem initial_housed (data : Nat → T) : Housed start exponent (RingBuffer.initial start data) where
  sound := initial_sound data
  made := rfl
  occupied := fun index _ none => absurd none (Nat.not_lt_zero index)
  followed := rfl

/-- A step that neither makes nor destroys an object. -/
theorem Housed.look (housed : Housed start exponent buffer) (sound : Sound start exponent next.ring)
    (written : next.ring.written = buffer.ring.written) (read : next.ring.read = buffer.ring.read)
    (occupant : next.occupant = buffer.occupant) (made : next.made = buffer.made)
    (events : run observe (∅, ∅) next.events = run observe (∅, ∅) buffer.events) : Housed start exponent next where
  sound := sound
  made := by rw [made, written, housed.made]
  occupied := by
    rw [written, read, occupant]
    exact housed.occupied
  followed := by rw [events, written, read, housed.followed]

/-- A push makes an object. -/
theorem Housed.construct (housed : Housed start exponent buffer) {value : T} {currentTail currentHead : UInt64}
    {present : Nat} (small : exponent < 64)
    (here : buffer.ring.producer = .headLoaded value currentTail currentHead present)
    (room : ¬ 2 ^ exponent ≤ (currentTail - currentHead).toNat) (sound : Sound start exponent next.ring)
    (written : next.ring.written = buffer.ring.written + 1) (read : next.ring.read = buffer.ring.read)
    (occupant : next.occupant =
      Function.update buffer.occupant (slot (2 ^ exponent) currentTail) (some buffer.made))
    (made : next.made = buffer.made + 1) (events : next.events = buffer.events ++ [.constructed buffer.made]) :
    Housed start exponent next := by
  obtain ⟨_, same, _, free⟩ := housed.sound.full_iff small here
  have unpublished : buffer.ring.written = buffer.ring.pushed.length := by simp [State.written, here]
  have popped : buffer.ring.popped.length ≤ buffer.ring.read := Nat.le_add_right _ _
  have reading : buffer.ring.read ≤ buffer.ring.written := unpublished ▸ housed.sound.read_le
  refine ⟨sound, by rw [made, written, housed.made], ?_, ?_⟩
  · intro index least less
    rw [occupant, same, ← unpublished]
    by_cases last : index = buffer.ring.written
    · rw [last, Function.update_self, housed.made]
    · have apart : place (2 ^ exponent) start.toNat index ≠ place (2 ^ exponent) start.toNat buffer.ring.written :=
        place_ne (by omega) (by have := free room; omega)
      rw [Function.update_of_ne apart]
      exact housed.occupied index (by omega) (by omega)
  · have new : buffer.made ∉ Finset.Ico buffer.ring.read buffer.ring.written ∪ Finset.range buffer.ring.read := by
      rw [housed.made, Finset.mem_union, Finset.mem_Ico, Finset.mem_range]
      omega
    have grown : insert buffer.made (Finset.Ico buffer.ring.read buffer.ring.written) =
        Finset.Ico buffer.ring.read (buffer.ring.written + 1) := by
      ext object
      rw [housed.made, Finset.mem_insert, Finset.mem_Ico, Finset.mem_Ico]
      omega
    rw [events, run_concat_iff]
    exact ⟨_, housed.followed, by rw [observe, if_neg new, grown, written, read]⟩

/-- The slot that a pop is about to read holds the oldest object. -/
theorem Housed.oldest (housed : Housed start exponent buffer) {currentHead currentTail : UInt64} {present : Nat}
    (small : exponent < 64) (here : buffer.ring.consumer = .tailLoaded currentHead currentTail present)
    (filled : currentHead ≠ currentTail) :
    slot (2 ^ exponent) currentHead = place (2 ^ exponent) start.toNat buffer.ring.read ∧
      buffer.occupant (slot (2 ^ exponent) currentHead) = some buffer.ring.read ∧
      buffer.ring.read ∈ Finset.Ico buffer.ring.read buffer.ring.written ∧
      buffer.ring.written ≤ buffer.ring.read + 2 ^ exponent := by
  obtain ⟨_, same, _, some_value⟩ := housed.sound.empty_iff small here
  have untaken : buffer.ring.read = buffer.ring.popped.length := by simp [State.read, here]
  have published : buffer.ring.pushed.length ≤ buffer.ring.written := Nat.le_add_right _ _
  have more : buffer.ring.read < buffer.ring.written := by
    rw [untaken]
    exact (some_value filled).trans_le published
  rw [← untaken] at same
  have most := housed.sound.written_le
  rw [← untaken] at most
  exact ⟨same, by rw [same, housed.occupied _ (Nat.le_refl _) more], Finset.mem_Ico.mpr ⟨Nat.le_refl _, more⟩, most⟩

/-- A pop uses the oldest object and destroys it. -/
theorem Housed.destroy (housed : Housed start exponent buffer) {currentHead currentTail : UInt64} {present : Nat}
    (small : exponent < 64) (here : buffer.ring.consumer = .tailLoaded currentHead currentTail present)
    (filled : currentHead ≠ currentTail) (sound : Sound start exponent next.ring)
    (written : next.ring.written = buffer.ring.written) (read : next.ring.read = buffer.ring.read + 1)
    (occupant : next.occupant = Function.update buffer.occupant (slot (2 ^ exponent) currentHead) none)
    (made : next.made = buffer.made)
    (events : next.events = buffer.events ++ [.used (buffer.occupant (slot (2 ^ exponent) currentHead)),
      .destroyed (buffer.occupant (slot (2 ^ exponent) currentHead))]) : Housed start exponent next := by
  obtain ⟨same, oldest, alive, most⟩ := housed.oldest small here filled
  refine ⟨sound, by rw [made, written, housed.made], ?_, ?_⟩
  · intro index least less
    have apart : place (2 ^ exponent) start.toNat buffer.ring.read ≠ place (2 ^ exponent) start.toNat index :=
      place_ne (by omega) (by omega)
    rw [occupant, same, Function.update_of_ne apart.symm]
    exact housed.occupied index (by omega) (by omega)
  · have fewer : (Finset.Ico buffer.ring.read buffer.ring.written).erase buffer.ring.read =
        Finset.Ico (buffer.ring.read + 1) buffer.ring.written := by
      ext object
      rw [Finset.mem_erase, Finset.mem_Ico, Finset.mem_Ico]
      omega
    rw [events, oldest, run_append_iff]
    refine ⟨_, housed.followed, run_cons_iff.mpr ⟨_, if_pos alive, run_cons_iff.mpr ⟨_, if_pos alive, ?_⟩⟩⟩
    rw [run_nil, fewer, written, read, Finset.range_add_one]

/-- A step of the queue that neither writes nor reads a slot. -/
theorem Housed.ring (housed : Housed start exponent buffer) (small : exponent < 64) {action : Action T}
    (stepped : step (2 ^ exponent) buffer.ring action = some after) :
    Housed start exponent { buffer.lifetimes (2 ^ exponent) action with ring := after } := by
  have sound := housed.sound.step small stepped
  cases action with
  | push value =>
      rw [step] at stepped
      split at stepped
      next idle =>
        cases stepped
        exact housed.look sound (by simp [State.written, idle]) rfl rfl rfl rfl
      next => cases stepped
  | pop =>
      rw [step] at stepped
      split at stepped
      next idle =>
        cases stepped
        exact housed.look sound rfl (by simp [State.read, idle]) rfl rfl rfl
      next => cases stepped
  | producer =>
      rw [step, queuePush] at stepped
      simp only [RingBuffer.lifetimes]
      cases here : buffer.ring.producer with
      | headLoaded value currentTail currentHead present =>
          rw [here] at stepped
          simp only at stepped ⊢
          split at stepped
          next full =>
            cases stepped
            rw [if_pos full]
            exact housed.look sound (by simp [State.written, here]) rfl rfl rfl rfl
          next room =>
            cases stepped
            rw [if_neg room]
            exact housed.construct small here room sound (by simp [State.written, here]) rfl rfl rfl rfl
      | idle =>
          rw [here] at stepped
          cases stepped
      | _ =>
          rw [here] at stepped
          cases stepped
          exact housed.look sound (by simp [State.written, here]) rfl rfl rfl rfl
  | consumer =>
      rw [step, queuePop] at stepped
      simp only [RingBuffer.lifetimes]
      cases here : buffer.ring.consumer with
      | tailLoaded currentHead currentTail present =>
          rw [here] at stepped
          simp only at stepped ⊢
          split at stepped
          next empty =>
            cases stepped
            rw [if_pos empty]
            exact housed.look sound rfl (by simp [State.read, here]) rfl rfl rfl
          next filled =>
            cases stepped
            rw [if_neg filled]
            exact housed.destroy small here filled sound rfl (by simp [State.read, here]) rfl rfl rfl
      | idle =>
          rw [here] at stepped
          cases stepped
      | _ =>
          rw [here] at stepped
          cases stepped
          exact housed.look sound rfl (by simp [State.read, here]) rfl rfl rfl

theorem Housed.step (housed : Housed start exponent buffer) (small : exponent < 64) {turn : Turn T}
    (stepped : buffer.step (2 ^ exponent) turn = some next) : Housed start exponent next := by
  cases turn with
  | ring action =>
      rw [RingBuffer.step, Option.map_eq_some_iff] at stepped
      obtain ⟨after, stepped, rfl⟩ := stepped
      exact housed.ring small stepped
  | constructorThrows =>
      rw [RingBuffer.step] at stepped
      split at stepped
      next value currentTail currentHead present here =>
        split at stepped
        next => cases stepped
        next room =>
          cases stepped
          have same : { buffer.ring with producer := .idle }.written = buffer.ring.written := by
            simp [State.written, here]
          exact housed.look (housed.sound.lookProducer same trivial housed.sound.failedPushes) same rfl rfl rfl rfl
      next => cases stepped
  | moveThrows =>
      rw [RingBuffer.step] at stepped
      split at stepped
      next currentHead currentTail present here =>
        split at stepped
        next => cases stepped
        next filled =>
          cases stepped
          have same : { buffer.ring with consumer := .idle }.read = buffer.ring.read := by
            simp [State.read, here]
          obtain ⟨_, oldest, alive, _⟩ := housed.oldest small here filled
          refine housed.look (housed.sound.lookConsumer same trivial housed.sound.failedPops) rfl same rfl rfl ?_
          rw [oldest, housed.followed, run_concat_iff]
          exact ⟨_, housed.followed, if_pos alive⟩
      next => cases stepped

/-- The objects are destroyed exactly once when the buffer is empty at its end, and else those left in it
are not destroyed. -/
theorem owns_iff_empty (exponent : Nat) (small : exponent < 64) (start : UInt64) (data : Nat → T)
    (turns : List (Turn T))
    (ran : run (RingBuffer.step (2 ^ exponent)) (RingBuffer.initial start data) turns = some buffer)
    (quiet : buffer.ring.producer = .idle ∧ buffer.ring.consumer = .idle) :
    (∃ known, run observe (∅, ∅) buffer.destructor = some known) ∧
      (Owned buffer.destructor ↔ buffer.ring.queue.head = buffer.ring.queue.tail) := by
  have housed : Housed start exponent buffer :=
    run_invariant (Housed start exponent) (fun _ _ _ housed stepped => housed.step small stepped)
      (initial_housed data) ran
  have written : buffer.ring.written = buffer.ring.pushed.length := by simp [State.written, quiet.1]
  have read : buffer.ring.read = buffer.ring.popped.length := by simp [State.read, quiet.2]
  have size : 2 ^ exponent < 2 ^ 64 := Nat.pow_lt_pow_right (by decide) small
  have fewer := housed.sound.popped_le
  have bounded := housed.sound.bounded
  refine ⟨⟨_, housed.followed⟩, ?_⟩
  rw [housed.sound.head, housed.sound.tail, counter_eq_iff fewer (by omega), Owned, RingBuffer.destructor,
    housed.followed]
  simp only [Option.some_inj, Prod.mk.injEq, exists_eq_right', Finset.Ico_eq_empty_iff, written, read, not_lt]
  omega

/-- A push, all of it. -/
def pushSeven : List (Turn Nat) := [.ring (.push 7), .ring .producer, .ring .producer, .ring .producer, .ring .producer]

/-- A push and a pop. -/
def pushAndPop : List (Turn Nat) :=
  pushSeven ++ [.ring .pop, .ring .consumer, .ring .consumer, .ring .consumer, .ring .consumer]

theorem owns_iff_empty_pop :
    ∃ buffer, run (RingBuffer.step (2 ^ 0)) (RingBuffer.initial 0 fun _ => 0) pushAndPop = some buffer ∧
      Owned buffer.destructor :=
  ⟨_, rfl, (owns_iff_empty 0 (by decide) 0 (fun _ => 0) pushAndPop rfl ⟨rfl, rfl⟩).2.mpr rfl⟩

/-- One push, and the end of the buffer. -/
theorem push_not_destroyed :
    ∃ buffer, run (RingBuffer.step (2 ^ 0)) (RingBuffer.initial 0 fun _ => 0) pushSeven = some buffer ∧
      (buffer.ring.producer = .idle ∧ buffer.ring.consumer = .idle) ∧ ¬ Owned buffer.destructor := by
  refine ⟨_, rfl, ⟨rfl, rfl⟩, ?_⟩
  rintro ⟨dead, followed⟩
  have left : run observe (∅, ∅) [.constructed 0] = some ({0}, ∅) := rfl
  have none_left := left.symm.trans followed
  simp at none_left

end HundredDays.SpscQueue
