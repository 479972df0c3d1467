import HundredDays.MpmcQueue.Model
import HundredDays.Data.Census
import HundredDays.Semantics.Run
import Mathlib.Order.Interval.Finset.Nat

namespace HundredDays.MpmcQueue

open HundredDays.Data HundredDays.Semantics

/-! Each ticket belongs to one push and one pop, which have its slot to themselves. -/

variable {T : Type} {threads : Nat} {state after : State T threads} {queue : LockFreeQueue T}
  {phase other : Phase T} {held : Nat → Option Nat} {pushes : List (Fin threads × T)} {thread : Fin threads}
  {val : T} {pos seq : Nat}

/-- The slot that a thread has to itself. -/
def Phase.slot : Phase T → Option Nat
  | pushClaimed _ pos => some (pos % CAPACITY)
  | pushWritten pos => some (pos % CAPACITY)
  | popClaimed pos => some (pos % CAPACITY)
  | popRead pos _ => some (pos % CAPACITY)
  | _ => none

/-- The ticket of a push that has not returned yet. -/
def Phase.pushing : Phase T → Option Nat
  | pushClaimed _ pos => some pos
  | pushWritten pos => some pos
  | _ => none

/-- The ticket of a pop that has not returned yet. -/
def Phase.popping : Phase T → Option Nat
  | popClaimed pos => some pos
  | popRead pos _ => some pos
  | _ => none

/-- Whether a thread may still claim a ticket in its operation. -/
def Phase.pending : Phase T → Nat
  | pushCalled _ => 1
  | pushLooking _ _ => 1
  | pushDeciding _ _ _ => 1
  | popCalled => 1
  | popLooking _ => 1
  | popDeciding _ _ => 1
  | _ => 0

/-- The value of the push with this ticket. -/
def valueOf (pushes : List (Fin threads × T)) (ticket : Nat) : Option T := (pushes[ticket]?).map Prod.snd

/-- What a thread knows of the queue. -/
def ThreadSound (queue : LockFreeQueue T) (held : Nat → Option Nat) (pushes : List (Fin threads × T)) :
    Phase T → Prop
  | .idle => True
  | .pushCalled _ => True
  | .pushLooking _ pos => pos ≤ queue.tail
  | .pushDeciding _ pos seq => pos ≤ queue.tail ∧ seq ≤ queue.sequence (pos % CAPACITY)
  | .pushClaimed val pos => queue.head ≤ pos ∧ pos < queue.tail ∧ queue.sequence (pos % CAPACITY) = pos ∧
      held (pos % CAPACITY) = none ∧ valueOf pushes pos = some val
  | .pushWritten pos => queue.head ≤ pos ∧ pos < queue.tail ∧ queue.sequence (pos % CAPACITY) = pos ∧
      held (pos % CAPACITY) = some pos
  | .popCalled => True
  | .popLooking pos => pos ≤ queue.head
  | .popDeciding pos seq => pos ≤ queue.head ∧ seq ≤ queue.sequence (pos % CAPACITY)
  | .popClaimed pos => pos < queue.head ∧ queue.tail ≤ pos + CAPACITY ∧
      queue.sequence (pos % CAPACITY) = pos + 1 ∧ held (pos % CAPACITY) = some pos
  | .popRead pos val => pos < queue.head ∧ queue.tail ≤ pos + CAPACITY ∧
      queue.sequence (pos % CAPACITY) = pos + 1 ∧ held (pos % CAPACITY) = none ∧ valueOf pushes pos = some val

/-- A slot with no thread at work waits for the push or for the pop of its ticket. -/
inductive SlotSound (queue : LockFreeQueue T) (held : Nat → Option Nat) (phase : Fin threads → Phase T)
    (slot : Nat) : Prop where
  | busy (thread : Fin threads) (works : (phase thread).slot = some slot)
  | free (ticket : Nat) (here : ticket % CAPACITY = slot) (sequence : queue.sequence slot = ticket)
      (unclaimed : queue.tail ≤ ticket) (near : ticket < queue.head + CAPACITY) (empty : held slot = none)
  | full (ticket : Nat) (here : ticket % CAPACITY = slot) (sequence : queue.sequence slot = ticket + 1)
      (unclaimed : queue.head ≤ ticket) (pushed : ticket < queue.tail) (kept : held slot = some ticket)

structure Sound (state : State T threads) : Prop where
  pushes : state.pushes.length = state.queue.tail
  pops : state.pops.map Prod.snd = List.range state.queue.head
  ordered : state.queue.head ≤ state.queue.tail
  bounded : state.queue.tail ≤ state.queue.head + CAPACITY
  operations : state.queue.head + state.queue.tail + ∑ thread, (state.phase thread).pending ≤ state.operations
  threads : ∀ thread, ThreadSound state.queue state.held state.pushes (state.phase thread)
  slots : ∀ slot < CAPACITY, SlotSound state.queue state.held state.phase slot
  /-- No two threads work on one slot. -/
  exclusive : ∀ thread other slot, (state.phase thread).slot = some slot → (state.phase other).slot = some slot →
    thread = other
  held : ∀ slot ticket, state.held slot = some ticket →
    valueOf state.pushes ticket = some (state.queue.data slot)
  returned : ∀ exchange ∈ state.returned, valueOf state.pushes exchange.1 = some exchange.2
  once : (state.returned.map Prod.fst).Nodup
  accounted : ∀ ticket, ticket < state.queue.head ↔
    ticket ∈ state.returned.map Prod.fst ∨ ∃ thread, (state.phase thread).popping = some ticket
  fresh : ∀ thread ticket, (state.phase thread).popping = some ticket → ticket ∉ state.returned.map Prod.fst

theorem initial_sound (data : Nat → T) : Sound (State.initial threads data) := by
  constructor
  · rfl
  · rfl
  · exact Nat.le_refl _
  · exact Nat.zero_le _
  · simp [State.initial, initializeQueue, Phase.pending]
  · intro thread
    trivial
  · intro slot less
    exact .free slot (Nat.mod_eq_of_lt less) rfl (Nat.zero_le _)
      (by simpa [State.initial, initializeQueue] using less) rfl
  · intro thread other slot works
    cases works
  · intro slot ticket kept
    cases kept
  · simp [State.initial]
  · exact List.nodup_nil
  · simp [State.initial, initializeQueue, Phase.popping]
  · simp [State.initial]

/-- The phase of one thread in the sum over all. -/
theorem pending_update (phases : Fin threads → Phase T) (thread : Fin threads) (phase : Phase T) :
    ∑ each, (Function.update phases thread phase each).pending + (phases thread).pending =
      ∑ each, (phases each).pending + phase.pending :=
  census_update Phase.pending phases thread phase

theorem pending_le (phases : Fin threads → Phase T) (thread : Fin threads) :
    (phases thread).pending ≤ ∑ each, (phases each).pending :=
  le_census Phase.pending phases thread

theorem popping_of_slot (free : phase.slot = none) : phase.popping = none := by
  cases phase with
  | popClaimed pos => cases free
  | popRead pos val => cases free
  | _ => rfl

theorem slot_of_popping {ticket : Nat} (popping : phase.popping = some ticket) :
    phase.slot = some (ticket % CAPACITY) := by
  cases phase with
  | popClaimed pos =>
      cases popping
      rfl
  | popRead pos val =>
      cases popping
      rfl
  | _ => cases popping

/-- What a phase keeps, all threads keep. -/
theorem project_update {α : Type*} (project : Phase T → α) (phases : Fin threads → Phase T) (thread : Fin threads)
    (phase : Phase T) (same : project phase = project (phases thread)) (each : Fin threads) :
    project (Function.update phases thread phase each) = project (phases each) := by
  by_cases here : each = thread
  · rw [here, Function.update_self, same]
  · rw [Function.update_of_ne here]

theorem exclusive_update {phases : Fin threads → Phase T}
    (exclusive : ∀ each other slot, (phases each).slot = some slot → (phases other).slot = some slot → each = other)
    (apart : ∀ other ≠ thread, ∀ slot, phase.slot = some slot → (phases other).slot ≠ some slot)
    (each other : Fin threads) (slot : Nat) (works : (Function.update phases thread phase each).slot = some slot)
    (also : (Function.update phases thread phase other).slot = some slot) : each = other := by
  by_cases here : each = thread
  · by_cases there : other = thread
    · exact here.trans there.symm
    · rw [here, Function.update_self] at works
      rw [Function.update_of_ne there] at also
      exact absurd also (apart other there slot works)
  · rw [Function.update_of_ne here] at works
    by_cases there : other = thread
    · rw [there, Function.update_self] at also
      exact absurd works (apart each here slot also)
    · rw [Function.update_of_ne there] at also
      exact exclusive each other slot works also

/-- Two tickets of one slot are a whole lap apart. -/
theorem ticket_eq {low high : Nat} (same : high % CAPACITY = low % CAPACITY) (ordered : low ≤ high)
    (near : high < low + CAPACITY) : high = low := by
  simp only [CAPACITY] at same near
  omega

theorem succ_elsewhere (ticket : Nat) : (ticket + 1) % CAPACITY ≠ ticket % CAPACITY := by
  simp only [CAPACITY]
  omega

theorem valueOf_append {ticket : Nat} (inside : ticket < pushes.length) (more : List (Fin threads × T)) :
    valueOf (pushes ++ more) ticket = valueOf pushes ticket := by
  rw [valueOf, List.getElem?_append_left inside, valueOf]

theorem lt_of_valueOf {ticket : Nat} (found : valueOf pushes ticket = some val) : ticket < pushes.length := by
  obtain ⟨pushed, at_, _⟩ := Option.map_eq_some_iff.mp found
  exact (List.getElem?_eq_some_iff.mp at_).1

namespace ThreadSound

/-- The ticket of a thread at work, and what the slot says. -/
theorem at_work {slot : Nat} (sound : ThreadSound queue held pushes phase) (works : phase.slot = some slot) :
    ∃ ticket, ticket % CAPACITY = slot ∧
      (phase.pushing = some ticket ∧ queue.head ≤ ticket ∧ ticket < queue.tail ∧ queue.sequence slot = ticket ∨
       phase.popping = some ticket ∧ ticket < queue.head ∧ queue.tail ≤ ticket + CAPACITY ∧
         queue.sequence slot = ticket + 1) := by
  cases phase with
  | pushClaimed val pos =>
      cases works
      exact ⟨pos, rfl, .inl ⟨rfl, sound.1, sound.2.1, sound.2.2.1⟩⟩
  | pushWritten pos =>
      cases works
      exact ⟨pos, rfl, .inl ⟨rfl, sound.1, sound.2.1, sound.2.2.1⟩⟩
  | popClaimed pos =>
      cases works
      exact ⟨pos, rfl, .inr ⟨rfl, sound.1, sound.2.1, sound.2.2.1⟩⟩
  | popRead pos val =>
      cases works
      exact ⟨pos, rfl, .inr ⟨rfl, sound.1, sound.2.1, sound.2.2.1⟩⟩
  | _ => cases works

/-- Another thread claims the next ticket for a push. -/
theorem claim_push (sound : ThreadSound queue held pushes phase) (size : pushes.length = queue.tail)
    (elsewhere : phase.slot ≠ some (queue.tail % CAPACITY)) (more : List (Fin threads × T)) :
    ThreadSound { queue with tail := queue.tail + 1 } held (pushes ++ more) phase := by
  cases phase with
  | pushLooking val pos => exact Nat.le_succ_of_le sound
  | pushDeciding val pos seq => exact ⟨Nat.le_succ_of_le sound.1, sound.2⟩
  | pushClaimed val pos =>
      obtain ⟨low, high, sequence, empty, value⟩ := sound
      exact ⟨low, Nat.lt_succ_of_lt high, sequence, empty, (valueOf_append (by omega) more).trans value⟩
  | pushWritten pos => exact ⟨sound.1, Nat.lt_succ_of_lt sound.2.1, sound.2.2⟩
  | popClaimed pos =>
      obtain ⟨low, high, rest⟩ := sound
      refine ⟨low, ?_, rest⟩
      have apart : queue.tail ≠ pos + CAPACITY := by
        intro same
        exact elsewhere (by rw [same, Nat.add_mod_right, Phase.slot])
      show queue.tail + 1 ≤ pos + CAPACITY
      omega
  | popRead pos val =>
      obtain ⟨low, high, sequence, empty, value⟩ := sound
      refine ⟨low, ?_, sequence, empty, (valueOf_append (lt_of_valueOf value) more).trans value⟩
      have apart : queue.tail ≠ pos + CAPACITY := by
        intro same
        exact elsewhere (by rw [same, Nat.add_mod_right, Phase.slot])
      show queue.tail + 1 ≤ pos + CAPACITY
      omega
  | _ => exact sound

/-- Another thread claims the next ticket for a pop. -/
theorem claim_pop (sound : ThreadSound queue held pushes phase)
    (elsewhere : phase.slot ≠ some (queue.head % CAPACITY)) :
    ThreadSound { queue with head := queue.head + 1 } held pushes phase := by
  cases phase with
  | pushClaimed val pos =>
      obtain ⟨low, rest⟩ := sound
      have apart : queue.head ≠ pos := by
        intro same
        exact elsewhere (by rw [same, Phase.slot])
      exact ⟨Nat.lt_of_le_of_ne low apart, rest⟩
  | pushWritten pos =>
      obtain ⟨low, rest⟩ := sound
      have apart : queue.head ≠ pos := by
        intro same
        exact elsewhere (by rw [same, Phase.slot])
      exact ⟨Nat.lt_of_le_of_ne low apart, rest⟩
  | popLooking pos => exact Nat.le_succ_of_le sound
  | popDeciding pos seq => exact ⟨Nat.le_succ_of_le sound.1, sound.2⟩
  | popClaimed pos => exact ⟨Nat.lt_succ_of_lt sound.1, sound.2⟩
  | popRead pos val => exact ⟨Nat.lt_succ_of_lt sound.1, sound.2⟩
  | _ => exact sound

/-- Another thread writes to a slot of its own. -/
theorem change_slot {slot : Nat} (sound : ThreadSound queue held pushes phase) (number : Nat)
    (kept : Option Nat) (data : Nat → T) (elsewhere : phase.slot ≠ some slot)
    (grows : queue.sequence slot ≤ number) :
    ThreadSound { queue with data, sequence := Function.update queue.sequence slot number }
      (Function.update held slot kept) pushes phase := by
  have later : ∀ each, queue.sequence each ≤ Function.update queue.sequence slot number each := by
    intro each
    by_cases here : each = slot
    · rw [here, Function.update_self]
      exact grows
    · rw [Function.update_of_ne here]
  have apart : ∀ pos, phase.slot = some (pos % CAPACITY) → pos % CAPACITY ≠ slot := by
    intro pos at_ same
    exact elsewhere (at_.trans (congrArg some same))
  cases phase with
  | pushDeciding val pos seq => exact ⟨sound.1, sound.2.trans (later _)⟩
  | popDeciding pos seq => exact ⟨sound.1, sound.2.trans (later _)⟩
  | pushClaimed val pos =>
      simpa only [ThreadSound, Function.update_of_ne (apart pos rfl)] using sound
  | pushWritten pos =>
      simpa only [ThreadSound, Function.update_of_ne (apart pos rfl)] using sound
  | popClaimed pos =>
      simpa only [ThreadSound, Function.update_of_ne (apart pos rfl)] using sound
  | popRead pos val =>
      simpa only [ThreadSound, Function.update_of_ne (apart pos rfl)] using sound
  | _ => exact sound

end ThreadSound

namespace SlotSound

variable {phases after : Fin threads → Phase T} {slot : Nat}

theorem move (sound : SlotSound queue held phases slot)
    (stays : ∀ thread, (phases thread).slot = some slot → (after thread).slot = some slot) :
    SlotSound queue held after slot := by
  cases sound with
  | busy thread works => exact .busy thread (stays thread works)
  | free ticket here sequence unclaimed near empty => exact .free ticket here sequence unclaimed near empty
  | full ticket here sequence unclaimed pushed kept => exact .full ticket here sequence unclaimed pushed kept

theorem claim_push (sound : SlotSound queue held phases slot) (elsewhere : slot ≠ queue.tail % CAPACITY) :
    SlotSound { queue with tail := queue.tail + 1 } held phases slot := by
  cases sound with
  | busy thread works => exact .busy thread works
  | free ticket here sequence unclaimed near empty =>
      have apart : queue.tail ≠ ticket := by
        intro same
        exact elsewhere (by rw [same, here])
      exact .free ticket here sequence (Nat.lt_of_le_of_ne unclaimed apart) near empty
  | full ticket here sequence unclaimed pushed kept =>
      exact .full ticket here sequence unclaimed (Nat.lt_succ_of_lt pushed) kept

theorem claim_pop (sound : SlotSound queue held phases slot) (elsewhere : slot ≠ queue.head % CAPACITY) :
    SlotSound { queue with head := queue.head + 1 } held phases slot := by
  cases sound with
  | busy thread works => exact .busy thread works
  | free ticket here sequence unclaimed near empty =>
      exact .free ticket here sequence unclaimed (by show ticket < queue.head + 1 + CAPACITY; omega) empty
  | full ticket here sequence unclaimed pushed kept =>
      have apart : queue.head ≠ ticket := by
        intro same
        exact elsewhere (by rw [same, here])
      exact .full ticket here sequence (Nat.lt_of_le_of_ne unclaimed apart) pushed kept

theorem change_slot {changed : Nat} (sound : SlotSound queue held phases slot) (number : Nat)
    (kept : Option Nat) (data : Nat → T) (elsewhere : slot ≠ changed) :
    SlotSound { queue with data, sequence := Function.update queue.sequence changed number }
      (Function.update held changed kept) phases slot := by
  have number_ := Function.update_of_ne elsewhere number queue.sequence
  have kept_ := Function.update_of_ne elsewhere kept held
  cases sound with
  | busy thread works => exact .busy thread works
  | free ticket here sequence unclaimed near empty =>
      exact .free ticket here (number_.trans sequence) unclaimed near (kept_.trans empty)
  | full ticket here sequence unclaimed pushed kept =>
      exact .full ticket here (number_.trans sequence) unclaimed pushed (kept_.trans kept)

end SlotSound

namespace Sound

/-- No thread is at work on a slot whose sequence has reached the tail. -/
theorem push_alone (sound : Sound state)
    (ready : state.queue.tail ≤ state.queue.sequence (state.queue.tail % CAPACITY)) (thread : Fin threads) :
    (state.phase thread).slot ≠ some (state.queue.tail % CAPACITY) := by
  intro works
  obtain ⟨ticket, here, pushing | popping⟩ := (sound.threads thread).at_work works
  · obtain ⟨_, _, high, sequence⟩ := pushing
    omega
  · obtain ⟨_, low, _, sequence⟩ := popping
    have ordered := sound.ordered
    have last : ticket + 1 = state.queue.tail := by omega
    rw [← last] at here
    exact succ_elsewhere ticket here.symm

theorem push_free (sound : Sound state)
    (ready : state.queue.tail ≤ state.queue.sequence (state.queue.tail % CAPACITY)) :
    state.queue.sequence (state.queue.tail % CAPACITY) = state.queue.tail ∧
      state.queue.tail < state.queue.head + CAPACITY ∧ state.held (state.queue.tail % CAPACITY) = none := by
  cases sound.slots _ (Nat.mod_lt state.queue.tail (by decide : 0 < CAPACITY)) with
  | busy thread works => exact absurd works (sound.push_alone ready thread)
  | free ticket here sequence unclaimed near empty =>
      have ordered := sound.ordered
      have same : ticket = state.queue.tail := ticket_eq here unclaimed (by omega)
      rw [same] at sequence near
      exact ⟨sequence, near, empty⟩
  | full ticket here sequence unclaimed pushed kept =>
      have last : ticket + 1 = state.queue.tail := by omega
      rw [← last] at here
      exact absurd here.symm (succ_elsewhere ticket)

/-- No thread is at work on a slot whose sequence has passed the head. -/
theorem pop_alone (sound : Sound state)
    (ready : state.queue.head + 1 ≤ state.queue.sequence (state.queue.head % CAPACITY)) (thread : Fin threads) :
    (state.phase thread).slot ≠ some (state.queue.head % CAPACITY) := by
  intro works
  have bounded := sound.bounded
  obtain ⟨ticket, here, pushing | popping⟩ := (sound.threads thread).at_work works
  · obtain ⟨_, low, high, sequence⟩ := pushing
    have same : ticket = state.queue.head := ticket_eq here low (by omega)
    omega
  · obtain ⟨_, low, _, sequence⟩ := popping
    omega

theorem pop_full (sound : Sound state)
    (ready : state.queue.head + 1 ≤ state.queue.sequence (state.queue.head % CAPACITY)) :
    state.queue.sequence (state.queue.head % CAPACITY) = state.queue.head + 1 ∧
      state.queue.head < state.queue.tail ∧
      state.held (state.queue.head % CAPACITY) = some state.queue.head := by
  have ordered := sound.ordered
  have bounded := sound.bounded
  cases sound.slots _ (Nat.mod_lt state.queue.head (by decide : 0 < CAPACITY)) with
  | busy thread works => exact absurd works (sound.pop_alone ready thread)
  | free ticket here sequence unclaimed near empty =>
      have same : ticket = state.queue.head := ticket_eq here (by omega) near
      omega
  | full ticket here sequence unclaimed pushed kept =>
      have same : ticket = state.queue.head := ticket_eq here unclaimed (by omega)
      rw [same] at sequence pushed kept
      exact ⟨sequence, pushed, kept⟩

/-- A thread that is at work on no slot before and after. -/
theorem goto (sound : Sound state) (phase : Phase T) (before : (state.phase thread).slot = none)
    (after : phase.slot = none)
    (known : ThreadSound state.queue state.held state.pushes phase) {operations : Nat}
    (more : phase.pending + state.operations ≤ (state.phase thread).pending + operations) :
    Sound { state with phase := Function.update state.phase thread phase, operations } := by
  have slots := project_update Phase.slot state.phase thread phase (after.trans before.symm)
  have poppings := project_update Phase.popping state.phase thread phase
    ((popping_of_slot after).trans (popping_of_slot before).symm)
  have pending := pending_update state.phase thread phase
  have operations_ := sound.operations
  constructor
  · exact sound.pushes
  · exact sound.pops
  · exact sound.ordered
  · exact sound.bounded
  · show state.queue.head + state.queue.tail + ∑ each, (Function.update state.phase thread phase each).pending ≤
      operations
    omega
  · exact (Function.forall_update_iff state.phase fun _ => ThreadSound state.queue state.held state.pushes).mpr
      ⟨known, fun other _ => sound.threads other⟩
  · intro slot inside
    exact (sound.slots slot inside).move fun each => (slots each).trans
  · intro each other slot
    simp only [slots]
    exact sound.exclusive each other slot
  · exact sound.held
  · exact sound.returned
  · exact sound.once
  · simp only [poppings]
    exact sound.accounted
  · simp only [poppings]
    exact sound.fresh

theorem claimPush (sound : Sound state) (deciding : state.phase thread = .pushDeciding val state.queue.tail seq)
    (ready : state.queue.tail ≤ state.queue.sequence (state.queue.tail % CAPACITY)) :
    Sound { state with
      phase := Function.update state.phase thread (.pushClaimed val state.queue.tail)
      queue := { state.queue with tail := state.queue.tail + 1 }
      pushes := state.pushes ++ [(thread, val)] } := by
  obtain ⟨sequence, near, empty⟩ := sound.push_free ready
  have alone := sound.push_alone ready
  have size := sound.pushes
  have poppings := project_update Phase.popping state.phase thread (.pushClaimed val state.queue.tail) (by rw [deciding]; rfl)
  have pending := pending_update state.phase thread (.pushClaimed val state.queue.tail)
  have operations := sound.operations
  rw [deciding] at pending
  have known (ticket : Nat) (value : T) (found : valueOf state.pushes ticket = some value) :
      valueOf (state.pushes ++ [(thread, val)]) ticket = some value :=
    (valueOf_append (lt_of_valueOf found) _).trans found
  constructor
  · simpa using size
  · exact sound.pops
  · exact Nat.le_succ_of_le sound.ordered
  · exact near
  · have one : (Phase.pushDeciding val state.queue.tail seq).pending = 1 := rfl
    have zero : (Phase.pushClaimed val state.queue.tail).pending = 0 := rfl
    show state.queue.head + (state.queue.tail + 1) +
      ∑ each, (Function.update state.phase thread (.pushClaimed val state.queue.tail) each).pending ≤
        state.operations
    omega
  · refine (Function.forall_update_iff state.phase fun _ => ThreadSound _ _ _).mpr ⟨?_, ?_⟩
    · refine ⟨sound.ordered, Nat.lt_succ_self _, sequence, empty, ?_⟩
      rw [valueOf, ← size, List.getElem?_concat_length]
      rfl
    · intro other _
      exact (sound.threads other).claim_push size (alone other) _
  · intro slot inside
    by_cases here : slot = state.queue.tail % CAPACITY
    · exact .busy thread (by rw [here]; simp [Phase.slot])
    · refine ((sound.slots slot inside).claim_push here).move ?_
      intro each works
      have other : each ≠ thread := by
        intro same
        rw [same, deciding] at works
        cases works
      simpa only [Function.update_of_ne other] using works
  · exact exclusive_update sound.exclusive fun other _ slot claimed works => by
      cases claimed
      exact alone other works
  · intro slot ticket kept
    exact known _ _ (sound.held slot ticket kept)
  · intro exchange done
    exact known _ _ (sound.returned exchange done)
  · exact sound.once
  · simp only [poppings]
    exact sound.accounted
  · simp only [poppings]
    exact sound.fresh

theorem claimPop (sound : Sound state) (deciding : state.phase thread = .popDeciding state.queue.head seq)
    (ready : state.queue.head + 1 ≤ state.queue.sequence (state.queue.head % CAPACITY)) :
    Sound { state with
      phase := Function.update state.phase thread (.popClaimed state.queue.head)
      queue := { state.queue with head := state.queue.head + 1 }
      pops := state.pops ++ [(thread, state.queue.head)] } := by
  obtain ⟨sequence, pushed, kept⟩ := sound.pop_full ready
  have alone := sound.pop_alone ready
  have bounded := sound.bounded
  have pending := pending_update state.phase thread (.popClaimed state.queue.head)
  have operations := sound.operations
  rw [deciding] at pending
  have others (each : Fin threads) (other : each ≠ thread) :=
    Function.update_of_ne other (.popClaimed state.queue.head) state.phase
  have mine := Function.update_self thread (.popClaimed state.queue.head) state.phase
  constructor
  · exact sound.pushes
  · show (state.pops ++ [(thread, state.queue.head)]).map Prod.snd = List.range (state.queue.head + 1)
    rw [List.map_append, sound.pops, List.range_succ, List.map_singleton]
  · exact pushed
  · show state.queue.tail ≤ state.queue.head + 1 + CAPACITY
    omega
  · have one : (Phase.popDeciding (T := T) state.queue.head seq).pending = 1 := rfl
    have zero : (Phase.popClaimed (T := T) state.queue.head).pending = 0 := rfl
    show state.queue.head + 1 + state.queue.tail +
      ∑ each, (Function.update state.phase thread (.popClaimed state.queue.head) each).pending ≤ state.operations
    omega
  · refine (Function.forall_update_iff state.phase fun _ => ThreadSound _ _ _).mpr ⟨?_, ?_⟩
    · exact ⟨Nat.lt_succ_self _, bounded, sequence, kept⟩
    · intro other _
      exact (sound.threads other).claim_pop (alone other)
  · intro slot inside
    by_cases here : slot = state.queue.head % CAPACITY
    · exact .busy thread (by rw [here]; exact congrArg Phase.slot mine)
    · refine ((sound.slots slot inside).claim_pop here).move ?_
      intro each works
      have other : each ≠ thread := by
        intro same
        rw [same, deciding] at works
        cases works
      exact (congrArg Phase.slot (others each other)).trans works
  · exact exclusive_update sound.exclusive fun other _ slot claimed works => by
      cases claimed
      exact alone other works
  · exact sound.held
  · exact sound.returned
  · exact sound.once
  · intro ticket
    show ticket < state.queue.head + 1 ↔ _
    rw [Nat.lt_succ_iff_lt_or_eq, sound.accounted ticket, or_assoc]
    apply or_congr_right
    constructor
    · rintro (⟨each, popping⟩ | rfl)
      · have other : each ≠ thread := by
          intro same
          rw [same, deciding] at popping
          cases popping
        exact ⟨each, (congrArg Phase.popping (others each other)).trans popping⟩
      · exact ⟨thread, congrArg Phase.popping mine⟩
    · intro ⟨each, popping⟩
      by_cases same : each = thread
      · right
        rw [same] at popping
        exact Option.some.inj (popping.symm.trans (congrArg Phase.popping mine))
      · left
        exact ⟨each, (congrArg Phase.popping (others each same)).symm.trans popping⟩
  · intro each ticket popping
    by_cases same : each = thread
    · rw [same] at popping
      have mine_ : some state.queue.head = some ticket := (congrArg Phase.popping mine).symm.trans popping
      cases mine_
      intro done
      exact absurd ((sound.accounted _).mpr (.inl done)) (Nat.lt_irrefl _)
    · exact sound.fresh each ticket ((congrArg Phase.popping (others each same)).symm.trans popping)

/-- A thread works on the slot that it has to itself. -/
theorem work {slot : Nat} {holding : Option Nat} {data : Nat → T} (sound : Sound state)
    (works : (state.phase thread).slot = some slot) (stays : phase.slot = some slot)
    (popping : phase.popping = (state.phase thread).popping) (settled : phase.pending = (state.phase thread).pending)
    (own : ThreadSound { state.queue with data } (Function.update state.held slot holding) state.pushes phase)
    (kept : ∀ place ticket, Function.update state.held slot holding place = some ticket →
      valueOf state.pushes ticket = some (data place)) :
    Sound { state with
      phase := Function.update state.phase thread phase
      queue := { state.queue with data }
      held := Function.update state.held slot holding } := by
  have slots := project_update Phase.slot state.phase thread phase (stays.trans works.symm)
  have poppings := project_update Phase.popping state.phase thread phase popping
  have pending := pending_update state.phase thread phase
  rw [← settled, Nat.add_right_cancel_iff] at pending
  have same : Function.update state.queue.sequence slot (state.queue.sequence slot) = state.queue.sequence :=
    Function.update_eq_self _ _
  constructor
  · exact sound.pushes
  · exact sound.pops
  · exact sound.ordered
  · exact sound.bounded
  · exact (congrArg _ pending).trans_le sound.operations
  · refine (Function.forall_update_iff state.phase fun _ => ThreadSound _ _ _).mpr ⟨own, ?_⟩
    intro other different
    have elsewhere : (state.phase other).slot ≠ some slot :=
      fun also => different (sound.exclusive other thread _ also works)
    have changed := (sound.threads other).change_slot _ holding data elsewhere (Nat.le_refl _)
    rw [same] at changed
    exact changed
  · intro place inside
    by_cases here : place = slot
    · exact .busy thread ((slots thread).trans (here ▸ works))
    · have changed := (sound.slots place inside).change_slot (state.queue.sequence slot) holding data here
      rw [same] at changed
      exact changed.move fun each => (slots each).trans
  · intro each other place
    simp only [slots]
    exact sound.exclusive each other place
  · exact kept
  · exact sound.returned
  · exact sound.once
  · simp only [poppings]
    exact sound.accounted
  · simp only [poppings]
    exact sound.fresh

/-- A push writes the data of the slot that it has claimed. -/
theorem write (sound : Sound state) (claimed : state.phase thread = .pushClaimed val pos) :
    Sound { state with
      phase := Function.update state.phase thread (.pushWritten pos)
      queue := { state.queue with data := Function.update state.queue.data (pos % CAPACITY) val }
      held := Function.update state.held (pos % CAPACITY) (some pos) } := by
  have known := sound.threads thread
  rw [claimed] at known
  obtain ⟨low, high, sequence, empty, value⟩ := known
  refine sound.work (congrArg Phase.slot claimed) rfl (congrArg Phase.popping claimed).symm
    (congrArg Phase.pending claimed).symm ⟨low, high, sequence, Function.update_self _ _ _⟩ ?_
  intro slot ticket kept
  by_cases here : slot = pos % CAPACITY
  · rw [here, Function.update_self] at kept
    cases kept
    rw [here, Function.update_self, value]
  · rw [Function.update_of_ne here] at kept
    rw [Function.update_of_ne here, sound.held slot ticket kept]

/-- A push publishes the slot that it has written. -/
theorem publish (sound : Sound state) (written : state.phase thread = .pushWritten pos) :
    Sound { state with
      phase := Function.update state.phase thread .idle
      queue := { state.queue with
        sequence := Function.update state.queue.sequence (pos % CAPACITY) (pos + 1) } } := by
  have known := sound.threads thread
  rw [written] at known
  obtain ⟨low, high, sequence, kept⟩ := known
  have works : (state.phase thread).slot = some (pos % CAPACITY) := congrArg Phase.slot written
  have poppings := project_update Phase.popping state.phase thread .idle
    (congrArg Phase.popping written).symm
  have pending := pending_update state.phase thread .idle
  rw [written] at pending
  have same : Function.update state.held (pos % CAPACITY) (state.held (pos % CAPACITY)) = state.held :=
    Function.update_eq_self _ _
  have elsewhere (other : Fin threads) (different : other ≠ thread) :
      (state.phase other).slot ≠ some (pos % CAPACITY) :=
    fun also => different (sound.exclusive other thread _ also works)
  constructor
  · exact sound.pushes
  · exact sound.pops
  · exact sound.ordered
  · exact sound.bounded
  · exact (congrArg _ pending).trans_le sound.operations
  · refine (Function.forall_update_iff state.phase fun _ => ThreadSound _ _ _).mpr ⟨trivial, ?_⟩
    intro other different
    have changed := (sound.threads other).change_slot (pos + 1) (state.held (pos % CAPACITY))
      state.queue.data (elsewhere other different) (by omega)
    rw [same] at changed
    exact changed
  · intro slot inside
    by_cases here : slot = pos % CAPACITY
    · rw [here]
      exact .full pos rfl (Function.update_self ..) low high kept
    · have changed := (sound.slots slot inside).change_slot (pos + 1) (state.held (pos % CAPACITY))
        state.queue.data here
      rw [same] at changed
      refine changed.move ?_
      intro each at_
      have other : each ≠ thread := by
        intro same
        rw [same, works] at at_
        exact here (Option.some.inj at_).symm
      exact (congrArg Phase.slot (Function.update_of_ne other .idle state.phase)).trans at_
  · exact exclusive_update sound.exclusive fun _ _ _ works => by cases works
  · exact sound.held
  · exact sound.returned
  · exact sound.once
  · simp only [poppings]
    exact sound.accounted
  · simp only [poppings]
    exact sound.fresh

/-- A pop reads the data of the slot that it has claimed. -/
theorem read (sound : Sound state) (claimed : state.phase thread = .popClaimed pos) :
    Sound { state with
      phase := Function.update state.phase thread (.popRead pos (state.queue.data (pos % CAPACITY)))
      held := Function.update state.held (pos % CAPACITY) none } := by
  have known := sound.threads thread
  rw [claimed] at known
  obtain ⟨low, high, sequence, kept⟩ := known
  refine sound.work (congrArg Phase.slot claimed) rfl (congrArg Phase.popping claimed).symm
    (congrArg Phase.pending claimed).symm ⟨low, high, sequence, Function.update_self _ _ _, sound.held _ _ kept⟩ ?_
  intro slot ticket kept
  by_cases here : slot = pos % CAPACITY
  · rw [here, Function.update_self] at kept
    cases kept
  · rw [Function.update_of_ne here] at kept
    exact sound.held slot ticket kept

/-- A pop gives the slot that it has read to the push one lap later, and returns. -/
theorem release (sound : Sound state) (taken : state.phase thread = .popRead pos val) :
    Sound { state with
      phase := Function.update state.phase thread .idle
      queue := { state.queue with
        sequence := Function.update state.queue.sequence (pos % CAPACITY) (pos + CAPACITY) }
      returned := state.returned ++ [(pos, val)] } := by
  have known := sound.threads thread
  rw [taken] at known
  obtain ⟨low, high, sequence, empty, value⟩ := known
  have works : (state.phase thread).slot = some (pos % CAPACITY) := congrArg Phase.slot taken
  have popping : (state.phase thread).popping = some pos := congrArg Phase.popping taken
  have pending := pending_update state.phase thread .idle
  rw [taken] at pending
  have same : Function.update state.held (pos % CAPACITY) (state.held (pos % CAPACITY)) = state.held :=
    Function.update_eq_self _ _
  have elsewhere (other : Fin threads) (different : other ≠ thread) :
      (state.phase other).slot ≠ some (pos % CAPACITY) :=
    fun also => different (sound.exclusive other thread _ also works)
  have others (each : Fin threads) (other : each ≠ thread) := Function.update_of_ne other .idle state.phase
  have mine : (Function.update state.phase thread .idle thread).popping = none := by
    rw [Function.update_self]
    rfl
  constructor
  · exact sound.pushes
  · exact sound.pops
  · exact sound.ordered
  · exact sound.bounded
  · exact (congrArg _ pending).trans_le sound.operations
  · refine (Function.forall_update_iff state.phase fun _ => ThreadSound _ _ _).mpr ⟨trivial, ?_⟩
    intro other different
    have changed := (sound.threads other).change_slot (pos + CAPACITY) (state.held (pos % CAPACITY))
      state.queue.data (elsewhere other different)
      (by rw [sequence]; exact Nat.add_le_add_left (by decide) pos)
    rw [same] at changed
    exact changed
  · intro slot inside
    by_cases here : slot = pos % CAPACITY
    · rw [here]
      exact .free (pos + CAPACITY) (Nat.add_mod_right ..) (Function.update_self ..) high
        (Nat.add_lt_add_right low CAPACITY) empty
    · have changed := (sound.slots slot inside).change_slot (pos + CAPACITY)
        (state.held (pos % CAPACITY)) state.queue.data here
      rw [same] at changed
      refine changed.move ?_
      intro each at_
      have other : each ≠ thread := by
        intro same
        rw [same, works] at at_
        exact here (Option.some.inj at_).symm
      exact (congrArg Phase.slot (others each other)).trans at_
  · exact exclusive_update sound.exclusive fun _ _ _ works => by cases works
  · exact sound.held
  · intro exchange done
    obtain earlier | last := List.mem_append.mp done
    · exact sound.returned exchange earlier
    · rw [List.mem_singleton.mp last]
      exact value
  · show ((state.returned ++ [(pos, val)]).map Prod.fst).Nodup
    rw [List.map_append, List.map_singleton, ← List.concat_eq_append]
    exact sound.once.concat (sound.fresh thread pos popping)
  · show ∀ ticket, ticket < state.queue.head ↔ ticket ∈ (state.returned ++ [(pos, val)]).map Prod.fst ∨
      ∃ each, (Function.update state.phase thread .idle each).popping = some ticket
    intro ticket
    rw [sound.accounted ticket, List.map_append, List.map_singleton, List.mem_append, List.mem_singleton, or_assoc]
    apply or_congr_right
    constructor
    · intro ⟨each, popping_⟩
      by_cases here : each = thread
      · rw [here, popping] at popping_
        exact .inl (Option.some.inj popping_).symm
      · exact .inr ⟨each, (congrArg Phase.popping (others each here)).trans popping_⟩
    · intro also
      obtain rfl | ⟨each, popping_⟩ := also
      · exact ⟨thread, popping⟩
      · have other : each ≠ thread := by
          intro here
          rw [here, mine] at popping_
          cases popping_
        exact ⟨each, (congrArg Phase.popping (others each other)).symm.trans popping_⟩
  · show ∀ each ticket, (Function.update state.phase thread .idle each).popping = some ticket →
      ticket ∉ (state.returned ++ [(pos, val)]).map Prod.fst
    intro each ticket popping_
    have other : each ≠ thread := by
      intro here
      rw [here, mine] at popping_
      cases popping_
    rw [Function.update_of_ne other] at popping_
    rw [List.map_append, List.map_singleton, List.mem_append, List.mem_singleton]
    intro done
    obtain earlier | rfl := done
    · exact sound.fresh each ticket popping_ earlier
    · exact elsewhere each other (slot_of_popping popping_)

/-- No sequence comes near the middle of the numbers of a `size_t`. -/
theorem sequence_lt (sound : Sound state) (few : state.operations < 2 ^ 63) (ticket : Nat) :
    state.queue.sequence (ticket % CAPACITY) < 2 ^ 63 := by
  have operations := sound.operations
  have ordered := sound.ordered
  cases sound.slots _ (Nat.mod_lt ticket (by decide : 0 < CAPACITY)) with
  | busy thread works =>
      obtain ⟨_, _, ⟨_, _, _, sequence⟩ | ⟨_, _, _, sequence⟩⟩ := (sound.threads thread).at_work works <;> omega
  | free other here sequence unclaimed near empty =>
      simp only [CAPACITY] at near sequence ⊢
      omega
  | full other here sequence unclaimed pushed kept => omega

end Sound

theorem intptr_of_lt {value : Nat} (small : value < 2 ^ 63) : intptr value = value := if_pos small

theorem queuePush_operations {spurious : Bool} (stepped : queuePush state thread spurious = some after) :
    after.operations = state.operations := by
  unfold queuePush at stepped
  grind

theorem queuePop_operations {spurious : Bool} (stepped : queuePop state thread spurious = some after) :
    after.operations = state.operations := by
  unfold queuePop at stepped
  grind

theorem step_operations {action : Action T threads} (stepped : step state action = some after) :
    state.operations ≤ after.operations := by
  cases action with
  | push thread val =>
      simp only [step, call] at stepped
      split at stepped <;> cases stepped
      exact Nat.le_succ _
  | pop thread =>
      simp only [step, call] at stepped
      split at stepped <;> cases stepped
      exact Nat.le_succ _
  | step thread spurious =>
      obtain pushed | ⟨_, popped⟩ := Option.or_eq_some_iff.mp stepped
      · exact (queuePush_operations pushed).ge
      · exact (queuePop_operations popped).ge

/-- With fewer than `2 ^ 63` operations no counter wraps, and no difference changes its sign. -/
theorem queuePush_sound {spurious : Bool} (sound : Sound state) (few : state.operations < 2 ^ 63)
    (stepped : queuePush state thread spurious = some after) : Sound after := by
  have known := sound.threads thread
  have operations := sound.operations
  have pending := pending_le state.phase thread
  cases at_ : state.phase thread with
  | pushCalled val =>
      simp only [queuePush, at_, Option.some.injEq] at stepped
      subst after
      exact sound.goto (.pushLooking val state.queue.tail) (congrArg Phase.slot at_) rfl (Nat.le_refl _)
        (by rw [at_]; exact Nat.le_refl _)
  | pushLooking val pos =>
      rw [at_] at known
      simp only [queuePush, at_, Option.some.injEq] at stepped
      subst after
      exact sound.goto (.pushDeciding val pos (state.queue.sequence (pos % CAPACITY))) (congrArg Phase.slot at_) rfl
        ⟨known, Nat.le_refl _⟩ (by rw [at_]; exact Nat.le_refl _)
  | pushDeciding val pos seq =>
      rw [at_] at known pending
      obtain ⟨low, seen⟩ := known
      have small := sound.sequence_lt few pos
      have again : Sound { state with
          phase := Function.update state.phase thread (.pushLooking val state.queue.tail) } :=
        sound.goto _ (congrArg Phase.slot at_) rfl (Nat.le_refl _) (by rw [at_]; exact Nat.le_refl _)
      have one : (Phase.pushDeciding val pos seq).pending = 1 := rfl
      simp only [queuePush, at_, intptr_of_lt (show seq < 2 ^ 63 by omega), intptr_of_lt (show pos < 2 ^ 63 by omega)]
        at stepped
      split at stepped
      next ready =>
        split at stepped
        next won =>
          obtain ⟨rfl, _⟩ := won
          have same : seq = state.queue.tail := by omega
          rw [Nat.mod_eq_of_lt (by omega)] at stepped
          cases stepped
          exact sound.claimPush at_ (same ▸ seen)
        next lost =>
          cases stepped
          exact again
      next =>
        split at stepped
        next full =>
          cases stepped
          exact sound.goto .idle (congrArg Phase.slot at_) rfl trivial (Nat.add_le_add_right (Nat.zero_le _) _)
        next moved =>
          cases stepped
          exact again
  | pushClaimed val pos =>
      simp only [queuePush, at_, Option.some.injEq] at stepped
      subst after
      exact sound.write at_
  | pushWritten pos =>
      rw [at_] at known
      obtain ⟨_, high, _⟩ := known
      simp only [queuePush, at_, Option.some.injEq] at stepped
      subst after
      rw [show (pos + 1) % 2 ^ 64 = pos + 1 from Nat.mod_eq_of_lt (by omega)]
      exact sound.publish at_
  | _ => simp only [queuePush, at_, reduceCtorEq] at stepped

theorem queuePop_sound {spurious : Bool} (sound : Sound state) (few : state.operations < 2 ^ 63)
    (stepped : queuePop state thread spurious = some after) : Sound after := by
  have known := sound.threads thread
  have operations := sound.operations
  have ordered := sound.ordered
  cases at_ : state.phase thread with
  | popCalled =>
      simp only [queuePop, at_, Option.some.injEq] at stepped
      subst after
      exact sound.goto (.popLooking state.queue.head) (congrArg Phase.slot at_) rfl (Nat.le_refl _)
        (by rw [at_]; exact Nat.le_refl _)
  | popLooking pos =>
      rw [at_] at known
      simp only [queuePop, at_, Option.some.injEq] at stepped
      subst after
      exact sound.goto (.popDeciding pos (state.queue.sequence (pos % CAPACITY))) (congrArg Phase.slot at_) rfl
        ⟨known, Nat.le_refl _⟩ (by rw [at_]; exact Nat.le_refl _)
  | popDeciding pos seq =>
      rw [at_] at known
      obtain ⟨low, seen⟩ := known
      have small := sound.sequence_lt few pos
      have again : Sound { state with
          phase := Function.update state.phase thread (.popLooking state.queue.head) } :=
        sound.goto _ (congrArg Phase.slot at_) rfl (Nat.le_refl _) (by rw [at_]; exact Nat.le_refl _)
      simp only [queuePop, at_, Nat.mod_eq_of_lt (show pos + 1 < 2 ^ 64 by omega),
        intptr_of_lt (show seq < 2 ^ 63 by omega), intptr_of_lt (show pos + 1 < 2 ^ 63 by omega)] at stepped
      split at stepped
      next ready =>
        split at stepped
        next won =>
          obtain ⟨rfl, _⟩ := won
          have same : seq = state.queue.head + 1 := by omega
          cases stepped
          exact sound.claimPop at_ (same ▸ seen)
        next lost =>
          cases stepped
          exact again
      next =>
        split at stepped
        next empty =>
          cases stepped
          exact sound.goto .idle (congrArg Phase.slot at_) rfl trivial (Nat.add_le_add_right (Nat.zero_le _) _)
        next moved =>
          cases stepped
          exact again
  | popClaimed pos =>
      simp only [queuePop, at_, Option.some.injEq] at stepped
      subst after
      exact sound.read at_
  | popRead pos val =>
      rw [at_] at known
      obtain ⟨low, _⟩ := known
      simp only [queuePop, at_, Option.some.injEq] at stepped
      subst after
      rw [show (pos + CAPACITY) % 2 ^ 64 = pos + CAPACITY from
        Nat.mod_eq_of_lt (by simp only [CAPACITY]; omega)]
      exact sound.release at_
  | _ => simp only [queuePop, at_, reduceCtorEq] at stepped

theorem call_sound (sound : Sound state) (phase : Phase T) (free : phase.slot = none) (one : phase.pending = 1)
    (known : ThreadSound state.queue state.held state.pushes phase)
    (stepped : call state thread phase = some after) :
    Sound after := by
  cases at_ : state.phase thread with
  | idle =>
      simp only [call, at_, Option.some.injEq] at stepped
      subst after
      have zero : (Phase.idle (T := T)).pending = 0 := rfl
      exact sound.goto phase (congrArg Phase.slot at_) free known (by rw [at_, zero]; omega)
  | _ => simp only [call, at_, reduceCtorEq] at stepped

theorem step_sound {action : Action T threads} (sound : Sound state) (few : state.operations < 2 ^ 63)
    (stepped : step state action = some after) : Sound after := by
  cases action with
  | push thread val => exact call_sound sound (.pushCalled val) rfl rfl trivial stepped
  | pop thread => exact call_sound sound .popCalled rfl rfl trivial stepped
  | step thread spurious =>
      obtain pushed | ⟨_, popped⟩ := Option.or_eq_some_iff.mp stepped
      · exact queuePush_sound sound few pushed
      · exact queuePop_sound sound few popped

theorem run_sound {data : Nat → T} {actions : List (Action T threads)}
    (completed : run step (State.initial threads data) actions = some state)
    (few : state.operations < 2 ^ 63) : Sound state := by
  refine run_invariant (fun state => state.operations < 2 ^ 63 → Sound state) ?_ (fun _ => initial_sound data)
    completed few
  intro state action after sound stepped few
  by_cases before : state.operations < 2 ^ 63
  · exact step_sound (sound before) before stepped
  · have grows := step_operations stepped
    omega

/-- The pushes of the popped tickets, in the order in which these were claimed. -/
def popped (state : State T threads) : List (Fin threads × T) :=
  state.pops.filterMap fun pop => state.pushes[pop.2]?

/-- What holds of the queue whenever a thread may stop. -/
structure Safe (state : State T threads) : Prop where
  ordered : state.queue.head ≤ state.queue.tail
  bounded : state.queue.tail - state.queue.head ≤ CAPACITY
  pushes : state.pushes.length = state.queue.tail
  pops : state.pops.map Prod.snd = List.range state.queue.head
  /-- The ticket of a push is its place in the history. -/
  pushing : ∀ thread val pos, state.phase thread = .pushClaimed val pos → valueOf state.pushes pos = some val
  popping : ∀ thread val pos, state.phase thread = .popRead pos val → valueOf state.pushes pos = some val
  returned : ∀ exchange ∈ state.returned, valueOf state.pushes exchange.1 = some exchange.2
  once : (state.returned.map Prod.fst).Nodup
  /-- No ticket that was claimed is lost. -/
  accounted : ∀ ticket, ticket < state.queue.head ↔
    ticket ∈ state.returned.map Prod.fst ∨ ∃ thread, (state.phase thread).popping = some ticket
  inOrder : ∀ producer, ((popped state).filter fun push => push.1 = producer) <+:
    state.pushes.filter fun push => push.1 = producer
  /-- What is read was written, for the ticket of the pop. -/
  read : ∀ thread pos, state.phase thread = .popClaimed pos → state.held (pos % CAPACITY) = some pos
  /-- What is overwritten was read. -/
  overwritten : ∀ thread val pos, state.phase thread = .pushClaimed val pos → state.held (pos % CAPACITY) = none

theorem filterMap_range {α : Type*} (values : List α) (count : Nat) :
    (List.range count).filterMap (fun index => values[index]?) = values.take count := by
  induction count with
  | zero => rfl
  | succ count ih =>
      rw [List.range_succ, List.filterMap_append, ih, List.take_add_one]
      cases at_ : values[count]? with
      | none => simp [at_]
      | some value => simp [at_]

theorem Sound.safe (sound : Sound state) : Safe state := by
  constructor
  · exact sound.ordered
  · have bounded := sound.bounded
    omega
  · exact sound.pushes
  · exact sound.pops
  · intro thread val pos claimed
    have known := sound.threads thread
    rw [claimed] at known
    exact known.2.2.2.2
  · intro thread val pos taken
    have known := sound.threads thread
    rw [taken] at known
    exact known.2.2.2.2
  · exact sound.returned
  · exact sound.once
  · exact sound.accounted
  · intro producer
    have taken : popped state = state.pushes.take state.queue.head := by
      rw [← filterMap_range, ← sound.pops, List.filterMap_map]
      rfl
    rw [taken]
    exact (List.take_prefix _ _).filter _
  · intro thread pos claimed
    have known := sound.threads thread
    rw [claimed] at known
    exact known.2.2.2
  · intro thread val pos claimed
    have known := sound.threads thread
    rw [claimed] at known
    exact known.2.2.2.1

/-- The queue is safe in every run of fewer than `2 ^ 63` operations. -/
theorem queue_safe (data : Nat → T) (actions : List (Action T threads))
    (completed : run step (State.initial threads data) actions = some state)
    (few : state.operations < 2 ^ 63) : Safe state :=
  (run_sound completed few).safe

theorem queue_safe_two_threads :
    ∃ state, run step (State.initial 2 fun _ => 0)
        [.push 0 7, .pop 1, .step 0 false, .step 1 false, .step 0 false, .step 0 true, .step 0 false, .step 0 false,
          .step 0 false, .step 0 false, .step 1 false, .step 1 false, .step 1 false, .step 1 false] = some state ∧
      state.returned = [(0, 7)] ∧ Safe state :=
  ⟨_, rfl, rfl, queue_safe (fun _ => 0)
    [.push 0 7, .pop 1, .step 0 false, .step 1 false, .step 0 false, .step 0 true, .step 0 false, .step 0 false,
      .step 0 false, .step 0 false, .step 1 false, .step 1 false, .step 1 false, .step 1 false] rfl (by decide)⟩

end HundredDays.MpmcQueue
