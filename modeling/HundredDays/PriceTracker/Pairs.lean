import HundredDays.PriceTracker.Model
import HundredDays.Semantics.Run
import Mathlib.Algebra.Order.Ring.Nat
import Mathlib.Data.Nat.ModEq

namespace HundredDays.PriceTracker

open HundredDays.Semantics

/-! The writer does not wait for the reader: between two loads of the reader it may store
any number of prices and volumes. -/

variable {numUpdates : Nat} {state after : State}

/-- One iteration of the writer stores this pair. -/
def Published (numUpdates : Nat) (price volume : Int) : Prop :=
  ∃ i < numUpdates, price = newPrice i ∧ volume = newVolume i

theorem newVolume_inj {i j : Nat} : newVolume i = newVolume j ↔ i % 1000 = j % 1000 := by
  simp only [newVolume]
  omega

theorem newPrice_inj {i j : Nat} : newPrice i = newPrice j ↔ i % 500 = j % 500 := by
  simp only [newPrice]
  omega

/-- A price and a volume belong together when the iterations that stored them are
congruent: the prices repeat after 500 iterations, and the volumes not before 1000. -/
theorem published_iff {i j : Nat} (inside : j < numUpdates) :
    Published numUpdates (newPrice i) (newVolume j) ↔ i % 500 = j % 500 := by
  constructor
  · rintro ⟨k, _, price, volume⟩
    have prices := newPrice_inj.mp price
    have volumes := newVolume_inj.mp volume
    omega
  · intro congruent
    exact ⟨j, inside, newPrice_inj.mpr congruent, rfl⟩

/-- The iteration at which the writer is. -/
def Writer.At (numUpdates : Nat) : Writer → Prop
  | .price i | .volume i | .seq i => i < numUpdates
  | .stopFlag | .done => True

/-- How many numbers the writer has stored in `seq`. -/
def Writer.seqStores (numUpdates : Nat) : Writer → Nat
  | .price i | .volume i | .seq i => i
  | .stopFlag | .done => numUpdates

/-- The ticker holds what was stored last. -/
structure Current (numUpdates : Nat) (state : State) : Prop where
  writer : state.writer.At numUpdates
  price : ∀ i, state.writer.priceStores numUpdates = i + 1 → state.ticker.price = newPrice i
  volume : ∀ i, state.writer.volumeStores numUpdates = i + 1 → state.ticker.volume = newVolume i
  seq : state.ticker.seq = state.writer.seqStores numUpdates

theorem loop_at (i : Nat) : (loop numUpdates i).At numUpdates := by
  unfold loop
  split_ifs with more
  · exact more
  · trivial

theorem loop_stores {i : Nat} (bound : i ≤ numUpdates) :
    (loop numUpdates i).priceStores numUpdates = i ∧ (loop numUpdates i).volumeStores numUpdates = i ∧
      (loop numUpdates i).seqStores numUpdates = i := by
  unfold loop
  split_ifs with more
  · exact ⟨rfl, rfl, rfl⟩
  · obtain rfl : i = numUpdates := by omega
    exact ⟨rfl, rfl, rfl⟩

theorem initial_current : Current numUpdates (State.initial numUpdates) := by
  obtain ⟨prices, volumes, seqs⟩ := loop_stores (Nat.zero_le numUpdates)
  refine ⟨loop_at 0, ?_, ?_, ?_⟩
  · intro i stored
    exact absurd (prices.symm.trans stored) (by omega)
  · intro i stored
    exact absurd (volumes.symm.trans stored) (by omega)
  · change (0 : Int) = ((loop numUpdates 0).seqStores numUpdates : Nat)
    rw [seqs]
    rfl

theorem Current.writerThread (current : Current numUpdates state)
    (stepped : writerThread numUpdates state = some after) : Current numUpdates after := by
  obtain ⟨writer, price, volume, seq⟩ := current
  rw [PriceTracker.writerThread] at stepped
  cases next : state.writer with
  | price i =>
      simp only [next, Option.some.injEq] at stepped writer volume seq
      subst stepped
      refine ⟨writer, ?_, volume, seq⟩
      rintro j ⟨⟩
      rfl
  | volume i =>
      simp only [next, Option.some.injEq] at stepped writer price seq
      subst stepped
      refine ⟨writer, price, ?_, seq⟩
      rintro j ⟨⟩
      rfl
  | seq i =>
      simp only [next, Option.some.injEq] at stepped writer price volume
      subst stepped
      obtain ⟨prices, volumes, seqs⟩ := loop_stores (Nat.succ_le_of_lt writer)
      refine ⟨loop_at _, ?_, ?_, ?_⟩
      · intro j stored
        exact price j (prices.symm.trans stored)
      · intro j stored
        exact volume j (volumes.symm.trans stored)
      · change (i : Int) + 1 = ((loop numUpdates (i + 1)).seqStores numUpdates : Nat)
        rw [seqs]
        rfl
  | stopFlag =>
      simp only [next, Option.some.injEq] at stepped price volume seq
      subst stepped
      exact ⟨trivial, price, volume, seq⟩
  | done =>
      rw [next] at stepped
      cases stepped

theorem Writer.stores_le {writer : Writer} (at' : writer.At numUpdates) :
    writer.seqStores numUpdates ≤ writer.volumeStores numUpdates ∧
      writer.volumeStores numUpdates ≤ writer.priceStores numUpdates ∧
      writer.volumeStores numUpdates ≤ numUpdates := by
  cases writer <;> simp only [Writer.At] at at' <;>
    simp only [Writer.seqStores, Writer.volumeStores, Writer.priceStores] <;> omega

theorem Writer.seqStores_mono (state : State) (after : State) (current : Current numUpdates state)
    (stepped : writerThread numUpdates state = some after) :
    state.writer.seqStores numUpdates ≤ after.writer.seqStores numUpdates := by
  have at' := current.writer
  rw [writerThread] at stepped
  cases next : state.writer with
  | price i => simp only [next, Option.some.injEq] at stepped; subst stepped; exact Nat.le_refl _
  | volume i => simp only [next, Option.some.injEq] at stepped; subst stepped; exact Nat.le_refl _
  | seq i =>
      simp only [next, Option.some.injEq] at stepped at'
      subst stepped
      exact Nat.le_trans (Nat.le_succ i) (Nat.le_of_eq (loop_stores (Nat.succ_le_of_lt at')).2.2.symm)
  | stopFlag => simp only [next, Option.some.injEq] at stepped; subst stepped; exact Nat.le_refl _
  | done => simp only [next] at stepped; cases stepped

/-- What the reader holds was in the ticker when it loaded it. -/
def Reader.Holds (lastSeq published : Int) : Reader → Prop
  | .price seen => lastSeq ≤ seen ∧ 0 < seen ∧ seen ≤ published
  | .volume seen loaded priceStores =>
      lastSeq ≤ seen ∧ 0 < seen ∧ seen ≤ published ∧ ∃ i, priceStores = i + 1 ∧ loaded = newPrice i
  | _ => True

/-- The price and the volume of an observation, by the iterations that stored them. -/
def Observation.Stored (numUpdates : Nat) (observation : Observation) : Prop :=
  ∃ i j, observation.priceStores = i + 1 ∧ observation.volumeStores = j + 1 ∧ j < numUpdates ∧
    observation.price = newPrice i ∧ observation.volume = newVolume j

structure Kept (numUpdates : Nat) (state : State) : Prop where
  current : Current numUpdates state
  last : 0 ≤ state.lastSeq ∧ state.lastSeq ≤ state.ticker.seq
  reader : state.reader.Holds state.lastSeq state.ticker.seq
  observations : ∀ observation ∈ state.observations, observation.Stored numUpdates

theorem initial_kept : Kept numUpdates (State.initial numUpdates) :=
  ⟨initial_current, ⟨Int.le_refl 0, Int.le_refl 0⟩, trivial, fun _ member => by cases member⟩

theorem Reader.Holds.mono {reader : Reader} {lastSeq published later : Int} (holds : reader.Holds lastSeq published)
    (grown : published ≤ later) : reader.Holds lastSeq later := by
  cases reader with
  | price seen => exact ⟨holds.1, holds.2.1, Int.le_trans holds.2.2 grown⟩
  | volume seen loaded stores => exact ⟨holds.1, holds.2.1, Int.le_trans holds.2.2.1 grown, holds.2.2.2⟩
  | stopFlag => trivial
  | seq => trivial
  | done => trivial

theorem Kept.writerThread (kept : Kept numUpdates state) (stepped : writerThread numUpdates state = some after) :
    Kept numUpdates after := by
  have current := kept.current.writerThread stepped
  have grown : state.ticker.seq ≤ after.ticker.seq := by
    rw [kept.current.seq, current.seq]
    exact Int.ofNat_le.mpr (Writer.seqStores_mono state after kept.current stepped)
  have same : after.reader = state.reader ∧ after.lastSeq = state.lastSeq ∧ after.observations = state.observations := by
    rw [PriceTracker.writerThread] at stepped
    split at stepped
    all_goals cases stepped
    all_goals exact ⟨rfl, rfl, rfl⟩
  obtain ⟨reader, last, observations⟩ := same
  refine ⟨current, ?_, ?_, ?_⟩
  · rw [last]
    exact ⟨kept.last.1, Int.le_trans kept.last.2 grown⟩
  · rw [reader, last]
    exact kept.reader.mono grown
  · rw [observations]
    exact kept.observations

theorem Kept.readerThread (kept : Kept numUpdates state) (stepped : readerThread numUpdates state = some after) :
    Kept numUpdates after := by
  obtain ⟨current, last, reader, observations⟩ := kept
  obtain ⟨seqs, volumes, bound⟩ := Writer.stores_le current.writer
  have published := current.seq
  rw [PriceTracker.readerThread] at stepped
  cases next : state.reader with
  | stopFlag =>
      simp only [next, Option.some.injEq] at stepped
      subst stepped
      refine ⟨⟨current.writer, current.price, current.volume, current.seq⟩, last, ?_, observations⟩
      cases state.stopFlag <;> trivial
  | seq =>
      simp only [next, Option.some.injEq] at stepped
      subst stepped
      refine ⟨⟨current.writer, current.price, current.volume, current.seq⟩, last, ?_, observations⟩
      change Reader.Holds state.lastSeq state.ticker.seq (if state.ticker.seq ≠ state.lastSeq then _ else _)
      split_ifs with fresh
      · exact ⟨last.2, by omega, Int.le_refl _⟩
      · trivial
  | price seq =>
      simp only [next, Option.some.injEq] at stepped reader
      subst stepped
      obtain ⟨later, positive, below⟩ := reader
      obtain ⟨i, stores⟩ : ∃ i, state.writer.priceStores numUpdates = i + 1 :=
        Nat.exists_eq_succ_of_ne_zero (by omega)
      exact ⟨⟨current.writer, current.price, current.volume, current.seq⟩, last,
        ⟨later, positive, below, i, stores, current.price i stores⟩, observations⟩
  | volume seq price priceStores =>
      simp only [next, Option.some.injEq] at stepped reader
      subst stepped
      obtain ⟨later, positive, below, i, stores, rfl⟩ := reader
      obtain ⟨j, stored⟩ : ∃ j, state.writer.volumeStores numUpdates = j + 1 :=
        Nat.exists_eq_succ_of_ne_zero (by omega)
      refine ⟨⟨current.writer, current.price, current.volume, current.seq⟩, ⟨Int.le_of_lt positive, below⟩, trivial, ?_⟩
      intro observation member
      rcases List.mem_append.mp member with earlier | new
      · exact observations observation earlier
      · obtain rfl := List.mem_singleton.mp new
        exact ⟨i, j, stores, stored, by omega, rfl, current.volume j stored⟩
  | done =>
      rw [next] at stepped
      cases stepped

theorem Kept.step (state : State) (thread : Thread) (after : State) (kept : Kept numUpdates state)
    (stepped : step numUpdates state thread = some after) : Kept numUpdates after := by
  cases thread with
  | writer => exact kept.writerThread stepped
  | reader => exact kept.readerThread stepped

/-- A pair that was loaded belongs to one iteration exactly when as many prices had been
stored before the one load as volumes before the other, up to multiples of 500. -/
theorem observed_published_iff (numUpdates : Nat) (schedule : List Thread) (after : State)
    (completed : run (step numUpdates) (State.initial numUpdates) schedule = some after) :
    ∀ observation ∈ after.observations, Published numUpdates observation.price observation.volume ↔
      observation.priceStores ≡ observation.volumeStores [MOD 500] := by
  intro observation member
  have kept := run_invariant (Kept numUpdates) Kept.step initial_kept completed
  obtain ⟨i, j, prices, volumes, inside, price, volume⟩ := kept.observations observation member
  rw [price, volume, prices, volumes, published_iff inside, Nat.ModEq]
  omega

/-- The reader between two iterations. -/
theorem observed_published_iff_once :
    ∃ after, run (step 2) (State.initial 2)
      [.writer, .writer, .writer, .reader, .reader, .reader, .reader] = some after ∧
      ∀ observation ∈ after.observations, Published 2 observation.price observation.volume ↔
        observation.priceStores ≡ observation.volumeStores [MOD 500] :=
  ⟨_, rfl, observed_published_iff 2 [.writer, .writer, .writer, .reader, .reader, .reader, .reader] _ rfl⟩

/-- The price of the second iteration with the volume of the first. -/
theorem observed_torn :
    ∃ after, run (step 2) (State.initial 2)
      [.writer, .writer, .writer, .reader, .reader, .writer, .reader, .reader] = some after ∧
      ∃ observation ∈ after.observations, ¬ Published 2 observation.price observation.volume := by
  have torn : ¬ Published 2 10001 0 := by
    rintro ⟨i, inside, price, volume⟩
    have prices : newPrice i = newPrice 1 := price.symm
    have volumes : newVolume i = newVolume 0 := volume.symm
    rw [newPrice_inj] at prices
    rw [newVolume_inj] at volumes
    omega
  exact ⟨_, rfl, _, List.mem_singleton.mpr rfl, torn⟩

end HundredDays.PriceTracker
