import HundredDays.SpinLock.Exclusion
import HundredDays.Data.Census
import HundredDays.Semantics.Run
import Mathlib.Algebra.Ring.Nat

namespace HundredDays.SpinLock

open HundredDays.Data HundredDays.Semantics

/-! No update of the order book is lost: every store adds what the thread asks to what the book
holds, and both prices are those of one update whenever the lock is free.
-/

variable {ι : Type*} [DecidableEq ι] [Fintype ι] {args : ι → ThreadArgs} {state after : State ι} {thread other : ι}
  {position next : Position} {book : OrderBooks} {weight : ι → Position → Nat}

/-- The sum over all threads of a number for each position. -/
def tally (weight : ι → Position → Nat) (positions : ι → Position) : Nat := ∑ thread, weight thread (positions thread)

theorem tally_update (weight : ι → Position → Nat) (positions : ι → Position) (thread : ι) (next : Position) :
    tally weight (Function.update positions thread next) + weight thread (positions thread) =
      tally weight positions + weight thread next := by
  have moved : (fun each => (each, Function.update positions thread next each)) =
      Function.update (fun each => (each, positions each)) thread (thread, next) := by
    funext each
    by_cases same : each = thread
    · rw [same, Function.update_self, Function.update_self]
    · rw [Function.update_of_ne same, Function.update_of_ne same]
  have counted := census_update (fun pair : ι × Position => weight pair.1 pair.2) (fun each => (each, positions each))
    thread (thread, next)
  rw [← moved] at counted
  exact counted

/-- What all the stores of volumes so far have added. -/
def volumeAdded (args : ι → ThreadArgs) : (ι → Position) → Nat :=
  tally fun thread position => position.volumes (args thread).iterations * (args thread).askVolume.toNat

def quantityAdded (args : ι → ThreadArgs) : (ι → Position) → Nat :=
  tally fun thread position => position.quantities (args thread).iterations * (args thread).askQuantity.toNat

/-- The price that an update stored, or the first one. -/
def storedBy (price : ι → UInt32) (first : UInt32) : Option (ι × Nat) → UInt32
  | none => first
  | some (thread, _) => price thread

structure Kept (args : ι → ThreadArgs) (book : OrderBooks) (state : State ι) : Prop where
  exclusive : state.Exclusive
  holds : ∀ thread, (state.positions thread).Holds args state thread
  paired : state.flag = false → state.bidBy = state.priceBy
  bidPrice : state.book.bidPrice = storedBy (fun thread => (args thread).askBid) book.bidPrice state.bidBy
  price : state.book.price = storedBy (fun thread => (args thread).askPrice) book.price state.priceBy
  volume : state.book.volume.toNat = (book.volume.toNat + volumeAdded args state.positions) % 2 ^ 32
  quantity : state.book.quantity.toNat = (book.quantity.toNat + quantityAdded args state.positions) % 2 ^ 64

omit [DecidableEq ι] in
theorem initial_kept : Kept args book (State.initial args book) := by
  have outside : ∀ thread, ¬ ((State.initial args book).positions thread).Inside := fun _ => loop_outside
  have noVolume : volumeAdded args (State.initial args book).positions = 0 := by
    apply Finset.sum_eq_zero
    intro thread _
    change (loop (args thread).iterations 0).volumes _ * _ = 0
    rw [loop_volumes (Nat.zero_le _), Nat.zero_mul]
  have noQuantity : quantityAdded args (State.initial args book).positions = 0 := by
    apply Finset.sum_eq_zero
    intro thread _
    change (loop (args thread).iterations 0).quantities _ * _ = 0
    rw [loop_quantities (Nat.zero_le _), Nat.zero_mul]
  constructor
  · constructor
    · intro thread inside
      exact absurd inside (outside thread)
    · intro thread other inside _
      exact absurd inside (outside thread)
  · intro thread
    exact loop_holds
  · intro _
    rfl
  · rfl
  · rfl
  · rw [noVolume]
    exact (Nat.mod_eq_of_lt book.volume.toNat_lt).symm
  · rw [noQuantity]
    exact (Nat.mod_eq_of_lt book.quantity.toNat_lt).symm

/-- What a step of one thread does to a sum, when it adds `gain` times `ask`. -/
theorem tally_gain {ask : ι → Nat} {stored : ι → Position → Nat} {gain before total bound start : Nat}
    (counted : stored thread next = stored thread (state.positions thread) + gain)
    (held : before = (start + tally (fun each position => stored each position * ask each) state.positions) % bound)
    (added : total = (before + gain * ask thread) % bound) :
    total = (start + tally (fun each position => stored each position * ask each)
      (Function.update state.positions thread next)) % bound := by
  have moved := tally_update (fun each position => stored each position * ask each) state.positions thread next
  simp only [counted, Nat.add_mul] at moved
  have sum : tally (fun each position => stored each position * ask each) (Function.update state.positions thread next) =
      tally (fun each position => stored each position * ask each) state.positions + gain * ask thread := by omega
  rw [sum, added, held, Nat.mod_add_mod, Nat.add_assoc]

theorem Kept.move (kept : Kept args book state) (alone : ∀ other, other ≠ thread → ¬ (state.positions other).Inside)
    (positions : after.positions = Function.update state.positions thread next)
    (flagged : next.Inside → after.flag = true) (holds : next.Holds args after thread)
    (paired : after.flag = false → after.bidBy = after.priceBy)
    (bidPrice : after.book.bidPrice = storedBy (fun thread => (args thread).askBid) book.bidPrice after.bidBy)
    (price : after.book.price = storedBy (fun thread => (args thread).askPrice) book.price after.priceBy)
    (volume : ∃ gain, next.volumes (args thread).iterations = (state.positions thread).volumes (args thread).iterations + gain ∧
      after.book.volume.toNat = (state.book.volume.toNat + gain * (args thread).askVolume.toNat) % 2 ^ 32)
    (quantity : ∃ gain, next.quantities (args thread).iterations =
        (state.positions thread).quantities (args thread).iterations + gain ∧
      after.book.quantity.toNat = (state.book.quantity.toNat + gain * (args thread).askQuantity.toNat) % 2 ^ 64) :
    Kept args book after := by
  obtain ⟨volumeGain, volumeStores, volumeHeld⟩ := volume
  obtain ⟨quantityGain, quantityStores, quantityHeld⟩ := quantity
  constructor
  · exact State.exclusive_move alone positions flagged
  · intro other
    rw [positions]
    by_cases same : other = thread
    · rw [same, Function.update_self]
      exact holds
    · rw [Function.update_of_ne same]
      exact (kept.holds other).elsewhere (alone other same)
  · exact paired
  · exact bidPrice
  · exact price
  · rw [positions]
    exact tally_gain volumeStores kept.volume volumeHeld
  · rw [positions]
    exact tally_gain quantityStores kept.quantity quantityHeld

theorem volume_same (volume : UInt32) (ask : Nat) : volume.toNat = (volume.toNat + 0 * ask) % 2 ^ 32 := by
  rw [Nat.zero_mul, Nat.add_zero, Nat.mod_eq_of_lt volume.toNat_lt]

theorem quantity_same (quantity : UInt64) (ask : Nat) : quantity.toNat = (quantity.toNat + 0 * ask) % 2 ^ 64 := by
  rw [Nat.zero_mul, Nat.add_zero, Nat.mod_eq_of_lt quantity.toNat_lt]

/-- A step of the thread that is inside, and stays there. -/
theorem Kept.move_inside (kept : Kept args book state) (inside : (state.positions thread).Inside)
    (flag : after.flag = state.flag) (positions : after.positions = Function.update state.positions thread next)
    (holds : next.Holds args after thread)
    (bidPrice : after.book.bidPrice = storedBy (fun thread => (args thread).askBid) book.bidPrice after.bidBy)
    (price : after.book.price = storedBy (fun thread => (args thread).askPrice) book.price after.priceBy)
    (volume : ∃ gain, next.volumes (args thread).iterations = (state.positions thread).volumes (args thread).iterations + gain ∧
      after.book.volume.toNat = (state.book.volume.toNat + gain * (args thread).askVolume.toNat) % 2 ^ 32)
    (quantity : ∃ gain, next.quantities (args thread).iterations =
        (state.positions thread).quantities (args thread).iterations + gain ∧
      after.book.quantity.toNat = (state.book.quantity.toNat + gain * (args thread).askQuantity.toNat) % 2 ^ 64) :
    Kept args book after := by
  have held : after.flag = true := flag.trans (kept.exclusive.held thread inside)
  exact kept.move (kept.exclusive.others_outside inside) positions (fun _ => held) holds
    (fun free => absurd held (ne_true_of_eq_false free)) bidPrice price volume quantity

theorem Kept.step (kept : Kept args book state) (stepped : step args state thread = some after) : Kept args book after := by
  have holds := kept.holds thread
  cases here : state.positions thread with
  | acquire i =>
      rw [here] at holds
      simp only [SpinLock.step, here] at stepped
      split at stepped
      next spins =>
        cases stepped
        exact kept
      next free =>
        rw [Bool.not_eq_true] at free
        cases stepped
        have outside : ∀ other, other ≠ thread → ¬ (state.positions other).Inside := by
          intro other _ insideOther
          exact ne_true_of_eq_false free (kept.exclusive.held other insideOther)
        exact kept.move outside rfl (fun _ => rfl) ⟨holds, kept.paired free⟩ (fun opened => by cases opened) kept.bidPrice
          kept.price ⟨0, by rw [here]; rfl, volume_same _ _⟩ ⟨0, by rw [here]; rfl, quantity_same _ _⟩
  | storeBid i =>
      rw [here] at holds
      simp only [SpinLock.step, here, Option.some.injEq] at stepped
      subst after
      exact kept.move_inside (by rw [here]; trivial) rfl rfl ⟨holds.1, rfl⟩ rfl kept.price
        ⟨0, by rw [here]; rfl, volume_same _ _⟩ ⟨0, by rw [here]; rfl, quantity_same _ _⟩
  | storePrice i =>
      rw [here] at holds
      simp only [SpinLock.step, here, Option.some.injEq] at stepped
      subst after
      exact kept.move_inside (by rw [here]; trivial) rfl rfl holds kept.bidPrice rfl
        ⟨0, by rw [here]; rfl, volume_same _ _⟩ ⟨0, by rw [here]; rfl, quantity_same _ _⟩
  | loadVolume i =>
      rw [here] at holds
      simp only [SpinLock.step, here, Option.some.injEq] at stepped
      subst after
      exact kept.move_inside (by rw [here]; trivial) rfl rfl ⟨holds.1, holds.2, rfl⟩ kept.bidPrice kept.price
        ⟨0, by rw [here]; rfl, volume_same _ _⟩ ⟨0, by rw [here]; rfl, quantity_same _ _⟩
  | storeVolume i volume =>
      rw [here] at holds
      obtain ⟨more, pair, loaded⟩ := holds
      simp only [SpinLock.step, here, Option.some.injEq] at stepped
      subst after
      have added : (volume + (args thread).askVolume).toNat =
          (state.book.volume.toNat + 1 * (args thread).askVolume.toNat) % 2 ^ 32 := by
        rw [loaded, Nat.one_mul, UInt32.toNat_add]
      exact kept.move_inside (by rw [here]; trivial) rfl rfl ⟨more, pair⟩ kept.bidPrice kept.price
        ⟨1, by rw [here]; rfl, added⟩ ⟨0, by rw [here]; rfl, quantity_same _ _⟩
  | loadQuantity i =>
      rw [here] at holds
      simp only [SpinLock.step, here, Option.some.injEq] at stepped
      subst after
      exact kept.move_inside (by rw [here]; trivial) rfl rfl ⟨holds.1, holds.2, rfl⟩ kept.bidPrice kept.price
        ⟨0, by rw [here]; rfl, volume_same _ _⟩ ⟨0, by rw [here]; rfl, quantity_same _ _⟩
  | storeQuantity i quantity =>
      rw [here] at holds
      obtain ⟨more, pair, loaded⟩ := holds
      simp only [SpinLock.step, here, Option.some.injEq] at stepped
      subst after
      have added : (quantity + (args thread).askQuantity).toNat =
          (state.book.quantity.toNat + 1 * (args thread).askQuantity.toNat) % 2 ^ 64 := by
        rw [loaded, Nat.one_mul, UInt64.toNat_add]
      exact kept.move_inside (by rw [here]; trivial) rfl rfl ⟨more, pair⟩ kept.bidPrice kept.price
        ⟨0, by rw [here]; rfl, volume_same _ _⟩ ⟨1, by rw [here]; rfl, added⟩
  | release i =>
      rw [here] at holds
      simp only [SpinLock.step, here, Option.some.injEq] at stepped
      subst after
      have bound : i + 1 ≤ (args thread).iterations := holds.1
      have inside : (state.positions thread).Inside := by
        rw [here]
        trivial
      have outside := kept.exclusive.others_outside inside
      exact kept.move outside rfl (fun inside => absurd inside loop_outside) loop_holds (fun _ => holds.2) kept.bidPrice
        kept.price ⟨0, by rw [here, loop_volumes bound]; rfl, volume_same _ _⟩
        ⟨0, by rw [here, loop_quantities bound]; rfl, quantity_same _ _⟩
  | returned =>
      simp only [SpinLock.step, here] at stepped
      cases stepped

omit [DecidableEq ι] in
theorem Kept.totals (kept : Kept args book state) (returned : ∀ thread, state.positions thread = .returned) :
    state.book.volume.toNat =
        (book.volume.toNat + ∑ thread, (args thread).iterations * (args thread).askVolume.toNat) % 2 ^ 32 ∧
      state.book.quantity.toNat =
        (book.quantity.toNat + ∑ thread, (args thread).iterations * (args thread).askQuantity.toNat) % 2 ^ 64 := by
  have volume := kept.volume
  have quantity := kept.quantity
  simp only [volumeAdded, quantityAdded, tally, returned, Position.volumes, Position.quantities] at volume quantity
  exact ⟨volume, quantity⟩

/-- In every run at most one thread is between `acquire` and `release`; while it is there the steps of
the others change nothing, and what it loaded of a sum is what its store finds; whenever the lock is
free both prices are those of one update; and when all threads have returned the sums are complete. -/
theorem updateOrder_loses_nothing (args : ι → ThreadArgs) (book : OrderBooks) (schedule : List ι) (after : State ι)
    (completed : run (step args) (State.initial args book) schedule = some after) :
    (∀ thread other, (after.positions thread).Inside → (after.positions other).Inside → thread = other) ∧
      (∀ thread other next, (after.positions thread).Inside → other ≠ thread → step args after other = some next →
        next = after) ∧
      (∀ thread i volume, after.positions thread = .storeVolume i volume → after.book.volume = volume) ∧
      (∀ thread i quantity, after.positions thread = .storeQuantity i quantity → after.book.quantity = quantity) ∧
      (after.flag = false → after.bidBy = after.priceBy ∧
        after.book.bidPrice = storedBy (fun thread => (args thread).askBid) book.bidPrice after.bidBy ∧
        after.book.price = storedBy (fun thread => (args thread).askPrice) book.price after.priceBy) ∧
      ((∀ thread, after.positions thread = .returned) →
        after.book.volume.toNat =
            (book.volume.toNat + ∑ thread, (args thread).iterations * (args thread).askVolume.toNat) % 2 ^ 32 ∧
          after.book.quantity.toNat =
            (book.quantity.toNat + ∑ thread, (args thread).iterations * (args thread).askQuantity.toNat) % 2 ^ 64) := by
  have kept : Kept args book after :=
    run_invariant (Kept args book) (fun _ _ _ kept stepped => kept.step stepped) initial_kept completed
  refine ⟨kept.exclusive.one, ?_, ?_, ?_, ?_, kept.totals⟩
  · intro thread other next inside apart stepped
    exact kept.exclusive.uninterrupted inside apart stepped
  · intro thread i volume here
    have holds := kept.holds thread
    rw [here] at holds
    exact holds.2.2
  · intro thread i quantity here
    have holds := kept.holds thread
    rw [here] at holds
    exact holds.2.2
  · intro free
    exact ⟨kept.paired free, kept.bidPrice, kept.price⟩

/-- Two threads update once each, and the second spins while the first is inside. -/
theorem updateOrder_loses_nothing_twice :
    ∃ after, run (step fun _ : Bool => updateBook 1) (State.initial (fun _ => updateBook 1) ⟨0, 0, 0, 0⟩)
      ([true, false, false] ++ List.replicate 7 true ++ List.replicate 8 false) = some after ∧
      after.book = ⟨100, 105, 2, 10⟩ ∧ after.bidBy = after.priceBy :=
  ⟨_, rfl, rfl, ((updateOrder_loses_nothing (fun _ : Bool => updateBook 1) ⟨0, 0, 0, 0⟩
    ([true, false, false] ++ List.replicate 7 true ++ List.replicate 8 false) _ rfl).2.2.2.2.1 rfl).1⟩

end HundredDays.SpinLock
