import HundredDays.SpinLock.Model
import Mathlib.Tactic.SplitIfs

namespace HundredDays.SpinLock

/-! One thread at a time is between `acquire` and `release`.

While it is there no step of another thread changes anything, so what it loaded is still in the
book when it stores the sum.
-/

variable {ι : Type*} {args : ι → ThreadArgs} {state after : State ι} {thread other : ι}
  {position next : Position} {book : OrderBooks} {iterations i : Nat}

namespace Position

/-- Between `acquire` and `release`. -/
def Inside : Position → Prop
  | .acquire _ | .returned => False
  | _ => True

/-- How often a thread has stored a volume. -/
def volumes (iterations : Nat) : Position → Nat
  | .acquire i | .storeBid i | .storePrice i | .loadVolume i | .storeVolume i _ => i
  | .loadQuantity i | .storeQuantity i _ | .release i => i + 1
  | .returned => iterations

/-- How often a thread has stored a quantity. -/
def quantities (iterations : Nat) : Position → Nat
  | .acquire i | .storeBid i | .storePrice i | .loadVolume i | .storeVolume i _ | .loadQuantity i | .storeQuantity i _ => i
  | .release i => i + 1
  | .returned => iterations

/-- What a thread may rely on: it holds the values that are in the book, and no other update has
touched one price alone. -/
def Holds (args : ι → ThreadArgs) (state : State ι) (thread : ι) : Position → Prop
  | .acquire i => i < (args thread).iterations
  | .storeBid i | .loadVolume i | .loadQuantity i | .release i =>
      i < (args thread).iterations ∧ state.bidBy = state.priceBy
  | .storePrice i => i < (args thread).iterations ∧ state.bidBy = some (thread, i)
  | .storeVolume i volume =>
      i < (args thread).iterations ∧ state.bidBy = state.priceBy ∧ state.book.volume = volume
  | .storeQuantity i quantity =>
      i < (args thread).iterations ∧ state.bidBy = state.priceBy ∧ state.book.quantity = quantity
  | .returned => True

theorem Holds.elsewhere (outside : ¬ position.Inside) (holds : position.Holds args state thread) :
    position.Holds args after thread := by
  cases position with
  | acquire i => exact holds
  | returned => trivial
  | _ => exact absurd trivial outside

end Position

theorem loop_outside : ¬ (loop iterations i).Inside := by
  rw [loop]
  split_ifs <;> exact id

theorem loop_holds : (loop (args thread).iterations i).Holds args state thread := by
  rw [loop]
  split_ifs with more
  · exact more
  · trivial

theorem loop_volumes (bound : i ≤ iterations) : (loop iterations i).volumes iterations = i := by
  rw [loop]
  split_ifs with more
  · rfl
  · exact Nat.le_antisymm (Nat.le_of_not_lt more) bound

theorem loop_quantities (bound : i ≤ iterations) : (loop iterations i).quantities iterations = i := by
  rw [loop]
  split_ifs with more
  · rfl
  · exact Nat.le_antisymm (Nat.le_of_not_lt more) bound

namespace State

variable [DecidableEq ι]

/-- Mutual exclusion. -/
structure Exclusive (state : State ι) : Prop where
  held : ∀ thread, (state.positions thread).Inside → state.flag = true
  one : ∀ thread other, (state.positions thread).Inside → (state.positions other).Inside → thread = other

/-- A step of one thread that is inside alone, or takes the lock. -/
theorem exclusive_move (alone : ∀ other, other ≠ thread → ¬ (state.positions other).Inside)
    (positions : after.positions = Function.update state.positions thread next)
    (flagged : next.Inside → after.flag = true) : after.Exclusive := by
  have onlyHere : ∀ other, (after.positions other).Inside → other = thread := by
    intro other inside
    by_contra apart
    rw [positions, Function.update_of_ne apart] at inside
    exact alone other apart inside
  constructor
  · intro other inside
    rw [onlyHere other inside, positions, Function.update_self] at inside
    exact flagged inside
  · intro first second insideFirst insideSecond
    rw [onlyHere first insideFirst, onlyHere second insideSecond]

omit [DecidableEq ι] in
theorem Exclusive.others_outside (exclusive : state.Exclusive) (inside : (state.positions thread).Inside) :
    ∀ other, other ≠ thread → ¬ (state.positions other).Inside := by
  intro other apart insideOther
  exact apart (exclusive.one other thread insideOther inside)

/-- A step changes nothing, or no other thread is inside. -/
theorem Exclusive.alone (exclusive : state.Exclusive) (stepped : step args state thread = some after) :
    after = state ∨ ∀ other, other ≠ thread → ¬ (state.positions other).Inside := by
  by_cases inside : (state.positions thread).Inside
  · exact Or.inr (exclusive.others_outside inside)
  · cases here : state.positions thread with
    | acquire i =>
        simp only [step, here] at stepped
        split at stepped
        next spins =>
          cases stepped
          exact Or.inl rfl
        next free =>
          right
          intro other _ insideOther
          exact free (exclusive.held other insideOther)
    | returned =>
        simp only [step, here] at stepped
        cases stepped
    | _ =>
        rw [here] at inside
        exact absurd trivial inside

/-- While a thread is inside, the steps of the others change nothing. -/
theorem Exclusive.uninterrupted (exclusive : state.Exclusive) (inside : (state.positions thread).Inside)
    (apart : other ≠ thread) (stepped : step args state other = some after) : after = state := by
  cases exclusive.alone stepped with
  | inl same => exact same
  | inr alone => exact absurd inside (alone thread apart.symm)

end State

end HundredDays.SpinLock
