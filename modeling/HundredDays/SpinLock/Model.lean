import Mathlib.Logic.Function.Basic

namespace HundredDays.SpinLock

/-! The order book behind the hand-written spinlock, in C and in C++.

Every thread repeats `updateOrder`: each attempt to take the lock, and each load and each store
of a field, is one step, and the threads take turns in any way.
-/

structure OrderBooks where
  bidPrice : UInt32
  price : UInt32
  volume : UInt32
  quantity : UInt64
deriving DecidableEq, Repr

/-- What a thread asks, and how often. -/
structure ThreadArgs where
  askBid : UInt32
  askPrice : UInt32
  askVolume : UInt32
  askQuantity : UInt64
  iterations : Nat
deriving DecidableEq, Repr

/-- What `update_book` of C++ asks. -/
def updateBook (iterations : Nat) : ThreadArgs :=
  { askBid := 100, askPrice := 105, askVolume := 1, askQuantity := 5, iterations }

/-- What a thread does next, and in which iteration.  The value it loaded waits for the store. -/
inductive Position where
  | acquire (i : Nat)
  | storeBid (i : Nat)
  | storePrice (i : Nat)
  | loadVolume (i : Nat)
  | storeVolume (i : Nat) (volume : UInt32)
  | loadQuantity (i : Nat)
  | storeQuantity (i : Nat) (quantity : UInt64)
  | release (i : Nat)
  | returned
deriving DecidableEq, Repr

/-- The test of the `for` loop. -/
def loop (iterations i : Nat) : Position := if i < iterations then .acquire i else .returned

/-- The lock, the book and the threads, and which update of which thread stored each of the two
prices. -/
structure State (ι : Type*) where
  flag : Bool
  book : OrderBooks
  positions : ι → Position
  bidBy : Option (ι × Nat)
  priceBy : Option (ι × Nat)

variable {ι : Type*}

def State.initial (args : ι → ThreadArgs) (book : OrderBooks) : State ι where
  flag := false
  book := book
  positions := fun thread => loop (args thread).iterations 0
  bidBy := none
  priceBy := none

variable [DecidableEq ι]

def State.go (state : State ι) (thread : ι) (position : Position) : State ι :=
  { state with positions := Function.update state.positions thread position }

/-- The next step of `updateOrder`; `none` when the thread has returned. -/
def step (args : ι → ThreadArgs) (state : State ι) (thread : ι) : Option (State ι) :=
  let targs := args thread
  match state.positions thread with
  | .acquire i =>
      -- `atomic_flag_test_and_set`: the thread spins while the flag was set.
      if state.flag then some state else some { state.go thread (.storeBid i) with flag := true }
  | .storeBid i =>
      some { state.go thread (.storePrice i) with
        book := { state.book with bidPrice := targs.askBid }
        bidBy := some (thread, i) }
  | .storePrice i =>
      some { state.go thread (.loadVolume i) with
        book := { state.book with price := targs.askPrice }
        priceBy := some (thread, i) }
  | .loadVolume i => some (state.go thread (.storeVolume i state.book.volume))
  | .storeVolume i volume =>
      some { state.go thread (.loadQuantity i) with book := { state.book with volume := volume + targs.askVolume } }
  | .loadQuantity i => some (state.go thread (.storeQuantity i state.book.quantity))
  | .storeQuantity i quantity =>
      some { state.go thread (.release i) with book := { state.book with quantity := quantity + targs.askQuantity } }
  | .release i => some { state.go thread (loop targs.iterations (i + 1)) with flag := false }
  | .returned => none

end HundredDays.SpinLock
