import Mathlib.Data.List.Basic

namespace HundredDays.PriceTracker

/-! The ticker between one writer and one reader.

The writer and the reader of C and of C++ take the same steps: each load and each store
of an atomic variable is one step, and the two threads take turns in any way.
-/

structure Ticker where
  price : Int
  volume : Int
  seq : Int
deriving DecidableEq, Repr

/-- The store that the writer makes next, and in which iteration. -/
inductive Writer where
  | price (i : Nat)
  | volume (i : Nat)
  | seq (i : Nat)
  | stopFlag
  | done
deriving DecidableEq, Repr

/-- The load that the reader makes next.  The numbers of stores are no variables of the
code. -/
inductive Reader where
  | stopFlag
  | seq
  | price (seq : Int)
  | volume (seq price : Int) (priceStores : Nat)
  | done
deriving DecidableEq, Repr

/-- A pair that the reader loaded after it saw a new number in `seq`, with how many prices
had been stored when it loaded the price, and how many volumes when it loaded the
volume. -/
structure Observation where
  seq : Int
  price : Int
  volume : Int
  priceStores : Nat
  volumeStores : Nat
deriving DecidableEq, Repr

structure State where
  ticker : Ticker
  stopFlag : Bool
  writer : Writer
  reader : Reader
  lastSeq : Int
  reads : Nat
  observations : List Observation
deriving DecidableEq, Repr

inductive Thread where
  | writer
  | reader
deriving DecidableEq, Repr

def basePrice : Int := 10000

def newPrice (i : Nat) : Int := basePrice + ((i % 500 : Nat) : Int)

def newVolume (i : Nat) : Int := ((i * 7 % 1000 : Nat) : Int)

/-- The test of the `for` loop. -/
def loop (numUpdates i : Nat) : Writer := if i < numUpdates then .price i else .stopFlag

def State.initial (numUpdates : Nat) : State where
  ticker := { price := 0, volume := 0, seq := 0 }
  stopFlag := false
  writer := loop numUpdates 0
  reader := .stopFlag
  lastSeq := 0
  reads := 0
  observations := []

/-- How many prices the writer has stored when `next` is its next store. -/
def Writer.priceStores (numUpdates : Nat) (next : Writer) : Nat :=
  match next with
  | .price i => i
  | .volume i | .seq i => i + 1
  | .stopFlag | .done => numUpdates

def Writer.volumeStores (numUpdates : Nat) (next : Writer) : Nat :=
  match next with
  | .price i | .volume i => i
  | .seq i => i + 1
  | .stopFlag | .done => numUpdates

/-- The next step of `writer_thread`. -/
def writerThread (numUpdates : Nat) (state : State) : Option State :=
  match state.writer with
  | .price i => some { state with ticker := { state.ticker with price := newPrice i }, writer := .volume i }
  | .volume i => some { state with ticker := { state.ticker with volume := newVolume i }, writer := .seq i }
  | .seq i => some { state with ticker := { state.ticker with seq := (i : Int) + 1 }, writer := loop numUpdates (i + 1) }
  | .stopFlag => some { state with stopFlag := true, writer := .done }
  | .done => none

/-- The next step of `reader_thread`. -/
def readerThread (numUpdates : Nat) (state : State) : Option State :=
  match state.reader with
  | .stopFlag => some { state with reader := if state.stopFlag then .done else .seq }
  | .seq =>
      some { state with
        reader := if state.ticker.seq ≠ state.lastSeq then .price state.ticker.seq else .stopFlag }
  | .price seq =>
      some { state with reader := .volume seq state.ticker.price (state.writer.priceStores numUpdates) }
  | .volume seq price priceStores =>
      let observation :=
        { seq, price, volume := state.ticker.volume, priceStores, volumeStores := state.writer.volumeStores numUpdates }
      some { state with
        reader := .stopFlag
        lastSeq := seq
        reads := state.reads + 1
        observations := state.observations ++ [observation] }
  | .done => none

def step (numUpdates : Nat) (state : State) : Thread → Option State
  | .writer => writerThread numUpdates state
  | .reader => readerThread numUpdates state

end HundredDays.PriceTracker
