import HundredDays.Semantics.Run
import Mathlib.Data.List.Basic
import Mathlib.Logic.Function.Basic
import Mathlib.Order.Defs.LinearOrder

namespace HundredDays.PriceTracker

/-! `update_if_higher` of C and of C++ on one price, called by any number of threads.

Each load and each compare-exchange is one step.  The price at every instant is recorded, and
what the calls returned.
-/

/-- How far a thread is in its call, which began at the instant `start`. -/
inductive Call where
  | idle
  | entered (candidate : Int) (start : Nat)
  | loaded (candidate current : Int) (start : Nat)
deriving DecidableEq, Repr

/-- A call that returned by the step that led to the instant `finish`. -/
structure Return where
  candidate : Int
  updated : Bool
  start : Nat
  finish : Nat
deriving DecidableEq, Repr

structure Updates (ι : Type*) where
  price : Int
  calls : ι → Call
  /-- The price at every instant before. -/
  past : List Int
  /-- The candidates of all calls. -/
  candidates : List Int
  returns : List Return

inductive Update (ι : Type*) where
  | call (thread : ι) (candidate : Int)
  /-- The next step of a call; a weak compare-exchange may also fail for no reason. -/
  | step (thread : ι) (spurious : Bool)

namespace Updates

variable {ι : Type*}

def initial (price : Int) : Updates ι := { price, calls := fun _ => .idle, past := [], candidates := [], returns := [] }

/-- The price at every instant, up to the present. -/
def history (state : Updates ι) : List Int := state.past ++ [state.price]

/-- The instant after the next step. -/
def next (state : Updates ι) : Nat := state.history.length

def AllReturned (state : Updates ι) : Prop := ∀ thread, state.calls thread = .idle

variable [DecidableEq ι]

/-- A step of one thread. -/
def goOn (state : Updates ι) (thread : ι) (call : Call) : Updates ι :=
  { state with calls := Function.update state.calls thread call, past := state.history }

def enter (state : Updates ι) (thread : ι) (candidate : Int) : Updates ι :=
  { state.goOn thread (.entered candidate state.next) with candidates := state.candidates ++ [candidate] }

/-- The load, and a compare-exchange that fails: both leave the price in `current`. -/
def load (state : Updates ι) (thread : ι) (candidate : Int) (start : Nat) : Updates ι :=
  state.goOn thread (.loaded candidate state.price start)

/-- A compare-exchange that succeeds, and `return 1`. -/
def install (state : Updates ι) (thread : ι) (candidate : Int) (start : Nat) : Updates ι :=
  { state.goOn thread .idle with
    price := candidate
    returns := state.returns ++ [{ candidate, updated := true, start, finish := state.next }] }

/-- `return 0` -/
def refuse (state : Updates ι) (thread : ι) (candidate : Int) (start : Nat) : Updates ι :=
  { state.goOn thread .idle with
    returns := state.returns ++ [{ candidate, updated := false, start, finish := state.next }] }

/-- The next step of `update_if_higher`. -/
def updateIfHigher (state : Updates ι) (thread : ι) (spurious : Bool) : Option (Updates ι) :=
  match state.calls thread with
  | .idle => none
  | .entered candidate start => some (state.load thread candidate start)
  | .loaded candidate current start =>
      if candidate > current then
        if state.price = current ∧ !spurious then some (state.install thread candidate start)
        else some (state.load thread candidate start)
      else some (state.refuse thread candidate start)

def step (state : Updates ι) : Update ι → Option (Updates ι)
  | .call thread candidate =>
      match state.calls thread with
      | .idle => some (state.enter thread candidate)
      | _ => none
  | .step thread spurious => state.updateIfHigher thread spurious

end Updates

end HundredDays.PriceTracker
