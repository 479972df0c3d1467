import Mathlib.Data.Finset.Card
import Mathlib.Data.List.Basic
import Mathlib.Logic.Function.Basic

namespace HundredDays.Interning

/-! A pool in which equal strings share one copy. -/

/-- The bytes of a string before its terminating NUL. -/
structure CString where
  bytes : List UInt8
  noNul : 0 ∉ bytes
deriving DecidableEq

abbrev Address := Nat

structure StringPool where
  buckets : Nat → Option Address
  capacity : Nat
  count : Nat

/-- A pool and the strings in the copies it points to. -/
structure State where
  pool : StringPool
  copies : Address → Option CString

def fnv1a (str : CString) : UInt32 :=
  str.bytes.foldl (fun hash byte => (hash ^^^ byte.toUInt32) * 0x01000193) 0x811C9DC5

/-- `malloc` and `calloc` succeed or not. -/
def poolCreate (malloc calloc : Bool) (capacity : Nat) : Option State :=
  if malloc && calloc then some { pool := { buckets := fun _ => none, capacity, count := 0 }, copies := fun _ => none }
  else none

/-- The `while` loop: the bucket at which it ends.  A pointer to no string has no result. -/
def findBucket (state : State) (str : CString) (index : Nat) : Nat → Option Nat
  | 0 => none
  | fuel + 1 =>
      match state.pool.buckets index with
      | none => some index
      | some pointer => do
          let copy ← state.copies pointer
          if copy = str then some index
          else findBucket state str ((index + 1) % state.pool.capacity) fuel

/-- A new copy is put into a bucket. -/
def State.store (state : State) (index : Nat) (copy : Address) (str : CString) : State where
  pool := { state.pool with
    buckets := Function.update state.pool.buckets index (some copy), count := state.pool.count + 1 }
  copies := Function.update state.copies copy (some str)

@[simp] theorem State.store_buckets {state : State} {index : Nat} {copy : Address} {str : CString} :
    (state.store index copy str).pool.buckets = Function.update state.pool.buckets index (some copy) := rfl

@[simp] theorem State.store_copies {state : State} {index : Nat} {copy : Address} {str : CString} :
    (state.store index copy str).copies = Function.update state.copies copy (some str) := rfl

@[simp] theorem State.store_capacity {state : State} {index : Nat} {copy : Address} {str : CString} :
    (state.store index copy str).pool.capacity = state.pool.capacity := rfl

@[simp] theorem State.store_count {state : State} {index : Nat} {copy : Address} {str : CString} :
    (state.store index copy str).pool.count = state.pool.count + 1 := rfl

/-- With what `strdup` returns, should it be called. -/
def poolIntern (fuel : Nat) (strdup : Option Address) (state : State) (str : CString) :
    Option (Option Address × State) :=
  if state.pool.count ≥ state.pool.capacity then some (none, state)
  else do
    let hash := fnv1a str
    let index ← findBucket state str (hash.toNat % state.pool.capacity) fuel
    match state.pool.buckets index with
    | some pointer => return (some pointer, state)
    | none =>
        match strdup with
        | none => return (none, state)
        | some copy => return (some copy, state.store index copy str)

/-- A call of `pool_intern`, perhaps with null pointers, and what `strdup` returns in it. -/
structure Call where
  str : Option CString
  strdup : Option Address

/-- What a call returned, and whether the pool was full before it. -/
structure Event where
  str : Option CString
  result : Option Address
  full : Bool
deriving DecidableEq

/-- The state after a call on a pool that may be null. -/
def callIntern (fuel : Nat) (state : Option State) (call : Call) : Option (Event × Option State) :=
  match state, call.str with
  | some state, some str => do
      let (result, after) ← poolIntern fuel call.strdup state str
      return ({ str := some str, result, full := state.pool.count ≥ state.pool.capacity }, some after)
  | state, str => some ({ str, result := none, full := false }, state)

/-- The events of a sequence of calls. -/
def run (fuel : Nat) (state : Option State) : List Call → Option (List Event × Option State)
  | [] => some ([], state)
  | call :: calls => do
      let (event, state) ← callIntern fuel state call
      let (events, state) ← run fuel state calls
      return (event :: events, state)

/-- The strings for which a pointer was returned. -/
def interned (events : List Event) : Finset CString :=
  (events.filterMap fun event => if event.result.isSome then event.str else none).toFinset

end HundredDays.Interning
