import HundredDays.Memory.Pointer

namespace HundredDays.ObjectPool

open HundredDays.Memory

/-! The pool of objects, for any type and capacity, on the bytes of its array.

A node is a union of the storage of an object and a link.  The difference of two
pointers into the array is defined for its elements only; an operation that is
undefined has no result.
-/

/-- The capacity and what the pool uses of `T`: its size, that of a node, and the bytes that a destructor leaves behind. -/
structure Params where
  capacity : Nat
  sizeofT : Nat
  sizeofNode : Nat
  destructor : (Nat → UInt8) → Nat → Nat → UInt8
  anySlot : 0 < capacity
  storage : sizeofT ≤ sizeofNode
  link : 8 ≤ sizeofNode

/-- The members, with the memory that the pointers lead to and the objects whose destructor has run. -/
structure ObjectPool where
  pool : Nat
  freelist : Option Nat
  inUse : Nat → Bool
  memory : Nat → UInt8
  destroyed : List Nat

variable (params : Params)

/-- `&pool_[i]` -/
def nodeAt (base i : Nat) : Nat := base + i * params.sizeofNode

/-- `node - pool_` -/
def indexOf (base node : Nat) : Option Nat :=
  if base ≤ node ∧ (node - base) % params.sizeofNode = 0 then some ((node - base) / params.sizeofNode) else none

/-- The bytes that a constructor or a destructor leaves in the storage of an object. -/
def fill (memory : Nat → UInt8) (storage : Nat) (bytes : Nat → UInt8) : Nat → UInt8 := fun address =>
  if storage ≤ address ∧ address < storage + params.sizeofT then bytes address else memory address

namespace ObjectPool

variable (pool : ObjectPool)

def next (node : Nat) : Option Nat := loadPointer pool.memory node

def setNext (node : Nat) (link : Option Nat) : ObjectPool :=
  { pool with memory := storePointer pool.memory node link }

/-- `~T` -/
def destruct (ptr : Nat) : ObjectPool :=
  { pool with
    memory := fill params pool.memory ptr (params.destructor pool.memory ptr)
    destroyed := pool.destroyed ++ [ptr] }

/-- The loop that links the slots, for its first `count` rounds. -/
def linkSlots (count : Nat) : ObjectPool :=
  (List.range count).foldl
    (fun pool i => pool.setNext (nodeAt params pool.pool i) (some (nodeAt params pool.pool (i + 1)))) pool

def linkAll : ObjectPool :=
  let pool := pool.linkSlots params (params.capacity - 1)
  let pool := pool.setNext (nodeAt params pool.pool (params.capacity - 1)) none
  { pool with freelist := some (nodeAt params pool.pool 0) }

end ObjectPool

/-- The constructor of the pool, in whatever memory it is. -/
def create (base : Nat) (memory : Nat → UInt8) : ObjectPool :=
  ObjectPool.linkAll params
    { pool := base, freelist := none, inUse := fun _ => false, memory, destroyed := [] }

/-- A null pointer, the exception of the constructor, or the object. -/
inductive Construction where
  | null
  | thrown
  | object (ptr : Nat)

/-- `construct`, with the bytes that the constructor leaves in the storage and whether it throws. -/
def construct (pool : ObjectPool) (bytes : Nat → UInt8) (throws : Bool) : Option (Construction × ObjectPool) :=
  match pool.freelist with
  | none => some (.null, pool)
  | some node =>
      let pool := { pool with freelist := pool.next node }
      (indexOf params pool.pool node).map fun index =>
        let pool := { pool with inUse := Function.update pool.inUse index true }
        let pool := { pool with memory := fill params pool.memory node bytes }
        (if throws then .thrown else .object node, pool)

/-- `destroy`, with what it prints to `stderr`. -/
def destroy (pool : ObjectPool) (ptr : Option Nat) : Option ((Bool × Option String) × ObjectPool) :=
  match ptr with
  | none => some ((false, none), pool)
  | some p =>
      let base := pool.pool
      if p < base ∨ p ≥ (base + params.capacity * params.sizeofNode) % 2 ^ 64 then
        some ((false, some "destroy: pointer outside pool\n"), pool)
      else (indexOf params base p).map fun index =>
        if !pool.inUse index then ((false, some "destroy: double free detected\n"), pool)
        else
          let pool := pool.destruct params p
          let pool := { pool with inUse := Function.update pool.inUse index false }
          let pool := pool.setNext p pool.freelist
          ((true, none), { pool with freelist := some p })

/-- The round of the first loop of `reset`. -/
def resetSlot (pool : ObjectPool) (i : Nat) : ObjectPool :=
  if pool.inUse i then
    let pool := pool.destruct params (nodeAt params pool.pool i)
    { pool with inUse := Function.update pool.inUse i false }
  else pool

/-- `reset`, which is also the destructor of the pool. -/
def reset (pool : ObjectPool) : ObjectPool :=
  ((List.range params.capacity).foldl (resetSlot params) pool).linkAll params

/-! ### Owners -/

/-- The pool, the objects that are alive, the slots whose constructor threw since the last reset, and the handles that
were acquired and not dropped. -/
structure Session where
  pool : ObjectPool
  live : List Nat
  thrown : List Nat
  handles : List Nat

/-- `write` is an owner's store of one byte into a live object. -/
inductive Call where
  | construct (bytes : Nat → UInt8) (throws : Bool)
  | acquire (bytes : Nat → UInt8) (throws : Bool)
  | destroy (ptr : Option Nat)
  | dropHandle (ptr : Nat)
  | reset
  | write (ptr offset : Nat) (byte : UInt8)

namespace Session

def start (base : Nat) (memory : Nat → UInt8) : Session :=
  { pool := create params base memory, live := [], thrown := [], handles := [] }

def construct (session : Session) (bytes : Nat → UInt8) (throws : Bool) : Option (Construction × Session) :=
  (ObjectPool.construct params session.pool bytes throws).map fun (result, pool) =>
    match result with
    | .null => (.null, { session with pool })
    | .thrown => (.thrown, { session with pool, thrown := session.pool.freelist.toList ++ session.thrown })
    | .object ptr => (.object ptr, { session with pool, live := ptr :: session.live })

def destroy (session : Session) (ptr : Option Nat) : Option Session :=
  (ObjectPool.destroy params session.pool ptr).map fun ((destroyed, _), pool) =>
    if destroyed then
      { session with
        pool
        live := session.live.filter fun other => some other != ptr
        thrown := session.thrown.filter fun other => some other != ptr }
    else { session with pool }

def step (session : Session) : Call → Option Session
  | .construct bytes throws => (session.construct params bytes throws).map Prod.snd
  | .acquire bytes throws => (session.construct params bytes throws).map fun (result, session) =>
      match result with
      | .object ptr => { session with handles := ptr :: session.handles }
      | _ => session
  | .destroy ptr => session.destroy params ptr
  | .dropHandle ptr =>
      if ptr ∈ session.handles then
        (session.destroy params (some ptr)).map fun session => { session with handles := session.handles.erase ptr }
      else none
  | .reset => some { session with pool := ObjectPool.reset params session.pool, live := [], thrown := [] }
  | .write ptr offset byte =>
      if ptr ∈ session.live ∧ offset < params.sizeofT then
        some { session with
          pool := { session.pool with memory := Function.update session.pool.memory (ptr + offset) byte } }
      else none

end Session

end HundredDays.ObjectPool
