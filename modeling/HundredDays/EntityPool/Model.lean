import HundredDays.Memory.Pointer

namespace HundredDays.EntityPool

open HundredDays.Memory

/-! The pool of entities, on the bytes of its array.

In a `PoolNode` the entity and the link `next` are a union at byte 0 and `in_use` is
at byte 40.  Addresses are 64-bit numbers; a null pointer is `none`.
-/

/-- `NUM_ALLOCTION` -/
@[irreducible] def numAlloction : Nat := 1028

theorem numAlloction_eq : numAlloction = 1028 := by
  unfold numAlloction
  rfl

/-- `sizeof(Entity)`, which is that of the union -/
abbrev sizeofEntity : Nat := 40

abbrev sizeofPoolNode : Nat := 48

/-- The static variables, with the memory that the pointers lead to. -/
structure Pool where
  objectPool : Nat
  freelist : Option Nat
  memory : Nat → UInt8

/-- `&(object_pool[i])` -/
def nodeAt (objectPool i : Nat) : Nat := objectPool + i * sizeofPoolNode

namespace Pool

variable (pool : Pool)

def next (node : Nat) : Option Nat := loadPointer pool.memory node

def setNext (node : Nat) (link : Option Nat) : Pool := { pool with memory := storePointer pool.memory node link }

def inUse (node : Nat) : Bool := pool.memory (node + sizeofEntity) != 0

def setInUse (node : Nat) (value : Bool) : Pool :=
  { pool with memory := Function.update pool.memory (node + sizeofEntity) (if value then 1 else 0) }

end Pool

/-- The two assignments to a slot. -/
def linkSlot (pool : Pool) (i : Nat) (link : Option Nat) : Pool :=
  let pool := pool.setNext (nodeAt pool.objectPool i) link
  pool.setInUse (nodeAt pool.objectPool i) false

/-- The loop, for its first `count` rounds. -/
def linkSlots (pool : Pool) (count : Nat) : Pool :=
  (List.range count).foldl (fun pool i => linkSlot pool i (some (nodeAt pool.objectPool (i + 1)))) pool

/-- The body of `Entity_Init` and of `Pool_Reset`. -/
def linkAll (pool : Pool) : Pool :=
  let pool := linkSlots pool (numAlloction - 1)
  let pool := linkSlot pool (numAlloction - 1) none
  { pool with freelist := some (nodeAt pool.objectPool 0) }

def entityInit (pool : Pool) : Pool := linkAll pool

def entityPoolAlloc (pool : Pool) : Option Nat × Pool :=
  match pool.freelist with
  | some node =>
      let pool := { pool with freelist := pool.next node }
      (some node, pool.setInUse node true)
  | none => (none, pool)

/-- The result, with what is printed to `stderr`, and the pool left behind. -/
def entityFree (pool : Pool) (entity : Option Nat) : (Bool × Option String) × Pool :=
  match entity with
  | none => ((false, none), pool)
  | some p =>
      let base := pool.objectPool
      if p < base ∨ p ≥ (base + numAlloction * sizeofPoolNode) % 2 ^ 64 then
        ((false, some "Entity_Free: pointer outside pool\n"), pool)
      else
        let i := (p - base) / sizeofPoolNode % 2 ^ 32
        if nodeAt pool.objectPool i ≠ p then ((false, some "Entity_Free: misaligned pointer\n"), pool)
        else if !pool.inUse (nodeAt pool.objectPool i) then ((false, some "Entity_Free: double free detected\n"), pool)
        else
          let node := nodeAt pool.objectPool i
          let pool := pool.setInUse node false
          let pool := pool.setNext node pool.freelist
          ((true, none), { pool with freelist := some node })

def poolReset (pool : Pool) : Pool := linkAll pool

/-! ### Owners -/

/-- The pool, with the entities that were handed out and not taken back since. -/
structure Session where
  pool : Pool
  owned : List Nat

/-- `write` is an owner's store of one byte into an entity of theirs. -/
inductive Call where
  | alloc
  | free (entity : Option Nat)
  | reset
  | write (entity offset : Nat) (byte : UInt8)

namespace Session

/-- The program before its first call, whatever the memory around the pool holds. -/
def start (objectPool : Nat) (memory : Nat → UInt8) : Session :=
  { pool := entityInit { objectPool, freelist := none, memory }, owned := [] }

def step (session : Session) : Call → Option Session
  | .alloc =>
      let (entity, pool) := entityPoolAlloc session.pool
      some { pool, owned := entity.toList ++ session.owned }
  | .free entity =>
      let ((freed, _), pool) := entityFree session.pool entity
      some { pool, owned := if freed then session.owned.filter (fun other => some other != entity) else session.owned }
  | .reset => some { pool := poolReset session.pool, owned := [] }
  | .write entity offset byte =>
      if entity ∈ session.owned ∧ offset < sizeofEntity then
        some { session with
          pool := { session.pool with memory := Function.update session.pool.memory (entity + offset) byte } }
      else none

end Session

end HundredDays.EntityPool
