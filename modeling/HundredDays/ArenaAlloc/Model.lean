import HundredDays.Semantics.Run
import Mathlib.Algebra.Ring.Nat

namespace HundredDays.ArenaAlloc

open HundredDays.Semantics

/-! The bump allocator of `arena.c`.

Addresses and sizes are numbers below `2 ^ 64`, and their sums and products wrap as
those of `uint64_t` and `uintptr_t` do.  A null pointer is `none`.
-/

/-- The `Arena` record, with the memory its buffer is in. -/
structure Arena where
  buffer : Nat
  currentOffset : Nat
  bufferSize : Nat
  memory : Nat → UInt8

/-- `ArenaInit`, with the memory that the system maps.  Where there is none the arena stays as it was. -/
def arenaInit (arena : Arena) (mapped : Option (Nat × (Nat → UInt8))) (bufferSize : Nat) : Arena :=
  match mapped with
  | none => arena
  | some (ptr, memory) => { buffer := ptr, bufferSize, currentOffset := 0, memory }

/-- `memset` with zero. -/
def clear (memory : Nat → UInt8) (start count : Nat) : Nat → UInt8 := fun address =>
  if start ≤ address ∧ address < start + count then 0 else memory address

/-- A number as a `void *`. -/
def pointer (address : Nat) : Option Nat := if address = 0 then none else some address

def arenaAlloc (arena : Arena) (numOfElem elemSize alignSize : Nat) : Option Nat × Arena :=
  if alignSize = 0 ∨ alignSize &&& (alignSize - 1) ≠ 0 then (none, arena)
  else
    let allocationSize := numOfElem * elemSize % 2 ^ 64
    if allocationSize < elemSize then (none, arena)
    else
      let totalOffset := (arena.currentOffset + arena.buffer) % 2 ^ 64
      -- the complement of `totalOffset`
      let padding := (2 ^ 64 - 1 - totalOffset) &&& (alignSize - 1)
      let totalOffset := (totalOffset + padding) % 2 ^ 64
      if (totalOffset + allocationSize) % 2 ^ 64 > (arena.bufferSize + arena.buffer) % 2 ^ 64 then (none, arena)
      else
        let currentOffset := (arena.currentOffset + (padding + allocationSize) % 2 ^ 64) % 2 ^ 64
        let memory := clear arena.memory totalOffset allocationSize
        (pointer totalOffset, { arena with currentOffset, memory })

def arenaResetPointer (arena : Arena) : Arena := { arena with currentOffset := 0 }

/-! ### Sequences of calls -/

/-- The bytes that a caller was given. -/
structure Range where
  start : Nat
  length : Nat

/-- The arena, and what it returned since the last reset. -/
structure Session where
  arena : Arena
  ranges : List Range

inductive Call where
  | alloc (numOfElem elemSize alignSize : Nat)
  | reset

def Session.step (session : Session) : Call → Option Session
  | .alloc numOfElem elemSize alignSize =>
      let (result, arena) := arenaAlloc session.arena numOfElem elemSize alignSize
      let given : List Range := match result with
        | some start => [⟨start, numOfElem * elemSize⟩]
        | none => []
      some { arena, ranges := given ++ session.ranges }
  | .reset => some { arena := arenaResetPointer session.arena, ranges := [] }

end HundredDays.ArenaAlloc
