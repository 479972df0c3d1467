import HundredDays.Semantics.Run
import Mathlib.Algebra.Ring.Nat

namespace HundredDays.BumpArena

/-! The arenas of the allocator examples: the C++ class, the allocator for containers on
top of it, and the C backend with its statistics.

Addresses and sizes are numbers below `2 ^ 64`, and their sums and products wrap as
those of `size_t` and `uintptr_t` do.  A null pointer is `none`.
-/

structure AllocStats where
  allocCalls : UInt64
  bytesAllocated : UInt64

def AllocStats.count (stats : AllocStats) (bytes : Nat) : AllocStats where
  allocCalls := stats.allocCalls + 1
  bytesAllocated := stats.bytesAllocated + UInt64.ofNat bytes

/-- The C++ class. -/
structure Arena where
  buffer : Nat
  capacity : Nat
  offset : Nat

/-- The C record. -/
structure ArenaBackend extends Arena where
  stats : AllocStats

/-- A number as a `void *`. -/
def pointer (address : Nat) : Option Nat := if address = 0 then none else some address

def Arena.allocate (arena : Arena) (bytes align : Nat) : Option Nat × Arena :=
  if align = 0 ∨ align &&& (align - 1) ≠ 0 then (none, arena)
  else
    let current := (arena.buffer + arena.offset) % 2 ^ 64
    let aligned := (current + align - 1) % 2 ^ 64 &&& (2 ^ 64 - 1 - (align - 1))
    let padding := (aligned + (2 ^ 64 - current)) % 2 ^ 64
    if (arena.offset + padding + bytes) % 2 ^ 64 > arena.capacity then (none, arena)
    else (pointer aligned, { arena with offset := (arena.offset + (padding + bytes)) % 2 ^ 64 })

def Arena.reset (arena : Arena) : Arena := { arena with offset := 0 }

/-- `ArenaAllocator<T>::allocate`, with the size and the alignment of `T`.  Without a result it throws. -/
def ArenaAllocator.allocate (arena : Option Arena) (stats : Option AllocStats) (n sizeofT alignofT : Nat) :
    Option Nat × Option Arena × Option AllocStats :=
  match arena with
  | none => (none, none, stats)
  | some arena =>
      let bytes := n * sizeofT % 2 ^ 64
      match arena.allocate bytes alignofT with
      | (none, arena) => (none, some arena, stats)
      | (some ptr, arena) => (some ptr, some arena, stats.map fun stats => stats.count bytes)

def arenaAlloc (ctx : Option ArenaBackend) (size align : Nat) : Option Nat × Option ArenaBackend :=
  match ctx with
  | none => (none, none)
  | some arena =>
      if align = 0 ∨ align &&& (align - 1) ≠ 0 then (none, arena)
      else
        let current := (arena.buffer + arena.offset) % 2 ^ 64
        let aligned := (current + align - 1) % 2 ^ 64 &&& (2 ^ 64 - 1 - (align - 1))
        let padding := (aligned + (2 ^ 64 - current)) % 2 ^ 64
        if (arena.offset + padding + size) % 2 ^ 64 > arena.capacity then (none, arena)
        else
          (pointer aligned, some { arena with
            offset := (arena.offset + (padding + size)) % 2 ^ 64
            stats := arena.stats.count size })

/-! ### Sequences of calls -/

/-- The bytes that a caller was given. -/
structure Range where
  start : Nat
  length : Nat

/-- The arena of either language, its statistics, and what it returned since the last reset. -/
structure Session where
  arena : Arena
  stats : AllocStats
  ranges : List Range

inductive Request where
  | arenaAlloc (size align : Nat)
  | allocate (bytes align : Nat)
  /-- The allocators of the earlier example have no statistics. -/
  | allocator (n sizeofT alignofT : Nat) (counted : Bool)

inductive Call where
  | request (request : Request)
  | reset

namespace Request

/-- The bytes that are asked for, where no product wraps. -/
def bytes : Request → Nat
  | .arenaAlloc size _ => size
  | .allocate bytes _ => bytes
  | .allocator n sizeofT _ _ => n * sizeofT

def align : Request → Nat
  | .arenaAlloc _ align => align
  | .allocate _ align => align
  | .allocator _ _ alignofT _ => alignofT

end Request

namespace Session

def initial (buffer capacity : Nat) : Session where
  arena := { buffer, capacity, offset := 0 }
  stats := { allocCalls := 0, bytesAllocated := 0 }
  ranges := []

/-- The request itself, on the arena and its statistics. -/
def respond (session : Session) : Request → Option Nat × Option Arena × Option AllocStats
  | .arenaAlloc size align =>
      let (result, backend) := BumpArena.arenaAlloc (some { session.arena with stats := session.stats }) size align
      (result, backend.map ArenaBackend.toArena, backend.map ArenaBackend.stats)
  | .allocate bytes align =>
      let (result, arena) := session.arena.allocate bytes align
      (result, arena, none)
  | .allocator n sizeofT alignofT counted =>
      ArenaAllocator.allocate session.arena (if counted then some session.stats else none) n sizeofT alignofT

def serve (session : Session) (request : Request) : Option Nat × Session :=
  let (result, arena, stats) := session.respond request
  (result, {
    arena := arena.getD session.arena
    stats := stats.getD session.stats
    ranges := (result.toList.map fun start => ⟨start, request.bytes⟩) ++ session.ranges })

def step (session : Session) : Call → Option Session
  | .request request => some (session.serve request).2
  | .reset => some { session with arena := session.arena.reset, ranges := [] }

end Session

end HundredDays.BumpArena
