import HundredDays.BumpArena.Model
import HundredDays.Data.Masks

namespace HundredDays.BumpArena

open HundredDays.Data HundredDays.Semantics

/-! What becomes of a request, whatever its size and alignment.

The offset behind a block is tested against the capacity after it wrapped, so that a
request is only as good as that offset is in numbers that do not wrap.
-/

variable {arena : Arena} {stats : AllocStats} {bytes n sizeofT order buffer capacity : Nat}
  {session after : Session} {request : Request}

/-- The first aligned address that is not in use. -/
def start (arena : Arena) (align : Nat) : Nat := (arena.buffer + arena.offset + align - 1) / align * align

/-- The offset behind the block, in numbers that do not wrap. -/
def needed (arena : Arena) (bytes align : Nat) : Nat := start arena align - arena.buffer + bytes

/-- The address that is returned. -/
def address (arena : Arena) (align : Nat) : Option Nat := pointer (start arena align % 2 ^ 64)

theorem start_dvd (arena : Arena) (align : Nat) : align ∣ start arena align := Nat.dvd_mul_left _ _

theorem start_bounds (arena : Arena) (order : Nat) :
    arena.buffer + arena.offset ≤ start arena (2 ^ order) ∧
      start arena (2 ^ order) < arena.buffer + arena.offset + 2 ^ order := by
  have positive := Nat.two_pow_pos order
  have parts := Nat.div_add_mod' (arena.buffer + arena.offset + 2 ^ order - 1) (2 ^ order)
  have less := Nat.mod_lt (arena.buffer + arena.offset + 2 ^ order - 1) positive
  rw [start]
  omega

/-- The end of the address space is a multiple of every alignment. -/
theorem start_le (fits : arena.buffer + arena.offset < 2 ^ 64) (shift : order < 64) :
    start arena (2 ^ order) ≤ 2 ^ 64 := by
  have positive := Nat.two_pow_pos order
  obtain ⟨factor, split⟩ : ∃ factor, 2 ^ 64 = 2 ^ order * factor := Nat.pow_dvd_pow 2 (Nat.le_of_lt shift)
  have quotient : (arena.buffer + arena.offset + 2 ^ order - 1) / 2 ^ order < factor + 1 := by
    rw [Nat.div_lt_iff_lt_mul positive, Nat.add_mul, Nat.mul_comm, ← split]
    omega
  calc
    start arena (2 ^ order) ≤ factor * 2 ^ order := Nat.mul_le_mul_right _ (Nat.le_of_lt_succ quotient)
    _ = 2 ^ 64 := by rw [split, Nat.mul_comm]

theorem not_rejected (order : Nat) : ¬ (2 ^ order = 0 ∨ 2 ^ order &&& (2 ^ order - 1) ≠ 0) := by
  have positive := Nat.two_pow_pos order
  rw [Nat.and_two_pow_sub_one_eq_mod, Nat.mod_self]
  omega

/-- The wrapping numbers of the code. -/
theorem wrapped (fits : arena.buffer + arena.capacity < 2 ^ 64) (inside : arena.offset ≤ arena.capacity)
    (shift : order < 64) (bytes : Nat) :
    let current := (arena.buffer + arena.offset) % 2 ^ 64
    let aligned := (current + 2 ^ order - 1) % 2 ^ 64 &&& (2 ^ 64 - 1 - (2 ^ order - 1))
    let padding := (aligned + (2 ^ 64 - current)) % 2 ^ 64
    aligned = start arena (2 ^ order) % 2 ^ 64 ∧
      (arena.offset + padding + bytes) % 2 ^ 64 = needed arena bytes (2 ^ order) % 2 ^ 64 := by
  intro current aligned padding
  have placed : current = arena.buffer + arena.offset := Nat.mod_eq_of_lt (by omega)
  have rounded : aligned = start arena (2 ^ order) % 2 ^ 64 := by
    obtain ⟨factor, split⟩ : ∃ factor, 2 ^ 64 = 2 ^ order * factor := Nat.pow_dvd_pow 2 (Nat.le_of_lt shift)
    change _ &&& _ = _
    rw [placed, and_complement (Nat.mod_lt _ (Nat.two_pow_pos 64)) (Nat.le_of_lt shift), start]
    conv_lhs => rw [split, Nat.mod_mul_right_div_self]
    rw [split, Nat.mul_comm (2 ^ order) factor, Nat.mul_mod_mul_right]
  have bounds := start_bounds arena order
  have limit := @start_le arena order (by omega) shift
  refine ⟨rounded, ?_⟩
  change (arena.offset + (aligned + (2 ^ 64 - current)) % 2 ^ 64 + bytes) % 2 ^ 64 = _
  rw [rounded, placed, needed]
  omega

theorem allocate_eq (fits : arena.buffer + arena.capacity < 2 ^ 64) (inside : arena.offset ≤ arena.capacity)
    (shift : order < 64) (bytes : Nat) : arena.allocate bytes (2 ^ order) =
      if needed arena bytes (2 ^ order) % 2 ^ 64 > arena.capacity then (none, arena)
      else (address arena (2 ^ order), { arena with offset := needed arena bytes (2 ^ order) % 2 ^ 64 }) := by
  obtain ⟨aligned, sum⟩ := wrapped fits inside shift bytes
  rw [Arena.allocate, if_neg (not_rejected order), address]
  simp only [aligned, Nat.add_assoc] at sum ⊢
  rw [sum]

theorem arenaAlloc_eq (fits : arena.buffer + arena.capacity < 2 ^ 64) (inside : arena.offset ≤ arena.capacity)
    (shift : order < 64) (stats : AllocStats) (bytes : Nat) :
    arenaAlloc (some { arena with stats := stats }) bytes (2 ^ order) =
      if needed arena bytes (2 ^ order) % 2 ^ 64 > arena.capacity then (none, some { arena with stats := stats })
      else (address arena (2 ^ order), some { arena with
          offset := needed arena bytes (2 ^ order) % 2 ^ 64
          stats := stats.count bytes }) := by
  obtain ⟨aligned, sum⟩ := wrapped fits inside shift bytes
  simp only [arenaAlloc]
  rw [if_neg (not_rejected order), address]
  simp only [aligned, Nat.add_assoc] at sum ⊢
  rw [sum]

theorem allocator_throws {stats : Option AllocStats} {after : Arena} {align : Nat}
    (refused : arena.allocate (n * sizeofT % 2 ^ 64) align = (none, after)) :
    ArenaAllocator.allocate (some arena) stats n sizeofT align = (none, some after, stats) := by
  simp only [ArenaAllocator.allocate, refused]

theorem allocator_returns {stats : Option AllocStats} {after : Arena} {align address : Nat}
    (given : arena.allocate (n * sizeofT % 2 ^ 64) align = (some address, after)) :
    ArenaAllocator.allocate (some arena) stats n sizeofT align =
      (some address, some after, stats.map fun stats => stats.count (n * sizeofT % 2 ^ 64)) := by
  simp only [ArenaAllocator.allocate, given]

theorem AllocStats.count_ne (stats : AllocStats) (bytes : Nat) : stats.count bytes ≠ stats := by
  intro same
  have calls : stats.allocCalls + 1 = stats.allocCalls := congrArg AllocStats.allocCalls same
  simp at calls

/-- The C function counts a request also when the address of its block is null. -/
def Request.CountsNull : Request → Prop
  | .arenaAlloc _ _ => True
  | .allocate _ _ => False
  | .allocator _ _ _ _ => False

/-- The answer to a request is what becomes of the offset that it needs. -/
theorem serve_cases (fits : session.arena.buffer + session.arena.capacity < 2 ^ 64)
    (inside : session.arena.offset ≤ session.arena.capacity) (shift : order < 64) (aligned : request.align = 2 ^ order) :
    (session.arena.capacity < needed session.arena request.bytes request.align % 2 ^ 64 ∧
      session.serve request = (none, session)) ∨
    (needed session.arena request.bytes request.align % 2 ^ 64 ≤ session.arena.capacity ∧
      ∃ stats, session.serve request = (address session.arena request.align, {
        arena := { session.arena with offset := needed session.arena request.bytes request.align % 2 ^ 64 }
        stats
        ranges := ((address session.arena request.align).toList.map fun start =>
          ⟨start, request.bytes⟩) ++ session.ranges }) ∧
        (address session.arena request.align = none →
          (stats = session.stats ↔ ¬ request.CountsNull))) := by
  cases request with
  | arenaAlloc size align =>
      cases aligned
      have outcome := arenaAlloc_eq fits inside shift session.stats size
      by_cases full : needed session.arena size (2 ^ order) % 2 ^ 64 > session.arena.capacity
      · rw [if_pos full] at outcome
        refine .inl ⟨full, ?_⟩
        simp [Session.serve, Session.respond, outcome]
      · rw [if_neg full] at outcome
        refine .inr ⟨Nat.le_of_not_gt full, session.stats.count size, ?_, ?_⟩
        · simp [Session.serve, Session.respond, outcome, Request.bytes, Request.align]
        · simp [Request.CountsNull, AllocStats.count_ne]
  | allocate bytes align =>
      cases aligned
      have outcome := allocate_eq fits inside shift bytes
      by_cases full : needed session.arena bytes (2 ^ order) % 2 ^ 64 > session.arena.capacity
      · rw [if_pos full] at outcome
        refine .inl ⟨full, ?_⟩
        simp [Session.serve, Session.respond, outcome]
      · rw [if_neg full] at outcome
        refine .inr ⟨Nat.le_of_not_gt full, session.stats, ?_, ?_⟩
        · simp [Session.serve, Session.respond, outcome, Request.bytes, Request.align]
        · simp [Request.CountsNull]
  | allocator n sizeofT alignofT counted =>
      cases aligned
      have outcome := allocate_eq fits inside shift (n * sizeofT % 2 ^ 64)
      have product : needed session.arena (n * sizeofT % 2 ^ 64) (2 ^ order) % 2 ^ 64 =
          needed session.arena (n * sizeofT) (2 ^ order) % 2 ^ 64 := by
        rw [needed, Nat.add_mod_mod, needed]
      rw [product] at outcome
      by_cases full : needed session.arena (n * sizeofT) (2 ^ order) % 2 ^ 64 > session.arena.capacity
      · rw [if_pos full] at outcome
        refine .inl ⟨full, ?_⟩
        cases counted <;> simp [Session.serve, Session.respond, allocator_throws outcome]
      · rw [if_neg full] at outcome
        cases block : address session.arena (2 ^ order) with
        | none =>
            rw [block] at outcome
            refine .inr ⟨Nat.le_of_not_gt full, session.stats, ?_, ?_⟩
            · cases counted <;>
                simp [Session.serve, Session.respond, allocator_throws outcome, Request.bytes, Request.align, block]
            · simp [Request.CountsNull]
        | some found =>
            rw [block] at outcome
            refine .inr ⟨Nat.le_of_not_gt full,
              if counted then session.stats.count (n * sizeofT % 2 ^ 64) else session.stats, ?_, ?_⟩
            · cases counted <;>
                simp [Session.serve, Session.respond, allocator_returns outcome, Request.bytes, Request.align, block]
            · simp [Request.align, block]

end HundredDays.BumpArena
