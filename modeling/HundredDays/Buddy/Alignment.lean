import HundredDays.Buddy.Exhaustion

namespace HundredDays.Buddy

open HundredDays.Data HundredDays.Semantics

/-! The class template `BuddyAllocator<T>`, and what its storage is aligned for. -/

variable {pool low high sizeT n ptr : Nat} {session : Session} {after : BuddyAllocator} {lists : Nat → List Nat}
  {tiles live : Set Block}

inductive Thrown where
  | badAlloc

/-- `BuddyAllocator<T>::allocate`, where a `T` takes this many bytes. -/
def allocate (rawAlloc : BuddyAllocator) (sizeT n : Nat) : Option (Except Thrown Nat × BuddyAllocator) :=
  (buddyAlloc rawAlloc (n * sizeT % 2 ^ 64)).map fun returned =>
    match returned.1 with
    | some p => (.ok p, returned.2)
    | none => (.error .badAlloc, returned.2)

theorem allocate_returns (returned : allocate session.alloc sizeT n = some (.ok ptr, after)) :
    buddyAlloc session.alloc (n * sizeT % 2 ^ 64) = some (some ptr, after) := by
  obtain ⟨⟨result, other⟩, raw, same⟩ := Option.map_eq_some_iff.mp returned
  cases result with
  | none => cases same
  | some p =>
      cases same
      exact raw

/-- A payload starts 24 bytes behind a multiple of 32. -/
theorem Kept.payload_mod (kept : Kept pool low high session lists tiles live) (base : pool % 16 = 0)
    {size : Nat} (returned : buddyAlloc session.alloc size = some (some ptr, after)) : ptr % 16 = 8 := by
  obtain ⟨ceil, rounded, _⟩ := Option.bind_eq_some_iff.mp returned
  have header := kept.laid.room.header
  rcases kept.alloc rounded with ⟨_, refused⟩ | ⟨block, other, _, order, _, _, given⟩
  · cases refused.symm.trans returned
  · cases given.symm.trans returned
    obtain ⟨factor, split⟩ := Nat.exists_eq_add_of_le (show 5 ≤ block.order by omega)
    have start : block.offset = 32 * (block.index * 2 ^ factor) := by
      rw [Block.offset, split, pow_add]
      ring
    simp only [headerSize]
    omega

/-- A fresh pool returns storage for what fits. -/
theorem Kept.allocate_fresh (kept : Kept pool low high session lists tiles live) (none : session.pointers = [])
    (fits : n * sizeT + headerSize ≤ 2 ^ high) : ∃ ptr after, allocate session.alloc sizeT n = some (.ok ptr, after) := by
  have top : 2 ^ high ≤ 2 ^ 63 := Nat.pow_le_pow_right (by decide) (Nat.le_of_lt_succ kept.laid.room.high_lt)
  have ordered := kept.laid.room.ordered
  have size : n * sizeT % 2 ^ 64 = n * sizeT := Nat.mod_eq_of_lt (by omega)
  have total : (n * sizeT % 2 ^ 64 + headerSize) % 2 ^ 64 = n * sizeT + headerSize := by
    rw [size]
    exact Nat.mod_eq_of_lt (by omega)
  have small : Nat.clog 2 (n * sizeT + headerSize) ≤ high := Nat.clog_le_of_le_pow fits
  have rounded : log2Ceil ((n * sizeT % 2 ^ 64 + headerSize) % 2 ^ 64) = some (Nat.clog 2 (n * sizeT + headerSize)) := by
    rw [total, log2Ceil_clog (by omega)]
  rcases kept.alloc rounded with ⟨crowded, _⟩ | ⟨block, after, _, _, _, _, given⟩
  · have beyond := (crowded_empty_iff none).mp crowded
    omega
  · refine ⟨pool + block.offset + headerSize, after, ?_⟩
    rw [allocate, given]
    rfl

/-- An element type is aligned in what `allocate` returns exactly when its alignment is at most 8. -/
theorem allocate_aligned_iff (pool low high : Nat) (room : Room pool low high) (base : pool % 16 = 0)
    (memory : Nat → UInt8) (alloc : BuddyAllocator) (created : buddyInit memory pool (2 ^ high) (2 ^ low) = some alloc)
    (calls : List Call) (session : Session) (completed : run Session.step { alloc, pointers := [] } calls = some session)
    (sizeT alignT n ptr : Nat) (natural : alignT ∣ 16) (after : BuddyAllocator)
    (returned : allocate session.alloc sizeT n = some (.ok ptr, after)) : alignT ∣ ptr ↔ alignT ≤ 8 := by
  obtain ⟨other, made, reaches⟩ := run_kept room memory
  cases made.symm.trans created
  obtain ⟨lists, tiles, live, kept⟩ := reaches calls session completed
  have residue := kept.payload_mod base (allocate_returns returned)
  have split : ptr = 16 * (ptr / 16) + 8 := by omega
  have divides : alignT ∣ ptr ↔ alignT ∣ 8 := by
    rw [split]
    exact Nat.dvd_add_right (natural.mul_right _)
  have few : ∀ align ≤ 16, align ∣ 16 → (align ∣ 8 ↔ align ≤ 8) := by decide
  exact divides.trans (few alignT (Nat.le_of_dvd (by decide) natural) natural)

theorem allocate_aligned_iff_int : ∃ alloc ptr after, buddyInit (fun _ => 0) 4096 (2 ^ 10) (2 ^ 5) = some alloc ∧
    allocate alloc 4 3 = some (.ok ptr, after) ∧ (4 ∣ ptr ↔ 4 ≤ 8) := by
  have room : Room 4096 5 10 := ⟨by decide, by decide, by decide, by decide, by decide⟩
  obtain ⟨alloc, created, reaches⟩ := run_kept room fun _ => 0
  obtain ⟨lists, tiles, live, kept⟩ := reaches [] _ rfl
  obtain ⟨ptr, after, returned⟩ := kept.allocate_fresh rfl (by decide : 3 * 4 + headerSize ≤ 2 ^ 10)
  exact ⟨alloc, ptr, after, created, returned, allocate_aligned_iff 4096 5 10 room (by decide) _ alloc created [] _ rfl
    4 4 3 ptr (by decide) after returned⟩

/-- A `long double` of 16 bytes, aligned to 16, is 8 bytes off. -/
theorem allocate_misaligned : ∃ alloc ptr after, buddyInit (fun _ => 0) 4096 (2 ^ 10) (2 ^ 5) = some alloc ∧
    4096 % 16 = 0 ∧ 16 ∣ 16 ∧ allocate alloc 16 1 = some (.ok ptr, after) ∧ ¬ 16 ∣ ptr := by
  have room : Room 4096 5 10 := ⟨by decide, by decide, by decide, by decide, by decide⟩
  obtain ⟨alloc, created, reaches⟩ := run_kept room fun _ => 0
  obtain ⟨lists, tiles, live, kept⟩ := reaches [] _ rfl
  obtain ⟨ptr, after, returned⟩ := kept.allocate_fresh rfl (by decide : 1 * 16 + headerSize ≤ 2 ^ 10)
  have residue := kept.payload_mod (by decide) (allocate_returns returned)
  exact ⟨alloc, ptr, after, created, by decide, by decide, returned, by omega⟩

end HundredDays.Buddy
