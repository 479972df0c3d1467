import HundredDays.Buddy.Coalescing

namespace HundredDays.Buddy

open HundredDays.Data HundredDays.Semantics

/-! An allocation fails only when no region of its size is without a live block. -/

variable {pool low high order size ceil : Nat} {lists : Nat → List Nat} {tiles live : Set Block} {block : Block}
  {session : Session}

/-- Every naturally aligned region of `2 ^ order` bytes of the pool overlaps a live block. -/
def Crowded (pool high : Nat) (session : Session) (order : Nat) : Prop :=
  ∀ region : Block, region.order = order → region.offset + region.size ≤ 2 ^ high →
    ∃ block, LiveBlock pool session block ∧ ∃ point, region.Covers point ∧ block.Covers point

theorem inside_iff {top : Nat} :
    (∀ point, block.Covers point → point < 2 ^ top) ↔ block.offset + block.size ≤ 2 ^ top := by
  have positive := block.size_pos
  constructor
  · intro inside
    have last := inside (block.offset + block.size - 1) (Block.covers_iff.mpr (by omega))
    omega
  · intro fits point covers
    have bounds := Block.covers_iff.mp covers
    omega

/-- Without pointers every region of the pool is free. -/
theorem crowded_empty_iff (none : session.pointers = []) : Crowded pool high session order ↔ high < order := by
  constructor
  · intro crowded
    by_contra small
    have fits : 2 ^ order ≤ 2 ^ high := Nat.pow_le_pow_right (by decide) (by omega)
    obtain ⟨block, alive, _⟩ := crowded ⟨order, 0⟩ rfl (by simpa [Block.offset, Block.size] using fits)
    have listed := alive.1
    rw [none] at listed
    cases listed
  · intro beyond region same fits
    have large : 2 ^ high < 2 ^ order := Nat.pow_lt_pow_right (by decide) beyond
    rw [Block.size, same] at fits
    omega

namespace Kept

theorem crowded_iff (kept : Kept pool low high session lists tiles live) :
    Crowded pool high session order ↔ ∀ tile ∈ tiles, tile ∉ live → tile.order < order := by
  have unpaired : Unpaired (tiles \ live) :=
    kept.unpaired.subset fun block unused => ⟨unused.1, unused.2, List.not_mem_nil⟩
  have gaps : (∃ tile ∈ tiles, tile ∉ live ∧ order ≤ tile.order) ↔ _ :=
    kept.laid.tiling.exists_unused_iff unpaired kept.laid.liveTiles
  constructor
  · intro crowded tile member dead
    by_contra large
    obtain ⟨region, sameOrder, inside, gap⟩ := gaps.mp ⟨tile, member, dead, by omega⟩
    obtain ⟨block, alive, point, first, second⟩ := crowded region sameOrder (inside_iff.mp inside)
    exact gap block (kept.liveBlock_iff.mp alive) point first second
  · intro small region sameOrder fits
    by_contra apart
    have gap : Gap live region := fun block alive point first second =>
      apart ⟨block, kept.liveBlock_iff.mpr alive, point, first, second⟩
    obtain ⟨tile, member, dead, large⟩ := gaps.mpr ⟨region, sameOrder, inside_iff.mpr fits, gap⟩
    exact absurd (small tile member dead) (by omega)

/-- What a call with a size that can be rounded does. -/
theorem alloc (kept : Kept pool low high session lists tiles live)
    (rounded : log2Ceil ((size + headerSize) % 2 ^ 64) = some ceil) :
    (Crowded pool high session (max low ceil) ∧ buddyAlloc session.alloc size = some (none, session.alloc)) ∨
      ∃ (block : Block) (after : BuddyAllocator), ¬ Crowded pool high session (max low ceil) ∧ block.order = max low ceil ∧
        after.order (pool + block.offset) = block.order ∧ block.offset + block.size ≤ 2 ^ high ∧
        buddyAlloc session.alloc size = some (some (pool + block.offset + headerSize), after) := by
  have returns : ∃ result after, buddyAlloc session.alloc size = some (result, after) := by
    rcases @buddyAlloc_cases session.alloc size ceil rounded with ⟨_, refused⟩ | ⟨_, _, _, _, _, _, given⟩
    · exact ⟨_, _, refused⟩
    · exact ⟨_, _, given⟩
  obtain ⟨result, after, returned⟩ := returns
  rcases buddyAlloc_laid kept.laid kept.unpaired rounded returned with
    ⟨rfl, rfl, small⟩ | ⟨block, lists, tiles, rfl, dead, order, laid, _⟩
  · exact .inl ⟨kept.crowded_iff.mpr small, returned⟩
  · have member := laid.liveTiles (Set.mem_insert block live)
    refine .inr ⟨block, after, fun crowded => ?_, order, laid.orders block member, laid.tiling.fits member, returned⟩
    obtain ⟨other, alive, point, first, second⟩ := crowded block order (laid.tiling.fits member)
    have listed := kept.liveBlock_iff.mp alive
    have same := laid.tiling.unique member (laid.liveTiles (Set.mem_insert_of_mem block listed)) first second
    exact dead (same ▸ listed)

end Kept

/-- In every state that is reached a request fails exactly when each region that could serve it overlaps a live
block; then nothing changes, and else the block has the order that was asked for. -/
theorem alloc_fails_iff_crowded (pool low high : Nat) (room : Room pool low high) (memory : Nat → UInt8) : ∃ alloc,
    buddyInit memory pool (2 ^ high) (2 ^ low) = some alloc ∧ ∀ (calls : List Call) (session : Session),
      run Session.step { alloc, pointers := [] } calls = some session → ∀ size, size + headerSize ≤ 2 ^ 63 →
        ∃ result after, buddyAlloc session.alloc size = some (result, after) ∧
          (result = none ↔ Crowded pool high session (max low (Nat.clog 2 (size + headerSize)))) ∧
          (result = none → after = session.alloc) ∧
          ∀ ptr, result = some ptr → after.order (ptr - headerSize) = max low (Nat.clog 2 (size + headerSize)) := by
  obtain ⟨alloc, created, reaches⟩ := run_kept room memory
  refine ⟨alloc, created, fun calls session completed size small => ?_⟩
  obtain ⟨lists, tiles, live, kept⟩ := reaches calls session completed
  have rounded : log2Ceil ((size + headerSize) % 2 ^ 64) = some (Nat.clog 2 (size + headerSize)) := by
    rw [Nat.mod_eq_of_lt (by omega), log2Ceil_clog small]
  rcases kept.alloc rounded with ⟨crowded, refused⟩ | ⟨block, after, spare, order, header, _, given⟩
  · exact ⟨none, session.alloc, refused, iff_of_true rfl crowded, fun _ => rfl, by simp⟩
  · refine ⟨some _, after, given, iff_of_false (by simp) spare, by simp, ?_⟩
    rintro ptr ⟨⟩
    rw [Nat.add_sub_cancel, header, order]

theorem alloc_fails_iff_crowded_kilobyte : ∃ alloc result after,
    buddyInit (fun _ => 0) 4096 (2 ^ 10) (2 ^ 5) = some alloc ∧ buddyAlloc alloc 100 = some (result, after) ∧
      (result = none ↔ Crowded 4096 10 { alloc, pointers := [] } (max 5 (Nat.clog 2 (100 + headerSize)))) := by
  have room : Room 4096 5 10 := ⟨by decide, by decide, by decide, by decide, by decide⟩
  obtain ⟨alloc, created, reaches⟩ := alloc_fails_iff_crowded 4096 5 10 room fun _ => 0
  obtain ⟨result, after, returned, fails, _⟩ := reaches [] _ rfl 100 (by decide)
  exact ⟨alloc, result, after, created, returned, fails⟩

end HundredDays.Buddy
