import HundredDays.Buddy.Sessions

namespace HundredDays.Buddy

open HundredDays.Data HundredDays.Semantics

/-! The free blocks are the largest ones that the live blocks leave room for. -/

variable {pool low high index : Nat} {alloc : BuddyAllocator} {lists : Nat → List Nat} {tiles live : Set Block}
  {block : Block} {session : Session} {nodes others : List Nat}

/-- A pointer leads behind its header. -/
def LiveBlock (pool : Nat) (session : Session) (block : Block) : Prop :=
  pool + block.offset + headerSize ∈ session.pointers ∧ session.alloc.order (pool + block.offset) = block.order

/-- A list has one content. -/
theorem Threaded.unique (first : Threaded alloc index nodes) (second : Threaded alloc index others) : nodes = others := by
  have chain := second.segment.chain
  rw [← second.head, first.head] at chain
  exact Chain.unique first.segment.chain chain

theorem eq_of_place {other : Block} (order : other.order = block.order)
    (place : pool + other.offset = pool + block.offset) : other = block :=
  Block.eq_of_covers order Block.covers_offset (Nat.add_left_cancel place ▸ Block.covers_offset)

namespace Kept

theorem liveBlock_iff (kept : Kept pool low high session lists tiles live) :
    LiveBlock pool session block ↔ block ∈ live := by
  constructor
  · rintro ⟨listed, order⟩
    obtain ⟨other, alive, same⟩ := (kept.pointers _).mp listed
    have place := Nat.add_right_cancel same
    have orders := kept.laid.orders other (kept.laid.liveTiles alive)
    rw [← place, order] at orders
    exact eq_of_place orders.symm place.symm ▸ alive
  · intro alive
    exact ⟨(kept.pointers _).mpr ⟨block, alive, rfl⟩, kept.laid.orders block (kept.laid.liveTiles alive)⟩

/-- Without pointers one block is left. -/
theorem whole (kept : Kept pool low high session lists tiles live) (none : session.pointers = []) :
    tiles = {⟨high, 0⟩} ∧ live = ∅ := by
  have dead : live = ∅ := by
    apply Set.eq_empty_of_forall_notMem
    intro block alive
    have listed := (kept.pointers _).mpr ⟨block, alive, rfl⟩
    rw [none] at listed
    cases listed
  refine ⟨kept.laid.tiling.unused_root (kept.unpaired.subset fun block tile => ?_), dead⟩
  exact ⟨tile, by rw [dead]; exact Set.notMem_empty block, List.not_mem_nil⟩

end Kept

end HundredDays.Buddy
