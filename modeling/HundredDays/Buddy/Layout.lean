import HundredDays.Data.Dyadic
import HundredDays.Buddy.Headers

namespace HundredDays.Buddy

open HundredDays.Data

/-! The pool as a tiling by blocks: live ones, free ones on the lists, and those that
an operation has in hand. -/

variable {pool low high index : Nat} {alloc after : BuddyAllocator} {lists : Nat → List Nat}
  {tiles live : Set Block} {held : List Block} {block other : Block} {node : Nat}

/-- What no operation changes: where the pool is, and the orders of the smallest and
of the largest block. -/
def BuddyAllocator.shape (alloc : BuddyAllocator) : Nat × Nat × Nat :=
  (alloc.memoryPool, alloc.minOrder, alloc.maxOrder)

theorem shape_listAdd : (listAdd alloc index node).shape = alloc.shape := by
  unfold listAdd
  cases alloc.freeLists index with
  | none =>
      dsimp only
      split <;> rfl
  | some head =>
      dsimp only
      split <;> rfl

theorem shape_listRemove : (listRemove alloc index node).shape = alloc.shape := by
  unfold listRemove
  cases alloc.prev node with
  | none =>
      dsimp only
      split <;> rfl
  | some before =>
      dsimp only
      split <;> rfl

/-- The pool is where memory can be, and its smallest blocks have room for a header. -/
structure Room (pool low high : Nat) : Prop where
  pool_pos : 0 < pool
  pool_end : pool + 2 ^ high ≤ 2 ^ 64
  header : 5 ≤ low
  ordered : low ≤ high
  orders : high - low + 1 ≤ maxOrders

structure Laid (pool low high : Nat) (alloc : BuddyAllocator) (lists : Nat → List Nat) (tiles live : Set Block)
    (held : List Block) : Prop where
  room : Room pool low high
  shape : alloc.shape = (pool, low, high)
  tiling : Tiling high tiles
  minimal : ∀ block ∈ tiles, low ≤ block.order
  liveTiles : live ⊆ tiles
  heldTiles : ∀ block ∈ held, block ∈ tiles ∧ block ∉ live
  distinct : held.Nodup
  threaded : ∀ index ≤ high - low, Threaded alloc index (lists index)
  listed : ∀ index ≤ high - low, ∀ node, node ∈ lists index ↔
    ∃ block ∈ tiles, block ∉ live ∧ block ∉ held ∧ block.order = low + index ∧ node = pool + block.offset
  orders : ∀ block ∈ tiles, alloc.order (pool + block.offset) = block.order
  flags : ∀ block ∈ tiles, alloc.isFree (pool + block.offset) = true ↔ block ∉ live

/-- The tiles that are on the lists. -/
def listedTiles (tiles live : Set Block) (held : List Block) : Set Block :=
  {block | block ∈ tiles ∧ block ∉ live ∧ block ∉ held}

theorem Room.slot (room : Room pool low high) (large : low ≤ block.order)
    (fits : block.offset + block.size ≤ 2 ^ high) : Slot pool (pool + block.offset) := by
  obtain ⟨factor, split⟩ := Nat.exists_eq_add_of_le (Nat.le_trans room.header large)
  have positive := room.pool_pos
  have ending := room.pool_end
  have size := block.size_pos
  refine ⟨block.index * 2 ^ factor, ?_, by omega, by omega⟩
  rw [Block.offset, split, pow_add]
  ring

namespace Laid

theorem slot (laid : Laid pool low high alloc lists tiles live held) (member : block ∈ tiles) :
    Slot pool (pool + block.offset) :=
  laid.room.slot (laid.minimal block member) (laid.tiling.fits member)

/-- No two tiles start at the same place. -/
theorem place_injective (laid : Laid pool low high alloc lists tiles live held) (member : block ∈ tiles)
    (otherMember : other ∈ tiles) (same : pool + block.offset = pool + other.offset) : block = other := by
  have offsets : block.offset = other.offset := Nat.add_left_cancel same
  exact laid.tiling.unique member otherMember Block.covers_offset (offsets ▸ Block.covers_offset)

theorem slots (laid : Laid pool low high alloc lists tiles live held) (small : index ≤ high - low) :
    ∀ node ∈ lists index, Slot pool node := by
  intro node member
  obtain ⟨block, tile, _, _, _, rfl⟩ := (laid.listed index small node).mp member
  exact laid.slot tile

theorem order_le (laid : Laid pool low high alloc lists tiles live held) (member : block ∈ tiles) :
    block.order - low ≤ high - low :=
  Nat.sub_le_sub_right (laid.tiling.order_le member) low

/-- A list holds the blocks of its order only. -/
theorem listed_order (laid : Laid pool low high alloc lists tiles live held) (small : index ≤ high - low)
    (member : block ∈ tiles) (listed : pool + block.offset ∈ lists index) : block.order = low + index := by
  obtain ⟨other, tile, _, _, order, same⟩ := (laid.listed index small _).mp listed
  rw [laid.place_injective member tile same, order]

theorem apart (laid : Laid pool low high alloc lists tiles live held) {otherIndex : Nat}
    (small : index ≤ high - low) (otherSmall : otherIndex ≤ high - low) (differ : otherIndex ≠ index) :
    ∀ node ∈ lists otherIndex, node ∉ lists index := by
  intro node listed also
  obtain ⟨block, member, _, _, order, rfl⟩ := (laid.listed otherIndex otherSmall node).mp listed
  have again := laid.listed_order small member also
  omega

/-- Memory that leaves the headers of the tiles and the lists as they are. -/
theorem congr (laid : Laid pool low high alloc lists tiles live held) (shape : after.shape = alloc.shape)
    (freeLists : after.freeLists = alloc.freeLists)
    (headers : ∀ block ∈ tiles, after.header (pool + block.offset) = alloc.header (pool + block.offset)) :
    Laid pool low high after lists tiles live held where
  room := laid.room
  shape := shape.trans laid.shape
  tiling := laid.tiling
  minimal := laid.minimal
  liveTiles := laid.liveTiles
  heldTiles := laid.heldTiles
  distinct := laid.distinct
  threaded := by
    intro index small
    apply (laid.threaded index small).congr (congrFun freeLists index)
    intro node member
    obtain ⟨block, tile, _, _, _, rfl⟩ := (laid.listed index small node).mp member
    exact ⟨congrArg Header.next (headers block tile), congrArg Header.prev (headers block tile)⟩
  listed := laid.listed
  orders := fun block member => (congrArg Header.order (headers block member)).trans (laid.orders block member)
  flags := by
    intro block member
    rw [← laid.flags block member]
    exact (congrArg Header.isFree (headers block member)).congr_left

/-- `list_remove` takes a block in hand. -/
theorem remove (laid : Laid pool low high alloc lists tiles live held) (member : block ∈ tiles)
    (dead : block ∉ live) (unheld : block ∉ held) :
    ∃ lists, Laid pool low high (listRemove alloc (block.order - low) (pool + block.offset)) lists tiles live
      (block :: held) := by
  have small := laid.order_le member
  have minimal := laid.minimal block member
  have threaded := laid.threaded _ small
  have slots := laid.slots small
  have listed := (laid.listed _ small _).mpr ⟨block, member, dead, unheld, by omega, rfl⟩
  obtain ⟨left, right, split⟩ := List.append_of_mem listed
  rw [split] at threaded slots
  obtain ⟨before, next⟩ := threaded.slots_neighbours slots
  have headers : ∀ other ∈ tiles,
      (listRemove alloc (block.order - low) (pool + block.offset)).order (pool + other.offset) =
        alloc.order (pool + other.offset) ∧
      (listRemove alloc (block.order - low) (pool + block.offset)).isFree (pool + other.offset) =
        alloc.isFree (pool + other.offset) := by
    intro other tile
    have header := header_listRemove (block.order - low) (laid.slot member) (laid.slot tile) before next
    exact ⟨congrArg Header.order header, congrArg Header.isFree header⟩
  refine ⟨Function.update lists (block.order - low) (left ++ right), laid.room, shape_listRemove.trans laid.shape,
    laid.tiling, laid.minimal, laid.liveTiles, ?_, List.nodup_cons.mpr ⟨unheld, laid.distinct⟩, ?_, ?_, ?_, ?_⟩
  · intro other inHand
    obtain rfl | inHand := List.mem_cons.mp inHand
    · exact ⟨member, dead⟩
    · exact laid.heldTiles other inHand
  · intro index low_
    by_cases here : index = block.order - low
    · rw [here, Function.update_self]
      exact threaded.listRemove slots
    · rw [Function.update_of_ne here]
      exact threaded.listRemove_other (laid.threaded index low_) slots (laid.slots low_) here
        (split ▸ laid.apart small low_ here)
  · intro index low_ node
    have others : (∃ other ∈ tiles, other ∉ live ∧ other ∉ block :: held ∧ other.order = low + index ∧
        node = pool + other.offset) ↔ node ∈ lists index ∧ node ≠ pool + block.offset := by
      rw [laid.listed index low_ node]
      constructor
      · intro ⟨other, tile, dead_, unheld_, order, place⟩
        rw [List.mem_cons, not_or] at unheld_
        refine ⟨⟨other, tile, dead_, unheld_.2, order, place⟩, ?_⟩
        intro same
        exact unheld_.1 (laid.place_injective tile member (place.symm.trans same))
      · intro ⟨⟨other, tile, dead_, unheld_, order, place⟩, differs⟩
        refine ⟨other, tile, dead_, ?_, order, place⟩
        rw [List.mem_cons, not_or]
        exact ⟨fun same => differs (same ▸ place), unheld_⟩
    rw [others]
    by_cases here : index = block.order - low
    · have distinct := threaded.nodup
      rw [here, Function.update_self, split, List.mem_append, List.mem_append, List.mem_cons]
      rw [List.nodup_append, List.nodup_cons] at distinct
      constructor
      · intro inside
        refine ⟨inside.imp_right .inr, ?_⟩
        intro same
        obtain inLeft | inRight := inside
        · exact distinct.2.2 node inLeft _ List.mem_cons_self same
        · exact distinct.2.1.1 (same ▸ inRight)
      · intro ⟨inside, differs⟩
        exact inside.imp_right fun rest => rest.resolve_left differs
    · rw [Function.update_of_ne here]
      constructor
      · intro inside
        refine ⟨inside, ?_⟩
        intro same
        have order := laid.listed_order low_ member (same ▸ inside)
        exact here (by rw [order, Nat.add_sub_cancel_left])
      · exact And.left
  · intro other tile
    exact (headers other tile).1.trans (laid.orders other tile)
  · intro other tile
    rw [(headers other tile).2]
    exact laid.flags other tile

end Laid

end HundredDays.Buddy
