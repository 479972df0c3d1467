import HundredDays.Buddy.Moves

namespace HundredDays.Buddy

open HundredDays.Data

/-! The loops of the allocator: splitting down to an order, and merging upwards.

Both keep the blocks that are on the lists unpaired: splitting lists the upper half
while the lower one is in hand, and merging stops only at a block whose buddy is not
listed.
-/

variable {pool low high : Nat} {alloc : BuddyAllocator} {lists : Nat → List Nat} {tiles live : Set Block}
  {held : List Block} {block : Block}

theorem Laid.shapes (laid : Laid pool low high alloc lists tiles live held) :
    alloc.memoryPool = pool ∧ alloc.minOrder = low ∧ alloc.maxOrder = high := by
  simpa [BuddyAllocator.shape] using laid.shape

theorem order_setOrder {node order : Nat} (small : order < 256) : (alloc.setOrder node order).order node = order := by
  simp only [BuddyAllocator.order, BuddyAllocator.setOrder, BuddyAllocator.setByte, Function.update_self,
    UInt8.toNat_ofNat']
  exact Nat.mod_eq_of_lt small

theorem splitFrom_laid (target steps : Nat) (laid : Laid pool low high alloc lists tiles live (block :: held))
    (order : block.order = low + target + steps) (unpaired : Unpaired (listedTiles tiles live (block :: held))) :
    ∃ lists tiles part, Laid pool low high (splitFrom alloc (pool + block.offset) target steps) lists tiles live
      (part :: held) ∧ part.offset = block.offset ∧ part.order = low + target ∧
      Unpaired (listedTiles tiles live (part :: held)) := by
  induction steps generalizing alloc lists tiles block with
  | zero => exact ⟨lists, tiles, block, laid, rfl, order, unpaired⟩
  | succ steps ih =>
      obtain ⟨member, dead⟩ := laid.heldTiles block List.mem_cons_self
      have small := laid.order_lt member
      have positive : 0 < block.order := by omega
      have start : block.lower.offset = block.offset := Block.offset_lower positive
      have middle : pool + block.upper.offset = pool + block.offset + 2 ^ (block.order - 1) := by
        rw [Block.offset_upper, start]
        omega
      have halved := laid.split (by omega)
      obtain ⟨lists, listed⟩ := halved.add
      have rest : block.upper.order - low = target + steps := by
        simp only [Block.upper]
        omega
      have unrolled : splitFrom alloc (pool + block.offset) target (steps + 1) = splitFrom
          (listAdd (((alloc.setOrder (pool + block.offset) (block.order - 1)).setOrder (pool + block.upper.offset)
            (block.order - 1)).setFree (pool + block.upper.offset) true) (block.upper.order - low)
            (pool + block.upper.offset)) (pool + block.lower.offset) target steps := by
        rw [splitFrom, laid.orders block member, order_setOrder (by omega), ← middle, rest, start]
      rw [unrolled]
      have alone : Unpaired (listedTiles (tiles \ {block} ∪ {block.lower, block.upper}) live (block.lower :: held)) := by
        have buddy : block.upper.buddy = block.lower := by rw [← Block.buddy_lower, Block.buddy_buddy]
        have lower := (laid.tiling.halves_not_mem member positive).1
        refine (unpaired.insert fun listed : block.upper.buddy ∈ _ => lower (buddy ▸ listed.1)).subset ?_
        rintro other ⟨⟨tile, differs⟩ | rfl | rfl, free, unheld⟩
        · rw [List.mem_cons, not_or] at unheld
          exact .inr ⟨tile, free, by simp [Set.mem_singleton_iff.not.mp differs, unheld.2]⟩
        · simp at unheld
        · exact .inl rfl
      obtain ⟨lists, tiles, part, split, offset, orders, unpaired⟩ := ih listed (by simp only [Block.lower]; omega) alone
      exact ⟨lists, tiles, part, split, offset.trans start, orders, unpaired⟩

/-- A largest block has no buddy in the pool. -/
theorem buddy_of_top (tiling : Tiling high tiles) (member : block ∈ tiles) (top : block.order = high) :
    block.buddy ∉ tiles := by
  intro tile
  have first := tiling.fits member
  have second := tiling.fits tile
  simp only [Block.size, Block.order_buddy, top] at first second
  have same : block.offset = block.buddy.offset := by omega
  exact Block.buddy_ne (tiling.unique tile member Block.covers_offset (same ▸ Block.covers_offset))

theorem unpaired_add (unpaired : Unpaired (listedTiles tiles live (block :: held)))
    (alone : block.buddy ∉ listedTiles tiles live (block :: held)) : Unpaired (listedTiles tiles live held) := by
  refine (unpaired.insert alone).subset ?_
  rintro other ⟨tile, free, unheld⟩
  by_cases same : other = block
  · exact .inl same
  · exact .inr ⟨tile, free, by simp [same, unheld]⟩

/-- The address that merging looks at is that of a tile. -/
theorem Laid.buddy_place {tile : Block} (start : tile.offset = block.buddy.offset) :
    pool + (block.offset ^^^ 2 ^ block.order) = pool + tile.offset := by
  rw [start, Block.offset_buddy]

/-- One pass that finds the buddy free. -/
theorem Laid.mergeFrom_free {shorter : Nat → List Nat} (steps : Nat)
    (laid : Laid pool low high alloc lists tiles live held) (member : block ∈ tiles)
    (isTile : block.buddy ∈ tiles) (free : block.buddy ∉ live) (below : block.order < high)
    (removed : Laid pool low high (listRemove alloc (block.order - low) (pool + block.buddy.offset)) shorter tiles live
      (block.buddy :: held)) :
    mergeFrom alloc (pool + block.offset) (block.order - low) (steps + 1) =
      mergeFrom ((listRemove alloc (block.order - low) (pool + block.buddy.offset)).setOrder
        (pool + block.parent.offset) (block.order + 1)) (pool + block.parent.offset)
        (block.parent.order - low) steps ∧
      mergeIndices alloc (pool + block.offset) (block.order - low) (steps + 1) = (block.order - low) ::
        mergeIndices ((listRemove alloc (block.order - low) (pool + block.buddy.offset)).setOrder
          (pool + block.parent.offset) (block.order + 1)) (pool + block.parent.offset)
          (block.parent.order - low) steps := by
  obtain ⟨atPool, _, largest⟩ := laid.shapes
  have order := laid.orders block member
  have minimal := laid.minimal block member
  have offset : pool + block.offset - pool = block.offset := Nat.add_sub_cancel_left ..
  have place : pool + (block.offset ^^^ 2 ^ block.order) = pool + block.buddy.offset := buddy_place rfl
  have accepted : ¬ (!alloc.isFree (pool + block.buddy.offset) ∨
      alloc.order (pool + block.buddy.offset) ≠ block.order) := by
    rw [laid.orders _ isTile, (laid.flags _ isTile).mpr free]
    simp
  have first : (if pool + block.buddy.offset < pool + block.offset then pool + block.buddy.offset
      else pool + block.offset) = pool + block.parent.offset := by
    rw [Block.offset_parent]
    split <;> omega
  have parentOrder : (listRemove alloc (block.order - low) (pool + block.buddy.offset)).order
      (pool + block.parent.offset) = block.order := by
    have choice : block.parent.offset = block.offset ∨ block.parent.offset = block.buddy.offset := by
      rw [Block.offset_parent]
      exact min_choice ..
    obtain same | same := choice <;> rw [same]
    · exact removed.orders block member
    · exact removed.orders block.buddy isTile
  have next : block.order - low + 1 = block.parent.order - low := by
    simp only [Block.parent]
    omega
  rw [mergeFrom, mergeIndices]
  simp only [atPool, largest, order, offset, place]
  rw [if_pos below, if_neg accepted, first, parentOrder, next, if_pos below, if_neg accepted]
  exact ⟨rfl, rfl⟩

/-- One pass that finds another tile than a free buddy, and stops. -/
theorem Laid.mergeFrom_refused {tile : Block} (steps : Nat) (laid : Laid pool low high alloc lists tiles live held)
    (member : block ∈ tiles) (isTile : tile ∈ tiles) (start : tile.offset = block.buddy.offset)
    (below : block.order < high) (unmergeable : ¬ (tile ∉ live ∧ tile.order = block.order)) :
    mergeFrom alloc (pool + block.offset) (block.order - low) (steps + 1) =
        some (listAdd alloc (block.order - low) (pool + block.offset)) ∧
      mergeIndices alloc (pool + block.offset) (block.order - low) (steps + 1) = [block.order - low] := by
  obtain ⟨atPool, _, largest⟩ := laid.shapes
  have order := laid.orders block member
  have offset : pool + block.offset - pool = block.offset := Nat.add_sub_cancel_left ..
  have refused : !alloc.isFree (pool + tile.offset) ∨ alloc.order (pool + tile.offset) ≠ block.order := by
    rw [laid.orders tile isTile]
    by_cases alive : tile ∈ live
    · left
      have marked := (laid.flags tile isTile).not.mpr (not_not.mpr alive)
      simpa using marked
    · exact .inr fun same => unmergeable ⟨alive, same⟩
  rw [mergeFrom, mergeIndices]
  simp only [atPool, largest, order, offset, buddy_place start]
  rw [if_pos below, if_pos refused, if_pos below, if_pos refused]
  exact ⟨rfl, rfl⟩

/-- A block of the largest order is not merged. -/
theorem Laid.mergeFrom_top (steps : Nat) (laid : Laid pool low high alloc lists tiles live held)
    (member : block ∈ tiles) (top : ¬ block.order < high) :
    mergeFrom alloc (pool + block.offset) (block.order - low) (steps + 1) =
        some (listAdd alloc (block.order - low) (pool + block.offset)) ∧
      mergeIndices alloc (pool + block.offset) (block.order - low) (steps + 1) = [block.order - low] := by
  rw [mergeFrom, mergeIndices, laid.orders block member, laid.shapes.2.2, if_neg top, if_neg top]
  exact ⟨rfl, rfl⟩

theorem mergeFrom_laid (steps : Nat) (laid : Laid pool low high alloc lists tiles live [block])
    (enough : high - block.order < steps) (unpaired : Unpaired (listedTiles tiles live [block])) :
    ∃ after lists tiles, mergeFrom alloc (pool + block.offset) (block.order - low) steps = some after ∧
      Laid pool low high after lists tiles live [] ∧ Unpaired (listedTiles tiles live []) ∧
      ∀ index ∈ mergeIndices alloc (pool + block.offset) (block.order - low) steps, index ≤ high - low := by
  induction steps generalizing alloc lists tiles block with
  | zero => omega
  | succ steps ih =>
      obtain ⟨member, dead⟩ := laid.heldTiles block List.mem_cons_self
      have most := laid.order_le member
      by_cases below : block.order < high
      · obtain ⟨tile, isTile, start, smaller⟩ := laid.tiling.tile_at_buddy member below
        by_cases mergeable : tile ∉ live ∧ tile.order = block.order
        · -- the header at the buddy's address is that of a free block as large
          have isBuddy : tile = block.buddy := by
            have sameOrder : tile.order = block.buddy.order := mergeable.2
            refine Block.eq_of_covers sameOrder Block.covers_offset ?_
            rw [start]
            exact Block.covers_offset
          subst isBuddy
          obtain ⟨lists, removed⟩ := laid.remove isTile mergeable.1 (by simp [Block.buddy_ne])
          have merged := removed.merge
          obtain ⟨continues, visited⟩ := laid.mergeFrom_free steps member isTile mergeable.1 below removed
          rw [continues, visited]
          simp only [List.forall_mem_cons, most, true_and]
          refine ih merged ?_ (unpaired.subset ?_)
          · simp only [Block.parent]
            omega
          · rintro other ⟨⟨tile, differs⟩ | rfl, free, unheld⟩
            · refine ⟨tile, free, ?_⟩
              simp only [Set.mem_insert_iff, not_or] at differs
              simpa using differs.1
            · simp at unheld
        · obtain ⟨stops, visited⟩ := laid.mergeFrom_refused steps member isTile start below mergeable
          obtain ⟨lists, listed⟩ := laid.add
          refine ⟨_, lists, tiles, stops, listed, unpaired_add unpaired fun paired => mergeable ?_,
            by simpa [visited] using most⟩
          have same : tile = block.buddy := laid.place_injective isTile paired.1 (by rw [start])
          rw [same]
          exact ⟨paired.2.1, rfl⟩
      · obtain ⟨stops, visited⟩ := laid.mergeFrom_top steps member below
        obtain ⟨lists, listed⟩ := laid.add
        have top : block.order = high := by
          have bound := laid.tiling.order_le member
          omega
        refine ⟨_, lists, tiles, stops, listed, unpaired_add unpaired fun paired => ?_, by simpa [visited] using most⟩
        exact buddy_of_top laid.tiling member top paired.1

/-- The search passes empty lists only, and stops at one that is not empty or beyond the last one. -/
theorem firstListFrom_spec (steps currentIdx : Nat) :
    currentIdx ≤ firstListFrom alloc steps currentIdx ∧
      (∀ index, currentIdx ≤ index → index < firstListFrom alloc steps currentIdx → alloc.freeLists index = none) ∧
      (firstListFrom alloc steps currentIdx < alloc.orders → firstListFrom alloc steps currentIdx < currentIdx + steps →
        alloc.freeLists (firstListFrom alloc steps currentIdx) ≠ none) := by
  induction steps generalizing currentIdx with
  | zero => exact ⟨le_rfl, fun index above below => by rw [firstListFrom] at below; omega,
      fun _ below => absurd below (lt_irrefl _)⟩
  | succ steps ih =>
      rw [firstListFrom]
      split
      · rename_i goes
        obtain ⟨later, passed, found⟩ := ih (currentIdx + 1)
        refine ⟨by omega, fun index above below => ?_, fun inside below => found inside (by omega)⟩
        by_cases here : index = currentIdx
        · rw [here, goes.2]
        · exact passed index (by omega) below
      · rename_i stops
        exact ⟨le_rfl, fun index above below => absurd below (by omega), fun inside _ empty => stops ⟨inside, empty⟩⟩

/-- The order of the block that a request of this rounded size gets. -/
def BuddyAllocator.reqOrder (alloc : BuddyAllocator) (ceil : Nat) : Nat := max alloc.minOrder ceil

/-- There is no block on the lists from this order on. -/
def BuddyAllocator.Exhausted (alloc : BuddyAllocator) (order : Nat) : Prop :=
  alloc.maxOrder < order ∨
    ∀ index, order - alloc.minOrder ≤ index → index ≤ alloc.maxOrder - alloc.minOrder → alloc.freeLists index = none

/-- What `buddy_alloc` does once the size is rounded: nothing, or it splits a block from a list. -/
theorem buddyAlloc_cases {size ceil : Nat} (rounded : log2Ceil ((size + headerSize) % 2 ^ 64) = some ceil) :
    (alloc.Exhausted (alloc.reqOrder ceil) ∧ buddyAlloc alloc size = some (none, alloc)) ∨
      ∃ currentIdx node, alloc.reqOrder ceil ≤ alloc.maxOrder ∧
        alloc.reqOrder ceil - alloc.minOrder ≤ currentIdx ∧ currentIdx ≤ alloc.maxOrder - alloc.minOrder ∧
        alloc.freeLists currentIdx = some node ∧ buddyAlloc alloc size = some (some (node + headerSize),
          (splitFrom (listRemove alloc currentIdx node) node (alloc.reqOrder ceil - alloc.minOrder)
            (currentIdx - (alloc.reqOrder ceil - alloc.minOrder))).setFree node false) := by
  have larger : (if ceil < alloc.minOrder then alloc.minOrder else ceil) = alloc.reqOrder ceil := by
    rw [BuddyAllocator.reqOrder]
    split <;> omega
  have above : alloc.minOrder ≤ alloc.reqOrder ceil := Nat.le_max_left ..
  simp only [buddyAlloc, rounded, Option.bind_eq_bind, Option.bind_some, larger]
  by_cases fits : alloc.reqOrder ceil > alloc.maxOrder
  · exact .inl ⟨.inl fits, if_pos fits⟩
  obtain ⟨later, passed, found⟩ :=
    @firstListFrom_spec alloc alloc.orders (alloc.reqOrder ceil - alloc.minOrder)
  rw [if_neg fits]
  by_cases inside : firstListFrom alloc alloc.orders (alloc.reqOrder ceil - alloc.minOrder) >
      alloc.maxOrder - alloc.minOrder
  · exact .inl ⟨.inr fun index least most => passed index least (by omega), if_pos inside⟩
  · have count : alloc.orders = alloc.maxOrder - alloc.minOrder + 1 := rfl
    have filled := found (by omega) (by omega)
    obtain ⟨node, head⟩ := Option.ne_none_iff_exists'.mp filled
    refine .inr ⟨_, node, by omega, later, by omega, head, ?_⟩
    rw [if_neg inside, head]
    rfl

/-- A block from a list, split down to an order, becomes live. -/
theorem Laid.give {currentIdx node order : Nat} (laid : Laid pool low high alloc lists tiles live [])
    (unpaired : Unpaired (listedTiles tiles live [])) (above : low ≤ order) (later : order - low ≤ currentIdx)
    (small : currentIdx ≤ high - low) (head : alloc.freeLists currentIdx = some node) :
    ∃ block lists tiles, node = pool + block.offset ∧ block ∉ live ∧ block.order = order ∧
      Laid pool low high ((splitFrom (listRemove alloc currentIdx node) node (order - low)
        (currentIdx - (order - low))).setFree node false) lists tiles (insert block live) [] ∧
      Unpaired (listedTiles tiles (insert block live) []) := by
  have first : node ∈ lists currentIdx := by
    rw [(laid.threaded currentIdx small).head] at head
    exact List.mem_of_head? head
  obtain ⟨block, member, dead, unheld, placed, rfl⟩ := (laid.listed currentIdx small node).mp first
  obtain ⟨lists, removed⟩ := laid.remove member dead unheld
  have fewer : Unpaired (listedTiles tiles live [block]) :=
    unpaired.subset fun other listed => ⟨listed.1, listed.2.1, List.not_mem_nil⟩
  have index : block.order - low = currentIdx := by omega
  rw [index] at removed
  obtain ⟨lists, tiles, part, split, offset, sized, alone⟩ :=
    splitFrom_laid (order - low) (currentIdx - (order - low)) removed (by omega) fewer
  have taken := split.take
  rw [offset] at taken
  refine ⟨part, lists, tiles, by rw [offset], (split.heldTiles part List.mem_cons_self).2, by omega, taken,
    alone.subset ?_⟩
  rintro other ⟨tile, free, _⟩
  rw [Set.mem_insert_iff, not_or] at free
  exact ⟨tile, free.2, by simpa using free.1⟩

/-- The lists from an order on are empty when no block of that order is free. -/
theorem Laid.exhausted_iff {order : Nat} (laid : Laid pool low high alloc lists tiles live []) :
    alloc.Exhausted order ↔ ∀ block ∈ tiles, block ∉ live → block.order < order := by
  obtain ⟨_, smallest, largest⟩ := laid.shapes
  rw [BuddyAllocator.Exhausted, smallest, largest]
  constructor
  · intro exhausted block member dead
    have minimal := laid.minimal block member
    have most := laid.order_le member
    have inPool := laid.tiling.order_le member
    have listed := (laid.listed _ most _).mpr ⟨block, member, dead, List.not_mem_nil, by omega, rfl⟩
    cases exhausted with
    | inl beyond => omega
    | inr empty =>
        by_contra large
        have none := empty (block.order - low) (by omega) most
        rw [(laid.threaded _ most).head, List.head?_eq_none_iff] at none
        rw [none] at listed
        cases listed
  · intro small
    right
    intro index above most
    rw [(laid.threaded index most).head, List.head?_eq_none_iff, List.eq_nil_iff_forall_not_mem]
    intro node listed
    obtain ⟨block, member, dead, _, order, _⟩ := (laid.listed index most node).mp listed
    have less := small block member dead
    omega

/-- `buddy_alloc` leaves everything as it was, or hands out one more block, of the order that was asked for. -/
theorem buddyAlloc_laid {size ceil : Nat} {result : Option Nat} {after : BuddyAllocator}
    (laid : Laid pool low high alloc lists tiles live []) (unpaired : Unpaired (listedTiles tiles live []))
    (rounded : log2Ceil ((size + headerSize) % 2 ^ 64) = some ceil)
    (returned : buddyAlloc alloc size = some (result, after)) :
    (result = none ∧ after = alloc ∧ ∀ block ∈ tiles, block ∉ live → block.order < max low ceil) ∨
      ∃ block lists tiles, result = some (pool + block.offset + headerSize) ∧ block ∉ live ∧
        block.order = max low ceil ∧ Laid pool low high after lists tiles (insert block live) [] ∧
        Unpaired (listedTiles tiles (insert block live) []) := by
  obtain ⟨_, smallest, largest⟩ := laid.shapes
  have asked : alloc.reqOrder ceil = max low ceil := by rw [BuddyAllocator.reqOrder, smallest]
  rcases @buddyAlloc_cases alloc size ceil rounded with ⟨exhausted, refused⟩ | ⟨currentIdx, node, fits, later, small, head, given⟩
  · cases refused.symm.trans returned
    rw [asked] at exhausted
    exact .inl ⟨rfl, rfl, laid.exhausted_iff.mp exhausted⟩
  · cases given.symm.trans returned
    rw [asked, smallest] at later
    rw [smallest, largest] at small
    rw [asked, smallest]
    obtain ⟨block, lists, tiles, rfl, dead, order, given, alone⟩ :=
      laid.give unpaired (Nat.le_max_left low ceil) later small head
    exact .inr ⟨block, lists, tiles, rfl, dead, order, given, alone⟩

end HundredDays.Buddy
