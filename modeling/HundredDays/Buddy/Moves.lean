import HundredDays.Buddy.Layout

namespace HundredDays.Buddy

open HundredDays.Data

/-! What the allocator does with the blocks it has in hand: split, merge, put on a
list, hand out, and take back. -/

variable {pool low high index : Nat} {alloc after : BuddyAllocator} {lists : Nat → List Nat}
  {tiles live old new : Set Block} {held kept : List Block} {block other : Block} {node : Nat}

namespace Laid

/-- `list_add` lets go of a block. -/
theorem add (laid : Laid pool low high alloc lists tiles live (block :: held)) :
    ∃ lists, Laid pool low high (listAdd alloc (block.order - low) (pool + block.offset)) lists tiles live held := by
  obtain ⟨member, dead⟩ := laid.heldTiles block List.mem_cons_self
  obtain ⟨unheld, distinct⟩ := List.nodup_cons.mp laid.distinct
  have minimal := laid.minimal block member
  have small := laid.order_le member
  have here := laid.slot member
  have threaded := laid.threaded _ small
  have slots := laid.slots small
  have unlisted : ∀ index ≤ high - low, pool + block.offset ∉ lists index := by
    intro index low_ listed
    obtain ⟨other, tile, _, free, _, same⟩ := (laid.listed index low_ _).mp listed
    exact free (laid.place_injective member tile same ▸ List.mem_cons_self)
  have headers : ∀ other ∈ tiles,
      (listAdd alloc (block.order - low) (pool + block.offset)).order (pool + other.offset) =
        alloc.order (pool + other.offset) ∧
      (listAdd alloc (block.order - low) (pool + block.offset)).isFree (pool + other.offset) =
        alloc.isFree (pool + other.offset) := by
    intro other tile
    have header := header_listAdd here (laid.slot tile) (threaded.slots_head slots)
    exact ⟨congrArg Header.order header, congrArg Header.isFree header⟩
  refine ⟨Function.update lists (block.order - low) ((pool + block.offset) :: lists (block.order - low)),
    laid.room, shape_listAdd.trans laid.shape, laid.tiling, laid.minimal, laid.liveTiles, ?_, distinct, ?_, ?_, ?_, ?_⟩
  · intro other inHand
    exact laid.heldTiles other (List.mem_cons_of_mem _ inHand)
  · intro index low_
    by_cases same : index = block.order - low
    · rw [same, Function.update_self]
      exact threaded.listAdd here slots (unlisted _ small)
    · rw [Function.update_of_ne same]
      refine threaded.listAdd_other (laid.threaded index low_) here slots (laid.slots low_) same fun other member => ?_
      exact ⟨fun equal => unlisted index low_ (equal ▸ member), laid.apart small low_ same other member⟩
  · intro index low_ node
    have others : (∃ other ∈ tiles, other ∉ live ∧ other ∉ held ∧ other.order = low + index ∧
        node = pool + other.offset) ↔
        node ∈ lists index ∨ index = block.order - low ∧ node = pool + block.offset := by
      rw [laid.listed index low_ node]
      constructor
      · rintro ⟨other, tile, dead_, unheld_, order, rfl⟩
        by_cases same : other = block
        · subst same
          exact .inr ⟨by omega, rfl⟩
        · exact .inl ⟨other, tile, dead_, by simp [same, unheld_], order, rfl⟩
      · rintro (⟨other, tile, dead_, unheld_, order, rfl⟩ | ⟨rfl, rfl⟩)
        · exact ⟨other, tile, dead_, fun inHand => unheld_ (List.mem_cons_of_mem _ inHand), order, rfl⟩
        · exact ⟨block, member, dead, unheld, by omega, rfl⟩
    rw [others]
    by_cases same : index = block.order - low
    · rw [same, Function.update_self, List.mem_cons, or_comm]
      simp
    · rw [Function.update_of_ne same]
      simp [same]
  · intro other tile
    exact (headers other tile).1.trans (laid.orders other tile)
  · intro other tile
    rw [(headers other tile).2]
    exact laid.flags other tile

/-- Tiles in hand are replaced by others. -/
theorem retile (laid : Laid pool low high alloc lists tiles live held) (shape : after.shape = alloc.shape)
    (freeLists : after.freeLists = alloc.freeLists) (tiling : Tiling high (tiles \ old ∪ new))
    (minimal : ∀ block ∈ new, low ≤ block.order) (inHand : ∀ block ∈ old, block ∈ held)
    (fresh : ∀ block ∈ new, block ∉ tiles)
    (hand : ∀ block, block ∈ kept ↔ block ∈ held ∧ block ∉ old ∨ block ∈ new) (distinct : kept.Nodup)
    (same : ∀ block ∈ tiles, block ∉ old →
      after.header (pool + block.offset) = alloc.header (pool + block.offset))
    (made : ∀ block ∈ new,
      after.order (pool + block.offset) = block.order ∧ after.isFree (pool + block.offset) = true) :
    Laid pool low high after lists (tiles \ old ∪ new) live kept where
  room := laid.room
  shape := shape.trans laid.shape
  tiling := tiling
  minimal := by
    rintro block (⟨tile, _⟩ | inNew)
    · exact laid.minimal block tile
    · exact minimal block inNew
  liveTiles := fun block alive =>
    .inl ⟨laid.liveTiles alive, fun inOld => (laid.heldTiles block (inHand block inOld)).2 alive⟩
  heldTiles := by
    intro block member
    obtain ⟨inHeld, notOld⟩ | inNew := (hand block).mp member
    · exact ⟨.inl ⟨(laid.heldTiles block inHeld).1, notOld⟩, (laid.heldTiles block inHeld).2⟩
    · exact ⟨.inr inNew, fun alive => fresh block inNew (laid.liveTiles alive)⟩
  distinct := distinct
  threaded := by
    intro index small
    apply (laid.threaded index small).congr (congrFun freeLists index)
    intro node member
    obtain ⟨block, tile, _, free, _, rfl⟩ := (laid.listed index small node).mp member
    have header := same block tile fun inOld => free (inHand block inOld)
    exact ⟨congrArg Header.next header, congrArg Header.prev header⟩
  listed := by
    intro index small node
    rw [laid.listed index small node]
    constructor
    · rintro ⟨block, tile, dead, free, order, place⟩
      refine ⟨block, .inl ⟨tile, fun inOld => free (inHand block inOld)⟩, dead, fun member => ?_, order, place⟩
      obtain ⟨inHeld, _⟩ | inNew := (hand block).mp member
      · exact free inHeld
      · exact fresh block inNew tile
    · rintro ⟨block, ⟨tile, notOld⟩ | inNew, dead, free, order, place⟩
      · exact ⟨block, tile, dead, fun inHeld => free ((hand block).mpr (.inl ⟨inHeld, notOld⟩)), order, place⟩
      · exact absurd ((hand block).mpr (.inr inNew)) free
  orders := by
    rintro block (⟨tile, notOld⟩ | inNew)
    · exact (congrArg Header.order (same block tile notOld)).trans (laid.orders block tile)
    · exact (made block inNew).1
  flags := by
    rintro block (⟨tile, notOld⟩ | inNew)
    · rw [← laid.flags block tile]
      exact (congrArg Header.isFree (same block tile notOld)).congr_left
    · exact iff_of_true (made block inNew).2 fun alive => fresh block inNew (laid.liveTiles alive)

theorem order_lt (laid : Laid pool low high alloc lists tiles live held) (member : block ∈ tiles) :
    block.order < 64 := by
  have bound := laid.tiling.order_le member
  have positive := laid.room.pool_pos
  have ending := laid.room.pool_end
  have below : 2 ^ high < 2 ^ 64 := by omega
  have small := (Nat.pow_lt_pow_iff_right (by decide)).mp below
  omega

/-- Halving a block in hand. -/
theorem split (laid : Laid pool low high alloc lists tiles live (block :: held)) (large : low < block.order) :
    Laid pool low high
      (((alloc.setOrder (pool + block.offset) (block.order - 1)).setOrder (pool + block.upper.offset)
        (block.order - 1)).setFree (pool + block.upper.offset) true)
      lists (tiles \ {block} ∪ {block.lower, block.upper}) live (block.upper :: block.lower :: held) := by
  obtain ⟨member, dead⟩ := laid.heldTiles block List.mem_cons_self
  obtain ⟨unheld, distinct⟩ := List.nodup_cons.mp laid.distinct
  have positive : 0 < block.order := by omega
  have small := laid.order_lt member
  have tiling := laid.tiling.split member positive
  have lowerTile : block.lower ∈ tiles \ {block} ∪ {block.lower, block.upper} := .inr (.inl rfl)
  have upperTile : block.upper ∈ tiles \ {block} ∪ {block.lower, block.upper} := .inr (.inr rfl)
  have order : ∀ half ∈ ({block.lower, block.upper} : Set Block), half.order = block.order - 1 := by
    rintro half (rfl | rfl) <;> rfl
  have inside : ∀ half ∈ ({block.lower, block.upper} : Set Block), block.Covers half.offset := by
    rintro half (rfl | rfl)
    · exact (Block.covers_halves positive).mpr (.inl Block.covers_offset)
    · exact (Block.covers_halves positive).mpr (.inr Block.covers_offset)
  have fresh : ∀ half ∈ ({block.lower, block.upper} : Set Block), half ∉ tiles := by
    obtain ⟨lower, upper⟩ := laid.tiling.halves_not_mem member positive
    rintro half (rfl | rfl)
    · exact lower
    · exact upper
  have start : block.lower.offset = block.offset := Block.offset_lower positive
  have apart : block.upper.offset ≠ block.lower.offset := by
    rw [Block.offset_upper]
    have size := Nat.two_pow_pos (block.order - 1)
    omega
  have halves : block.upper ≠ block.lower := fun same => apart (congrArg Block.offset same)
  have here := laid.slot member
  have there : Slot pool (pool + block.upper.offset) :=
    laid.room.slot (Nat.le_sub_one_of_lt large) (tiling.fits upperTile)
  -- the headers that these stores leave
  have headers : ∀ place, Slot pool place →
      (((alloc.setOrder (pool + block.offset) (block.order - 1)).setOrder (pool + block.upper.offset)
        (block.order - 1)).setFree (pool + block.upper.offset) true).header place = Header.mk
        (alloc.next place) (alloc.prev place)
        (if place = pool + block.upper.offset ∨ place = pool + block.offset then block.order - 1
          else alloc.order place)
        (if place = pool + block.upper.offset then true else alloc.isFree place) := by
    intro place slot
    rw [BuddyAllocator.header_setFree there slot, BuddyAllocator.header_setOrder there slot (by omega),
      BuddyAllocator.header_setOrder here slot (by omega)]
    by_cases first : place = pool + block.upper.offset
    · have second : place ≠ pool + block.offset := by omega
      have either : place = pool + block.upper.offset ∨ place = pool + block.offset := .inl first
      simp only [if_pos first, if_neg second, if_pos either, BuddyAllocator.header]
    · by_cases second : place = pool + block.offset
      · have either : place = pool + block.upper.offset ∨ place = pool + block.offset := .inr second
        simp only [if_neg first, if_pos second, if_pos either, BuddyAllocator.header]
      · have neither : ¬ (place = pool + block.upper.offset ∨ place = pool + block.offset) := by simp [first, second]
        simp only [if_neg first, if_neg second, if_neg neither, BuddyAllocator.header]
  refine laid.retile rfl rfl tiling ?_ ?_ fresh ?_ ?_ ?_ ?_
  · intro half isHalf
    rw [order half isHalf]
    omega
  · rintro half rfl
    exact List.mem_cons_self
  · intro half
    have other : half ∈ held → half ≠ block := fun inHeld same => unheld (same ▸ inHeld)
    simp only [List.mem_cons, Set.mem_insert_iff, Set.mem_singleton_iff]
    constructor
    · rintro (rfl | rfl | inHeld)
      · exact .inr (.inr rfl)
      · exact .inr (.inl rfl)
      · exact .inl ⟨.inr inHeld, other inHeld⟩
    · rintro (⟨rfl | inHeld, differs⟩ | rfl | rfl)
      · exact absurd rfl differs
      · exact .inr (.inr inHeld)
      · exact .inr (.inl rfl)
      · exact .inl rfl
  · have unlisted : ∀ half ∈ ({block.lower, block.upper} : Set Block), half ∉ held := fun half isHalf inHeld =>
      fresh half isHalf (laid.heldTiles half (List.mem_cons_of_mem _ inHeld)).1
    simp only [List.nodup_cons, List.mem_cons, not_or]
    exact ⟨⟨halves, unlisted _ (.inr rfl)⟩, unlisted _ (.inl rfl), distinct⟩
  · intro other tile notOld
    have places : ∀ half ∈ ({block.lower, block.upper} : Set Block), other.offset ≠ half.offset := by
      intro half isHalf same
      have covers := inside half isHalf
      rw [← same] at covers
      exact notOld (laid.tiling.unique tile member Block.covers_offset covers)
    have first := places block.upper (.inr rfl)
    have second := places block.lower (.inl rfl)
    rw [headers _ (laid.slot tile), if_neg (by omega), if_neg (by omega)]
    rfl
  · rintro half (rfl | rfl)
    · have header := headers (pool + block.lower.offset) (by rw [start]; exact here)
      rw [if_pos (.inr (by omega)), if_neg (by omega), start] at header
      rw [start]
      exact ⟨congrArg Header.order header, (congrArg Header.isFree header).trans ((laid.flags block member).mpr dead)⟩
    · have header := headers (pool + block.upper.offset) there
      rw [if_pos (.inl rfl), if_pos rfl] at header
      exact ⟨congrArg Header.order header, congrArg Header.isFree header⟩

/-- Joining a block in hand with its buddy. -/
theorem merge (laid : Laid pool low high alloc lists tiles live (block.buddy :: block :: held)) :
    Laid pool low high (alloc.setOrder (pool + block.parent.offset) (block.order + 1)) lists
      (tiles \ {block, block.buddy} ∪ {block.parent}) live (block.parent :: held) := by
  obtain ⟨buddyMember, buddyDead⟩ := laid.heldTiles block.buddy List.mem_cons_self
  obtain ⟨member, dead⟩ := laid.heldTiles block (by simp)
  obtain ⟨buddyUnheld, distinct⟩ := List.nodup_cons.mp laid.distinct
  obtain ⟨unheld, distinct⟩ := List.nodup_cons.mp distinct
  have small := laid.order_lt member
  have tiling := laid.tiling.merge member buddyMember
  have fresh := laid.tiling.parent_not_mem member
  have start : block.parent.offset = block.offset ∨ block.parent.offset = block.buddy.offset := by
    rw [Block.offset_parent]
    exact min_choice ..
  have here : Slot pool (pool + block.parent.offset) := by
    obtain same | same := start <;> rw [same]
    · exact laid.slot member
    · exact laid.slot buddyMember
  have free : alloc.isFree (pool + block.parent.offset) = true := by
    obtain same | same := start <;> rw [same]
    · exact (laid.flags block member).mpr dead
    · exact (laid.flags block.buddy buddyMember).mpr buddyDead
  refine laid.retile rfl rfl tiling ?_ ?_ ?_ ?_ ?_ ?_ ?_
  · rintro half rfl
    exact Nat.le_succ_of_le (laid.minimal block member)
  · rintro half (rfl | rfl) <;> simp
  · rintro half rfl
    exact fresh
  · intro half
    have other : half ∈ held → half ≠ block ∧ half ≠ block.buddy := fun inHeld =>
      ⟨fun same => unheld (same ▸ inHeld), fun same => buddyUnheld (by simp [← same, inHeld])⟩
    simp only [List.mem_cons, Set.mem_insert_iff, Set.mem_singleton_iff, not_or]
    constructor
    · rintro (rfl | inHeld)
      · exact .inr rfl
      · exact .inl ⟨.inr (.inr inHeld), other inHeld⟩
    · rintro (⟨rfl | rfl | inHeld, first, second⟩ | rfl)
      · exact absurd rfl second
      · exact absurd rfl first
      · exact .inr inHeld
      · exact .inl rfl
  · refine List.nodup_cons.mpr ⟨fun inHeld => fresh (laid.heldTiles _ ?_).1, distinct⟩
    exact List.mem_cons_of_mem _ (List.mem_cons_of_mem _ inHeld)
  · intro other tile notOld
    rw [Set.mem_insert_iff, Set.mem_singleton_iff, not_or] at notOld
    have differs : pool + other.offset ≠ pool + block.parent.offset := by
      intro same
      obtain first | second := start
      · exact notOld.1 (laid.place_injective tile member (by omega))
      · exact notOld.2 (laid.place_injective tile buddyMember (by omega))
    rw [BuddyAllocator.header_setOrder here (laid.slot tile) (by omega), if_neg differs]
  · rintro half rfl
    have header : (alloc.setOrder (pool + block.parent.offset) (block.order + 1)).header (pool + block.parent.offset) = _ :=
      BuddyAllocator.header_setOrder here here (by omega)
    rw [if_pos rfl] at header
    exact ⟨congrArg Header.order header, (congrArg Header.isFree header).trans free⟩

/-- What setting the flag of a tile changes. -/
structure Marked (alloc after : BuddyAllocator) (pool : Nat) (block : Block) (isFree : Bool) (other : Block) : Prop where
  next : after.next (pool + other.offset) = alloc.next (pool + other.offset)
  prev : after.prev (pool + other.offset) = alloc.prev (pool + other.offset)
  order : after.order (pool + other.offset) = alloc.order (pool + other.offset)
  own : other = block → after.isFree (pool + other.offset) = isFree
  others : other ≠ block → after.isFree (pool + other.offset) = alloc.isFree (pool + other.offset)

theorem mark (laid : Laid pool low high alloc lists tiles live held) (member : block ∈ tiles) (isFree : Bool) :
    ∀ other ∈ tiles, Marked alloc (alloc.setFree (pool + block.offset) isFree) pool block isFree other := by
  intro other tile
  have header : (alloc.setFree (pool + block.offset) isFree).header (pool + other.offset) = _ :=
    BuddyAllocator.header_setFree (laid.slot member) (laid.slot tile)
  by_cases same : other = block
  · subst same
    rw [if_pos rfl] at header
    exact ⟨congrArg Header.next header, congrArg Header.prev header, congrArg Header.order header,
      fun _ => congrArg Header.isFree header, fun differs => absurd rfl differs⟩
  · rw [if_neg fun place => same (laid.place_injective tile member place)] at header
    exact ⟨congrArg Header.next header, congrArg Header.prev header, congrArg Header.order header,
      fun equal => absurd equal same, fun _ => congrArg Header.isFree header⟩

theorem threaded_mark (laid : Laid pool low high alloc lists tiles live held) (member : block ∈ tiles) (isFree : Bool)
    (small : index ≤ high - low) :
    Threaded (alloc.setFree (pool + block.offset) isFree) index (lists index) := by
  refine (laid.threaded index small).congr rfl fun node listed => ?_
  obtain ⟨other, tile, _, _, _, rfl⟩ := (laid.listed index small node).mp listed
  have marked := laid.mark member isFree other tile
  exact ⟨marked.next, marked.prev⟩

/-- Handing out a block. -/
theorem take (laid : Laid pool low high alloc lists tiles live (block :: held)) :
    Laid pool low high (alloc.setFree (pool + block.offset) false) lists tiles (insert block live) held := by
  obtain ⟨member, dead⟩ := laid.heldTiles block List.mem_cons_self
  obtain ⟨unheld, distinct⟩ := List.nodup_cons.mp laid.distinct
  have marked := laid.mark member false
  refine ⟨laid.room, laid.shape, laid.tiling, laid.minimal, ?_, ?_, distinct,
    fun index small => laid.threaded_mark member false small, ?_, ?_, ?_⟩
  · exact Set.insert_subset member laid.liveTiles
  · intro other inHand
    obtain ⟨tile, free⟩ := laid.heldTiles other (List.mem_cons_of_mem _ inHand)
    refine ⟨tile, fun alive => ?_⟩
    obtain rfl | alive := Set.mem_insert_iff.mp alive
    · exact unheld inHand
    · exact free alive
  · intro index small node
    rw [laid.listed index small node]
    simp only [List.mem_cons, Set.mem_insert_iff, not_or]
    grind
  · exact fun other tile => (marked other tile).order.trans (laid.orders other tile)
  · intro other tile
    rw [Set.mem_insert_iff, not_or]
    by_cases same : other = block
    · rw [(marked other tile).own same]
      simp [same]
    · rw [(marked other tile).others same, laid.flags other tile]
      simp [same]

/-- Taking a block back. -/
theorem giveBack (laid : Laid pool low high alloc lists tiles live held) (alive : block ∈ live) :
    Laid pool low high (alloc.setFree (pool + block.offset) true) lists tiles (live \ {block}) (block :: held) := by
  have member := laid.liveTiles alive
  have unheld : block ∉ held := fun inHand => (laid.heldTiles block inHand).2 alive
  have marked := laid.mark member true
  refine ⟨laid.room, laid.shape, laid.tiling, laid.minimal, Set.sdiff_subset.trans laid.liveTiles, ?_,
    List.nodup_cons.mpr ⟨unheld, laid.distinct⟩, fun index small => laid.threaded_mark member true small, ?_, ?_, ?_⟩
  · intro other inHand
    obtain rfl | inHand := List.mem_cons.mp inHand
    · exact ⟨member, fun kept => kept.2 rfl⟩
    · exact ⟨(laid.heldTiles other inHand).1, fun kept => (laid.heldTiles other inHand).2 kept.1⟩
  · intro index small node
    rw [laid.listed index small node]
    simp only [List.mem_cons, Set.mem_sdiff, Set.mem_singleton_iff, not_or]
    grind
  · exact fun other tile => (marked other tile).order.trans (laid.orders other tile)
  · intro other tile
    rw [Set.mem_sdiff, Set.mem_singleton_iff]
    by_cases same : other = block
    · rw [(marked other tile).own same]
      simp [same]
    · rw [(marked other tile).others same, laid.flags other tile]
      simp [same]

end Laid

end HundredDays.Buddy
