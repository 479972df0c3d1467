import Mathlib.Data.Set.Insert
import Mathlib.Algebra.Order.Ring.Nat
import Mathlib.Tactic.Ring

namespace HundredDays.Data

/-! Blocks of the dyadic subdivision of the natural numbers.

A block of order `k` is a run of `2 ^ k` numbers that starts at a multiple of its
size.  Two blocks are nested or apart, so a set of blocks that covers a range
without overlaps can be changed by splitting one block and by merging two halves
of a larger one, and by nothing else.
-/

/-- The block with this number among those of its order. -/
structure Block where
  order : Nat
  index : Nat
deriving DecidableEq, Repr

namespace Block

def size (block : Block) : Nat := 2 ^ block.order

def offset (block : Block) : Nat := block.index * 2 ^ block.order

def Covers (block : Block) (point : Nat) : Prop := point / 2 ^ block.order = block.index

/-- The other half of the block of the next order. -/
def buddy (block : Block) : Block := ⟨block.order, block.index ^^^ 1⟩

def parent (block : Block) : Block := ⟨block.order + 1, block.index / 2⟩

def lower (block : Block) : Block := ⟨block.order - 1, 2 * block.index⟩

def upper (block : Block) : Block := ⟨block.order - 1, 2 * block.index + 1⟩

variable {block other : Block} {point : Nat}

theorem size_pos (block : Block) : 0 < block.size := Nat.two_pow_pos _

theorem covers_iff : block.Covers point ↔ block.offset ≤ point ∧ point < block.offset + block.size := by
  have positive : 0 < 2 ^ block.order := Nat.two_pow_pos _
  have next : (block.index + 1) * 2 ^ block.order = block.offset + block.size := by
    rw [offset, size]
    ring
  rw [← next, Covers]
  constructor
  · intro same
    rw [offset, ← same]
    exact ⟨Nat.div_mul_le_self _ _, Nat.lt_mul_of_div_lt (Nat.lt_succ_self _) positive⟩
  · intro between
    exact Nat.div_eq_of_lt_le between.1 between.2

theorem covers_offset : block.Covers block.offset := Nat.mul_div_cancel _ (Nat.two_pow_pos _)

theorem eq_of_covers (sameOrder : block.order = other.order) (first : block.Covers point)
    (second : other.Covers point) : block = other := by
  cases block with
  | mk order index =>
      cases other with
      | mk otherOrder otherIndex =>
          cases sameOrder
          exact congrArg (Block.mk order) (first.symm.trans second)

/-- Where two blocks meet, the larger one contains the smaller one. -/
theorem covers_of_meet {inner : Nat} (smaller : block.order ≤ other.order) (first : block.Covers point)
    (second : other.Covers point) (inside : block.Covers inner) : other.Covers inner := by
  have split : 2 ^ other.order = 2 ^ block.order * 2 ^ (other.order - block.order) := by
    rw [← pow_add, Nat.add_sub_cancel' smaller]
  unfold Covers at *
  rw [split, ← Nat.div_div_eq_div_mul] at second ⊢
  rw [inside, ← first]
  exact second

/-- A smaller block that contains the start of a larger one starts there too. -/
theorem offset_eq_of_covers (smaller : block.order ≤ other.order) (start : block.Covers other.offset) :
    block.offset = other.offset := by
  have divides : 2 ^ block.order ∣ other.offset :=
    Dvd.dvd.mul_left (Nat.pow_dvd_pow 2 smaller) other.index
  unfold Covers at start
  rw [Block.offset, ← start, Nat.div_mul_cancel divides]

theorem buddy_index (block : Block) : block.buddy.index = 2 * (block.index / 2) + (block.index + 1) % 2 := by
  have half : (block.index ^^^ 1) / 2 = block.index / 2 := by simp [Nat.xor_div_two]
  have parity : (block.index ^^^ 1) % 2 = 1 ↔ ¬(block.index % 2 = 1 ↔ 1 % 2 = 1) := Nat.xor_mod_two_eq_one
  change block.index ^^^ 1 = _
  omega

@[simp] theorem buddy_buddy : block.buddy.buddy = block := by
  simp [buddy, Nat.xor_assoc]

@[simp] theorem order_buddy : block.buddy.order = block.order := rfl

theorem buddy_ne : block.buddy ≠ block := by
  intro same
  have index := block.buddy_index
  rw [same] at index
  omega

@[simp] theorem parent_buddy : block.buddy.parent = block.parent := by
  have index := block.buddy_index
  simp only [parent, order_buddy, Block.mk.injEq, true_and]
  omega

/-- The buddy's offset differs in the bit that the size of the block selects. -/
theorem offset_buddy : block.buddy.offset = block.offset ^^^ 2 ^ block.order := by
  have distributes : (block.index ^^^ 1) <<< block.order = block.index <<< block.order ^^^ 1 <<< block.order :=
    Nat.shiftLeft_xor_distrib
  simp only [Nat.shiftLeft_eq, Nat.one_mul] at distributes
  exact distributes

theorem covers_parent : block.parent.Covers point ↔ block.Covers point ∨ block.buddy.Covers point := by
  have index := block.buddy_index
  have halved : point / 2 ^ (block.order + 1) = point / 2 ^ block.order / 2 := by
    rw [pow_succ, Nat.div_div_eq_div_mul]
  unfold Covers
  rw [order_buddy, index]
  simp only [parent]
  rw [halved]
  omega

theorem parent_lower (positive : 0 < block.order) : block.lower.parent = block := by
  cases block with
  | mk order index =>
      have positive : 0 < order := positive
      simp only [parent, lower, Block.mk.injEq]
      omega

theorem buddy_lower : block.lower.buddy = block.upper := by
  have index := block.lower.buddy_index
  have shape : block.lower.index = 2 * block.index := rfl
  rw [shape] at index
  have same : block.lower.buddy.index = 2 * block.index + 1 := by omega
  rw [upper, ← same]
  rfl

theorem covers_halves (positive : 0 < block.order) :
    block.Covers point ↔ block.lower.Covers point ∨ block.upper.Covers point := by
  have parent : block.lower.parent.Covers point ↔ _ := covers_parent
  rwa [parent_lower positive, buddy_lower] at parent

theorem offset_lower (positive : 0 < block.order) : block.lower.offset = block.offset := by
  obtain ⟨order, same⟩ := Nat.exists_eq_succ_of_ne_zero (Nat.pos_iff_ne_zero.mp positive)
  simp only [offset, lower, same, Nat.succ_eq_add_one, Nat.add_sub_cancel, pow_succ]
  ring

theorem offset_upper : block.upper.offset = block.lower.offset + 2 ^ (block.order - 1) := by
  simp only [offset, lower, upper]
  ring

/-- Of two buddies, the one with an even number is where their parent starts. -/
theorem offset_parent : block.parent.offset = min block.offset block.buddy.offset := by
  have index := block.buddy_index
  have parity := Nat.mod_two_eq_zero_or_one block.index
  have shape : block.parent.offset = 2 * (block.index / 2) * 2 ^ block.order := by
    simp only [offset, parent, pow_succ]
    ring
  rw [shape]
  simp only [offset, order_buddy]
  rw [Nat.mul_min_mul_right]
  congr 1
  omega

end Block

/-- These blocks cover the numbers below `2 ^ top`, and no number twice. -/
structure Tiling (top : Nat) (tiles : Set Block) : Prop where
  inside : ∀ {block point}, block ∈ tiles → block.Covers point → point < 2 ^ top
  covered : ∀ {point}, point < 2 ^ top → ∃ block ∈ tiles, block.Covers point
  unique : ∀ {block other point}, block ∈ tiles → other ∈ tiles → block.Covers point → other.Covers point →
    block = other

namespace Tiling

open Block

variable {top : Nat} {tiles old new : Set Block} {block other : Block}

theorem root : Tiling top {⟨top, 0⟩} where
  inside := by
    intro block point member covers
    rw [Set.mem_singleton_iff.mp member, covers_iff] at covers
    simpa [offset, size] using covers.2
  covered := by
    intro point below
    exact ⟨_, rfl, Nat.div_eq_of_lt below⟩
  unique := by
    intro block other point first second _ _
    exact (Set.mem_singleton_iff.mp first).trans (Set.mem_singleton_iff.mp second).symm

theorem fits (tiling : Tiling top tiles) (member : block ∈ tiles) : block.offset + block.size ≤ 2 ^ top := by
  have positive := block.size_pos
  have last : block.Covers (block.offset + block.size - 1) := covers_iff.mpr (by omega)
  have below := tiling.inside member last
  omega

theorem order_le (tiling : Tiling top tiles) (member : block ∈ tiles) : block.order ≤ top := by
  have fits := tiling.fits member
  have size : 2 ^ block.order ≤ 2 ^ top := Nat.le_trans (Nat.le_add_left _ _) fits
  exact (Nat.pow_le_pow_iff_right (by omega)).mp size

/-- Tiles may be replaced by others that cover the same numbers. -/
theorem replace (tiling : Tiling top tiles) (present : old ⊆ tiles)
    (same : ∀ point, (∃ block ∈ old, block.Covers point) ↔ ∃ block ∈ new, block.Covers point)
    (unique : ∀ {block other point}, block ∈ new → other ∈ new → block.Covers point → other.Covers point →
      block = other) : Tiling top (tiles \ old ∪ new) := by
  have apart : ∀ {block other point}, block ∈ tiles \ old → other ∈ new → block.Covers point →
      other.Covers point → False := by
    intro block other point kept fresh first second
    obtain ⟨removed, listed, third⟩ := (same point).mpr ⟨other, fresh, second⟩
    have equal := tiling.unique kept.1 (present listed) first third
    exact kept.2 (equal ▸ listed)
  constructor
  · intro block point member covers
    cases member with
    | inl kept => exact tiling.inside kept.1 covers
    | inr fresh =>
        obtain ⟨removed, listed, there⟩ := (same point).mpr ⟨block, fresh, covers⟩
        exact tiling.inside (present listed) there
  · intro point below
    obtain ⟨block, member, covers⟩ := tiling.covered below
    by_cases removed : block ∈ old
    · obtain ⟨other, fresh, there⟩ := (same point).mp ⟨block, removed, covers⟩
      exact ⟨other, .inr fresh, there⟩
    · exact ⟨block, .inl ⟨member, removed⟩, covers⟩
  · intro block other point first second covers otherCovers
    cases first with
    | inl kept =>
        cases second with
        | inl otherKept => exact tiling.unique kept.1 otherKept.1 covers otherCovers
        | inr fresh => exact (apart kept fresh covers otherCovers).elim
    | inr fresh =>
        cases second with
        | inl kept => exact (apart kept fresh otherCovers covers).elim
        | inr otherFresh => exact unique fresh otherFresh covers otherCovers

theorem split (tiling : Tiling top tiles) (member : block ∈ tiles) (positive : 0 < block.order) :
    Tiling top (tiles \ {block} ∪ {block.lower, block.upper}) := by
  apply tiling.replace (Set.singleton_subset_iff.mpr member)
  · intro point
    simp [covers_halves positive]
  · intro first second point firstListed secondListed covers otherCovers
    apply eq_of_covers _ covers otherCovers
    have order : ∀ half ∈ ({block.lower, block.upper} : Set Block), half.order = block.order - 1 := by
      intro half listed
      cases listed with
      | inl same => rw [same]; rfl
      | inr same => rw [Set.mem_singleton_iff.mp same]; rfl
    rw [order first firstListed, order second secondListed]

/-- The halves of a tile are not tiles. -/
theorem halves_not_mem (tiling : Tiling top tiles) (member : block ∈ tiles) (positive : 0 < block.order) :
    block.lower ∉ tiles ∧ block.upper ∉ tiles := by
  have absent : ∀ half : Block, half.order = block.order - 1 → block.Covers half.offset → half ∉ tiles := by
    intro half order inside tile
    have orders := congrArg Block.order (tiling.unique tile member covers_offset inside)
    omega
  exact ⟨absent _ rfl ((covers_halves positive).mpr (.inl covers_offset)),
    absent _ rfl ((covers_halves positive).mpr (.inr covers_offset))⟩

theorem parent_not_mem (tiling : Tiling top tiles) (member : block ∈ tiles) : block.parent ∉ tiles := by
  intro tile
  have whole : block.parent.Covers block.offset := covers_parent.mpr (.inl covers_offset)
  have orders := congrArg Block.order (tiling.unique tile member whole covers_offset)
  simp [Block.parent] at orders

theorem merge (tiling : Tiling top tiles) (member : block ∈ tiles) (buddyMember : block.buddy ∈ tiles) :
    Tiling top (tiles \ {block, block.buddy} ∪ {block.parent}) := by
  apply tiling.replace
  · intro other listed
    cases listed with
    | inl same => rwa [same]
    | inr same => rwa [Set.mem_singleton_iff.mp same]
  · intro point
    simp [covers_parent]
  · intro first second point firstListed secondListed _ _
    exact (Set.mem_singleton_iff.mp firstListed).trans (Set.mem_singleton_iff.mp secondListed).symm

/-- A block below the top has its buddy in the range too. -/
theorem covers_buddy_inside {point : Nat} (tiling : Tiling top tiles) (member : block ∈ tiles)
    (below : block.order < top) (covers : block.buddy.Covers point) : point < 2 ^ top := by
  have whole : (⟨top, 0⟩ : Block).Covers block.offset :=
    Nat.div_eq_of_lt (tiling.inside member covers_offset)
  have parent : block.parent.Covers block.offset := covers_parent.mpr (.inl covers_offset)
  have reached := covers_of_meet (show block.parent.order ≤ top from below) parent whole
    (covers_parent.mpr (.inr covers))
  have range := covers_iff.mp reached
  simpa [offset, size] using range.2

/-- The tile that starts where a block's buddy starts: no tile is larger than the
buddy there, since it would contain the block as well. -/
theorem tile_at_buddy (tiling : Tiling top tiles) (member : block ∈ tiles) (below : block.order < top) :
    ∃ tile ∈ tiles, tile.offset = block.buddy.offset ∧ tile.order ≤ block.order := by
  obtain ⟨tile, listed, covers⟩ :=
    tiling.covered (tiling.covers_buddy_inside member below covers_offset)
  have smaller : tile.order ≤ block.order := by
    by_contra larger
    have parent : block.parent.Covers block.buddy.offset := covers_parent.mpr (.inr covers_offset)
    have reached : tile.Covers block.offset :=
      covers_of_meet (show block.parent.order ≤ tile.order by simp [Block.parent]; omega) parent covers
        (covers_parent.mpr (.inl covers_offset))
    have same := tiling.unique listed member reached covers_offset
    rw [same] at larger
    exact larger (Nat.le_refl _)
  exact ⟨tile, listed, offset_eq_of_covers smaller covers, smaller⟩

end Tiling

/-- A block that no used block meets. -/
def Gap (used : Set Block) (block : Block) : Prop :=
  ∀ other ∈ used, ∀ point, block.Covers point → ¬ other.Covers point

/-- The gaps in the range that are not half of a larger one. -/
def maximalGaps (top : Nat) (used : Set Block) : Set Block :=
  {block | (∀ point, block.Covers point → point < 2 ^ top) ∧ Gap used block ∧
    (block.order < top → ¬ Gap used block.parent)}

/-- No two of these blocks are halves of one. -/
def Unpaired (blocks : Set Block) : Prop := ∀ block ∈ blocks, block.buddy ∉ blocks

theorem Unpaired.subset {blocks fewer : Set Block} (unpaired : Unpaired blocks) (subset : fewer ⊆ blocks) :
    Unpaired fewer :=
  fun block member paired => unpaired block (subset member) (subset paired)

theorem Unpaired.insert {blocks : Set Block} {block : Block} (unpaired : Unpaired blocks)
    (alone : block.buddy ∉ blocks) : Unpaired (insert block blocks) := by
  rintro other (rfl | member) paired
  · obtain same | paired := Set.mem_insert_iff.mp paired
    · exact Block.buddy_ne same
    · exact alone paired
  · obtain same | paired := Set.mem_insert_iff.mp paired
    · rw [← same, Block.buddy_buddy] at alone
      exact alone member
    · exact unpaired other member paired

namespace Tiling

open Block

variable {top : Nat} {tiles used : Set Block} {block : Block}

/-- When no two unused tiles can be merged, a gap that no larger tile contains is
one tile: otherwise its halves would be gaps, hence tiles, and could be merged. -/
theorem gap_is_tile (tiling : Tiling top tiles) (unpaired : Unpaired (tiles \ used)) (gap : Gap used block)
    (inside : ∀ point, block.Covers point → point < 2 ^ top)
    (outermost : ∀ tile ∈ tiles, tile.Covers block.offset → tile.order ≤ block.order) : block ∈ tiles := by
  generalize order : block.order = size at outermost
  induction size generalizing block with
  | zero =>
      obtain ⟨tile, member, covers⟩ := tiling.covered (inside _ covers_offset)
      have same := outermost tile member covers
      rwa [← eq_of_covers (by omega) covers covers_offset]
  | succ size ih =>
      obtain ⟨tile, member, covers⟩ := tiling.covered (inside _ covers_offset)
      have positive : 0 < block.order := by omega
      by_cases whole : tile.order = block.order
      · rwa [← eq_of_covers whole covers covers_offset]
      · have smaller : tile.order ≤ size := by
          have bound := outermost tile member covers
          omega
        have lowerInside : ∀ {point}, block.lower.Covers point → block.Covers point :=
          fun covered => (covers_halves positive).mpr (.inl covered)
        have upperInside : ∀ {point}, block.upper.Covers point → block.Covers point :=
          fun covered => (covers_halves positive).mpr (.inr covered)
        have lower : block.lower ∈ tiles := by
          apply ih (fun other listed point covered => gap other listed point (lowerInside covered))
            (fun point covered => inside point (lowerInside covered))
          · change block.order - 1 = size
            omega
          · intro other listed covered
            rw [offset_lower positive] at covered
            rwa [tiling.unique listed member covered covers]
        have upper : block.upper ∈ tiles := by
          apply ih (fun other listed point covered => gap other listed point (upperInside covered))
            (fun point covered => inside point (upperInside covered))
          · change block.order - 1 = size
            omega
          · intro other listed covered
            by_contra larger
            have reached := covers_of_meet (show block.order ≤ other.order by omega)
              (upperInside covers_offset) covered covers_offset
            have same := tiling.unique listed member reached covers
            rw [same] at larger
            exact larger smaller
        have unused : ∀ half, half.Covers half.offset → block.Covers half.offset → half ∉ used :=
          fun half own there listed => gap half listed _ there own
        have pair := unpaired block.lower ⟨lower, unused _ covers_offset (lowerInside covers_offset)⟩
        rw [buddy_lower] at pair
        exact (pair ⟨upper, unused _ covers_offset (upperInside covers_offset)⟩).elim

/-- The unused tiles are the maximal gaps between the used ones. -/
theorem unused_eq_gaps (tiling : Tiling top tiles) (unpaired : Unpaired (tiles \ used)) (subset : used ⊆ tiles) :
    tiles \ used = maximalGaps top used := by
  have gap_of_unused : ∀ tile, tile ∈ tiles → tile ∉ used → Gap used tile := by
    intro tile member unused other listed point covers there
    exact unused (tiling.unique member (subset listed) covers there ▸ listed)
  have unused_of_gap : ∀ tile, Gap used tile → tile ∉ used :=
    fun tile gap listed => gap tile listed _ covers_offset covers_offset
  ext block
  constructor
  · intro member
    have gap := gap_of_unused block member.1 member.2
    constructor
    · exact fun point covers => tiling.inside member.1 covers
    constructor
    · exact gap
    · intro below parentGap
      have half : block.parent.Covers block.offset := covers_parent.mpr (.inl covers_offset)
      have parent : block.parent ∈ tiles := by
        apply tiling.gap_is_tile unpaired parentGap
        · intro point covers
          cases covers_parent.mp covers with
          | inl own => exact tiling.inside member.1 own
          | inr other => exact tiling.covers_buddy_inside member.1 below other
        · intro tile listed covers
          by_contra larger
          have reached := covers_of_meet (show block.parent.order ≤ tile.order by omega)
            covers_offset covers half
          have same := tiling.unique listed member.1 reached covers_offset
          rw [same] at larger
          exact larger (Nat.le_succ _)
      have same := tiling.unique parent member.1 half covers_offset
      have orders := congrArg Block.order same
      simp [Block.parent] at orders
  · intro maximal
    obtain ⟨inside, gap, outer⟩ := maximal
    have outermost : ∀ tile ∈ tiles, tile.Covers block.offset → tile.order ≤ block.order := by
      intro tile listed covers
      by_contra larger
      have bound := tiling.order_le listed
      apply outer (by omega)
      intro other listedOther point covered there
      have reached : tile.Covers point :=
        covers_of_meet (show block.parent.order ≤ tile.order by simp [Block.parent]; omega)
          (covers_parent.mpr (.inl covers_offset)) covers covered
      have same := tiling.unique listed (subset listedOther) reached there
      exact gap other listedOther block.offset covers_offset (same ▸ covers)
    exact ⟨tiling.gap_is_tile unpaired gap inside outermost, unused_of_gap block gap⟩

/-- Without used tiles there is one tile, the whole range. -/
theorem unused_root (tiling : Tiling top tiles) (unpaired : Unpaired tiles) : tiles = {⟨top, 0⟩} := by
  have root : Unpaired ({⟨top, 0⟩} : Set Block) := by
    intro block member paired
    have same := (Set.mem_singleton_iff.mp paired).trans (Set.mem_singleton_iff.mp member).symm
    exact buddy_ne same
  have first : tiles \ ∅ = maximalGaps top ∅ :=
    tiling.unused_eq_gaps (by simpa using unpaired) (Set.empty_subset _)
  have second : {⟨top, 0⟩} \ ∅ = maximalGaps top ∅ :=
    Tiling.root.unused_eq_gaps (by simpa using root) (Set.empty_subset _)
  simpa using first.trans second.symm

/-- There is an unused tile of at least some order exactly when there is a gap of that order. -/
theorem exists_unused_iff (tiling : Tiling top tiles) (unpaired : Unpaired (tiles \ used)) (subset : used ⊆ tiles)
    {order : Nat} : (∃ tile ∈ tiles, tile ∉ used ∧ order ≤ tile.order) ↔
      ∃ block : Block, block.order = order ∧ (∀ point, block.Covers point → point < 2 ^ top) ∧ Gap used block := by
  constructor
  · rintro ⟨tile, member, unused, large⟩
    -- the part of the tile where it starts
    have start : (⟨order, tile.offset / 2 ^ order⟩ : Block).Covers tile.offset := rfl
    have within {point : Nat} (covers : (⟨order, tile.offset / 2 ^ order⟩ : Block).Covers point) : tile.Covers point :=
      covers_of_meet large start covers_offset covers
    refine ⟨_, rfl, fun point covers => tiling.inside member (within covers), ?_⟩
    intro other listed point covers there
    exact unused (tiling.unique member (subset listed) (within covers) there ▸ listed)
  · rintro ⟨block, rfl, inside, gap⟩
    by_cases outermost : ∀ tile ∈ tiles, tile.Covers block.offset → tile.order ≤ block.order
    · exact ⟨block, tiling.gap_is_tile unpaired gap inside outermost,
        fun listed => gap block listed _ covers_offset covers_offset, Nat.le_refl _⟩
    · simp only [not_forall, not_le] at outermost
      obtain ⟨tile, member, covers, larger⟩ := outermost
      exact ⟨tile, member, fun listed => gap tile listed _ covers_offset covers, Nat.le_of_lt larger⟩

end Tiling

end HundredDays.Data
