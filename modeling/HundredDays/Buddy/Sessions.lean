import HundredDays.Buddy.Loops
import HundredDays.Semantics.Run
import Mathlib.Data.List.Nodup
import Mathlib.Data.Nat.Log

namespace HundredDays.Buddy

open HundredDays.Data HundredDays.Semantics

/-! Sequences of calls by a client that frees what it was given and writes within its blocks. -/

variable {pool low high : Nat} {alloc : BuddyAllocator} {lists : Nat → List Nat} {tiles live : Set Block}
  {block : Block}

/-! ### Initialisation -/

theorem log2CeilFrom_clog {size order steps : Nat} (reached : order ≤ Nat.clog 2 size) (small : Nat.clog 2 size < 64)
    (enough : Nat.clog 2 size - order < steps) : log2CeilFrom size steps (2 ^ order) order = some (Nat.clog 2 size) := by
  induction steps generalizing order with
  | zero => omega
  | succ steps ih =>
      have goes : 2 ^ order < size ↔ order < Nat.clog 2 size := (Nat.lt_clog_iff_pow_lt (by decide)).symm
      rw [log2CeilFrom]
      by_cases below : order < Nat.clog 2 size
      · have doubled : 2 ^ order * 2 % 2 ^ 64 = 2 ^ (order + 1) := by
          rw [← Nat.pow_succ]
          exact Nat.mod_eq_of_lt (Nat.pow_lt_pow_right (by decide) (by omega))
        rw [if_pos (goes.mpr below), doubled, Nat.mod_eq_of_lt (show order + 1 < 256 by omega)]
        exact ih below (by omega)
      · rw [if_neg (fun more => below (goes.mp more)), Nat.le_antisymm reached (by omega)]

theorem log2Ceil_clog {size : Nat} (small : size ≤ 2 ^ 63) : log2Ceil size = some (Nat.clog 2 size) := by
  have order : Nat.clog 2 size ≤ 63 := Nat.clog_le_of_le_pow small
  exact log2CeilFrom_clog (Nat.zero_le _) (by omega) (by omega)

/-- With a larger size the loop never ends: the doubled value is shifted out. -/
theorem log2CeilFrom_none {size steps val order : Nat} (large : 2 ^ 63 < size)
    (value : val = 0 ∨ ∃ shift ≤ 63, val = 2 ^ shift) : log2CeilFrom size steps val order = none := by
  induction steps generalizing val order with
  | zero => rfl
  | succ steps ih =>
      have below : val < size := by
        rcases value with rfl | ⟨shift, most, rfl⟩
        · omega
        · exact (Nat.pow_le_pow_right (by decide) most).trans_lt large
      rw [log2CeilFrom, if_pos below]
      apply ih
      rcases value with rfl | ⟨shift, most, rfl⟩
      · exact .inl rfl
      · by_cases last : shift = 63
        · left
          rw [last]
          rfl
        · right
          refine ⟨shift + 1, by omega, ?_⟩
          rw [← Nat.pow_succ]
          exact Nat.mod_eq_of_lt (Nat.pow_lt_pow_right (by decide) (by omega))

theorem log2Ceil_pow {order : Nat} (small : order < 64) : log2Ceil (2 ^ order) = some order := by
  rw [log2Ceil_clog (Nat.pow_le_pow_right (by decide) (by omega)), Nat.clog_pow _ _ (by decide)]

theorem Room.high_lt (room : Room pool low high) : high < 64 := by
  have positive := room.pool_pos
  have ending := room.pool_end
  exact (Nat.pow_lt_pow_iff_right (by decide)).mp (show 2 ^ high < 2 ^ 64 by omega)

theorem listIndex_eq {order : Nat} (above : low ≤ order) (small : order < 64) : listIndex order low = order - low := by
  rw [listIndex]
  omega

theorem log2Ceil_cases {size order : Nat} (rounded : log2Ceil size = some order) :
    size ≤ 2 ^ 63 ∧ order = Nat.clog 2 size := by
  have small : size ≤ 2 ^ 63 := by
    by_contra large
    have endless := @log2CeilFrom_none size 65 1 0 (by omega) (.inr ⟨0, by decide, rfl⟩)
    cases rounded.symm.trans endless
  exact ⟨small, Option.some.inj (rounded.symm.trans (log2Ceil_clog small))⟩

/-- What `buddy_init` makes of sizes that it accepts. -/
theorem buddyInit_cases {memory : Nat → UInt8} {poolSize minBlockSize : Nat} (positive : 0 < pool) (ending : pool < 2 ^ 64)
    (created : buddyInit memory pool poolSize minBlockSize = some alloc) :
    poolSize ≤ 2 ^ 63 ∧ Nat.clog 2 minBlockSize ≤ Nat.clog 2 poolSize + 1 ∧
      Nat.clog 2 poolSize < Nat.clog 2 minBlockSize + maxOrders ∧
      alloc.shape = (pool, Nat.clog 2 minBlockSize, Nat.clog 2 poolSize) ∧
      alloc.freeLists = Function.update (fun _ => none)
        (listIndex (Nat.clog 2 poolSize) (Nat.clog 2 minBlockSize)) (some pool) ∧
      alloc.header pool = ⟨none, none, Nat.clog 2 poolSize, true⟩ := by
  simp only [buddyInit, Option.bind_eq_bind, Option.bind_eq_some_iff, Option.ite_none_right_eq_some] at created
  obtain ⟨low, first, high, second, accepted, created⟩ := created
  obtain ⟨lowSmall, rfl⟩ := log2Ceil_cases first
  obtain ⟨highSmall, rfl⟩ := log2Ceil_cases second
  have most : Nat.clog 2 poolSize ≤ 63 := Nat.clog_le_of_le_pow highSmall
  have least : Nat.clog 2 minBlockSize ≤ 63 := Nat.clog_le_of_le_pow lowSmall
  have here : Slot pool pool := ⟨0, by simp, positive, ending⟩
  cases created
  simp only [maxOrders] at accepted ⊢
  refine ⟨highSmall, by omega, by omega, rfl, rfl, ?_⟩
  simp only [BuddyAllocator.header_setList,
    BuddyAllocator.header_setPrev here here (by simp : ∀ target, none = some target → Slot pool target),
    BuddyAllocator.header_setNext here here (by simp : ∀ target, none = some target → Slot pool target),
    BuddyAllocator.header_setFree here here, BuddyAllocator.header_setOrder here here (by omega : Nat.clog 2 poolSize < 256),
    if_true]

/-- The pool as one free block. -/
theorem root_laid (room : Room pool low high) (shape : alloc.shape = (pool, low, high))
    (freeLists : alloc.freeLists = Function.update (fun _ => none) (high - low) (some pool))
    (header : alloc.header pool = ⟨none, none, high, true⟩) :
    ∃ lists, Laid pool low high alloc lists {⟨high, 0⟩} ∅ [] := by
  have ordered := room.ordered
  refine ⟨fun index => if index = high - low then [pool] else [], room, shape, Tiling.root, ?_, Set.empty_subset _,
    by simp, List.nodup_nil, ?_, ?_, ?_, ?_⟩
  · rintro block rfl
    exact ordered
  · intro index small
    have next : alloc.next pool = none := congrArg Header.next header
    have prev : alloc.prev pool = none := congrArg Header.prev header
    by_cases last : index = high - low
    · subst last
      rw [if_pos rfl]
      refine ⟨segment_cons.mpr ⟨prev, next, segment_nil⟩, ?_, List.nodup_singleton pool⟩
      rw [freeLists, Function.update_self]
      rfl
    · rw [if_neg last]
      refine ⟨segment_nil, ?_, List.nodup_nil⟩
      rw [freeLists, Function.update_of_ne last]
      rfl
  · intro index small node
    by_cases last : index = high - low
    · simp only [if_pos last, List.mem_singleton, Set.mem_singleton_iff, exists_eq_left, Set.mem_empty_iff_false,
        not_false_eq_true, List.not_mem_nil, true_and, Block.offset, Nat.zero_mul, Nat.add_zero]
      exact ⟨fun same => ⟨by omega, same⟩, And.right⟩
    · simp only [if_neg last, List.not_mem_nil, Set.mem_singleton_iff, exists_eq_left, false_iff]
      omega
  · rintro block rfl
    simp only [Block.offset, Nat.zero_mul, Nat.add_zero]
    exact congrArg Header.order header
  · rintro block rfl
    simp only [Block.offset, Nat.zero_mul, Nat.add_zero, Set.mem_empty_iff_false, not_false_eq_true, iff_true]
    exact congrArg Header.isFree header

theorem unpaired_root : Unpaired (listedTiles {⟨high, 0⟩} ∅ []) := by
  intro block member paired
  have same := (Set.mem_singleton_iff.mp paired.1).trans (Set.mem_singleton_iff.mp member.1).symm
  exact Block.buddy_ne same

/-- The pool starts as one free block. -/
theorem buddyInit_laid (room : Room pool low high) (memory : Nat → UInt8) :
    ∃ alloc lists, buddyInit memory pool (2 ^ high) (2 ^ low) = some alloc ∧
      Laid pool low high alloc lists {⟨high, 0⟩} ∅ [] := by
  have top := room.high_lt
  have ordered := room.ordered
  have orders := room.orders
  have ending := room.pool_end
  have size := Nat.two_pow_pos high
  have accepted : ((high : Int) - low + 1) % 2 ^ 64 ≤ maxOrders := by
    simp only [maxOrders] at orders ⊢
    omega
  obtain ⟨alloc, created⟩ : ∃ alloc, buddyInit memory pool (2 ^ high) (2 ^ low) = some alloc := by
    rw [buddyInit, log2Ceil_pow (by omega), log2Ceil_pow top]
    simp only [Option.bind_eq_bind, Option.bind_some]
    rw [if_pos accepted]
    exact ⟨_, rfl⟩
  obtain ⟨_, _, _, shape, freeLists, header⟩ := buddyInit_cases room.pool_pos (by omega) created
  rw [Nat.clog_pow _ _ (by decide)] at shape freeLists header
  rw [Nat.clog_pow _ _ (by decide)] at shape freeLists
  rw [listIndex_eq ordered top] at freeLists
  obtain ⟨lists, laid⟩ := root_laid room shape freeLists header
  exact ⟨alloc, lists, created, laid⟩

/-! ### Calls -/

/-- `buddy_free` of a live block. -/
theorem buddyFree_laid (laid : Laid pool low high alloc lists tiles live []) (unpaired : Unpaired (listedTiles tiles live []))
    (alive : block ∈ live) :
    ∃ after lists tiles, buddyFree alloc (some (pool + block.offset + headerSize)) = some after ∧
      Laid pool low high after lists tiles (live \ {block}) [] ∧ Unpaired (listedTiles tiles (live \ {block}) []) ∧
      ∀ index ∈ freeIndices alloc (some (pool + block.offset + headerSize)), index ≤ high - low := by
  have member := laid.liveTiles alive
  have given := laid.giveBack alive
  obtain ⟨_, smallest, largest⟩ := laid.shapes
  have order := given.orders block member
  have small := laid.order_lt member
  have fewer : Unpaired (listedTiles tiles (live \ {block}) [block]) := by
    refine unpaired.subset fun other listed => ⟨listed.1, fun inside => ?_, List.not_mem_nil⟩
    obtain ⟨_, dead, unheld⟩ := listed
    exact dead ⟨inside, fun same => unheld (List.mem_singleton.mpr same)⟩
  obtain ⟨after, lists, tiles, merged, final, alone, indices⟩ :=
    mergeFrom_laid (alloc.maxOrder + 1) given (by omega) fewer
  have start : pool + block.offset + headerSize - headerSize = pool + block.offset := Nat.add_sub_cancel ..
  have minOrder : (alloc.setFree (pool + block.offset) true).minOrder = low := smallest
  have first : listIndex block.order low = block.order - low := listIndex_eq (laid.minimal block member) small
  refine ⟨after, lists, tiles, ?_, final, alone, ?_⟩
  · simp only [buddyFree, start, order, minOrder, first]
    exact merged
  · simp only [freeIndices, start, order, minOrder, first]
    exact indices

/-- A write within a live block, behind its header. -/
theorem write_laid {held : List Block} (laid : Laid pool low high alloc lists tiles live held) (alive : block ∈ live)
    {offset : Nat} (behind : headerSize ≤ offset) (within : offset < block.size) (byte : UInt8) :
    Laid pool low high (alloc.setByte (pool + block.offset + offset) byte) lists tiles live held := by
  have member := laid.liveTiles alive
  refine laid.congr rfl rfl fun other tile => BuddyAllocator.header_setByte ?_
  by_cases same : other = block
  · subst same
    simp only [headerSize] at behind
    exact .inr (by omega)
  · apply Classical.byContradiction
    intro meets
    have large : 2 ^ 5 ≤ other.size :=
      Nat.pow_le_pow_right Nat.two_pos (Nat.le_trans laid.room.header (laid.minimal other tile))
    have first : block.Covers (block.offset + offset) := Block.covers_iff.mpr (by omega)
    have second : other.Covers (block.offset + offset) := Block.covers_iff.mpr (by omega)
    exact same (laid.tiling.unique tile member second first)

/-- The allocator and the pointers that it has returned and that were not freed since. -/
structure Session where
  alloc : BuddyAllocator
  pointers : List Nat

inductive Call where
  | alloc (size : Nat)
  /-- Of a null pointer, or of one that was returned. -/
  | free (ptr : Option Nat)
  /-- A byte at an offset from a pointer, within the block that the pointer is in. -/
  | write (ptr offset : Nat) (byte : UInt8)

namespace Session

def step (session : Session) : Call → Option Session
  | .alloc size => (buddyAlloc session.alloc size).map fun returned =>
      { alloc := returned.2, pointers := returned.1.toList ++ session.pointers }
  | .free none => (buddyFree session.alloc none).map fun alloc => { session with alloc }
  | .free (some ptr) =>
      if ptr ∈ session.pointers then
        (buddyFree session.alloc (some ptr)).map fun alloc => { alloc, pointers := session.pointers.erase ptr }
      else none
  | .write ptr offset byte =>
      if ptr ∈ session.pointers ∧ headerSize + offset < 2 ^ session.alloc.order (ptr - headerSize) then
        some { session with alloc := session.alloc.setByte (ptr + offset) byte }
      else none

end Session

variable {session after : Session}

/-- The live tiles are those that the pointers lead to. -/
structure Kept (pool low high : Nat) (session : Session) (lists : Nat → List Nat) (tiles live : Set Block) : Prop where
  laid : Laid pool low high session.alloc lists tiles live []
  unpaired : Unpaired (listedTiles tiles live [])
  pointers : ∀ ptr, ptr ∈ session.pointers ↔ ∃ block ∈ live, ptr = pool + block.offset + headerSize
  nodup : session.pointers.Nodup

namespace Kept

/-- Two live blocks have different pointers. -/
theorem block_unique (kept : Kept pool low high session lists tiles live) {other : Block} (alive : block ∈ live)
    (otherAlive : other ∈ live) (same : pool + block.offset + headerSize = pool + other.offset + headerSize) :
    block = other :=
  kept.laid.place_injective (kept.laid.liveTiles alive) (kept.laid.liveTiles otherAlive) (Nat.add_right_cancel same)

/-- Another block is live, and its pointer was returned. -/
theorem given (kept : Kept pool low high session lists tiles live) {others : Nat → List Nat} {rest : Set Block}
    (dead : block ∉ live) (laid : Laid pool low high alloc others rest (insert block live) [])
    (unpaired : Unpaired (listedTiles rest (insert block live) [])) :
    Kept pool low high { alloc, pointers := (pool + block.offset + headerSize) :: session.pointers } others rest
      (insert block live) where
  laid := laid
  unpaired := unpaired
  pointers := by
    intro ptr
    simp only [List.mem_cons, kept.pointers, Set.mem_insert_iff, exists_eq_or_imp]
  nodup := by
    refine List.nodup_cons.mpr ⟨fun listed => ?_, kept.nodup⟩
    obtain ⟨other, alive, same⟩ := (kept.pointers _).mp listed
    have equal := laid.place_injective (laid.liveTiles (Set.mem_insert block live))
      (laid.liveTiles (Set.mem_insert_of_mem block alive)) (Nat.add_right_cancel same)
    exact dead (equal ▸ alive)

theorem step (kept : Kept pool low high session lists tiles live) (call : Call) (stepped : session.step call = some after) :
    ∃ lists tiles live, Kept pool low high after lists tiles live := by
  cases call with
  | alloc size =>
      obtain ⟨⟨result, alloc⟩, returned, rfl⟩ := Option.map_eq_some_iff.mp stepped
      obtain ⟨ceil, rounded, _⟩ := Option.bind_eq_some_iff.mp returned
      rcases buddyAlloc_laid kept.laid kept.unpaired rounded returned with
        ⟨rfl, rfl, _⟩ | ⟨block, lists, tiles, rfl, dead, _, laid, unpaired⟩
      · exact ⟨lists, tiles, live, kept.laid, kept.unpaired, kept.pointers, kept.nodup⟩
      · exact ⟨lists, tiles, insert block live, kept.given dead laid unpaired⟩
  | free ptr =>
      cases ptr with
      | none =>
          cases stepped
          exact ⟨lists, tiles, live, kept.laid, kept.unpaired, kept.pointers, kept.nodup⟩
      | some ptr =>
          simp only [Session.step] at stepped
          split_ifs at stepped with listed
          obtain ⟨alloc, freed, rfl⟩ := Option.map_eq_some_iff.mp stepped
          obtain ⟨block, alive, rfl⟩ := (kept.pointers ptr).mp listed
          obtain ⟨other, lists, tiles, returned, laid, unpaired, _⟩ := buddyFree_laid kept.laid kept.unpaired alive
          cases freed.symm.trans returned
          refine ⟨lists, tiles, live \ {block}, laid, unpaired, ?_, kept.nodup.erase _⟩
          intro ptr
          rw [kept.nodup.mem_erase_iff, kept.pointers]
          constructor
          · rintro ⟨differs, each, inside, rfl⟩
            exact ⟨each, ⟨inside, fun same => differs (by rw [Set.mem_singleton_iff.mp same])⟩, rfl⟩
          · rintro ⟨each, ⟨inside, differs⟩, rfl⟩
            exact ⟨fun same => differs (kept.block_unique inside alive same), each, inside, rfl⟩
  | write ptr offset byte =>
      simp only [Session.step] at stepped
      split_ifs at stepped with allowed
      cases stepped
      obtain ⟨listed, within⟩ := allowed
      obtain ⟨block, alive, rfl⟩ := (kept.pointers ptr).mp listed
      rw [Nat.add_sub_cancel, kept.laid.orders block (kept.laid.liveTiles alive)] at within
      have written := write_laid kept.laid alive (Nat.le_add_right headerSize offset) within byte
      rw [← Nat.add_assoc] at written
      exact ⟨lists, tiles, live, written, kept.unpaired, kept.pointers, kept.nodup⟩

end Kept

/-- What is reached from the initialised pool. -/
theorem run_kept (room : Room pool low high) (memory : Nat → UInt8) : ∃ alloc,
    buddyInit memory pool (2 ^ high) (2 ^ low) = some alloc ∧ ∀ (calls : List Call) (after : Session),
      run Session.step { alloc, pointers := [] } calls = some after →
        ∃ lists tiles live, Kept pool low high after lists tiles live := by
  obtain ⟨alloc, lists, created, laid⟩ := buddyInit_laid room memory
  refine ⟨alloc, created, fun calls after completed => ?_⟩
  have initial : Kept pool low high { alloc, pointers := [] } lists {⟨high, 0⟩} ∅ :=
    ⟨laid, unpaired_root, by simp, List.nodup_nil⟩
  refine run_invariant (fun session => ∃ lists tiles live, Kept pool low high session lists tiles live) ?_
    ⟨lists, _, _, initial⟩ completed
  rintro session call next ⟨lists, tiles, live, kept⟩ stepped
  exact kept.step call stepped

/-- The extents of two pointers, as their headers give them. -/
def Apart (alloc : BuddyAllocator) (ptr other : Nat) : Prop :=
  ptr - headerSize + 2 ^ alloc.order (ptr - headerSize) ≤ other - headerSize ∨
    other - headerSize + 2 ^ alloc.order (other - headerSize) ≤ ptr - headerSize

end HundredDays.Buddy
