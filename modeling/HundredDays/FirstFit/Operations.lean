import HundredDays.FirstFit.Layout
import HundredDays.Data.Masks

namespace HundredDays.FirstFit

open HundredDays.Data HundredDays.Memory

/-! What each operation does to the layout. -/

variable {alloc after : FreeListAllocator} {blocks left right : List Block} {block : Block}
  {nodes before later : List Nat} {current previous : Option Nat} {node size steps : Nat}

/-- The pieces that an allocation makes of a free block. -/
def Block.take (block : Block) (size : Nat) : List Block :=
  if block.size - size ≥ sizeofFreeBlock + alignofMaxAlign then
    [{ block with size, live := true },
      { start := block.start + sizeofFreeBlock + size, size := block.size - size - sizeofFreeBlock, live := false }]
  else [{ block with live := true }]

theorem separated_append : Separated (left ++ right) ↔ Separated left ∧ Separated right ∧
    ∀ first ∈ left.getLast?, ∀ second ∈ right.head?, first.live = true ∨ second.live = true :=
  List.isChain_append

/-- Splicing a changed stretch of the layout into the free list. -/
theorem Represents.relink {old new : List Block} (rep : Represents alloc (left ++ old ++ right))
    (rest : Chain after.next (freeStarts (new ++ right)).head? (freeStarts (new ++ right)))
    (head : after.freeList =
      if (freeStarts left).getLast? = none then (freeStarts (new ++ right)).head? else alloc.freeList)
    (links : ∀ node ∈ freeStarts left, after.next node =
      if (freeStarts left).getLast? = some node then (freeStarts (new ++ right)).head? else alloc.next node) :
    Chain after.next after.freeList (freeStarts (left ++ new ++ right)) := by
  have chain := rep.listed
  have distinct := rep.listed_nodup
  rw [List.append_assoc, freeStarts_append] at chain distinct ⊢
  apply chain.splice rest _ (List.nodup_append.mp distinct).1 links
  rw [head]
  simp only [List.getLast?_eq_none_iff]

/-- The free blocks behind a place stay linked when their headers are kept. -/
theorem Represents.chain_right {old : List Block} (rep : Represents alloc (left ++ old ++ right))
    (links : ∀ node ∈ freeStarts right, after.next node = alloc.next node) :
    Chain after.next (freeStarts right).head? (freeStarts right) := by
  have chain := rep.listed
  rw [freeStarts_append] at chain
  exact chain.append.congr links

theorem Represents.next_eq (rep : Represents alloc (left ++ block :: right)) (free : block.live = false) :
    alloc.next block.start = (freeStarts right).head? := by
  have chain := rep.listed
  rw [freeStarts_append, freeStarts_cons_free free] at chain
  exact chain.next_of_append

theorem take_contiguous {start limit : Nat} (fits : size ≤ block.size)
    (contiguous : Contiguous start [block] limit) : Contiguous start (block.take size) limit := by
  obtain ⟨first, last⟩ := contiguous
  rw [contiguous_nil] at last
  rw [Block.take]
  split
  next room =>
    refine ⟨first, rfl, ?_⟩
    simp only [contiguous_nil, Block.limit, sizeofFreeBlock, alignofMaxAlign] at last room ⊢
    omega
  next => exact ⟨first, last⟩

theorem take_separated (free : block.live = false) (separated : Separated (left ++ block :: right)) :
    Separated (left ++ block.take size ++ right) := by
  rw [List.append_cons, separated_append] at separated
  obtain ⟨front, back, behind⟩ := separated
  rw [separated_append] at front
  obtain ⟨frontSeparated, _, ahead⟩ := front
  simp only [List.getLast?_concat, Option.mem_def, Option.some.injEq, forall_eq', free, Bool.false_eq_true,
    false_or] at behind
  rw [Block.take]
  split
  next =>
    rw [separated_append, separated_append]
    refine ⟨⟨frontSeparated, by simp [Separated], by simp⟩, back, ?_⟩
    intro first last second head
    exact Or.inr (behind second head)
  next =>
    rw [separated_append, separated_append]
    exact ⟨⟨frontSeparated, by simp [Separated], by simp⟩, back, by simp⟩

/-- The place in front of a block is a link of a listed block, or the list head. -/
theorem Represents.previous_aligned {rest : List Block} (rep : Represents alloc (left ++ rest)) :
    ∀ node, (freeStarts left).getLast? = some node → node % 16 = 0 := by
  intro node last
  apply rep.listed_aligned
  rw [freeStarts_append]
  exact List.mem_append_left _ (List.mem_of_getLast? last)

/-- The headers and the list head after a block was split. -/
theorem takeBlock_split_fields {start : Nat} (rest other : Nat) (here : start % 16 = 0) (aligned : size % 16 = 0)
    (previousAligned : ∀ node, previous = some node → node % 16 = 0) (positive : 0 < start)
    (valid : ∀ target, alloc.next start = some target → 0 < target ∧ target < 2 ^ 64)
    (header : alloc.size start = size + sizeofFreeBlock + rest) (room : alignofMaxAlign ≤ rest)
    (top : start + sizeofFreeBlock + alloc.size start < 2 ^ 64) (there : other % 16 = 0) :
    (takeBlock alloc previous start size).size other =
      (if other = start then size
        else if other = start + sizeofFreeBlock + size then rest else alloc.size other) ∧
    (takeBlock alloc previous start size).next other =
      (if previous = some other then some (start + sizeofFreeBlock + size)
        else if other = start + sizeofFreeBlock + size then alloc.next start else alloc.next other) ∧
    (takeBlock alloc previous start size).freeList =
      (if previous = none then some (start + sizeofFreeBlock + size) else alloc.freeList) := by
  simp only [sizeofFreeBlock, alignofMaxAlign] at *
  have large : alloc.size start - size ≥ 16 + 16 := by omega
  have remaining : alloc.size start - size - 16 = rest := by omega
  have place : (start + 16 + size) % 2 ^ 64 = start + 16 + size := Nat.mod_eq_of_lt (by omega)
  have placeAligned : (start + 16 + size) % 16 = 0 := by omega
  have placeValid : ∀ target, some (start + 16 + size) = some target → 0 < target ∧ target < 2 ^ 64 := by
    intro target same
    cases same
    omega
  simp only [takeBlock, sizeofFreeBlock, alignofMaxAlign, if_pos large, remaining, place]
  have link : (alloc.setSize (start + 16 + size) rest).next start = alloc.next start :=
    FreeListAllocator.next_setSize placeAligned here
  rw [link]
  refine ⟨?_, ?_, ?_⟩
  · rw [FreeListAllocator.size_setSize (by omega) here there, FreeListAllocator.size_setLink previousAligned there,
      FreeListAllocator.size_setNext placeAligned there,
      FreeListAllocator.size_setSize (by omega) placeAligned there]
  · rw [FreeListAllocator.next_setSize here there,
      FreeListAllocator.next_setLink placeValid previousAligned there,
      FreeListAllocator.next_setNext valid placeAligned there, FreeListAllocator.next_setSize placeAligned there]
  · simp [FreeListAllocator.freeList_setLink]

/-- The headers and the list head after a block was consumed whole. -/
theorem takeBlock_whole_fields {start : Nat} (size other : Nat)
    (previousAligned : ∀ node, previous = some node → node % 16 = 0)
    (valid : ∀ target, alloc.next start = some target → 0 < target ∧ target < 2 ^ 64)
    (small : ¬ alloc.size start - size ≥ sizeofFreeBlock + alignofMaxAlign) (there : other % 16 = 0) :
    (takeBlock alloc previous start size).size other = alloc.size other ∧
    (takeBlock alloc previous start size).next other =
      (if previous = some other then alloc.next start else alloc.next other) ∧
    (takeBlock alloc previous start size).freeList =
      (if previous = none then alloc.next start else alloc.freeList) := by
  simp only [takeBlock, if_neg small]
  exact ⟨FreeListAllocator.size_setLink previousAligned there,
    FreeListAllocator.next_setLink valid previousAligned there, FreeListAllocator.freeList_setLink⟩

@[simp] theorem memoryPool_takeBlock :
    (takeBlock alloc previous node size).memoryPool = alloc.memoryPool := by
  rw [takeBlock]
  split <;> simp

/-- Where the blocks around a place lie. -/
theorem Represents.around (rep : Represents alloc (left ++ block :: right)) :
    (∀ other ∈ left, other.start % 16 = 0 ∧ other.limit ≤ block.start) ∧
    (∀ other ∈ right, other.start % 16 = 0 ∧ block.limit ≤ other.start) := by
  constructor
  · intro other member
    exact ⟨rep.start_aligned (by simp [member]), rep.contiguous.before member⟩
  · intro other member
    exact ⟨rep.start_aligned (by simp [member]), rep.contiguous.behind member⟩

/-- Where the free blocks around a place lie. -/
theorem Represents.free_around (rep : Represents alloc (left ++ block :: right)) :
    (∀ node ∈ freeStarts left, node % 16 = 0 ∧ node + sizeofFreeBlock ≤ block.start) ∧
    (∀ node ∈ freeStarts right, node % 16 = 0 ∧ block.limit ≤ node) := by
  constructor
  · intro node member
    obtain ⟨other, inside, _, same⟩ := mem_freeStarts.mp member
    have place := rep.around.1 other inside
    simp only [Block.limit] at place
    omega
  · intro node member
    obtain ⟨other, inside, _, same⟩ := mem_freeStarts.mp member
    have place := rep.around.2 other inside
    omega

/-- The last free block in front of a place lies in front of it. -/
theorem Represents.last_apart (rep : Represents alloc (left ++ block :: right)) (behind : block.start ≤ node) :
    (freeStarts left).getLast? ≠ some node := by
  intro last
  have before := (rep.free_around.1 node (List.mem_of_getLast? last)).2
  simp only [sizeofFreeBlock] at before
  omega

theorem Represents.next_valid (rep : Represents alloc (left ++ block :: right)) (free : block.live = false) :
    ∀ target, alloc.next block.start = some target → 0 < target ∧ target < 2 ^ 64 := by
  rw [rep.next_eq free]
  apply rep.valid_link
  intro node head
  rw [freeStarts_append, freeStarts_cons_free free]
  exact List.mem_append_right _ (List.mem_cons_of_mem _ (List.mem_of_head? head))

/-- A block that leaves room for another is split. -/
theorem takeBlock_splits (rep : Represents alloc (left ++ block :: right)) (free : block.live = false)
    (fits : size ≤ block.size) (aligned : size % 16 = 0)
    (room : block.size - size ≥ sizeofFreeBlock + alignofMaxAlign) :
    Represents (takeBlock alloc (freeStarts left).getLast? block.start size) (left ++ block.take size ++ right) := by
  have member : block ∈ left ++ block :: right := by simp
  have here := rep.start_aligned member
  have range := rep.range member
  have bounds := rep.contiguous.range member
  have sizeAligned := rep.sizes block member
  have previous := rep.previous_aligned
  have header := rep.headers block member
  have next := rep.next_eq free
  have valid := rep.next_valid free
  obtain ⟨before, behind⟩ := rep.around
  obtain ⟨freeBefore, freeBehind⟩ := rep.free_around
  have apart := fun node => @Represents.last_apart alloc left right block node rep
  rw [List.append_cons] at rep
  have pieces : block.take size = [{ block with size, live := true },
      { start := block.start + sizeofFreeBlock + size, size := block.size - size - sizeofFreeBlock,
        live := false }] := if_pos room
  have starts : freeStarts (block.take size ++ right) =
      (block.start + sizeofFreeBlock + size) :: freeStarts right := by
    rw [pieces]
    simp [freeStarts]
  simp only [Block.limit, sizeofFreeBlock, alignofMaxAlign] at *
  have fields := fun other there => takeBlock_split_fields (block.size - size - 16) other here aligned previous
    range.1 valid (by simp only [sizeofFreeBlock]; omega) (by simp only [alignofMaxAlign]; omega)
    (by simp only [sizeofFreeBlock]; omega) there
  simp only [sizeofFreeBlock] at fields
  apply rep.replace memoryPool_takeBlock (fun _ _ => take_contiguous fits)
  · intro piece inside
    simp only [pieces, List.mem_cons, List.not_mem_nil, or_false] at inside
    cases inside with
    | inl first => rw [first]; exact aligned
    | inr second => rw [second]; simp only; omega
  · intro piece inside
    simp only [pieces, List.mem_cons, List.not_mem_nil, or_false] at inside
    simp only [sizeofFreeBlock]
    cases inside with
    | inl first => rw [first]; simp only; omega
    | inr second => rw [second]; simp only; omega
  · intro other unchanged
    cases List.mem_append.mp unchanged with
    | inl earlier =>
        have place := before other earlier
        rw [(fields other.start place.1).1, if_neg (by omega), if_neg (by omega)]
    | inr later =>
        have place := behind other later
        rw [(fields other.start place.1).1, if_neg (by omega), if_neg (by omega)]
  · intro piece inside
    simp only [pieces, List.mem_cons, List.not_mem_nil, or_false] at inside
    cases inside with
    | inl first => rw [first, (fields block.start here).1, if_pos rfl]
    | inr second =>
        rw [second, (fields _ (show (block.start + 16 + size) % 16 = 0 by omega)).1, if_neg (by omega), if_pos rfl]
  · apply rep.relink
    · rw [starts]
      refine ⟨rfl, ?_⟩
      rw [(fields _ (by omega)).2.1, if_neg (apart _ (by omega)), if_pos rfl, next]
      apply rep.chain_right
      intro node member
      have place := freeBehind node member
      rw [(fields node place.1).2.1, if_neg (apart node (by omega)), if_neg (by omega)]
    · rw [(fields _ here).2.2, starts]
      rfl
    · intro node member
      have place := freeBefore node member
      rw [(fields node place.1).2.1, starts, if_neg (show node ≠ block.start + 16 + size by omega)]
      rfl

/-- A block that leaves no room for another is taken whole. -/
theorem takeBlock_whole (rep : Represents alloc (left ++ block :: right)) (free : block.live = false)
    (fits : size ≤ block.size) (room : ¬ block.size - size ≥ sizeofFreeBlock + alignofMaxAlign) :
    Represents (takeBlock alloc (freeStarts left).getLast? block.start size) (left ++ block.take size ++ right) := by
  have member : block ∈ left ++ block :: right := by simp
  have here := rep.start_aligned member
  have sizeAligned := rep.sizes block member
  have header := rep.headers block member
  have next := rep.next_eq free
  have fields := fun other there => takeBlock_whole_fields size other rep.previous_aligned (rep.next_valid free)
    (by rw [header]; exact room) there
  obtain ⟨before, behind⟩ := rep.around
  obtain ⟨freeBefore, freeBehind⟩ := rep.free_around
  have apart := fun node => @Represents.last_apart alloc left right block node rep
  rw [List.append_cons] at rep
  have pieces : block.take size = [{ block with live := true }] := if_neg room
  have starts : freeStarts (block.take size ++ right) = freeStarts right := by
    rw [pieces]
    simp [freeStarts]
  apply rep.replace memoryPool_takeBlock (fun _ _ => take_contiguous fits)
  · intro piece inside
    simp only [pieces, List.mem_singleton] at inside
    rw [inside]
    exact sizeAligned
  · intro piece inside
    simp only [pieces, List.mem_singleton] at inside
    rw [inside]
    exact rep.inside block (by simp)
  · intro other unchanged
    cases List.mem_append.mp unchanged with
    | inl earlier => exact (fields other.start (before other earlier).1).1
    | inr later => exact (fields other.start (behind other later).1).1
  · intro piece inside
    simp only [pieces, List.mem_singleton] at inside
    rw [inside, (fields block.start here).1]
    exact header
  · apply rep.relink
    · rw [starts]
      apply rep.chain_right
      intro node member
      have place := freeBehind node member
      have after : block.start ≤ node := by
        simp only [Block.limit, sizeofFreeBlock] at place
        omega
      rw [(fields node place.1).2.1, if_neg (apart node after)]
    · rw [(fields _ here).2.2, starts, next]
    · intro node member
      rw [(fields node (freeBefore node member).1).2.1, starts, next]

theorem takeBlock_represents (rep : Represents alloc (left ++ block :: right)) (free : block.live = false)
    (fits : size ≤ block.size) (aligned : size % 16 = 0) :
    Represents (takeBlock alloc (freeStarts left).getLast? block.start size)
      (left ++ block.take size ++ right) := by
  by_cases room : block.size - size ≥ sizeofFreeBlock + alignofMaxAlign
  · exact takeBlock_splits rep free fits aligned room
  · exact takeBlock_whole rep free fits room

/-- First fit: the loop passes over the blocks that are too small. -/
theorem allocFrom_eq (previous : Option Nat) (chain : Chain alloc.next current nodes) (enough : nodes.length < steps) :
    ((∀ node ∈ nodes, alloc.size node < size) ∧ allocFrom alloc size steps previous current = some (none, alloc)) ∨
    ∃ before node later, nodes = before ++ node :: later ∧ (∀ skipped ∈ before, alloc.size skipped < size) ∧
      size ≤ alloc.size node ∧ allocFrom alloc size steps previous current =
        some (some ((node + sizeofFreeBlock) % 2 ^ 64), takeBlock alloc (before.getLast?.or previous) node size) := by
  induction nodes generalizing steps current previous with
  | nil =>
      obtain ⟨rest, rfl⟩ := Nat.exists_eq_add_of_lt enough
      rw [chain_nil.mp chain]
      exact Or.inl ⟨by simp, rfl⟩
  | cons node others ih =>
      obtain ⟨rest, rfl⟩ := Nat.exists_eq_add_of_lt enough
      rw [chain.1, allocFrom]
      split
      next fits => exact Or.inr ⟨[], node, others, rfl, by simp, fits, rfl⟩
      next small =>
        have longer : others.length < (node :: others).length + rest := by
          simp only [List.length_cons]
          omega
        cases ih (some node) chain.2 longer with
        | inl none =>
            refine Or.inl ⟨?_, none.2⟩
            intro other member
            cases List.mem_cons.mp member with
            | inl same => exact same ▸ Nat.lt_of_not_le small
            | inr inside => exact none.1 other inside
        | inr found =>
            obtain ⟨before, taken, later, split, skipped, fits, returned⟩ := found
            refine Or.inr ⟨node :: before, taken, later, by rw [split]; rfl, ?_, fits, ?_⟩
            · intro other member
              cases List.mem_cons.mp member with
              | inl same => exact same ▸ Nat.lt_of_not_le small
              | inr inside => exact skipped other inside
            · rw [returned]
              cases before <;> simp [List.getLast?_cons]

theorem isListedFrom_eq (chain : Chain alloc.next current nodes) (enough : nodes.length < steps) :
    isListedFrom alloc node steps current = some (decide (node ∈ nodes)) := by
  induction nodes generalizing steps current with
  | nil =>
      obtain ⟨rest, rfl⟩ := Nat.exists_eq_add_of_lt enough
      rw [chain_nil.mp chain]
      simp [isListedFrom]
  | cons first others ih =>
      obtain ⟨rest, rfl⟩ := Nat.exists_eq_add_of_lt enough
      rw [chain.1, isListedFrom]
      split
      next same => simp [same]
      next differ =>
        rw [ih chain.2 (by simp only [List.length_cons]; omega)]
        simp [Ne.symm differ]

/-- The block goes in front of the first listed block that is not below it. -/
theorem insertFrom_eq (previous : Option Nat) (chain : Chain alloc.next current (before ++ later))
    (below : ∀ other ∈ before, other < node) (above : ∀ other ∈ later, node ≤ other)
    (enough : before.length < steps) : insertFrom alloc node steps previous current =
      some ((alloc.setNext node later.head?).setLink (before.getLast?.or previous) (some node)) := by
  induction before generalizing steps current previous with
  | nil =>
      obtain ⟨rest, rfl⟩ := Nat.exists_eq_add_of_lt enough
      cases later with
      | nil =>
          rw [chain_nil.mp chain]
          simp [insertFrom]
      | cons first others =>
          rw [chain.1]
          have placed := Nat.not_lt.mpr (above first (by simp))
          simp [insertFrom, placed]
  | cons first others ih =>
      obtain ⟨rest, rfl⟩ := Nat.exists_eq_add_of_lt enough
      rw [chain.1, insertFrom]
      split
      next =>
        rw [ih (some first) chain.2 (fun other member => below other (by simp [member]))
          (by simp only [List.length_cons]; omega)]
        cases others <;> simp [List.getLast?_cons]
      next placed => exact absurd (below first (by simp)) placed

/-- Fewer blocks than rounds. -/
theorem Represents.listed_length (rep : Represents alloc blocks) :
    (freeStarts blocks).length ≤ blocks.length ∧ blocks.length < 65 := by
  have room := rep.contiguous.length
  constructor
  · simpa [freeStarts] using List.length_filter_le _ blocks
  · simp only [poolSize] at room
    omega

theorem alignUp_eq : alignUp size = (size + 15) % 2 ^ 64 / 16 * 16 :=
  @and_complement 64 4 _ (Nat.mod_lt _ (by decide)) (by decide)

/-- Allocation takes the lowest free block that fits, or leaves everything alone. -/
theorem freeListAlloc_spec (rep : Represents alloc blocks) (requestedSize : Nat) :
    (freeListAlloc alloc requestedSize = some (none, alloc) ∧
      (requestedSize = 0 ∨ ∀ block ∈ blocks, block.live = false → block.size < alignUp requestedSize)) ∨
    ∃ left block right after, blocks = left ++ block :: right ∧ block.live = false ∧ requestedSize ≠ 0 ∧
      alignUp requestedSize ≤ block.size ∧
      (∀ other ∈ left, other.live = false → other.size < alignUp requestedSize) ∧
      freeListAlloc alloc requestedSize = some (some (block.start + sizeofFreeBlock), after) ∧
      Represents after (left ++ block.take (alignUp requestedSize) ++ right) := by
  rw [freeListAlloc]
  split
  next zero => exact Or.inl ⟨rfl, Or.inl zero⟩
  next nonzero =>
    have enough : (freeStarts blocks).length < rounds := by
      have few := rep.listed_length
      simp only [rounds]
      omega
    cases allocFrom_eq none rep.listed enough with
    | inl none =>
        refine Or.inl ⟨none.2, Or.inr ?_⟩
        intro block member free
        have small := none.1 block.start (mem_freeStarts.mpr ⟨block, member, free, rfl⟩)
        rwa [rep.headers block member] at small
    | inr found =>
        obtain ⟨before, node, later, split, skipped, fits, returned⟩ := found
        obtain ⟨left, block, right, rfl, rfl, free, rfl, rfl⟩ := freeStarts_split split
        have member : block ∈ left ++ block :: right := by simp
        have range := rep.range member
        simp only [Block.limit] at range
        rw [rep.headers block member] at fits
        refine Or.inr ⟨left, block, right, takeBlock alloc (freeStarts left).getLast? block.start
          (alignUp requestedSize), rfl, free, nonzero, fits, ?_, ?_, ?_⟩
        · intro other inside freeOther
          have small := skipped other.start (mem_freeStarts.mpr ⟨other, inside, freeOther, rfl⟩)
          rwa [rep.headers other (by simp [inside])] at small
        · rw [returned, Option.or_none, Nat.mod_eq_of_lt (by omega)]
        · apply takeBlock_represents rep free fits
          rw [alignUp_eq]
          omega

/-- Listing a block makes it free. -/
theorem insertFreeBlock_spec (rep : Represents alloc (left ++ block :: right)) (live : block.live = true) :
    ∃ after, insertFreeBlock alloc block.start = some after ∧
      Represents after (left ++ { block with live := false } :: right) := by
  have member : block ∈ left ++ block :: right := by simp
  have here := rep.start_aligned member
  have range := rep.range member
  have around := rep.around
  have previous := rep.previous_aligned
  obtain ⟨freeBefore, freeBehind⟩ := rep.free_around
  have apart := fun node => @Represents.last_apart alloc left right block node rep
  simp only [Block.limit, sizeofFreeBlock] at range around freeBefore freeBehind
  have chain := rep.listed
  rw [freeStarts_append, freeStarts_cons_live live] at chain
  have enough : (freeStarts left).length < rounds := by
    have few := rep.listed_length
    rw [freeStarts_append, List.length_append] at few
    simp only [rounds]
    omega
  have validNext : ∀ target, (freeStarts right).head? = some target → 0 < target ∧ target < 2 ^ 64 := by
    apply rep.valid_link
    intro node head
    rw [freeStarts_append, freeStarts_cons_live live]
    exact List.mem_append_right _ (List.mem_of_head? head)
  have validHere : ∀ target, some block.start = some target → 0 < target ∧ target < 2 ^ 64 := by
    intro target same
    cases same
    omega
  have lower : ∀ node ∈ freeStarts left, node < block.start := by
    intro node member
    have place := freeBefore node member
    omega
  have upper : ∀ node ∈ freeStarts right, block.start ≤ node := by
    intro node member
    have place := freeBehind node member
    omega
  have inserted := insertFrom_eq none chain lower upper enough
  rw [Option.or_none] at inserted
  refine ⟨_, inserted, ?_⟩
  have starts : freeStarts ([{ block with live := false }] ++ right) = block.start :: freeStarts right := by
    simp [freeStarts]
  have sizes : ∀ other, other % 16 = 0 →
      ((alloc.setNext block.start (freeStarts right).head?).setLink (freeStarts left).getLast?
        (some block.start)).size other = alloc.size other := by
    intro other there
    rw [FreeListAllocator.size_setLink previous there, FreeListAllocator.size_setNext here there]
  have links : ∀ other, other % 16 = 0 →
      ((alloc.setNext block.start (freeStarts right).head?).setLink (freeStarts left).getLast?
        (some block.start)).next other =
      if (freeStarts left).getLast? = some other then some block.start
      else if other = block.start then (freeStarts right).head? else alloc.next other := by
    intro other there
    rw [FreeListAllocator.next_setLink validHere previous there,
      FreeListAllocator.next_setNext validNext here there]
  rw [List.append_cons] at rep ⊢
  apply rep.replace (by simp)
  · intro start limit contiguous
    exact contiguous
  · intro piece inside
    rw [List.mem_singleton] at inside
    rw [inside]
    exact rep.sizes block (by simp)
  · intro piece inside
    rw [List.mem_singleton] at inside
    rw [inside]
    exact rep.inside block (by simp)
  · intro other unchanged
    cases List.mem_append.mp unchanged with
    | inl before => exact sizes other.start (around.1 other before).1
    | inr behind => exact sizes other.start (around.2 other behind).1
  · intro piece inside
    rw [List.mem_singleton] at inside
    rw [inside, sizes block.start here]
    exact rep.headers block (by simp)
  · apply rep.relink
    · rw [starts]
      refine ⟨rfl, ?_⟩
      rw [links block.start here, if_neg (apart _ (Nat.le_refl _)), if_pos rfl]
      apply rep.chain_right
      intro node member
      have place := freeBehind node member
      rw [links node place.1, if_neg (apart node (by omega)), if_neg (by omega)]
    · rw [FreeListAllocator.freeList_setLink, starts]
      rfl
    · intro node member
      have place := freeBefore node member
      rw [links node place.1, starts, if_neg (show node ≠ block.start by omega)]
      rfl

end HundredDays.FirstFit
