import HundredDays.FirstFit.Operations

namespace HundredDays.FirstFit

open HundredDays.Data HundredDays.Memory

/-! The pass over the free list that merges blocks which touch. -/

variable {alloc : FreeListAllocator} {blocks left right gap : List Block} {block second : Block} {steps : Nat}

/-- Two neighbouring free blocks become one; the second header is payload now. -/
theorem Represents.merge (rep : Represents alloc (left ++ block :: second :: right))
    (free : block.live = false) (freeSecond : second.live = false) :
    Represents ((alloc.setSize block.start (block.size + (sizeofFreeBlock + second.size))).setNext block.start
        (freeStarts right).head?)
      (left ++ { block with size := block.size + (sizeofFreeBlock + second.size) } :: right) := by
  have member : block ∈ left ++ block :: second :: right := by simp
  have memberSecond : second ∈ left ++ block :: second :: right := by simp
  have here := rep.start_aligned member
  have around := rep.around
  have range := rep.range memberSecond
  have behind := (around.2 second (by simp)).2
  have touching : block.limit = second.start := by
    obtain ⟨_, _, _, next, _⟩ := contiguous_append.mp rep.contiguous
    exact next.symm
  simp only [Block.limit, sizeofFreeBlock] at range behind touching around
  have valid : ∀ target, (freeStarts right).head? = some target → 0 < target ∧ target < 2 ^ 64 := by
    apply rep.valid_link
    intro node head
    rw [freeStarts_append, freeStarts_cons_free free, freeStarts_cons_free freeSecond]
    exact List.mem_append_right _ (List.mem_cons_of_mem _ (List.mem_cons_of_mem _ (List.mem_of_head? head)))
  have sizes : ∀ other, other % 16 = 0 →
      ((alloc.setSize block.start (block.size + (sizeofFreeBlock + second.size))).setNext block.start
        (freeStarts right).head?).size other =
      if other = block.start then block.size + (sizeofFreeBlock + second.size) else alloc.size other := by
    intro other there
    rw [FreeListAllocator.size_setNext here there,
      FreeListAllocator.size_setSize (by simp only [sizeofFreeBlock]; omega) here there]
  have links : ∀ other, other % 16 = 0 →
      ((alloc.setSize block.start (block.size + (sizeofFreeBlock + second.size))).setNext block.start
        (freeStarts right).head?).next other =
      if other = block.start then (freeStarts right).head? else alloc.next other := by
    intro other there
    rw [FreeListAllocator.next_setNext valid here there, FreeListAllocator.next_setSize here there]
  have others : ∀ other ∈ left ++ right, other.start % 16 = 0 ∧ other.start ≠ block.start := by
    intro other unchanged
    cases List.mem_append.mp unchanged with
    | inl before =>
        have place := around.1 other before
        exact ⟨place.1, by omega⟩
    | inr behind =>
        have place := around.2 other (List.mem_cons_of_mem _ behind)
        exact ⟨place.1, by omega⟩
  have both : Represents alloc (left ++ [block, second] ++ right) := by simpa using rep
  have merged : left ++ { block with size := block.size + (sizeofFreeBlock + second.size) } :: right =
      left ++ [{ block with size := block.size + (sizeofFreeBlock + second.size) }] ++ right := by simp
  rw [merged]
  apply both.replace (by simp)
  · intro start limit contiguous
    obtain ⟨first, _, last⟩ := contiguous
    refine ⟨first, ?_⟩
    simp only [contiguous_nil, Block.limit, sizeofFreeBlock] at last ⊢
    omega
  · intro piece inside
    have first := rep.sizes block member
    have size := rep.sizes second memberSecond
    rw [List.mem_singleton.mp inside]
    simp only [sizeofFreeBlock]
    omega
  · intro piece inside
    rw [List.mem_singleton.mp inside]
    exact rep.inside block member
  · intro other unchanged
    rw [sizes other.start (others other unchanged).1, if_neg (others other unchanged).2]
  · intro piece inside
    rw [List.mem_singleton.mp inside, sizes block.start here, if_pos rfl]
  · -- In the list, only the second block goes.
    have starts : freeStarts (left ++ [{ block with size := block.size + (sizeofFreeBlock + second.size) }] ++ right) =
        freeStarts ((left ++ [block]) ++ [] ++ right) := by
      simp [freeStarts, free]
    have onward : freeStarts ([] ++ right) = freeStarts right := rfl
    have last : (freeStarts (left ++ [block])).getLast? = some block.start := by
      simp [freeStarts, free]
    rw [starts]
    have split : Represents alloc ((left ++ [block]) ++ [second] ++ right) := by simpa using rep
    apply split.relink
    · rw [onward]
      apply split.chain_right
      intro node member
      obtain ⟨other, inside, _, same⟩ := mem_freeStarts.mp member
      have place := others other (List.mem_append_right _ inside)
      rw [← same, links other.start place.1, if_neg place.2]
    · rw [last]
      rfl
    · intro node member
      have aligned : node % 16 = 0 := by
        obtain ⟨other, inside, _, same⟩ := mem_freeStarts.mp member
        exact same ▸ rep.start_aligned (by simp at inside ⊢; grind)
      rw [links node aligned, last, onward]
      simp only [Option.some.injEq, eq_comm]

theorem separated_of_live (live : ∀ other ∈ gap, other.live = true) : Separated gap := by
  induction gap with
  | nil => exact List.isChain_nil
  | cons first rest ih =>
      apply List.isChain_cons.mpr
      exact ⟨fun _ _ => Or.inl (live first (by simp)), ih (fun other member => live other (by simp [member]))⟩

theorem Separated.append_live (separated : Separated left) (live : ∀ other ∈ gap, other.live = true) :
    Separated (left ++ gap) := by
  apply separated_append.mpr
  exact ⟨separated, separated_of_live live, fun _ _ second head => Or.inr (live second (List.mem_of_head? head))⟩

/-- Only which blocks are live matters. -/
theorem Separated.resize {size : Nat} (separated : Separated (left ++ [block])) :
    Separated (left ++ [{ block with size }]) := by
  obtain ⟨front, _, last⟩ := separated_append.mp separated
  apply separated_append.mpr
  refine ⟨front, List.isChain_singleton _, ?_⟩
  intro first final second head
  simp only [List.head?_cons, Option.mem_def, Option.some.injEq] at head
  subst second
  exact last first final block rfl

theorem live_of_freeStarts_nil (none : freeStarts gap = []) : ∀ other ∈ gap, other.live = true := by
  intro other member
  by_contra free
  have listed := mem_freeStarts.mpr ⟨other, member, by simpa using free, rfl⟩
  simp [none] at listed

/-- The rest of the pass, from a block up to which the layout is separated. -/
theorem coalesceFrom_spec (rep : Represents alloc (left ++ block :: right)) (free : block.live = false)
    (separated : Separated (left ++ [block])) (enough : right.length < steps) :
    ∃ after blocks, coalesceFrom alloc steps (some block.start) = some after ∧ Represents after blocks ∧
      Separated blocks ∧ blocks.filter Block.live = (left ++ block :: right).filter Block.live := by
  induction steps generalizing alloc left block right with
  | zero => omega
  | succ steps ih =>
      have member : block ∈ left ++ block :: right := by simp
      have range := rep.range member
      simp only [Block.limit] at range
      rw [coalesceFrom, rep.next_eq free]
      cases listed : freeStarts right with
      | nil =>
          refine ⟨alloc, _, rfl, rep, ?_, rfl⟩
          rw [List.append_cons]
          exact separated.append_live (live_of_freeStarts_nil listed)
      | cons node later =>
          obtain ⟨gap, second, rest, rfl, rfl, freeSecond, gapLive, restListed⟩ := 
            freeStarts_split (show freeStarts right = [] ++ node :: later from listed)
          have live := live_of_freeStarts_nil gapLive
          have limit : (block.start + sizeofFreeBlock + alloc.size block.start) % 2 ^ 64 = block.limit := by
            rw [rep.headers block member]
            exact Nat.mod_eq_of_lt range.2
          simp only [List.head?_cons, limit]
          cases gap with
          | nil =>
              simp only [List.nil_append] at rep enough ⊢
              have touching : block.limit = second.start := by
                obtain ⟨_, _, _, next, _⟩ := contiguous_append.mp rep.contiguous
                exact next.symm
              have merged := rep.merge free freeSecond
              have next : (alloc.setSize block.start (block.size + (sizeofFreeBlock + second.size))).next
                  second.start = (freeStarts rest).head? := by
                rw [FreeListAllocator.next_setSize (rep.start_aligned member) (rep.start_aligned (by simp))]
                rw [List.append_cons] at rep
                exact rep.next_eq freeSecond
              rw [if_pos touching, rep.headers block member, rep.headers second (by simp), next]
              obtain ⟨after, blocks, returned, represented, separatedAfter, same⟩ :=
                ih merged free separated.resize (by simp only [List.length_cons] at enough; omega)
              refine ⟨after, blocks, returned, represented, separatedAfter, ?_⟩
              rw [same]
              simp [free, freeSecond]
          | cons first others =>
              have split : left ++ block :: (first :: others ++ second :: rest) =
                  (left ++ block :: first :: others) ++ second :: rest := by simp
              have behind := rep.contiguous.behind (List.mem_append_left (second :: rest) (List.mem_cons_self))
              rw [split] at rep ⊢
              have before := rep.contiguous.before (show first ∈ left ++ block :: first :: others by simp)
              have apart : block.limit ≠ second.start := by
                simp only [Block.limit, sizeofFreeBlock] at behind before ⊢
                omega
              rw [if_neg apart]
              apply ih rep freeSecond
              · have onward := separated.append_live live
                rw [List.append_assoc, List.singleton_append] at onward
                apply separated_append.mpr
                refine ⟨onward, List.isChain_singleton _, ?_⟩
                intro last final _ _
                refine Or.inl (live last ?_)
                rw [List.getLast?_append, List.getLast?_cons_cons, List.getLast?_cons] at final
                simp only [Option.some_or, Option.mem_def, Option.some.injEq] at final
                rw [← final]
                have inside := List.getLast_mem (List.cons_ne_nil first others)
                simpa [List.getLast_eq_getLastD] using inside
              · simp only [List.length_append, List.length_cons] at enough
                omega

theorem coalesce_spec (rep : Represents alloc blocks) :
    ∃ after merged, coalesce alloc = some after ∧ Represents after merged ∧ Separated merged ∧
      merged.filter Block.live = blocks.filter Block.live := by
  rw [coalesce, rep.listed.start_eq_head?]
  cases listed : freeStarts blocks with
  | nil => exact ⟨alloc, blocks, rfl, rep, separated_of_live (live_of_freeStarts_nil listed), rfl⟩
  | cons node later =>
      obtain ⟨gap, block, rest, rfl, rfl, free, gapLive, _⟩ :=
        freeStarts_split (show freeStarts blocks = [] ++ node :: later from listed)
      have enough : rest.length < rounds := by
        have few := rep.listed_length.2
        simp only [List.length_append, List.length_cons, rounds] at few ⊢
        omega
      apply coalesceFrom_spec rep free _ enough
      apply separated_append.mpr
      refine ⟨separated_of_live (live_of_freeStarts_nil gapLive), List.isChain_singleton _, ?_⟩
      intro last final _ _
      exact Or.inl (live_of_freeStarts_nil gapLive last (List.mem_of_getLast? final))

/-- Whether a header stands in the free list. -/
theorem isAlreadyFree_eq {node : Nat} (rep : Represents alloc blocks) :
    isAlreadyFree alloc node = some (decide (node ∈ freeStarts blocks)) := by
  apply isListedFrom_eq rep.listed
  have few := rep.listed_length
  simp only [rounds]
  omega

theorem Represents.ptrInPool_eq {ptr : Nat} (rep : Represents alloc blocks) : ptrInPool alloc ptr =
    decide (alloc.memoryPool ≤ ptr ∧ ptr < alloc.memoryPool + poolSize) := by
  rw [ptrInPool, Nat.mod_eq_of_lt rep.top, Bool.decide_and]

/-- Freeing a live block gives the layout without it, merged. -/
theorem freeListFree_live (rep : Represents alloc (left ++ block :: right)) (live : block.live = true) :
    ∃ after merged, freeListFree alloc (some (block.start + sizeofFreeBlock)) = some (true, after) ∧
      Represents after merged ∧ Separated merged ∧
      merged.filter Block.live = left.filter Block.live ++ right.filter Block.live := by
  have member : block ∈ left ++ block :: right := by simp
  have bounds := rep.contiguous.range member
  have inside := rep.inside block member
  have notListed : block.start ∉ freeStarts (left ++ block :: right) := by
    intro listed
    obtain ⟨other, among, free, same⟩ := mem_freeStarts.mp listed
    rw [rep.contiguous.eq_of_start among member same, live] at free
    cases free
  obtain ⟨inserted, insertion, listedRep⟩ := insertFreeBlock_spec rep live
  obtain ⟨after, merged, merging, represented, separated, same⟩ := coalesce_spec listedRep
  refine ⟨after, merged, ?_, represented, separated, by rw [same]; simp⟩
  simp only [Block.limit] at bounds
  have listing : isAlreadyFree alloc block.start = some false := by
    rw [isAlreadyFree_eq rep, decide_eq_false notListed]
  simp only [freeListFree, rep.ptrInPool_eq, Nat.add_sub_cancel, listing]
  have payload : alloc.memoryPool ≤ block.start + sizeofFreeBlock ∧
      block.start + sizeofFreeBlock < alloc.memoryPool + poolSize := ⟨by omega, inside⟩
  have header : alloc.memoryPool ≤ block.start ∧ block.start < alloc.memoryPool + poolSize :=
    ⟨bounds.1, by omega⟩
  have behind : ¬ block.start + sizeofFreeBlock < alloc.memoryPool + sizeofFreeBlock := by omega
  simp [payload, header, behind, insertion, merging]

theorem freeListInit_represents {memoryPool : Nat} {memory : Nat → UInt8} (aligned : memoryPool % 16 = 0)
    (positive : 0 < memoryPool) (top : memoryPool + poolSize < 2 ^ 64) :
    Represents (freeListInit memoryPool memory)
      [{ start := memoryPool, size := poolSize - sizeofFreeBlock, live := false }] := by
  constructor
  · exact aligned
  · exact positive
  · exact top
  · exact ⟨rfl, rfl⟩
  · simp [poolSize, sizeofFreeBlock]
  · simp [freeListInit, poolSize, sizeofFreeBlock]
  · intro block member
    rw [List.mem_singleton.mp member]
    rw [freeListInit, FreeListAllocator.size_setNext aligned aligned,
      FreeListAllocator.size_setSize (by simp [poolSize, sizeofFreeBlock]) aligned aligned, if_pos rfl]
  · refine ⟨rfl, ?_⟩
    rw [freeListInit, FreeListAllocator.next_setNext (by simp) aligned aligned, if_pos rfl]
    rfl

end HundredDays.FirstFit
