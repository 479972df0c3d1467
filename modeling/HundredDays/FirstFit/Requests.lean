import HundredDays.FirstFit.Session

namespace HundredDays.FirstFit

open HundredDays.Data HundredDays.Semantics

/-! Requests of every size, those too whose rounded size wraps. -/

variable {alloc after : FreeListAllocator} {blocks left right : List Block} {block : Block} {session : Session}
  {memoryPool requestedSize size : Nat} {memory : Nat → UInt8} {requests : List Request}

/-- The size rounded up to the alignment, in numbers that do not wrap. -/
def roundedUp (size : Nat) : Nat := (size + (alignofMaxAlign - 1)) / alignofMaxAlign * alignofMaxAlign

/-- What a request is answered with: the lowest of the listed blocks that have the size, or nothing when there is none
of them. -/
structure Answers (alloc : FreeListAllocator) (listed : List Nat) (requestedSize : Nat) (result : Option Nat)
    (after : FreeListAllocator) : Prop where
  recorded : ∀ ptr, result = some ptr → requestedSize ≤ after.size (ptr - sizeofFreeBlock)
  refuses : result = none ↔ requestedSize = 0 ∨ ∀ block ∈ listed, alloc.size block < roundedUp requestedSize
  untouched : result = none → after = alloc
  lowest : ∀ ptr, result = some ptr → ptr - sizeofFreeBlock ∈ listed ∧
    roundedUp requestedSize ≤ alloc.size (ptr - sizeofFreeBlock) ∧
    ∀ block ∈ listed, block < ptr - sizeofFreeBlock → alloc.size block < roundedUp requestedSize

/-- The call returns, and with the right answer for the free list as it was. -/
def Honours (alloc : FreeListAllocator) (requestedSize : Nat) : Prop :=
  ∃ listed result after, Chain alloc.next alloc.freeList listed ∧
    freeListAlloc alloc requestedSize = some (result, after) ∧ Answers alloc listed requestedSize result after

theorem alignUp_of_le (fits : requestedSize ≤ 2 ^ 64 - 16) : alignUp requestedSize = roundedUp requestedSize := by
  have exact : (requestedSize + 15) % 2 ^ 64 = requestedSize + 15 := Nat.mod_eq_of_lt (by omega)
  rw [alignUp_eq, exact]
  rfl

theorem alignUp_of_gt (wraps : 2 ^ 64 - 16 < requestedSize) (word : requestedSize < 2 ^ 64) :
    alignUp requestedSize = 0 ∧ roundedUp requestedSize = 2 ^ 64 := by
  rw [alignUp_eq, roundedUp]
  simp only [alignofMaxAlign]
  omega

theorem Block.take_first (fits : size ≤ block.size) :
    ∃ first ∈ block.take size, first.start = block.start ∧ size ≤ first.size := by
  rw [Block.take]
  split
  · exact ⟨_, List.mem_cons_self, rfl, Nat.le_refl size⟩
  · exact ⟨_, List.mem_cons_self, rfl, fits⟩

namespace Represents

theorem listed_lt (rep : Represents alloc blocks) {node : Nat} (listed : node ∈ freeStarts blocks) :
    alloc.size node < 2 ^ 64 := by
  obtain ⟨block, member, _, rfl⟩ := mem_freeStarts.mp listed
  have range := (rep.range member).2
  rw [rep.headers block member]
  simp only [Block.limit] at range
  omega

/-- A size that is rounded up without wrapping is answered rightly. -/
theorem honours_of_le (rep : Represents alloc blocks) (fits : requestedSize ≤ 2 ^ 64 - 16) :
    Honours alloc requestedSize := by
  have rounded := alignUp_of_le fits
  have above : requestedSize ≤ roundedUp requestedSize := by
    simp only [roundedUp, alignofMaxAlign]
    omega
  obtain ⟨returned, nothing⟩ | ⟨left, block, right, after, rfl, free, nonzero, enough, small, returned, represented⟩ :=
    freeListAlloc_spec rep requestedSize
  · refine ⟨freeStarts blocks, none, alloc, rep.listed, returned, ?_, ?_, ?_, ?_⟩
    · simp
    · refine iff_of_true rfl (nothing.imp_right fun small node listed => ?_)
      obtain ⟨block, member, free, rfl⟩ := mem_freeStarts.mp listed
      rw [rep.headers block member, ← rounded]
      exact small block member free
    · exact fun _ => rfl
    · simp
  · have member : block ∈ left ++ block :: right := by simp
    have header := rep.headers block member
    have listed : block.start ∈ freeStarts (left ++ block :: right) := mem_freeStarts.mpr ⟨block, member, free, rfl⟩
    rw [rounded] at enough small represented
    refine ⟨_, _, after, rep.listed, returned, ?_, ?_, ?_, ?_⟩
    · intro ptr same
      cases same
      obtain ⟨first, inside, start, size⟩ := Block.take_first enough
      rw [Nat.add_sub_cancel, ← start, represented.headers first (by simp [inside])]
      exact above.trans size
    · refine iff_of_false (by simp) (not_or.mpr ⟨nonzero, fun none => ?_⟩)
      have less := none block.start listed
      rw [header] at less
      exact absurd enough (Nat.not_le_of_lt less)
    · simp
    · intro ptr same
      cases same
      rw [Nat.add_sub_cancel, header]
      refine ⟨listed, enough, ?_⟩
      intro node other below
      obtain ⟨earlier, inside, freeEarlier, rfl⟩ := mem_freeStarts.mp other
      rw [rep.headers earlier inside]
      cases List.mem_append.mp inside with
      | inl before => exact small earlier before freeEarlier
      | inr rest =>
          cases List.mem_cons.mp rest with
          | inl equal =>
              rw [equal] at below
              exact absurd below (Nat.lt_irrefl _)
          | inr later =>
              have behind := rep.contiguous.behind later
              simp only [Block.limit] at behind
              omega

/-- A size that wraps fits into every block. -/
theorem honours_iff_of_gt (rep : Represents alloc blocks) (wraps : 2 ^ 64 - 16 < requestedSize)
    (word : requestedSize < 2 ^ 64) : Honours alloc requestedSize ↔ alloc.freeList = none := by
  obtain ⟨zero, top⟩ := alignUp_of_gt wraps word
  obtain ⟨returned, nothing⟩ | ⟨left, block, right, after, rfl, free, nonzero, _, _, returned, _⟩ :=
    freeListAlloc_spec rep requestedSize
  · have none : freeStarts blocks = [] := by
      apply List.eq_nil_iff_forall_not_mem.mpr
      intro node listed
      obtain ⟨block, member, free, rfl⟩ := mem_freeStarts.mp listed
      cases nothing with
      | inl zero => omega
      | inr small =>
          have less := small block member free
          omega
    have chain := rep.listed
    rw [none, chain_nil] at chain
    refine iff_of_true ⟨[], _, alloc, chain, returned, ?_, ?_, ?_, ?_⟩ chain
    all_goals simp
  · have listed : block.start ∈ freeStarts (left ++ block :: right) :=
      mem_freeStarts.mpr ⟨block, by simp, free, rfl⟩
    have chain := rep.listed
    refine iff_of_false ?_ ?_
    · intro honours
      obtain ⟨others, result, final, same, called, answers⟩ := honours
      cases chain.unique same
      have refused := answers.refuses.mpr (.inr fun node listed => top ▸ rep.listed_lt listed)
      rw [refused, returned] at called
      cases called
    · intro none
      rw [none] at chain
      cases split : freeStarts (left ++ block :: right) with
      | nil => simp [split] at listed
      | cons first rest =>
          rw [split, chain_cons] at chain
          exact absurd chain.1 (by simp)

end Represents

/-- In every reachable state a request is answered rightly exactly when its size is rounded up without wrapping or
nothing is free. -/
theorem honours_iff (aligned : memoryPool % alignofMaxAlign = 0) (positive : 0 < memoryPool)
    (top : memoryPool + poolSize < 2 ^ 64)
    (disciplined : Disciplined Session.Detects (Session.initial memoryPool memory) requests)
    (ran : run step (Session.initial memoryPool memory) requests = some session)
    (word : requestedSize < 2 ^ 64) :
    Honours session.alloc requestedSize ↔ requestedSize ≤ 2 ^ 64 - 16 ∨ session.alloc.freeList = none := by
  obtain ⟨blocks, rep, _, _⟩ := run_valid (initial_valid aligned positive top) disciplined ran
  by_cases fits : requestedSize ≤ 2 ^ 64 - 16
  · exact iff_of_true (rep.honours_of_le fits) (.inl fits)
  · rw [rep.honours_iff_of_gt (Nat.lt_of_not_le fits) word, or_iff_right fits]

theorem honours_iff_initial : Honours (Session.initial 4096 fun _ => 0).alloc 100 ↔
    100 ≤ 2 ^ 64 - 16 ∨ (Session.initial 4096 fun _ => 0).alloc.freeList = none :=
  honours_iff (by decide) (by decide) (by decide)
    (show Disciplined Session.Detects (Session.initial 4096 fun _ => 0) [] from trivial) rfl (by decide)

/-- The largest size of all gets a block whose header says that it has no bytes. -/
theorem largest_size : ∃ after,
    freeListAlloc (Session.initial 4096 fun _ => 0).alloc (2 ^ 64 - 1) = some (some 4112, after) ∧ after.size 4096 = 0 ∧
      ¬ Honours (Session.initial 4096 fun _ => 0).alloc (2 ^ 64 - 1) := by
  have returned : ((freeListAlloc (Session.initial 4096 fun _ => 0).alloc (2 ^ 64 - 1)).map fun result =>
      (result.1, result.2.size 4096)) = some (some 4112, 0) := by
    decide +kernel
  obtain ⟨⟨result, after⟩, called, same⟩ := Option.map_eq_some_iff.mp returned
  obtain ⟨pointer, size⟩ := Prod.mk.inj same
  change result = some 4112 at pointer
  rw [pointer] at called
  refine ⟨after, called, size, fun honours => ?_⟩
  obtain ⟨listed, other, final, _, again, answers⟩ := honours
  rw [called] at again
  cases again
  have recorded := answers.recorded 4112 rfl
  change after.size 4096 = 0 at size
  change 2 ^ 64 - 1 ≤ after.size 4096 at recorded
  rw [size] at recorded
  exact absurd recorded (by decide)

end HundredDays.FirstFit
