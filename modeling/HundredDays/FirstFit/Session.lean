import HundredDays.FirstFit.Coalesce
import HundredDays.Semantics.Run
import Mathlib.Data.List.Perm.Basic

namespace HundredDays.FirstFit

open HundredDays.Data HundredDays.Memory HundredDays.Semantics

/-! Clients of the allocator: any sequence of allocations, frees and writes into
payloads. -/

/-- The allocator and the pointers that were returned and not yet freed. -/
structure Session where
  alloc : FreeListAllocator
  live : List Nat

inductive Request where
  | alloc (size : Nat)
  | free (ptr : Option Nat)
  | write (ptr index : Nat) (byte : UInt8)

namespace Session

def initial (memoryPool : Nat) (memory : Nat → UInt8) : Session :=
  { alloc := freeListInit memoryPool memory, live := [] }

/-- The recorded size of the block with this payload. -/
def payloadSize (session : Session) (ptr : Nat) : Nat := session.alloc.size (ptr - sizeofFreeBlock)

end Session

/-- One request; a client writes only into payloads it holds. -/
def step (session : Session) : Request → Option Session
  | .alloc size =>
      (freeListAlloc session.alloc size).map fun result =>
        { alloc := result.2, live := result.1.toList ++ session.live }
  | .free ptr =>
      (freeListFree session.alloc ptr).map fun result =>
        { alloc := result.2, live := if result.1 then session.live.filter (some · ≠ ptr) else session.live }
  | .write ptr index byte =>
      if ptr ∈ session.live ∧ index < session.payloadSize ptr then
        some { session with alloc := { session.alloc with
          memory := Function.update session.alloc.memory (ptr + index) byte } }
      else none

/-- Every pointer that is freed meets a condition in the state before. -/
def Disciplined (condition : Session → Option Nat → Prop) : Session → List Request → Prop
  | _, [] => True
  | session, request :: rest =>
      (∀ ptr, request = .free ptr → condition session ptr) ∧
      ∀ next, step session request = some next → Disciplined condition next rest

instance decideDisciplined {condition : Session → Option Nat → Prop}
    [∀ session ptr, Decidable (condition session ptr)] :
    ∀ session requests, Decidable (Disciplined condition session requests)
  | _, [] => isTrue trivial
  | session, request :: rest =>
      have first : Decidable (∀ ptr, request = .free ptr → condition session ptr) :=
        match request with
        | .free ptr => decidable_of_iff (condition session ptr) (by simp)
        | .alloc _ => isTrue (by simp)
        | .write _ _ _ => isTrue (by simp)
      have later : Decidable (∀ next, step session request = some next → Disciplined condition next rest) :=
        match step session request with
        | none => isTrue (by simp)
        | some next =>
            have : Decidable (Disciplined condition next rest) := decideDisciplined next rest
            decidable_of_iff (Disciplined condition next rest) (by simp)
      inferInstanceAs (Decidable (_ ∧ _))

/-- The pointer was returned and not yet freed. -/
def Session.Holds (session : Session) (ptr : Option Nat) : Prop := ∃ held ∈ session.live, ptr = some held

instance (session : Session) (ptr : Option Nat) : Decidable (session.Holds ptr) :=
  inferInstanceAs (Decidable (∃ held ∈ session.live, ptr = some held))

/-- The pointer is null, outside the payload addresses of the pool, live, or the
payload of a block that is on the free list. -/
def Session.Detects (session : Session) (ptr : Option Nat) : Prop :=
  ∀ target, ptr = some target →
    session.alloc.memoryPool + sizeofFreeBlock ≤ target → target < session.alloc.memoryPool + poolSize →
    target ∈ session.live ∨
      ∃ listed, Chain session.alloc.next session.alloc.freeList listed ∧ target - sizeofFreeBlock ∈ listed

def payloads (blocks : List Block) : List Nat :=
  (blocks.filter Block.live).map fun block => block.start + sizeofFreeBlock

variable {session next : Session} {blocks left right : List Block} {block : Block} {memoryPool : Nat}
  {memory : Nat → UInt8} {requests : List Request} {ptr : Option Nat}

/-- The memory represents a layout without touching free blocks, whose live blocks
are the client's. -/
def Valid (session : Session) : Prop :=
  ∃ blocks, Represents session.alloc blocks ∧ Separated blocks ∧ session.live.Perm (payloads blocks)

@[simp] theorem payloads_append : payloads (left ++ right) = payloads left ++ payloads right := by
  simp [payloads]

theorem mem_payloads {target : Nat} : target ∈ payloads blocks ↔
    ∃ block ∈ blocks, block.live = true ∧ block.start + sizeofFreeBlock = target := by
  simp [payloads, and_assoc]

theorem payloads_take {size : Nat} : payloads (block.take size) = [block.start + sizeofFreeBlock] := by
  rw [Block.take]
  split <;> simp [payloads]

theorem Represents.payloads_nodup {alloc : FreeListAllocator} (rep : Represents alloc blocks) :
    (payloads blocks).Nodup := by
  have distinct : blocks.Pairwise fun first second => first.start < second.start := by
    have contiguous := rep.contiguous
    generalize alloc.memoryPool + poolSize = limit at contiguous
    generalize alloc.memoryPool = start at contiguous
    clear rep
    induction blocks generalizing start with
    | nil => exact List.Pairwise.nil
    | cons first rest ih =>
        refine List.pairwise_cons.mpr ⟨?_, ih _ contiguous.2⟩
        intro other member
        have bound := (contiguous.2.range member).1
        simp only [Block.limit, sizeofFreeBlock] at bound
        omega
  apply List.Pairwise.map _ _ (distinct.filter _)
  intro first second less
  simp only [sizeofFreeBlock]
  omega

/-- A write into a payload leaves the headers alone. -/
theorem Represents.write {alloc : FreeListAllocator} {address : Nat} {byte : UInt8}
    (rep : Represents alloc blocks) (member : block ∈ blocks)
    (lower : block.start + sizeofFreeBlock ≤ address) (upper : address < block.limit) :
    Represents { alloc with memory := Function.update alloc.memory address byte } blocks := by
  have apart : ∀ other ∈ blocks, address < other.start ∨ other.start + 16 ≤ address := by
    intro other inside
    have place := rep.contiguous.disjoint member inside
    simp only [Block.limit, sizeofFreeBlock] at place lower upper
    cases place with
    | inl same => rw [← same]; omega
    | inr far => omega
  constructor
  · exact rep.aligned
  · exact rep.positive
  · exact rep.top
  · exact rep.contiguous
  · exact rep.sizes
  · exact rep.inside
  · intro other inside
    have place := apart other inside
    rw [← rep.headers other inside]
    exact loadSize_update (by omega)
  · apply rep.listed.congr
    intro node listed
    obtain ⟨other, inside, _, same⟩ := mem_freeStarts.mp listed
    have place := apart other inside
    exact loadPointer_update (by omega)

theorem Represents.listed_iff {alloc : FreeListAllocator} {node : Nat} (rep : Represents alloc blocks) :
    (∃ listed, Chain alloc.next alloc.freeList listed ∧ node ∈ listed) ↔ node ∈ freeStarts blocks := by
  constructor
  · intro found
    obtain ⟨listed, chain, member⟩ := found
    exact chain.unique rep.listed ▸ member
  · intro member
    exact ⟨freeStarts blocks, rep.listed, member⟩

/-- A pointer outside the payload addresses of the pool, or whose block is on the
free list, is refused. -/
theorem freeListFree_refused {alloc : FreeListAllocator} {target : Nat} (rep : Represents alloc blocks)
    (refused : alloc.memoryPool + sizeofFreeBlock ≤ target → target < alloc.memoryPool + poolSize →
      target - sizeofFreeBlock ∈ freeStarts blocks) :
    freeListFree alloc (some target) = some (false, alloc) := by
  simp only [freeListFree, rep.ptrInPool_eq, isAlreadyFree_eq rep]
  by_cases inPool : alloc.memoryPool ≤ target ∧ target < alloc.memoryPool + poolSize
  · by_cases low : target < alloc.memoryPool + sizeofFreeBlock
    · simp [low]
    · have listed := refused (by omega) inPool.2
      simp [listed]
  · simp [inPool]

/-- Past the checks, only success is returned. -/
theorem freeListFree_accepted {alloc : FreeListAllocator} {target : Nat} (rep : Represents alloc blocks)
    (lower : alloc.memoryPool + sizeofFreeBlock ≤ target) (upper : target < alloc.memoryPool + poolSize)
    (unlisted : target - sizeofFreeBlock ∉ freeStarts blocks) {result : Bool} {after : FreeListAllocator}
    (returned : freeListFree alloc (some target) = some (result, after)) : result = true := by
  have payload : alloc.memoryPool ≤ target ∧ target < alloc.memoryPool + poolSize := by omega
  have header : alloc.memoryPool ≤ target - sizeofFreeBlock ∧
      target - sizeofFreeBlock < alloc.memoryPool + poolSize := by omega
  simp only [freeListFree, rep.ptrInPool_eq, isAlreadyFree_eq rep, payload, header, decide_true, Bool.not_true,
    Bool.false_eq_true, if_false, Nat.not_lt.mpr lower, Option.bind_some, decide_eq_true_eq, unlisted,
    and_self] at returned
  obtain ⟨_, _, merged⟩ := Option.bind_eq_some_iff.mp returned
  obtain ⟨_, _, same⟩ := Option.map_eq_some_iff.mp merged
  exact (congrArg Prod.fst same).symm

/-- A free that meets the condition is decided rightly. -/
theorem free_detected (valid : Valid session) (ptr : Option Nat) (detects : session.Detects ptr) :
    ∃ result after, freeListFree session.alloc ptr = some (result, after) ∧
      (result = true ↔ ptr = none ∨ session.Holds ptr) ∧ (result = false → after = session.alloc) ∧
      Valid { alloc := after, live := if result then session.live.filter (some · ≠ ptr) else session.live } := by
  obtain ⟨blocks, rep, separated, live⟩ := valid
  cases ptr with
  | none => exact ⟨true, session.alloc, rfl, by simp, by simp, blocks, rep, separated, by simpa using live⟩
  | some target =>
      by_cases held : target ∈ session.live
      · obtain ⟨block, member, isLive, same⟩ := mem_payloads.mp (live.mem_iff.mp held)
        obtain ⟨left, right, rfl⟩ := List.append_of_mem member
        obtain ⟨after, merged, returned, represented, separatedAfter, others⟩ := freeListFree_live rep isLive
        refine ⟨true, after, same ▸ returned, by simp [Session.Holds, held], by simp, merged, represented,
          separatedAfter, ?_⟩
        have remaining : payloads merged = (payloads (left ++ block :: right)).filter (some · ≠ some target) := by
          have distinct := rep.payloads_nodup
          have cons : payloads (block :: right) = target :: payloads right := by simp [payloads, isLive, same]
          have after : payloads merged = payloads left ++ payloads right := by simp [payloads, others]
          rw [payloads_append, cons] at distinct ⊢
          obtain ⟨_, tail, apart⟩ := List.nodup_append.mp distinct
          have fresh := (List.nodup_cons.mp tail).1
          rw [after, List.filter_append, List.filter_cons_of_neg (by simp), List.filter_eq_self.mpr,
            List.filter_eq_self.mpr]
          · intro other inside
            simp only [ne_eq, Option.some.injEq, decide_not, Bool.not_eq_eq_eq_not, Bool.not_true,
              decide_eq_false_iff_not]
            exact fun equal => fresh (equal ▸ inside)
          · intro other inside
            simp only [ne_eq, Option.some.injEq, decide_not, Bool.not_eq_eq_eq_not, Bool.not_true,
              decide_eq_false_iff_not]
            exact apart other inside target (by simp)
        rw [remaining]
        exact live.filter _
      · have refused := freeListFree_refused rep (fun lower upper =>
          rep.listed_iff.mp ((detects target rfl lower upper).resolve_left held))
        exact ⟨false, session.alloc, refused, by simp [Session.Holds, held], by simp, blocks, rep, separated,
          by simpa using live⟩

theorem alloc_valid (valid : Valid session) (size : Nat) :
    ∃ result after, freeListAlloc session.alloc size = some (result, after) ∧
      Valid { alloc := after, live := result.toList ++ session.live } := by
  obtain ⟨blocks, rep, separated, live⟩ := valid
  cases freeListAlloc_spec rep size with
  | inl refused => exact ⟨none, session.alloc, refused.1, blocks, rep, separated, live⟩
  | inr found =>
      obtain ⟨left, block, right, after, rfl, free, _, _, _, returned, represented⟩ := found
      refine ⟨_, after, returned, _, represented, take_separated free separated, ?_⟩
      have unused : payloads (block :: right) = payloads right := by simp [payloads, free]
      rw [payloads_append, unused] at live
      rw [payloads_append, payloads_append, payloads_take]
      simp only [Option.toList_some, List.singleton_append, List.append_assoc]
      exact (live.cons _).trans List.perm_middle.symm

theorem step_valid (valid : Valid session) (request : Request)
    (disciplined : ∀ ptr, request = .free ptr → session.Detects ptr) (stepped : step session request = some next) :
    Valid next := by
  cases request with
  | alloc size =>
      obtain ⟨result, after, returned, valid⟩ := alloc_valid valid size
      simp only [step, returned, Option.map_some, Option.some.injEq] at stepped
      exact stepped ▸ valid
  | free ptr =>
      obtain ⟨result, after, returned, _, _, valid⟩ := free_detected valid ptr (disciplined ptr rfl)
      simp only [step, returned, Option.map_some, Option.some.injEq] at stepped
      exact stepped ▸ valid
  | write ptr index byte =>
      simp only [step] at stepped
      split at stepped
      next permitted =>
        cases stepped
        obtain ⟨blocks, rep, separated, live⟩ := valid
        obtain ⟨block, member, _, same⟩ := mem_payloads.mp (live.mem_iff.mp permitted.1)
        have inside := permitted.2
        rw [Session.payloadSize, ← same, Nat.add_sub_cancel, rep.headers block member] at inside
        refine ⟨blocks, rep.write member ?_ ?_, separated, live⟩
        · omega
        · simp only [Block.limit]
          omega
      next => cases stepped

theorem initial_valid (aligned : memoryPool % 16 = 0) (positive : 0 < memoryPool)
    (top : memoryPool + poolSize < 2 ^ 64) : Valid (Session.initial memoryPool memory) :=
  ⟨_, freeListInit_represents aligned positive top, List.isChain_singleton _, List.Perm.refl _⟩

theorem run_valid (valid : Valid session) (disciplined : Disciplined Session.Detects session requests)
    (ran : run step session requests = some next) : Valid next := by
  induction requests generalizing session with
  | nil =>
      cases ran
      exact valid
  | cons request rest ih =>
      obtain ⟨middle, stepped, remaining⟩ := run_cons_iff.mp ran
      exact ih (step_valid valid request disciplined.1 stepped) (disciplined.2 middle stepped) remaining

/-- Freeing only what is held meets the condition at every step. -/
theorem Disciplined.detects (disciplined : Disciplined Session.Holds session requests) :
    Disciplined Session.Detects session requests := by
  induction requests generalizing session with
  | nil => trivial
  | cons request rest ih =>
      refine ⟨?_, fun next stepped => ih (disciplined.2 next stepped)⟩
      intro ptr same target isTarget _ _
      obtain ⟨held, member, isHeld⟩ := disciplined.1 ptr same
      rw [isTarget, Option.some.injEq] at isHeld
      exact Or.inl (isHeld ▸ member)

/-- What holds of the free list and the blocks in use. -/
structure WellFormed (session : Session) (listed : List Nat) : Prop where
  visits : Chain session.alloc.next session.alloc.freeList listed
  increasing : listed.Pairwise (· < ·)
  apart : ∀ first ∈ listed, ∀ second ∈ listed,
    first + sizeofFreeBlock + session.alloc.size first ≠ second
  partition : ∀ address, session.alloc.memoryPool ≤ address → address < session.alloc.memoryPool + poolSize →
    ∃! block, (block ∈ listed ∨ block + sizeofFreeBlock ∈ session.live) ∧ block ≤ address ∧
      address < block + sizeofFreeBlock + session.alloc.size block
  inside : ∀ block, block ∈ listed ∨ block + sizeofFreeBlock ∈ session.live →
    session.alloc.memoryPool ≤ block ∧
      block + sizeofFreeBlock + session.alloc.size block ≤ session.alloc.memoryPool + poolSize
  exclusive : ∀ block ∈ listed, block + sizeofFreeBlock ∉ session.live
  aligned : ∀ ptr ∈ session.live, ptr % alignofMaxAlign = 0 ∧
    session.alloc.memoryPool + sizeofFreeBlock ≤ ptr ∧ ptr < session.alloc.memoryPool + poolSize ∧
    ptr + session.payloadSize ptr ≤ session.alloc.memoryPool + poolSize
  once : session.live.Nodup
  disjoint : ∀ first ∈ session.live, ∀ second ∈ session.live, first ≠ second →
    first + session.payloadSize first ≤ second ∨ second + session.payloadSize second ≤ first
  allocates : ∀ size, ∃ result after, freeListAlloc session.alloc size = some (result, after)
  frees : ∀ ptr ∈ session.live, ∃ after, freeListFree session.alloc (some ptr) = some (true, after)
  whole : session.live = [] → listed = [session.alloc.memoryPool] ∧
    session.alloc.size session.alloc.memoryPool = poolSize - sizeofFreeBlock

theorem Contiguous.covers {start limit address : Nat} (contiguous : Contiguous start blocks limit)
    (lower : start ≤ address) (upper : address < limit) :
    ∃ block ∈ blocks, block.start ≤ address ∧ address < block.limit := by
  induction blocks generalizing start with
  | nil =>
      rw [contiguous_nil] at contiguous
      omega
  | cons block rest ih =>
      by_cases here : address < block.limit
      · exact ⟨block, by simp, contiguous.1 ▸ lower, here⟩
      · obtain ⟨found, member, place⟩ := ih contiguous.2 (Nat.le_of_not_lt here)
        exact ⟨found, List.mem_cons_of_mem _ member, place⟩

/-- The blocks that are listed or in use are those of the layout. -/
theorem used_iff {live : List Nat} (same : live.Perm (payloads blocks)) (start : Nat) :
    (start ∈ freeStarts blocks ∨ start + sizeofFreeBlock ∈ live) ↔ ∃ block ∈ blocks, block.start = start := by
  rw [same.mem_iff, mem_freeStarts, mem_payloads]
  constructor
  · intro used
    cases used with
    | inl free =>
        obtain ⟨block, member, _, here⟩ := free
        exact ⟨block, member, here⟩
    | inr held =>
        obtain ⟨block, member, _, here⟩ := held
        exact ⟨block, member, Nat.add_right_cancel here⟩
  · intro found
    obtain ⟨block, member, here⟩ := found
    cases live : block.live with
    | true => exact Or.inr ⟨block, member, live, by rw [here]⟩
    | false => exact Or.inl ⟨block, member, live, here⟩

/-- Free blocks of a layout without touching ones are not next to each other. -/
theorem Separated.apart {start limit : Nat} (separated : Separated blocks)
    (contiguous : Contiguous start blocks limit) {first second : Block} (memberFirst : first ∈ blocks)
    (memberSecond : second ∈ blocks) (freeFirst : first.live = false) (freeSecond : second.live = false) :
    first.limit ≠ second.start := by
  intro touching
  obtain ⟨left, right, rfl⟩ := List.append_of_mem memberFirst
  have tail := (separated_append.mp separated).2.1
  cases right with
  | nil =>
      have bound := (contiguous.range memberSecond).2
      obtain ⟨_, _, _, last⟩ := contiguous_append.mp contiguous
      rw [contiguous_nil] at last
      simp only [Block.limit, sizeofFreeBlock] at touching bound last
      omega
  | cons next rest =>
      obtain ⟨_, _, _, here, _⟩ := contiguous_append.mp contiguous
      have same : next = second := by
        apply contiguous.eq_of_start (by simp) memberSecond
        rw [here, touching]
      have alive := (List.isChain_cons_cons.mp tail).1
      rw [same, freeFirst, freeSecond] at alive
      simp at alive

/-- When nothing is in use, one block is the whole pool. -/
theorem Represents.whole {alloc : FreeListAllocator} (rep : Represents alloc blocks) (separated : Separated blocks)
    (free : ∀ block ∈ blocks, block.live = false) :
    freeStarts blocks = [alloc.memoryPool] ∧ alloc.size alloc.memoryPool = poolSize - sizeofFreeBlock := by
  have contiguous := rep.contiguous
  cases blocks with
  | nil =>
      rw [contiguous_nil] at contiguous
      simp [poolSize] at contiguous
  | cons first rest =>
      cases rest with
      | nil =>
          obtain ⟨start, limit⟩ := contiguous
          have header := rep.headers first (by simp)
          rw [freeStarts_cons_free (free first (by simp)), ← start, header]
          simp only [contiguous_nil, Block.limit] at limit
          exact ⟨rfl, by omega⟩
      | cons second later =>
          have alive := (List.isChain_cons_cons.mp separated).1
          rw [free first (by simp), free second (by simp)] at alive
          simp at alive

theorem Valid.wellFormed (valid : Valid session) : ∃ listed, WellFormed session listed := by
  have allocates := alloc_valid valid
  have frees : ∀ ptr ∈ session.live, ∃ after, freeListFree session.alloc (some ptr) = some (true, after) := by
    intro ptr member
    have held : session.Holds (some ptr) := ⟨ptr, member, rfl⟩
    obtain ⟨result, after, returned, decided, _⟩ := free_detected valid (some ptr)
      (fun target same _ _ => Or.inl (Option.some.inj same ▸ member))
    exact ⟨after, by rw [returned, decided.mpr (Or.inr held)]⟩
  obtain ⟨blocks, rep, separated, live⟩ := valid
  have used := used_iff live
  have payload : ∀ ptr ∈ session.live, ∃ block ∈ blocks, block.live = true ∧
      block.start + sizeofFreeBlock = ptr ∧ session.payloadSize ptr = block.size := by
    intro ptr member
    obtain ⟨block, inside, alive, same⟩ := mem_payloads.mp (live.mem_iff.mp member)
    refine ⟨block, inside, alive, same, ?_⟩
    rw [Session.payloadSize, ← same, Nat.add_sub_cancel]
    exact rep.headers block inside
  refine ⟨freeStarts blocks, ?_⟩
  constructor
  · exact rep.listed
  · exact rep.contiguous.freeStarts_sorted
  · intro first memberFirst second memberSecond
    obtain ⟨block, inside, free, rfl⟩ := mem_freeStarts.mp memberFirst
    obtain ⟨other, insideOther, freeOther, rfl⟩ := mem_freeStarts.mp memberSecond
    rw [rep.headers block inside]
    exact separated.apart rep.contiguous inside insideOther free freeOther
  · intro address lower upper
    obtain ⟨block, inside, first, last⟩ := rep.contiguous.covers lower upper
    refine ⟨block.start, ⟨(used _).mpr ⟨block, inside, rfl⟩, first, ?_⟩, ?_⟩
    · rw [rep.headers block inside]
      exact last
    · intro start other
      obtain ⟨member, lowerOther, upperOther⟩ := other
      obtain ⟨otherBlock, insideOther, rfl⟩ := (used _).mp member
      rw [rep.headers otherBlock insideOther] at upperOther
      have places := rep.contiguous.disjoint insideOther inside
      simp only [Block.limit] at places last
      cases places with
      | inl same => rw [same]
      | inr far => omega
  · intro start member
    obtain ⟨block, inside, rfl⟩ := (used _).mp member
    rw [rep.headers block inside]
    exact rep.contiguous.range inside
  · intro start listed held
    obtain ⟨block, inside, free, same⟩ := mem_freeStarts.mp listed
    obtain ⟨other, insideOther, alive, sameOther, _⟩ := payload _ held
    have equal := rep.contiguous.eq_of_start inside insideOther (by omega)
    rw [equal, alive] at free
    cases free
  · intro ptr member
    obtain ⟨block, inside, _, same, size⟩ := payload ptr member
    have aligned := rep.start_aligned inside
    have bounds := rep.contiguous.range inside
    have room := rep.inside block inside
    simp only [Block.limit, sizeofFreeBlock, alignofMaxAlign] at *
    omega
  · exact live.nodup_iff.mpr rep.payloads_nodup
  · intro first memberFirst second memberSecond differ
    obtain ⟨block, inside, _, same, size⟩ := payload first memberFirst
    obtain ⟨other, insideOther, _, sameOther, sizeOther⟩ := payload second memberSecond
    have places := rep.contiguous.disjoint inside insideOther
    simp only [Block.limit] at places
    cases places with
    | inl equal => exact absurd (by rw [← same, ← sameOther, equal]) differ
    | inr far => omega
  · intro size
    obtain ⟨result, after, returned, _⟩ := allocates size
    exact ⟨result, after, returned⟩
  · exact frees
  · intro unused
    have free : ∀ block ∈ blocks, block.live = false := by
      intro block member
      by_contra alive
      have held : block.start + sizeofFreeBlock ∈ payloads blocks :=
        mem_payloads.mpr ⟨block, member, by simpa using alive, rfl⟩
      rw [unused] at live
      rw [live.symm.eq_nil] at held
      simp at held
    exact rep.whole separated free

/-- In every state that allocations, frees of what is held and writes into payloads
lead to, the free list and the blocks in use are well formed. -/
theorem free_list_well_formed (aligned : memoryPool % alignofMaxAlign = 0) (positive : 0 < memoryPool)
    (top : memoryPool + poolSize < 2 ^ 64)
    (disciplined : Disciplined Session.Holds (Session.initial memoryPool memory) requests)
    (ran : run step (Session.initial memoryPool memory) requests = some session) :
    ∃ listed, WellFormed session listed :=
  (run_valid (initial_valid aligned positive top) disciplined.detects ran).wellFormed

/-- Three blocks are taken and freed again. -/
theorem free_list_well_formed_refilled : ∃ session listed,
    run step (Session.initial 4096 fun _ => 0)
      [.alloc 4, .alloc 4, .alloc 101, .free (some 4112), .free (some 4144), .free (some 4176)] = some session ∧
    WellFormed session listed := by
  have finishes : (run step (Session.initial 4096 fun _ => 0)
      [.alloc 4, .alloc 4, .alloc 101, .free (some 4112), .free (some 4144), .free (some 4176)]).isSome = true := by
    decide +kernel
  obtain ⟨session, ran⟩ := Option.isSome_iff_exists.mp finishes
  obtain ⟨listed, wellFormed⟩ :=
    free_list_well_formed (by decide) (by decide) (by decide) (by decide +kernel) ran
  exact ⟨session, listed, ran, wellFormed⟩

/-- The answer of `free_list_free` is right: success exactly for a null pointer and
what is held, and nothing changes when it refuses. -/
def Validates (session : Session) (ptr : Option Nat) : Prop :=
  ∃ result after, freeListFree session.alloc ptr = some (result, after) ∧
    (result = true ↔ ptr = none ∨ session.Holds ptr) ∧ (result = false → after = session.alloc)

/-- The answer is right exactly when the pointer meets the condition: a pointer into
the pool that is neither held nor the payload of a listed block is not refused. -/
theorem validates_iff (aligned : memoryPool % alignofMaxAlign = 0) (positive : 0 < memoryPool)
    (top : memoryPool + poolSize < 2 ^ 64)
    (disciplined : Disciplined Session.Detects (Session.initial memoryPool memory) requests)
    (ran : run step (Session.initial memoryPool memory) requests = some session) (ptr : Option Nat) :
    Validates session ptr ↔ session.Detects ptr := by
  have valid := run_valid (initial_valid aligned positive top) disciplined ran
  constructor
  · intro validates target same lower upper
    subst ptr
    by_contra undetected
    rw [not_or] at undetected
    obtain ⟨result, after, returned, decided, _⟩ := validates
    obtain ⟨blocks, rep, _, _⟩ := valid
    have accepted := freeListFree_accepted rep lower upper
      (fun listed => undetected.2 (rep.listed_iff.mpr listed)) returned
    have held := (decided.mp accepted).resolve_left (by simp)
    obtain ⟨other, member, same⟩ := held
    exact undetected.1 (Option.some.inj same ▸ member)
  · intro detects
    obtain ⟨result, after, returned, decided, kept, _⟩ := free_detected valid ptr detects
    exact ⟨result, after, returned, decided, kept⟩

theorem validates_iff_after_free : ∃ session,
    run step (Session.initial 4096 fun _ => 0) [.alloc 4, .alloc 4, .free (some 4112)] = some session ∧
    Validates session (some 4144) := by
  have finishes : ((run step (Session.initial 4096 fun _ => 0) [.alloc 4, .alloc 4, .free (some 4112)]).filter
      fun session => decide (4144 ∈ session.live)).isSome = true := by
    decide +kernel
  obtain ⟨session, found⟩ := Option.isSome_iff_exists.mp finishes
  obtain ⟨ran, held⟩ := Option.filter_eq_some_iff.mp found
  have disciplined : Disciplined Session.Holds (Session.initial 4096 fun _ => 0)
      [.alloc 4, .alloc 4, .free (some 4112)] := by
    decide +kernel
  have detects : session.Detects (some 4144) := by
    intro target same _ _
    exact Or.inl (Option.some.inj same ▸ of_decide_eq_true held)
  exact ⟨session, ran,
    (validates_iff (by decide) (by decide) (by decide) disciplined.detects ran (some 4144)).mpr detects⟩

/-- The second of two neighbouring blocks that were freed has no header of its own
any more, and freeing it once more is not refused. -/
theorem merged_double_free : ∃ session,
    run step (Session.initial 4096 fun _ => 0)
      [.alloc 4, .alloc 4, .alloc 101, .free (some 4112), .free (some 4144)] = some session ∧
    Disciplined Session.Holds (Session.initial 4096 fun _ => 0)
      [.alloc 4, .alloc 4, .alloc 101, .free (some 4112), .free (some 4144)] ∧
    ¬ Validates session (some 4144) := by
  have accepts : ((run step (Session.initial 4096 fun _ => 0)
      [.alloc 4, .alloc 4, .alloc 101, .free (some 4112), .free (some 4144)]).bind fun session =>
      (freeListFree session.alloc (some 4144)).map fun result => (result.1, decide (4144 ∈ session.live))) =
      some (true, false) := by
    decide +kernel
  obtain ⟨session, ran, later⟩ := Option.bind_eq_some_iff.mp accepts
  obtain ⟨result, freed, both⟩ := Option.map_eq_some_iff.mp later
  refine ⟨session, ran, by decide +kernel, ?_⟩
  intro validates
  obtain ⟨answer, after, same, decided, _⟩ := validates
  have accepted : answer = true := by
    rw [freed, Option.some.injEq] at same
    rw [same] at both
    exact congrArg Prod.fst both
  obtain ⟨held, member, equal⟩ := (decided.mp accepted).resolve_left (by simp)
  have absent : 4144 ∉ session.live := by simpa using congrArg Prod.snd both
  exact absent (Option.some.inj equal ▸ member)

end HundredDays.FirstFit
