import HundredDays.Data.Links
import HundredDays.FirstFit.Model
import Mathlib.Data.List.Chain
import Mathlib.Tactic.Common

namespace HundredDays.FirstFit

open HundredDays.Data HundredDays.Memory

/-! The pool as a sequence of blocks, live and free, and the memory that represents it. -/

structure Block where
  start : Nat
  size : Nat
  live : Bool

def Block.limit (block : Block) : Nat := block.start + sizeofFreeBlock + block.size

/-- The blocks fill the addresses from `start` to `limit` one after another. -/
def Contiguous : Nat → List Block → Nat → Prop
  | start, [], limit => start = limit
  | start, block :: rest, limit => block.start = start ∧ Contiguous block.limit rest limit

/-- No two neighbours are free. -/
def Separated (blocks : List Block) : Prop :=
  blocks.IsChain fun left right => left.live = true ∨ right.live = true

def freeStarts (blocks : List Block) : List Nat :=
  (blocks.filter fun block => !block.live).map Block.start

variable {alloc after : FreeListAllocator} {blocks left right old new : List Block} {block : Block}
  {start middle limit node other value : Nat} {link previous : Option Nat}

@[simp] theorem contiguous_nil : Contiguous start [] limit ↔ start = limit := Iff.rfl

@[simp] theorem contiguous_cons : Contiguous start (block :: blocks) limit ↔
    block.start = start ∧ Contiguous block.limit blocks limit := Iff.rfl

theorem contiguous_append : Contiguous start (left ++ right) limit ↔
    ∃ middle, Contiguous start left middle ∧ Contiguous middle right limit := by
  induction left generalizing start with
  | nil => simp
  | cons block rest ih => simp [ih, and_assoc]

theorem Contiguous.le (contiguous : Contiguous start blocks limit) : start ≤ limit := by
  induction blocks generalizing start with
  | nil => exact Nat.le_of_eq contiguous
  | cons block rest ih =>
      have later := ih contiguous.2
      have first := contiguous.1
      simp only [Block.limit] at later
      omega

theorem Contiguous.range (contiguous : Contiguous start blocks limit) (member : block ∈ blocks) :
    start ≤ block.start ∧ block.limit ≤ limit := by
  obtain ⟨before, later, rfl⟩ := List.append_of_mem member
  obtain ⟨middle, first, second⟩ := contiguous_append.mp contiguous
  exact ⟨second.1 ▸ first.le, second.2.le⟩

/-- The blocks before a block end where it starts or earlier. -/
theorem Contiguous.before (contiguous : Contiguous start (left ++ block :: right) limit) {earlier : Block}
    (member : earlier ∈ left) : earlier.limit ≤ block.start := by
  obtain ⟨middle, first, second⟩ := contiguous_append.mp contiguous
  exact second.1 ▸ (first.range member).2

theorem Contiguous.behind (contiguous : Contiguous start (left ++ block :: right) limit) {later : Block}
    (member : later ∈ right) : block.limit ≤ later.start := by
  obtain ⟨middle, _, second⟩ := contiguous_append.mp contiguous
  exact (second.2.range member).1

theorem Contiguous.aligned (contiguous : Contiguous start blocks limit)
    (sizes : ∀ block ∈ blocks, block.size % 16 = 0) (base : start % 16 = 0) (member : block ∈ blocks) :
    block.start % 16 = 0 := by
  induction blocks generalizing start with
  | nil => simp at member
  | cons first rest ih =>
      have here := contiguous.1
      cases List.mem_cons.mp member with
      | inl same =>
          rw [same, here]
          exact base
      | inr later =>
          have size := sizes first (by simp)
          apply ih contiguous.2 (fun other inside => sizes other (by simp [inside])) _ later
          simp only [Block.limit, sizeofFreeBlock]
          omega

theorem Contiguous.length (contiguous : Contiguous start blocks limit) :
    start + 16 * blocks.length ≤ limit := by
  induction blocks generalizing start with
  | nil => exact Nat.le_of_eq contiguous
  | cons block rest ih =>
      have here := contiguous.1
      have later := ih contiguous.2
      simp only [Block.limit, sizeofFreeBlock, List.length_cons] at later ⊢
      omega

/-- Two blocks of a layout do not overlap. -/
theorem Contiguous.disjoint (contiguous : Contiguous start blocks limit) {first second : Block}
    (memberFirst : first ∈ blocks) (memberSecond : second ∈ blocks) :
    first = second ∨ first.limit ≤ second.start ∨ second.limit ≤ first.start := by
  obtain ⟨before, later, rfl⟩ := List.append_of_mem memberFirst
  cases List.mem_append.mp memberSecond with
  | inl earlier => exact Or.inr (Or.inr (contiguous.before earlier))
  | inr others =>
      cases List.mem_cons.mp others with
      | inl same => exact Or.inl same.symm
      | inr behind => exact Or.inr (Or.inl (contiguous.behind behind))

theorem Contiguous.eq_of_start (contiguous : Contiguous start blocks limit) {first second : Block}
    (memberFirst : first ∈ blocks) (memberSecond : second ∈ blocks) (same : first.start = second.start) :
    first = second := by
  apply (contiguous.disjoint memberFirst memberSecond).resolve_right
  simp only [Block.limit, sizeofFreeBlock]
  omega

@[simp] theorem freeStarts_nil : freeStarts [] = [] := rfl

@[simp] theorem freeStarts_append : freeStarts (left ++ right) = freeStarts left ++ freeStarts right := by
  simp [freeStarts]

theorem freeStarts_cons_live (live : block.live = true) : freeStarts (block :: blocks) = freeStarts blocks := by
  simp [freeStarts, live]

theorem freeStarts_cons_free (free : block.live = false) :
    freeStarts (block :: blocks) = block.start :: freeStarts blocks := by
  simp [freeStarts, free]

theorem mem_freeStarts : node ∈ freeStarts blocks ↔
    ∃ block ∈ blocks, block.live = false ∧ block.start = node := by
  simp [freeStarts, and_assoc]

/-- A listed address splits the layout at its block. -/
theorem freeStarts_split {before later : List Nat} (split : freeStarts blocks = before ++ node :: later) :
    ∃ left block right, blocks = left ++ block :: right ∧ block.start = node ∧ block.live = false ∧
      freeStarts left = before ∧ freeStarts right = later := by
  obtain ⟨front, back, filtered, frontStarts, backStarts⟩ := List.map_eq_append_iff.mp split
  obtain ⟨left, tail, same, frontFree, backFree⟩ := List.filter_eq_append_iff.mp filtered
  obtain ⟨block, rest, rfl, blockStart, restStarts⟩ := List.map_eq_cons_iff.mp backStarts
  obtain ⟨skipped, right, same', live, free, rightFree⟩ := List.filter_eq_cons_iff.mp backFree
  refine ⟨left ++ skipped, block, right, by simp [same, same'], blockStart, by simpa using free, ?_, ?_⟩
  · have none : skipped.filter (fun block => !block.live) = [] := by
      simpa [List.filter_eq_nil_iff] using live
    simp [freeStarts, frontFree, none, frontStarts]
  · rw [freeStarts, rightFree, restStarts]

theorem Contiguous.freeStarts_sorted (contiguous : Contiguous start blocks limit) :
    (freeStarts blocks).Pairwise (· < ·) := by
  induction blocks generalizing start with
  | nil => simp
  | cons block rest ih =>
      cases free : block.live with
      | true => simpa [freeStarts_cons_live free] using ih contiguous.2
      | false =>
          rw [freeStarts_cons_free free, List.pairwise_cons]
          refine ⟨?_, ih contiguous.2⟩
          intro later member
          obtain ⟨other, inside, _, same⟩ := mem_freeStarts.mp member
          have bound := (contiguous.2.range inside).1
          simp only [Block.limit, sizeofFreeBlock] at bound
          omega

namespace FreeListAllocator

@[simp] theorem freeList_setSize : (alloc.setSize node value).freeList = alloc.freeList := rfl

@[simp] theorem freeList_setNext : (alloc.setNext node link).freeList = alloc.freeList := rfl

@[simp] theorem memoryPool_setSize : (alloc.setSize node value).memoryPool = alloc.memoryPool := rfl

@[simp] theorem memoryPool_setNext : (alloc.setNext node link).memoryPool = alloc.memoryPool := rfl

@[simp] theorem memoryPool_setLink : (alloc.setLink previous link).memoryPool = alloc.memoryPool := by
  cases previous <;> rfl

theorem freeList_setLink : (alloc.setLink previous link).freeList =
    if previous = none then link else alloc.freeList := by
  cases previous <;> simp [setLink]

theorem size_setSize (fits : value < 2 ^ 64) (here : node % 16 = 0) (there : other % 16 = 0) :
    (alloc.setSize node value).size other = if other = node then value else alloc.size other := by
  by_cases same : other = node
  · subst other
    rw [if_pos rfl]
    exact loadSize_storeSize fits
  · rw [if_neg same]
    exact loadSize_storeSize_other (by omega)

theorem next_setSize (here : node % 16 = 0) (there : other % 16 = 0) :
    (alloc.setSize node value).next other = alloc.next other :=
  loadPointer_storeSize (by omega)

theorem size_setNext (here : node % 16 = 0) (there : other % 16 = 0) :
    (alloc.setNext node link).size other = alloc.size other :=
  loadSize_storePointer (by omega)

theorem next_setNext (valid : ∀ target, link = some target → 0 < target ∧ target < 2 ^ 64)
    (here : node % 16 = 0) (there : other % 16 = 0) :
    (alloc.setNext node link).next other = if other = node then link else alloc.next other := by
  by_cases same : other = node
  · subst other
    rw [if_pos rfl]
    exact loadPointer_storePointer valid
  · rw [if_neg same]
    exact loadPointer_storePointer_other (by omega)

theorem size_setLink (here : ∀ node, previous = some node → node % 16 = 0) (there : other % 16 = 0) :
    (alloc.setLink previous link).size other = alloc.size other := by
  cases previous with
  | none => rfl
  | some node => exact size_setNext (here node rfl) there

theorem next_setLink (valid : ∀ target, link = some target → 0 < target ∧ target < 2 ^ 64)
    (here : ∀ node, previous = some node → node % 16 = 0) (there : other % 16 = 0) :
    (alloc.setLink previous link).next other = if previous = some other then link else alloc.next other := by
  cases previous with
  | none => simp [setLink, next]
  | some node =>
      simp only [setLink, next_setNext valid (here node rfl) there, Option.some.injEq, eq_comm]

end FreeListAllocator

/-- The memory represents the layout: every block has its size in its header, and
the free list visits the free blocks in address order. -/
structure Represents (alloc : FreeListAllocator) (blocks : List Block) : Prop where
  aligned : alloc.memoryPool % 16 = 0
  positive : 0 < alloc.memoryPool
  top : alloc.memoryPool + poolSize < 2 ^ 64
  contiguous : Contiguous alloc.memoryPool blocks (alloc.memoryPool + poolSize)
  sizes : ∀ block ∈ blocks, block.size % 16 = 0
  inside : ∀ block ∈ blocks, block.start + sizeofFreeBlock < alloc.memoryPool + poolSize
  headers : ∀ block ∈ blocks, alloc.size block.start = block.size
  listed : Chain alloc.next alloc.freeList (freeStarts blocks)

namespace Represents

theorem start_aligned (rep : Represents alloc blocks) (member : block ∈ blocks) : block.start % 16 = 0 :=
  rep.contiguous.aligned rep.sizes rep.aligned member

theorem range (rep : Represents alloc blocks) (member : block ∈ blocks) :
    0 < block.start ∧ block.limit < 2 ^ 64 := by
  have bounds := rep.contiguous.range member
  have positive := rep.positive
  have top := rep.top
  omega

/-- A link to a listed block, or to none. -/
theorem valid_link (rep : Represents alloc blocks) (sub : ∀ node ∈ link, node ∈ freeStarts blocks) :
    ∀ target, link = some target → 0 < target ∧ target < 2 ^ 64 := by
  intro target same
  obtain ⟨block, member, _, start⟩ := mem_freeStarts.mp (sub target (by simp [same]))
  have bounds := rep.range member
  simp only [Block.limit] at bounds
  omega

theorem listed_aligned (rep : Represents alloc blocks) (member : node ∈ freeStarts blocks) : node % 16 = 0 := by
  obtain ⟨block, inside, _, start⟩ := mem_freeStarts.mp member
  exact start ▸ rep.start_aligned inside

theorem listed_nodup (rep : Represents alloc blocks) : (freeStarts blocks).Nodup :=
  rep.contiguous.freeStarts_sorted.imp Nat.ne_of_lt

/-- Exchange some neighbouring blocks for others that fill the same addresses. -/
theorem replace (rep : Represents alloc (left ++ old ++ right)) (pool : after.memoryPool = alloc.memoryPool)
    (fills : ∀ start limit, Contiguous start old limit → Contiguous start new limit)
    (sizes : ∀ block ∈ new, block.size % 16 = 0)
    (inside : ∀ block ∈ new, block.start + sizeofFreeBlock < alloc.memoryPool + poolSize)
    (kept : ∀ block ∈ left ++ right, after.size block.start = alloc.size block.start)
    (fresh : ∀ block ∈ new, after.size block.start = block.size)
    (listed : Chain after.next after.freeList (freeStarts (left ++ new ++ right))) :
    Represents after (left ++ new ++ right) := by
  have outer : ∀ block ∈ left ++ right, block ∈ left ++ old ++ right := by
    intro block member
    simp only [List.mem_append] at member ⊢
    grind
  have either : ∀ block ∈ left ++ new ++ right, block ∈ left ++ right ∨ block ∈ new := by
    intro block member
    simp only [List.mem_append] at member ⊢
    grind
  constructor
  · rw [pool]
    exact rep.aligned
  · rw [pool]
    exact rep.positive
  · rw [pool]
    exact rep.top
  · have tiles := rep.contiguous
    rw [pool]
    simp only [contiguous_append] at tiles ⊢
    obtain ⟨second, ⟨first, before, changed⟩, behind⟩ := tiles
    exact ⟨second, ⟨first, before, fills _ _ changed⟩, behind⟩
  · intro block member
    cases either block member with
    | inl unchanged => exact rep.sizes block (outer block unchanged)
    | inr added => exact sizes block added
  · intro block member
    rw [pool]
    cases either block member with
    | inl unchanged => exact rep.inside block (outer block unchanged)
    | inr added => exact inside block added
  · intro block member
    cases either block member with
    | inl unchanged =>
        rw [kept block unchanged]
        exact rep.headers block (outer block unchanged)
    | inr added => exact fresh block added
  · exact listed

end Represents

end HundredDays.FirstFit
