import HundredDays.Data.Links
import HundredDays.PagedStorage.Page

namespace HundredDays.PagedStorage

open HundredDays.Data

/-! The page allocator as the contents of pages describe it: the header names the
first free page, and every free page names the next. -/

variable {contents after : Int32 → Bytes} {free used : List Int32} {pageId first : Int32}

/-- A page id in a link; `-1` ends the list. -/
def freeLink (value : Int32) : Option Int32 := if value = -1 then none else some value

@[simp] theorem freeLink_none : freeLink (-1) = none := rfl

theorem freeLink_some (nonempty : pageId ≠ -1) : freeLink pageId = some pageId := if_neg nonempty

theorem freeLink_positive (positive : 0 < pageId) : freeLink pageId = some pageId := by
  apply freeLink_some
  rintro rfl
  exact absurd positive (by decide)

/-- `total_pages` as the header has it. -/
def totalPages (contents : Int32 → Bytes) : Nat := (contents 0).header.totalPages.toNat

/-- A page of the file that is not the header. -/
def Allocatable (contents : Int32 → Bytes) (pageId : Int32) : Prop :=
  0 < pageId ∧ pageId.toInt < totalPages contents

/-- The free list visits exactly `free`, each page once, and shares no page with
the pages in use. -/
structure Allocator (contents : Int32 → Bytes) (free used : List Int32) : Prop where
  listed : Chain (fun pageId => freeLink (contents pageId).nextFree)
    (freeLink (contents 0).header.freeListHead) free
  nodup : free.Nodup
  freeRange : ∀ pageId ∈ free, Allocatable contents pageId
  usedRange : ∀ pageId ∈ used, Allocatable contents pageId
  apart : ∀ pageId ∈ used, pageId ∉ free
  positive : 0 < totalPages contents
  bounded : totalPages contents ≤ 2 ^ 31

namespace Allocator

/-- Only the header and the free pages matter. -/
theorem congr (allocator : Allocator contents free used)
    (agree : ∀ pageId, pageId = 0 ∨ pageId ∈ free → after pageId = contents pageId) :
    Allocator after free used := by
  have header : after 0 = contents 0 := agree 0 (.inl rfl)
  have total : totalPages after = totalPages contents := by rw [totalPages, totalPages, header]
  obtain ⟨listed, nodup, freeRange, usedRange, apart, positive, bounded⟩ := allocator
  refine ⟨?_, nodup, ?_, ?_, apart, ?_, ?_⟩
  · rw [header]
    apply listed.congr
    intro pageId member
    rw [agree pageId (.inr member)]
  · intro pageId member
    rw [Allocatable, total]
    exact freeRange pageId member
  · intro pageId member
    rw [Allocatable, total]
    exact usedRange pageId member
  · rw [total]
    exact positive
  · rw [total]
    exact bounded

theorem toInt_toInt32 {total : UInt32} (bounded : total.toNat < 2 ^ 31) :
    total.toInt32.toInt = total.toNat := by
  change total.toBitVec.toInt = _
  rw [BitVec.toInt_eq_toNat_of_lt]
  · rfl
  · change 2 * total.toNat < 2 ^ 32
    omega

/-- An empty list grows the file by one page. -/
theorem append (allocator : Allocator contents [] used) (room : totalPages contents < 2 ^ 31)
    (header : after 0 = (contents 0).setTotalPages ((contents 0).header.totalPages + 1)) :
    Allocator after [] ((contents 0).header.totalPages.toInt32 :: used) ∧
      totalPages after = totalPages contents + 1 ∧
      (contents 0).header.totalPages.toInt32.toInt = totalPages contents ∧
      (contents 0).header.totalPages.toInt32 ∉ used := by
  have id := toInt_toInt32 room
  have total : totalPages after = totalPages contents + 1 := by
    rw [totalPages, header, Bytes.header_setTotalPages]
    change ((contents 0).header.totalPages.toNat + 1) % 2 ^ 32 = _
    rw [totalPages] at room ⊢
    omega
  have wider : ∀ pageId, Allocatable contents pageId → Allocatable after pageId := by
    rintro pageId ⟨lower, upper⟩
    exact ⟨lower, by rw [total]; omega⟩
  have new : Allocatable after (contents 0).header.totalPages.toInt32 := by
    constructor
    · rw [Int32.lt_iff_toInt_lt, id]
      simpa [totalPages] using allocator.positive
    · rw [id, total, totalPages]
      omega
  have empty : (after 0).header.freeListHead = (contents 0).header.freeListHead := by
    rw [header, Bytes.header_setTotalPages]
  refine ⟨⟨?_, List.nodup_nil, by simp, ?_, by simp, ?_, ?_⟩, total, id, ?_⟩
  · rw [empty]
    exact allocator.listed
  · intro pageId member
    rcases List.mem_cons.mp member with rfl | old
    · exact new
    · exact wider pageId (allocator.usedRange pageId old)
  · rw [total]
    omega
  · rw [total]
    omega
  · intro member
    have upper := (allocator.usedRange _ member).2
    rw [id, totalPages] at upper
    omega

theorem head (allocator : Allocator contents (first :: free) used) :
    (contents 0).header.freeListHead = first ∧ (contents 0).header.freeListHead ≠ -1 := by
  have start := allocator.listed.1
  unfold freeLink at start
  split at start
  · contradiction
  · rename_i nonempty
    exact ⟨Option.some.inj start, nonempty⟩

theorem empty (allocator : Allocator contents [] used) : (contents 0).header.freeListHead = -1 := by
  have start : freeLink (contents 0).header.freeListHead = none := allocator.listed
  unfold freeLink at start
  split at start
  · assumption
  · contradiction

/-- The first free page is taken off the list. -/
theorem reuse (allocator : Allocator contents (first :: free) used)
    (header : after 0 = (contents 0).setFreeListHead (contents first).nextFree)
    (others : ∀ pageId ∈ free, after pageId = contents pageId) :
    Allocator after free (first :: used) ∧ totalPages after = totalPages contents ∧ first ∉ used := by
  have total : totalPages after = totalPages contents := by
    rw [totalPages, header, Bytes.header_setFreeListHead]
    rfl
  obtain ⟨fresh, nodup⟩ := List.nodup_cons.mp allocator.nodup
  refine ⟨⟨?_, nodup, ?_, ?_, ?_, ?_, ?_⟩, total, ?_⟩
  · rw [header, Bytes.header_setFreeListHead]
    apply allocator.listed.2.congr
    intro pageId member
    rw [others pageId member]
  · intro pageId member
    rw [Allocatable, total]
    exact allocator.freeRange pageId (List.mem_cons_of_mem first member)
  · intro pageId member
    rw [Allocatable, total]
    rcases List.mem_cons.mp member with rfl | old
    · exact allocator.freeRange pageId List.mem_cons_self
    · exact allocator.usedRange pageId old
  · intro pageId member
    rcases List.mem_cons.mp member with rfl | old
    · exact fresh
    · exact fun listed => allocator.apart pageId old (List.mem_cons_of_mem first listed)
  · rw [total]
    exact allocator.positive
  · rw [total]
    exact allocator.bounded
  · exact fun member => allocator.apart first member List.mem_cons_self

/-- A page in use becomes the first free page. -/
theorem release (allocator : Allocator contents free used) (member : pageId ∈ used)
    (header : after 0 = (contents 0).setFreeListHead pageId)
    (freed : (after pageId).nextFree = (contents 0).header.freeListHead)
    (others : ∀ other ∈ free, after other = contents other) :
    Allocator after (pageId :: free) (used.filter (· ≠ pageId)) ∧
      totalPages after = totalPages contents := by
  have total : totalPages after = totalPages contents := by
    rw [totalPages, header, Bytes.header_setFreeListHead]
    rfl
  have range := allocator.usedRange pageId member
  refine ⟨⟨?_, ?_, ?_, ?_, ?_, ?_, ?_⟩, total⟩
  · rw [header, Bytes.header_setFreeListHead]
    refine ⟨freeLink_positive range.1, ?_⟩
    dsimp only
    rw [freed]
    apply allocator.listed.congr
    intro other listed
    rw [others other listed]
  · exact List.nodup_cons.mpr ⟨allocator.apart pageId member, allocator.nodup⟩
  · intro other listed
    rw [Allocatable, total]
    rcases List.mem_cons.mp listed with rfl | old
    · exact range
    · exact allocator.freeRange other old
  · intro other listed
    rw [Allocatable, total]
    exact allocator.usedRange other (List.mem_filter.mp listed).1
  · intro other listed
    obtain ⟨old, apart⟩ := List.mem_filter.mp listed
    have apart : other ≠ pageId := by simpa using apart
    simp only [List.mem_cons, not_or]
    exact ⟨apart, allocator.apart other old⟩
  · rw [total]
    exact allocator.positive
  · rw [total]
    exact allocator.bounded

/-- The header of a new file describes an allocator with no pages. -/
theorem initial (header : contents 0 = initialHeader) : Allocator contents [] [] := by
  have fields : (contents 0).header.totalPages = 1 ∧ (contents 0).header.freeListHead = -1 := by
    rw [header, initialHeader, Bytes.header_setFreeListHead, Bytes.header_setTotalPages]
    exact ⟨rfl, rfl⟩
  refine ⟨?_, List.nodup_nil, by simp, by simp, by simp, ?_, ?_⟩
  · rw [fields.2]
    rfl
  · rw [totalPages, fields.1]
    decide
  · rw [totalPages, fields.1]
    decide

end Allocator

end HundredDays.PagedStorage
