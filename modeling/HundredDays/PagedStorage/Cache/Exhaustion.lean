import HundredDays.PagedStorage.Allocation

namespace HundredDays.PagedStorage

open HundredDays.Data HundredDays.Memory

/-! When a cache can serve the two fetches of an allocation: the header first,
and then, while the header is pinned, a second page.

`grants` says which of the coming requests for memory the allocator would grant.
-/

namespace Cache

variable {cache image : Cache} {frame : Frame} {pageId : Int32} {memory : Bool} {grants : Nat → Bool}

def cached (cache : Cache) (pageId : Int32) : Bool := cache.frames.any (holds pageId)

/-- How many frames could be evicted, not counting the header's. -/
def spare (cache : Cache) : Nat := cache.frames.countP fun frame => unpinned frame && !holds 0 frame

/-- How many frames it takes to fetch the header. -/
def taken (cache : Cache) : Nat := if cache.cached 0 then 0 else 1

/-- The header is cached, or there is a frame for it. -/
def HeaderServed (cache : Cache) (grants : Nat → Bool) : Prop :=
  cache.cached 0 = true ∨
    if cache.frames.length < cache.capacity then grants 0 = true else 0 < cache.spare

/-- Once the header is pinned, the page is cached or there is a frame for it.  A
page that is not pinned may have been evicted for the header. -/
def PageServed (cache : Cache) (grants : Nat → Bool) (pageId : Int32) : Prop :=
  pageId = 0 ∨ cache.Pinned pageId 1 ∨
    if cache.frames.length + cache.taken < cache.capacity then
      cache.cached pageId = true ∨ grants cache.taken = true
    else (if cache.frames.length < cache.capacity then 0 else cache.taken) < cache.spare

/-- No frame can be had for a page that is not cached. -/
def Refuses (cache : Cache) (memory : Bool) (pageId : Int32) : Prop :=
  cache.cached pageId = false ∧ cache.acquire memory = none

theorem cached_iff : cache.cached pageId = true ↔ ∃ frame ∈ cache.frames, frame.pageId = pageId := by
  simp [cached, holds]

theorem cached_false : cache.cached pageId = false ↔ ∀ frame ∈ cache.frames, frame.pageId ≠ pageId := by
  simp [cached, holds]

theorem spare_pos : 0 < cache.spare ↔
    ∃ frame ∈ cache.frames, unpinned frame = true ∧ frame.pageId ≠ 0 := by
  simp [spare, List.countP_pos_iff, holds]

theorem acquire_none : cache.acquire memory = none ↔
    if cache.frames.length < cache.capacity then memory = false
    else ∀ frame ∈ cache.frames, unpinned frame = false := by
  by_cases space : cache.frames.length < cache.capacity
  · rw [if_pos space]
    cases memory with
    | false => simp [acquire_denied space]
    | true => simp [acquire_room space]
  · rw [if_neg space, ← takeLast_none, acquire, if_pos (by omega)]
    cases takeLast unpinned cache.frames <;> simp

theorem header_refused : cache.Refuses (grants 0) 0 ↔ ¬ cache.HeaderServed grants := by
  rw [Refuses, HeaderServed, acquire_none, not_or, Bool.not_eq_true]
  apply and_congr_right
  intro absent
  have others := cached_false.mp absent
  by_cases space : cache.frames.length < cache.capacity
  · simp [space]
  · rw [if_neg space, if_neg space, spare_pos]
    constructor
    · rintro pinned ⟨frame, member, free, _⟩
      simp [pinned frame member] at free
    · intro none frame member
      exact Bool.eq_false_iff.mpr fun free => none ⟨frame, member, free, others frame member⟩

/-- What the fetch of the header leaves for the second fetch. -/
structure Opened (cache image : Cache) : Prop where
  capacity : image.capacity = cache.capacity
  length : image.frames.length =
    cache.frames.length + if cache.frames.length < cache.capacity then cache.taken else 0
  spare : image.spare + (if cache.frames.length < cache.capacity then 0 else cache.taken) = cache.spare
  header : ∀ frame ∈ image.frames, frame.pageId = 0 → unpinned frame = false
  earlier : ∀ frame ∈ image.frames, frame.pageId ≠ 0 → frame ∈ cache.frames
  kept : cache.frames.length < cache.capacity →
    ∀ frame ∈ cache.frames, frame.pageId ≠ 0 → frame ∈ image.frames

theorem Fetched.opened (distinct : cache.Distinct) (fetched : Fetched cache 0 true image) :
    Opened cache image := by
  cases fetched with
  | hit left right frame split same =>
      obtain ⟨_, apart⟩ := distinct.split split
      have here : cache.cached 0 = true := cached_iff.mpr ⟨frame, by simp [split], same⟩
      have none : cache.taken = 0 := by simp [taken, here]
      refine ⟨rfl, ?_, ?_, ?_, ?_, ?_⟩
      · simp [split, none, Nat.add_assoc]
      · simp [none, Cache.spare, split, holds, same]
      · intro listed member label
        rcases List.mem_cons.mp member with rfl | old
        · simp [unpinned]
        · exact absurd (label.trans same.symm) (apart listed old)
      · intro listed member label
        rcases List.mem_cons.mp member with rfl | old
        · exact absurd same label
        · rw [split]
          exact List.perm_middle.mem_iff.mpr (List.mem_cons_of_mem _ old)
      · intro _ listed member label
        rw [split] at member
        rcases List.mem_cons.mp (List.perm_middle.mem_iff.mp member) with rfl | old
        · exact absurd same label
        · exact List.mem_cons_of_mem _ old
  | miss room absent acquired =>
      have one : cache.taken = 1 := by simp [taken, cached_false.mpr absent]
      cases acquired with
      | space free =>
          refine ⟨rfl, ?_, ?_, ?_, ?_, ?_⟩
          · simp [free, one]
          · simp [free, Cache.spare, holds]
          · intro listed member label
            rcases List.mem_cons.mp member with rfl | old
            · simp [unpinned]
            · exact absurd label (absent listed old)
          · intro listed member label
            rcases List.mem_cons.mp member with rfl | old
            · exact absurd rfl label
            · exact old
          · exact fun _ listed member _ => List.mem_cons_of_mem _ member
      | evicted left right victim full split free pinned =>
          have room : ¬ cache.frames.length < cache.capacity := by omega
          have other : victim.pageId ≠ 0 := absent victim (by simp [split])
          refine ⟨by simp, ?_, ?_, ?_, ?_, fun space => absurd space room⟩
          · rw [if_neg room]
            simp [split, Nat.add_assoc]
          · rw [if_neg room, one]
            simp only [unpinned, beq_iff_eq] at free
            simp [Cache.spare, holds, split, free, other, unpinned, Nat.add_assoc]
          · intro listed member label
            rcases List.mem_cons.mp member with rfl | old
            · simp [unpinned]
            · refine absurd label (absent listed ?_)
              rw [split]
              exact List.perm_middle.mem_iff.mpr (List.mem_cons_of_mem _ old)
          · intro listed member label
            rcases List.mem_cons.mp member with rfl | old
            · exact absurd rfl label
            · rw [split]
              exact List.perm_middle.mem_iff.mpr (List.mem_cons_of_mem _ old)

/-- With the header pinned, all frames are pinned when none is spare. -/
theorem Opened.all_pinned (opened : Opened cache image) :
    (∀ frame ∈ image.frames, unpinned frame = false) ↔ image.spare = 0 := by
  constructor
  · intro pinned
    by_contra some
    obtain ⟨frame, member, free, _⟩ := spare_pos.mp (Nat.pos_of_ne_zero some)
    simp [pinned frame member] at free
  · intro none frame member
    refine Bool.eq_false_iff.mpr fun free => ?_
    by_cases label : frame.pageId = 0
    · simp [opened.header frame member label] at free
    · have positive := spare_pos.mpr ⟨frame, member, free, label⟩
      omega

/-- The second fetch is refused unless the cache could serve both. -/
theorem Fetched.page_refused (distinct : cache.Distinct) (fetched : Fetched cache 0 true image)
    (answers : image.frames.length < image.capacity → memory = grants cache.taken) :
    image.Refuses memory pageId ↔ ¬ cache.PageServed grants pageId := by
  have opened := fetched.opened distinct
  have length := opened.length
  have spares := opened.spare
  have header : image.cached 0 = true := by
    obtain ⟨frame, member, label, _⟩ := fetched.pinned
    exact cached_iff.mpr ⟨frame, member, label⟩
  have survives : cache.Pinned pageId 1 → image.cached pageId = true := by
    intro pinned
    obtain ⟨frame, member, label, _⟩ := pinned.fetched (Nat.le_refl 1) distinct fetched
    exact cached_iff.mpr ⟨frame, member, label⟩
  rw [Refuses, PageServed, acquire_none, not_or, not_or, opened.all_pinned]
  by_cases space : image.frames.length < image.capacity
  · -- nothing was evicted for the header, so what was cached still is
    have before : cache.frames.length < cache.capacity := by
      rw [← opened.capacity]
      omega
    rw [if_pos before] at length
    have after : (cache.frames.length : Int) + cache.taken < cache.capacity := by
      rw [← opened.capacity]
      omega
    rw [if_pos space, if_pos after, answers space, not_or, Bool.not_eq_true, Bool.not_eq_true]
    constructor
    · rintro ⟨absent, denied⟩
      refine ⟨?_, ?_, ?_, denied⟩
      · rintro rfl
        simp [header] at absent
      · intro pinned
        simp [survives pinned] at absent
      · refine Bool.eq_false_iff.mpr fun here => ?_
        obtain ⟨frame, member, label⟩ := cached_iff.mp here
        refine cached_false.mp absent frame (opened.kept before frame member ?_) label
        intro zero
        rw [← label, zero] at absent
        simp [header] at absent
    · rintro ⟨apart, _, absent, denied⟩
      refine ⟨cached_false.mpr fun frame member label => ?_, denied⟩
      have old := opened.earlier frame member (label ▸ apart)
      exact cached_false.mp absent frame old label
  · have after : ¬ (cache.frames.length : Int) + cache.taken < cache.capacity := by
      rw [← opened.capacity]
      split at length <;> omega
    rw [if_neg space, if_neg after, Nat.not_lt]
    constructor
    · rintro ⟨absent, none⟩
      refine ⟨?_, ?_, by omega⟩
      · rintro rfl
        simp [header] at absent
      · intro pinned
        simp [survives pinned] at absent
    · rintro ⟨apart, loose, few⟩
      have none : image.spare = 0 := by omega
      refine ⟨cached_false.mpr fun frame member label => ?_, none⟩
      have old := opened.earlier frame member (label ▸ apart)
      have pinned := opened.all_pinned.mpr none frame member
      refine loose ⟨frame, old, label, ?_⟩
      simp only [unpinned, beq_eq_false_iff_ne] at pinned
      omega

/-- Flushing a page leaves the file's contents of the other pages alone, whatever
is written. -/
theorem onFile_flushFrame_other (frameNonneg : 0 ≤ frame.pageId) (nonneg : 0 ≤ pageId)
    (apart : frame.pageId ≠ pageId) : (cache.flushFrame frame).1.onFile pageId = cache.onFile pageId := by
  unfold flushFrame
  split
  · cases called : cache.fd.pwrite frame.data (frame.pageId.toInt * pageSize) with
    | mk written fd =>
        rw [fileOffset_eq frameNonneg] at called
        have kept := File.window_pwrite_disjoint called (fileOffset_apart nonneg frameNonneg apart.symm)
        dsimp only
        split <;> exact kept
  · rfl

/-- The header that the first fetch finds is the one there was before the call. -/
theorem Fetched.dataOf_header (distinct : cache.Distinct) (nonneg : ∀ frame ∈ cache.frames, 0 ≤ frame.pageId)
    (fetched : Fetched cache 0 true image) : image.dataOf 0 = cache.contents 0 := by
  cases fetched with
  | hit left right frame split same =>
      have member : frame ∈ cache.frames := by simp [split]
      have found := distinct.find member
      rw [same] at found
      simp [dataOf, holds, same, contents, found]
  | miss room absent acquired =>
      have missing : cache.frames.find? (holds 0) = none := by
        apply List.find?_eq_none.mpr
        intro frame member
        simpa [holds] using absent frame member
      have file : room.onFile 0 = cache.onFile 0 := by
        cases acquired with
        | space => rfl
        | evicted left right victim full split =>
            have member : victim ∈ cache.frames := by simp [split]
            exact onFile_flushFrame_other (nonneg victim member) (Int32.le_refl 0) (absent victim member)
      simp [dataOf, holds, contents, missing, file]

end Cache

end HundredDays.PagedStorage
