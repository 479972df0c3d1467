import HundredDays.PagedStorage.BufferPool.Refinement

namespace HundredDays.PagedStorage

open HundredDays.Data HundredDays.Memory

/-! The buffer pool implements the page cache. -/

namespace BufferPoolManager

variable {pool after : BufferPoolManager} {order : List Nat} {frameId : Nat} {pageId : Int32}
  {cache image : Cache} {isDirty : Bool} {fd : File}

theorem Implements.distinct (implements : pool.Implements cache) : cache.Distinct := by
  obtain ⟨order, pooled, rfl⟩ := implements
  rw [Cache.Distinct, view, List.map_map]
  exact pooled.distinct

theorem Implements.read (implements : pool.Implements cache) (held : pool.Holds frameId pageId) :
    (pool.pages frameId).data = cache.dataOf pageId := by
  have distinct := implements.distinct
  obtain ⟨order, pooled, rfl⟩ := implements
  obtain ⟨member, rfl⟩ := pooled.holds_iff.mp held
  exact (Cache.dataOf_eq distinct (List.mem_map_of_mem member)).symm

/-- Changing the contents of a frame through a pointer to it. -/
theorem Implements.setPage {change : Frame → Frame} (implements : pool.Implements cache)
    (held : pool.Holds frameId pageId) (label : ∀ frame, (change frame).pageId = frame.pageId) :
    abstraction.Edits pool (pool.setPage frameId change) (cache.update pageId change) := by
  obtain ⟨order, pooled, rfl⟩ := implements
  obtain ⟨member, rfl⟩ := pooled.holds_iff.mp held
  exact ⟨⟨order, pooled.setPage label, pooled.view_setPage member change rfl⟩, id, fun _ _ found => found⟩

theorem Implements.setData (change : Bytes → Bytes) (implements : pool.Implements cache)
    (held : pool.Holds frameId pageId) :
    abstraction.Edits pool (pool.setData frameId change) (cache.setData pageId change) :=
  implements.setPage held fun _ => rfl

theorem unpinPage_eq (held : pool.Holds frameId pageId) : pool.unpinPage pageId isDirty =
    pool.setPage frameId fun page =>
      { page with isDirty := isDirty || page.isDirty, pinCount := page.pinCount - 1 } := by
  have found : pool.pageTable pageId = some frameId := held
  have same : ∀ count, ¬ count > 0 → count - 1 = count := fun count none => by omega
  cases isDirty with
  | false =>
      simp only [unpinPage, found, Bool.false_eq_true, if_false, Bool.false_or]
      split
      · rfl
      · rename_i unpinned
        exact (setPage_self (by simp [same _ unpinned])).symm
  | true =>
      simp only [unpinPage, found, if_true, Bool.true_or]
      split
      · simp [BufferPoolManager.setPage]
      · rename_i unpinned
        have zero : (pool.pages frameId).pinCount = 0 := by simpa [BufferPoolManager.setPage] using unpinned
        simp [BufferPoolManager.setPage, zero]

theorem Implements.unpin (isDirty : Bool) (implements : pool.Implements cache) (held : pool.Holds frameId pageId) :
    abstraction.Edits pool (pool.unpinPage pageId isDirty) (cache.unpin pageId isDirty) := by
  rw [unpinPage_eq held]
  exact implements.setPage held fun _ => rfl

theorem Implements.flush (pageId : Int32) (implements : pool.Implements cache) :
    abstraction.Edits pool (pool.flushPage pageId) (cache.flush pageId) := by
  obtain ⟨order, pooled, rfl⟩ := implements
  by_cases cached : ∃ frameId ∈ order, (pool.pages frameId).pageId = pageId
  · obtain ⟨frameId, member, rfl⟩ := cached
    refine ⟨⟨order, pooled.flushPage member, pooled.view_flushPage member⟩, id, ?_⟩
    intro other pageId found
    rw [pooled.flushPage_eq member]
    exact found
  · have absent : ∀ frameId ∈ order, (pool.pages frameId).pageId ≠ pageId :=
      fun frameId member same => cached ⟨frameId, member, same⟩
    have missing : (pool.view order).frames.find? (Cache.holds pageId) = none := by
      apply List.find?_eq_none.mpr
      intro frame member
      simpa [Cache.holds] using Pooled.view_absent absent frame member
    simp only [flushPage, pooled.missing absent, Cache.flush_absent missing]
    exact ⟨⟨order, pooled, rfl⟩, id, fun _ _ found => found⟩

/-- No page has a negative id, and reading one from the file fails. -/
theorem Pooled.fetch_negative (pooled : pool.Pooled order) (negative : pageId < 0) :
    pool.fetchPage pageId ≠ some (some frameId, after) := by
  have absent : ∀ other ∈ order, (pool.pages other).pageId ≠ pageId := by
    intro other member same
    exact Int32.not_lt.mpr (same ▸ pooled.nonneg other member) negative
  have before : pageId.toInt * pageSize < 0 :=
    Int.mul_neg_of_neg_of_pos (Int32.lt_iff_toInt_lt.mp negative) (by decide)
  simp only [fetchPage, pooled.missing absent]
  cases pool.takeFrame with
  | none => simp
  | some pair =>
      obtain ⟨taken, room⟩ := pair
      simp [File.pread, before]

/-- The calls that allocating and freeing are made of.  A page is unpinned by its id. -/
def primitives : Primitives BufferPoolManager Nat where
  fetch := fetchPage
  read pool frameId := (pool.pages frameId).data
  setData := BufferPoolManager.setData
  unpin pool _ pageId isDirty := pool.unpinPage pageId isDirty

theorem primitives_sound : primitives.Sound abstraction where
  distinct := Implements.distinct
  fetch := by
    rintro pool cache pageId ⟨order, pooled, rfl⟩ nonneg
    exact ⟨true, fun _ => rfl, pooled.fetch_agrees nonneg⟩
  negative := by
    rintro pool cache pageId ⟨order, pooled, rfl⟩ negative
    exact fun frameId after => pooled.fetch_negative negative
  read := Implements.read
  setData := Implements.setData
  unpin := Implements.unpin

theorem Implements.fetched {result : Option Nat} (implements : pool.Implements cache) (nonneg : 0 ≤ pageId)
    (fetched : pool.fetchPage pageId = some (result, after)) :
    ∃ image, abstraction.Follows pool cache after image ∧ Cache.Fetched cache pageId result.isSome image ∧
      ∀ frameId, result = some frameId → after.Holds frameId pageId := by
  obtain ⟨order, pooled, rfl⟩ := implements
  have agrees := pooled.fetch_agrees nonneg
  rw [Pooled.FetchAgrees, fetched] at agrees
  cases imaged : (pool.view order).fetch true pageId with
  | none => simp [imaged] at agrees
  | some pair =>
      obtain ⟨hit, image⟩ := pair
      rw [imaged, Option.rel_some_some] at agrees
      obtain ⟨follows, same, holds⟩ := agrees
      dsimp only at same follows
      subst same
      exact ⟨image, follows, (Cache.fetch_some imaged).2, holds⟩

theorem Implements.allocated (implements : pool.Implements cache)
    (allocated : pool.allocPage = some (pageId, after)) :
    ∃ memories image, abstraction.Follows pool cache after image ∧
      Cache.Allocated memories cache pageId image := by
  obtain ⟨memories, _, agrees⟩ := primitives_sound.allocPage implements
  change Option.Rel _ pool.allocPage _ at agrees
  rw [allocated] at agrees
  cases imaged : cache.allocPage memories.1 memories.2 with
  | none => simp [imaged] at agrees
  | some pair =>
      obtain ⟨imageId, image⟩ := pair
      rw [imaged, Option.rel_some_some] at agrees
      obtain ⟨same, follows⟩ := agrees
      dsimp only at same follows
      subst same
      exact ⟨memories, image, follows, Cache.allocPage_some imaged⟩

theorem Implements.freed (implements : pool.Implements cache) (freed : pool.freePage pageId = some after) :
    ∃ memories image, abstraction.Follows pool cache after image ∧
      Cache.Freed memories cache pageId image := by
  have sound : ∃ memories, _ ∧ Option.Rel _ (pool.freePage pageId) _ := primitives_sound.freePage implements
  obtain ⟨memories, _, agrees⟩ := sound
  rw [freed] at agrees
  cases imaged : cache.freePage memories.1 memories.2 pageId with
  | none => simp [imaged] at agrees
  | some image =>
      rw [imaged, Option.rel_some_some] at agrees
      exact ⟨memories, image, agrees, Cache.freePage_some imaged⟩

/-- The buffer pool implements the page cache, and never runs out of memory. -/
def refinement : Refinement bufferPool where
  toAbstraction := abstraction
  fetch := fun _ => primitives_sound.fetch
  read := Implements.read
  write := fun data implements held =>
    (Implements.setData (fun _ => data) implements held).follows
  unpin := by
    intro pool cache frameId pageId isDirty implements held
    have label : (pool.pages frameId).pageId = pageId := by
      obtain ⟨order, pooled, rfl⟩ := implements
      exact (pooled.holds_iff.mp held).2
    change abstraction.Follows pool cache (pool.unpinPage (pool.pages frameId).pageId isDirty) _
    rw [label]
    exact (Implements.unpin isDirty implements held).follows
  flush := fun pageId implements _ => ⟨_, rfl, (Implements.flush pageId implements).follows⟩
  allocPage := primitives_sound.allocPage
  freePage := fun _ => primitives_sound.freePage

theorem Pooled.blank (fd : File) (capacity : Nat) : (blank fd capacity).Pooled [] where
  threads := ⟨rfl, List.nodup_nil, List.nodup_nil, by simp [BufferPoolManager.blank],
    by simp [BufferPoolManager.blank]⟩
  free := ⟨List.nodup_range, by simp⟩
  size := by simp [BufferPoolManager.blank]
  distinct := List.nodup_nil
  nonneg := by simp
  table := by simp [BufferPoolManager.blank]

/-- The header of a new file, fetched as an empty page and then filled in. -/
theorem opened_new (new : fd.size = 0) : Cache.opened fd =
    (((Cache.mk fd [⟨0, fd.window pageSize (fileOffset 0), 1, false⟩] cacheCapacity 0 [.touched 0]).setData 0
      fun data => ((data.setPageSize (UInt32.ofNat pageSize)).setTotalPages 1).setFreeListHead (-1)).unpin 0
        true).flush 0 := by
  have unread : fd.window pageSize (fileOffset 0) = Bytes.zero := by
    funext index
    exact fd.beyond _ (by omega)
  rw [unread]
  exact if_pos new

/-- The constructor always succeeds, and gives the cache of its file. -/
theorem create_exists (fd : File) : ∃ pool, create fd cacheCapacity = some pool ∧ pool.Implements (Cache.opened fd) := by
  have pooled := Pooled.blank fd cacheCapacity
  by_cases new : fd.size = 0
  · have agrees := pooled.fetch_agrees (Int32.le_refl 0)
    rw [Pooled.FetchAgrees, Cache.fetch_miss (Int32.le_refl 0) (by simp [view])
      (Cache.acquire_room (by simp [view, blank, cacheCapacity]))] at agrees
    generalize called : (blank fd cacheCapacity).fetchPage 0 = result at agrees
    cases agrees with
    | @some pair _ facts =>
        obtain ⟨hdrPage, fetched⟩ := pair
        obtain ⟨follows, found, holds⟩ := facts
        obtain ⟨hdr, rfl⟩ := Option.isSome_iff_exists.mp found
        have held := holds hdr rfl
        have headed := Implements.setData (fun data =>
          ((data.setPageSize (UInt32.ofNat pageSize)).setTotalPages 1).setFreeListHead (-1))
          follows.implements held
        have unpinned := Implements.unpin true headed.implements (headed.holds _ _ held)
        have flushed := Implements.flush 0 unpinned.implements
        rw [create, if_pos new, called, opened_new new]
        exact ⟨_, rfl, flushed.implements⟩
  · rw [create, if_neg new]
    refine ⟨_, rfl, [], pooled, ?_⟩
    exact (if_neg new).symm

end BufferPoolManager

end HundredDays.PagedStorage
