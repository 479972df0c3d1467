import HundredDays.PagedStorage.BufferPool.Operations
import HundredDays.PagedStorage.Exhaustion

namespace HundredDays.PagedStorage

open HundredDays.Data HundredDays.Memory HundredDays.Semantics

/-! Any program that uses the buffer pool, and what it learns when the frames run out. -/

namespace BufferPoolManager

variable {pool after : BufferPoolManager} {order : List Nat} {pageId : Int32} {hdr : Nat} {fd : File}
  {capacity : Nat} {cache : Cache}

/-- What a client can see of a page: its contents and how often it is pinned. -/
def observe (pool : BufferPoolManager) (pageId : Int32) : Bytes × Nat :=
  match pool.pageTable pageId with
  | some frameId => ((pool.pages frameId).data, (pool.pages frameId).pinCount)
  | none => (pool.fd.window pageSize (fileOffset pageId), 0)

namespace Pooled

theorem cached_view :
    (pool.view order).cached pageId = false ↔ ∀ frameId ∈ order, (pool.pages frameId).pageId ≠ pageId := by
  rw [Cache.cached_false]
  exact List.forall_mem_map

/-- `takeFrame` finds no frame when the cache does not. -/
theorem takeFrame_none (pooled : pool.Pooled order) :
    pool.takeFrame = none ↔ (pool.view order).acquire true = none := by
  have length := pooled.view_length
  rw [Cache.acquire_none]
  change _ ↔ if _ < (pool.capacity : Int) then _ else _
  cases free : pool.freeFrames with
  | cons frameId rest =>
      rw [free, List.length_cons] at length
      rw [if_pos (by omega), (pooled.take_free free).1]
      simp
  | nil =>
      rw [free, List.length_nil] at length
      rw [if_neg (by omega)]
      cases taken : takeLast (Cache.unpinned ∘ pool.pages) order with
      | none =>
          have pinned := takeLast_none.mp taken
          exact ⟨fun _ => List.forall_mem_map.mpr pinned, fun _ => pooled.take_refused free pinned⟩
      | some pair =>
          obtain ⟨victim, rest⟩ := pair
          obtain ⟨left, right, rfl, rfl, unpinned, pinned⟩ := takeLast_some taken
          obtain ⟨room, took, _⟩ := pooled.take_evicts free unpinned pinned
          rw [took]
          constructor
          · intro impossible
            cases impossible
          · intro all
            have used := all (pool.pages victim) (List.mem_map_of_mem (by simp))
            simp only [Function.comp] at unpinned
            simp [unpinned] at used

/-- `FetchPage` returns null when the page is not cached and no frame can be had. -/
theorem fetch_null (pooled : pool.Pooled order) :
    (∃ next, pool.fetchPage pageId = some (none, next)) ↔ (pool.view order).Refuses true pageId := by
  rw [Cache.Refuses, cached_view, ← pooled.takeFrame_none]
  by_cases cached : ∃ frameId ∈ order, (pool.pages frameId).pageId = pageId
  · obtain ⟨frameId, member, rfl⟩ := cached
    constructor
    · rintro ⟨next, fetched⟩
      simp [fetchPage, pooled.found member] at fetched
    · rintro ⟨absent, _⟩
      exact absurd rfl (absent frameId member)
  have absent : ∀ frameId ∈ order, (pool.pages frameId).pageId ≠ pageId :=
    fun frameId member same => cached ⟨frameId, member, same⟩
  refine Iff.trans ?_ (and_iff_right absent).symm
  simp only [fetchPage, pooled.missing absent]
  cases pool.takeFrame with
  | none => simp
  | some pair => simp [Option.bind_eq_some_iff]

end Pooled

/-- The pool never asks for memory after its construction. -/
def rationed : Rationed bufferPool where
  Implements := Implements
  grants _ _ := true
  indexed _ := True
  positive := fun _ _ => trivial
  distinct := Implements.distinct
  nonneg := by
    rintro pool cache ⟨order, pooled, rfl⟩
    exact List.forall_mem_map.mpr pooled.nonneg
  refused := by
    rintro pool cache pageId ⟨order, pooled, rfl⟩
    rw [true_and]
    exact pooled.fetch_null
  defined := by
    rintro pool cache ⟨order, pooled, rfl⟩
    have agrees := pooled.fetch_agrees (Int32.le_refl 0)
    have reached : ∃ found, (pool.view order).fetch true 0 = some found := Cache.fetch_defined (Int32.le_refl 0)
    obtain ⟨found, imaged⟩ := reached
    rw [Pooled.FetchAgrees, imaged] at agrees
    change ∃ outcome, pool.fetchPage 0 = some outcome
    cases called : pool.fetchPage 0 with
    | none => simp [called] at agrees
    | some outcome => exact ⟨outcome, rfl⟩
  fetched := by
    intro pool cache hdr next implements fetched
    change pool.fetchPage 0 = some (some hdr, next) at fetched
    obtain ⟨image, follows, effect, holds⟩ := Implements.fetched implements (Int32.le_refl 0) fetched
    exact ⟨image, follows.implements, effect, Implements.read follows.implements (holds hdr rfl), fun _ => rfl⟩
  alloc := fun {pool} refused => by
    change primitives.allocPage pool = none
    exact Primitives.allocPage_refused refused
  free := fun {pool pageId} refused => by
    change primitives.freePage pool pageId = none
    exact Primitives.freePage_refused refused.1 refused.2

end BufferPoolManager

/-- A call of a program that uses the buffer pool.  It writes through the page
pointers that its fetches returned. -/
inductive PoolCall where
  | fetch (pageId : Int32)
  | unpin (pageId : Int32) (isDirty : Bool)
  | flush (pageId : Int32)
  | flushAll (pageIds : List Int32)
  | write (frameId : Nat) (data : Bytes)
  | alloc
  | free (pageId : Int32)

structure PoolCaller where
  pool : BufferPoolManager
  returned : List Nat

namespace PoolCaller

variable {caller next : PoolCaller} {call : PoolCall} {pool : BufferPoolManager} {cache : Cache}
  {fd : File} {capacity : Nat}

def start (pool : BufferPoolManager) : PoolCaller := { pool, returned := [] }

def step (caller : PoolCaller) : PoolCall → Option PoolCaller
  | .fetch pageId =>
      if pageId < 0 then none
      else (caller.pool.fetchPage pageId).map fun (page, pool) =>
        { pool, returned := page.toList ++ caller.returned }
  | .unpin pageId isDirty => some { caller with pool := caller.pool.unpinPage pageId isDirty }
  | .flush pageId => some { caller with pool := caller.pool.flushPage pageId }
  | .flushAll pageIds => some { caller with pool := caller.pool.flushAllPages pageIds }
  | .write frameId data =>
      if frameId ∈ caller.returned then
        some { caller with pool := caller.pool.setData frameId fun _ => data }
      else none
  | .alloc => caller.pool.allocPage.map fun (_, pool) => { caller with pool }
  | .free pageId => (caller.pool.freePage pageId).map fun pool => { caller with pool }

/-- The pool implements some cache, and no page pointer dangles. -/
structure Kept (caller : PoolCaller) : Prop where
  implements : ∃ cache, caller.pool.Implements cache
  valid : ∀ frameId ∈ caller.returned, ∃ pageId, caller.pool.Holds frameId pageId

theorem Kept.follow {image : Cache} (kept : caller.Kept)
    (follows : BufferPoolManager.abstraction.Follows caller.pool cache pool image) :
    Kept { caller with pool } where
  implements := ⟨image, follows.implements⟩
  valid := by
    intro frameId member
    obtain ⟨pageId, holds⟩ := kept.valid frameId member
    exact follows.valid frameId pageId holds

theorem Kept.edit {image : Cache} (kept : caller.Kept)
    (edits : BufferPoolManager.abstraction.Edits caller.pool pool image) : Kept { caller with pool } := by
  obtain ⟨cache, _⟩ := kept.implements
  have follows : BufferPoolManager.abstraction.Follows caller.pool cache pool image := edits.follows
  exact kept.follow follows

theorem Kept.step (kept : caller.Kept) (stepped : caller.step call = some next) : next.Kept := by
  obtain ⟨cache, implements⟩ := kept.implements
  cases call with
  | fetch pageId =>
      simp only [PoolCaller.step] at stepped
      split at stepped
      · contradiction
      · rename_i nonneg
        obtain ⟨⟨page, after⟩, fetched, rfl⟩ := Option.map_eq_some_iff.mp stepped
        obtain ⟨image, follows, _, holds⟩ := implements.fetched (Int32.not_lt.mp nonneg) fetched
        have others := kept.follow follows
        refine ⟨others.implements, fun frameId member => ?_⟩
        rcases List.mem_append.mp member with new | old
        · exact ⟨pageId, holds frameId (by simpa using new)⟩
        · exact others.valid frameId old
  | unpin pageId isDirty =>
      cases stepped
      cases found : caller.pool.pageTable pageId with
      | none =>
          have same : caller.pool.unpinPage pageId isDirty = caller.pool := by
            simp [BufferPoolManager.unpinPage, found]
          rw [same]
          exact kept
      | some frameId =>
          exact kept.edit (BufferPoolManager.Implements.unpin isDirty implements found)
  | flush pageId =>
      cases stepped
      exact kept.edit (BufferPoolManager.Implements.flush pageId implements)
  | flushAll pageIds =>
      cases stepped
      induction pageIds generalizing caller cache with
      | nil => exact kept
      | cons pageId rest ih =>
          have first := kept.edit (BufferPoolManager.Implements.flush pageId implements)
          obtain ⟨image, later⟩ := first.implements
          exact ih first image later
  | write frameId data =>
      simp only [PoolCaller.step] at stepped
      split at stepped
      · rename_i member
        cases stepped
        obtain ⟨pageId, holds⟩ := kept.valid frameId member
        exact kept.edit (BufferPoolManager.Implements.setData (fun _ => data) implements holds)
      · contradiction
  | alloc =>
      obtain ⟨⟨pageId, after⟩, allocated, rfl⟩ := Option.map_eq_some_iff.mp stepped
      obtain ⟨_, image, follows, _⟩ := BufferPoolManager.Implements.allocated implements allocated
      exact kept.follow follows
  | free pageId =>
      obtain ⟨after, freed, rfl⟩ := Option.map_eq_some_iff.mp stepped
      obtain ⟨_, image, follows, _⟩ := BufferPoolManager.Implements.freed implements freed
      exact kept.follow follows

/-- The constructor, for any capacity that has a frame for the header of a new file. -/
theorem start_kept (created : BufferPoolManager.create fd capacity = some pool) : (start pool).Kept := by
  have blank : (start (BufferPoolManager.blank fd capacity)).Kept :=
    ⟨⟨_, [], BufferPoolManager.Pooled.blank fd capacity, rfl⟩, by simp [start]⟩
  unfold BufferPoolManager.create at created
  split at created
  · obtain ⟨⟨hdrPage, fetched⟩, called, created⟩ := Option.bind_eq_some_iff.mp created
    obtain ⟨hdr, rfl, created⟩ := Option.bind_eq_some_iff.mp created
    cases created
    have opened : (start (BufferPoolManager.blank fd capacity)).step (.fetch 0) =
        some { pool := fetched, returned := [hdr] } := by
      simp [PoolCaller.step, start, called]
    have first := blank.step opened
    obtain ⟨image, implements⟩ := first.implements
    obtain ⟨pageId, holds⟩ := first.valid hdr (by simp)
    have headed := BufferPoolManager.Implements.setData (fun data =>
      ((data.setPageSize (UInt32.ofNat pageSize)).setTotalPages 1).setFreeListHead (-1)) implements holds
    have second := first.edit headed
    have third := second.step (rfl : PoolCaller.step _ (.unpin 0 true) = some _)
    have fourth := third.step (rfl : PoolCaller.step _ (.flush 0) = some _)
    exact ⟨fourth.implements, by simp [start]⟩
  · cases created
    exact blank

theorem run_kept {calls : List PoolCall} (created : BufferPoolManager.create fd capacity = some pool)
    (completed : run PoolCaller.step (start pool) calls = some caller) : caller.Kept :=
  run_invariant Kept (fun _ _ _ kept stepped => kept.step stepped) (start_kept created) completed

end PoolCaller

/-- The exact condition, for both implementations and in every state that any
sequence of calls leads to. -/
theorem exhaustion_reported_iff (fd : File) :
    (∀ (heap : Heap) (pager : Pager) (calls : List Call) (caller : Caller),
      pagerOpen fd heap = some (some pager) → run Caller.step (Caller.start pager) calls = some caller →
      ∃ cache, caller.pager.Implements cache ∧
        (cPager.AllocReported Pager.observe caller.pager ↔
          cache.AllocServed caller.pager.heap.grants fun pageId => 0 ≤ hashFunc pageId) ∧
        ∀ pageId, cPager.FreeReported Pager.observe caller.pager pageId ↔
          cache.FreeServed caller.pager.heap.grants pageId) ∧
    ∀ (capacity : Nat) (pool : BufferPoolManager) (calls : List PoolCall) (caller : PoolCaller),
      BufferPoolManager.create fd capacity = some pool →
      run PoolCaller.step (PoolCaller.start pool) calls = some caller →
      ∃ cache, caller.pool.Implements cache ∧
        (BufferPoolManager.bufferPool.AllocReported BufferPoolManager.observe caller.pool ↔
          cache.AllocServed (fun _ => true) fun _ => True) ∧
        ∀ pageId, BufferPoolManager.bufferPool.FreeReported BufferPoolManager.observe caller.pool pageId ↔
          cache.FreeServed (fun _ => true) pageId := by
  constructor
  · intro heap pager calls caller opened completed
    obtain ⟨cache, kept⟩ := Caller.run_kept opened completed
    exact ⟨cache, kept.implements, pagerRationed.allocReported_iff kept.implements,
      fun pageId => pagerRationed.freeReported_iff kept.implements⟩
  · intro capacity pool calls caller created completed
    obtain ⟨cache, implements⟩ := (PoolCaller.run_kept created completed).implements
    exact ⟨cache, implements, BufferPoolManager.rationed.allocReported_iff implements,
      fun pageId => BufferPoolManager.rationed.freeReported_iff implements⟩

/-- Fetch ten pages of a new file and unpin none of them. -/
def pinTen : List Call := (List.range 10).map fun index => .fetch (Int32.ofNat (index + 1))

/-- One page pinned in a pool of one frame. -/
def pinOne : List PoolCall := [.fetch 5]

theorem exhaustion_reported_iff_full_caches :
    (∃ pager caller cache, pagerOpen (File.empty fun _ => pageSize) (Heap.start Malloc.bump) = some (some pager) ∧
      run Caller.step (Caller.start pager) pinTen = some caller ∧ caller.pager.Implements cache ∧
      (cPager.AllocReported Pager.observe caller.pager ↔
        cache.AllocServed caller.pager.heap.grants fun pageId => 0 ≤ hashFunc pageId)) ∧
    ∃ pool caller cache, BufferPoolManager.create (File.empty fun _ => pageSize) 1 = some pool ∧
      run PoolCaller.step (PoolCaller.start pool) pinOne = some caller ∧ caller.pool.Implements cache ∧
      (BufferPoolManager.bufferPool.AllocReported BufferPoolManager.observe caller.pool ↔
        cache.AllocServed (fun _ => true) fun _ => True) := by
  constructor
  · have completes : ((pagerOpen (File.empty fun _ => pageSize) (Heap.start Malloc.bump)).join.bind fun pager =>
        run Caller.step (Caller.start pager) pinTen).isSome = true := by
      decide +kernel
    obtain ⟨caller, both⟩ := Option.isSome_iff_exists.mp completes
    obtain ⟨pager, opened, completed⟩ := Option.bind_eq_some_iff.mp both
    have opened := Option.join_eq_some_iff.mp opened
    obtain ⟨cache, implements, exact, _⟩ := (exhaustion_reported_iff _).1 _ pager _ caller opened completed
    exact ⟨pager, caller, cache, opened, completed, implements, exact⟩
  · have completes : ((BufferPoolManager.create (File.empty fun _ => pageSize) 1).bind fun pool =>
        run PoolCaller.step (PoolCaller.start pool) pinOne).isSome = true := by
      decide +kernel
    obtain ⟨caller, both⟩ := Option.isSome_iff_exists.mp completes
    obtain ⟨pool, created, completed⟩ := Option.bind_eq_some_iff.mp both
    obtain ⟨cache, implements, exact, _⟩ := (exhaustion_reported_iff _).2 _ pool _ caller created completed
    exact ⟨pool, caller, cache, created, completed, implements, exact⟩

/-- With every frame pinned, both versions dereference the null page that the
fetch of the header returns. -/
theorem exhausted_cache_dereferences_null :
    ¬ (∀ (fd : File) (heap : Heap) (pager : Pager) (calls : List Call) (caller : Caller),
      pagerOpen fd heap = some (some pager) → run Caller.step (Caller.start pager) calls = some caller →
      cPager.AllocReported Pager.observe caller.pager) ∧
    ¬ ∀ (fd : File) (capacity : Nat) (pool : BufferPoolManager) (calls : List PoolCall) (caller : PoolCaller),
      BufferPoolManager.create fd capacity = some pool →
      run PoolCaller.step (PoolCaller.start pool) calls = some caller →
      BufferPoolManager.bufferPool.AllocReported BufferPoolManager.observe caller.pool := by
  constructor
  · intro reported
    have misses : ((pagerOpen (File.empty fun _ => pageSize) (Heap.start Malloc.bump)).join.bind fun pager =>
        (run Caller.step (Caller.start pager) pinTen).bind fun caller =>
          (pagerFetch caller.pager 0).map fun result => result.1.isNone) = some true := by
      decide +kernel
    obtain ⟨pager, opened, missed⟩ := Option.bind_eq_some_iff.mp misses
    obtain ⟨caller, completed, missed⟩ := Option.bind_eq_some_iff.mp missed
    obtain ⟨⟨page, next⟩, fetched, null⟩ := Option.map_eq_some_iff.mp missed
    have opened := Option.join_eq_some_iff.mp opened
    obtain rfl : page = none := Option.isNone_iff_eq_none.mp null
    have refused : cPager.AllocRefused caller.pager := .inl ⟨next, fetched⟩
    obtain ⟨pageId, after, returned, _⟩ := reported _ _ pager _ caller opened completed refused
    simp [pagerRationed.alloc refused] at returned
  · intro reported
    have misses : ((BufferPoolManager.create (File.empty fun _ => pageSize) 1).bind fun pool =>
        (run PoolCaller.step (PoolCaller.start pool) pinOne).bind fun caller =>
          (caller.pool.fetchPage 0).map fun result => result.1.isNone) = some true := by
      decide +kernel
    obtain ⟨pool, created, missed⟩ := Option.bind_eq_some_iff.mp misses
    obtain ⟨caller, completed, missed⟩ := Option.bind_eq_some_iff.mp missed
    obtain ⟨⟨page, next⟩, fetched, null⟩ := Option.map_eq_some_iff.mp missed
    obtain rfl : page = none := Option.isNone_iff_eq_none.mp null
    have refused : BufferPoolManager.bufferPool.AllocRefused caller.pool := .inl ⟨next, fetched⟩
    obtain ⟨pageId, after, returned, _⟩ := reported _ _ pool _ caller created completed refused
    simp [BufferPoolManager.rationed.alloc refused] at returned

end HundredDays.PagedStorage
