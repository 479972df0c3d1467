import Mathlib.Data.List.Perm.Basic
import HundredDays.PagedStorage.BufferPool.Operations
import HundredDays.PagedStorage.Cache.Contents
import HundredDays.PagedStorage.Lifecycle

namespace HundredDays.PagedStorage

open HundredDays.Data HundredDays.Semantics HundredDays.Memory

/-! The C pager and the C++ buffer pool, driven by the same client, do the same.

Both implement the page cache, so a run of either is a run of the cache.  The two
runs differ where `malloc` refuses a node to the pager, and in the order in which
closing writes back the dirty pages.
-/

namespace Cache

variable {cache : Cache} {frame : Frame} {todo : List Frame} {pageIds : List Int32}

/-- The file after a frame was written back to it. -/
def writeBack (fd : File) (frame : Frame) : File :=
  if frame.isDirty then fd.transfer frame.data (fileOffset frame.pageId) pageSize else fd

theorem flushFrame_writeBack (whole : cache.fd.Whole pageSize) (nonneg : 0 ≤ frame.pageId) :
    (cache.flushFrame frame).1.fd = writeBack cache.fd frame := by
  cases dirty : frame.isDirty with
  | false => simp [flushFrame_clean dirty, writeBack, dirty]
  | true => simp [flushFrame_dirty whole nonneg dirty, writeBack, dirty]

/-- Closing the C pager writes back the frames front to back. -/
theorem flushAll_writeBack (whole : cache.fd.Whole pageSize) (nonneg : ∀ frame ∈ todo, 0 ≤ frame.pageId) :
    (cache.flushAll todo).fd = todo.foldl writeBack cache.fd := by
  induction todo generalizing cache with
  | nil => rfl
  | cons frame rest ih =>
      have first := nonneg frame (by simp)
      rw [flushAll, ih (flushFrame_whole whole first)
        fun other member => nonneg other (List.mem_cons_of_mem frame member),
        flushFrame_writeBack whole first, List.foldl_cons]

/-- Flushing page after page by id writes back the frames of these pages. -/
theorem flushes_writeBack (stored : cache.Stored) (distinct : (todo.map Frame.pageId).Nodup)
    (listed : todo ⊆ cache.frames) :
    ((todo.map Frame.pageId).foldl flush cache).fd = todo.foldl writeBack cache.fd := by
  induction todo generalizing cache with
  | nil => rfl
  | cons frame rest ih =>
      obtain ⟨fresh, others⟩ := List.nodup_cons.mp distinct
      have member : frame ∈ cache.frames := listed List.mem_cons_self
      have found := stored.distinct.find member
      have fd : (cache.flush frame.pageId).fd = writeBack cache.fd frame := by
        rw [flush_found found]
        exact flushFrame_writeBack stored.whole (stored.nonneg frame member)
      have remain : rest ⊆ (cache.flush frame.pageId).frames := by
        intro other later
        have apart : other.pageId ≠ frame.pageId :=
          fun same => fresh (List.mem_map.mpr ⟨other, later, same⟩)
        rw [flush_found found, update, flushFrame_frames]
        exact List.mem_map.mpr ⟨other, listed (List.mem_cons_of_mem frame later), if_neg apart⟩
      rw [List.map_cons, List.foldl_cons, ih stored.flush others remain, fd, List.foldl_cons]

/-- The pages of a cache may be written back in any order. -/
theorem writeBack_perm {fd : File} (stored : cache.Stored) (order : todo.Perm cache.frames) :
    todo.foldl writeBack fd = cache.frames.foldl writeBack fd := by
  refine List.Perm.foldl_eq' order ?_ fd
  intro first firstListed second secondListed file
  have firstListed := order.mem_iff.mp firstListed
  have secondListed := order.mem_iff.mp secondListed
  by_cases same : first = second
  · rw [same]
  · have apart : second.pageId ≠ first.pageId :=
      fun ids => same (stored.distinct.unique firstListed secondListed ids.symm)
    have windows := fileOffset_apart (stored.nonneg second secondListed) (stored.nonneg first firstListed) apart
    cases firstDirty : first.isDirty with
    | false => simp [writeBack, firstDirty]
    | true =>
        cases secondDirty : second.isDirty with
        | false => simp [writeBack, secondDirty]
        | true =>
            simp only [writeBack, firstDirty, secondDirty, if_true]
            exact File.transfer_comm windows

/-- Flushing all pages by id, in any order, leaves the file as closing the C pager does. -/
theorem flushes_eq_flushAll (stored : cache.Stored) (listed : pageIds.Perm (cache.frames.map Frame.pageId)) :
    (pageIds.foldl flush cache).fd = (cache.flushAll cache.frames).fd := by
  have split := congrFun (congrFun (List.eq_map_comp_perm Frame.pageId) pageIds) cache.frames
  obtain ⟨todo, rfl, order⟩ := split.mpr listed
  rw [flushes_writeBack stored (listed.nodup_iff.mpr stored.distinct) order.subset,
    flushAll_writeBack stored.whole stored.nonneg, writeBack_perm stored order]

end Cache

namespace BufferPoolManager

variable {pool : BufferPoolManager} {cache : Cache} {pageIds : List Int32}

theorem Implements.flushAllPages (implements : pool.Implements cache) (pageIds : List Int32) :
    (pool.flushAllPages pageIds).Implements (pageIds.foldl Cache.flush cache) := by
  induction pageIds generalizing pool cache with
  | nil => exact implements
  | cons pageId rest ih => exact ih (Implements.flush pageId implements).implements

/-- The page table lists the cached pages. -/
theorem Implements.enumerates (implements : pool.Implements cache) (enumerated : pool.Enumerates pageIds) :
    pageIds.Perm (cache.frames.map Frame.pageId) := by
  refine (List.perm_ext_iff_of_nodup enumerated.1 implements.distinct).mpr fun pageId => ?_
  obtain ⟨order, pooled, rfl⟩ := implements
  rw [enumerated.2, Option.ne_none_iff_exists']
  simp [view, pooled.table]

theorem Implements.destroy (implements : pool.Implements cache) (stored : cache.Stored)
    (enumerated : pool.Enumerates pageIds) : pool.destroy pageIds = (cache.flushAll cache.frames).fd := by
  obtain ⟨order, _, view⟩ := implements.flushAllPages pageIds
  rw [← Cache.flushes_eq_flushAll stored (implements.enumerates enumerated), ← view]
  rfl

end BufferPoolManager

namespace Session

variable {session : Session Pager Addr} {poolSession : Session BufferPoolManager Nat}
  {image next : Session Cache Int32} {memory : Bool × Bool} {op : Op}

theorem stored_step (stored : image.store.Stored) (stepped : image.step (cacheStore memory) op = some next) :
    next.store.Stored := by
  cases op with
  | fetch pageId =>
      simp only [step, cacheStore] at stepped
      split at stepped
      · contradiction
      · obtain ⟨⟨result, store⟩, fetched, rfl⟩ := Option.map_eq_some_iff.mp stepped
        obtain ⟨⟨found, after⟩, called, same⟩ := Option.map_eq_some_iff.mp fetched
        obtain ⟨nonneg, effect⟩ := Cache.fetch_some called
        have still := stored.fetched nonneg effect
        cases found <;> obtain ⟨rfl, rfl⟩ := Prod.mk.inj same <;> exact still
  | read handle =>
      obtain ⟨held, _, rfl⟩ := Option.map_eq_some_iff.mp stepped
      exact stored
  | write handle data =>
      obtain ⟨held, _, rfl⟩ := Option.map_eq_some_iff.mp stepped
      have written : (image.store.setData held.page fun _ => data).Stored := stored.setData
      exact written
  | unpin handle isDirty =>
      obtain ⟨held, _, rfl⟩ := Option.map_eq_some_iff.mp stepped
      exact stored.unpin
  | flush pageId =>
      simp only [step, cacheStore] at stepped
      split at stepped
      · contradiction
      · cases stepped
        exact stored.flush
  | alloc =>
      obtain ⟨⟨pageId, store⟩, called, rfl⟩ := Option.map_eq_some_iff.mp stepped
      exact stored.allocated (Cache.allocPage_some called)
  | free pageId =>
      obtain ⟨store, called, rfl⟩ := Option.map_eq_some_iff.mp stepped
      exact stored.freed (Cache.freePage_some called)

/-- Two clients, one of the pager and one of the buffer pool, that are both clients
of one cache. -/
structure Joined (session : Session Pager Addr) (poolSession : Session BufferPoolManager Nat)
    (image : Session Cache Int32) : Prop where
  pager : pagerRefinement.Matches session image
  pool : BufferPoolManager.refinement.Matches poolSession image
  balanced : image.Balanced
  stored : image.store.Stored
  generous : session.store.Generous

/-- What the two clients and their files have in common. -/
structure Agree (session : Session Pager Addr) (poolSession : Session BufferPoolManager Nat) : Prop where
  results : poolSession.results = session.results
  history : poolSession.store.history = session.store.history
  pwriteCount : poolSession.store.pwriteCount = session.store.pwriteCount
  fd : poolSession.store.fd = session.store.fd
  closed : ∃ fd heap, pagerClose session.store = some (fd, heap) ∧
    ∀ pageIds, poolSession.store.Enumerates pageIds → poolSession.store.destroy pageIds = fd

theorem Joined.step (joined : Joined session poolSession image) :
    Option.Rel (fun after poolAfter => ∃ next, Joined after poolAfter next)
      (session.step cPager op) (poolSession.step BufferPoolManager.bufferPool op) := by
  obtain ⟨memory, granted, pagerStep⟩ := joined.pager.step op joined.balanced
  obtain ⟨poolMemory, poolGranted, poolStep⟩ := joined.pool.step op joined.balanced
  rw [granted joined.generous] at pagerStep
  rw [poolGranted trivial] at poolStep
  generalize imaged : image.step (cacheStore (true, true)) op = result at pagerStep poolStep
  generalize session.step cPager op = after at pagerStep ⊢
  generalize poolSession.step BufferPoolManager.bufferPool op = poolAfter at poolStep ⊢
  cases pagerStep with
  | none =>
      cases poolStep
      exact .none
  | @some _ next pagerFacts =>
      cases poolStep with
      | some poolFacts =>
          exact .some ⟨next, pagerFacts.1, poolFacts.1, joined.balanced.step imaged,
            stored_step joined.stored imaged, pagerFacts.2 joined.generous⟩

theorem Joined.agree (joined : Joined session poolSession image) : Agree session poolSession := by
  obtain ⟨order, buckets, structured, view⟩ := joined.pager.implements
  obtain ⟨poolOrder, _, poolView⟩ := joined.pool.implements
  obtain ⟨heap, closed, _⟩ := structured.pagerClose_file
  have both : poolSession.store.view poolOrder = session.store.view order := poolView.trans view.symm
  refine ⟨joined.pool.results.trans joined.pager.results.symm, congrArg Cache.history both,
    congrArg Cache.pwriteCount both, congrArg Cache.fd both, _, heap, closed, fun pageIds enumerated => ?_⟩
  rw [view]
  exact joined.pool.implements.destroy joined.stored enumerated

end Session

/-- With an allocator that never refuses, the pager and the buffer pool stop at
the same operation, and until then agree after each: the operations are arbitrary,
so this holds at every point of a run. -/
theorem pager_agrees_with_buffer_pool (fd : File) (heap : Heap) (ops : List Op) (whole : fd.Whole pageSize)
    (granted : ¬ heap.oracle.Refuses) :
    ∃ pager pool, pagerOpen fd heap = some (some pager) ∧
      BufferPoolManager.create fd cacheCapacity = some pool ∧
      Option.Rel Session.Agree (run (Session.step cPager) (Session.start pager) ops)
        (run (Session.step BufferPoolManager.bufferPool) (Session.start pool) ops) := by
  rcases pagerOpen_exists fd heap with ⟨_, refuses⟩ | ⟨pager, opened, implements, oracle⟩
  · exact absurd refuses granted
  obtain ⟨pool, created, pooled⟩ := BufferPoolManager.create_exists fd
  refine ⟨pager, pool, opened, created, ?_⟩
  have stored := Cache.opened_stored whole
  have generous : pager.Generous := by
    intro calls live
    rw [oracle]
    exact Option.isSome_iff_ne_none.mpr fun answer => granted ⟨calls, live, answer⟩
  have joined : Session.Joined (Session.start pager) (Session.start pool) (Session.start (Cache.opened fd)) :=
    ⟨⟨implements, .nil, rfl⟩, ⟨pooled, .nil, rfl⟩,
      ⟨stored.distinct, by simp [Session.start], by simp [Session.start]⟩, stored, generous⟩
  have runs : Option.Rel (fun session poolSession => ∃ image, Session.Joined session poolSession image)
      (run (Session.step cPager) (Session.start pager) ops)
      (run (Session.step BufferPoolManager.bufferPool) (Session.start pool) ops) := by
    apply run_lockstep _ ⟨_, joined⟩
    rintro session poolSession op ⟨image, joined⟩
    exact joined.step
  generalize run (Session.step cPager) (Session.start pager) ops = final at runs ⊢
  generalize run (Session.step BufferPoolManager.bufferPool) (Session.start pool) ops = poolFinal at runs ⊢
  cases runs with
  | none => exact .none
  | some joined =>
      obtain ⟨image, joined⟩ := joined
      exact .some joined.agree

/-- Pages allocated, one of them written, all of them fetched until the first is
evicted, one freed and allocated again. -/
def roundOfPages : List Op :=
  List.replicate 11 .alloc ++ [.fetch 1, .write 0 fun _ => 7, .unpin 0 true] ++
    (List.range 10).flatMap (fun index => [.fetch (Int32.ofNat (index + 2)), .unpin 0 false]) ++
    [.free 3, .alloc, .flush 0]

theorem pager_agrees_with_buffer_pool_new_file : ∃ pager pool session poolSession,
    pagerOpen (File.empty fun _ => pageSize) (Heap.start Malloc.bump) = some (some pager) ∧
    BufferPoolManager.create (File.empty fun _ => pageSize) cacheCapacity = some pool ∧
    run (Session.step cPager) (Session.start pager) roundOfPages = some session ∧
    run (Session.step BufferPoolManager.bufferPool) (Session.start pool) roundOfPages = some poolSession ∧
    Session.Agree session poolSession := by
  have completes : ((pagerOpen (File.empty fun _ => pageSize) (Heap.start Malloc.bump)).join.bind fun pager =>
      run (Session.step cPager) (Session.start pager) roundOfPages).isSome = true := by
    decide +kernel
  obtain ⟨session, both⟩ := Option.isSome_iff_exists.mp completes
  obtain ⟨pager, opened, completed⟩ := Option.bind_eq_some_iff.mp both
  have opened := Option.join_eq_some_iff.mp opened
  obtain ⟨other, pool, openedAgain, created, agree⟩ := pager_agrees_with_buffer_pool
    (File.empty fun _ => pageSize) (Heap.start Malloc.bump) roundOfPages (fun _ => Nat.le_refl pageSize)
    Malloc.bump_never_refuses
  cases opened.symm.trans openedAgain
  rw [completed] at agree
  generalize pooled : run (Session.step BufferPoolManager.bufferPool) (Session.start pool) roundOfPages =
    result at agree
  cases agree with
  | some agree => exact ⟨_, _, _, _, opened, created, completed, pooled, agree⟩

/-- The pager's third `malloc` is the first that is refused: the fetch returns no
page, but the buffer pool's frames are there already. -/
theorem refused_malloc_breaks_agreement : ∃ pager pool session poolSession,
    pagerOpen (File.empty fun _ => pageSize) (Heap.start (Malloc.limited 2)) = some (some pager) ∧
    BufferPoolManager.create (File.empty fun _ => pageSize) cacheCapacity = some pool ∧
    run (Session.step cPager) (Session.start pager) [.fetch 1] = some session ∧
    run (Session.step BufferPoolManager.bufferPool) (Session.start pool) [.fetch 1] = some poolSession ∧
    ¬ Session.Agree session poolSession := by
  have completes : ((pagerOpen (File.empty fun _ => pageSize) (Heap.start (Malloc.limited 2))).join.bind
      fun pager => (run (Session.step cPager) (Session.start pager) [.fetch 1]).filter fun session =>
        session.results.map Result.refused = [true]).isSome = true := by
    decide +kernel
  have poolCompletes : ((BufferPoolManager.create (File.empty fun _ => pageSize) cacheCapacity).bind
      fun pool => (run (Session.step BufferPoolManager.bufferPool) (Session.start pool) [.fetch 1]).filter
        fun session => session.results.map Result.refused = [false]).isSome = true := by
    decide +kernel
  obtain ⟨session, both⟩ := Option.isSome_iff_exists.mp completes
  obtain ⟨pager, opened, finished⟩ := Option.bind_eq_some_iff.mp both
  obtain ⟨completed, refused⟩ := Option.filter_eq_some_iff.mp finished
  obtain ⟨poolSession, poolBoth⟩ := Option.isSome_iff_exists.mp poolCompletes
  obtain ⟨pool, created, poolFinished⟩ := Option.bind_eq_some_iff.mp poolBoth
  obtain ⟨poolCompleted, granted⟩ := Option.filter_eq_some_iff.mp poolFinished
  refine ⟨pager, pool, session, poolSession, Option.join_eq_some_iff.mp opened, created, completed,
    poolCompleted, fun agree => ?_⟩
  rw [decide_eq_true_eq] at refused granted
  rw [agree.results, refused] at granted
  contradiction

end HundredDays.PagedStorage
