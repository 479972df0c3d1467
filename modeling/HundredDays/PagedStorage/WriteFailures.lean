import HundredDays.PagedStorage.BufferPool.Exhaustion
import HundredDays.PagedStorage.Cache.Owing

namespace HundredDays.PagedStorage

open HundredDays.Data HundredDays.Memory HundredDays.Semantics

/-! Runs in which any `pwrite` may fail or transfer less than a page.

A failed flush leaves the page dirty, and the next one tries again.  An eviction
does not look whether its flush failed: it takes the page's frame either way.
-/

/-- A new file is owed its header, which is dirty from the start. -/
def Owed.start (fd : File) : Owed := fun pageId =>
  if fd.size = 0 ∧ pageId = 0 then some initialHeader else none

variable {fd : File} {heap : Heap} {cache image : Cache} {owed : Owed} {pageId : Int32}

namespace Cache

theorem Owes.blank (empty : cache.frames = []) (free : ∀ pageId, owed pageId = none) : cache.Owes owed := by
  refine ⟨by simp [Distinct, empty], by simp [empty], ?_, by simp [empty], ?_⟩
  · intro pageId data still
    simp [free] at still
  · intro pageId data still
    simp [free] at still

theorem EvictionLands.blank (empty : cache.frames = []) : cache.EvictionLands := by
  intro left victim right _ split
  simp [empty] at split

theorem opened_owes (fd : File) : (opened fd).Owes (Owed.start fd) := by
  by_cases new : fd.size = 0
  · rw [opened, if_pos new]
    refine Owes.flush ⟨by simp [Distinct], by simp, ?_, ?_, ?_⟩
    · intro pageId data still
      by_cases header : pageId = 0
      · simp [header]
      · simp [Owed.start, header] at still
    · intro frame member dirty data still
      rw [List.mem_singleton.mp member] at still ⊢
      simpa [Owed.start, new] using still
    · intro pageId data still
      by_cases header : pageId = 0
      · simp only [Owed.start, new, header, and_self, if_true, Option.some.injEq] at still
        exact .inr ⟨_, List.mem_singleton.mpr rfl, header.symm, still, rfl⟩
      · simp [Owed.start, header] at still
  · rw [opened, if_neg new]
    exact Owes.blank rfl fun pageId => by simp [Owed.start, new]

end Cache

/-- The caller of the C pager, with what it may expect of each page. -/
structure Ledger where
  caller : Caller
  owed : Owed

namespace Ledger

variable {ledger next : Ledger} {pager after : Pager} {call : Call} {node : Addr}

def start (fd : File) (pager : Pager) : Ledger := { caller := Caller.start pager, owed := Owed.start fd }

/-- What a call adds to what is owed.  Allocating and freeing unpin the header,
and the page that is freed, as dirty. -/
def entry (before after : Pager) (owed : Owed) : Call → Owed
  | .unpin (some node) true => owed.commit (before.page node).pageId (before.page node).data
  | .write node data => owed.rewrite (before.page node).pageId (before.page node).isDirty data
  | .alloc => owed.commit 0 (after.contents 0)
  | .free pageId =>
      if pageId ≤ 0 then owed
      else (owed.commit pageId (after.contents pageId)).commit 0 (after.contents 0)
  | _ => owed

def step (ledger : Ledger) (call : Call) : Option Ledger :=
  (ledger.caller.step call).map fun caller =>
    { caller, owed := entry ledger.caller.pager caller.pager ledger.owed call }

/-- Every dirty page that the call evicts reaches the file. -/
def Lands (ledger : Ledger) (call : Call) : Prop :=
  ∀ cache, ledger.caller.pager.Implements cache →
    match call with
    | .fetch pageId => cache.FetchLands pageId
    | .alloc => cache.AllocLands
    | .free pageId => cache.FreeLands pageId
    | _ => True

/-- What is owed is on file, or in the cache and still dirty. -/
def Settled (ledger : Ledger) : Prop :=
  ∀ pageId data, ledger.owed pageId = some data →
    ledger.caller.pager.fd.window pageSize (fileOffset pageId) = data ∨
      ∃ node, ledger.caller.pager.Holds node pageId ∧ (ledger.caller.pager.page node).data = data ∧
        (ledger.caller.pager.page node).isDirty = true

end Ledger

theorem Pager.Implements.frame {pager : Pager} {node : Addr} (implements : pager.Implements cache)
    (holds : pager.Holds node pageId) : pager.frameAt node ∈ cache.frames ∧ (pager.page node).pageId = pageId := by
  obtain ⟨order, buckets, structured, rfl⟩ := implements
  obtain ⟨member, label⟩ := structured.holds_iff.mp holds
  exact ⟨List.mem_map_of_mem member, label⟩

namespace Ledger

variable {ledger next : Ledger} {pager : Pager} {call : Call}

structure Kept (ledger : Ledger) : Prop where
  caller : ∃ cache, ledger.caller.Kept cache
  owes : ∃ cache, ledger.caller.pager.Implements cache ∧ cache.Owes ledger.owed

theorem Kept.step (kept : ledger.Kept) (lands : ledger.Lands call) (stepped : ledger.step call = some next) :
    next.Kept := by
  obtain ⟨stable, invariant⟩ := kept.caller
  obtain ⟨cache, implements, owes⟩ := kept.owes
  obtain ⟨caller, called, rfl⟩ := Option.map_eq_some_iff.mp stepped
  have still : ∃ image, caller.Kept image := by
    obtain ⟨image, kept, _⟩ := invariant.step called
    exact ⟨image, kept⟩
  refine ⟨still, ?_⟩
  have evicts := lands cache implements
  cases call with
  | fetch pageId =>
      simp only [Caller.step] at called
      split at called
      · contradiction
      · rename_i nonneg
        obtain ⟨⟨result, after⟩, fetched, rfl⟩ := Option.map_eq_some_iff.mp called
        obtain ⟨image, follows, effect, _⟩ := implements.fetched (Int32.not_lt.mp nonneg) fetched
        have done := owes.fetched (Int32.not_lt.mp nonneg) evicts effect
        cases result with
        | none => exact ⟨image, follows.implements, done⟩
        | some node => exact ⟨image, follows.implements, done⟩
  | unpin page isDirty =>
      cases page with
      | none =>
          cases called
          exact ⟨cache, implements, owes⟩
      | some node =>
          simp only [Caller.step] at called
          split at called
          · rename_i member
            cases called
            obtain ⟨pageId, holds⟩ := invariant.valid node member
            obtain ⟨listed, label⟩ := implements.frame holds
            have edits := Pager.Implements.unpin isDirty implements holds
            refine ⟨_, edits.implements, ?_⟩
            cases isDirty with
            | false => exact owes.unpin_clean
            | true =>
                have owing := (owes.forget pageId).unpin_dirty listed label
                simp only [entry, label]
                exact owing
          · contradiction
  | flush node =>
      simp only [Caller.step] at called
      split at called
      · rename_i member
        cases called
        obtain ⟨pageId, holds⟩ := invariant.valid node member
        exact ⟨_, (Pager.Implements.flush implements holds).implements, owes.flush⟩
      · contradiction
  | write node data =>
      simp only [Caller.step] at called
      split at called
      · rename_i member
        cases called
        obtain ⟨pageId, holds⟩ := invariant.valid node member
        obtain ⟨listed, label⟩ := implements.frame holds
        refine ⟨_, (Pager.Implements.setData (fun _ => data) implements holds).implements, ?_⟩
        have owing : (cache.setData pageId fun _ => data).Owes _ := owes.write listed label
        simp only [entry, label]
        exact owing
      · contradiction
  | alloc =>
      obtain ⟨⟨pageId, after⟩, allocated, rfl⟩ := Option.map_eq_some_iff.mp called
      obtain ⟨memories, image, follows, effect⟩ := Pager.Implements.allocated implements allocated
      refine ⟨image, follows.implements, ?_⟩
      simp only [entry, Pager.Implements.contents follows.implements (Int32.le_refl 0)]
      exact owes.allocated evicts effect
  | free pageId =>
      obtain ⟨after, freed, rfl⟩ := Option.map_eq_some_iff.mp called
      obtain ⟨memories, image, follows, effect⟩ := Pager.Implements.freed implements freed
      refine ⟨image, follows.implements, ?_⟩
      have owing := owes.freed evicts effect
      simp only [entry, Pager.Implements.contents follows.implements (Int32.le_refl 0)]
      by_cases ignored : pageId ≤ 0
      · rwa [if_pos ignored] at owing ⊢
      · rw [if_neg ignored] at owing ⊢
        rwa [Pager.Implements.contents follows.implements (Int32.le_of_lt (Int32.not_le.mp ignored))]

theorem start_kept (opened : pagerOpen fd heap = some (some pager)) : (start fd pager).Kept :=
  ⟨⟨_, Caller.start_kept opened⟩, _, (pagerOpen_implements opened).1, Cache.opened_owes fd⟩

theorem Kept.settled (kept : ledger.Kept) : ledger.Settled := by
  obtain ⟨cache, implements, owes⟩ := kept.owes
  intro pageId data still
  obtain ⟨order, buckets, structured, rfl⟩ := implements
  rcases owes.kept pageId data still with filed | ⟨frame, listed, label, contents, dirty⟩
  · exact .inl filed
  · obtain ⟨node, member, rfl⟩ := List.mem_map.mp listed
    exact .inr ⟨node, structured.holds_iff.mpr ⟨member, label⟩, contents, dirty⟩

end Ledger

/-- The caller of the buffer pool, with what it may expect of each page. -/
structure PoolLedger where
  caller : PoolCaller
  owed : Owed

namespace PoolLedger

def start (fd : File) (pool : BufferPoolManager) : PoolLedger :=
  { caller := PoolCaller.start pool, owed := Owed.start fd }

def entry (before after : BufferPoolManager) (owed : Owed) : PoolCall → Owed
  | .unpin pageId true =>
      match before.pageTable pageId with
      | some frameId => owed.commit pageId (before.pages frameId).data
      | none => owed
  | .write frameId data => owed.rewrite (before.pages frameId).pageId (before.pages frameId).isDirty data
  | .alloc => owed.commit 0 (after.observe 0).1
  | .free pageId =>
      if pageId ≤ 0 then owed
      else (owed.commit pageId (after.observe pageId).1).commit 0 (after.observe 0).1
  | _ => owed

def step (ledger : PoolLedger) (call : PoolCall) : Option PoolLedger :=
  (ledger.caller.step call).map fun caller =>
    { caller, owed := entry ledger.caller.pool caller.pool ledger.owed call }

/-- Every dirty page that the call evicts reaches the file. -/
def Lands (ledger : PoolLedger) (call : PoolCall) : Prop :=
  ∀ cache, ledger.caller.pool.Implements cache →
    match call with
    | .fetch pageId => cache.FetchLands pageId
    | .alloc => cache.AllocLands
    | .free pageId => cache.FreeLands pageId
    | _ => True

/-- What is owed is on file, or in the pool and still dirty. -/
def Settled (ledger : PoolLedger) : Prop :=
  ∀ pageId data, ledger.owed pageId = some data →
    ledger.caller.pool.fd.window pageSize (fileOffset pageId) = data ∨
      ∃ frameId, ledger.caller.pool.pageTable pageId = some frameId ∧
        (ledger.caller.pool.pages frameId).data = data ∧ (ledger.caller.pool.pages frameId).isDirty = true

end PoolLedger

namespace BufferPoolManager

variable {pool : BufferPoolManager} {frameId : Nat}

theorem Implements.frame (implements : pool.Implements cache) (holds : pool.Holds frameId pageId) :
    pool.pages frameId ∈ cache.frames ∧ (pool.pages frameId).pageId = pageId := by
  obtain ⟨order, pooled, rfl⟩ := implements
  obtain ⟨member, label⟩ := pooled.holds_iff.mp holds
  exact ⟨List.mem_map_of_mem member, label⟩

theorem Implements.contents (implements : pool.Implements cache) :
    (pool.observe pageId).1 = cache.contents pageId := by
  obtain ⟨order, pooled, rfl⟩ := implements
  unfold observe
  cases found : pool.pageTable pageId with
  | some frameId =>
      obtain ⟨member, label⟩ := (pooled.table pageId frameId).mp found
      rw [Cache.contents, ← label, pooled.find_view member]
  | none =>
      have missing : (pool.view order).frames.find? (Cache.holds pageId) = none := by
        apply List.find?_eq_none.mpr
        intro frame member
        obtain ⟨frameId, listed, rfl⟩ := List.mem_map.mp member
        simp only [Cache.holds, beq_iff_eq]
        intro label
        rw [(pooled.table pageId frameId).mpr ⟨listed, label⟩] at found
        cases found
      rw [Cache.contents, missing]
      rfl

end BufferPoolManager

namespace PoolLedger

variable {ledger next : PoolLedger} {pool : BufferPoolManager} {call : PoolCall} {capacity : Nat}

structure Kept (ledger : PoolLedger) : Prop where
  caller : ledger.caller.Kept
  owes : ∃ cache, ledger.caller.pool.Implements cache ∧ cache.Owes ledger.owed

theorem Kept.step (kept : ledger.Kept) (lands : ledger.Lands call) (stepped : ledger.step call = some next) :
    next.Kept := by
  obtain ⟨cache, implements, owes⟩ := kept.owes
  obtain ⟨caller, called, rfl⟩ := Option.map_eq_some_iff.mp stepped
  refine ⟨kept.caller.step called, ?_⟩
  have evicts := lands cache implements
  cases call with
  | fetch pageId =>
      simp only [PoolCaller.step] at called
      split at called
      · contradiction
      · rename_i nonneg
        obtain ⟨⟨page, after⟩, fetched, rfl⟩ := Option.map_eq_some_iff.mp called
        obtain ⟨image, follows, effect, _⟩ := implements.fetched (Int32.not_lt.mp nonneg) fetched
        exact ⟨image, follows.implements, owes.fetched (Int32.not_lt.mp nonneg) evicts effect⟩
  | unpin pageId isDirty =>
      cases called
      cases found : ledger.caller.pool.pageTable pageId with
      | none =>
          have same : ledger.caller.pool.unpinPage pageId isDirty = ledger.caller.pool := by
            simp [BufferPoolManager.unpinPage, found]
          rw [same]
          refine ⟨cache, implements, ?_⟩
          cases isDirty with
          | false => exact owes
          | true =>
              simp only [entry, found]
              exact owes
      | some frameId =>
          have edits := BufferPoolManager.Implements.unpin isDirty implements found
          obtain ⟨listed, label⟩ := implements.frame found
          refine ⟨_, edits.implements, ?_⟩
          cases isDirty with
          | false => exact owes.unpin_clean
          | true =>
              simp only [entry, found]
              exact (owes.forget pageId).unpin_dirty listed label
  | flush pageId =>
      cases called
      exact ⟨_, (BufferPoolManager.Implements.flush pageId implements).implements, owes.flush⟩
  | flushAll pageIds =>
      cases called
      have flushed : ∀ (pageIds : List Int32) (pool : BufferPoolManager) (cache : Cache),
          pool.Implements cache → cache.Owes ledger.owed →
          ∃ image, (pool.flushAllPages pageIds).Implements image ∧ image.Owes ledger.owed := by
        intro pageIds
        induction pageIds with
        | nil => exact fun pool cache implements owes => ⟨cache, implements, owes⟩
        | cons pageId rest ih =>
            intro pool cache implements owes
            exact ih _ _ (BufferPoolManager.Implements.flush pageId implements).implements owes.flush
      exact flushed pageIds _ cache implements owes
  | write frameId data =>
      simp only [PoolCaller.step] at called
      split at called
      · rename_i member
        cases called
        obtain ⟨pageId, holds⟩ := kept.caller.valid frameId member
        obtain ⟨listed, label⟩ := implements.frame holds
        refine ⟨_, (BufferPoolManager.Implements.setData (fun _ => data) implements holds).implements, ?_⟩
        simp only [entry, label]
        exact owes.write listed label
      · contradiction
  | alloc =>
      obtain ⟨⟨pageId, after⟩, allocated, rfl⟩ := Option.map_eq_some_iff.mp called
      obtain ⟨_, image, follows, effect⟩ := BufferPoolManager.Implements.allocated implements allocated
      refine ⟨image, follows.implements, ?_⟩
      simp only [entry, BufferPoolManager.Implements.contents follows.implements]
      exact owes.allocated evicts effect
  | free pageId =>
      obtain ⟨after, freed, rfl⟩ := Option.map_eq_some_iff.mp called
      obtain ⟨_, image, follows, effect⟩ := BufferPoolManager.Implements.freed implements freed
      refine ⟨image, follows.implements, ?_⟩
      simp only [entry, BufferPoolManager.Implements.contents follows.implements]
      exact owes.freed evicts effect

/-- The constructor writes the header of a new file, or leaves it dirty. -/
theorem start_kept (created : BufferPoolManager.create fd capacity = some pool) : (start fd pool).Kept := by
  refine ⟨PoolCaller.start_kept created, ?_⟩
  have pooled := BufferPoolManager.Pooled.blank fd capacity
  have blank : ((BufferPoolManager.blank fd capacity).view []).Owes fun _ => none := Cache.Owes.blank rfl fun _ => rfl
  by_cases new : fd.size = 0
  · rw [BufferPoolManager.create, if_pos new] at created
    obtain ⟨⟨hdrPage, fetched⟩, called, created⟩ := Option.bind_eq_some_iff.mp created
    obtain ⟨hdr, rfl, created⟩ := Option.bind_eq_some_iff.mp created
    cases created
    obtain ⟨image, follows, effect, holds⟩ :=
      BufferPoolManager.Implements.fetched ⟨[], pooled, rfl⟩ (Int32.le_refl 0) called
    have held := holds hdr rfl
    let fill (data : Bytes) : Bytes :=
      ((data.setPageSize (UInt32.ofNat pageSize)).setTotalPages 1).setFreeListHead (-1)
    have headed := BufferPoolManager.Implements.setData fill follows.implements held
    have unpinned := BufferPoolManager.Implements.unpin true headed.implements (headed.holds _ _ held)
    have flushed := BufferPoolManager.Implements.flush 0 unpinned.implements
    have filled : (image.setData 0 fill).Owes fun _ => none :=
      (blank.fetched (Int32.le_refl 0) (fun _ => Cache.EvictionLands.blank rfl) effect).update_free rfl fun _ => rfl
    -- the page that the fetch read is zero, since the file is empty
    have listed : ∃ frame ∈ (image.setData 0 fill).frames, frame.pageId = 0 ∧ frame.data = initialHeader := by
      have unread : fd.window pageSize (fileOffset 0) = Bytes.zero := by
        funext index
        exact fd.beyond _ (by omega)
      cases effect with
      | hit left right frame split => simp [BufferPoolManager.view] at split
      | miss room absent acquired =>
          cases acquired with
          | space =>
              refine ⟨_, List.mem_map.mpr ⟨_, List.mem_cons_self, if_pos rfl⟩, rfl, ?_⟩
              exact congrArg fill unread
          | evicted left right victim full split => simp [BufferPoolManager.view] at split
    obtain ⟨frame, member, label, contents⟩ := listed
    have owing := (filled.forget 0).unpin_dirty member label
    refine ⟨_, flushed.implements, ?_⟩
    have first : Owed.start fd = Owed.commit (fun _ => none) 0 frame.data := by
      funext pageId
      by_cases header : pageId = 0 <;> simp [Owed.start, Owed.commit, new, header, contents]
    rw [start, first]
    exact owing.flush
  · rw [BufferPoolManager.create, if_neg new] at created
    cases created
    have idle : Owed.start fd = fun _ => none := by
      funext pageId
      simp [Owed.start, new]
    refine ⟨_, ⟨[], pooled, rfl⟩, ?_⟩
    rw [start, idle]
    exact blank

theorem Kept.settled (kept : ledger.Kept) : ledger.Settled := by
  obtain ⟨cache, implements, owes⟩ := kept.owes
  intro pageId data still
  obtain ⟨order, pooled, rfl⟩ := implements
  rcases owes.kept pageId data still with filed | ⟨frame, listed, label, contents, dirty⟩
  · exact .inl filed
  · obtain ⟨frameId, member, rfl⟩ := List.mem_map.mp listed
    exact .inr ⟨frameId, (pooled.table pageId frameId).mpr ⟨member, label⟩, contents, dirty⟩

end PoolLedger

/-- However the writes of flushes fail, nothing that is owed is dropped in a run
whose evictions all bring their dirty pages to the file. -/
theorem committed_pages_kept (fd : File) :
    (∀ (heap : Heap) (pager : Pager) (calls : List Call) (ledger : Ledger),
      pagerOpen fd heap = some (some pager) →
      Meets Ledger.step Ledger.Lands (Ledger.start fd pager) calls →
      run Ledger.step (Ledger.start fd pager) calls = some ledger → ledger.Settled) ∧
    ∀ (capacity : Nat) (pool : BufferPoolManager) (calls : List PoolCall) (ledger : PoolLedger),
      BufferPoolManager.create fd capacity = some pool →
      Meets PoolLedger.step PoolLedger.Lands (PoolLedger.start fd pool) calls →
      run PoolLedger.step (PoolLedger.start fd pool) calls = some ledger → ledger.Settled := by
  constructor
  · intro heap pager calls ledger opened meets completed
    exact (run_invariant_meeting Ledger.Kept (fun _ _ _ kept lands stepped => kept.step lands stepped)
      (Ledger.start_kept opened) meets completed).settled
  · intro capacity pool calls ledger created meets completed
    exact (run_invariant_meeting PoolLedger.Kept (fun _ _ _ kept lands stepped => kept.step lands stepped)
      (PoolLedger.start_kept created) meets completed).settled

/-- A fetch into a cache with room evicts nothing. -/
theorem Pager.Implements.room {pager : Pager} (implements : pager.Implements cache)
    (room : pager.lruList.size < pager.capacity) : cache.EvictionLands := by
  obtain ⟨order, buckets, structured, rfl⟩ := implements
  intro left victim right full
  rw [structured.view_length] at full
  change pager.capacity ≤ pager.lruList.size at full
  omega

theorem BufferPoolManager.Implements.room {pool : BufferPoolManager} (implements : pool.Implements cache)
    (room : pool.freeFrames ≠ []) : cache.EvictionLands := by
  obtain ⟨order, pooled, rfl⟩ := implements
  intro left victim right full
  have length := pooled.view_length
  have some := List.length_pos_iff.mpr room
  change (pool.capacity : Int) ≤ _ at full
  omega

/-- Write a page and unpin it as dirty. -/
def commitOne : List Call := [.fetch 1, .write 3 fun _ => 7, .unpin (some 3) true]

def poolCommitOne (frameId : Nat) : List PoolCall := [.fetch 1, .write frameId fun _ => 7, .unpin 1 true]

theorem committed_pages_kept_one_page :
    (∃ pager ledger, pagerOpen (File.empty fun _ => 0) (Heap.start Malloc.bump) = some (some pager) ∧
      run Ledger.step (Ledger.start (File.empty fun _ => 0) pager) commitOne = some ledger ∧ ledger.Settled) ∧
    ∃ pool ledger, BufferPoolManager.create (File.empty fun _ => 0) 2 = some pool ∧
      run PoolLedger.step (PoolLedger.start (File.empty fun _ => 0) pool) (poolCommitOne 1) = some ledger ∧
      ledger.Settled := by
  constructor
  · have completes : ((pagerOpen (File.empty fun _ => 0) (Heap.start Malloc.bump)).join.bind fun pager =>
        if pager.lruList.size < pager.capacity then
          run Ledger.step (Ledger.start (File.empty fun _ => 0) pager) commitOne
        else none).isSome = true := by
      decide +kernel
    obtain ⟨ledger, both⟩ := Option.isSome_iff_exists.mp completes
    obtain ⟨pager, opened, completed⟩ := Option.bind_eq_some_iff.mp both
    have opened := Option.join_eq_some_iff.mp opened
    obtain ⟨room, completed⟩ := Option.ite_none_right_eq_some.mp completed
    have meets : Meets Ledger.step Ledger.Lands (Ledger.start (File.empty fun _ => 0) pager) commitOne :=
      ⟨fun _ implements _ => implements.room room, fun _ _ =>
        ⟨fun _ _ => trivial, fun _ _ => ⟨fun _ _ => trivial, fun _ _ => trivial⟩⟩⟩
    exact ⟨pager, ledger, opened, completed, (committed_pages_kept _).1 _ pager _ ledger opened meets completed⟩
  · have completes : ((BufferPoolManager.create (File.empty fun _ => 0) 2).bind fun pool =>
        if pool.freeFrames ≠ [] then
          run PoolLedger.step (PoolLedger.start (File.empty fun _ => 0) pool) (poolCommitOne 1)
        else none).isSome = true := by
      decide +kernel
    obtain ⟨ledger, both⟩ := Option.isSome_iff_exists.mp completes
    obtain ⟨pool, created, completed⟩ := Option.bind_eq_some_iff.mp both
    obtain ⟨room, completed⟩ := Option.ite_none_right_eq_some.mp completed
    have meets : Meets PoolLedger.step PoolLedger.Lands (PoolLedger.start (File.empty fun _ => 0) pool)
        (poolCommitOne 1) :=
      ⟨fun _ implements _ => implements.room room, fun _ _ =>
        ⟨fun _ _ => trivial, fun _ _ => ⟨fun _ _ => trivial, fun _ _ => trivial⟩⟩⟩
    exact ⟨pool, ledger, created, completed, (committed_pages_kept _).2 _ pool _ ledger created meets completed⟩

/-- A file that takes the header and then nothing more. -/
def fullDisk : File := File.empty fun call => if call = 0 then pageSize else 0

/-- Enough fetches to evict first the header and then the page that was written. -/
def evictCommitted : List Call := commitOne ++ (List.range 10).map fun index => .fetch (Int32.ofNat (index + 2))

/-- An eviction drops a page whose write failed. -/
theorem failed_eviction_drops_page :
    ¬ (∀ (fd : File) (heap : Heap) (pager : Pager) (calls : List Call) (ledger : Ledger),
      pagerOpen fd heap = some (some pager) → run Ledger.step (Ledger.start fd pager) calls = some ledger →
      ledger.Settled) ∧
    ¬ ∀ (fd : File) (capacity : Nat) (pool : BufferPoolManager) (calls : List PoolCall) (ledger : PoolLedger),
      BufferPoolManager.create fd capacity = some pool →
      run PoolLedger.step (PoolLedger.start fd pool) calls = some ledger → ledger.Settled := by
  constructor
  · intro settled
    have drops : ((pagerOpen fullDisk (Heap.start Malloc.bump)).join.bind fun pager =>
        (run Ledger.step (Ledger.start fullDisk pager) evictCommitted).filter fun ledger =>
          (ledger.owed 1).any (fun data => data ⟨0, by decide⟩ = 7) ∧
            ledger.caller.pager.fd.byte (fileOffset 1 + 0) = 0 ∧
            hashFind ledger.caller.pager 1 = some none).isSome = true := by
      decide +kernel
    obtain ⟨ledger, both⟩ := Option.isSome_iff_exists.mp drops
    obtain ⟨pager, opened, both⟩ := Option.bind_eq_some_iff.mp both
    obtain ⟨completed, dropped⟩ := Option.filter_eq_some_iff.mp both
    have opened := Option.join_eq_some_iff.mp opened
    obtain ⟨owing, unwritten, uncached⟩ := of_decide_eq_true dropped
    obtain ⟨data, still, first⟩ := Option.any_eq_true _ _ |>.mp owing
    rcases settled _ _ pager _ ledger opened completed 1 data still with filed | ⟨node, holds, _⟩
    · have byte := congrFun filed ⟨0, by decide⟩
      rw [of_decide_eq_true first] at byte
      exact absurd (byte.symm.trans unwritten) (by decide)
    · cases uncached.symm.trans holds
  · intro settled
    have drops : ((BufferPoolManager.create fullDisk 1).bind fun pool =>
        (run PoolLedger.step (PoolLedger.start fullDisk pool) (poolCommitOne 0 ++ [.fetch 2])).filter
          fun ledger => (ledger.owed 1).any (fun data => data ⟨0, by decide⟩ = 7) ∧
            ledger.caller.pool.fd.byte (fileOffset 1 + 0) = 0 ∧
            ledger.caller.pool.pageTable 1 = none).isSome = true := by
      decide +kernel
    obtain ⟨ledger, both⟩ := Option.isSome_iff_exists.mp drops
    obtain ⟨pool, created, both⟩ := Option.bind_eq_some_iff.mp both
    obtain ⟨completed, dropped⟩ := Option.filter_eq_some_iff.mp both
    obtain ⟨owing, unwritten, uncached⟩ := of_decide_eq_true dropped
    obtain ⟨data, still, first⟩ := Option.any_eq_true _ _ |>.mp owing
    rcases settled _ _ pool _ ledger created completed 1 data still with filed | ⟨frameId, found, _⟩
    · have byte := congrFun filed ⟨0, by decide⟩
      rw [of_decide_eq_true first] at byte
      exact absurd (byte.symm.trans unwritten) (by decide)
    · cases uncached.symm.trans found

end HundredDays.PagedStorage
