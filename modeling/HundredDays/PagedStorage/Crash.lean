import HundredDays.PagedStorage.Allocation

namespace HundredDays.PagedStorage

open HundredDays.Data HundredDays.Semantics HundredDays.Memory

/-! What a crash leaves on disk.

The header and the freed pages are written back one by one, each when it is
evicted or flushed, so the file is behind the cache at most points of a run.
-/

variable {cache room before after last : Cache} {frame : Frame} {pageId other : Int32}
  {memory : Bool × Bool} {image next : Session Cache Int32}

namespace Cache

/-- The history went on, and pages without a write in it are on file as they were. -/
def Extends (before after : Cache) : Prop :=
  ∃ recent, after.history = recent ++ before.history ∧
    ∀ pageId, 0 ≤ pageId → (∀ data, .written pageId data ∉ recent) →
      after.onFile pageId = before.onFile pageId

namespace Extends

theorem refl : cache.Extends cache := ⟨[], rfl, fun _ _ _ => rfl⟩

theorem trans (first : before.Extends after) (second : after.Extends last) : before.Extends last := by
  obtain ⟨earlier, firstHistory, firstFile⟩ := first
  obtain ⟨later, secondHistory, secondFile⟩ := second
  refine ⟨later ++ earlier, by rw [secondHistory, firstHistory, List.append_assoc], ?_⟩
  intro pageId nonneg unwritten
  simp only [List.mem_append, not_or] at unwritten
  rw [secondFile pageId nonneg fun data => (unwritten data).1,
    firstFile pageId nonneg fun data => (unwritten data).2]

/-- A step that only adds an event and changes frames. -/
theorem silent {event : Event} (history : after.history = event :: before.history)
    (file : after.fd = before.fd) : before.Extends after :=
  ⟨[event], history, fun _ _ _ => by rw [onFile, onFile, file]⟩

theorem same (history : after.history = before.history) (file : after.fd = before.fd) :
    before.Extends after :=
  ⟨[], history, fun _ _ _ => by rw [onFile, onFile, file]⟩

theorem flushFrame (stored : cache.Stored) (nonneg : 0 ≤ frame.pageId) :
    cache.Extends (cache.flushFrame frame).1 := by
  cases dirty : frame.isDirty with
  | false =>
      rw [flushFrame_clean dirty]
      exact refl
  | true =>
      refine ⟨[.written frame.pageId frame.data], ?_, ?_⟩
      · rw [flushFrame_dirty stored.whole nonneg dirty]
        rfl
      · intro pageId pageNonneg unwritten
        rw [onFile_flushFrame stored.whole nonneg pageNonneg, if_neg]
        rintro ⟨_, rfl⟩
        exact unwritten frame.data (by simp)

theorem acquired (stored : cache.Stored) (acquired : Acquired cache room) : cache.Extends room := by
  cases acquired with
  | space => exact refl
  | evicted left right victim full split =>
      exact (flushFrame stored (stored.nonneg victim (by simp [split]))).trans (silent rfl rfl)

theorem fetched {result : Bool} (stored : cache.Stored) (fetched : Fetched cache pageId result room) :
    cache.Extends room := by
  cases fetched with
  | hit => exact silent rfl rfl
  | refused => exact refl
  | miss before absent acquired => exact (Extends.acquired stored acquired).trans (silent rfl rfl)

theorem flush (stored : cache.Stored) : cache.Extends (cache.flush pageId) := by
  cases found : cache.frames.find? (holds pageId) with
  | none =>
      rw [flush_absent found]
      exact refl
  | some frame =>
      rw [flush_found found]
      exact (flushFrame stored (stored.nonneg frame (List.mem_of_find?_eq_some found))).trans (same rfl rfl)

theorem required {granted : Bool} (stored : cache.Stored) (required : cache.require granted pageId = some room) :
    cache.Extends room :=
  fetched stored (require_some required).2

theorem allocated (stored : cache.Stored) (allocated : Allocated memory cache pageId room) :
    cache.Extends room := by
  cases allocated with
  | reused first second head opened listed nonempty reused =>
      exact ((required stored opened).trans (required (stored.required opened) reused)).trans (same rfl rfl)
  | appended first opened empty => exact (required stored opened).trans (same rfl rfl)

theorem freed (stored : cache.Stored) (freed : Freed memory cache pageId room) : cache.Extends room := by
  cases freed with
  | ignored => exact refl
  | listed first second positive opened target =>
      exact ((required stored opened).trans (required (stored.required opened) target)).trans (same rfl rfl)

theorem step {op : Op} (stored : image.store.Stored)
    (stepped : image.step (cacheStore memory) op = some next) : image.store.Extends next.store := by
  cases op with
  | fetch pageId =>
      simp only [Session.step, cacheStore] at stepped
      split at stepped
      · contradiction
      · obtain ⟨⟨result, store⟩, called, rfl⟩ := Option.map_eq_some_iff.mp stepped
        obtain ⟨⟨found, cache⟩, called, same⟩ := Option.map_eq_some_iff.mp called
        have effect := fetched stored (fetch_some called).2
        cases found with
        | true =>
            obtain ⟨rfl, rfl⟩ := Prod.mk.inj same
            exact effect
        | false =>
            obtain ⟨rfl, rfl⟩ := Prod.mk.inj same
            exact effect
  | read handle =>
      obtain ⟨held, _, rfl⟩ := Option.map_eq_some_iff.mp stepped
      exact refl
  | write handle data =>
      obtain ⟨held, _, rfl⟩ := Option.map_eq_some_iff.mp stepped
      exact same rfl rfl
  | unpin handle isDirty =>
      obtain ⟨held, _, rfl⟩ := Option.map_eq_some_iff.mp stepped
      exact same rfl rfl
  | flush pageId =>
      simp only [Session.step, cacheStore] at stepped
      split at stepped
      · contradiction
      · cases stepped
        exact flush stored
  | alloc =>
      obtain ⟨⟨newPageId, store⟩, called, rfl⟩ := Option.map_eq_some_iff.mp stepped
      exact allocated stored (allocPage_some called)
  | free pageId =>
      obtain ⟨store, called, rfl⟩ := Option.map_eq_some_iff.mp stepped
      exact freed stored (freePage_some called)

end Extends

/-- A tracked page that is not dirty is on file. -/
theorem Tracks.onFile {data : Bytes} (tracks : cache.Tracks pageId data false)
    (clean : ∀ frame ∈ cache.frames, frame.pageId = pageId → frame.isDirty = false) :
    cache.onFile pageId = data := by
  by_cases cached : ∃ frame ∈ cache.frames, frame.pageId = pageId
  · obtain ⟨frame, member, label⟩ := cached
    exact tracks.clean frame member label (clean frame member label) rfl
  · exact tracks.filed fun frame member label => cached ⟨frame, member, label⟩

end Cache

/-- The cached copy of a page, if any, is not dirty. -/
def Pager.Clean (pager : Pager) (pageId : Int32) : Prop :=
  ∀ node, pager.Holds node pageId → (pager.page node).isDirty = false

variable {free used : List Int32} {session later : Session Pager Addr}

namespace Session

/-- The free list, as far as it is known to be on file. -/
def Durable (session : Session Pager Addr) (free : List Int32) : Prop :=
  ∀ pageId, pageId = 0 ∨ pageId ∈ reusable free session.results → session.store.Clean pageId

/-- Between two points of a disciplined run, as the cache sees them. -/
theorem Governed.extends {ops : List Op} {start : Session Cache Int32}
    (matched : pagerRefinement.Matches session start) (balanced : start.Balanced)
    (keeps : Keeps start.store (reusable free start.results) (inUse used start.results))
    (completed : run (disciplined used) session ops = some later) :
    ∃ image, pagerRefinement.Matches later image ∧ image.Balanced ∧
      Keeps image.store (reusable free image.results) (inUse used image.results) ∧
      start.store.Extends image.store := by
  induction ops generalizing session start with
  | nil =>
      cases completed
      exact ⟨start, matched, balanced, keeps, .refl⟩
  | cons op rest ih =>
      obtain ⟨middle, stepped, remaining⟩ := run_cons_iff.mp completed
      simp only [disciplined] at stepped
      split at stepped
      · rename_i permitted
        obtain ⟨memory, _, pair⟩ := matched.step op balanced
        rw [stepped] at pair
        generalize imaged : start.step (cacheStore memory) op = result at pair
        rw [matched.results, matches_permitted matched] at permitted
        cases pair with
        | some both =>
            obtain ⟨image, final, finalBalanced, finalKeeps, extended⟩ :=
              ih both.1 (balanced.step imaged) (keeps.step balanced permitted imaged) remaining
            exact ⟨image, final, finalBalanced, finalKeeps,
              (Cache.Extends.step keeps.stored imaged).trans extended⟩
      · contradiction

/-- Pages that were clean at some point and not written since are on disk as
they were at that point. -/
theorem Governed.crashed {ops : List Op} {recent : List Event} (governed : session.Governed free used)
    (durable : session.Durable free) (completed : run (disciplined used) session ops = some later)
    (history : later.store.history = recent ++ session.store.history)
    (untouched : ∀ pageId, pageId = 0 ∨ pageId ∈ reusable free session.results →
      ∀ data, .written pageId data ∉ recent) :
    later.Governed free used ∧ later.store.fd.Whole pageSize ∧
      Allocator (Cache.initialPages later.store.fd) (reusable free session.results)
        (inUse used session.results) := by
  obtain ⟨start, matched, balanced, keeps⟩ := governed
  obtain ⟨image, final, finalBalanced, finalKeeps, extended⟩ :=
    Governed.extends matched balanced keeps completed
  have results := matched.results
  refine ⟨⟨image, final, finalBalanced, finalKeeps⟩, ?_⟩
  obtain ⟨order, buckets, structured, view⟩ := matched.implements
  obtain ⟨laterOrder, laterBuckets, _, laterView⟩ := final.implements
  have file : later.store.fd = image.store.fd := by rw [← laterView]; rfl
  have histories : session.store.history = start.store.history ∧
      later.store.history = image.store.history := by
    rw [← laterView, ← view]
    exact ⟨rfl, rfl⟩
  obtain ⟨events, grown, kept⟩ := extended
  rw [histories.1, histories.2, grown] at history
  have same : events = recent := List.append_cancel_right history
  subst same
  refine ⟨by rw [file]; exact finalKeeps.stored.whole, ?_⟩
  rw [results, file]
  apply keeps.allocator.congr
  intro pageId listed
  have clean : ∀ frame ∈ start.store.frames, frame.pageId = pageId → frame.isDirty = false := by
    intro frame member label
    rw [← view] at member
    obtain ⟨node, inside, rfl⟩ := List.mem_map.mp member
    rw [← results] at listed
    exact durable pageId listed node (structured.holds_iff.mpr ⟨inside, label⟩)
  have nonempty := finalKeeps.stored.nonempty
  have onFile : Cache.initialPages image.store.fd pageId = image.store.onFile pageId := by
    rw [Cache.initialPages, if_neg fun both => by omega]
    rfl
  rw [onFile, kept pageId (keeps.nonneg listed), (keeps.tracks pageId listed).onFile clean]
  rw [← results] at listed
  exact untouched pageId listed

end Session

/-- A crash leaves a valid allocator on disk if the header and the pages of the
free list were clean at some point, and none of them was written since. -/
theorem crash_leaves_allocator {fd : File} {heap : Heap} {pager : Pager} {ops more : List Op}
    {recent : List Event} (whole : fd.Whole pageSize)
    (valid : Allocator (Cache.initialPages fd) free used)
    (opened : pagerOpen fd heap = some (some pager))
    (before : run (Session.disciplined used) (Session.start pager) ops = some session)
    (durable : session.Durable free)
    (since : run (Session.disciplined used) session more = some later)
    (history : later.store.history = recent ++ session.store.history)
    (untouched : ∀ pageId, pageId = 0 ∨ pageId ∈ reusable free session.results →
      ∀ data, .written pageId data ∉ recent) :
    ∃ crashed rest, pagerDestroyNoFlush later.store = some (crashed, rest) ∧
      Allocator (Cache.initialPages crashed) (reusable free session.results) (inUse used session.results) ∧
      ∀ heap reopened ops again after, pagerOpen crashed heap = some (some reopened) →
        run (Session.disciplined (inUse used session.results)) (Session.start reopened) ops = some again →
        again.disciplined (inUse used session.results) .alloc = some after →
        ∃ newPageId, after.results = .allocated newPageId :: again.results ∧
          newPageId ∉ inUse (inUse used session.results) again.results := by
  have governed := run_invariant (fun session => Session.Governed session free used)
    (fun _ _ _ governed stepped => Session.Governed.step governed stepped)
    (Session.start_governed whole valid opened) before
  obtain ⟨⟨image, matched, _⟩, stillWhole, allocator⟩ :=
    governed.crashed durable since history untouched
  obtain ⟨order, buckets, structured, _⟩ := matched.implements
  obtain ⟨rest, destroyed⟩ := structured.pagerDestroyNoFlush_file
  refine ⟨later.store.fd, rest, destroyed, allocator, ?_⟩
  intro heap reopened ops again after openedAgain completed stepped
  have reopening := run_invariant (fun again =>
      Session.Governed again (reusable free session.results) (inUse used session.results))
    (fun _ _ _ governed stepped => Session.Governed.step governed stepped)
    (Session.start_governed stillWhole allocator openedAgain) completed
  obtain ⟨newPageId, results, _, fresh, _⟩ := reopening.allocates stepped
  exact ⟨newPageId, results, fresh⟩

/-- A new file, a crash right after the header and the freed page were flushed. -/
theorem crash_leaves_allocator_flushed : ∃ pager session crashed rest,
    pagerOpen (File.empty fun _ => pageSize) (Heap.start Malloc.bump) = some (some pager) ∧
    run (Session.disciplined []) (Session.start pager) [.alloc, .alloc, .free 1, .flush 0, .flush 1] =
      some session ∧
    pagerDestroyNoFlush session.store = some (crashed, rest) ∧
    Allocator (Cache.initialPages crashed) (reusable [] session.results) (inUse [] session.results) := by
  have completes : ((pagerOpen (File.empty fun _ => pageSize) (Heap.start Malloc.bump)).join.bind fun pager =>
      (run (Session.disciplined []) (Session.start pager)
        [.alloc, .alloc, .free 1, .flush 0, .flush 1]).filter fun session =>
          reusable [] session.results = [1] ∧
          [0, 1].all fun pageId => (hashFind session.store pageId).join.all fun node =>
            !(session.store.page node).isDirty).isSome = true := by
    decide +kernel
  obtain ⟨session, all⟩ := Option.isSome_iff_exists.mp completes
  obtain ⟨pager, opened, all⟩ := Option.bind_eq_some_iff.mp all
  obtain ⟨completed, facts⟩ := Option.filter_eq_some_iff.mp all
  have opened := Option.join_eq_some_iff.mp opened
  simp only [decide_eq_true_eq] at facts
  obtain ⟨listed, clean⟩ := facts
  have durable : session.Durable [] := by
    intro pageId member node held
    have inside : pageId ∈ [0, 1] := by
      rcases member with rfl | member
      · simp
      · rw [listed] at member
        simp [List.mem_singleton.mp member]
    have checked := List.all_eq_true.mp clean pageId inside
    rw [show hashFind session.store pageId = some (some node) from held] at checked
    simpa using checked
  obtain ⟨crashed, rest, destroyed, allocator, _⟩ := crash_leaves_allocator
    (fun _ => Nat.le_refl pageSize) (Allocator.initial rfl) opened completed durable
    (show run (Session.disciplined []) session [] = some session from rfl)
    (show session.store.history = [] ++ session.store.history from rfl) (by simp)
  exact ⟨pager, session, crashed, rest, opened, completed, destroyed, allocator⟩

/-- Ten pages are allocated, the first is freed, and then the others are read, so
that the header is written back before the freed page. -/
def evictHeaderFirst : List Op :=
  List.replicate 10 .alloc ++ .free 1 ::
    ([2, 3, 4, 5, 6, 7, 8, 9].flatMap fun pageId => [.fetch pageId, .unpin 0 false]) ++ [.fetch 10]

/-- The header on disk already lists page 1, whose link was never written. -/
theorem crash_breaks_free_list : ∃ pager session crashed rest,
    pagerOpen (File.empty fun _ => pageSize) (Heap.start Malloc.bump) = some (some pager) ∧
    run (Session.disciplined []) (Session.start pager) evictHeaderFirst = some session ∧
    pagerDestroyNoFlush session.store = some (crashed, rest) ∧
    ¬ ∃ free, Chain (fun pageId => freeLink (Cache.initialPages crashed pageId).nextFree)
        (freeLink (Cache.initialPages crashed 0).header.freeListHead) free ∧ free.Nodup ∧
      ∀ pageId ∈ free, Allocatable (Cache.initialPages crashed) pageId := by
  have completes : (((pagerOpen (File.empty fun _ => pageSize) (Heap.start Malloc.bump)).join.bind
      fun pager => (run (Session.disciplined []) (Session.start pager) evictHeaderFirst).bind
        fun session => (pagerDestroyNoFlush session.store).filter fun (crashed, _) =>
          (Cache.initialPages crashed 0).header.freeListHead = 1 ∧
            (Cache.initialPages crashed 1).nextFree = 0)).isSome = true := by
    decide +kernel
  obtain ⟨⟨crashed, rest⟩, all⟩ := Option.isSome_iff_exists.mp completes
  obtain ⟨pager, opened, all⟩ := Option.bind_eq_some_iff.mp all
  obtain ⟨session, completed, all⟩ := Option.bind_eq_some_iff.mp all
  obtain ⟨destroyed, links⟩ := Option.filter_eq_some_iff.mp all
  obtain ⟨head, link⟩ : (Cache.initialPages crashed 0).header.freeListHead = 1 ∧
      (Cache.initialPages crashed 1).nextFree = 0 := by simpa using links
  refine ⟨pager, session, crashed, rest, Option.join_eq_some_iff.mp opened, completed, destroyed, ?_⟩
  rintro ⟨free, listed, _, range⟩
  rw [head] at listed
  cases free with
  | nil => exact absurd (chain_nil.mp listed) (by decide)
  | cons first others =>
      obtain ⟨start, onward⟩ := listed
      obtain rfl : first = 1 := (Option.some.inj start).symm
      simp only [link] at onward
      cases others with
      | nil => exact absurd (chain_nil.mp onward) (by decide)
      | cons second others =>
          obtain rfl : second = 0 := (Option.some.inj onward.1).symm
          exact absurd (range 0 (by simp)).1 (by decide)

end HundredDays.PagedStorage
