import HundredDays.PagedStorage.Cache.Contents
import HundredDays.PagedStorage.FreeList
import HundredDays.PagedStorage.Lifecycle

namespace HundredDays.PagedStorage

open HundredDays.Data HundredDays.Semantics HundredDays.Memory

/-! Allocating and freeing pages through the cache. -/

/-- What a page holds now: its cached data, or what the file has. -/
def Pager.contents (pager : Pager) (pageId : Int32) : Bytes :=
  match hashFind pager pageId with
  | some (some node) => (pager.page node).data
  | _ => pager.fd.window pageSize (fileOffset pageId)

/-- The pages in use: allocated and not freed since. -/
def inUse (used : List Int32) : List Result → List Int32
  | [] => used
  | .allocated pageId :: earlier => pageId :: inUse used earlier
  | .freed pageId :: earlier => (inUse used earlier).filter (· ≠ pageId)
  | _ :: earlier => inUse used earlier

/-- The pages freed and not allocated again, the latest first. -/
def reusable (free : List Int32) : List Result → List Int32
  | [] => free
  | .freed pageId :: earlier => pageId :: reusable free earlier
  | .allocated pageId :: earlier => (reusable free earlier).filter (· ≠ pageId)
  | _ :: earlier => reusable free earlier

/-- A client writes to pages in use only, frees pages in use that it does not
hold, and never lets the file grow beyond `2 ^ 31` pages. -/
def Op.permitted {ν : Type} (contents : Int32 → Bytes) (handles : List (Handle ν)) (used : List Int32) :
    Op → Bool
  | .write handle _ => handles[handle]?.all fun held => held.pageId ∈ used
  | .free pageId => pageId ∈ used ∧ ∀ held ∈ handles, held.pageId ≠ pageId
  | .alloc => (contents 0).header.freeListHead ≠ -1 ∨ totalPages contents < 2 ^ 31
  | _ => true

def Session.disciplined (used : List Int32) (session : Session Pager Addr) (op : Op) :
    Option (Session Pager Addr) :=
  if op.permitted session.store.contents session.handles (inUse used session.results) then
    session.step cPager op
  else none

/-- An allocation takes the latest freed page, or appends one when there is none. -/
def Allocates (before after : Int32 → Bytes) (free used : List Int32) (newPageId : Int32) : Prop :=
  newPageId ≠ 0 ∧ newPageId ∉ used ∧
    match free with
    | [] => newPageId.toInt = totalPages before ∧ totalPages after = totalPages before + 1
    | first :: _ => newPageId = first ∧ totalPages after = totalPages before

variable {pager : Pager} {cache room : Cache} {pageId newPageId : Int32} {data : Bytes} {loose : Bool}
  {free used : List Int32} {image next : Session Cache Int32} {memory : Bool × Bool}

namespace Cache

def contents (cache : Cache) (pageId : Int32) : Bytes :=
  match cache.frames.find? (holds pageId) with
  | some frame => frame.data
  | none => cache.onFile pageId

theorem Tracks.contents (tracks : cache.Tracks pageId data loose) : cache.contents pageId = data := by
  unfold Cache.contents
  cases found : cache.frames.find? (holds pageId) with
  | some frame =>
      have label : frame.pageId = pageId := by simpa [holds] using List.find?_some found
      exact tracks.cached frame (List.mem_of_find?_eq_some found) label
  | none =>
      apply tracks.filed
      intro frame member
      simpa [holds] using List.find?_eq_none.mp found frame member

end Cache

theorem Pager.Implements.contents (implements : pager.Implements cache) (nonneg : 0 ≤ pageId) :
    pager.contents pageId = cache.contents pageId := by
  obtain ⟨order, buckets, structured, rfl⟩ := implements
  unfold Pager.contents
  by_cases cached : ∃ node ∈ order, pager.idAt node = pageId
  · obtain ⟨node, member, rfl⟩ := cached
    rw [structured.hashFind_some member, Cache.contents, structured.find_view member]
    rfl
  · have absent : ∀ node ∈ order, pager.idAt node ≠ pageId :=
      fun node member same => cached ⟨node, member, same⟩
    have missing : (pager.view order).frames.find? (Cache.holds pageId) = none := by
      apply List.find?_eq_none.mpr
      intro frame member
      simpa [Cache.holds] using Structured.view_absent absent frame member
    rw [structured.hashFind_none nonneg absent, Cache.contents, missing]
    rfl

/-- The header and the free pages can be relied on: every write to them is marked
dirty before anything can evict them. -/
structure Keeps (cache : Cache) (free used : List Int32) : Prop where
  stored : cache.Stored
  allocator : Allocator cache.contents free used
  tracks : ∀ pageId, pageId = 0 ∨ pageId ∈ free → cache.Tracks pageId (cache.contents pageId) false

namespace Keeps

theorem keep (keeps : Keeps cache free used) (stored : room.Stored)
    (tracks : ∀ pageId, pageId = 0 ∨ pageId ∈ free → room.Tracks pageId (cache.contents pageId) false) :
    Keeps room free used := by
  have same : ∀ pageId, pageId = 0 ∨ pageId ∈ free → room.contents pageId = cache.contents pageId :=
    fun pageId listed => (tracks pageId listed).contents
  refine ⟨stored, keeps.allocator.congr same, ?_⟩
  intro pageId listed
  rw [same pageId listed]
  exact tracks pageId listed

theorem nonneg (keeps : Keeps cache free used) (listed : pageId = 0 ∨ pageId ∈ free) : 0 ≤ pageId := by
  rcases listed with rfl | member
  · exact Int32.le_refl 0
  · exact Int32.le_of_lt (keeps.allocator.freeRange pageId member).1

theorem allocated (keeps : Keeps cache free used)
    (permitted : (cache.contents 0).header.freeListHead ≠ -1 ∨ totalPages cache.contents < 2 ^ 31)
    (allocated : Cache.Allocated memory cache newPageId room) :
    Keeps room (free.filter (· ≠ newPageId)) (newPageId :: used) ∧
      Allocates cache.contents room.contents free used newPageId := by
  have stored := keeps.stored.allocated allocated
  have header := keeps.tracks 0 (.inl rfl)
  have never : false = true → cache.Pinned 0 1 := by simp
  have allocator := keeps.allocator
  cases free with
  | nil =>
      have empty := allocator.empty
      have space := permitted.resolve_left fun nonempty => nonempty empty
      obtain ⟨rfl, changed⟩ := header.appended keeps.stored never empty allocated
      obtain ⟨grown, total, id, fresh⟩ := allocator.append space changed.contents
      refine ⟨⟨stored, grown, ?_⟩, ?_, fresh, id, total⟩
      · intro pageId listed
        have first : pageId = 0 := by simpa using listed
        rw [first, changed.contents]
        exact changed
      · intro zero
        rw [zero] at id
        have positive := allocator.positive
        simp only [Int32.toInt_zero] at id
        omega
  | cons first rest =>
      obtain ⟨head, nonempty⟩ := allocator.head
      obtain ⟨rfl, _, linked⟩ := header.reused keeps.stored never nonempty allocated
      rw [head] at linked ⊢
      have changed := linked _ false (keeps.tracks first (.inr List.mem_cons_self)) (by simp)
      have positive := (allocator.freeRange first List.mem_cons_self).1
      have others : ∀ pageId ∈ rest, room.Tracks pageId (cache.contents pageId) false := by
        intro pageId member
        have listed := List.mem_cons_of_mem first member
        exact (keeps.tracks pageId (.inr listed)).allocated_other keeps.stored
          (allocator.freeRange pageId listed).1 (by simp) allocated
      obtain ⟨taken, total, fresh⟩ := allocator.reuse changed.contents
        fun pageId member => (others pageId member).contents
      have remaining : (first :: rest).filter (· ≠ first) = rest := by
        have outside := (List.nodup_cons.mp allocator.nodup).1
        rw [List.filter_cons_of_neg (by simp), List.filter_eq_self]
        intro pageId member
        simpa using fun same : pageId = first => outside (same ▸ member)
      rw [remaining]
      refine ⟨⟨stored, taken, ?_⟩, ?_, fresh, rfl, total⟩
      · rintro pageId (rfl | member)
        · rw [changed.contents]
          exact changed
        · rw [(others pageId member).contents]
          exact others pageId member
      · exact (Int32.ne_of_lt positive).symm

theorem freed (keeps : Keeps cache free used) (member : pageId ∈ used)
    (freed : Cache.Freed memory cache pageId room) :
    Keeps room (pageId :: free) (used.filter (· ≠ pageId)) := by
  have allocator := keeps.allocator
  have positive := (allocator.usedRange pageId member).1
  obtain ⟨header, page⟩ := (keeps.tracks 0 (.inl rfl)).freed keeps.stored (by simp) positive freed
  have others : ∀ other ∈ free, room.Tracks other (cache.contents other) false := by
    intro other listed
    have apart : pageId ≠ other := fun same => allocator.apart pageId member (same ▸ listed)
    exact (keeps.tracks other (.inr listed)).freed_other keeps.stored
      (allocator.freeRange other listed).1 (by simp) apart freed
  have link : (room.contents pageId).nextFree = (cache.contents 0).header.freeListHead := by
    rw [page.contents, Bytes.nextFree_setI32]
  obtain ⟨released, _⟩ := allocator.release member header.contents link
    fun other listed => (others other listed).contents
  refine ⟨keeps.stored.freed freed, released, ?_⟩
  rintro other (rfl | listed)
  · rw [header.contents]
    exact header
  · rcases List.mem_cons.mp listed with rfl | old
    · rw [page.contents]
      exact page
    · rw [(others other old).contents]
      exact others other old

end Keeps

theorem matches_permitted {session : Session Pager Addr} {op : Op}
    (matched : pagerRefinement.Matches session image) :
    op.permitted session.store.contents session.handles used =
      op.permitted image.store.contents image.handles used := by
  cases op with
  | write handle data =>
      have pair := forall₂_getElem? matched.handles handle
      simp only [Op.permitted]
      generalize session.handles[handle]? = held at pair ⊢
      generalize image.handles[handle]? = imageHeld at pair ⊢
      cases pair with
      | some points => simp [points.2.2.1]
      | none => rfl
  | free pageId =>
      have ids : session.handles.map Handle.pageId = image.handles.map Handle.pageId := by
        have pairs := matched.handles
        generalize session.handles = held at pairs ⊢
        generalize image.handles = imageHeld at pairs ⊢
        induction pairs with
        | nil => rfl
        | cons points _ ih => simp [points.2.2.1, ih]
      have all : ∀ {ν : Type} (handles : List (Handle ν)),
          (∀ held ∈ handles, held.pageId ≠ pageId) ↔ pageId ∉ handles.map Handle.pageId := by
        intro ν handles
        simp
      simp only [Op.permitted, all, ids]
  | alloc =>
      have header := Pager.Implements.contents matched.implements (Int32.le_refl 0)
      have total : totalPages session.store.contents = totalPages image.store.contents := by
        rw [totalPages, totalPages, header]
      simp only [Op.permitted, header, total]
  | _ => rfl

theorem Keeps.step {op : Op} (keeps : Keeps image.store (reusable free image.results) (inUse used image.results))
    (balanced : image.Balanced)
    (permitted : op.permitted image.store.contents image.handles (inUse used image.results) = true)
    (stepped : image.step (cacheStore memory) op = some next) :
    Keeps next.store (reusable free next.results) (inUse used next.results) := by
  have never : ∀ pageId, false = true → image.store.Pinned pageId 1 := by simp
  cases op with
  | fetch pageId =>
      simp only [Session.step, cacheStore] at stepped
      split at stepped
      · contradiction
      · rename_i nonneg
        obtain ⟨⟨result, store⟩, fetched, rfl⟩ := Option.map_eq_some_iff.mp stepped
        obtain ⟨⟨found, cache⟩, called, same⟩ := Option.map_eq_some_iff.mp fetched
        obtain ⟨_, effect⟩ := Cache.fetch_some called
        have kept := keeps.keep (keeps.stored.fetched (Int32.not_lt.mp nonneg) effect)
          fun other listed => (keeps.tracks other listed).fetched keeps.stored (keeps.nonneg listed)
            (never other) effect
        cases found with
        | true =>
            obtain ⟨rfl, rfl⟩ := Prod.mk.inj same
            exact kept
        | false =>
            obtain ⟨rfl, rfl⟩ := Prod.mk.inj same
            exact kept
  | read handle =>
      obtain ⟨held, _, rfl⟩ := Option.map_eq_some_iff.mp stepped
      exact keeps
  | write handle data =>
      obtain ⟨held, found, rfl⟩ := Option.map_eq_some_iff.mp stepped
      have member : held.pageId ∈ inUse used image.results := by
        simpa [Op.permitted, found] using permitted
      have label := balanced.labelled held (List.mem_of_getElem? found)
      have stored : (image.store.setData held.page fun _ => data).Stored := keeps.stored.setData
      refine keeps.keep stored ?_
      intro other listed
      refine (keeps.tracks other listed).setData_other (fun _ => data) ?_
      rw [label]
      rintro rfl
      rcases listed with zero | free
      · have positive := (keeps.allocator.usedRange _ member).1
        rw [zero] at positive
        exact absurd positive (by decide)
      · exact keeps.allocator.apart _ member free
  | unpin handle isDirty =>
      obtain ⟨held, found, rfl⟩ := Option.map_eq_some_iff.mp stepped
      have stored : (image.store.unpin held.page isDirty).Stored := keeps.stored.unpin
      exact keeps.keep stored fun other listed => (keeps.tracks other listed).unpin held.page isDirty
  | flush pageId =>
      simp only [Session.step, cacheStore] at stepped
      split at stepped
      · contradiction
      · cases stepped
        exact keeps.keep keeps.stored.flush fun other listed =>
          (keeps.tracks other listed).flush keeps.stored (keeps.nonneg listed)
  | alloc =>
      obtain ⟨⟨newPageId, store⟩, called, rfl⟩ := Option.map_eq_some_iff.mp stepped
      exact (keeps.allocated (by simpa [Op.permitted] using permitted) (Cache.allocPage_some called)).1
  | free pageId =>
      obtain ⟨store, called, rfl⟩ := Option.map_eq_some_iff.mp stepped
      have both : pageId ∈ inUse used image.results ∧ ∀ held ∈ image.handles, held.pageId ≠ pageId := by
        simpa [Op.permitted] using permitted
      exact keeps.freed both.1 (Cache.freePage_some called)

namespace Session

/-- A pager session whose client has kept to the discipline. -/
def Governed (session : Session Pager Addr) (free used : List Int32) : Prop :=
  ∃ image, pagerRefinement.Matches session image ∧ image.Balanced ∧
    Keeps image.store (reusable free image.results) (inUse used image.results)

variable {session after : Session Pager Addr} {op : Op}

theorem Governed.step (governed : session.Governed free used)
    (stepped : session.disciplined used op = some after) : after.Governed free used := by
  obtain ⟨image, matched, balanced, keeps⟩ := governed
  simp only [disciplined] at stepped
  split at stepped
  · rename_i permitted
    obtain ⟨memory, _, pair⟩ := matched.step op balanced
    rw [stepped] at pair
    generalize imaged : image.step (cacheStore memory) op = result at pair
    rw [matched.results, matches_permitted matched] at permitted
    cases pair with
    | some both => exact ⟨_, both.1, balanced.step imaged, keeps.step balanced permitted imaged⟩
  · contradiction

theorem Governed.allocator (governed : session.Governed free used) :
    Allocator session.store.contents (reusable free session.results) (inUse used session.results) := by
  obtain ⟨image, matched, _, keeps⟩ := governed
  rw [matched.results]
  refine keeps.allocator.congr ?_
  exact fun pageId listed => Pager.Implements.contents matched.implements (keeps.nonneg listed)

theorem Governed.allocates (governed : session.Governed free used)
    (stepped : session.disciplined used .alloc = some after) :
    ∃ newPageId, after.results = .allocated newPageId :: session.results ∧
      Allocates session.store.contents after.store.contents (reusable free session.results)
        (inUse used session.results) newPageId := by
  obtain ⟨image, matched, balanced, keeps⟩ := governed
  simp only [disciplined] at stepped
  split at stepped
  · rename_i permitted
    obtain ⟨memory, _, pair⟩ := matched.step .alloc balanced
    rw [stepped] at pair
    generalize imaged : image.step (cacheStore memory) .alloc = result at pair
    rw [matched.results, matches_permitted matched] at permitted
    cases pair with
    | some both =>
        obtain ⟨⟨newPageId, store⟩, called, rfl⟩ := Option.map_eq_some_iff.mp imaged
        obtain ⟨_, allocates⟩ := keeps.allocated (by simpa [Op.permitted] using permitted)
          (Cache.allocPage_some called)
        refine ⟨newPageId, both.1.results.trans (by rw [matched.results]), ?_⟩
        have before := Pager.Implements.contents matched.implements (Int32.le_refl 0)
        have later := Pager.Implements.contents both.1.implements (Int32.le_refl 0)
        rw [matched.results]
        simpa only [Allocates, totalPages, before, later] using allocates
  · contradiction

theorem start_governed {fd : File} {heap : Heap} (whole : fd.Whole pageSize)
    (valid : Allocator (Cache.initialPages fd) free used)
    (opened : pagerOpen fd heap = some (some pager)) :
    Governed (start pager) free used := by
  obtain ⟨implements, _⟩ := pagerOpen_implements opened
  have stored := Cache.opened_stored whole
  have tracks : ∀ pageId, pageId = 0 ∨ pageId ∈ free →
      (Cache.opened fd).Tracks pageId (Cache.initialPages fd pageId) false := by
    rintro pageId (rfl | listed)
    · exact Cache.opened_tracks whole (Int32.le_refl 0)
    · exact Cache.opened_tracks whole (Int32.le_of_lt (valid.freeRange pageId listed).1)
  refine ⟨start (Cache.opened fd), ⟨implements, .nil, rfl⟩, ⟨stored.distinct, by simp [start], by simp [start]⟩,
    stored, ?_, ?_⟩
  · exact valid.congr fun pageId listed => (tracks pageId listed).contents
  · intro pageId listed
    have same := tracks pageId listed
    rw [← same.contents] at same
    exact same

end Session

/-- Whatever the cache evicts, the free list on the pages is the list of freed
pages, and an allocation takes the latest of them or appends a page. -/
theorem pager_allocator {fd : File} {heap : Heap} {ops : List Op} {session : Session Pager Addr}
    (whole : fd.Whole pageSize) (valid : Allocator (Cache.initialPages fd) free used)
    (opened : pagerOpen fd heap = some (some pager))
    (completed : run (Session.disciplined used) (Session.start pager) ops = some session) :
    Allocator session.store.contents (reusable free session.results) (inUse used session.results) ∧
      ∀ after, session.disciplined used .alloc = some after →
        ∃ newPageId, after.results = .allocated newPageId :: session.results ∧
          Allocates session.store.contents after.store.contents (reusable free session.results)
            (inUse used session.results) newPageId := by
  have governed := run_invariant (fun session => Session.Governed session free used)
    (fun _ _ _ governed stepped => Session.Governed.step governed stepped)
    (Session.start_governed whole valid opened) completed
  exact ⟨governed.allocator, fun _ stepped => governed.allocates stepped⟩

/-- Allocating, freeing and allocating again on a new file. -/
theorem pager_allocator_new_file : ∃ pager session,
    pagerOpen (File.empty fun _ => pageSize) (Heap.start Malloc.bump) = some (some pager) ∧
    run (Session.disciplined []) (Session.start pager)
      [.alloc, .alloc, .fetch 1, .write 0 fun _ => 7, .unpin 0 true, .free 1] = some session ∧
    Allocator session.store.contents (reusable [] session.results) (inUse [] session.results) ∧
    ∀ after, session.disciplined [] .alloc = some after →
      ∃ newPageId, after.results = .allocated newPageId :: session.results ∧
        Allocates session.store.contents after.store.contents (reusable [] session.results)
          (inUse [] session.results) newPageId := by
  have completes : ((pagerOpen (File.empty fun _ => pageSize) (Heap.start Malloc.bump)).join.bind fun pager =>
      run (Session.disciplined []) (Session.start pager)
        [.alloc, .alloc, .fetch 1, .write 0 fun _ => 7, .unpin 0 true, .free 1]).isSome = true := by
    decide +kernel
  obtain ⟨session, both⟩ := Option.isSome_iff_exists.mp completes
  obtain ⟨pager, opened, completed⟩ := Option.bind_eq_some_iff.mp both
  have opened := Option.join_eq_some_iff.mp opened
  exact ⟨pager, session, opened, completed,
    pager_allocator (fun _ => Nat.le_refl pageSize) (Allocator.initial rfl) opened completed⟩

section Overflow

/-- The cache of a new file from which pages were only allocated. -/
def LoneHeader (cache : Cache) (total : UInt32) : Prop :=
  ∃ data dirty, cache.frames = [⟨0, data, 0, dirty⟩] ∧ data.header.freeListHead = -1 ∧
    data.header.totalPages = total

theorem LoneHeader.alloc {total : UInt32} (lone : LoneHeader cache total) (memory : Bool × Bool) :
    ∃ after, cache.allocPage memory.1 memory.2 = some (total.toInt32, after) ∧
      LoneHeader after (total + 1) := by
  obtain ⟨data, dirty, frames, empty, rfl⟩ := lone
  have hit : cache.require memory.1 0 = some { cache with
      frames := [⟨0, data, 1, dirty⟩], history := .touched 0 :: cache.history } := by
    have split : cache.frames = [] ++ ⟨0, data, 0, dirty⟩ :: [] := frames
    rw [Cache.require, Cache.fetch_hit (Int32.le_refl 0) split rfl (by simp)]
    rfl
  have header : Cache.dataOf { cache with
      frames := [⟨0, data, 1, dirty⟩], history := .touched 0 :: cache.history } 0 = data := by
    simp [Cache.dataOf, Cache.holds]
  refine ⟨_, by simp only [Cache.allocPage, hit, Option.bind_eq_bind, Option.bind_some, header, empty]; rfl,
    data.setTotalPages (data.header.totalPages + 1), true, ?_, ?_, ?_⟩
  · simp [Cache.setData, Cache.unpin, Cache.update]
  · rw [Bytes.header_setTotalPages]
    exact empty
  · rw [Bytes.header_setTotalPages]

theorem run_allocs {fd : File} {heap : Heap} (whole : fd.Whole pageSize) (new : fd.size = 0)
    (opened : pagerOpen fd heap = some (some pager)) (count : Nat) :
    ∃ session image, run (Session.step cPager) (Session.start pager) (List.replicate count .alloc) =
        some session ∧ pagerRefinement.Matches session image ∧ image.Balanced ∧
      LoneHeader image.store (UInt32.ofNat (1 + count)) := by
  induction count with
  | zero =>
      obtain ⟨implements, _⟩ := pagerOpen_implements opened
      refine ⟨Session.start pager, Session.start (Cache.opened fd), rfl, ⟨implements, .nil, rfl⟩,
        ⟨(Cache.opened_stored whole).distinct, by simp [Session.start], by simp [Session.start]⟩, ?_⟩
      have fields : initialHeader.header.freeListHead = -1 ∧ initialHeader.header.totalPages = 1 := by
        rw [initialHeader, Bytes.header_setFreeListHead, Bytes.header_setTotalPages]
        exact ⟨rfl, rfl⟩
      refine ⟨initialHeader, false, ?_, fields⟩
      rw [Session.start, Cache.opened_new whole new]
  | succ count ih =>
      obtain ⟨session, image, completed, matched, balanced, lone⟩ := ih
      obtain ⟨memory, _, pair⟩ := matched.step .alloc balanced
      obtain ⟨cache, allocated, still⟩ := lone.alloc memory
      have imaged : image.step (cacheStore memory) .alloc = some { image with
          store := cache
          results := .allocated (UInt32.ofNat (1 + count)).toInt32 :: image.results } := by
        simp [Session.step, cacheStore, allocated]
      rw [imaged] at pair
      generalize stepped : session.step cPager .alloc = result at pair
      cases pair with
      | some both =>
          refine ⟨_, _, ?_, both.1, balanced.step imaged, ?_⟩
          · rw [List.replicate_succ', run_concat_iff]
            exact ⟨session, completed, stepped⟩
          · have total : UInt32.ofNat (1 + count) + 1 = UInt32.ofNat (1 + (count + 1)) := by
              rw [← Nat.add_assoc, UInt32.ofNat_add (1 + count)]
              rfl
            rw [← total]
            exact still

/-- `total_pages` wraps: after `2 ^ 32 - 1` pages an allocation returns the header. -/
theorem alloc_wraps_to_header : ∃ pager session,
    pagerOpen (File.empty fun _ => pageSize) (Heap.start Malloc.bump) = some (some pager) ∧
    run (Session.step cPager) (Session.start pager) (List.replicate (2 ^ 32) .alloc) = some session ∧
    session.results.head? = some (.allocated 0) := by
  obtain ⟨pager, opened⟩ := Option.isSome_iff_exists.mp
    (show (pagerOpen (File.empty fun _ => pageSize) (Heap.start Malloc.bump)).join.isSome = true by
      decide +kernel)
  have opened := Option.join_eq_some_iff.mp opened
  obtain ⟨session, image, completed, matched, balanced, lone⟩ :=
    run_allocs (fun _ => Nat.le_refl pageSize) rfl opened (2 ^ 32 - 1)
  obtain ⟨memory, _, pair⟩ := matched.step .alloc balanced
  obtain ⟨cache, allocated, _⟩ := lone.alloc memory
  have imaged : image.step (cacheStore memory) .alloc = some { image with
      store := cache, results := .allocated 0 :: image.results } := by
    have zero : (UInt32.ofNat (1 + (2 ^ 32 - 1))).toInt32 = 0 := by decide
    rw [zero] at allocated
    simp [Session.step, cacheStore, allocated]
  rw [imaged] at pair
  generalize stepped : session.step cPager .alloc = result at pair
  cases pair with
  | some both =>
      refine ⟨pager, _, opened, ?_, by rw [both.1.results]; rfl⟩
      rw [show 2 ^ 32 = 2 ^ 32 - 1 + 1 from rfl, List.replicate_succ', run_concat_iff]
      exact ⟨session, completed, stepped⟩

end Overflow

end HundredDays.PagedStorage
