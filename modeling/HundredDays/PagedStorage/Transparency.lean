import HundredDays.PagedStorage.Cache.Contents
import HundredDays.PagedStorage.Lifecycle

namespace HundredDays.PagedStorage

open HundredDays.Data HundredDays.Semantics HundredDays.Memory

/-! A client of the pager sees an array of pages without a cache. -/

/-- An unbounded array of pages as a page store.  `granted` decides whether a
fetch finds room; the array itself never runs out. -/
def pagesStore (granted : Bool) : PageStore (Int32 → Bytes) Int32 where
  fetch pages pageId := some (if granted then some pageId else none, pages)
  read pages pageId := pages pageId
  write pages pageId data := Function.update pages pageId data
  unpin pages _ _ := pages
  flush pages _ := some pages
  allocPage pages :=
    let header := (pages 0).header
    if header.freeListHead = -1 then
      some (header.totalPages.toInt32,
        Function.update pages 0 ((pages 0).setTotalPages (header.totalPages + 1)))
    else
      some (header.freeListHead,
        Function.update pages 0 ((pages 0).setFreeListHead (pages header.freeListHead).nextFree))
  freePage pages pageId :=
    if pageId ≤ 0 then some pages
    else
      let freed := Function.update pages pageId (Bytes.zero.setI32 0 (pages 0).header.freeListHead)
      some (Function.update freed 0 ((freed 0).setFreeListHead pageId))

/-- What a client does in one step: an operation, or closing the file and opening
it again. -/
inductive Command where
  | op (op : Op)
  | reopen

namespace Session

/-- A client marks a page dirty when it unpins a handle it wrote through. -/
def marksWrites {σ ν : Type} (session : Session σ ν) : Op → Bool
  | .unpin handle isDirty => session.handles[handle]?.all fun held => !held.wrote || isDirty
  | _ => true

/-- One command against the C pager. -/
def command (session : Session Pager Addr) : Command → Option (Session Pager Addr)
  | .op op => if session.marksWrites op then session.step cPager op else none
  | .reopen =>
      if session.handles.isEmpty then do
        let (fd, heap) ← pagerClose session.store
        let pager ← ← pagerOpen fd heap
        some { session with store := pager }
      else none

/-- The same command against the array of pages; opening the file again does
nothing to it. -/
def pagesCommand (session : Session (Int32 → Bytes) Int32) : Command × Bool →
    Option (Session (Int32 → Bytes) Int32)
  | (.op op, granted) => session.step (pagesStore granted) op
  | (.reopen, _) => some session

def loosened {ν : Type} (handles : List (Handle ν)) (pageId : Int32) : Bool :=
  handles.any fun held => held.pageId == pageId && held.wrote

/-- The cache's client and the array's client see the same. -/
structure Shows (image : Session Cache Int32) (pages : Session (Int32 → Bytes) Int32) : Prop where
  stored : image.store.Stored
  handles : pages.handles = image.handles
  results : pages.results = image.results
  tracks : ∀ pageId, 0 ≤ pageId →
    image.store.Tracks pageId (pages.store pageId) (loosened image.handles pageId)

variable {image next : Session Cache Int32} {pages : Session (Int32 → Bytes) Int32}
  {memory : Bool × Bool} {cache : Cache} {pageId : Int32} {held : Handle Int32}
  {left right : List (Handle Int32)}

theorem loosened_pinned (balanced : image.Balanced) (loose : loosened image.handles pageId = true) :
    image.store.Pinned pageId 1 := by
  obtain ⟨held, member, both⟩ := List.any_eq_true.mp loose
  have same : held.pageId = pageId := by simpa using (Bool.and_eq_true_iff.mp both).1
  rw [← same]
  exact (balanced.pinned held member).weaken (holders_pos member)

theorem loosened_append : loosened (image.handles ++ [⟨pageId, pageId, false⟩]) =
    loosened image.handles := by
  funext other
  simp [loosened]

theorem Shows.fetched {result : Bool} (shows : image.Shows pages) (balanced : image.Balanced)
    (fetched : Cache.Fetched image.store pageId result cache) :
    ∀ other, 0 ≤ other → cache.Tracks other (pages.store other) (loosened image.handles other) :=
  fun other otherNonneg => (shows.tracks other otherNonneg).fetched shows.stored otherNonneg
    (loosened_pinned balanced) fetched

theorem loosened_middle : loosened (left ++ held :: right) pageId =
    ((held.pageId == pageId && held.wrote) || loosened (left ++ right) pageId) := by
  simp only [loosened, List.any_append, List.any_cons]
  exact Bool.or_left_comm _ _ _

theorem Shows.wrote {data : Bytes} {results : List Result} (shows : image.Shows pages)
    (balanced : image.Balanced) (split : image.handles = left ++ held :: right)
    (same : results = pages.results) :
    Shows ⟨image.store.setData held.page fun _ => data, left ++ { held with wrote := true } :: right, results⟩
      ⟨Function.update pages.store held.page data, left ++ { held with wrote := true } :: right,
        pages.results⟩ := by
  have member : held ∈ image.handles := by simp [split]
  have pinned := (balanced.pinned held member).weaken (holders_pos member)
  have label := balanced.labelled held member
  obtain ⟨page, pageId, wrote⟩ := held
  cases (label : page = pageId)
  have stored : (image.store.setData page fun _ => data).Stored := shows.stored.setData
  refine ⟨stored, rfl, same.symm, ?_⟩
  intro other nonneg
  have tracks := shows.tracks other nonneg
  dsimp only
  rw [loosened_middle]
  by_cases here : other = page
  · subst here
    simp only [Function.update_self, beq_self_eq_true, Bool.and_self, Bool.true_or]
    exact tracks.setData _ pinned
  · rw [split, loosened_middle] at tracks
    simp only [Function.update_of_ne here, beq_eq_false_iff_ne.mpr (Ne.symm here), Bool.false_and,
      Bool.false_or] at tracks ⊢
    exact tracks.setData_other _ (Ne.symm here)

theorem Shows.unpinned {isDirty : Bool} {results : List Result} (shows : image.Shows pages)
    (balanced : image.Balanced) (split : image.handles = left ++ held :: right)
    (marks : held.wrote = true → isDirty = true) (same : results = pages.results) :
    Shows ⟨image.store.unpin held.page isDirty, left ++ right, results⟩
      ⟨pages.store, left ++ right, pages.results⟩ := by
  have member : held ∈ image.handles := by simp [split]
  have pinned := (balanced.pinned held member).weaken (holders_pos member)
  have label := balanced.labelled held member
  refine ⟨shows.stored.unpin, rfl, same.symm, ?_⟩
  intro other nonneg
  have tracks := shows.tracks other nonneg
  rw [split, loosened_middle] at tracks
  by_cases here : held.pageId = other ∧ held.wrote = true
  · obtain ⟨rfl, wrote⟩ := here
    rw [label, marks wrote]
    exact (tracks.unpin_dirty pinned).loosen
  · have none : (held.pageId == other && held.wrote) = false :=
      Bool.eq_false_iff.mpr fun both => here (by simpa using both)
    rw [none, Bool.false_or] at tracks
    exact tracks.unpin _ _

theorem Shows.allocated {newPageId : Int32} (shows : image.Shows pages) (balanced : image.Balanced)
    (allocated : Cache.Allocated memory image.store newPageId cache) :
    ∃ after, (pagesStore true).allocPage pages.store = some (newPageId, after) ∧
      ∀ other, 0 ≤ other → cache.Tracks other (after other) (loosened image.handles other) := by
  have header := shows.tracks 0 (Int32.le_refl 0)
  have held : loosened image.handles 0 = true → image.store.Pinned 0 1 := loosened_pinned balanced
  have others : ∀ data other, 0 ≤ other → cache.Tracks 0 data false →
      cache.Tracks other (Function.update pages.store 0 data other) (loosened image.handles other) := by
    intro data other nonneg changed
    by_cases first : other = 0
    · subst first
      rw [Function.update_self]
      exact changed.loosen
    · rw [Function.update_of_ne first]
      exact (shows.tracks other nonneg).allocated_other shows.stored
        (Int32.lt_of_le_of_ne nonneg (Ne.symm first)) (loosened_pinned balanced) allocated
  by_cases empty : (pages.store 0).header.freeListHead = -1
  · obtain ⟨rfl, changed⟩ := header.appended shows.stored held empty allocated
    refine ⟨_, by simp only [pagesStore, empty, if_true]; rfl, ?_⟩
    exact fun other nonneg => others _ other nonneg changed
  · obtain ⟨rfl, nonneg, changed⟩ := header.reused shows.stored held empty allocated
    refine ⟨_, by simp only [pagesStore, empty, if_false]; rfl, ?_⟩
    have linked := changed _ _ (shows.tracks _ nonneg) (loosened_pinned balanced)
    exact fun other otherNonneg => others _ other otherNonneg linked

theorem Shows.freed {freedId : Int32} (shows : image.Shows pages) (balanced : image.Balanced)
    (freed : Cache.Freed memory image.store freedId cache) :
    ∃ after, (pagesStore true).freePage pages.store freedId = some after ∧
      ∀ other, 0 ≤ other → cache.Tracks other (after other) (loosened image.handles other) := by
  by_cases ignored : freedId ≤ 0
  · refine ⟨pages.store, by simp only [pagesStore, ignored, if_true], ?_⟩
    cases freed with
    | ignored => exact shows.tracks
    | listed first second positive => exact absurd positive (Int32.not_lt.mpr ignored)
  · have positive := Int32.not_le.mp ignored
    have apart : (0 : Int32) ≠ freedId := Int32.ne_of_lt positive
    obtain ⟨header, page⟩ := (shows.tracks 0 (Int32.le_refl 0)).freed shows.stored
      (loosened_pinned balanced) positive freed
    refine ⟨_, by simp only [pagesStore, ignored, if_false]; rfl, ?_⟩
    intro other nonneg
    by_cases first : other = 0
    · subst first
      rw [Function.update_self, Function.update_of_ne apart]
      exact header.loosen
    · rw [Function.update_of_ne first]
      by_cases same : other = freedId
      · subst same
        rw [Function.update_self]
        exact page.loosen
      · rw [Function.update_of_ne same]
        exact (shows.tracks other nonneg).freed_other shows.stored
          (Int32.lt_of_le_of_ne nonneg (Ne.symm first)) (loosened_pinned balanced) (Ne.symm same) freed

/-- Every operation of the cache's client is one of the array's client. -/
theorem Shows.step {op : Op} (shows : image.Shows pages) (balanced : image.Balanced)
    (marks : image.marksWrites op = true) (stepped : image.step (cacheStore memory) op = some next) :
    ∃ granted after, pages.step (pagesStore granted) op = some after ∧ next.Shows after := by
  have handles := shows.handles
  have results := shows.results
  cases op with
  | fetch pageId =>
      simp only [Session.step, cacheStore] at stepped
      split at stepped
      · contradiction
      · rename_i nonneg
        have nonneg := Int32.not_lt.mp nonneg
        obtain ⟨⟨result, store⟩, fetched, rfl⟩ := Option.map_eq_some_iff.mp stepped
        obtain ⟨⟨found, cache⟩, called, same⟩ := Option.map_eq_some_iff.mp fetched
        obtain ⟨_, effect⟩ := Cache.fetch_some called
        have stored := shows.stored.fetched nonneg effect
        have tracks := shows.fetched balanced effect
        cases found with
        | false =>
            obtain ⟨rfl, rfl⟩ := Prod.mk.inj same
            refine ⟨false, ⟨pages.store, pages.handles, .fetched none :: pages.results⟩, ?_, stored, handles, ?_, tracks⟩
            · simp [Session.step, pagesStore, Int32.not_lt.mpr nonneg]
            · simp [results]
        | true =>
            obtain ⟨rfl, rfl⟩ := Prod.mk.inj same
            have read := (tracks pageId nonneg).dataOf effect.pinned
            refine ⟨true, ⟨pages.store, pages.handles ++ [⟨pageId, pageId, false⟩],
              .fetched (some (pages.store pageId)) :: pages.results⟩, ?_, stored, ?_, ?_, ?_⟩
            · simp [Session.step, pagesStore, Int32.not_lt.mpr nonneg]
            · simp [handles]
            · simp [results, read]
            · change ∀ other, 0 ≤ other → cache.Tracks other (pages.store other)
                (loosened (image.handles ++ [⟨pageId, pageId, false⟩]) other)
              rw [loosened_append]
              exact tracks
  | read handle =>
      obtain ⟨held, found, rfl⟩ := Option.map_eq_some_iff.mp stepped
      refine ⟨true, ⟨pages.store, pages.handles, .contents (pages.store held.page) :: pages.results⟩,
        ?_, shows.stored, handles, ?_, shows.tracks⟩
      · simp [Session.step, handles, found, pagesStore]
      · have member := List.mem_of_getElem? found
        have pinned := (balanced.pinned held member).weaken (holders_pos member)
        have read := (shows.tracks held.pageId (shows.stored.pinned_nonneg pinned)).dataOf pinned
        rw [← balanced.labelled held member] at read
        simp [results, cacheStore, read]
  | write handle data =>
      obtain ⟨held, found, rfl⟩ := Option.map_eq_some_iff.mp stepped
      obtain ⟨left, right, split, _, replaced⟩ := getElem?_split found
      refine ⟨true, ⟨Function.update pages.store held.page data,
        left ++ { held with wrote := true } :: right, pages.results⟩, ?_, ?_⟩
      · simp [Session.step, handles, found, pagesStore, replaced]
      · rw [replaced]
        exact shows.wrote balanced split results.symm
  | unpin handle isDirty =>
      obtain ⟨held, found, rfl⟩ := Option.map_eq_some_iff.mp stepped
      obtain ⟨left, right, split, erased, _⟩ := getElem?_split found
      refine ⟨true, ⟨pages.store, left ++ right, pages.results⟩, ?_, ?_⟩
      · simp [Session.step, handles, found, pagesStore, erased]
      · rw [erased]
        refine shows.unpinned balanced split ?_ results.symm
        intro wrote
        simpa [marksWrites, found, wrote] using marks
  | flush pageId =>
      simp only [Session.step, cacheStore] at stepped
      split at stepped
      · contradiction
      · rename_i nonneg
        cases stepped
        refine ⟨true, pages, by simp [Session.step, pagesStore, nonneg], shows.stored.flush, handles, results, ?_⟩
        exact fun other otherNonneg => (shows.tracks other otherNonneg).flush shows.stored otherNonneg
  | alloc =>
      obtain ⟨⟨newPageId, store⟩, called, rfl⟩ := Option.map_eq_some_iff.mp stepped
      have effect := Cache.allocPage_some called
      obtain ⟨after, done, tracks⟩ := shows.allocated balanced effect
      refine ⟨true, ⟨after, pages.handles, .allocated newPageId :: pages.results⟩, ?_,
        shows.stored.allocated effect, handles, by simp [results], tracks⟩
      simp [Session.step, done]
  | free pageId =>
      obtain ⟨store, called, rfl⟩ := Option.map_eq_some_iff.mp stepped
      have effect := Cache.freePage_some called
      obtain ⟨after, done, tracks⟩ := shows.freed balanced effect
      refine ⟨true, ⟨after, pages.handles, .freed pageId :: pages.results⟩, ?_,
        shows.stored.freed effect, handles, by simp [results], tracks⟩
      simp [Session.step, done]

theorem Shows.reopened (shows : image.Shows pages) (idle : image.handles = []) :
    Shows { image with store := Cache.opened (image.store.flushAll image.store.frames).fd } pages := by
  refine ⟨shows.stored.reopened, shows.handles, shows.results, ?_⟩
  intro pageId nonneg
  have tracks := shows.tracks pageId nonneg
  rw [idle] at tracks
  exact (Cache.Tracks.reopened tracks shows.stored nonneg).loosen

/-- A pager session that its client cannot tell from a session with the array. -/
def Transparent (session : Session Pager Addr) (pages : Session (Int32 → Bytes) Int32) : Prop :=
  ∃ image, pagerRefinement.Matches session image ∧ image.Balanced ∧ image.Shows pages

theorem matches_marksWrites {session : Session Pager Addr} {op : Op}
    (matched : pagerRefinement.Matches session image) :
    image.marksWrites op = session.marksWrites op := by
  cases op with
  | unpin handle isDirty =>
      have pair := forall₂_getElem? matched.handles handle
      simp only [marksWrites]
      generalize session.handles[handle]? = held at pair ⊢
      generalize image.handles[handle]? = imageHeld at pair ⊢
      cases pair with
      | some points => simp [points.2.2.2]
      | none => rfl
  | _ => rfl

theorem Transparent.reopen {session after : Session Pager Addr} (transparent : session.Transparent pages)
    (commanded : session.command .reopen = some after) : after.Transparent pages := by
  obtain ⟨image, matched, balanced, shows⟩ := transparent
  simp only [command] at commanded
  split at commanded
  · rename_i idle
    simp only [List.isEmpty_iff] at idle
    have none : image.handles = [] := by
      have pairs := matched.handles
      rw [idle] at pairs
      exact List.forall₂_nil_left_iff.mp pairs
    obtain ⟨order, buckets, structured, view⟩ := matched.implements
    obtain ⟨heap, closed, _⟩ := structured.pagerClose_file
    rw [view] at closed
    simp only [Option.bind_eq_bind, closed, Option.bind_some, Option.bind_eq_some_iff] at commanded
    obtain ⟨result, opened, pager, rfl, same⟩ := commanded
    cases same
    obtain ⟨implements, _⟩ := pagerOpen_implements opened
    refine ⟨{ image with store := Cache.opened (image.store.flushAll image.store.frames).fd },
      ⟨implements, ?_, matched.results⟩, ⟨?_, ?_, ?_⟩, shows.reopened none⟩
    · rw [idle, none]
      exact .nil
    · exact shows.stored.reopened.distinct
    · simp [none]
    · simp [none]
  · contradiction

theorem Transparent.command {session after : Session Pager Addr} {command : Command}
    (transparent : session.Transparent pages) (commanded : session.command command = some after) :
    ∃ granted array, pages.pagesCommand (command, granted) = some array ∧ after.Transparent array := by
  cases command with
  | reopen => exact ⟨true, pages, rfl, transparent.reopen commanded⟩
  | op op =>
      obtain ⟨image, matched, balanced, shows⟩ := transparent
      simp only [Session.command] at commanded
      split at commanded
      · rename_i marks
        obtain ⟨memory, _, pair⟩ := matched.step op balanced
        rw [commanded] at pair
        generalize imaged : image.step (cacheStore memory) op = result at pair
        cases pair with
        | some both =>
            obtain ⟨granted, array, stepped, shown⟩ :=
              shows.step balanced ((matches_marksWrites matched).trans marks) imaged
            exact ⟨granted, array, stepped, _, both.1, balanced.step imaged, shown⟩
      · contradiction

theorem Transparent.run {session after : Session Pager Addr} {commands : List Command}
    (transparent : session.Transparent pages) (completed : run Session.command session commands = some after) :
    ∃ inputs array, inputs.map Prod.fst = commands ∧
      Semantics.run pagesCommand pages inputs = some array ∧ after.Transparent array := by
  induction commands generalizing session pages with
  | nil =>
      cases completed
      exact ⟨[], pages, rfl, rfl, transparent⟩
  | cons command rest ih =>
      obtain ⟨next, commanded, remaining⟩ := run_cons_iff.mp completed
      obtain ⟨granted, array, stepped, still⟩ := transparent.command commanded
      obtain ⟨inputs, final, same, finished, transparent⟩ := ih still remaining
      exact ⟨(command, granted) :: inputs, final, by simp [same],
        run_cons_iff.mpr ⟨array, stepped, finished⟩, transparent⟩

/-- A fetch that returns a page returns what the array holds for it. -/
theorem Transparent.fetched {session : Session Pager Addr} {pager : Pager} {node : Addr}
    (transparent : session.Transparent pages) (nonneg : 0 ≤ pageId)
    (fetched : pagerFetch session.store pageId = some (some node, pager)) :
    (pager.page node).data = pages.store pageId := by
  obtain ⟨image, matched, balanced, shows⟩ := transparent
  obtain ⟨next, follows, effect, holds⟩ := Pager.Implements.fetched matched.implements nonneg fetched
  rw [Pager.Implements.read follows.implements (holds node rfl)]
  exact (shows.fetched balanced effect pageId nonneg).dataOf effect.pinned

theorem Transparent.defined {session : Session Pager Addr} (transparent : session.Transparent pages)
    (nonneg : 0 ≤ pageId) : ∃ outcome, pagerFetch session.store pageId = some outcome := by
  obtain ⟨_, ⟨⟨_, _, structured, _⟩, _, _⟩, _⟩ := transparent
  exact structured.fetch_defined nonneg

end Session

end HundredDays.PagedStorage
