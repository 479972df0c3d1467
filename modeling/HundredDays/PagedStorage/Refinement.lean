import Mathlib.Data.List.Induction
import HundredDays.PagedStorage.Cache.Steps
import HundredDays.PagedStorage.Structure

namespace HundredDays.PagedStorage

open HundredDays.Data HundredDays.Memory

/-! The pointer-level pager computes what the page cache specifies. -/

variable {pager after : Pager} {node other : Addr} {order left right : List Addr}
  {buckets : Nat → List Addr} {pageId : Int32} {cache : Cache}

/-- A page without its links. -/
def Page.frame (page : Page) : Frame where
  pageId := page.pageId
  data := page.data
  pinCount := page.pinCount
  isDirty := page.isDirty

namespace Pager

def frameAt (pager : Pager) (node : Addr) : Frame := (pager.page node).frame

/-- The page cache that a pager with this LRU order implements. -/
def view (pager : Pager) (order : List Addr) : Cache where
  fd := pager.fd
  frames := order.map pager.frameAt
  capacity := pager.capacity
  pwriteCount := pager.pwriteCount
  history := pager.history

/-- Whether `malloc` would return a node now. -/
def memory (pager : Pager) : Bool := pager.heap.malloc.1.isSome

/-- The pager after its file and counters moved on as the cache's did. -/
def follow (pager : Pager) (cache : Cache) : Pager :=
  { pager with fd := cache.fd, pwriteCount := cache.pwriteCount, history := cache.history }

theorem view_follow (frames : cache.frames = (pager.view order).frames)
    (capacity : cache.capacity = pager.capacity) : (pager.follow cache).view order = cache := by
  cases cache
  simp only [view] at frames capacity
  simp only [follow, view, frames, capacity]
  rfl

theorem unpinned_frameAt :
    Cache.unpinned (pager.frameAt node) = ((pager.page node).pinCount == 0) := rfl

theorem frameAt_modify_other {change : Page → Page} (apart : other ≠ node) :
    (pager.modify node change).frameAt other = pager.frameAt other := by
  simp [frameAt, Pager.modify, apart]

theorem frameAt_modify_self {change : Page → Page} :
    (pager.modify node change).frameAt node = (change (pager.page node)).frame := by
  simp [frameAt, Pager.modify]

theorem map_frameAt_modify {change : Page → Page} (outside : node ∉ order) :
    order.map (pager.modify node change).frameAt = order.map pager.frameAt := by
  apply List.map_congr_left
  intro other member
  exact frameAt_modify_other fun same => outside (same ▸ member)

theorem modify_self {change : Page → Page} (fixed : change (pager.page node) = pager.page node) :
    pager.modify node change = pager := by
  simp [Pager.modify, fixed]

end Pager

namespace Structured

theorem find_view (structured : Structured pager order buckets) (member : node ∈ order) :
    (pager.view order).frames.find? (Cache.holds (pager.idAt node)) = some (pager.frameAt node) := by
  have unique : order.find? (Cache.holds (pager.idAt node) ∘ pager.frameAt) = some node := by
    cases found : order.find? (Cache.holds (pager.idAt node) ∘ pager.frameAt) with
    | none =>
        have absent := List.find?_eq_none.mp found node member
        simp [Cache.holds, Pager.frameAt, Page.frame, Pager.idAt] at absent
    | some other =>
        have passes := List.find?_some found
        have same : pager.idAt other = pager.idAt node := by
          simpa [Cache.holds, Pager.frameAt, Page.frame, Pager.idAt] using passes
        rw [structured.id_injective (List.mem_of_find?_eq_some found) member same]
  rw [Pager.view, List.find?_map, unique, Option.map_some]

/-- A change to one node's contents is an update of the frame with its page id. -/
theorem view_modify {change : Page → Page} (structured : Structured pager order buckets)
    (member : node ∈ order) (update : Frame → Frame)
    (agree : (change (pager.page node)).frame = update (pager.frameAt node)) :
    (pager.modify node change).view order = (pager.view order).update (pager.idAt node) update := by
  have frames : order.map (pager.modify node change).frameAt =
      (order.map pager.frameAt).map fun frame =>
        if frame.pageId = pager.idAt node then update frame else frame := by
    rw [List.map_map]
    apply List.map_congr_left
    intro other listed
    by_cases same : other = node
    · subst other
      rw [Pager.frameAt_modify_self, agree]
      exact (if_pos rfl).symm
    · rw [Pager.frameAt_modify_other same]
      exact (if_neg fun ids => same (structured.id_injective listed member ids)).symm
  simp only [Pager.view, Cache.update, frames]
  rfl

end Structured

theorem pagerFlush_eq (pager : Pager) (node : Addr) (order : List Addr) : pagerFlush pager node =
    (pager.follow ((pager.view order).flushFrame (pager.frameAt node)).1).modify node fun page =>
      { page with isDirty := ((pager.view order).flushFrame (pager.frameAt node)).2.isDirty } := by
  unfold pagerFlush Cache.flushFrame
  cases dirty : (pager.page node).isDirty with
  | false =>
      have clean : (pager.frameAt node).isDirty = false := dirty
      simp only [clean, Bool.false_eq_true, if_false]
      exact (Pager.modify_self (by simp [← dirty])).symm
  | true =>
      have marked : (pager.frameAt node).isDirty = true := dirty
      simp only [marked, if_true]
      cases call : pager.fd.pwrite (pager.page node).data ((pager.page node).pageId.toInt * pageSize) with
      | mk written fd =>
          have seen : (pager.view order).fd.pwrite (pager.frameAt node).data
              ((pager.frameAt node).pageId.toInt * pageSize) = (written, fd) := call
          simp only [seen]
          by_cases whole : written = pageSize
          · simp only [whole, if_true]
            rfl
          · simp only [whole, if_false]
            exact (Pager.modify_self rfl).symm

namespace Structured

theorem follow (structured : Structured pager order buckets) :
    Structured (pager.follow cache) order buckets :=
  structured.congr rfl rfl rfl rfl (fun _ _ => rfl) rfl (fun _ inside => inside)

theorem pagerFlush (structured : Structured pager order buckets) (node : Addr) :
    Structured (pagerFlush pager node) order buckets := by
  rw [pagerFlush_eq pager node order]
  exact structured.follow.modify (fun _ => ⟨rfl, rfl, rfl⟩) fun _ => rfl

/-- Flushing a cached node is flushing its page. -/
theorem view_pagerFlush (structured : Structured pager order buckets) (member : node ∈ order) :
    (PagedStorage.pagerFlush pager node).view order =
      (pager.view order).flush (pager.idAt node) := by
  rw [Cache.flush, structured.find_view member, pagerFlush_eq pager node order]
  rw [structured.follow.view_modify member (fun frame =>
      { frame with isDirty := ((pager.view order).flushFrame (pager.frameAt node)).2.isDirty }) rfl,
    Pager.view_follow Cache.flushFrame_frames Cache.flushFrame_capacity]
  rfl

/-- The walk from the tail stops at the last unpinned node. -/
theorem pagerEvictFrom_walk {steps : Nat} (structured : Structured pager (left ++ right) buckets)
    (enough : left.length ≤ steps) :
    pagerEvictFrom pager steps left.getLast? =
      match takeLast (Cache.unpinned ∘ pager.frameAt) left with
      | none => some (none, pager)
      | some (victim, _) => (hashRemove (PagedStorage.pagerFlush pager victim) victim).map fun pager =>
          (some victim, (listUnlink pager victim).record (.evicted ((listUnlink pager victim).idAt victim))) := by
  induction left using List.reverseRecOn generalizing right steps with
  | nil => simp [pagerEvictFrom, takeLast]
  | append_singleton left last ih =>
      cases steps with
      | zero => simp at enough
      | succ steps =>
          have split : left ++ [last] ++ right = left ++ last :: right := by simp
          rw [split] at structured
          rw [List.getLast?_concat, takeLast_concat]
          by_cases free : (pager.page last).pinCount = 0
          · have passes : (Cache.unpinned ∘ pager.frameAt) last = true := by
              simp [Cache.unpinned, Pager.frameAt, Page.frame, free]
            simp only [pagerEvictFrom, free, if_true, passes]
            cases hashRemove (PagedStorage.pagerFlush pager last) last <;> rfl
          · have fails : (Cache.unpinned ∘ pager.frameAt) last = false := by
              simp [Cache.unpinned, Pager.frameAt, Page.frame, free]
            have back : (pager.page last).prev = left.getLast? := structured.lists.neighbours.1
            simp only [pagerEvictFrom, free, if_false, fails, back, Bool.false_eq_true]
            rw [ih structured (by simpa using enough)]
            cases takeLast (Cache.unpinned ∘ pager.frameAt) left <;> rfl

theorem pagerEvict_walk (structured : Structured pager order buckets) :
    pagerEvict pager =
      match takeLast (Cache.unpinned ∘ pager.frameAt) order with
      | none => some (none, pager)
      | some (victim, _) => (hashRemove (PagedStorage.pagerFlush pager victim) victim).map fun pager =>
          (some victim, (listUnlink pager victim).record (.evicted ((listUnlink pager victim).idAt victim))) := by
  have tail : pager.lruList.tail = order.getLast? := structured.lists.tail
  have enough : order.length ≤ pager.walkBound := by
    rw [Pager.walkBound, structured.size]
    omega
  rw [pagerEvict, tail]
  have listed : Structured pager (order ++ []) buckets := by simpa using structured
  exact pagerEvictFrom_walk listed enough

theorem pagerEvict_none (structured : Structured pager order buckets)
    (pinned : ∀ node ∈ order, Cache.unpinned (pager.frameAt node) = false) :
    pagerEvict pager = some (none, pager) := by
  have none : takeLast (Cache.unpinned ∘ pager.frameAt) order = none := takeLast_none.mpr pinned
  rw [structured.pagerEvict_walk, none]

/-- The frames that stay behind an eviction do not notice it. -/
theorem pagerEvict_some {victim : Addr} (structured : Structured pager (left ++ victim :: right) buckets)
    (free : Cache.unpinned (pager.frameAt victim) = true)
    (pinned : ∀ node ∈ right, Cache.unpinned (pager.frameAt node) = false) :
    ∃ evicted buckets', pagerEvict pager = some (some victim, evicted) ∧
      Structured evicted (left ++ right) buckets' ∧
      evicted.view (left ++ right) =
        { ((pager.view (left ++ victim :: right)).flushFrame (pager.frameAt victim)).1 with
          frames := (left ++ right).map pager.frameAt
          history := .evicted (pager.idAt victim) ::
            ((pager.view (left ++ victim :: right)).flushFrame (pager.frameAt victim)).1.history } ∧
      evicted.heap = pager.heap ∧ evicted.lruList.size = pager.lruList.size - 1 ∧
      ∀ node ∈ left ++ right, evicted.frameAt node = pager.frameAt node := by
  have absent := structured.not_mem_of_split
  have flushed := structured.pagerFlush victim
  obtain ⟨heads, chain, buckets', removed, unlinked⟩ := flushed.remove
  have taken : takeLast (Cache.unpinned ∘ pager.frameAt) (left ++ victim :: right) =
      some (victim, left ++ right) := takeLast_append free pinned
  have equation := pagerFlush_eq pager victim (left ++ victim :: right)
  have label : (listUnlink ((PagedStorage.pagerFlush pager victim).withChains heads chain) victim).idAt
      victim = pager.idAt victim := by
    rw [listUnlink_eq, equation]
    simp [Pager.idAt, Pager.withLinks, Pager.withChains, Pager.modify, Pager.follow]
  have kept : ∀ node ∈ left ++ right,
      (PagedStorage.pagerFlush pager victim).frameAt node = pager.frameAt node := by
    intro node member
    have apart : node ≠ victim := fun same => absent (same ▸ member)
    rw [equation, Pager.frameAt_modify_other apart]
    rfl
  have frames : (left ++ right).map (PagedStorage.pagerFlush pager victim).frameAt =
      (left ++ right).map pager.frameAt := List.map_congr_left kept
  refine ⟨(listUnlink _ victim).record (.evicted (pager.idAt victim)), buckets', ?_,
    unlinked.congr rfl rfl rfl rfl (fun _ _ => rfl) rfl (fun _ inside => inside), ?_, ?_, ?_, ?_⟩
  · rw [structured.pagerEvict_walk, taken]
    simp only [removed, Option.map_some, label]
  · rw [listUnlink_eq]
    change Cache.mk (PagedStorage.pagerFlush pager victim).fd
      ((left ++ right).map (PagedStorage.pagerFlush pager victim).frameAt)
      (PagedStorage.pagerFlush pager victim).capacity (PagedStorage.pagerFlush pager victim).pwriteCount
      (_ :: (PagedStorage.pagerFlush pager victim).history) = _
    rw [frames, equation]
    dsimp only
    rw [Cache.flushFrame_capacity]
    rfl
  · rw [listUnlink_eq, equation]
    rfl
  · rw [listUnlink_eq, equation]
    rfl
  · intro node member
    rw [listUnlink_eq]
    exact kept node member

/-- A page that is being fetched goes into a node that is not listed. -/
theorem install (structured : Structured pager order buckets) (node : Addr) (pageId : Int32)
    (data : Bytes) (pinCount : Nat) (isDirty : Bool) (fresh : node ∉ order)
    (room : pager.lruList.size < pager.capacity) (nonneg : 0 ≤ pageId)
    (absent : ∀ other ∈ order, pager.idAt other ≠ pageId) (live : node ∈ pager.heap.live) :
    ∃ installed buckets',
      (hashInsert (pager.modify node fun page =>
          { page with pageId, pinCount, isDirty, data }) node).map
        (fun pager => (listAddFront pager node).record (.touched pageId)) = some installed ∧
      Structured installed (node :: order) buckets' ∧
      installed.view (node :: order) =
        { pager.view order with
          frames := ⟨pageId, data, pinCount, isDirty⟩ :: (pager.view order).frames
          history := .touched pageId :: pager.history } ∧
      installed.idAt node = pageId ∧ installed.heap = pager.heap ∧
      ∀ other ∈ order, installed.frameAt other = pager.frameAt other := by
  let label (page : Page) : Page := { page with pageId, pinCount, isDirty, data }
  have labelled : Structured (pager.modify node label) order buckets :=
    structured.modify (fun _ => ⟨rfl, rfl, rfl⟩) fun member => absurd member fresh
  have here : (pager.modify node label).idAt node = pageId := by
    simp [Pager.idAt, Pager.modify, label]
  have elsewhere : ∀ other ∈ order, (pager.modify node label).frameAt other = pager.frameAt other :=
    fun other member => Pager.frameAt_modify_other fun same => fresh (same ▸ member)
  obtain ⟨heads, chain, buckets', inserted, listed⟩ := labelled.insert fresh room
    (by rw [here]; exact nonneg)
    (by
      intro other member
      rw [here]
      have same : (pager.modify node label).idAt other = pager.idAt other :=
        congrArg Frame.pageId (elsewhere other member)
      rw [same]
      exact absent other member) live
  refine ⟨(listAddFront _ node).record (.touched pageId), buckets', ?_,
    listed.congr rfl rfl rfl rfl (fun _ _ => rfl) rfl (fun _ inside => inside), ?_, ?_, ?_, ?_⟩
  · rw [inserted, Option.map_some]
  · have frames : order.map (pager.modify node label).frameAt = order.map pager.frameAt :=
      List.map_congr_left elsewhere
    have front : (pager.modify node label).frameAt node = ⟨pageId, data, pinCount, isDirty⟩ :=
      Pager.frameAt_modify_self
    rw [listAddFront_eq]
    change Cache.mk pager.fd ((node :: order).map (pager.modify node label).frameAt) _ _ _ = _
    rw [List.map_cons, frames, front]
    rfl
  · rw [listAddFront_eq]
    exact here
  · rw [listAddFront_eq]
    rfl
  · intro other member
    rw [listAddFront_eq]
    exact elsewhere other member

theorem listMoveToFront_eq (pager : Pager) (node : Addr) :
    ∃ links size, listMoveToFront pager node = pager.withLinks links size := by
  unfold listMoveToFront
  split
  · exact ⟨pager.links, pager.lruList.size, rfl⟩
  · rw [listUnlink_eq, listAddFront_withLinks]
    exact ⟨_, _, rfl⟩

/-- The frame that `hash_find` leads to moves to the front, pinned once more. -/
theorem pagerFetch_hit (structured : Structured pager (left ++ node :: right) buckets) :
    ∃ fetched, pagerFetch pager (pager.idAt node) = some (some node, fetched) ∧
      Structured fetched (node :: (left ++ right)) buckets ∧
      fetched.view (node :: (left ++ right)) =
        { pager.view (left ++ node :: right) with
          frames := { pager.frameAt node with pinCount := (pager.page node).pinCount + 1 } ::
            (left ++ right).map pager.frameAt
          history := .touched (pager.idAt node) :: pager.history } ∧
      fetched.idAt = pager.idAt ∧ fetched.heap = pager.heap ∧
      ∀ other ∈ left ++ right, fetched.frameAt other = pager.frameAt other := by
  let pin (page : Page) : Page := { page with pinCount := page.pinCount + 1 }
  have found := structured.hashFind_some (show node ∈ left ++ node :: right by simp)
  have pinned : Structured (pager.modify node pin) (left ++ node :: right) buckets :=
    structured.modify (fun _ => ⟨rfl, rfl, rfl⟩) fun _ => rfl
  have moved := pinned.moveToFront
  obtain ⟨links, size, equation⟩ := listMoveToFront_eq (pager.modify node pin) node
  have elsewhere : ∀ other ∈ left ++ right, (pager.modify node pin).frameAt other = pager.frameAt other :=
    fun other member => Pager.frameAt_modify_other fun same => structured.not_mem_of_split (same ▸ member)
  refine ⟨(listMoveToFront (pager.modify node pin) node).record (.touched (pager.idAt node)), ?_,
    moved.congr rfl rfl rfl rfl (fun _ _ => rfl) rfl (fun _ inside => inside), ?_, ?_, ?_, ?_⟩
  · rw [pagerFetch, found]
    rfl
  · have frames : (left ++ right).map (pager.modify node pin).frameAt = (left ++ right).map pager.frameAt :=
      List.map_congr_left elsewhere
    have front : (pager.modify node pin).frameAt node =
        { pager.frameAt node with pinCount := (pager.page node).pinCount + 1 } :=
      Pager.frameAt_modify_self
    rw [equation]
    change Cache.mk pager.fd ((node :: (left ++ right)).map (pager.modify node pin).frameAt) _ _ _ = _
    rw [List.map_cons, frames, front]
    rfl
  · rw [equation]
    funext other
    by_cases same : other = node <;> simp [Pager.idAt, Pager.withLinks, Pager.modify, Pager.record, same, pin]
  · rw [equation]
    rfl
  · intro other member
    rw [equation]
    exact elsewhere other member

/-- A miss on a full cache whose frames are all pinned changes nothing. -/
theorem pagerFetch_refused (structured : Structured pager order buckets) (nonneg : 0 ≤ pageId)
    (absent : ∀ node ∈ order, pager.idAt node ≠ pageId)
    (full : pager.capacity ≤ pager.lruList.size)
    (pinned : ∀ node ∈ order, Cache.unpinned (pager.frameAt node) = false) :
    pagerFetch pager pageId = some (none, pager) := by
  rw [pagerFetch, structured.hashFind_none nonneg absent]
  simp only [acquirePage, ge_iff_le, full, if_true, structured.pagerEvict_none pinned]
  rfl

/-- Installing the page in the node that `acquirePage` found. -/
theorem pagerFetch_installs (nonneg : 0 ≤ pageId) (missed : hashFind pager pageId = some none)
    (acquired : acquirePage pager = some (some node, after))
    (structured : Structured after order buckets) (fresh : node ∉ order)
    (room : after.lruList.size < after.capacity)
    (absent : ∀ other ∈ order, after.idAt other ≠ pageId) (live : node ∈ after.heap.live) :
    ∃ fetched buckets', pagerFetch pager pageId = some (some node, fetched) ∧
      Structured fetched (node :: order) buckets' ∧
      fetched.view (node :: order) =
        { after.view order with
          frames := ⟨pageId, (after.view order).onFile pageId, 1, false⟩ :: (after.view order).frames
          history := .touched pageId :: after.history } ∧
      fetched.idAt node = pageId ∧ fetched.heap = after.heap ∧
      ∀ other ∈ order, fetched.frameAt other = after.frameAt other := by
  obtain ⟨installed, buckets', done, facts⟩ := structured.install node pageId
    ((after.view order).onFile pageId) 1 false fresh room nonneg absent live
  refine ⟨installed, buckets', ?_, facts⟩
  have read : after.fd.pread Bytes.zero (pageId.toInt * pageSize) =
      some ((after.view order).onFile pageId) := by
    rw [fileOffset_eq nonneg]
    exact File.pread_zeroed
  obtain ⟨inserted, chained, rfl⟩ := Option.map_eq_some_iff.mp done
  rw [pagerFetch, missed]
  simp only [Option.bind_eq_bind, Option.bind_some, acquired, read, chained]

theorem view_absent (absent : ∀ node ∈ order, pager.idAt node ≠ pageId) :
    ∀ frame ∈ (pager.view order).frames, frame.pageId ≠ pageId := by
  intro frame member
  obtain ⟨node, inside, rfl⟩ := List.mem_map.mp member
  exact absent node inside

theorem view_length (structured : Structured pager order buckets) :
    ((pager.view order).frames.length : Int) = pager.lruList.size := by
  rw [structured.size, Pager.view, List.length_map]

/-- A miss on a full cache reuses the node of the last unpinned frame. -/
theorem pagerFetch_evicts {victim : Addr} (structured : Structured pager (left ++ victim :: right) buckets)
    (nonneg : 0 ≤ pageId) (absent : ∀ node ∈ left ++ victim :: right, pager.idAt node ≠ pageId)
    (full : pager.capacity ≤ pager.lruList.size) (free : Cache.unpinned (pager.frameAt victim) = true)
    (pinned : ∀ node ∈ right, Cache.unpinned (pager.frameAt node) = false) :
    ∃ fetched buckets', pagerFetch pager pageId = some (some victim, fetched) ∧
      Structured fetched (victim :: (left ++ right)) buckets' ∧
      some (true, fetched.view (victim :: (left ++ right))) =
        (pager.view (left ++ victim :: right)).fetch pager.memory pageId ∧
      fetched.idAt victim = pageId ∧ fetched.heap = pager.heap ∧
      ∀ other ∈ left ++ right, fetched.frameAt other = pager.frameAt other := by
  obtain ⟨evicted, chains, removal, remaining, view, heap, size, kept⟩ :=
    structured.pagerEvict_some free pinned
  have acquired : acquirePage pager = some (some victim, evicted) := by
    simp only [acquirePage, ge_iff_le, full, if_true, removal]
  have capacity : evicted.capacity = pager.capacity := by
    have same := congrArg Cache.capacity view
    simpa [Pager.view] using same
  have ids : ∀ other ∈ left ++ right, evicted.idAt other = pager.idAt other :=
    fun other member => congrArg Frame.pageId (kept other member)
  obtain ⟨fetched, buckets', done, listed, installed, label, sameHeap, others⟩ :=
    pagerFetch_installs nonneg (structured.hashFind_none nonneg absent) acquired remaining
      structured.not_mem_of_split
      (by
        have bounded := structured.bounded
        omega)
      (by
        intro other member
        rw [ids other member]
        exact absent other (List.perm_middle.mem_iff.mpr (List.mem_cons_of_mem victim member)))
      (by
        rw [heap]
        exact structured.live victim (by simp))
  refine ⟨fetched, buckets', done, listed, ?_, label, sameHeap.trans heap, ?_⟩
  · have missing := view_absent absent
    have filled : (pager.view (left ++ victim :: right)).capacity ≤
        (pager.view (left ++ victim :: right)).frames.length := by
      have size := structured.size
      simp only [Pager.view, List.length_map]
      omega
    have room := Cache.acquire_evicts pager.memory filled
      (show _ = left.map pager.frameAt ++ pager.frameAt victim :: right.map pager.frameAt by
        simp [Pager.view]) free (by
          intro frame member
          obtain ⟨node, inside, rfl⟩ := List.mem_map.mp member
          exact pinned node inside)
    rw [Cache.fetch_miss nonneg missing room, installed, view, List.map_append]
    have history : evicted.history = (evicted.view (left ++ right)).history := rfl
    rw [history, view]
    rfl
  · intro other member
    rw [others other member, kept other member]

/-- A miss on a cache with room asks `malloc` for a node. -/
theorem pagerFetch_allocates {heap : Heap} (structured : Structured pager order buckets)
    (nonneg : 0 ≤ pageId) (absent : ∀ node ∈ order, pager.idAt node ≠ pageId)
    (room : pager.lruList.size < pager.capacity) (granted : pager.heap.malloc = (some node, heap)) :
    ∃ fetched buckets', pagerFetch pager pageId = some (some node, fetched) ∧
      Structured fetched (node :: order) buckets' ∧
      some (true, fetched.view (node :: order)) = (pager.view order).fetch pager.memory pageId ∧
      fetched.idAt node = pageId ∧ fetched.heap = heap ∧
      ∀ other ∈ order, fetched.frameAt other = pager.frameAt other := by
  obtain ⟨unused, live, _⟩ := Heap.malloc_some granted
  have notFull : ¬ pager.capacity ≤ pager.lruList.size := by omega
  have acquired : acquirePage pager = some (some node, { pager with heap }) := by
    simp only [acquirePage, ge_iff_le, notFull, if_false, granted]
  have grown : Structured { pager with heap } order buckets :=
    structured.congr rfl rfl rfl rfl (fun _ _ => rfl) rfl (fun _ inside => by simp [live, inside])
  obtain ⟨fetched, buckets', done, listed, installed, label, sameHeap, others⟩ :=
    pagerFetch_installs nonneg (structured.hashFind_none nonneg absent) acquired grown
      (fun member => unused (structured.live node member)) room absent (by simp [live])
  refine ⟨fetched, buckets', done, listed, ?_, label, sameHeap, others⟩
  have memory : pager.memory = true := by simp [Pager.memory, granted]
  have space : (pager.view order).frames.length < (pager.view order).capacity := by
    rw [structured.view_length]
    exact room
  rw [memory, Cache.fetch_miss nonneg (view_absent absent) (Cache.acquire_room space), installed]
  rfl

theorem pagerFetch_denied {heap : Heap} (structured : Structured pager order buckets)
    (nonneg : 0 ≤ pageId) (absent : ∀ node ∈ order, pager.idAt node ≠ pageId)
    (room : pager.lruList.size < pager.capacity) (refused : pager.heap.malloc = (none, heap)) :
    pagerFetch pager pageId = some (none, { pager with heap }) ∧
      (pager.view order).fetch pager.memory pageId = some (false, pager.view order) := by
  have notFull : ¬ pager.capacity ≤ pager.lruList.size := by omega
  have memory : pager.memory = false := by simp [Pager.memory, refused]
  have space : (pager.view order).frames.length < (pager.view order).capacity := by
    rw [structured.view_length]
    exact room
  constructor
  · rw [pagerFetch, structured.hashFind_none nonneg absent]
    simp only [acquirePage, ge_iff_le, notFull, if_false, refused]
    rfl
  · rw [memory, Cache.fetch_refused nonneg (view_absent absent) (Cache.acquire_denied space)]

/-- A page that is not cached at a negative offset cannot be read. -/
theorem pagerFetch_negative (structured : Structured pager order buckets) (negative : pageId < 0) :
    pagerFetch pager pageId ≠ some (some node, after) := by
  intro fetched
  simp only [pagerFetch, Option.bind_eq_bind, Option.bind_eq_some_iff] at fetched
  obtain ⟨looked, found, fetched⟩ := fetched
  cases looked with
  | some cached =>
      have sound := structured.hashFind_sound found
      have nonneg := structured.nonneg cached sound.1
      rw [sound.2] at nonneg
      exact absurd negative (Int32.not_lt.mpr nonneg)
  | none =>
      simp only [Option.bind_eq_some_iff] at fetched
      obtain ⟨⟨acquired, middle⟩, _, fetched⟩ := fetched
      cases acquired with
      | none => simp at fetched
      | some frame =>
          simp only [Option.bind_eq_some_iff] at fetched
          obtain ⟨data, read, _⟩ := fetched
          have below : pageId.toInt < 0 := by simpa [Int32.lt_iff_toInt_lt] using negative
          have offset : pageId.toInt * (pageSize : Int) < 0 := by
            simp only [pageSize]
            omega
          simp [File.pread, offset] at read

end Structured

namespace Pager

/-- The pager's list and table are in order, and this is the cache it implements. -/
def Implements (pager : Pager) (cache : Cache) : Prop :=
  ∃ order buckets, Structured pager order buckets ∧ pager.view order = cache

/-- The pointer a client has to a cached page. -/
def Holds (pager : Pager) (node : Addr) (pageId : Int32) : Prop :=
  hashFind pager pageId = some (some node)

end Pager

end HundredDays.PagedStorage
