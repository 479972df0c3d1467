import HundredDays.PagedStorage.BufferPool
import HundredDays.PagedStorage.Primitives

namespace HundredDays.PagedStorage

open HundredDays.Data HundredDays.Memory

/-! Every operation of the buffer pool is an operation of the page cache. -/

namespace BufferPoolManager

variable {pool after : BufferPoolManager} {order left right : List Nat} {frameId other : Nat}
  {pageId : Int32} {cache image : Cache}

/-- The LRU list holds exactly these frames, front to back, and the LRU map leads
to the node of each. -/
structure Threads (pool : BufferPoolManager) (order : List Nat) : Prop where
  listed : pool.lruList.map LruNode.frameId = order
  nodup : order.Nodup
  distinct : (pool.lruList.map LruNode.iterator).Nodup
  earlier : ∀ node ∈ pool.lruList, node.iterator < pool.iterators
  mapped : ∀ frameId iterator, pool.lruMap frameId = some iterator ↔ ⟨iterator, frameId⟩ ∈ pool.lruList

namespace Threads

theorem absent (threads : pool.Threads order) (outside : frameId ∉ order) : pool.lruMap frameId = none := by
  cases found : pool.lruMap frameId with
  | none => rfl
  | some iterator =>
      have member := (threads.mapped frameId iterator).mp found
      rw [← threads.listed] at outside
      exact absurd (List.mem_map_of_mem member) outside

theorem unlink (threads : pool.Threads (left ++ frameId :: right)) :
    (pool.unlinkLRU frameId).Threads (left ++ right) := by
  obtain ⟨before, rest, split, listedLeft, listedRest⟩ := List.map_eq_append_iff.mp threads.listed
  obtain ⟨node, later, rfl, rfl, listedRight⟩ := List.map_eq_cons_iff.mp listedRest
  have member : node ∈ pool.lruList := by simp [split]
  have found : pool.lruMap node.frameId = some node.iterator := (threads.mapped _ _).mpr member
  have distinct := threads.distinct
  rw [split, List.map_append, List.map_cons, List.nodup_middle, List.nodup_cons, ← List.map_append]
    at distinct
  have apart : ∀ other ∈ before ++ later, other.iterator ≠ node.iterator :=
    fun other inside same => distinct.1 (List.mem_map.mpr ⟨other, inside, same⟩)
  have erased : pool.lruList.eraseP (fun listed => listed.iterator = node.iterator) = before ++ later := by
    rw [split, List.eraseP_append_right _ (by
      intro other inside
      simpa using apart other (List.mem_append_left later inside)), List.eraseP_cons_of_pos (by simp)]
  have frames : (before ++ later).map LruNode.frameId = left ++ right := by
    rw [List.map_append, listedLeft, listedRight]
  have nodup := threads.nodup
  rw [List.nodup_middle, List.nodup_cons] at nodup
  have kept : ∀ other, other ∈ before ++ later ↔ other ∈ pool.lruList ∧ other.frameId ≠ node.frameId := by
    intro other
    rw [split, List.perm_middle.mem_iff, List.mem_cons]
    constructor
    · intro inside
      refine ⟨.inr inside, fun same => nodup.1 ?_⟩
      rw [← frames, ← same]
      exact List.mem_map_of_mem inside
    · rintro ⟨rfl | inside, differs⟩
      · exact absurd rfl differs
      · exact inside
  simp only [unlinkLRU, found, erased]
  refine ⟨frames, nodup.2, distinct.2, ?_, ?_⟩
  · intro other inside
    exact threads.earlier other ((kept other).mp inside).1
  · intro other iterator
    rw [kept]
    by_cases same : other = node.frameId
    · simp [same]
    · dsimp only
      rw [Function.update_of_ne same, threads.mapped]
      simp [same]

/-- A frame that is not listed goes to the front. -/
theorem push (threads : pool.Threads order) (fresh : frameId ∉ order) :
    Threads { pool with
      lruList := ⟨pool.iterators, frameId⟩ :: pool.lruList
      lruMap := Function.update pool.lruMap frameId (some pool.iterators)
      iterators := pool.iterators + 1 } (frameId :: order) := by
  refine ⟨by simp [threads.listed], List.nodup_cons.mpr ⟨fresh, threads.nodup⟩, ?_, ?_, ?_⟩
  · refine List.nodup_cons.mpr ⟨?_, threads.distinct⟩
    intro member
    obtain ⟨node, inside, same⟩ := List.mem_map.mp member
    have older := threads.earlier node inside
    dsimp only at same
    omega
  · intro node member
    rcases List.mem_cons.mp member with rfl | inside
    · exact Nat.lt_succ_self _
    · exact Nat.lt_succ_of_lt (threads.earlier node inside)
  · intro other iterator
    by_cases same : other = frameId
    · subst same
      have outside : ⟨iterator, other⟩ ∉ pool.lruList := by
        intro inside
        rw [← threads.listed] at fresh
        exact fresh (List.mem_map_of_mem inside)
      simp [outside, eq_comm]
    · dsimp only
      rw [Function.update_of_ne same, threads.mapped]
      simp [same]

theorem touch_absent (threads : pool.Threads order) (fresh : frameId ∉ order) :
    (pool.touchLRU frameId).Threads (frameId :: order) := by
  simp only [touchLRU, unlinkLRU, threads.absent fresh]
  exact threads.push fresh

theorem touch (threads : pool.Threads (left ++ frameId :: right)) :
    (pool.touchLRU frameId).Threads (frameId :: (left ++ right)) := by
  have nodup := threads.nodup
  rw [List.nodup_middle, List.nodup_cons] at nodup
  exact threads.unlink.push nodup.1

end Threads

/-- Everything but the LRU list. -/
def withLRU (pool : BufferPoolManager) (lruList : List LruNode) (lruMap : Nat → Option Nat)
    (iterators : Nat) : BufferPoolManager :=
  { pool with lruList, lruMap, iterators }

theorem unlinkLRU_eq (pool : BufferPoolManager) (frameId : Nat) : ∃ lruList lruMap iterators,
    pool.unlinkLRU frameId = pool.withLRU lruList lruMap iterators := by
  unfold unlinkLRU
  split
  · exact ⟨pool.lruList, pool.lruMap, pool.iterators, rfl⟩
  · exact ⟨_, _, pool.iterators, rfl⟩

theorem touchLRU_eq (pool : BufferPoolManager) (frameId : Nat) : ∃ lruList lruMap iterators,
    pool.touchLRU frameId = pool.withLRU lruList lruMap iterators := by
  obtain ⟨lruList, lruMap, iterators, equation⟩ := unlinkLRU_eq pool frameId
  rw [touchLRU, equation]
  exact ⟨_, _, _, rfl⟩

/-- The frames in use are listed in LRU order and found by their page ids; the
others are free. -/
structure Pooled (pool : BufferPoolManager) (order : List Nat) : Prop where
  threads : pool.Threads order
  free : pool.freeFrames.Nodup ∧ ∀ frameId ∈ pool.freeFrames, frameId ∉ order
  size : order.length + pool.freeFrames.length = pool.capacity
  distinct : (order.map fun frameId => (pool.pages frameId).pageId).Nodup
  nonneg : ∀ frameId ∈ order, 0 ≤ (pool.pages frameId).pageId
  table : ∀ pageId frameId, pool.pageTable pageId = some frameId ↔
    frameId ∈ order ∧ (pool.pages frameId).pageId = pageId

/-- The page cache that a buffer pool with this LRU order implements. -/
def view (pool : BufferPoolManager) (order : List Nat) : Cache where
  fd := pool.fd
  frames := order.map pool.pages
  capacity := pool.capacity
  pwriteCount := pool.pwriteCount
  history := pool.history

def Implements (pool : BufferPoolManager) (cache : Cache) : Prop :=
  ∃ order, pool.Pooled order ∧ pool.view order = cache

/-- The pointer that a client has to a cached page. -/
def Holds (pool : BufferPoolManager) (frameId : Nat) (pageId : Int32) : Prop :=
  pool.pageTable pageId = some frameId

/-- The pool after its file and counters moved on as the cache's did. -/
def follow (pool : BufferPoolManager) (cache : Cache) : BufferPoolManager :=
  { pool with fd := cache.fd, pwriteCount := cache.pwriteCount, history := cache.history }

theorem setPage_self {change : Frame → Frame} (fixed : change (pool.pages frameId) = pool.pages frameId) :
    pool.setPage frameId change = pool := by
  simp [setPage, fixed]

theorem pages_setPage_self {change : Frame → Frame} :
    (pool.setPage frameId change).pages frameId = change (pool.pages frameId) := by
  simp [setPage]

theorem pages_setPage_other {change : Frame → Frame} (apart : other ≠ frameId) :
    (pool.setPage frameId change).pages other = pool.pages other := by
  simp [setPage, apart]

theorem map_pages_setPage {change : Frame → Frame} (outside : frameId ∉ order) :
    order.map (pool.setPage frameId change).pages = order.map pool.pages := by
  apply List.map_congr_left
  intro other member
  exact pages_setPage_other fun same => outside (same ▸ member)

namespace Pooled

theorem id_injective (pooled : pool.Pooled order) (first : frameId ∈ order) (second : other ∈ order)
    (same : (pool.pages frameId).pageId = (pool.pages other).pageId) : frameId = other :=
  List.inj_on_of_nodup_map pooled.distinct first second same

theorem holds_iff (pooled : pool.Pooled order) :
    pool.Holds frameId pageId ↔ frameId ∈ order ∧ (pool.pages frameId).pageId = pageId :=
  pooled.table pageId frameId

theorem found (pooled : pool.Pooled order) (member : frameId ∈ order) :
    pool.pageTable (pool.pages frameId).pageId = some frameId :=
  (pooled.table _ _).mpr ⟨member, rfl⟩

theorem missing (pooled : pool.Pooled order)
    (absent : ∀ frameId ∈ order, (pool.pages frameId).pageId ≠ pageId) : pool.pageTable pageId = none := by
  cases found : pool.pageTable pageId with
  | none => rfl
  | some frameId =>
      obtain ⟨member, label⟩ := (pooled.table pageId frameId).mp found
      exact absurd label (absent frameId member)

/-- A page that the cache has pinned is pinned in its frame. -/
theorem pinned_frame (pooled : pool.Pooled order) (holds : pool.Holds frameId pageId)
    (pinned : (pool.view order).Pinned pageId 1) : (pool.pages frameId).pinCount ≠ 0 := by
  obtain ⟨member, label⟩ := pooled.holds_iff.mp holds
  obtain ⟨frame, listed, same, enough⟩ := pinned
  obtain ⟨found, inside, rfl⟩ := List.mem_map.mp listed
  have here : found = frameId := pooled.id_injective inside member (same.trans label.symm)
  subst here
  exact Nat.one_le_iff_ne_zero.mp enough

/-- Only the page ids of listed frames matter. -/
theorem congr (pooled : pool.Pooled order) (lru : after.lruList = pool.lruList)
    (map : after.lruMap = pool.lruMap) (iterators : after.iterators = pool.iterators)
    (free : after.freeFrames = pool.freeFrames) (capacity : after.capacity = pool.capacity)
    (table : after.pageTable = pool.pageTable)
    (ids : ∀ frameId ∈ order, (after.pages frameId).pageId = (pool.pages frameId).pageId) :
    after.Pooled order := by
  obtain ⟨⟨listed, nodup, distinct, earlier, mapped⟩, freeNodup, size, labels, nonneg, found⟩ := pooled
  refine ⟨⟨?_, nodup, ?_, ?_, ?_⟩, ?_, ?_, ?_, ?_, ?_⟩
  · rw [lru]
    exact listed
  · rw [lru]
    exact distinct
  · rw [lru, iterators]
    exact earlier
  · rw [map, lru]
    exact mapped
  · rw [free]
    exact freeNodup
  · rw [free, capacity]
    exact size
  · rw [List.map_congr_left ids]
    exact labels
  · intro frameId member
    rw [ids frameId member]
    exact nonneg frameId member
  · intro pageId frameId
    rw [table, found]
    apply and_congr_right
    intro member
    rw [ids frameId member]

theorem setPage {change : Frame → Frame} (pooled : pool.Pooled order)
    (keeps : ∀ frame, (change frame).pageId = frame.pageId) : (pool.setPage frameId change).Pooled order := by
  refine pooled.congr rfl rfl rfl rfl rfl rfl ?_
  intro other _
  by_cases same : other = frameId
  · subst same
    simp [BufferPoolManager.setPage, keeps]
  · rw [pages_setPage_other same]

theorem follow (pooled : pool.Pooled order) : (pool.follow cache).Pooled order :=
  pooled.congr rfl rfl rfl rfl rfl rfl fun _ _ => rfl

theorem find_view (pooled : pool.Pooled order) (member : frameId ∈ order) :
    (pool.view order).frames.find? (Cache.holds (pool.pages frameId).pageId) = some (pool.pages frameId) := by
  have distinct : (pool.view order).Distinct := by
    rw [Cache.Distinct, view, List.map_map]
    exact pooled.distinct
  exact distinct.find (List.mem_map_of_mem member)

/-- A change to one frame in use is an update of the page with its id. -/
theorem view_setPage {change : Frame → Frame} (pooled : pool.Pooled order) (member : frameId ∈ order)
    (update : Frame → Frame) (agree : change (pool.pages frameId) = update (pool.pages frameId)) :
    (pool.setPage frameId change).view order =
      (pool.view order).update (pool.pages frameId).pageId update := by
  have frames : order.map (pool.setPage frameId change).pages =
      (order.map pool.pages).map fun frame =>
        if frame.pageId = (pool.pages frameId).pageId then update frame else frame := by
    rw [List.map_map]
    apply List.map_congr_left
    intro other listed
    by_cases same : other = frameId
    · subst same
      simp [BufferPoolManager.setPage, agree]
    · rw [pages_setPage_other same]
      exact (if_neg fun ids => same (pooled.id_injective listed member ids)).symm
  simp only [view, Cache.update, frames]
  rfl

theorem flushPage_eq (pooled : pool.Pooled order) (member : frameId ∈ order) :
    pool.flushPage (pool.pages frameId).pageId =
      (pool.follow ((pool.view order).flushFrame (pool.pages frameId)).1).setPage frameId fun page =>
        { page with isDirty := ((pool.view order).flushFrame (pool.pages frameId)).2.isDirty } := by
  simp only [BufferPoolManager.flushPage, pooled.found member, Cache.flushFrame]
  cases dirty : (pool.pages frameId).isDirty with
  | false =>
      simp only [Bool.false_eq_true, if_false, dirty]
      exact (setPage_self (by simp [← dirty])).symm
  | true =>
      simp only [if_true]
      cases call : pool.fd.pwrite (pool.pages frameId).data ((pool.pages frameId).pageId.toInt * pageSize) with
      | mk written fd =>
          have seen : (pool.view order).fd.pwrite (pool.pages frameId).data
              ((pool.pages frameId).pageId.toInt * pageSize) = (written, fd) := call
          simp only [seen]
          by_cases whole : written = pageSize
          · simp only [whole, if_true]
            rfl
          · simp only [whole, if_false]
            exact (setPage_self rfl).symm

theorem flushPage (pooled : pool.Pooled order) (member : frameId ∈ order) :
    (pool.flushPage (pool.pages frameId).pageId).Pooled order := by
  rw [pooled.flushPage_eq member]
  exact pooled.follow.setPage fun _ => rfl

theorem view_follow (frames : cache.frames = (pool.view order).frames)
    (capacity : cache.capacity = pool.capacity) : (pool.follow cache).view order = cache := by
  cases cache
  simp only [view] at frames capacity
  simp only [BufferPoolManager.follow, view, frames, capacity]

theorem view_flushPage (pooled : pool.Pooled order) (member : frameId ∈ order) :
    (pool.flushPage (pool.pages frameId).pageId).view order =
      (pool.view order).flush (pool.pages frameId).pageId := by
  rw [Cache.flush, pooled.find_view member, pooled.flushPage_eq member]
  rw [pooled.follow.view_setPage member (fun frame =>
      { frame with isDirty := ((pool.view order).flushFrame (pool.pages frameId)).2.isDirty }) rfl,
    view_follow Cache.flushFrame_frames Cache.flushFrame_capacity]
  rfl

end Pooled

/-- A frame was taken for a page and is not listed yet. -/
structure Taken (pool : BufferPoolManager) (order : List Nat) (frameId : Nat) : Prop where
  threads : pool.Threads order
  unlisted : frameId ∉ order
  free : pool.freeFrames.Nodup ∧ ∀ other ∈ pool.freeFrames, other ∉ order ∧ other ≠ frameId
  size : order.length + 1 + pool.freeFrames.length = pool.capacity
  distinct : (order.map fun frameId => (pool.pages frameId).pageId).Nodup
  nonneg : ∀ frameId ∈ order, 0 ≤ (pool.pages frameId).pageId
  table : ∀ pageId other, pool.pageTable pageId = some other ↔
    other ∈ order ∧ (pool.pages other).pageId = pageId

namespace Taken

/-- Installing a page in the frame that was taken for it. -/
theorem install (taken : pool.Taken order frameId) (data : Bytes) (nonneg : 0 ≤ pageId)
    (absent : ∀ other ∈ order, (pool.pages other).pageId ≠ pageId) :
    let installed := ((((pool.setPage frameId fun _ =>
      { pageId, pinCount := 1, isDirty := false, data }).setTable pageId (some frameId)).touchLRU
        frameId).record (.touched pageId))
    installed.Pooled (frameId :: order) ∧
      installed.view (frameId :: order) =
        { pool.view order with
          frames := ⟨pageId, data, 1, false⟩ :: (pool.view order).frames
          history := .touched pageId :: pool.history } ∧
      installed.Holds frameId pageId ∧
      ∀ other ∈ order, installed.pages other = pool.pages other := by
  intro installed
  let page : Frame := { pageId, pinCount := 1, isDirty := false, data }
  let labelled := (pool.setPage frameId fun _ => page).setTable pageId (some frameId)
  have threads : labelled.Threads order :=
    ⟨taken.threads.listed, taken.threads.nodup, taken.threads.distinct, taken.threads.earlier,
      taken.threads.mapped⟩
  have listed := threads.touch_absent taken.unlisted
  obtain ⟨lruList, lruMap, iterators, equation⟩ := touchLRU_eq labelled frameId
  have kept : ∀ other ∈ order, labelled.pages other = pool.pages other := by
    intro other member
    have apart : other ≠ frameId := fun same => taken.unlisted (same ▸ member)
    exact Function.update_of_ne apart _ _
  have here : labelled.pages frameId = page := by simp [labelled, setTable, setPage]
  have whole : installed = (labelled.withLRU lruList lruMap iterators).record (.touched pageId) := by
    rw [← equation]
  rw [equation] at listed
  have table : ∀ other found, labelled.pageTable other = some found ↔
      found ∈ frameId :: order ∧ (labelled.pages found).pageId = other := by
    intro other found
    by_cases same : other = pageId
    · subst same
      simp only [labelled, setTable, setPage, Function.update_self, Option.some.injEq]
      constructor
      · rintro rfl
        exact ⟨List.mem_cons_self, by simp [page]⟩
      · rintro ⟨member, label⟩
        rcases List.mem_cons.mp member with rfl | old
        · rfl
        · have label : (labelled.pages found).pageId = other := label
          rw [kept found old] at label
          exact absurd label (absent found old)
    · change Function.update pool.pageTable pageId (some frameId) other = some found ↔ _
      rw [Function.update_of_ne same, taken.table]
      constructor
      · rintro ⟨old, label⟩
        exact ⟨List.mem_cons_of_mem frameId old, by rw [kept found old, label]⟩
      · rintro ⟨member, label⟩
        rcases List.mem_cons.mp member with rfl | old
        · rw [here] at label
          exact absurd label.symm same
        · rw [kept found old] at label
          exact ⟨old, label⟩
  rw [whole]
  refine ⟨⟨⟨listed.listed, listed.nodup, listed.distinct, listed.earlier, listed.mapped⟩, ?_, ?_, ?_, ?_, table⟩,
    ?_, ?_, kept⟩
  · refine ⟨taken.free.1, fun other member => ?_⟩
    simp only [List.mem_cons, not_or]
    exact ⟨(taken.free.2 other member).2, (taken.free.2 other member).1⟩
  · have size := taken.size
    change (frameId :: order).length + pool.freeFrames.length = pool.capacity
    rw [List.length_cons]
    exact size
  · change ((frameId :: order).map fun found => (labelled.pages found).pageId).Nodup
    rw [List.map_cons, List.nodup_cons, here, List.map_congr_left (g := fun found => (pool.pages found).pageId)
      fun other member => by rw [kept other member]]
    refine ⟨?_, taken.distinct⟩
    intro member
    obtain ⟨other, inside, label⟩ := List.mem_map.mp member
    exact absent other inside label
  · intro other member
    change 0 ≤ (labelled.pages other).pageId
    rcases List.mem_cons.mp member with rfl | old
    · rw [here]
      exact nonneg
    · rw [kept other old]
      exact taken.nonneg other old
  · have frames : order.map labelled.pages = order.map pool.pages := List.map_congr_left kept
    change Cache.mk pool.fd ((frameId :: order).map labelled.pages) _ _ _ = _
    rw [List.map_cons, here, frames]
    rfl
  · exact (table pageId frameId).mpr ⟨List.mem_cons_self, by rw [here]⟩

end Taken

/-- The buffer pool as a page store.  A handle is unpinned through the id that its
frame carries. -/
def bufferPool : PageStore BufferPoolManager Nat where
  fetch := fetchPage
  read pool frameId := (pool.pages frameId).data
  write pool frameId data := pool.setData frameId fun _ => data
  unpin pool frameId isDirty := pool.unpinPage (pool.pages frameId).pageId isDirty
  flush pool pageId := some (pool.flushPage pageId)
  allocPage := allocPage
  freePage := freePage

def abstraction : Abstraction BufferPoolManager Nat where
  Implements := Implements
  Holds := Holds
  Generous _ := True

namespace Pooled

theorem view_length (pooled : pool.Pooled order) :
    (pool.view order).frames.length + pool.freeFrames.length = pool.capacity := by
  simpa [view] using pooled.size

theorem view_absent (absent : ∀ frameId ∈ order, (pool.pages frameId).pageId ≠ pageId) :
    ∀ frame ∈ (pool.view order).frames, frame.pageId ≠ pageId := by
  intro frame member
  obtain ⟨frameId, inside, rfl⟩ := List.mem_map.mp member
  exact absent frameId inside

/-- A step of the pool that keeps the frames in use follows the cache. -/
theorem follows {next : List Nat} (pooled : pool.Pooled order) (stepped : after.Pooled next)
    (view : after.view next = image)
    (kept : ∀ other ∈ order, other ∈ next ∧
      ((pool.pages other).pinCount ≠ 0 → (after.pages other).pageId = (pool.pages other).pageId)) :
    abstraction.Follows pool (pool.view order) after image where
  implements := ⟨next, stepped, view⟩
  generous := id
  pinned := by
    intro other pageId holds pinned
    obtain ⟨member, label⟩ := pooled.holds_iff.mp holds
    obtain ⟨inside, same⟩ := kept other member
    exact stepped.holds_iff.mpr ⟨inside, (same (pooled.pinned_frame holds pinned)).trans label⟩
  valid := by
    intro other pageId holds
    obtain ⟨member, _⟩ := pooled.holds_iff.mp holds
    exact ⟨_, stepped.holds_iff.mpr ⟨(kept other member).1, rfl⟩⟩

/-- What a fetch through the pool and a fetch through the cache have in common. -/
def FetchAgrees (pool : BufferPoolManager) (cache : Cache) (pageId : Int32) : Prop :=
  Option.Rel (fun result image => abstraction.Follows pool cache result.2 image.2 ∧
      result.1.isSome = image.1 ∧ ∀ frameId, result.1 = some frameId → result.2.Holds frameId pageId)
    (pool.fetchPage pageId) (cache.fetch true pageId)

theorem fetch_hit (pooled : pool.Pooled order) (member : frameId ∈ order) :
    FetchAgrees pool (pool.view order) (pool.pages frameId).pageId := by
  obtain ⟨left, right, rfl⟩ := List.append_of_mem member
  have outside := pooled.threads.nodup
  rw [List.nodup_middle, List.nodup_cons] at outside
  have absent : ∀ frame ∈ left.map pool.pages, frame.pageId ≠ (pool.pages frameId).pageId := by
    intro frame inside same
    obtain ⟨other, before, rfl⟩ := List.mem_map.mp inside
    have here := pooled.id_injective (by simp [before]) member same
    exact outside.1 (by simp [← here, before])
  have split : (pool.view (left ++ frameId :: right)).frames =
      left.map pool.pages ++ pool.pages frameId :: right.map pool.pages := by
    simp [view]
  let pin (page : Frame) : Frame := { page with pinCount := page.pinCount + 1 }
  have pinned : (pool.setPage frameId pin).Pooled (left ++ frameId :: right) := pooled.setPage fun _ => rfl
  have touched := pinned.threads.touch
  obtain ⟨lruList, lruMap, iterators, equation⟩ :=
    touchLRU_eq (pool.setPage frameId pin) frameId
  have perm : (frameId :: (left ++ right)).Perm (left ++ frameId :: right) := List.perm_middle.symm
  have nonneg := pooled.nonneg frameId (perm.mem_iff.mp List.mem_cons_self)
  have labels : ∀ other, ((pool.setPage frameId pin).pages other).pageId = (pool.pages other).pageId := by
    intro other
    by_cases same : other = frameId
    · subst same
      rw [pages_setPage_self]
    · rw [pages_setPage_other same]
  have stepped : (((pool.setPage frameId pin).touchLRU frameId).record
      (.touched (pool.pages frameId).pageId)).Pooled (frameId :: (left ++ right)) := by
    rw [equation] at touched ⊢
    refine ⟨⟨touched.listed, touched.nodup, touched.distinct, touched.earlier, touched.mapped⟩, ?_, ?_, ?_, ?_, ?_⟩
    · exact ⟨pinned.free.1, fun other inside listed => pinned.free.2 other inside (perm.mem_iff.mp listed)⟩
    · have size := pinned.size
      rw [← perm.length_eq] at size
      exact size
    · exact (perm.map _).nodup_iff.mpr pinned.distinct
    · exact fun other listed => pinned.nonneg other (perm.mem_iff.mp listed)
    · intro pageId other
      rw [perm.mem_iff]
      exact pinned.table pageId other
  rw [FetchAgrees, Cache.fetch_hit nonneg split rfl absent]
  simp only [fetchPage, pooled.found member]
  refine .some ⟨pooled.follows stepped ?_ ?_, rfl, ?_⟩
  · rw [equation]
    have others : (left ++ right).map (pool.setPage frameId pin).pages = (left ++ right).map pool.pages :=
      map_pages_setPage outside.1
    change Cache.mk pool.fd ((frameId :: (left ++ right)).map (pool.setPage frameId pin).pages) _ _ _ = _
    rw [List.map_cons, others, List.map_append, pages_setPage_self]
    rfl
  · intro other inside
    refine ⟨perm.mem_iff.mpr inside, fun _ => ?_⟩
    rw [equation]
    exact labels other
  · rintro found same
    cases same
    refine stepped.holds_iff.mpr ⟨List.mem_cons_self, ?_⟩
    rw [equation]
    exact labels frameId

/-- A miss while there are free frames. -/
theorem take_free {rest : List Nat} (pooled : pool.Pooled order) (free : pool.freeFrames = frameId :: rest) :
    pool.takeFrame = some (frameId, { pool with freeFrames := rest }) ∧
      Taken { pool with freeFrames := rest } order frameId := by
  refine ⟨by simp only [takeFrame, free], ?_⟩
  obtain ⟨nodup, unlisted⟩ := pooled.free
  rw [free] at nodup unlisted
  obtain ⟨fresh, restNodup⟩ := List.nodup_cons.mp nodup
  have size := pooled.size
  rw [free, List.length_cons] at size
  refine ⟨⟨pooled.threads.listed, pooled.threads.nodup, pooled.threads.distinct, pooled.threads.earlier,
    pooled.threads.mapped⟩, unlisted frameId List.mem_cons_self, ⟨restNodup, ?_⟩, ?_, pooled.distinct,
    pooled.nonneg, pooled.table⟩
  · intro other member
    exact ⟨unlisted other (List.mem_cons_of_mem frameId member), fun same => fresh (same ▸ member)⟩
  · dsimp only
    omega

theorem take_refused (pooled : pool.Pooled order) (full : pool.freeFrames = [])
    (pinned : ∀ frameId ∈ order, Cache.unpinned (pool.pages frameId) = false) : pool.takeFrame = none := by
  have none : (pool.lruList.reverse.find? fun node => (pool.pages node.frameId).pinCount = 0) = none := by
    apply List.find?_eq_none.mpr
    intro node member
    have listed : node.frameId ∈ order := by
      rw [← pooled.threads.listed]
      exact List.mem_map_of_mem (List.mem_reverse.mp member)
    simpa [Cache.unpinned] using pinned node.frameId listed
  simp only [takeFrame, full, none, Option.map_none]

/-- The search from the end of the list finds the last unpinned page. -/
theorem find_unpinned {victim : Nat} (pooled : pool.Pooled (left ++ victim :: right))
    (free : Cache.unpinned (pool.pages victim) = true)
    (pinned : ∀ frameId ∈ right, Cache.unpinned (pool.pages frameId) = false) :
    ∃ node, (pool.lruList.reverse.find? fun node => (pool.pages node.frameId).pinCount = 0) = some node ∧
      node.frameId = victim := by
  have last : takeLast (Cache.unpinned ∘ pool.pages) (pool.lruList.map LruNode.frameId) =
      some (victim, left ++ right) := by
    rw [pooled.threads.listed]
    exact takeLast_append free pinned
  rw [takeLast_map] at last
  obtain ⟨⟨node, rest⟩, found, same⟩ := Option.map_eq_some_iff.mp last
  refine ⟨node, ?_, congrArg Prod.fst same⟩
  rw [find?_reverse]
  have tests : (fun node => decide ((pool.pages node.frameId).pinCount = 0)) =
      (Cache.unpinned ∘ pool.pages) ∘ LruNode.frameId := by
    funext node
    simp [Cache.unpinned, Bool.beq_eq_decide_eq]
  rw [tests, found]
  rfl

/-- A miss with no free frame evicts the last unpinned page. -/
theorem take_evicts {victim : Nat} (pooled : pool.Pooled (left ++ victim :: right)) (full : pool.freeFrames = [])
    (free : Cache.unpinned (pool.pages victim) = true)
    (pinned : ∀ frameId ∈ right, Cache.unpinned (pool.pages frameId) = false) :
    ∃ taken, pool.takeFrame = some (victim, taken) ∧ taken.Taken (left ++ right) victim ∧
      taken.view (left ++ right) =
        { ((pool.view (left ++ victim :: right)).flushFrame (pool.pages victim)).1 with
          frames := (left ++ right).map pool.pages
          history := .evicted (pool.pages victim).pageId ::
            ((pool.view (left ++ victim :: right)).flushFrame (pool.pages victim)).1.history } ∧
      ∀ frameId ∈ left ++ right, taken.pages frameId = pool.pages frameId := by
  have member : victim ∈ left ++ victim :: right := by simp
  have outside := pooled.threads.nodup
  rw [List.nodup_middle, List.nodup_cons] at outside
  obtain ⟨node, seen, rfl⟩ := find_unpinned pooled free pinned
  have equation := pooled.flushPage_eq member
  have flushed := pooled.flushPage member
  have label : ((pool.flushPage (pool.pages node.frameId).pageId).pages node.frameId).pageId =
      (pool.pages node.frameId).pageId := by
    rw [equation, pages_setPage_self]
    rfl
  have kept : ∀ other ∈ left ++ right, (pool.flushPage (pool.pages node.frameId).pageId).pages other =
      pool.pages other := by
    intro other inside
    rw [equation]
    exact pages_setPage_other fun same => outside.1 (same ▸ inside)
  have frames : (left ++ right).map (pool.flushPage (pool.pages node.frameId).pageId).pages =
      (left ++ right).map pool.pages := List.map_congr_left kept
  generalize flushing : pool.flushPage (pool.pages node.frameId).pageId = clean at *
  let erased := clean.setTable (pool.pages node.frameId).pageId none
  have threads : erased.Threads (left ++ node.frameId :: right) :=
    ⟨flushed.threads.listed, flushed.threads.nodup, flushed.threads.distinct, flushed.threads.earlier,
      flushed.threads.mapped⟩
  have unlinked := threads.unlink
  obtain ⟨lruList, lruMap, iterators, unlinking⟩ := unlinkLRU_eq erased node.frameId
  refine ⟨(erased.unlinkLRU node.frameId).record (.evicted (pool.pages node.frameId).pageId), ?_, ?_, ?_, ?_⟩
  · simp only [takeFrame, full, seen, Option.map_some, flushing, label]
    rfl
  · rw [unlinking] at unlinked ⊢
    have empty : clean.freeFrames = [] := by
      rw [equation]
      exact full
    refine ⟨⟨unlinked.listed, unlinked.nodup, unlinked.distinct, unlinked.earlier, unlinked.mapped⟩,
      outside.1, ?_, ?_, ?_, ?_, ?_⟩
    · change clean.freeFrames.Nodup ∧ ∀ other ∈ clean.freeFrames, _
      simp [empty]
    · have size := flushed.size
      change (left ++ right).length + 1 + clean.freeFrames.length = clean.capacity
      simp only [List.length_append, List.length_cons] at size ⊢
      omega
    · have distinct := flushed.distinct
      rw [List.map_append, List.map_cons, List.nodup_middle, List.nodup_cons, ← List.map_append] at distinct
      exact distinct.2
    · exact fun other inside =>
        flushed.nonneg other (List.perm_middle.mem_iff.mpr (List.mem_cons_of_mem _ inside))
    · intro pageId other
      change Function.update clean.pageTable _ none pageId = some other ↔
        other ∈ left ++ right ∧ (clean.pages other).pageId = pageId
      by_cases same : pageId = (pool.pages node.frameId).pageId
      · rw [same, Function.update_self]
        refine ⟨fun impossible => by simp at impossible, ?_⟩
        rintro ⟨inside, ids⟩
        have here := flushed.id_injective (List.perm_middle.mem_iff.mpr (List.mem_cons_of_mem _ inside))
          member (ids.trans label.symm)
        exact absurd (here ▸ inside) outside.1
      · rw [Function.update_of_ne same, flushed.table, List.perm_middle.mem_iff, List.mem_cons]
        constructor
        · rintro ⟨rfl | inside, ids⟩
          · exact absurd (ids.symm.trans label) same
          · exact ⟨inside, ids⟩
        · rintro ⟨inside, ids⟩
          exact ⟨.inr inside, ids⟩
  · rw [unlinking]
    change Cache.mk clean.fd ((left ++ right).map clean.pages) clean.capacity clean.pwriteCount
      (_ :: clean.history) = _
    rw [frames, equation]
    dsimp only
    rw [Cache.flushFrame_capacity]
    rfl
  · intro other inside
    rw [unlinking]
    exact kept other inside

/-- Installing the page in the frame that was taken for it. -/
theorem fetch_installs {room : Cache} (pooled : pool.Pooled order) (nonneg : 0 ≤ pageId)
    (absent : ∀ other ∈ order, (pool.pages other).pageId ≠ pageId)
    (acquired : (pool.view order).acquire true = some room) {taken : BufferPoolManager} {next : List Nat}
    (took : pool.takeFrame = some (frameId, taken)) (unlisted : taken.Taken next frameId)
    (view : taken.view next = room) (listed : ∀ other ∈ order, other ∈ frameId :: next)
    (kept : ∀ other ∈ next, taken.pages other = pool.pages other)
    (unused : frameId ∈ order → (pool.pages frameId).pinCount = 0) (subset : next ⊆ order) :
    FetchAgrees pool (pool.view order) pageId := by
  have missing : ∀ other ∈ next, (taken.pages other).pageId ≠ pageId := by
    intro other member
    rw [kept other member]
    exact absent other (subset member)
  have read : taken.fd.pread Bytes.zero (pageId.toInt * pageSize) = some (room.onFile pageId) := by
    rw [fileOffset_eq nonneg, ← view]
    exact File.pread_zeroed
  obtain ⟨installed, image, holds, others⟩ := unlisted.install (room.onFile pageId) nonneg missing
  rw [FetchAgrees, Cache.fetch_miss nonneg (view_absent absent) acquired]
  simp only [fetchPage, pooled.missing absent, took, Option.bind_eq_bind, read, Option.bind_some]
  refine .some ⟨pooled.follows installed ?_ ?_, rfl, ?_⟩
  · rw [image, view]
    have history : taken.history = room.history := by rw [← view]; rfl
    rw [history]
  · intro other member
    refine ⟨listed other member, fun used => ?_⟩
    rcases List.mem_cons.mp (listed other member) with rfl | inside
    · exact absurd (unused member) used
    · rw [others other inside, kept other inside]
  · rintro found same
    cases same
    exact holds

/-- `FetchPage` is the cache's fetch with an allocator that never refuses. -/
theorem fetch_agrees (pooled : pool.Pooled order) (nonneg : 0 ≤ pageId) :
    FetchAgrees pool (pool.view order) pageId := by
  by_cases cached : ∃ frameId ∈ order, (pool.pages frameId).pageId = pageId
  · obtain ⟨frameId, member, rfl⟩ := cached
    exact pooled.fetch_hit member
  have absent : ∀ frameId ∈ order, (pool.pages frameId).pageId ≠ pageId :=
    fun frameId member same => cached ⟨frameId, member, same⟩
  have length := pooled.view_length
  cases free : pool.freeFrames with
  | cons frameId rest =>
      obtain ⟨took, taken⟩ := pooled.take_free free
      rw [free, List.length_cons] at length
      have acquired : (pool.view order).acquire true = some (pool.view order) := by
        apply Cache.acquire_room
        change _ < (pool.capacity : Int)
        omega
      exact pooled.fetch_installs nonneg absent acquired took taken rfl
        (fun other member => List.mem_cons_of_mem frameId member) (fun _ _ => rfl)
        (fun member => absurd member taken.unlisted) (fun _ member => member)
  | nil =>
      rw [free, List.length_nil] at length
      have filled : (pool.view order).capacity ≤ (pool.view order).frames.length := by
        change (pool.capacity : Int) ≤ _
        omega
      cases last : takeLast (Cache.unpinned ∘ pool.pages) order with
      | none =>
          have pinned := takeLast_none.mp last
          have refused : (pool.view order).acquire true = none := by
            apply Cache.acquire_refused filled
            intro frame member
            obtain ⟨frameId, inside, rfl⟩ := List.mem_map.mp member
            exact pinned frameId inside
          rw [FetchAgrees, Cache.fetch_refused nonneg (view_absent absent) refused]
          simp only [fetchPage, pooled.missing absent, pooled.take_refused free pinned]
          refine .some ⟨pooled.follows pooled rfl fun _ inside => ⟨inside, fun _ => rfl⟩, rfl, ?_⟩
          rintro found same
          cases same
      | some pair =>
          obtain ⟨victim, rest⟩ := pair
          obtain ⟨left, right, rfl, rfl, unpinned, pinned⟩ := takeLast_some last
          obtain ⟨taken, took, unlisted, view, kept⟩ := pooled.take_evicts free unpinned pinned
          have acquired := Cache.acquire_evicts true filled
            (show _ = left.map pool.pages ++ pool.pages victim :: right.map pool.pages by
              simp [BufferPoolManager.view]) unpinned (by
                intro frame member
                obtain ⟨frameId, inside, rfl⟩ := List.mem_map.mp member
                exact pinned frameId inside)
          refine pooled.fetch_installs nonneg absent acquired took unlisted ?_ ?_ kept ?_ ?_
          · rw [view, List.map_append]
          · exact fun other member => List.perm_middle.mem_iff.mp member
          · intro _
            simpa [Cache.unpinned] using unpinned
          · exact fun other member => List.perm_middle.mem_iff.mpr (List.mem_cons_of_mem victim member)

end Pooled

end BufferPoolManager

end HundredDays.PagedStorage
