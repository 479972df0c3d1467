import HundredDays.PagedStorage.PageGuard

namespace HundredDays.PagedStorage

open HundredDays.Memory

/-! What the operations of the pool do to the pins and the dirty flags of the pages. -/

namespace BufferPoolManager

variable {pool taken after : BufferPoolManager} {order next left right : List Nat} {frameId other : Nat}
  {pageId page victim : Int32} {isDirty : Bool}

/-- The frames in use are those of the LRU list, and are found by their page ids. -/
structure Shelved (pool : BufferPoolManager) (order : List Nat) : Prop where
  threads : pool.Threads order
  free : pool.freeFrames.Nodup ∧ ∀ frameId ∈ pool.freeFrames, frameId ∉ order
  table : ∀ pageId frameId, pool.pageTable pageId = some frameId ↔
    frameId ∈ order ∧ (pool.pages frameId).pageId = pageId

theorem Pooled.shelved (pooled : pool.Pooled order) : pool.Shelved order :=
  ⟨pooled.threads, pooled.free, pooled.table⟩

theorem pins_found (found : pool.pageTable pageId = some frameId) :
    pool.pins pageId = (pool.pages frameId).pinCount := by
  rw [pins, found]
  rfl

theorem dirty_found (found : pool.pageTable pageId = some frameId) :
    pool.dirty pageId = (pool.pages frameId).isDirty := by
  rw [dirty, found]
  rfl

theorem pins_missing (missing : pool.pageTable pageId = none) : pool.pins pageId = 0 := by
  rw [pins, missing]
  rfl

theorem dirty_missing (missing : pool.pageTable pageId = none) : pool.dirty pageId = false := by
  rw [dirty, missing]
  rfl

theorem found_of_pins (pinned : 0 < pool.pins pageId) : ∃ frameId, pool.pageTable pageId = some frameId := by
  cases found : pool.pageTable pageId with
  | none =>
      rw [pins_missing found] at pinned
      exact absurd pinned (Nat.lt_irrefl 0)
  | some frameId => exact ⟨frameId, rfl⟩

/-- Two pools that agree on a page. -/
structure Agrees (pool after : BufferPoolManager) (page : Int32) : Prop where
  table : after.pageTable page = pool.pageTable page
  pins : after.pins page = pool.pins page
  dirty : after.dirty page = pool.dirty page

theorem Threads.congr (threads : pool.Threads order) (list : after.lruList = pool.lruList)
    (map : after.lruMap = pool.lruMap) (iterators : after.iterators = pool.iterators) : after.Threads order := by
  refine ⟨?_, threads.nodup, ?_, ?_, ?_⟩
  · rw [list]
    exact threads.listed
  · rw [list]
    exact threads.distinct
  · rw [list, iterators]
    exact threads.earlier
  · rw [list, map]
    exact threads.mapped

theorem Agrees.of_pages (table : after.pageTable page = pool.pageTable page)
    (pages : ∀ frameId, pool.pageTable page = some frameId → after.pages frameId = pool.pages frameId) :
    pool.Agrees after page := by
  cases found : pool.pageTable page with
  | none =>
      have missing := table.trans found
      exact ⟨table, by rw [pins_missing missing, pins_missing found], by rw [dirty_missing missing, dirty_missing found]⟩
  | some frameId =>
      have there := table.trans found
      have same := pages frameId found
      exact ⟨table, by rw [pins_found there, pins_found found, same], by rw [dirty_found there, dirty_found found, same]⟩

theorem Agrees.trans {last : BufferPoolManager} (first : pool.Agrees after page) (second : after.Agrees last page) :
    pool.Agrees last page :=
  ⟨second.table.trans first.table, second.pins.trans first.pins, second.dirty.trans first.dirty⟩

namespace Shelved

theorem id_injective (shelved : pool.Shelved order) (found : pool.pageTable pageId = some frameId)
    (same : pool.pageTable page = some frameId) : pageId = page :=
  ((shelved.table _ _).mp found).2.symm.trans ((shelved.table _ _).mp same).2

/-- Only the LRU list and the page ids of the listed frames matter. -/
theorem congr (shelved : pool.Shelved order) (threads : after.Threads order)
    (free : after.freeFrames = pool.freeFrames) (table : after.pageTable = pool.pageTable)
    (ids : ∀ frameId ∈ order, (after.pages frameId).pageId = (pool.pages frameId).pageId) : after.Shelved order := by
  refine ⟨threads, free ▸ shelved.free, fun pageId frameId => ?_⟩
  rw [table, shelved.table]
  apply and_congr_right
  intro member
  rw [ids frameId member]

/-- A change to the frame of one page is seen in that page only. -/
theorem setPage (shelved : pool.Shelved order) (found : pool.pageTable pageId = some frameId) (change : Frame → Frame)
    (keeps : ∀ frame, (change frame).pageId = frame.pageId) :
    (pool.setPage frameId change).Shelved order ∧
      (pool.setPage frameId change).pins pageId = (change (pool.pages frameId)).pinCount ∧
      (pool.setPage frameId change).dirty pageId = (change (pool.pages frameId)).isDirty ∧
      ∀ page, page ≠ pageId → pool.Agrees (pool.setPage frameId change) page := by
  have ids : ∀ other, ((pool.setPage frameId change).pages other).pageId = (pool.pages other).pageId := by
    intro other
    by_cases same : other = frameId
    · rw [same, pages_setPage_self, keeps]
    · rw [pages_setPage_other same]
  have still : (pool.setPage frameId change).pageTable pageId = some frameId := found
  refine ⟨shelved.congr (shelved.threads.congr rfl rfl rfl) rfl rfl fun other _ => ids other, ?_, ?_, fun page differs => ?_⟩
  · rw [pins_found still, pages_setPage_self]
  · rw [dirty_found still, pages_setPage_self]
  · apply Agrees.of_pages
    · rfl
    · intro other elsewhere
      apply pages_setPage_other
      intro same
      subst same
      exact differs (shelved.id_injective elsewhere found)

/-! ### Unpinning, writing and flushing -/

theorem unpin (shelved : pool.Shelved order) (found : pool.pageTable pageId = some frameId) (isDirty : Bool) :
    (pool.unpinPage pageId isDirty).Shelved order ∧
      (pool.unpinPage pageId isDirty).pageTable = pool.pageTable ∧
      (pool.unpinPage pageId isDirty).pins pageId = pool.pins pageId - 1 ∧
      (pool.unpinPage pageId isDirty).dirty pageId = (isDirty || pool.dirty pageId) ∧
      ∀ page, page ≠ pageId → pool.Agrees (pool.unpinPage pageId isDirty) page := by
  rw [unpinPage_eq found, pins_found found, dirty_found found]
  obtain ⟨kept, pins, dirty, others⟩ := shelved.setPage found (fun page =>
    { page with isDirty := isDirty || page.isDirty, pinCount := page.pinCount - 1 }) fun _ => rfl
  exact ⟨kept, rfl, pins, dirty, others⟩

theorem write (shelved : pool.Shelved order) (found : pool.pageTable pageId = some frameId) (data : Bytes) :
    (pool.setData frameId fun _ => data).Shelved order ∧
      ∀ page, pool.Agrees (pool.setData frameId fun _ => data) page := by
  obtain ⟨kept, pins, dirty, others⟩ := shelved.setPage found (fun page => { page with data }) fun _ => rfl
  refine ⟨kept, fun page => ?_⟩
  by_cases same : page = pageId
  · subst same
    exact ⟨rfl, pins.trans (pins_found found).symm, dirty.trans (dirty_found found).symm⟩
  · exact others page same

/-- A flush changes the file, the counters and the dirty flag of the page. -/
theorem flushPage_found (found : pool.pageTable pageId = some frameId) : ∃ fd pwriteCount history,
    pool.flushPage pageId = { pool with fd, pwriteCount, history }.setPage frameId fun page =>
      { page with isDirty := page.isDirty && !pool.writesBack pageId } := by
  simp only [BufferPoolManager.flushPage, writesBack, found]
  cases dirty : (pool.pages frameId).isDirty with
  | false =>
      refine ⟨pool.fd, pool.pwriteCount, pool.history, ?_⟩
      simp only [Bool.false_eq_true, if_false]
      exact (setPage_self (Frame.ext rfl rfl rfl (by simp [dirty]))).symm
  | true =>
      cases called : pool.fd.pwrite (pool.pages frameId).data (pageId.toInt * pageSize) with
      | mk written fd =>
          by_cases whole : written = pageSize
          · exact ⟨_, _, _, by simp [whole]; rfl⟩
          · exact ⟨_, _, _, by simp [whole]; exact (setPage_self (by simp)).symm⟩

theorem flush (shelved : pool.Shelved order) (pageId : Int32) :
    (pool.flushPage pageId).Shelved order ∧ (pool.flushPage pageId).pageTable = pool.pageTable ∧
      (pool.flushPage pageId).freeFrames = pool.freeFrames ∧
      (pool.flushPage pageId).pins pageId = pool.pins pageId ∧
      (pool.flushPage pageId).dirty pageId = (pool.dirty pageId && !pool.writesBack pageId) ∧
      ∀ page, page ≠ pageId → pool.Agrees (pool.flushPage pageId) page := by
  cases found : pool.pageTable pageId with
  | none =>
      have same : pool.flushPage pageId = pool := by
        simp only [flushPage, found]
      rw [same, dirty_missing found]
      exact ⟨shelved, rfl, rfl, rfl, rfl, fun _ _ => ⟨rfl, rfl, rfl⟩⟩
  | some frameId =>
      obtain ⟨fd, pwriteCount, history, equation⟩ := flushPage_found found
      have moved : ({ pool with fd, pwriteCount, history } : BufferPoolManager).Shelved order :=
        shelved.congr (shelved.threads.congr rfl rfl rfl) rfl rfl fun _ _ => rfl
      obtain ⟨kept, pins, dirty, others⟩ := moved.setPage found
        (fun page => { page with isDirty := page.isDirty && !pool.writesBack pageId }) fun _ => rfl
      rw [equation, pins_found found, dirty_found found]
      refine ⟨kept, rfl, rfl, pins, dirty, fun page differs => ?_⟩
      have still : pool.Agrees { pool with fd, pwriteCount, history } page := .of_pages rfl fun _ _ => rfl
      exact still.trans (others page differs)

end Shelved

/-! ### Fetching -/

/-- A frame was taken for a page and is in no list. -/
structure Spared (taken : BufferPoolManager) (next : List Nat) (frameId : Nat) : Prop where
  threads : taken.Threads next
  unlisted : frameId ∉ next
  free : taken.freeFrames.Nodup ∧ ∀ other ∈ taken.freeFrames, other ∉ next ∧ other ≠ frameId
  table : ∀ pageId other, taken.pageTable pageId = some other ↔
    other ∈ next ∧ (taken.pages other).pageId = pageId

/-- What a fetch that returns a frame does. -/
structure Brings (pool after : BufferPoolManager) (pageId : Int32) (frameId : Nat) : Prop where
  shelved : ∃ order, after.Shelved order
  found : after.pageTable pageId = some frameId
  stays : ∀ other, pool.pageTable pageId = some other → other = frameId
  pins : after.pins pageId = pool.pins pageId + 1
  dirty : after.dirty pageId = pool.dirty pageId
  others : ∀ page, page ≠ pageId → pool.evicts pageId ≠ some page → pool.Agrees after page
  evicted : ∀ page, pool.evicts pageId = some page →
    page ≠ pageId ∧ pool.pins page = 0 ∧ after.pageTable page = none

theorem Spared.install (spared : taken.Spared next frameId) (missing : taken.pageTable pageId = none)
    (data : Bytes) (event : Event) {installed : BufferPoolManager}
    (equation : installed = ((taken.setPage frameId fun _ => { pageId, pinCount := 1, isDirty := false, data }).setTable
      pageId (some frameId)).touchLRU frameId) :
    (installed.record event).Shelved (frameId :: next) ∧ (installed.record event).pageTable pageId = some frameId ∧
      (installed.record event).pins pageId = 1 ∧ (installed.record event).dirty pageId = false ∧
      ∀ page, page ≠ pageId → taken.Agrees (installed.record event) page := by
  let filled := (taken.setPage frameId fun _ => { pageId, pinCount := 1, isDirty := false, data }).setTable
    pageId (some frameId)
  have threads : filled.Threads next := spared.threads.congr rfl rfl rfl
  have touched := threads.touch_absent spared.unlisted
  obtain ⟨lruList, lruMap, iterators, touching⟩ := touchLRU_eq filled frameId
  change installed = filled.touchLRU frameId at equation
  rw [equation]
  have table : ((filled.touchLRU frameId).record event).pageTable =
      Function.update taken.pageTable pageId (some frameId) := by
    rw [touching]
    rfl
  have pages : ∀ other, ((filled.touchLRU frameId).record event).pages other =
      (taken.setPage frameId fun _ => { pageId, pinCount := 1, isDirty := false, data }).pages other := by
    rw [touching]
    exact fun _ => rfl
  have free : ((filled.touchLRU frameId).record event).freeFrames = taken.freeFrames := by
    rw [touching]
    rfl
  have here : ((filled.touchLRU frameId).record event).pageTable pageId = some frameId := by
    rw [table, Function.update_self]
  have content := (pages frameId).trans pages_setPage_self
  refine ⟨⟨touched.congr rfl rfl rfl, ?_, fun page other => ?_⟩, here, ?_, ?_, fun page differs => ?_⟩
  · rw [free]
    refine ⟨spared.free.1, fun other member listed => ?_⟩
    obtain ⟨unlisted, differs⟩ := spared.free.2 other member
    cases List.mem_cons.mp listed with
    | inl same => exact differs same
    | inr inside => exact unlisted inside
  · rw [table, List.mem_cons]
    by_cases newest : other = frameId
    · subst newest
      rw [content]
      by_cases same : page = pageId
      · subst same
        simp
      · rw [Function.update_of_ne same, spared.table]
        simp [spared.unlisted, Ne.symm same]
    · rw [pages, pages_setPage_other newest, or_iff_right newest, ← spared.table]
      by_cases same : page = pageId
      · subst same
        rw [Function.update_self, missing]
        simp [Ne.symm newest]
      · rw [Function.update_of_ne same]
  · rw [pins_found here, content]
  · rw [dirty_found here, content]
  · apply Agrees.of_pages
    · rw [table, Function.update_of_ne differs]
    · intro other elsewhere
      rw [pages]
      apply pages_setPage_other
      intro same
      subst same
      exact spared.unlisted ((spared.table _ _).mp elsewhere).1

namespace Brings

/-- Only the page that is fetched is pinned once more. -/
theorem pins_eq (brings : pool.Brings after pageId frameId) (page : Int32) :
    after.pins page = pool.pins page + if page = pageId then 1 else 0 := by
  by_cases same : page = pageId
  · subst same
    rw [if_pos rfl, brings.pins]
  · rw [if_neg same, Nat.add_zero]
    by_cases gone : pool.evicts pageId = some page
    · obtain ⟨_, idle, missing⟩ := brings.evicted page gone
      rw [pins_missing missing, idle]
    · exact (brings.others page same gone).pins

/-- A page that is pinned stays in its frame. -/
theorem table_eq (brings : pool.Brings after pageId frameId) (pinned : 0 < pool.pins page) :
    after.pageTable page = pool.pageTable page := by
  by_cases same : page = pageId
  · subst same
    obtain ⟨other, found⟩ := found_of_pins pinned
    rw [brings.found, found, brings.stays other found]
  · apply (brings.others page same _).table
    intro gone
    rw [(brings.evicted page gone).2.1] at pinned
    exact absurd pinned (Nat.lt_irrefl 0)

end Brings

namespace Shelved

/-- The frame of a page that is evicted. -/
theorem unshelve (shelved : pool.Shelved order) (found : pool.pageTable victim = some frameId)
    (full : pool.freeFrames = []) (event : Event) : ∃ next,
      (((pool.setTable victim none).unlinkLRU frameId).record event).Spared next frameId ∧
      (((pool.setTable victim none).unlinkLRU frameId).record event).pageTable victim = none ∧
      ∀ page, page ≠ victim → pool.Agrees (((pool.setTable victim none).unlinkLRU frameId).record event) page := by
  obtain ⟨listed, label⟩ := (shelved.table _ _).mp found
  obtain ⟨left, right, split⟩ := List.append_of_mem listed
  subst split
  have threads : (pool.setTable victim none).Threads (left ++ frameId :: right) := shelved.threads.congr rfl rfl rfl
  have unlinked := threads.unlink
  have distinct := shelved.threads.nodup
  rw [List.nodup_middle, List.nodup_cons] at distinct
  have members : ∀ other, other ∈ left ++ frameId :: right ↔ other = frameId ∨ other ∈ left ++ right := by
    intro other
    rw [List.perm_middle.mem_iff, List.mem_cons]
  obtain ⟨lruList, lruMap, iterators, unlinking⟩ := unlinkLRU_eq (pool.setTable victim none) frameId
  rw [unlinking] at unlinked ⊢
  refine ⟨left ++ right, ⟨unlinked.congr rfl rfl rfl, distinct.1, ?_, fun page other => ?_⟩, Function.update_self ..,
    fun page differs => ?_⟩
  · change pool.freeFrames.Nodup ∧ ∀ other ∈ pool.freeFrames, _
    simp [full]
  · change Function.update pool.pageTable victim none page = some other ↔
      other ∈ left ++ right ∧ (pool.pages other).pageId = page
    by_cases same : page = victim
    · subst same
      rw [Function.update_self]
      constructor
      · intro impossible
        cases impossible
      · intro kept
        have here := (shelved.table _ _).mpr ⟨(members other).mpr (.inr kept.1), kept.2⟩
        cases found.symm.trans here
        exact absurd kept.1 distinct.1
    · rw [Function.update_of_ne same, shelved.table, members]
      constructor
      · intro kept
        obtain ⟨first | inside, ids⟩ := kept
        · subst first
          exact absurd (ids.symm.trans label) same
        · exact ⟨inside, ids⟩
      · intro kept
        exact ⟨.inr kept.1, kept.2⟩
  · apply Agrees.of_pages
    · exact Function.update_of_ne differs _ _
    · exact fun _ _ => rfl

/-- A frame comes from the free ones, or from the page that is evicted. -/
theorem take (shelved : pool.Shelved order) (missing : pool.pageTable pageId = none)
    (took : pool.takeFrame = some (frameId, taken)) : ∃ next, taken.Spared next frameId ∧
      (∀ page, pool.evicts pageId ≠ some page → pool.Agrees taken page) ∧
      ∀ page, pool.evicts pageId = some page → page ≠ pageId ∧ pool.pins page = 0 ∧ taken.pageTable page = none := by
  simp only [takeFrame] at took
  simp only [evicts, missing]
  cases free : pool.freeFrames with
  | cons first rest =>
      rw [free] at took
      cases took
      obtain ⟨nodup, unlisted⟩ := shelved.free
      rw [free] at nodup unlisted
      obtain ⟨fresh, distinct⟩ := List.nodup_cons.mp nodup
      refine ⟨order, ⟨shelved.threads.congr rfl rfl rfl, unlisted frameId List.mem_cons_self, ⟨distinct, ?_⟩,
        shelved.table⟩, fun page _ => .of_pages rfl fun _ _ => rfl, by simp⟩
      intro other member
      exact ⟨unlisted other (List.mem_cons_of_mem _ member), fun same => fresh (same ▸ member)⟩
  | nil =>
      rw [free] at took
      obtain ⟨node, seen, made⟩ := Option.map_eq_some_iff.mp took
      rw [seen]
      have idle : (pool.pages node.frameId).pinCount = 0 := by simpa using List.find?_some seen
      have listed : node.frameId ∈ order := by
        rw [← shelved.threads.listed]
        exact List.mem_map_of_mem (List.mem_reverse.mp (List.mem_of_find?_eq_some seen))
      have cached : pool.pageTable (pool.pages node.frameId).pageId = some node.frameId :=
        (shelved.table _ _).mpr ⟨listed, rfl⟩
      obtain ⟨clean, table, frames, _, _, others⟩ := shelved.flush (pool.pages node.frameId).pageId
      have label : ((pool.flushPage (pool.pages node.frameId).pageId).pages node.frameId).pageId =
          (pool.pages node.frameId).pageId := ((clean.table _ _).mp (table ▸ cached)).2
      rw [label] at made
      cases made
      obtain ⟨next, spared, gone, kept⟩ := clean.unshelve (table ▸ cached) (frames.trans free)
        (.evicted (pool.pages node.frameId).pageId)
      refine ⟨next, spared, fun page differs => ?_, fun page evicted => ?_⟩
      · have apart : page ≠ (pool.pages node.frameId).pageId := fun same => differs (congrArg some same.symm)
        exact (others page apart).trans (kept page apart)
      · have here : (pool.pages node.frameId).pageId = page := Option.some.inj evicted
        subst here
        refine ⟨fun same => ?_, (pins_found cached).trans idle, gone⟩
        rw [same, missing] at cached
        cases cached

/-- A hit pins the page once more. -/
theorem hit (shelved : pool.Shelved order) (found : pool.pageTable pageId = some frameId) (event : Event) :
    pool.Brings (((pool.setPage frameId fun page => { page with pinCount := page.pinCount + 1 }).touchLRU
      frameId).record event) pageId frameId := by
  obtain ⟨kept, pins, dirty, others⟩ := shelved.setPage found
    (fun page => { page with pinCount := page.pinCount + 1 }) fun _ => rfl
  obtain ⟨listed, _⟩ := (shelved.table _ _).mp found
  obtain ⟨left, right, split⟩ := List.append_of_mem listed
  subst split
  have touched := kept.threads.touch
  have perm : (frameId :: (left ++ right)).Perm (left ++ frameId :: right) := List.perm_middle.symm
  generalize pinned : (pool.setPage frameId fun page => { page with pinCount := page.pinCount + 1 }) = middle at *
  obtain ⟨lruList, lruMap, iterators, touching⟩ := touchLRU_eq middle frameId
  rw [touching] at touched ⊢
  have same : ∀ page, middle.Agrees ((middle.withLRU lruList lruMap iterators).record event) page := by
    intro page
    apply Agrees.of_pages
    · rfl
    · exact fun _ _ => rfl
  have still : middle.pageTable = pool.pageTable := by rw [← pinned]; rfl
  refine ⟨⟨_, touched.congr rfl rfl rfl, ?_, ?_⟩, ?_, fun other there => ?_, ?_, ?_,
    fun page differs _ => (others page differs).trans (same page), by simp [evicts, found]⟩
  · exact ⟨kept.free.1, fun other member inside => kept.free.2 other member (perm.mem_iff.mp inside)⟩
  · intro page other
    rw [perm.mem_iff]
    exact kept.table page other
  · exact (congrFun still pageId).trans found
  · cases found.symm.trans there
    rfl
  · rw [(same pageId).pins, pins, pins_found found]
  · rw [(same pageId).dirty, dirty, dirty_found found]

/-- A fetch without a frame leaves everything alone. -/
theorem fetch (shelved : pool.Shelved order) {result : Option Nat}
    (fetched : pool.fetchAny pageId = some (result, after)) :
    (result = none ∧ after = pool ∧ pool.evicts pageId = none) ∨
      ∃ frameId, result = some frameId ∧ pool.Brings after pageId frameId := by
  simp only [fetchAny] at fetched
  cases found : pool.pageTable pageId with
  | some frameId =>
      rw [found] at fetched
      dsimp only at fetched
      split at fetched
      next =>
        cases fetched
        exact .inr ⟨frameId, rfl, shelved.hit found _⟩
      next => cases fetched
  | none =>
      rw [found] at fetched
      dsimp only at fetched
      cases took : pool.takeFrame with
      | none =>
          rw [took] at fetched
          cases fetched
          refine .inl ⟨rfl, rfl, ?_⟩
          simp only [takeFrame] at took
          simp only [evicts, found]
          cases free : pool.freeFrames with
          | cons first rest => rfl
          | nil =>
              rw [free] at took
              exact Option.map_eq_none_iff.mpr (Option.map_eq_none_iff.mp took)
      | some pair =>
          obtain ⟨frameId, taken⟩ := pair
          rw [took] at fetched
          cases fetched
          obtain ⟨next, spared, others, evicted⟩ := shelved.take found took
          have missing : taken.pageTable pageId = none := by
            by_cases gone : pool.evicts pageId = some pageId
            · exact (evicted pageId gone).2.2
            · exact (others pageId gone).table.trans found
          obtain ⟨installed, here, pins, dirty, elsewhere⟩ := spared.install missing
            ((taken.fd.pread Bytes.zero (pageId.toInt * pageSize)).getD Bytes.zero) (.touched pageId) rfl
          refine .inr ⟨frameId, rfl, ⟨_, installed⟩, here, by simp [found], ?_, ?_, fun page differs kept => ?_, fun page gone => ?_⟩
          · rw [pins, pins_missing found]
          · rw [dirty, dirty_missing found]
          · exact (others page kept).trans (elsewhere page differs)
          · obtain ⟨differs, idle, lost⟩ := evicted page gone
            exact ⟨differs, idle, (elsewhere page differs).table.trans lost⟩

end Shelved

end BufferPoolManager

end HundredDays.PagedStorage
