import HundredDays.PagedStorage.Primitives
import HundredDays.PagedStorage.Refinement

namespace HundredDays.PagedStorage

open HundredDays.Data HundredDays.Memory

/-! Every operation of the C pager is an operation of the page cache. -/

variable {pager after : Pager} {node : Addr} {order next : List Addr}
  {buckets chains : Nat → List Addr} {pageId : Int32} {cache image : Cache}

/-- The allocator never refuses. -/
def Pager.Generous (pager : Pager) : Prop := ∀ calls live, (pager.heap.oracle.answer calls live).isSome

def pagerAbstraction : Abstraction Pager Addr where
  Implements := Pager.Implements
  Holds := Pager.Holds
  Generous := Pager.Generous

/-- The C pager as a page store.  A page is flushed through the pointer that
`hash_find` has for it. -/
def cPager : PageStore Pager Addr where
  fetch := pagerFetch
  read pager node := (pager.page node).data
  write pager node data := pager.setData node fun _ => data
  unpin pager node isDirty := pagerUnpin pager (some node) isDirty
  flush pager pageId := (hashFind pager pageId).map fun
    | none => pager
    | some node => pagerFlush pager node
  allocPage := pagerAllocPage
  freePage := pagerFreePage

theorem Pager.Generous.memory (generous : pager.Generous) : pager.memory = true := by
  have answered := generous pager.heap.calls pager.heap.live
  obtain ⟨address, answer⟩ := Option.isSome_iff_exists.mp answered
  simp [Pager.memory, Heap.malloc, answer]

theorem Pager.Generous.congr (generous : pager.Generous)
    (oracle : after.heap.oracle = pager.heap.oracle) : after.Generous := by
  rw [Pager.Generous, oracle]
  exact generous

namespace Structured

theorem holds_iff (structured : Structured pager order buckets) :
    pager.Holds node pageId ↔ node ∈ order ∧ pager.idAt node = pageId :=
  structured.hashFind_iff

/-- The pins that the cache counts for a page are those of its node. -/
theorem pinned_iff {count : Nat} (structured : Structured pager order buckets)
    (holds : pager.Holds node pageId) :
    (pager.view order).Pinned pageId count ↔ count ≤ (pager.page node).pinCount := by
  obtain ⟨member, label⟩ := structured.holds_iff.mp holds
  constructor
  · rintro ⟨frame, listed, same, enough⟩
    obtain ⟨other, inside, rfl⟩ := List.mem_map.mp listed
    have here : other = node := structured.id_injective inside member (same.trans label.symm)
    subst here
    exact enough
  · intro enough
    exact ⟨pager.frameAt node, List.mem_map_of_mem member, label, enough⟩

theorem pinned_node (structured : Structured pager order buckets) (holds : pager.Holds node pageId)
    (pinned : (pager.view order).Pinned pageId 1) : (pager.page node).pinCount ≠ 0 :=
  Nat.one_le_iff_ne_zero.mp ((structured.pinned_iff holds).mp pinned)

/-- A step of the pager that keeps the nodes in use follows the cache. -/
theorem follows (structured : Structured pager order buckets) (stepped : Structured after next chains)
    (view : after.view next = image) (oracle : after.heap.oracle = pager.heap.oracle)
    (kept : ∀ other ∈ order, other ∈ next ∧
      ((pager.page other).pinCount ≠ 0 → after.idAt other = pager.idAt other)) :
    pagerAbstraction.Follows pager (pager.view order) after image where
  implements := ⟨next, chains, stepped, view⟩
  generous := fun generous => generous.congr oracle
  pinned := by
    intro other pageId holds pinned
    obtain ⟨member, label⟩ := structured.holds_iff.mp holds
    obtain ⟨inside, same⟩ := kept other member
    exact stepped.holds_iff.mpr ⟨inside, (same (structured.pinned_node holds pinned)).trans label⟩
  valid := by
    intro other pageId holds
    obtain ⟨member, _⟩ := structured.holds_iff.mp holds
    exact ⟨_, stepped.holds_iff.mpr ⟨(kept other member).1, rfl⟩⟩

/-- What a fetch through the pager and a fetch through the cache have in common. -/
def FetchAgrees (pager : Pager) (cache : Cache) (pageId : Int32) : Prop :=
  Option.Rel (fun result image => pagerAbstraction.Follows pager cache result.2 image.2 ∧
      result.1.isSome = image.1 ∧ ∀ page, result.1 = some page → result.2.Holds page pageId)
    (pagerFetch pager pageId) (cache.fetch pager.memory pageId)

theorem fetch_hit (structured : Structured pager order buckets) (member : node ∈ order) :
    FetchAgrees pager (pager.view order) (pager.idAt node) := by
  obtain ⟨left, right, rfl⟩ := List.append_of_mem member
  obtain ⟨fetched, done, listed, view, ids, heap, _⟩ := structured.pagerFetch_hit
  have absent : ∀ frame ∈ left.map pager.frameAt, frame.pageId ≠ pager.idAt node := by
    intro frame inside same
    obtain ⟨other, before, rfl⟩ := List.mem_map.mp inside
    have here := structured.id_injective (by simp [before]) member same
    exact structured.not_mem_of_split (by simp [← here, before])
  have split : (pager.view (left ++ node :: right)).frames =
      left.map pager.frameAt ++ pager.frameAt node :: right.map pager.frameAt := by
    simp [Pager.view]
  rw [FetchAgrees, done, Cache.fetch_hit (structured.nonneg node member) split rfl absent]
  refine .some ⟨structured.follows listed ?_ (by rw [heap]) ?_, rfl, ?_⟩
  · rw [view, List.map_append]
    rfl
  · intro other inside
    exact ⟨List.perm_middle.mem_iff.mp inside, fun _ => by rw [ids]⟩
  · rintro page same
    cases same
    exact listed.holds_iff.mpr ⟨List.mem_cons_self, by rw [ids]⟩

theorem fetch_evicts (structured : Structured pager order buckets) (nonneg : 0 ≤ pageId)
    (absent : ∀ node ∈ order, pager.idAt node ≠ pageId) (full : pager.capacity ≤ pager.lruList.size)
    (free : ∃ node ∈ order, Cache.unpinned (pager.frameAt node) = true) :
    FetchAgrees pager (pager.view order) pageId := by
  cases taken : takeLast (Cache.unpinned ∘ pager.frameAt) order with
  | none =>
      obtain ⟨node, member, unpinned⟩ := free
      have pinned := takeLast_none.mp taken node member
      simp [unpinned] at pinned
  | some pair =>
      obtain ⟨victim, rest⟩ := pair
      obtain ⟨left, right, rfl, rfl, unpinned, pinned⟩ := takeLast_some taken
      obtain ⟨fetched, chains, done, listed, view, label, heap, kept⟩ :=
        structured.pagerFetch_evicts nonneg absent full unpinned pinned
      rw [FetchAgrees, done, ← view]
      refine .some ⟨structured.follows listed rfl (by rw [heap]) ?_, rfl, ?_⟩
      · intro other inside
        refine ⟨List.perm_middle.mem_iff.mp inside, fun used => ?_⟩
        rcases List.mem_cons.mp (List.perm_middle.mem_iff.mp inside) with rfl | remains
        · simp only [Function.comp, Cache.unpinned, beq_iff_eq] at unpinned
          exact absurd unpinned used
        · exact congrArg Frame.pageId (kept other remains)
      · rintro page same
        cases same
        exact listed.holds_iff.mpr ⟨List.mem_cons_self, label⟩

theorem fetch_refused (structured : Structured pager order buckets) (nonneg : 0 ≤ pageId)
    (absent : ∀ node ∈ order, pager.idAt node ≠ pageId) (full : pager.capacity ≤ pager.lruList.size)
    (pinned : ∀ node ∈ order, Cache.unpinned (pager.frameAt node) = false) :
    FetchAgrees pager (pager.view order) pageId := by
  have filled : (pager.view order).capacity ≤ (pager.view order).frames.length := by
    rw [structured.view_length]
    exact full
  have denied : (pager.view order).acquire pager.memory = none := by
    apply Cache.acquire_refused filled
    intro frame inside
    obtain ⟨node, member, rfl⟩ := List.mem_map.mp inside
    exact pinned node member
  rw [FetchAgrees, structured.pagerFetch_refused nonneg absent full pinned,
    Cache.fetch_refused nonneg (view_absent absent) denied]
  refine .some ⟨structured.follows structured rfl rfl fun _ inside => ⟨inside, fun _ => rfl⟩, rfl, ?_⟩
  rintro page same
  cases same

theorem fetch_room (structured : Structured pager order buckets) (nonneg : 0 ≤ pageId)
    (absent : ∀ node ∈ order, pager.idAt node ≠ pageId) (room : pager.lruList.size < pager.capacity) :
    FetchAgrees pager (pager.view order) pageId := by
  cases called : pager.heap.malloc with
  | mk granted heap =>
      cases granted with
      | none =>
          obtain ⟨live, oracle⟩ := Heap.malloc_none called
          obtain ⟨done, refused⟩ := structured.pagerFetch_denied nonneg absent room called
          rw [FetchAgrees, done, refused]
          have same : Structured { pager with heap } order buckets :=
            structured.congr rfl rfl rfl rfl (fun _ _ => rfl) rfl (fun _ inside => by rw [live]; exact inside)
          refine .some ⟨structured.follows same rfl oracle fun _ inside => ⟨inside, fun _ => rfl⟩, rfl, ?_⟩
          rintro page same
          cases same
      | some node =>
          obtain ⟨_, _, oracle⟩ := Heap.malloc_some called
          obtain ⟨fetched, chains, done, listed, view, label, heaps, kept⟩ :=
            structured.pagerFetch_allocates nonneg absent room called
          rw [FetchAgrees, done, ← view]
          refine .some ⟨structured.follows listed rfl (by rw [heaps, oracle]) ?_, rfl, ?_⟩
          · intro other inside
            exact ⟨List.mem_cons_of_mem node inside, fun _ => congrArg Frame.pageId (kept other inside)⟩
          · rintro page same
            cases same
            exact listed.holds_iff.mpr ⟨List.mem_cons_self, label⟩

/-- `pager_fetch` is the cache's fetch: hit, eviction, refusal, new node or no memory. -/
theorem fetch_agrees (structured : Structured pager order buckets) (nonneg : 0 ≤ pageId) :
    FetchAgrees pager (pager.view order) pageId := by
  by_cases cached : ∃ node ∈ order, pager.idAt node = pageId
  · obtain ⟨node, member, rfl⟩ := cached
    exact structured.fetch_hit member
  · have absent : ∀ node ∈ order, pager.idAt node ≠ pageId :=
      fun node member same => cached ⟨node, member, same⟩
    by_cases full : pager.capacity ≤ pager.lruList.size
    · by_cases free : ∃ node ∈ order, Cache.unpinned (pager.frameAt node) = true
      · exact structured.fetch_evicts nonneg absent full free
      · refine structured.fetch_refused nonneg absent full ?_
        intro node member
        exact Bool.eq_false_iff.mpr fun unpinned => free ⟨node, member, unpinned⟩
    · exact structured.fetch_room nonneg absent (by omega)

theorem fetch_defined (structured : Structured pager order buckets) (nonneg : 0 ≤ pageId) :
    ∃ outcome, pagerFetch pager pageId = some outcome := by
  have agrees := structured.fetch_agrees nonneg
  unfold FetchAgrees at agrees
  generalize pagerFetch pager pageId = outcome at agrees
  generalize imaged : (pager.view order).fetch pager.memory pageId = found at agrees
  cases agrees with
  | some => exact ⟨_, rfl⟩
  | none =>
      obtain ⟨result, answered⟩ : ∃ result, (pager.view order).fetch pager.memory pageId = some result :=
        Cache.fetch_defined nonneg
      rw [answered] at imaged
      contradiction

end Structured

namespace Pager

theorem Implements.distinct (implements : pager.Implements cache) : cache.Distinct := by
  obtain ⟨order, buckets, structured, rfl⟩ := implements
  rw [Cache.Distinct, view, List.map_map]
  exact structured.distinct

theorem Implements.read (implements : pager.Implements cache) (held : pager.Holds node pageId) :
    (pager.page node).data = cache.dataOf pageId := by
  have distinct := implements.distinct
  obtain ⟨order, buckets, structured, rfl⟩ := implements
  obtain ⟨member, rfl⟩ := structured.holds_iff.mp held
  exact (Cache.dataOf_eq distinct (List.mem_map_of_mem member)).symm

/-- Changing the contents of a node through a pointer to it. -/
theorem Implements.modify {change : Page → Page} {update : Frame → Frame}
    (implements : pager.Implements cache) (held : pager.Holds node pageId)
    (keeps : ∀ page, (change page).next = page.next ∧ (change page).prev = page.prev ∧
      (change page).hashNext = page.hashNext)
    (label : ∀ page, (change page).pageId = page.pageId)
    (agree : ∀ page, (change page).frame = update page.frame) :
    pagerAbstraction.Edits pager (pager.modify node change) (cache.update pageId update) := by
  obtain ⟨order, buckets, structured, rfl⟩ := implements
  obtain ⟨member, rfl⟩ := structured.holds_iff.mp held
  have changed : Structured (pager.modify node change) order buckets :=
    structured.modify keeps fun _ => label _
  refine ⟨⟨order, buckets, changed, structured.view_modify member update (agree _)⟩, id, ?_⟩
  intro other pageId found
  obtain ⟨inside, rfl⟩ := structured.holds_iff.mp found
  refine changed.holds_iff.mpr ⟨inside, ?_⟩
  by_cases same : other = node
  · subst same
    simp [idAt, Pager.modify, label]
  · simp [idAt, Pager.modify, same]

theorem Implements.setData (change : Bytes → Bytes) (implements : pager.Implements cache)
    (held : pager.Holds node pageId) :
    pagerAbstraction.Edits pager (pager.setData node change) (cache.setData pageId change) :=
  implements.modify held (fun _ => ⟨rfl, rfl, rfl⟩) (fun _ => rfl) fun _ => rfl

end Pager

theorem pagerUnpin_eq {isDirty : Bool} : pagerUnpin pager (some node) isDirty =
    pager.modify node fun page =>
      { page with isDirty := isDirty || page.isDirty, pinCount := page.pinCount - 1 } := by
  have same : ∀ count, ¬ count > 0 → count - 1 = count := fun count none => by omega
  cases isDirty with
  | false =>
      simp only [pagerUnpin, Bool.false_eq_true, if_false, Bool.false_or]
      split
      · rfl
      · rename_i unpinned
        exact (Pager.modify_self (by simp [same _ unpinned])).symm
  | true =>
      simp only [pagerUnpin, if_true, Bool.true_or]
      split
      · simp [Pager.modify]
      · rename_i unpinned
        have zero : (pager.page node).pinCount = 0 := by simpa [Pager.modify] using unpinned
        simp [Pager.modify, zero]

namespace Pager

theorem Implements.unpin (isDirty : Bool) (implements : pager.Implements cache)
    (held : pager.Holds node pageId) :
    pagerAbstraction.Edits pager (pagerUnpin pager (some node) isDirty) (cache.unpin pageId isDirty) := by
  rw [pagerUnpin_eq]
  exact implements.modify held (fun _ => ⟨rfl, rfl, rfl⟩) (fun _ => rfl) fun _ => rfl

theorem Implements.flush (implements : pager.Implements cache) (held : pager.Holds node pageId) :
    pagerAbstraction.Edits pager (pagerFlush pager node) (cache.flush pageId) := by
  obtain ⟨order, buckets, structured, rfl⟩ := implements
  obtain ⟨member, rfl⟩ := structured.holds_iff.mp held
  have flushed := structured.pagerFlush node
  refine ⟨⟨order, buckets, flushed, structured.view_pagerFlush member⟩, ?_, ?_⟩
  · rw [pagerFlush_eq pager node order]
    exact id
  · intro other pageId found
    obtain ⟨inside, rfl⟩ := structured.holds_iff.mp found
    refine flushed.holds_iff.mpr ⟨inside, ?_⟩
    rw [pagerFlush_eq pager node order]
    by_cases same : other = node
    · subst same
      simp [idAt, Pager.modify, follow]
    · simp [idAt, Pager.modify, follow, same]

end Pager

/-- The calls that allocating and freeing are made of. -/
def pagerPrimitives : Primitives Pager Addr where
  fetch := pagerFetch
  read pager node := (pager.page node).data
  setData := Pager.setData
  unpin pager node _ isDirty := pagerUnpin pager (some node) isDirty

theorem pagerPrimitives_sound : pagerPrimitives.Sound pagerAbstraction where
  distinct := Pager.Implements.distinct
  fetch := by
    rintro pager cache pageId ⟨order, buckets, structured, rfl⟩ nonneg
    exact ⟨pager.memory, fun generous => Pager.Generous.memory generous, structured.fetch_agrees nonneg⟩
  negative := by
    rintro pager cache pageId ⟨order, buckets, structured, rfl⟩ negative
    exact fun node after => structured.pagerFetch_negative negative
  read := Pager.Implements.read
  setData := Pager.Implements.setData
  unpin := Pager.Implements.unpin

theorem pagerAllocPage_eq : pagerAllocPage pager = pagerPrimitives.allocPage pager := by
  unfold pagerAllocPage Primitives.allocPage
  -- the pointers that are unpinned are the ones that the fetches returned
  apply Option.bind_congr
  rintro ⟨hdrPage, opened⟩ _
  apply Option.bind_congr
  rintro hdr rfl
  refine ite_congr rfl (fun _ => ?_) fun _ => rfl
  apply Option.bind_congr
  rintro ⟨freePage, reused⟩ _
  apply Option.bind_congr
  rintro free rfl
  rfl

theorem pagerFreePage_eq : pagerFreePage pager pageId = pagerPrimitives.freePage pager pageId := by
  unfold pagerFreePage Primitives.freePage
  refine ite_congr rfl (fun _ => rfl) fun _ => ?_
  apply Option.bind_congr
  rintro ⟨hdrPage, opened⟩ _
  apply Option.bind_congr
  rintro hdr rfl
  apply Option.bind_congr
  rintro ⟨target, reached⟩ _
  apply Option.bind_congr
  rintro freed rfl
  rfl

theorem alloc_agrees (implements : pager.Implements cache) :
    ∃ memory, (pager.Generous → memory = (true, true)) ∧
      Option.Rel (fun result image => result.1 = image.1 ∧
          pagerAbstraction.Follows pager cache result.2 image.2)
        (pagerAllocPage pager) (cache.allocPage memory.1 memory.2) := by
  rw [pagerAllocPage_eq]
  exact pagerPrimitives_sound.allocPage implements

theorem free_agrees (pageId : Int32) (implements : pager.Implements cache) :
    ∃ memory, (pager.Generous → memory = (true, true)) ∧
      Option.Rel (pagerAbstraction.Follows pager cache)
        (pagerFreePage pager pageId) (cache.freePage memory.1 memory.2 pageId) := by
  rw [pagerFreePage_eq]
  exact pagerPrimitives_sound.freePage implements

namespace Pager

theorem Implements.fetched {result : Option Addr} (implements : pager.Implements cache)
    (nonneg : 0 ≤ pageId) (fetched : pagerFetch pager pageId = some (result, after)) :
    ∃ image, pagerAbstraction.Follows pager cache after image ∧
      Cache.Fetched cache pageId result.isSome image ∧
      ∀ node, result = some node → after.Holds node pageId := by
  obtain ⟨order, buckets, structured, rfl⟩ := implements
  have agrees := structured.fetch_agrees nonneg
  unfold Structured.FetchAgrees at agrees
  rw [fetched] at agrees
  generalize imaged : (pager.view order).fetch pager.memory pageId = found at agrees
  cases agrees with
  | @some _ pair facts =>
      obtain ⟨hit, image⟩ := pair
      obtain ⟨follows, same, holds⟩ := facts
      dsimp only at same follows
      subst same
      exact ⟨image, follows, (Cache.fetch_some imaged).2, holds⟩

theorem Implements.allocated (implements : pager.Implements cache)
    (allocated : pagerAllocPage pager = some (pageId, after)) :
    ∃ memories image, pagerAbstraction.Follows pager cache after image ∧
      Cache.Allocated memories cache pageId image := by
  obtain ⟨memories, _, agrees⟩ := alloc_agrees implements
  rw [allocated] at agrees
  generalize imaged : cache.allocPage memories.1 memories.2 = result at agrees
  cases agrees with
  | @some _ pair facts =>
      obtain ⟨imageId, image⟩ := pair
      obtain ⟨same, follows⟩ := facts
      dsimp only at same follows
      subst same
      exact ⟨memories, image, follows, Cache.allocPage_some imaged⟩

theorem Implements.freed (implements : pager.Implements cache)
    (freed : pagerFreePage pager pageId = some after) :
    ∃ memories image, pagerAbstraction.Follows pager cache after image ∧
      Cache.Freed memories cache pageId image := by
  obtain ⟨memories, _, agrees⟩ := free_agrees pageId implements
  rw [freed] at agrees
  generalize imaged : cache.freePage memories.1 memories.2 pageId = result at agrees
  cases agrees with
  | some follows => exact ⟨memories, _, follows, Cache.freePage_some imaged⟩

end Pager

/-- The C pager implements the page cache. -/
def pagerRefinement : Refinement cPager where
  toAbstraction := pagerAbstraction
  fetch := fun _ => pagerPrimitives_sound.fetch
  read := Pager.Implements.read
  write := fun data implements held =>
    (Pager.Implements.setData (fun _ => data) implements held).follows
  unpin := fun _ implements held => (Pager.Implements.unpin _ implements held).follows
  flush := by
    rintro pager cache pageId ⟨order, buckets, structured, rfl⟩ nonneg
    by_cases cached : ∃ node ∈ order, pager.idAt node = pageId
    · obtain ⟨node, member, label⟩ := cached
      have held : pager.Holds node pageId := structured.holds_iff.mpr ⟨member, label⟩
      have found : hashFind pager pageId = some (some node) := held
      refine ⟨pagerFlush pager node, by simp [cPager, found], ?_⟩
      exact (Pager.Implements.flush ⟨order, buckets, structured, rfl⟩ held).follows
    · have absent : ∀ node ∈ order, pager.idAt node ≠ pageId :=
        fun node member same => cached ⟨node, member, same⟩
      have missing : (pager.view order).frames.find? (Cache.holds pageId) = none := by
        apply List.find?_eq_none.mpr
        intro frame member
        simpa [Cache.holds] using Structured.view_absent absent frame member
      refine ⟨pager, by simp [cPager, structured.hashFind_none nonneg absent], ?_⟩
      rw [Cache.flush_absent missing]
      exact Abstraction.Edits.follows ⟨⟨order, buckets, structured, rfl⟩, id, fun _ _ held => held⟩
  allocPage := alloc_agrees
  freePage := free_agrees

end HundredDays.PagedStorage
