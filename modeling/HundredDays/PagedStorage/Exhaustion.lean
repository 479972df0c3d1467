import HundredDays.PagedStorage.Cache.Exhaustion
import HundredDays.PagedStorage.Pinning

namespace HundredDays.PagedStorage

open HundredDays.Data HundredDays.Memory

/-! Allocating and freeing pages when a fetch inside the call finds no frame.

Neither implementation tests what its fetches return, so such a call dereferences
null.  It makes no such fetch exactly when the cache serves both of its pages.
-/

variable {σ ν : Type}

namespace PageStore

/-- A fetch that `alloc_page` makes returns null: that of the header, or that of
the page at the head of the free list. -/
def AllocRefused (store : PageStore σ ν) (state : σ) : Prop :=
  (∃ next, store.fetch state 0 = some (none, next)) ∨
    ∃ hdr first next, store.fetch state 0 = some (some hdr, first) ∧
      (store.read first hdr).header.freeListHead ≠ -1 ∧
      store.fetch first (store.read first hdr).header.freeListHead = some (none, next)

/-- A fetch that `free_page` makes returns null: that of the header, or that of
the page to free. -/
def FreeRefused (store : PageStore σ ν) (state : σ) (pageId : Int32) : Prop :=
  0 < pageId ∧ ((∃ next, store.fetch state 0 = some (none, next)) ∨
    ∃ hdr first next, store.fetch state 0 = some (some hdr, first) ∧
      store.fetch first pageId = some (none, next))

/-- When a fetch inside the call returns null, the call returns nevertheless, and
every page has the contents and pins that it had; `observe` reads them. -/
def AllocReported (store : PageStore σ ν) (observe : σ → Int32 → Bytes × Nat) (state : σ) : Prop :=
  store.AllocRefused state → ∃ pageId after, store.allocPage state = some (pageId, after) ∧
    observe after = observe state

def FreeReported (store : PageStore σ ν) (observe : σ → Int32 → Bytes × Nat) (state : σ)
    (pageId : Int32) : Prop :=
  store.FreeRefused state pageId → ∃ after, store.freePage state pageId = some after ∧
    observe after = observe state

end PageStore

namespace Cache

variable {cache : Cache} {grants : Nat → Bool} {indexed : Int32 → Prop}

/-- The cache has a frame for every page that an allocation fetches.  A corrupt
head of the free list may not even have a bucket to look in; `indexed` says which
ids have. -/
def AllocServed (cache : Cache) (grants : Nat → Bool) (indexed : Int32 → Prop) : Prop :=
  cache.HeaderServed grants ∧
    ((cache.contents 0).header.freeListHead ≠ -1 → indexed (cache.contents 0).header.freeListHead →
      cache.PageServed grants (cache.contents 0).header.freeListHead)

/-- The cache has a frame for both pages that freeing a page fetches. -/
def FreeServed (cache : Cache) (grants : Nat → Bool) (pageId : Int32) : Prop :=
  0 < pageId → cache.HeaderServed grants ∧ cache.PageServed grants pageId

end Cache

/-- A store whose fetches return null exactly when its cache refuses, and whose
allocating and freeing use what their fetches return. -/
structure Rationed (store : PageStore σ ν) where
  Implements : σ → Cache → Prop
  grants : σ → Nat → Bool
  indexed : Int32 → Prop
  positive : ∀ pageId, 0 ≤ pageId → indexed pageId
  distinct : ∀ {state cache}, Implements state cache → cache.Distinct
  nonneg : ∀ {state cache}, Implements state cache → ∀ frame ∈ cache.frames, 0 ≤ frame.pageId
  refused : ∀ {state cache pageId}, Implements state cache →
    ((∃ next, store.fetch state pageId = some (none, next)) ↔
      indexed pageId ∧ cache.Refuses (grants state 0) pageId)
  defined : ∀ {state cache}, Implements state cache → ∃ outcome, store.fetch state 0 = some outcome
  fetched : ∀ {state cache hdr next}, Implements state cache →
    store.fetch state 0 = some (some hdr, next) →
    ∃ image, Implements next image ∧ Cache.Fetched cache 0 true image ∧
      store.read next hdr = image.dataOf 0 ∧
      (image.frames.length < image.capacity → grants next 0 = grants state cache.taken)
  alloc : ∀ {state}, store.AllocRefused state → store.allocPage state = none
  free : ∀ {state pageId}, store.FreeRefused state pageId → store.freePage state pageId = none

namespace Rationed

variable {store : PageStore σ ν} {state : σ} {cache : Cache} {pageId : Int32}
  {observe : σ → Int32 → Bytes × Nat}

/-- The first fetch of a call is refused when the header is not served. -/
theorem header_refused (rationed : Rationed store) (implements : rationed.Implements state cache) :
    (∃ next, store.fetch state 0 = some (none, next)) ↔ ¬ cache.HeaderServed (rationed.grants state) := by
  rw [rationed.refused implements, Cache.header_refused]
  exact and_iff_right (rationed.positive 0 (Int32.le_refl 0))

/-- After a first fetch that is not refused, the second one is when the page is
not served. -/
theorem page_refused {hdr : ν} {first : σ} (rationed : Rationed store)
    (implements : rationed.Implements state cache) (fetched : store.fetch state 0 = some (some hdr, first)) :
    store.read first hdr = cache.contents 0 ∧
      ∀ pageId, (∃ next, store.fetch first pageId = some (none, next)) ↔
        rationed.indexed pageId ∧ ¬ cache.PageServed (rationed.grants state) pageId := by
  obtain ⟨image, opened, effect, read, answers⟩ := rationed.fetched implements fetched
  have distinct := rationed.distinct implements
  refine ⟨read.trans (effect.dataOf_header distinct (rationed.nonneg implements)), fun pageId => ?_⟩
  rw [rationed.refused opened, effect.page_refused distinct answers]

/-- A second fetch happens when the header is served. -/
theorem header_fetched (rationed : Rationed store) (implements : rationed.Implements state cache)
    (served : cache.HeaderServed (rationed.grants state)) :
    ∃ hdr first, store.fetch state 0 = some (some hdr, first) := by
  obtain ⟨⟨page, first⟩, fetched⟩ := rationed.defined implements
  cases page with
  | none => exact absurd served ((rationed.header_refused implements).mp ⟨first, fetched⟩)
  | some hdr => exact ⟨hdr, first, fetched⟩

theorem allocRefused_iff (rationed : Rationed store) (implements : rationed.Implements state cache) :
    store.AllocRefused state ↔ ¬ cache.AllocServed (rationed.grants state) rationed.indexed := by
  constructor
  · rintro (missing | ⟨hdr, first, next, fetched, nonempty, missing⟩) served
    · exact (rationed.header_refused implements).mp missing served.1
    · obtain ⟨read, second⟩ := rationed.page_refused implements fetched
      rw [read] at nonempty missing
      obtain ⟨indexed, unserved⟩ := (second _).mp ⟨next, missing⟩
      exact unserved (served.2 nonempty indexed)
  · intro unserved
    by_cases served : cache.HeaderServed (rationed.grants state)
    · obtain ⟨hdr, first, fetched⟩ := rationed.header_fetched implements served
      obtain ⟨read, second⟩ := rationed.page_refused implements fetched
      have short : ∃ _ : (cache.contents 0).header.freeListHead ≠ -1,
          rationed.indexed (cache.contents 0).header.freeListHead ∧
          ¬ cache.PageServed (rationed.grants state) (cache.contents 0).header.freeListHead := by
        by_contra none
        refine unserved ⟨served, fun nonempty indexed => ?_⟩
        by_contra missing
        exact none ⟨nonempty, indexed, missing⟩
      obtain ⟨nonempty, both⟩ := short
      obtain ⟨next, missing⟩ := (second _).mpr both
      refine .inr ⟨hdr, first, next, fetched, ?_⟩
      rw [read]
      exact ⟨nonempty, missing⟩
    · exact .inl ((rationed.header_refused implements).mpr served)

theorem freeRefused_iff (rationed : Rationed store) (implements : rationed.Implements state cache) :
    store.FreeRefused state pageId ↔ ¬ cache.FreeServed (rationed.grants state) pageId := by
  rw [Cache.FreeServed, Classical.not_imp]
  apply and_congr_right
  intro positive
  constructor
  · rintro (missing | ⟨hdr, first, next, fetched, missing⟩) served
    · exact (rationed.header_refused implements).mp missing served.1
    · obtain ⟨_, second⟩ := rationed.page_refused implements fetched
      exact ((second pageId).mp ⟨next, missing⟩).2 served.2
  · intro unserved
    by_cases served : cache.HeaderServed (rationed.grants state)
    · obtain ⟨hdr, first, fetched⟩ := rationed.header_fetched implements served
      obtain ⟨_, second⟩ := rationed.page_refused implements fetched
      obtain ⟨next, missing⟩ := (second pageId).mpr
        ⟨rationed.positive pageId (Int32.le_of_lt positive), fun page => unserved ⟨served, page⟩⟩
      exact .inr ⟨hdr, first, next, fetched, missing⟩
    · exact .inl ((rationed.header_refused implements).mpr served)

/-- A call that is refused a frame never returns. -/
theorem allocReported_iff (rationed : Rationed store) (implements : rationed.Implements state cache) :
    store.AllocReported observe state ↔ cache.AllocServed (rationed.grants state) rationed.indexed := by
  constructor
  · intro reported
    by_contra unserved
    have refused := (rationed.allocRefused_iff implements).mpr unserved
    obtain ⟨pageId, after, returned, _⟩ := reported refused
    simp [rationed.alloc refused] at returned
  · intro served refused
    exact absurd served ((rationed.allocRefused_iff implements).mp refused)

theorem freeReported_iff (rationed : Rationed store) (implements : rationed.Implements state cache) :
    store.FreeReported observe state pageId ↔ cache.FreeServed (rationed.grants state) pageId := by
  constructor
  · intro reported
    by_contra unserved
    have refused := (rationed.freeRefused_iff implements).mpr unserved
    obtain ⟨after, returned, _⟩ := reported refused
    simp [rationed.free refused] at returned
  · intro served refused
    exact absurd served ((rationed.freeRefused_iff implements).mp refused)

end Rationed

namespace Primitives

variable {calls : Primitives σ ν} {state : σ} {pageId : Int32}

/-- Null is dereferenced as soon as a fetch returns it. -/
theorem allocPage_refused (refused : (∃ next, calls.fetch state 0 = some (none, next)) ∨
    ∃ hdr first next, calls.fetch state 0 = some (some hdr, first) ∧
      (calls.read first hdr).header.freeListHead ≠ -1 ∧
      calls.fetch first (calls.read first hdr).header.freeListHead = some (none, next)) :
    calls.allocPage state = none := by
  rcases refused with ⟨next, missing⟩ | ⟨hdr, first, next, fetched, nonempty, missing⟩
  · simp [Primitives.allocPage, missing]
  · simp [Primitives.allocPage, fetched, nonempty, missing]

theorem freePage_refused (positive : 0 < pageId) (refused : (∃ next, calls.fetch state 0 = some (none, next)) ∨
    ∃ hdr first next, calls.fetch state 0 = some (some hdr, first) ∧
      calls.fetch first pageId = some (none, next)) : calls.freePage state pageId = none := by
  rw [Primitives.freePage, if_neg (Int32.not_le.mpr positive)]
  rcases refused with ⟨next, missing⟩ | ⟨hdr, first, next, fetched, missing⟩
  · simp [missing]
  · simp [fetched, missing]

end Primitives

/-- What a client can see of a page: its contents and how often it is pinned. -/
def Pager.observe (pager : Pager) (pageId : Int32) : Bytes × Nat :=
  (pager.contents pageId, match hashFind pager pageId with
    | some (some node) => (pager.page node).pinCount
    | _ => 0)

variable {pager after : Pager} {order : List Addr} {buckets : Nat → List Addr} {pageId : Int32} {hdr : Addr}

namespace Structured

theorem hashFind_absent (structured : Structured pager order buckets)
    (absent : ∀ node ∈ order, pager.idAt node ≠ pageId) :
    hashFind pager pageId = if hashFunc pageId < 0 then none else some none := by
  by_cases outside : hashFunc pageId < 0
  · simp [hashFind, bucketOf, outside]
  · rw [if_neg outside, hashFind, bucketOf, if_neg outside, Option.bind_some,
      hashFindFrom_chain (structured.chains _) (structured.chain_length _)]
    congr 1
    apply List.find?_eq_none.mpr
    intro node member
    simpa using absent node ((structured.members _ node).mp member).1

theorem cached_view : (pager.view order).cached pageId = false ↔ ∀ node ∈ order, pager.idAt node ≠ pageId := by
  rw [Cache.cached_false]
  exact List.forall_mem_map

/-- `acquirePage` finds no frame when the cache does not. -/
theorem acquirePage_null (structured : Structured pager order buckets) :
    (∃ next, acquirePage pager = some (none, next)) ↔ (pager.view order).acquire pager.memory = none := by
  have length := structured.view_length
  rw [Cache.acquire_none, length]
  change _ ↔ if pager.lruList.size < pager.capacity then _ else _
  by_cases full : pager.capacity ≤ pager.lruList.size
  · rw [if_neg (by omega)]
    simp only [acquirePage, ge_iff_le, full, if_true]
    cases taken : takeLast (Cache.unpinned ∘ pager.frameAt) order with
    | none =>
        have pinned := takeLast_none.mp taken
        rw [structured.pagerEvict_none pinned]
        refine ⟨fun _ => ?_, fun _ => ⟨pager, rfl⟩⟩
        exact List.forall_mem_map.mpr pinned
    | some pair =>
        obtain ⟨victim, rest⟩ := pair
        obtain ⟨left, right, rfl, rfl, unpinned, pinned⟩ := takeLast_some taken
        obtain ⟨evicted, _, removal, _⟩ := structured.pagerEvict_some unpinned pinned
        rw [removal]
        constructor
        · rintro ⟨next, same⟩
          cases same
        · intro all
          have used := all (pager.frameAt victim) (List.mem_map_of_mem (by simp))
          simp only [Function.comp] at unpinned
          simp [unpinned] at used
  · rw [if_pos (by omega)]
    simp only [acquirePage, ge_iff_le, full, if_false, Pager.memory, Option.isSome_eq_false_iff,
      Option.isNone_iff_eq_none]
    constructor
    · rintro ⟨next, same⟩
      exact congrArg Prod.fst (Option.some.inj same)
    · intro denied
      exact ⟨_, by rw [denied]⟩

/-- `pager_fetch` returns null when the page has a bucket, is not in it, and no
frame can be had. -/
theorem fetch_null (structured : Structured pager order buckets) :
    (∃ next, pagerFetch pager pageId = some (none, next)) ↔
      0 ≤ hashFunc pageId ∧ (pager.view order).Refuses pager.memory pageId := by
  rw [Cache.Refuses, cached_view, ← structured.acquirePage_null]
  by_cases cached : ∃ node ∈ order, pager.idAt node = pageId
  · obtain ⟨node, member, rfl⟩ := cached
    constructor
    · rintro ⟨next, fetched⟩
      obtain ⟨left, right, rfl⟩ := List.append_of_mem member
      obtain ⟨_, hit, _⟩ := structured.pagerFetch_hit
      rw [hit] at fetched
      cases fetched
    · rintro ⟨_, absent, _⟩
      exact absurd rfl (absent node member)
  have absent : ∀ node ∈ order, pager.idAt node ≠ pageId := fun node member same => cached ⟨node, member, same⟩
  have looked := structured.hashFind_absent absent
  by_cases outside : hashFunc pageId < 0
  · simp [pagerFetch, looked, outside]
  rw [if_neg outside] at looked
  refine Iff.trans ?_ (and_iff_right (by omega)).symm
  refine Iff.trans ?_ (and_iff_right absent).symm
  simp only [pagerFetch, looked, Option.bind_eq_bind, Option.bind_some]
  constructor
  · rintro ⟨next, fetched⟩
    obtain ⟨⟨page, room⟩, acquired, fetched⟩ := Option.bind_eq_some_iff.mp fetched
    cases page with
    | none => exact ⟨room, acquired⟩
    | some node => simp [Option.bind_eq_some_iff] at fetched
  · rintro ⟨next, acquired⟩
    exact ⟨next, by rw [acquired]; rfl⟩

/-- What the allocator would answer once the header is fetched, if it would be asked. -/
theorem fetch_memory (structured : Structured pager order buckets)
    (fetched : pagerFetch pager 0 = some (some hdr, after)) (space : after.lruList.size < after.capacity) :
    after.memory = pager.heap.grants (pager.view order).taken := by
  by_cases cached : ∃ node ∈ order, pager.idAt node = 0
  · obtain ⟨node, member, label⟩ := cached
    have here : (pager.view order).cached 0 = true :=
      Cache.cached_iff.mpr ⟨pager.frameAt node, List.mem_map_of_mem member, label⟩
    obtain ⟨left, right, rfl⟩ := List.append_of_mem member
    obtain ⟨hit, done, _, _, _, heap, _⟩ := structured.pagerFetch_hit
    rw [← label, done] at fetched
    cases fetched
    simp only [Cache.taken, here, if_true, Pager.memory, heap, Heap.grants]
  have absent : ∀ node ∈ order, pager.idAt node ≠ 0 := fun node member same => cached ⟨node, member, same⟩
  have one : (pager.view order).taken = 1 := by simp [Cache.taken, cached_view.mpr absent]
  by_cases full : pager.capacity ≤ pager.lruList.size
  · cases taken : takeLast (Cache.unpinned ∘ pager.frameAt) order with
    | none =>
        rw [structured.pagerFetch_refused (Int32.le_refl 0) absent full (takeLast_none.mp taken)] at fetched
        cases fetched
    | some pair =>
        obtain ⟨victim, rest⟩ := pair
        obtain ⟨left, right, rfl, rfl, unpinned, pinned⟩ := takeLast_some taken
        obtain ⟨reused, chains, done, listed, view, _⟩ :=
          structured.pagerFetch_evicts (Int32.le_refl 0) absent full unpinned pinned
        rw [done] at fetched
        cases fetched
        -- the cache is as full as it was
        have capacity := ((Cache.fetch_some view.symm).2.opened
          (Pager.Implements.distinct ⟨_, _, structured, rfl⟩)).capacity
        have before := structured.size
        have size := listed.size
        simp only [Pager.view] at capacity
        simp only [List.length_append, List.length_cons] at before size
        omega
  · cases called : pager.heap.malloc with
    | mk granted heap =>
        cases granted with
        | none =>
            rw [(structured.pagerFetch_denied (Int32.le_refl 0) absent (by omega) called).1] at fetched
            cases fetched
        | some node =>
            obtain ⟨installed, _, done, _, _, _, same, _⟩ :=
              structured.pagerFetch_allocates (Int32.le_refl 0) absent (by omega) called
            rw [done] at fetched
            cases fetched
            rw [one, Pager.memory, same, Heap.grants, called, Heap.grants]

end Structured

theorem hashFunc_nonneg (nonneg : 0 ≤ pageId) : 0 ≤ hashFunc pageId :=
  Int.tmod_nonneg _ (by simpa [Int32.le_iff_toInt_le] using nonneg)

/-- The C pager asks `malloc` for a frame while there is room for more. -/
def pagerRationed : Rationed cPager where
  Implements := Pager.Implements
  grants pager := pager.heap.grants
  indexed pageId := 0 ≤ hashFunc pageId
  positive := fun _ => hashFunc_nonneg
  distinct := Pager.Implements.distinct
  nonneg := by
    rintro pager cache ⟨order, buckets, structured, rfl⟩
    exact List.forall_mem_map.mpr structured.nonneg
  refused := by
    rintro pager cache pageId ⟨order, buckets, structured, rfl⟩
    exact structured.fetch_null
  defined := by
    rintro pager cache ⟨order, buckets, structured, rfl⟩
    exact structured.fetch_defined (Int32.le_refl 0)
  fetched := by
    intro pager cache hdr next implements fetched
    obtain ⟨image, follows, effect, holds⟩ := implements.fetched (Int32.le_refl 0) fetched
    obtain ⟨order, buckets, structured, rfl⟩ := implements
    obtain ⟨listed, chains, opened, rfl⟩ := follows.implements
    refine ⟨_, ⟨listed, chains, opened, rfl⟩, effect, ?_, ?_⟩
    · exact Pager.Implements.read ⟨listed, chains, opened, rfl⟩ (holds hdr rfl)
    · rw [opened.view_length]
      exact structured.fetch_memory fetched
  alloc := by
    intro pager refused
    change pagerAllocPage pager = none
    rw [pagerAllocPage_eq]
    exact Primitives.allocPage_refused refused
  free := by
    intro pager pageId refused
    change pagerFreePage pager pageId = none
    rw [pagerFreePage_eq]
    exact Primitives.freePage_refused refused.1 refused.2

end HundredDays.PagedStorage
