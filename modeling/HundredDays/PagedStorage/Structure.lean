import Mathlib.Data.List.Perm.Subperm
import HundredDays.PagedStorage.Lists

namespace HundredDays.PagedStorage

open HundredDays.Data HundredDays.Memory

variable {pager after : Pager} {node other : Addr} {order left right : List Addr}
  {buckets : Nat → List Addr} {pageId : Int32} {bucket : Nat}

/-- The LRU list threads exactly `order`, front to back, and the hash table
holds the same nodes, each in the chain of its page id. -/
structure Structured (pager : Pager) (order : List Addr) (buckets : Nat → List Addr) : Prop where
  lists : pager.links.Lists order
  size : pager.lruList.size = order.length
  bounded : pager.lruList.size ≤ pager.capacity
  chains : ∀ bucket, Chain pager.hashNext (pager.hashMap bucket) (buckets bucket)
  members : ∀ bucket node,
    node ∈ buckets bucket ↔ node ∈ order ∧ bucketOf (pager.idAt node) = some bucket
  chainNodup : ∀ bucket, (buckets bucket).Nodup
  distinct : (order.map pager.idAt).Nodup
  nonneg : ∀ node ∈ order, 0 ≤ pager.idAt node
  live : ∀ node ∈ order, node ∈ pager.heap.live

namespace Structured

/-- Only the links, the page ids of listed nodes and the heap matter to the
structure. -/
theorem congr (structured : Structured pager order buckets)
    (links : after.links = pager.links) (size : after.lruList.size = pager.lruList.size)
    (hashMap : after.hashMap = pager.hashMap) (hashNext : after.hashNext = pager.hashNext)
    (ids : ∀ node ∈ order, after.idAt node = pager.idAt node)
    (capacity : after.capacity = pager.capacity)
    (live : ∀ node ∈ pager.heap.live, node ∈ after.heap.live) : Structured after order buckets := by
  constructor
  · rw [links]
    exact structured.lists
  · rw [size]
    exact structured.size
  · rw [size, capacity]
    exact structured.bounded
  · rw [hashNext, hashMap]
    exact structured.chains
  · intro bucket node
    rw [structured.members]
    apply and_congr_right
    intro member
    rw [ids node member]
  · exact structured.chainNodup
  · rw [List.map_congr_left ids]
    exact structured.distinct
  · intro node member
    rw [ids node member]
    exact structured.nonneg node member
  · intro node member
    exact live node (structured.live node member)

/-- A change to one node that keeps its links, and its page id when it is listed. -/
theorem modify {change : Page → Page} (structured : Structured pager order buckets)
    (keeps : ∀ page, (change page).next = page.next ∧ (change page).prev = page.prev ∧
      (change page).hashNext = page.hashNext)
    (label : node ∈ order → (change (pager.page node)).pageId = pager.idAt node) :
    Structured (pager.modify node change) order buckets := by
  have field {β : Type} (get : Page → β) (kept : ∀ page, get (change page) = get page) :
      (fun other => get ((pager.modify node change).page other)) =
        fun other => get (pager.page other) := by
    funext other
    by_cases same : other = node
    · subst other
      simp [Pager.modify, kept]
    · simp [Pager.modify, same]
  apply structured.congr
  · simp only [Pager.links]
    rw [field Page.next fun page => (keeps page).1, field Page.prev fun page => (keeps page).2.1]
    rfl
  · rfl
  · rfl
  · exact field Page.hashNext fun page => (keeps page).2.2
  · intro other member
    by_cases same : other = node
    · subst other
      simpa [Pager.idAt, Pager.modify] using label member
    · simp [Pager.idAt, Pager.modify, same]
  · rfl
  · exact fun _ inside => inside

theorem chain_length (structured : Structured pager order buckets) (bucket : Nat) :
    (buckets bucket).length ≤ pager.walkBound := by
  have inside : buckets bucket ⊆ order := fun node member => ((structured.members _ _).mp member).1
  have bound := (List.subperm_of_subset (structured.chainNodup bucket) inside).length_le
  rw [Pager.walkBound, structured.size]
  omega

theorem id_injective (structured : Structured pager order buckets) (first : node ∈ order)
    (second : other ∈ order) (same : pager.idAt node = pager.idAt other) : node = other :=
  List.inj_on_of_nodup_map structured.distinct first second same

/-- `hash_find` returns the node that is labelled with the page id. -/
theorem hashFind_some (structured : Structured pager order buckets) (member : node ∈ order) :
    hashFind pager (pager.idAt node) = some (some node) := by
  have bucketed := bucketOf_nonneg (structured.nonneg node member)
  have inside := (structured.members _ node).mpr ⟨member, bucketed⟩
  rw [hashFind, bucketed, Option.bind_some,
    hashFindFrom_chain (structured.chains _) (structured.chain_length _)]
  cases found : (buckets _).find? fun other => pager.idAt other = pager.idAt node with
  | none =>
      have absent := List.find?_eq_none.mp found node inside
      simp at absent
  | some other =>
      have passes : pager.idAt other = pager.idAt node := by
        simpa using List.find?_some found
      have listed := ((structured.members _ _).mp (List.mem_of_find?_eq_some found)).1
      rw [structured.id_injective listed member passes]

theorem hashFind_none (structured : Structured pager order buckets) (nonneg : 0 ≤ pageId)
    (absent : ∀ node ∈ order, pager.idAt node ≠ pageId) : hashFind pager pageId = some none := by
  rw [hashFind, bucketOf_nonneg nonneg, Option.bind_some,
    hashFindFrom_chain (structured.chains _) (structured.chain_length _)]
  congr 1
  apply List.find?_eq_none.mpr
  intro node member
  simpa using absent node ((structured.members _ _).mp member).1

/-- `hash_find` never returns a node whose label is not the page id. -/
theorem hashFind_sound (structured : Structured pager order buckets)
    (found : hashFind pager pageId = some (some node)) :
    node ∈ order ∧ pager.idAt node = pageId := by
  simp only [hashFind, Option.bind_eq_some_iff] at found
  obtain ⟨bucket, _, walked⟩ := found
  rw [hashFindFrom_chain (structured.chains bucket) (structured.chain_length bucket)] at walked
  have hit := Option.some.inj walked
  exact ⟨((structured.members _ _).mp (List.mem_of_find?_eq_some hit)).1,
    by simpa using List.find?_some hit⟩

theorem hashFind_iff (structured : Structured pager order buckets) :
    hashFind pager pageId = some (some node) ↔ node ∈ order ∧ pager.idAt node = pageId := by
  constructor
  · exact structured.hashFind_sound
  · rintro ⟨member, rfl⟩
    exact structured.hashFind_some member

theorem not_mem_of_split (structured : Structured pager (left ++ node :: right) buckets) :
    node ∉ left ++ right := by
  have distinct := structured.lists.nodup
  rw [List.nodup_middle] at distinct
  exact (List.nodup_cons.mp distinct).1

/-- Moving a listed node to the front of the LRU list. -/
theorem moveToFront (structured : Structured pager (left ++ node :: right) buckets) :
    Structured (listMoveToFront pager node) (node :: (left ++ right)) buckets := by
  unfold listMoveToFront
  split
  · rename_i front
    cases left with
    | nil => exact structured
    | cons first left =>
        have head : pager.links.head = some first := structured.lists.head
        have same : first = node := Option.some.inj (head.symm.trans front)
        exact absurd structured.not_mem_of_split (by simp [same])
  · rw [listUnlink_eq, listAddFront_withLinks]
    have moved := structured.lists.unlink.pushFront structured.not_mem_of_split
    have perm : (node :: (left ++ right)).Perm (left ++ node :: right) := List.perm_middle.symm
    constructor
    · exact moved
    · have size := structured.size
      simp only [Pager.lruList_withLinks, List.length_cons, List.length_append] at size ⊢
      omega
    · have bounded := structured.bounded
      simp only [Pager.lruList_withLinks]
      change pager.lruList.size - 1 + 1 ≤ pager.capacity
      omega
    · exact structured.chains
    · intro bucket other
      rw [perm.mem_iff]
      exact structured.members bucket other
    · exact structured.chainNodup
    · exact (perm.map _).nodup_iff.mpr structured.distinct
    · intro other member
      exact structured.nonneg other (perm.mem_iff.mp member)
    · intro other member
      exact structured.live other (perm.mem_iff.mp member)

/-- Adding a node that is already labelled to the chain of its page id and to the
front of the LRU list. -/
theorem insert (structured : Structured pager order buckets) (fresh : node ∉ order)
    (room : pager.lruList.size < pager.capacity) (nonneg : 0 ≤ pager.idAt node)
    (absent : ∀ other ∈ order, pager.idAt other ≠ pager.idAt node)
    (live : node ∈ pager.heap.live) :
    ∃ heads chain buckets', hashInsert pager node = some (pager.withChains heads chain) ∧
      Structured (listAddFront (pager.withChains heads chain) node) (node :: order) buckets' := by
  obtain ⟨bucket, bucketed⟩ : ∃ bucket, bucketOf (pager.idAt node) = some bucket :=
    ⟨_, bucketOf_nonneg nonneg⟩
  have unchained : ∀ bucket, node ∉ buckets bucket :=
    fun bucket inside => fresh ((structured.members bucket node).mp inside).1
  refine ⟨_, _, Function.update buckets bucket (node :: buckets bucket), hashInsert_eq bucketed, ?_⟩
  rw [listAddFront_eq]
  constructor
  · exact structured.lists.pushFront fresh
  · have size := structured.size
    change pager.lruList.size + 1 = _
    rw [size, List.length_cons]
    omega
  · change pager.lruList.size + 1 ≤ pager.capacity
    omega
  · intro index
    change Chain (Function.update pager.hashNext node (pager.hashMap bucket))
      (Function.update pager.hashMap bucket (some node) index) _
    by_cases same : index = bucket
    · subst index
      rw [Function.update_self, Function.update_self]
      refine ⟨rfl, ?_⟩
      rw [Function.update_self]
      exact (structured.chains bucket).update_outside (unchained bucket)
    · rw [Function.update_of_ne same, Function.update_of_ne same]
      exact (structured.chains index).update_outside (unchained index)
  · intro index other
    change _ ↔ other ∈ node :: order ∧ bucketOf (pager.idAt other) = some index
    by_cases same : index = bucket
    · subst index
      rw [Function.update_self, List.mem_cons, List.mem_cons, structured.members]
      constructor
      · rintro (rfl | ⟨member, inBucket⟩)
        · exact ⟨Or.inl rfl, bucketed⟩
        · exact ⟨Or.inr member, inBucket⟩
      · rintro ⟨rfl | member, inBucket⟩
        · exact Or.inl rfl
        · exact Or.inr ⟨member, inBucket⟩
    · rw [Function.update_of_ne same, List.mem_cons, structured.members]
      constructor
      · rintro ⟨member, inBucket⟩
        exact ⟨Or.inr member, inBucket⟩
      · rintro ⟨rfl | member, inBucket⟩
        · rw [bucketed] at inBucket
          exact absurd (Option.some.inj inBucket).symm same
        · exact ⟨member, inBucket⟩
  · intro index
    by_cases same : index = bucket
    · subst index
      rw [Function.update_self]
      exact List.nodup_cons.mpr ⟨unchained bucket, structured.chainNodup bucket⟩
    · rw [Function.update_of_ne same]
      exact structured.chainNodup index
  · change ((node :: order).map pager.idAt).Nodup
    rw [List.map_cons, List.nodup_cons]
    refine ⟨?_, structured.distinct⟩
    rw [List.mem_map]
    rintro ⟨other, member, same⟩
    exact absent other member same
  · intro other member
    rcases List.mem_cons.mp member with rfl | member
    · exact nonneg
    · exact structured.nonneg other member
  · intro other member
    rcases List.mem_cons.mp member with rfl | member
    · exact live
    · exact structured.live other member

/-- Taking a listed node out of its hash chain and of the LRU list. -/
theorem remove (structured : Structured pager (left ++ node :: right) buckets) :
    ∃ heads chain buckets', hashRemove pager node = some (pager.withChains heads chain) ∧
      Structured (listUnlink (pager.withChains heads chain) node) (left ++ right) buckets' := by
  have listed : node ∈ left ++ node :: right := by simp
  obtain ⟨bucket, bucketed⟩ : ∃ bucket, bucketOf (pager.idAt node) = some bucket :=
    ⟨_, bucketOf_nonneg (structured.nonneg node listed)⟩
  have inside := (structured.members bucket node).mpr ⟨listed, bucketed⟩
  obtain ⟨before, rest, split⟩ := List.append_of_mem inside
  have distinct := structured.chainNodup bucket
  have chained := structured.chains bucket
  have short := structured.chain_length bucket
  rw [split] at distinct chained short
  obtain ⟨heads, links, removed, kept, otherHeads, otherLinks⟩ :=
    hashRemove_chain bucketed chained distinct
      (by simp only [List.length_append, List.length_cons] at short; omega)
  have apart : node ∉ before ++ rest := by
    rw [List.nodup_middle] at distinct
    exact (List.nodup_cons.mp distinct).1
  have ids := structured.distinct
  rw [List.map_append, List.map_cons, List.nodup_middle, ← List.map_append] at ids
  refine ⟨heads, links, Function.update buckets bucket (before ++ rest), removed, ?_⟩
  rw [listUnlink_eq]
  constructor
  · exact structured.lists.unlink
  · have size := structured.size
    change pager.lruList.size - 1 = _
    simp only [List.length_append, List.length_cons] at size ⊢
    omega
  · have bounded := structured.bounded
    change pager.lruList.size - 1 ≤ pager.capacity
    omega
  · intro index
    change Chain links (heads index) _
    by_cases same : index = bucket
    · subst index
      rw [Function.update_self]
      exact kept
    · rw [Function.update_of_ne same, otherHeads index same]
      apply (structured.chains index).congr
      intro other member
      apply otherLinks
      rw [← split]
      intro both
      have first := ((structured.members bucket other).mp both).2
      have second := ((structured.members index other).mp member).2
      exact same (Option.some.inj (second.symm.trans first))
  · intro index other
    change _ ↔ other ∈ left ++ right ∧ bucketOf (pager.idAt other) = some index
    have listing : other ∈ left ++ node :: right ↔ other = node ∨ other ∈ left ++ right :=
      List.perm_middle.mem_iff.trans List.mem_cons
    have absent := structured.not_mem_of_split
    by_cases same : index = bucket
    · subst index
      have old := structured.members bucket other
      rw [split, listing] at old
      have chainListing : other ∈ before ++ node :: rest ↔ other = node ∨ other ∈ before ++ rest :=
        List.perm_middle.mem_iff.trans List.mem_cons
      rw [chainListing] at old
      rw [Function.update_self]
      by_cases here : other = node
      · subst other
        simp [apart, absent]
      · simpa only [here, false_or] using old
    · have old := structured.members index other
      rw [listing] at old
      rw [Function.update_of_ne same, old]
      by_cases here : other = node
      · subst other
        rw [bucketed]
        simp [Ne.symm same, absent]
      · simp only [here, false_or]
  · intro index
    by_cases same : index = bucket
    · subst index
      rw [Function.update_self]
      exact distinct.sublist (by simp)
    · rw [Function.update_of_ne same]
      exact structured.chainNodup index
  · exact (List.nodup_cons.mp ids).2
  · intro other member
    exact structured.nonneg other (List.perm_middle.mem_iff.mpr (List.mem_cons_of_mem node member))
  · intro other member
    exact structured.live other (List.perm_middle.mem_iff.mpr (List.mem_cons_of_mem node member))

end Structured

end HundredDays.PagedStorage
