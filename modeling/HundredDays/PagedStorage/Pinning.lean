import HundredDays.PagedStorage.Cache.Recency
import HundredDays.PagedStorage.Lifecycle

namespace HundredDays.PagedStorage

open HundredDays.Semantics HundredDays.Memory

/-! Any program that calls the pager through the pointers it was given.

Such a program may unpin a page more often than it fetched it, unpin null, and
go on using a pointer whose node was recycled for another page.
-/

inductive Call where
  | fetch (pageId : Int32)
  | unpin (page : Option Addr) (isDirty : Bool)
  | flush (page : Addr)
  | write (page : Addr) (data : Bytes)
  | alloc
  | free (pageId : Int32)

/-- The pager with what its caller remembers: the pointers that fetches returned
to it, how many of these fetches each pointer is still pinned for, and the page
that it was last returned for. -/
structure Caller where
  pager : Pager
  returned : List Addr
  outstanding : Addr → Nat
  label : Addr → Int32

namespace Caller

def start (pager : Pager) : Caller :=
  { pager, returned := [], outstanding := fun _ => 0, label := fun _ => 0 }

def step (caller : Caller) : Call → Option Caller
  | .fetch pageId =>
      if pageId < 0 then none
      else (pagerFetch caller.pager pageId).map fun
        | (none, pager) => { caller with pager }
        | (some node, pager) =>
            { pager
              returned := node :: caller.returned
              outstanding := Function.update caller.outstanding node (caller.outstanding node + 1)
              label := Function.update caller.label node pageId }
  | .unpin none isDirty => some { caller with pager := pagerUnpin caller.pager none isDirty }
  | .unpin (some node) isDirty =>
      if node ∈ caller.returned then some { caller with
        pager := pagerUnpin caller.pager (some node) isDirty
        outstanding := Function.update caller.outstanding node (caller.outstanding node - 1) }
      else none
  | .flush node =>
      if node ∈ caller.returned then some { caller with pager := pagerFlush caller.pager node } else none
  | .write node data =>
      if node ∈ caller.returned then some { caller with pager := caller.pager.setData node fun _ => data }
      else none
  | .alloc => (pagerAllocPage caller.pager).map fun (_, pager) => { caller with pager }
  | .free pageId => (pagerFreePage caller.pager pageId).map fun pager => { caller with pager }

end Caller

variable {pager after : Pager} {cache image : Cache} {pageId : Int32} {caller next : Caller} {call : Call}
  {node : Addr}

namespace Pager

theorem Holds.unique {other : Int32} (implements : pager.Implements cache)
    (first : pager.Holds node pageId) (second : pager.Holds node other) : pageId = other := by
  obtain ⟨order, buckets, structured, rfl⟩ := implements
  exact (structured.holds_iff.mp first).2.symm.trans (structured.holds_iff.mp second).2

theorem Holds.same_node {other : Addr} (first : pager.Holds node pageId)
    (second : pager.Holds other pageId) : node = other := by
  unfold Pager.Holds at first second
  simpa [first] using second

end Pager

namespace Caller

/-- What the pager keeps true for such a program.  A pointer with outstanding
fetches leads to the page it was fetched for, pinned at least that often. -/
structure Kept (caller : Caller) (cache : Cache) : Prop where
  implements : caller.pager.Implements cache
  recent : cache.Recent
  valid : ∀ node ∈ caller.returned, ∃ pageId, caller.pager.Holds node pageId
  pinned : ∀ node, 0 < caller.outstanding node → caller.pager.Holds node (caller.label node) ∧
    cache.Pinned (caller.label node) (caller.outstanding node)

theorem Kept.follow (kept : caller.Kept cache)
    (follows : pagerAbstraction.Follows caller.pager cache after image) (recent : image.Recent)
    (pins : ∀ pageId count, 1 ≤ count → cache.Pinned pageId count → image.Pinned pageId count) :
    Kept { caller with pager := after } image where
  implements := follows.implements
  recent := recent
  valid := by
    intro node member
    obtain ⟨pageId, holds⟩ := kept.valid node member
    exact follows.valid node pageId holds
  pinned := by
    intro node used
    obtain ⟨holds, enough⟩ := kept.pinned node used
    exact ⟨follows.pinned node _ holds (enough.weaken used), pins _ _ used enough⟩

theorem Kept.fetch (kept : caller.Kept cache) (stepped : caller.step (.fetch pageId) = some next) :
    ∃ image, next.Kept image ∧ pagerAbstraction.Follows caller.pager cache next.pager image := by
  simp only [Caller.step] at stepped
  split at stepped
  · contradiction
  · rename_i nonneg
    obtain ⟨⟨result, after⟩, fetched, rfl⟩ := Option.map_eq_some_iff.mp stepped
    have distinct := Pager.Implements.distinct kept.implements
    obtain ⟨image, follows, effect, holds⟩ :=
      Pager.Implements.fetched kept.implements (Int32.not_lt.mp nonneg) fetched
    have recent := kept.recent.fetched distinct effect
    have pins : ∀ other count, 1 ≤ count → cache.Pinned other count → image.Pinned other count := by
      intro other count used pinned
      exact (pinned.fetched used distinct effect).weaken (by split <;> omega)
    have others := kept.follow follows recent pins
    cases result with
    | none => exact ⟨image, others, follows⟩
    | some node =>
        refine ⟨image, ⟨others.implements, recent, ?_, ?_⟩, follows⟩
        · intro other member
          rcases List.mem_cons.mp member with rfl | earlier
          · exact ⟨pageId, holds other rfl⟩
          · exact others.valid other earlier
        · intro other used
          by_cases same : other = node
          · subst other
            simp only [Function.update_self] at used ⊢
            refine ⟨holds node rfl, ?_⟩
            by_cases first : caller.outstanding node = 0
            · rw [first]
              exact effect.pinned
            · obtain ⟨held, enough⟩ := kept.pinned node (by omega)
              obtain ⟨still, _⟩ := others.pinned node (by dsimp only; omega)
              have label : caller.label node = pageId :=
                Pager.Holds.unique follows.implements still (holds node rfl)
              have more := enough.fetched (by omega) distinct effect
              rw [label] at more
              simpa using more
          · simp only [Function.update_of_ne same] at used ⊢
            exact others.pinned other used

theorem Kept.unpin {isDirty : Bool} (kept : caller.Kept cache)
    (stepped : caller.step (.unpin (some node) isDirty) = some next) :
    ∃ image, next.Kept image ∧ pagerAbstraction.Follows caller.pager cache next.pager image := by
  simp only [Caller.step] at stepped
  split at stepped
  · rename_i member
    cases stepped
    obtain ⟨pageId, holds⟩ := kept.valid node member
    have edits := Pager.Implements.unpin isDirty kept.implements holds
    refine ⟨cache.unpin pageId isDirty, ⟨edits.implements, kept.recent.unpin, ?_, ?_⟩, edits.follows⟩
    · intro other earlier
      obtain ⟨label, held⟩ := kept.valid other earlier
      exact ⟨label, edits.holds other label held⟩
    · intro other used
      by_cases same : other = node
      · subst other
        simp only [Function.update_self] at used ⊢
        obtain ⟨held, enough⟩ := kept.pinned node (by omega)
        have label : caller.label node = pageId := Pager.Holds.unique kept.implements held holds
        refine ⟨edits.holds node _ held, Cache.Pinned.unpin ?_⟩
        rw [if_pos label]
        exact enough.weaken (by omega)
      · simp only [Function.update_of_ne same] at used ⊢
        obtain ⟨held, enough⟩ := kept.pinned other used
        have apart : caller.label other ≠ pageId := by
          intro label
          rw [label] at held
          exact same (Pager.Holds.same_node held holds)
        refine ⟨edits.holds other _ held, Cache.Pinned.unpin ?_⟩
        rw [if_neg apart]
        exact enough
  · contradiction

theorem Kept.step (kept : caller.Kept cache) (stepped : caller.step call = some next) :
    ∃ image, next.Kept image ∧ pagerAbstraction.Follows caller.pager cache next.pager image := by
  have distinct := Pager.Implements.distinct kept.implements
  cases call with
  | fetch pageId => exact kept.fetch stepped
  | unpin page isDirty =>
      cases page with
      | none =>
          cases stepped
          exact ⟨cache, kept, Abstraction.Edits.follows ⟨kept.implements, id, fun _ _ holds => holds⟩⟩
      | some node => exact kept.unpin stepped
  | flush node =>
      simp only [Caller.step] at stepped
      split at stepped
      · rename_i member
        cases stepped
        obtain ⟨pageId, holds⟩ := kept.valid node member
        have follows : pagerAbstraction.Follows caller.pager cache _ _ :=
          (Pager.Implements.flush kept.implements holds).follows
        exact ⟨_, kept.follow follows kept.recent.flush fun _ _ _ pinned => pinned.flush, follows⟩
      · contradiction
  | write node data =>
      simp only [Caller.step] at stepped
      split at stepped
      · rename_i member
        cases stepped
        obtain ⟨pageId, holds⟩ := kept.valid node member
        have follows : pagerAbstraction.Follows caller.pager cache _ _ :=
          (Pager.Implements.setData (fun _ => data) kept.implements holds).follows
        exact ⟨_, kept.follow follows kept.recent.setData fun _ _ _ pinned => pinned.setData, follows⟩
      · contradiction
  | alloc =>
      obtain ⟨⟨pageId, after⟩, allocated, rfl⟩ := Option.map_eq_some_iff.mp stepped
      obtain ⟨memories, image, follows, effect⟩ := Pager.Implements.allocated kept.implements allocated
      exact ⟨image, kept.follow follows (kept.recent.allocated distinct effect)
        fun _ _ used pinned => pinned.allocated used distinct effect, follows⟩
  | free pageId =>
      obtain ⟨after, freed, rfl⟩ := Option.map_eq_some_iff.mp stepped
      obtain ⟨memories, image, follows, effect⟩ := Pager.Implements.freed kept.implements freed
      exact ⟨image, kept.follow follows (kept.recent.freed distinct effect)
        fun _ _ used pinned => pinned.freed used distinct effect, follows⟩

theorem start_kept {fd : File} {heap : Heap} (opened : pagerOpen fd heap = some (some pager)) :
    (start pager).Kept (Cache.opened fd) := by
  obtain ⟨implements, _⟩ := pagerOpen_implements opened
  refine ⟨implements, Cache.opened_recent, ?_, ?_⟩
  · simp [start]
  · simp [start]

theorem run_kept {fd : File} {heap : Heap} {calls : List Call}
    (opened : pagerOpen fd heap = some (some pager))
    (completed : run step (start pager) calls = some caller) : ∃ cache, caller.Kept cache := by
  refine run_invariant (fun caller => ∃ cache, caller.Kept cache) ?_ ⟨_, start_kept opened⟩ completed
  rintro caller call next ⟨cache, kept⟩ stepped
  obtain ⟨image, still, _⟩ := kept.step stepped
  exact ⟨image, still⟩

end Caller

/-- A fetch of an uncached page from a full pager. -/
inductive FullMiss (pager : Pager) (order : List Addr) (pageId : Int32) : Prop
  | refused (pinned : ∀ node ∈ order, (pager.page node).pinCount ≠ 0)
      (fetched : pagerFetch pager pageId = some (none, pager))
  | evicted (left right : List Addr) (victim : Addr) (after : Pager) (buckets : Nat → List Addr)
      (split : order = left ++ victim :: right) (free : (pager.page victim).pinCount = 0)
      (pinned : ∀ node ∈ right, (pager.page node).pinCount ≠ 0)
      (fetched : pagerFetch pager pageId = some (some victim, after))
      (structured : Structured after (victim :: (left ++ right)) buckets)
      (label : after.idAt victim = pageId)
      (kept : ∀ node ∈ left ++ right, after.frameAt node = pager.frameAt node)

theorem Structured.fullMiss {order : List Addr} {buckets : Nat → List Addr}
    (structured : Structured pager order buckets) (nonneg : 0 ≤ pageId)
    (absent : ∀ node ∈ order, pager.idAt node ≠ pageId) (full : pager.capacity ≤ pager.lruList.size) :
    FullMiss pager order pageId := by
  cases taken : Data.takeLast (Cache.unpinned ∘ pager.frameAt) order with
  | none =>
      have pinned := Data.takeLast_none.mp taken
      refine .refused ?_ (structured.pagerFetch_refused nonneg absent full pinned)
      intro node member
      simpa [Pager.unpinned_frameAt] using pinned node member
  | some pair =>
      obtain ⟨victim, rest⟩ := pair
      obtain ⟨left, right, rfl, rfl, unpinned, pinned⟩ := Data.takeLast_some taken
      obtain ⟨after, chains, fetched, listed, _, label, _, kept⟩ :=
        structured.pagerFetch_evicts nonneg absent full unpinned pinned
      refine .evicted left right victim after chains rfl (by simpa [Pager.unpinned_frameAt] using unpinned) ?_
        fetched listed label kept
      intro node member
      simpa [Pager.unpinned_frameAt] using pinned node member

/-- What holds between two calls, when `order` is the LRU list from front to back. -/
structure Caller.Sound (caller : Caller) (order : List Addr) (buckets : Nat → List Addr) : Prop where
  structured : Structured caller.pager order buckets
  recent : (order.map caller.pager.idAt).Sublist (recency caller.pager.history)
  /-- Until its last unpin, a page is always fetched at the same node. -/
  pinned : ∀ node, 0 < caller.outstanding node →
    ∃ after, pagerFetch caller.pager (caller.label node) = some (some node, after)
  /-- No call evicts or relabels a page in use. -/
  steady : ∀ node pageId call next, caller.pager.Holds node pageId →
    (caller.pager.page node).pinCount ≠ 0 → caller.step call = some next → next.pager.Holds node pageId
  defined : ∀ pageId, 0 ≤ pageId → ∃ outcome, pagerFetch caller.pager pageId = some outcome
  missed : ∀ pageId, 0 ≤ pageId → (∀ node ∈ order, caller.pager.idAt node ≠ pageId) →
    caller.pager.capacity ≤ caller.pager.lruList.size → FullMiss caller.pager order pageId

theorem Caller.Kept.sound (kept : caller.Kept cache) : ∃ order buckets, caller.Sound order buckets := by
  have invariant := kept
  obtain ⟨⟨order, buckets, structured, rfl⟩, recent, _, pinned⟩ := kept
  refine ⟨order, buckets, structured, ?_, ?_, ?_, ?_, ?_⟩
  · rw [Cache.Recent, Pager.view, List.map_map] at recent
    exact recent
  · intro node used
    obtain ⟨holds, _⟩ := pinned node used
    obtain ⟨member, label⟩ := structured.holds_iff.mp holds
    obtain ⟨left, right, rfl⟩ := List.append_of_mem member
    obtain ⟨after, fetched, _⟩ := structured.pagerFetch_hit
    exact ⟨after, by rw [← label, fetched]⟩
  · intro node pageId call next holds used stepped
    obtain ⟨image, _, follows⟩ := invariant.step stepped
    exact follows.pinned node pageId holds ((structured.pinned_iff holds).mpr (Nat.one_le_iff_ne_zero.mpr used))
  · intro pageId nonneg
    exact structured.fetch_defined nonneg
  · intro pageId nonneg absent full
    exact structured.fullMiss nonneg absent full

end HundredDays.PagedStorage
