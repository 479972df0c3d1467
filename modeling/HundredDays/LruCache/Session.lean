import HundredDays.LruCache.CRefinement
import HundredDays.LruCache.Refinement
import HundredDays.Semantics.Run

namespace HundredDays.LruCache

open HundredDays.Data HundredDays.Semantics

/-! The caches of C and C++ side by side. -/

variable {program : C.Program} {capacity : Nat}

def respond {K V : Type} [DecidableEq K] (cache : LRUCache K V) :
    Recency.Request K V → Option (Option V × LRUCache K V)
  | .put key value => (cache.put key value).map fun after => (none, after)
  | .get key => cache.get key

def C.respond (program : C.Program) (cache : C.LRUCache) :
    Recency.Request Int32 Int32 → Option (Option Int32 × C.LRUCache)
  | .put key value => (C.put program cache key value).map fun after => (none, after)
  | .get key => (C.get program cache key).map fun result => (some result.1, result.2)

/-- The `get` of C returns -1 where that of C++ returns false. -/
def asC : Recency.Request Int32 Int32 × Option Int32 → Recency.Request Int32 Int32 × Option Int32
  | (.put key value, _) => (.put key value, none)
  | (.get key, found) => (.get key, some (found.getD (-1)))

/-- Both caches hold the entries that were used last, and go on to do so. -/
structure Serve (program : C.Program) (capacity : Nat) (other : C.LRUCache) (cache : LRUCache Int32 Int32)
    (log : List (Recency.Request Int32 Int32 × Option Int32)) (entries : List (Int32 × Int32)) : Prop where
  leastRecent : Recency.LeastRecent capacity log entries
  cHolds : C.Holds program capacity other entries
  holds : cache.Holds capacity entries
  cGets : ∀ key, ∃ after, C.get program other key = some ((Recency.find entries key).getD (-1), after) ∧
    C.Holds program capacity after (Recency.get entries key).2
  gets : ∀ key, ∃ after, cache.get key = some (Recency.find entries key, after) ∧
    after.Holds capacity (Recency.get entries key).2
  cPuts : ∀ key value, ∃ after, C.put program other key value = some after ∧
    C.Holds program capacity after (Recency.put capacity entries key value)
  puts : ∀ key value, ∃ after, cache.put key value = some after ∧
    after.Holds capacity (Recency.put capacity entries key value)

theorem createCache_holds : C.Holds program capacity (C.createCache capacity) [] :=
  ⟨[], C.create_represents capacity, rfl, rfl⟩

theorem respond_holds {other : C.LRUCache} {cache : LRUCache Int32 Int32} {entries : List (Int32 × Int32)}
    (positive : 1 ≤ capacity) (cHolds : C.Holds program capacity other entries)
    (holds : cache.Holds capacity entries) (request : Recency.Request Int32 Int32) :
    ∃ cAfter after,
      C.respond program other request = some ((asC (request, Recency.answer entries request)).2, cAfter) ∧
      respond cache request = some (Recency.answer entries request, after) ∧
      C.Holds program capacity cAfter (Recency.step capacity entries request) ∧
      after.Holds capacity (Recency.step capacity entries request) := by
  cases request with
  | put key value =>
      obtain ⟨cAfter, cDone, cHoldsAfter⟩ := cHolds.put positive key value
      obtain ⟨after, done, holdsAfter⟩ := holds.put positive key value
      exact ⟨cAfter, after, by rw [C.respond, cDone]; rfl, by rw [respond, done]; rfl, cHoldsAfter, holdsAfter⟩
  | get key =>
      obtain ⟨cAfter, cGot, cHoldsAfter⟩ := cHolds.get key
      obtain ⟨after, got, holdsAfter⟩ := holds.get key
      exact ⟨cAfter, after, by rw [C.respond, cGot]; rfl, got, cHoldsAfter, holdsAfter⟩

theorem runs_hold (program : C.Program) (positive : 1 ≤ capacity) (requests : List (Recency.Request Int32 Int32)) :
    ∃ log other cache entries,
      run (logged (C.respond program)) (C.createCache capacity, []) requests = some (other, log.map asC) ∧
      run (logged respond) (LRUCache.create capacity, []) requests = some (cache, log) ∧
      Recency.Tracks capacity log entries ∧ C.Holds program capacity other entries ∧
      cache.Holds capacity entries := by
  induction requests using List.reverseRecOn with
  | nil =>
      exact ⟨[], _, _, [], rfl, rfl, Recency.Tracks.begin, createCache_holds, LRUCache.create_holds positive⟩
  | append_singleton earlier request ih =>
      obtain ⟨log, other, cache, entries, cRan, ran, tracks, cHolds, holds⟩ := ih
      obtain ⟨cAfter, after, cResponded, responded, cHoldsAfter, holdsAfter⟩ :=
        respond_holds positive cHolds holds request
      refine ⟨log ++ [(request, Recency.answer entries request)], cAfter, after, _, ?_, ?_,
        tracks.step positive request, cHoldsAfter, holdsAfter⟩
      · have same : (asC (request, Recency.answer entries request)).1 = request := by cases request <;> rfl
        refine run_concat_iff.mpr ⟨_, cRan, ?_⟩
        rw [logged, cResponded, List.map_append, List.map_singleton]
        simp only [Option.map_some, Option.some_inj, Prod.mk.injEq, List.append_cancel_left_eq, List.cons.injEq,
          and_true, true_and]
        exact Prod.ext same.symm rfl
      · exact run_concat_iff.mpr ⟨_, ran, by rw [logged, responded]; rfl⟩

/-- After any sequence of puts and gets, both caches hold the same entries, namely those
that least-recently-used replacement keeps. -/
theorem lru_caches_agree (program : C.Program) (capacity : Nat) (positive : 1 ≤ capacity)
    (requests : List (Recency.Request Int32 Int32)) :
    ∃ log other cache entries,
      run (logged (C.respond program)) (C.createCache capacity, []) requests = some (other, log.map asC) ∧
      run (logged respond) (LRUCache.create capacity, []) requests = some (cache, log) ∧
      Serve program capacity other cache log entries := by
  obtain ⟨log, other, cache, entries, cRan, ran, tracks, cHolds, holds⟩ := runs_hold program positive requests
  exact ⟨log, other, cache, entries, cRan, ran, tracks.leastRecent positive, cHolds, holds, cHolds.get, holds.get,
    cHolds.put positive, holds.put positive⟩

theorem lru_caches_agree_evicting :
    ∃ log other cache entries,
      run (logged (C.respond .lru)) (C.createCache (2 : Nat), [])
        [.put 1 1, .put 2 2, .get 1, .put 3 3, .get 2] = some (other, log.map asC) ∧
      run (logged respond) (LRUCache.create 2, []) [.put 1 1, .put 2 2, .get 1, .put 3 3, .get 2] =
        some (cache, log) ∧
      Serve .lru 2 other cache log entries :=
  lru_caches_agree .lru 2 (by decide) _

section Capacities

variable {small large : Nat}

/-- One exchange with a cache, and the same with a larger one. -/
def HitsMore (few many : Recency.Request Int32 Int32 × Option Int32) : Prop :=
  few.1 = many.1 ∧ ∀ value, few.2 = some value → many.2 = some value

/-- Caches of two capacities, in both languages, after the same requests. -/
structure SideBySide (program : C.Program) (small large : Nat) (requests : List (Recency.Request Int32 Int32))
    (few many : List (Recency.Request Int32 Int32 × Option Int32)) : Prop where
  fewer : ∃ cache, run (logged respond) (LRUCache.create small, []) requests = some (cache, few)
  more : ∃ cache, run (logged respond) (LRUCache.create large, []) requests = some (cache, many)
  cFewer : ∃ cache, run (logged (C.respond program)) (C.createCache small, []) requests = some (cache, few.map asC)
  cMore : ∃ cache, run (logged (C.respond program)) (C.createCache large, []) requests = some (cache, many.map asC)

/-- The exchanges of a session that starts with these entries, and the entries after it. -/
def session (capacity : Nat) (requests : List (Recency.Request Int32 Int32)) :
    List (Recency.Request Int32 Int32 × Option Int32) × List (Int32 × Int32) :=
  requests.foldl (fun state request => (state.1 ++ [(request, Recency.answer state.2 request)],
    Recency.step capacity state.2 request)) ([], [])

theorem runs_session (program : C.Program) (positive : 1 ≤ capacity) (requests : List (Recency.Request Int32 Int32)) :
    ∃ other cache,
      run (logged (C.respond program)) (C.createCache capacity, []) requests =
        some (other, (session capacity requests).1.map asC) ∧
      run (logged respond) (LRUCache.create capacity, []) requests = some (cache, (session capacity requests).1) ∧
      C.Holds program capacity other (session capacity requests).2 ∧
      cache.Holds capacity (session capacity requests).2 := by
  induction requests using List.reverseRecOn with
  | nil => exact ⟨_, _, rfl, rfl, createCache_holds, LRUCache.create_holds positive⟩
  | append_singleton earlier request ih =>
      obtain ⟨other, cache, cRan, ran, cHolds, holds⟩ := ih
      obtain ⟨cAfter, after, cResponded, responded, cHoldsAfter, holdsAfter⟩ :=
        respond_holds positive cHolds holds request
      have later : session capacity (earlier ++ [request]) =
          ((session capacity earlier).1 ++ [(request, Recency.answer (session capacity earlier).2 request)],
            Recency.step capacity (session capacity earlier).2 request) := by
        rw [session, List.foldl_append]
        rfl
      rw [later]
      refine ⟨cAfter, after, ?_, ?_, cHoldsAfter, holdsAfter⟩
      · have same : (asC (request, Recency.answer (session capacity earlier).2 request)).1 = request := by
          cases request <;> rfl
        refine run_concat_iff.mpr ⟨_, cRan, ?_⟩
        rw [logged, cResponded, List.map_append, List.map_singleton]
        simp only [Option.map_some, Option.some_inj, Prod.mk.injEq, List.append_cancel_left_eq, List.cons.injEq,
          and_true, true_and]
        exact Prod.ext same.symm rfl
      · exact run_concat_iff.mpr ⟨_, ran, by rw [logged, responded]; rfl⟩

theorem session_includes (positive : 1 ≤ small) (more : small ≤ large) (requests : List (Recency.Request Int32 Int32)) :
    Recency.Includes small (session small requests).2 (session large requests).2 ∧
      List.Forall₂ HitsMore (session small requests).1 (session large requests).1 := by
  induction requests using List.reverseRecOn with
  | nil => exact ⟨Recency.Includes.begin, List.Forall₂.nil⟩
  | append_singleton earlier request ih =>
      obtain ⟨includes, hits⟩ := ih
      rw [session, session, List.foldl_append, List.foldl_append]
      refine ⟨includes.step positive more request, List.rel_append hits ?_⟩
      exact List.Forall₂.cons ⟨rfl, fun value answered => includes.answer request answered⟩ List.Forall₂.nil

/-- Whatever a cache finds in the course of a session, a cache with more room finds at the same point. -/
theorem larger_cache_hits (program : C.Program) (positive : 1 ≤ small) (more : small ≤ large)
    (requests : List (Recency.Request Int32 Int32)) :
    ∃ few many, SideBySide program small large requests few many ∧ List.Forall₂ HitsMore few many := by
  obtain ⟨_, _, cRan, ran, _⟩ := runs_session program positive requests
  obtain ⟨_, _, cRanLarge, ranLarge, _⟩ := runs_session program (Nat.le_trans positive more) requests
  exact ⟨_, _, ⟨⟨_, ran⟩, ⟨_, ranLarge⟩, ⟨_, cRan⟩, ⟨_, cRanLarge⟩⟩, (session_includes positive more requests).2⟩

theorem larger_cache_hits_once : ∃ few many,
    SideBySide .lru 1 2 [.put 1 10, .put 2 20, .get 1, .get 2] few many ∧ List.Forall₂ HitsMore few many :=
  larger_cache_hits .lru (by decide) (by decide) _

end Capacities

section Teardown

/-- The loop of `freeCache`. -/
def C.freeCache (cache : C.LRUCache) : Option C.LRUCache :=
  (freeChain cache.links.next cache.allocated cache.freed cache.links.head).map fun freed => { cache with freed }

/-- The destructor, which also deletes the two nodes around the list. -/
def LRUCache.destroy {K V : Type} (cache : LRUCache K V) : Option (LRUCache K V) :=
  (freeChain cache.next cache.allocated cache.freed (some cache.head)).map fun freed => { cache with freed }

theorem length_le_allocated {nodes : List Nat} {allocated : Nat} (nodup : nodes.Nodup)
    (bounded : ∀ node ∈ nodes, node < allocated) : nodes.length ≤ allocated := by
  have inside : nodes.toFinset ⊆ Finset.range allocated := by
    intro node member
    exact Finset.mem_range.mpr (bounded node (List.mem_toFinset.mp member))
  have card := Finset.card_le_card inside
  rwa [List.toFinset_card_of_nodup nodup, Finset.card_range] at card

theorem C.Represents.freeCache {cache : C.LRUCache} {nodes : List C.Node}
    (represents : C.Represents program cache nodes) :
    ∃ last, C.freeCache cache = some last ∧ last.freed.Nodup ∧ ∀ node, node ∈ last.freed ↔ node < last.allocated := by
  have lists := represents.lists
  have enough : nodes.length ≤ cache.allocated :=
    length_le_allocated lists.nodup fun node member => (represents.allocated node).mpr (.inl member)
  have chain : Chain cache.links.next cache.links.head nodes := lists.head ▸ lists.segment.chain
  refine ⟨{ cache with freed := nodes.reverse ++ cache.freed }, ?_, ?_, fun node => ?_⟩
  · rw [C.freeCache, freeChain_eq chain lists.nodup represents.live enough]
    rfl
  · refine List.nodup_append.mpr ⟨List.nodup_reverse.mpr lists.nodup, represents.freed, ?_⟩
    rintro node member _ again rfl
    exact represents.live node (List.mem_reverse.mp member) again
  · rw [represents.allocated, List.mem_append, List.mem_reverse]

theorem Represents.destroy {K V : Type} {cache : LRUCache K V} {nodes : List Node}
    (represents : Represents cache nodes) :
    ∃ last, cache.destroy = some last ∧ last.freed.Nodup ∧ ∀ node, node ∈ last.freed ↔ node < last.allocated := by
  obtain ⟨segment, nodup⟩ := represents.fenced
  have enough : (cache.head :: (nodes ++ [cache.tail])).length ≤ cache.allocated :=
    length_le_allocated nodup fun node member => (represents.allocated node).mpr (.inl member)
  have chain : Chain cache.next (some cache.head) (cache.head :: (nodes ++ [cache.tail])) := segment.chain
  refine ⟨{ cache with freed := (cache.head :: (nodes ++ [cache.tail])).reverse ++ cache.freed }, ?_, ?_,
    fun node => ?_⟩
  · rw [LRUCache.destroy, freeChain_eq chain nodup represents.live enough]
    rfl
  · refine List.nodup_append.mpr ⟨List.nodup_reverse.mpr nodup, represents.freed, ?_⟩
    rintro node member _ again rfl
    exact represents.live node (List.mem_reverse.mp member) again
  · rw [represents.allocated, List.mem_append, List.mem_reverse]

/-- However a cache was used, giving it up comes to an end and frees what was not freed by evictions: in the end
every node that was allocated has been freed once, in both languages. -/
theorem teardown_frees_all (program : C.Program) (capacity : Nat) (positive : 1 ≤ capacity)
    (requests : List (Recency.Request Int32 Int32)) : ∃ other cache last final cLog log,
    run (logged (C.respond program)) (C.createCache capacity, []) requests = some (other, cLog) ∧
      run (logged respond) (LRUCache.create capacity, []) requests = some (cache, log) ∧
      C.freeCache other = some last ∧ cache.destroy = some final ∧
      (last.freed.Nodup ∧ ∀ node, node ∈ last.freed ↔ node < last.allocated) ∧
      final.freed.Nodup ∧ ∀ node, node ∈ final.freed ↔ node < final.allocated := by
  obtain ⟨other, cache, cRan, ran, ⟨_, cRepresents, _⟩, _, represents, _⟩ := runs_session program positive requests
  obtain ⟨last, cFreed, cOnce⟩ := cRepresents.freeCache
  obtain ⟨final, freed, once⟩ := represents.destroy
  exact ⟨other, cache, last, final, _, _, cRan, ran, cFreed, freed, cOnce, once⟩

theorem teardown_frees_all_evicting : ∃ other cache last final cLog log,
    run (logged (C.respond .lru)) (C.createCache (1 : Nat), []) [.put 1 10, .put 2 20] = some (other, cLog) ∧
      run (logged respond) ((LRUCache.create 1 : LRUCache Int32 Int32), []) [.put 1 10, .put 2 20] = some (cache, log) ∧
      C.freeCache other = some last ∧ cache.destroy = some final ∧
      (last.freed.Nodup ∧ ∀ node, node ∈ last.freed ↔ node < last.allocated) ∧
      final.freed.Nodup ∧ ∀ node, node ∈ final.freed ↔ node < final.allocated :=
  teardown_frees_all .lru 1 (by decide) _

end Teardown

/-- The cache and its list have at most `max(capacity, 1)` nodes. -/
def Bounded (capacity : Int) (cache : C.LRUCache) : Prop :=
  cache.size ≤ max capacity 1 ∧ ∃ nodes, cache.links.Lists nodes ∧ (nodes.length : Int) ≤ max capacity 1

/-- Without room for one entry nothing is ever evicted: the second put finds a size
that differs from the capacity. -/
theorem zero_capacity_grows (program : C.Program) : ∃ cache log,
    run (logged (C.respond program)) (C.createCache (0 : Nat), []) [.put 1 1, .put 2 2] = some (cache, log) ∧
      cache.size = 2 := by
  have grown : ((run (logged (C.respond program)) (C.createCache (0 : Nat), []) [.put 1 1, .put 2 2]).map
      fun state => state.1.size) = some 2 := by
    cases program <;> decide +kernel
  obtain ⟨state, ran, size⟩ := Option.map_eq_some_iff.mp grown
  exact ⟨state.1, state.2, ran, size⟩

/-- The size stays bounded in all runs exactly when the capacity is not zero. -/
theorem lru_bounded_iff (program : C.Program) (capacity : Nat) :
    (∀ requests, ∃ cache log,
      run (logged (C.respond program)) (C.createCache capacity, []) requests = some (cache, log) ∧
        Bounded capacity cache) ↔ 1 ≤ capacity := by
  constructor
  · intro always
    by_contra zero
    have none : capacity = 0 := by omega
    subst capacity
    obtain ⟨cache, log, ran, bounded, _⟩ := always [.put 1 1, .put 2 2]
    obtain ⟨grown, other, ranAgain, size⟩ := zero_capacity_grows program
    rw [ran, Option.some_inj, Prod.mk.injEq] at ranAgain
    rw [ranAgain.1, size] at bounded
    simp at bounded
  · intro positive requests
    obtain ⟨log, cache, _, entries, ran, _, tracks, holds, _⟩ := runs_hold program positive requests
    obtain ⟨nodes, represents, _, same⟩ := holds
    have count := (tracks.leastRecent positive).count
    rw [← same, C.LRUCache.entries, List.length_map] at count
    have bound : (nodes.length : Int) ≤ max (capacity : Int) 1 := by omega
    exact ⟨cache, log.map asC, ran, represents.size.trans_le bound, nodes, represents.lists, bound⟩

/-- Two puts into a cache of capacity zero leave two nodes in it. -/
theorem zero_capacity_unbounded : ∃ cache log,
    run (logged (C.respond .lru)) (C.createCache (0 : Nat), []) [.put 1 1, .put 2 2] = some (cache, log) ∧
      ¬ Bounded 0 cache := by
  obtain ⟨cache, log, ran, size⟩ := zero_capacity_grows .lru
  refine ⟨cache, log, ran, ?_⟩
  intro bounded
  have less := bounded.1
  rw [size] at less
  simp at less

end HundredDays.LruCache
