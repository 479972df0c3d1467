import HundredDays.LruCache.Model

namespace HundredDays.LruCache

open HundredDays.Data

/-! The cache of C++ replaces the least recently used entry. -/

variable {K V : Type} {cache : LRUCache K V} {nodes left right : List Node} {n : Node} {key : K} {value : V}
  {capacity : Nat} {held : List (K × V)}

structure Represents (cache : LRUCache K V) (nodes : List Node) : Prop where
  fenced : Fenced cache.next cache.prev cache.head cache.tail nodes
  mp : ∀ key node, cache.mp.find key = some node ↔ node ∈ nodes ∧ cache.key node = key
  size : cache.mp.size = nodes.length
  allocated : ∀ node, node < cache.allocated ↔
    node ∈ cache.head :: (nodes ++ [cache.tail]) ∨ node ∈ cache.freed
  freed : cache.freed.Nodup
  live : ∀ node ∈ cache.head :: (nodes ++ [cache.tail]), node ∉ cache.freed

namespace LRUCache

def entries (cache : LRUCache K V) (nodes : List Node) : List (K × V) :=
  nodes.map fun node => (cache.key node, cache.val node)

/-- The list and the map hold these entries, the one used last in front. -/
def Holds (capacity : Nat) (cache : LRUCache K V) (entries : List (K × V)) : Prop :=
  ∃ nodes, Represents cache nodes ∧ cache.limit = capacity ∧ cache.entries nodes = entries

theorem create_holds [Inhabited K] [Inhabited V] (positive : 1 ≤ capacity) : (create capacity : LRUCache K V).Holds capacity [] := by
  refine ⟨[], ?_, if_neg (by omega), rfl⟩
  constructor
  · constructor
    · simp [create]
    · simp [create]
  · simp [create]
  · rfl
  · intro node
    simp only [create, List.nil_append, List.mem_cons, List.not_mem_nil, or_false]
    omega
  · exact List.nodup_nil
  · simp [create]

theorem delNode_eq (cache : LRUCache K V)
    (fenced : Fenced cache.next cache.prev cache.head cache.tail (left ++ n :: right)) :
    ∃ next prev, cache.delNode n = some { cache with next, prev } ∧
      Fenced next prev cache.head cache.tail (left ++ right) := by
  obtain ⟨before, after, back, forth, apart, fencedAfter⟩ := fenced.delete
  refine ⟨_, _, ?_, fencedAfter⟩
  simp [delNode, back, forth, Function.update_of_ne apart.symm]

theorem addNode_eq (cache : LRUCache K V)
    (fenced : Fenced cache.next cache.prev cache.head cache.tail nodes)
    (fresh : n ∉ cache.head :: (nodes ++ [cache.tail])) :
    ∃ next prev, cache.addNode n = some { cache with next, prev } ∧
      Fenced next prev cache.head cache.tail (n :: nodes) := by
  obtain ⟨old, forth, fencedAfter⟩ := fenced.addFirst fresh
  exact ⟨_, _, by simp [addNode, forth], fencedAfter⟩

end LRUCache

namespace Represents

theorem keys_nodup (represents : Represents cache nodes) : ((cache.entries nodes).map Prod.fst).Nodup := by
  rw [LRUCache.entries, List.map_map]
  have within := represents.fenced.nodup
  rw [List.nodup_cons, List.nodup_append] at within
  apply within.2.1.map_on
  intro first inFirst second inSecond same
  have foundFirst := (represents.mp (cache.key first) first).mpr ⟨inFirst, rfl⟩
  have foundSecond := (represents.mp (cache.key first) second).mpr ⟨inSecond, same.symm⟩
  exact Option.some.inj (foundFirst.symm.trans foundSecond)

/-- Where the node with the key is in the list. -/
theorem split (represents : Represents cache nodes) (found : cache.mp.find key = some n) :
    ∃ left right, nodes = left ++ n :: right ∧ cache.key n = key ∧
      cache.entries nodes = cache.entries left ++ (key, cache.val n) :: cache.entries right := by
  obtain ⟨member, named⟩ := (represents.mp key n).mp found
  obtain ⟨left, right, rfl⟩ := List.append_of_mem member
  exact ⟨left, right, rfl, named, by simp [LRUCache.entries, named]⟩

theorem find_entries [DecidableEq K] (represents : Represents cache nodes) (key : K) :
    Recency.find (cache.entries nodes) key = (cache.mp.find key).map cache.val := by
  cases found : cache.mp.find key with
  | none =>
      rw [Option.map_none, Recency.find_eq_none, LRUCache.entries, List.map_map]
      intro member
      obtain ⟨node, inside, same⟩ := List.mem_map.mp member
      rw [(represents.mp key node).mpr ⟨inside, same⟩] at found
      cases found
  | some n =>
      obtain ⟨left, right, rfl, named, entries⟩ := represents.split found
      rw [entries, Recency.find_middle (entries ▸ represents.keys_nodup)]
      rfl

/-- Other links and values for the same nodes, in another order. -/
theorem relink (represents : Represents cache nodes) {next prev : Node → Option Node} {others : List Node}
    (val : Node → V) (fenced : Fenced next prev cache.head cache.tail others) (same : others.Perm nodes) :
    Represents { cache with next, prev, val } others := by
  have all : ∀ node, node ∈ cache.head :: (others ++ [cache.tail]) ↔
      node ∈ cache.head :: (nodes ++ [cache.tail]) := by
    intro node
    rw [List.mem_cons, List.mem_cons, List.mem_append, List.mem_append, same.mem_iff]
  constructor
  · exact fenced
  · intro key node
    rw [same.mem_iff]
    exact represents.mp key node
  · rw [same.length_eq]
    exact represents.size
  · intro node
    rw [all]
    exact represents.allocated node
  · exact represents.freed
  · intro node member
    exact represents.live node ((all node).mp member)

/-- Taking a node out and adding it again moves it to the front. -/
theorem refresh (represents : Represents cache (left ++ n :: right)) (val : Node → V) :
    ∃ next prev, (({ cache with val }.delNode n).bind fun cache => cache.addNode n) =
      some { cache with next, prev, val } ∧ Represents { cache with next, prev, val } (n :: (left ++ right)) := by
  have absent : n ∉ cache.head :: ((left ++ right) ++ [cache.tail]) := by
    have distinct := represents.fenced.nodup
    rw [List.append_assoc, List.cons_append, ← List.cons_append, List.nodup_middle, List.nodup_cons] at distinct
    simpa using distinct.1
  obtain ⟨next, prev, deleted, fenced⟩ := LRUCache.delNode_eq { cache with val } represents.fenced
  obtain ⟨nextAfter, prevAfter, added, fencedAfter⟩ :=
    LRUCache.addNode_eq { cache with next, prev, val } fenced absent
  refine ⟨nextAfter, prevAfter, ?_, represents.relink val fencedAfter List.perm_middle.symm⟩
  rw [deleted, Option.bind_some, added]

variable [DecidableEq K]

/-- Taking the last node out of the list and the map, and freeing it. -/
theorem evict (represents : Represents cache (left ++ [n])) :
    ∃ next prev, { cache with mp := cache.mp.erase (cache.key n) }.delNode n =
        some { cache with mp := cache.mp.erase (cache.key n), next, prev } ∧
      Represents { cache with mp := cache.mp.erase (cache.key n), next, prev, freed := n :: cache.freed } left := by
  obtain ⟨next, prev, deleted, fenced⟩ :=
    LRUCache.delNode_eq { cache with mp := cache.mp.erase (cache.key n) } represents.fenced
  rw [List.append_nil] at fenced
  have distinct := represents.fenced.nodup
  have found : cache.mp.find (cache.key n) = some n := (represents.mp _ _).mpr ⟨by simp, rfl⟩
  rw [List.append_assoc, ← List.cons_append, List.singleton_append, List.nodup_middle, List.nodup_cons] at distinct
  have others : ∀ node, node ∈ cache.head :: (left ++ [cache.tail]) ↔
      node ∈ cache.head :: (left ++ [n] ++ [cache.tail]) ∧ node ≠ n := by
    intro node
    by_cases same : node = n
    · simpa [same] using distinct.1
    · simp [same]
  refine ⟨next, prev, deleted, ?_⟩
  constructor
  · exact fenced
  · intro key node
    simp only [UnorderedMap.erase, Function.update_apply]
    split
    next same =>
      subst key
      constructor
      · intro impossible
        cases impossible
      · intro both
        have again := (represents.mp (cache.key n) node).mpr ⟨by simp [both.1], both.2⟩
        rw [found, Option.some_inj] at again
        exact absurd (again ▸ both.1) (fun inside => distinct.1 (by simp [inside]))
    next differ =>
      rw [represents.mp]
      constructor
      · intro both
        refine ⟨?_, both.2⟩
        have apart : node ≠ n := fun same => differ (same ▸ both.2.symm)
        simpa [apart] using both.1
      · intro both
        exact ⟨by simp [both.1], both.2⟩
  · have size := represents.size
    rw [List.length_append, List.length_singleton] at size
    simp [UnorderedMap.erase, found, size]
  · intro node
    rw [represents.allocated, others, List.mem_cons]
    by_cases same : node = n <;> simp [same]
  · rw [List.nodup_cons]
    exact ⟨represents.live n (by simp), represents.freed⟩
  · intro node member
    have both := (others node).mp member
    rw [List.mem_cons, not_or]
    exact ⟨both.2, represents.live node both.1⟩

/-- A new node goes to the front of the list and into the map. -/
theorem putNew (represents : Represents cache nodes) (key : K) (value : V) (missing : cache.mp.find key = none) :
    ∃ after, cache.putNew key value = some after ∧ Represents after (cache.allocated :: nodes) ∧
      after.limit = cache.limit ∧ after.entries (cache.allocated :: nodes) = (key, value) :: cache.entries nodes := by
  have absent : cache.allocated ∉ cache.head :: (nodes ++ [cache.tail]) := fun member =>
    Nat.lt_irrefl _ ((represents.allocated _).mpr (Or.inl member))
  have notFreed : cache.allocated ∉ cache.freed := fun member =>
    Nat.lt_irrefl _ ((represents.allocated _).mpr (Or.inr member))
  have apart : ∀ node ∈ nodes, node ≠ cache.allocated := by
    intro node member same
    exact absent (by simp [← same, member])
  let placed : LRUCache K V := { cache with
    allocated := cache.allocated + 1
    key := Function.update cache.key cache.allocated key
    val := Function.update cache.val cache.allocated value
    next := Function.update cache.next cache.allocated none
    prev := Function.update cache.prev cache.allocated none }
  have fenced : Fenced placed.next placed.prev placed.head placed.tail nodes :=
    ⟨represents.fenced.segment.update_outside none none absent, represents.fenced.nodup⟩
  obtain ⟨next, prev, added, fencedAfter⟩ := placed.addNode_eq fenced absent
  have inserted : cache.putNew key value =
      some { placed with next, prev, mp := cache.mp.assign key cache.allocated } := by
    change (placed.addNode cache.allocated).bind (fun after =>
      some { after with mp := after.mp.assign key cache.allocated }) = _
    rw [added]
    rfl
  have all : ∀ node, node ∈ cache.head :: ((cache.allocated :: nodes) ++ [cache.tail]) ↔
      node = cache.allocated ∨ node ∈ cache.head :: (nodes ++ [cache.tail]) := by
    intro node
    rw [List.cons_append, List.mem_cons, List.mem_cons, List.mem_cons]
    tauto
  refine ⟨_, inserted, ?_, rfl, ?_⟩
  · constructor
    · exact fencedAfter
    · intro other node
      simp only [placed, UnorderedMap.assign, List.mem_cons]
      by_cases new : node = cache.allocated
      · rw [new, Function.update_self, Function.update_apply]
        split
        next same => simp [same]
        next differ =>
          rw [represents.mp]
          constructor
          · intro both
            exact absurd rfl (apart _ both.1)
          · intro both
            exact absurd both.2.symm differ
      · rw [Function.update_of_ne new, Function.update_apply]
        split
        next same =>
          subst other
          constructor
          · intro equal
            exact absurd (Option.some.inj equal).symm new
          · intro both
            have listed := both.1.resolve_left new
            rw [(represents.mp key node).mpr ⟨listed, both.2⟩] at missing
            cases missing
        next differ => rw [represents.mp, or_iff_right new]
    · simp [UnorderedMap.assign, missing, represents.size]
    · intro node
      have before := represents.allocated node
      rw [all, or_assoc, ← before]
      exact Nat.lt_succ_iff_lt_or_eq.trans or_comm
    · exact represents.freed
    · intro node member
      cases (all node).mp member with
      | inl new => exact new ▸ notFreed
      | inr old => exact represents.live node old
  · simp only [LRUCache.entries, placed, List.map_cons, Function.update_self]
    congr 1
    apply List.map_congr_left
    intro node member
    rw [Function.update_of_ne (apart node member), Function.update_of_ne (apart node member)]

end Represents

namespace LRUCache.Holds

variable [DecidableEq K]

theorem get (holds : cache.Holds capacity held) (key : K) :
    ∃ after, cache.get key = some (Recency.find held key, after) ∧
      after.Holds capacity (Recency.get held key).2 := by
  obtain ⟨nodes, represents, same, rfl⟩ := holds
  rw [LRUCache.get, represents.find_entries]
  cases found : cache.mp.find key with
  | none =>
      have missing : Recency.find (cache.entries nodes) key = none := by rw [represents.find_entries, found]; rfl
      rw [Recency.get_missing missing]
      exact ⟨cache, rfl, nodes, represents, same, rfl⟩
  | some n =>
      obtain ⟨left, right, rfl, named, entries⟩ := represents.split found
      obtain ⟨next, prev, moved, represented⟩ := represents.refresh cache.val
      rw [entries, Recency.get_held (entries ▸ represents.keys_nodup)]
      refine ⟨{ cache with next, prev }, ?_, n :: (left ++ right), represented, same, ?_⟩
      · change (cache.delNode n).bind (fun deleted =>
          (deleted.addNode n).bind fun added => some (some (added.val n), added)) = _
        rw [← Option.bind_assoc, moved]
        rfl
      · simp [LRUCache.entries, named]

theorem put (holds : cache.Holds capacity held) (positive : 1 ≤ capacity) (key : K) (value : V) :
    ∃ after, cache.put key value = some after ∧ after.Holds capacity (Recency.put capacity held key value) := by
  obtain ⟨nodes, represents, same, rfl⟩ := holds
  rw [LRUCache.put]
  cases found : cache.mp.find key with
  | some n =>
      obtain ⟨left, right, rfl, named, entries⟩ := represents.split found
      obtain ⟨next, prev, moved, represented⟩ := represents.refresh (Function.update cache.val n value)
      rw [entries, Recency.put_held (entries ▸ represents.keys_nodup)]
      refine ⟨_, moved, n :: (left ++ right), represented, same, ?_⟩
      have absent : n ∉ left ++ right := by
        have distinct := represents.fenced.nodup
        rw [List.nodup_cons, List.nodup_append] at distinct
        exact (List.nodup_cons.mp (List.nodup_middle.mp distinct.2.1)).1
      simp only [LRUCache.entries, List.map_cons, Function.update_self, named, ← List.map_append]
      congr 1
      apply List.map_congr_left
      intro node member
      have apart : node ≠ n := by
        intro same
        exact absent (same ▸ member)
      rw [Function.update_of_ne apart]
  | none =>
      have missing : Recency.find (cache.entries nodes) key = none := by rw [represents.find_entries, found]; rfl
      have length : (cache.entries nodes).length = nodes.length := List.length_map _
      rw [Recency.put_missing missing, length]
      by_cases full : nodes.length = capacity
      · have nonempty : nodes ≠ [] := by
          intro empty
          rw [empty, List.length_nil] at full
          omega
        obtain ⟨rest, victim, rfl⟩ := (List.eq_nil_or_concat' nodes).resolve_left nonempty
        obtain ⟨next, prev, deleted, represented⟩ := represents.evict
        have absent : (cache.mp.erase (cache.key victim)).find key = none := by
          simp [UnorderedMap.erase, Function.update_apply, found]
        obtain ⟨after, added, representedAfter, limit, entries⟩ := represented.putNew key value absent
        have limited : cache.mp.size = cache.limit := by rw [represents.size, same, full]
        refine ⟨after, ?_, _, representedAfter, limit.trans same, ?_⟩
        · simp [limited, represents.fenced.back, deleted, added]
        · rw [entries, if_pos full]
          simp [LRUCache.entries]
      · obtain ⟨after, added, represented, limit, entries⟩ := represents.putNew key value found
        refine ⟨after, ?_, _, represented, limit.trans same, ?_⟩
        · simp [represents.size, same, full, added]
        · rw [entries, if_neg full]

end LRUCache.Holds

end HundredDays.LruCache
