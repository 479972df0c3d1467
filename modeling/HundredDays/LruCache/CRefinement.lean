import HundredDays.LruCache.CStructure

namespace HundredDays.LruCache.C

open HundredDays.Data

/-! The cache of C replaces the least recently used entry. -/

variable {program : Program} {cache : LRUCache} {nodes left right : List Node} {n : Node}
  {key value : Int32} {capacity : Nat} {entries : List (Int32 × Int32)}

/-- The list and the table hold these entries, the one used last in front. -/
def Holds (program : Program) (capacity : Nat) (cache : LRUCache) (entries : List (Int32 × Int32)) : Prop :=
  ∃ nodes, Represents program cache nodes ∧ cache.capacity = capacity ∧ cache.entries nodes = entries

theorem find_entries : Recency.find (cache.entries nodes) key =
    (nodes.find? fun node => cache.key node = key).map cache.value := by
  rw [Recency.find, LRUCache.entries, List.find?_map, Option.map_map]
  rfl

theorem moveToFront_entries : (moveToFront cache n).entries nodes = cache.entries nodes := by
  rw [moveToFront]
  split <;> rfl

theorem moveToFront_capacity : (moveToFront cache n).capacity = cache.capacity := by
  rw [moveToFront]
  split <;> rfl

namespace Represents

theorem entries_nodup (represents : Represents program cache nodes) :
    ((cache.entries nodes).map Prod.fst).Nodup := by
  rw [LRUCache.entries, List.map_map]
  exact represents.distinct

/-- Where the node with the key is in the list. -/
theorem split (represents : Represents program cache nodes)
    (found : (nodes.find? fun node => cache.key node = key) = some n) :
    ∃ left right, nodes = left ++ n :: right ∧ cache.key n = key ∧
      cache.entries nodes = cache.entries left ++ (key, cache.value n) :: cache.entries right ∧
      ∀ value, Represents program { cache with value := Function.update cache.value n value } nodes ∧
        LRUCache.entries { cache with value := Function.update cache.value n value } (n :: (left ++ right)) =
          (key, value) :: cache.entries (left ++ right) := by
  have named : cache.key n = key := by simpa using List.find?_some found
  obtain ⟨left, right, rfl⟩ := List.append_of_mem (List.mem_of_find?_eq_some found)
  refine ⟨left, right, rfl, named, by simp [LRUCache.entries, named], ?_⟩
  intro value
  have absent := (List.nodup_cons.mp (List.nodup_middle.mp represents.lists.nodup)).1
  refine ⟨⟨represents.lists, represents.chains, represents.distinct, represents.size, represents.allocated,
    represents.freed, represents.live⟩, ?_⟩
  rw [LRUCache.entries, LRUCache.entries, List.map_cons]
  simp only [Function.update_self, named]
  congr 1
  apply List.map_congr_left
  intro node member
  have apart : node ≠ n := by
    intro same
    exact absent (same ▸ member)
  rw [Function.update_of_ne apart]

end Represents

namespace Holds

theorem get (holds : Holds program capacity cache entries) (key : Int32) :
    ∃ after, get program cache key = some ((Recency.find entries key).getD (-1), after) ∧
      Holds program capacity after (Recency.get entries key).2 := by
  obtain ⟨nodes, represents, same, rfl⟩ := holds
  rw [C.get, represents.tableFind_eq, find_entries]
  cases found : nodes.find? fun node => cache.key node = key with
  | none =>
      have missing : Recency.find (cache.entries nodes) key = none := by rw [find_entries, found]; rfl
      rw [Recency.get_missing missing]
      exact ⟨cache, rfl, nodes, represents, same, rfl⟩
  | some n =>
      obtain ⟨left, right, rfl, named, entries, _⟩ := represents.split found
      have got := Recency.get_held (entries ▸ represents.entries_nodup)
      rw [entries, got]
      refine ⟨moveToFront cache n, rfl, n :: (left ++ right), represents.moveToFront,
        moveToFront_capacity.trans same, ?_⟩
      rw [moveToFront_entries]
      simp [LRUCache.entries, named]

theorem put (holds : Holds program capacity cache entries) (positive : 1 ≤ capacity) (key value : Int32) :
    ∃ after, put program cache key value = some after ∧
      Holds program capacity after (Recency.put capacity entries key value) := by
  obtain ⟨nodes, represents, same, rfl⟩ := holds
  rw [C.put, represents.tableFind_eq]
  cases found : nodes.find? fun node => cache.key node = key with
  | some n =>
      obtain ⟨left, right, rfl, named, entries, updated⟩ := represents.split found
      obtain ⟨represented, entriesAfter⟩ := updated value
      rw [entries, Recency.put_held (entries ▸ represents.entries_nodup)]
      refine ⟨_, rfl, n :: (left ++ right), represented.moveToFront, moveToFront_capacity.trans same, ?_⟩
      rw [moveToFront_entries, entriesAfter]
      simp [LRUCache.entries]
  | none =>
      have missing : Recency.find (cache.entries nodes) key = none := by rw [find_entries, found]; rfl
      have fresh : ∀ node ∈ nodes, cache.key node ≠ key := by
        intro node member
        simpa using List.find?_eq_none.mp found node member
      have length : (cache.entries nodes).length = nodes.length := List.length_map _
      rw [Recency.put_missing missing, length]
      by_cases full : nodes.length = capacity
      · have nonempty : nodes ≠ [] := by
          intro empty
          rw [empty, List.length_nil] at full
          omega
        obtain ⟨rest, victim, rfl⟩ := (List.eq_nil_or_concat' nodes).resolve_left nonempty
        obtain ⟨evicted, evicting, represented, keys, values, kept⟩ := represents.evictLRU_eq
        have freshLeft : ∀ node ∈ rest, evicted.key node ≠ key := by
          intro node member
          rw [keys]
          exact fresh node (by simp [member])
        obtain ⟨added, entriesAfter⟩ := represented.putNew key value freshLeft
        refine ⟨putNew program evicted key value, ?_, _, added, kept.trans same, ?_⟩
        · simp [represents.size, full, same, evicting]
        · rw [entriesAfter, if_pos full]
          simp [LRUCache.entries, keys, values]
      · obtain ⟨added, entriesAfter⟩ := represents.putNew key value fresh
        have differ : cache.size ≠ cache.capacity := by
          rw [represents.size, same]
          exact_mod_cast full
        refine ⟨putNew program cache key value, ?_, _, added, same, ?_⟩
        · simp [differ]
        · rw [entriesAfter, if_neg full]

end Holds

end HundredDays.LruCache.C
