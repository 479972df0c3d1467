import HundredDays.LruCache.CModel
import Mathlib.Data.List.Nodup

namespace HundredDays.LruCache.C

open HundredDays.Data

/-! The list and the hash table of C hold the same nodes. -/

variable {program : Program} {cache : LRUCache} {nodes left right chain : List Node} {n victim : Node}
  {key value : Int32} {start before : Option Node} {h rounds : Nat}

structure Represents (program : Program) (cache : LRUCache) (nodes : List Node) : Prop where
  lists : cache.links.Lists nodes
  chains : ∀ bucket, ∃ chain, Chain cache.hnext (cache.table bucket) chain ∧ chain.Nodup ∧
    ∀ node, node ∈ chain ↔ node ∈ nodes ∧ program.bucket (cache.key node) = bucket
  distinct : (nodes.map cache.key).Nodup
  size : cache.size = nodes.length
  /-- A node that was allocated is in the list, or was freed once. -/
  allocated : ∀ node, node < cache.allocated ↔ node ∈ nodes ∨ node ∈ cache.freed
  freed : cache.freed.Nodup
  live : ∀ node ∈ nodes, node ∉ cache.freed

def LRUCache.entries (cache : LRUCache) (nodes : List Node) : List (Int32 × Int32) :=
  nodes.map fun node => (cache.key node, cache.value node)

theorem create_represents (capacity : Int) : Represents program (createCache capacity) [] := by
  constructor
  · exact Links.Lists.nil _ _
  · intro bucket
    exact ⟨[], rfl, List.nodup_nil, by simp⟩
  all_goals simp [createCache]

/-- The walk over a chain finds the first node with the key. -/
theorem findFrom_eq (linked : Chain cache.hnext start chain) (enough : chain.length ≤ rounds) :
    findFrom cache key rounds start = some (chain.find? fun node => cache.key node = key) := by
  induction chain generalizing start rounds with
  | nil =>
      rw [chain_nil.mp linked]
      cases rounds <;> rfl
  | cons first rest ih =>
      obtain ⟨here, onward⟩ := linked
      rw [List.length_cons] at enough
      obtain ⟨more, rfl⟩ := Nat.exists_eq_add_of_le' (Nat.le_trans (Nat.le_add_left 1 _) enough)
      rw [here, findFrom]
      by_cases same : cache.key first = key
      · simp [same]
      · rw [if_neg same, ih onward (by omega)]
        simp [same]

/-- The walk of `tableRemove` unlinks the first node with the key. -/
theorem removeFrom_eq (linked : Chain cache.hnext start (left ++ n :: right))
    (passed : ∀ node ∈ left, cache.key node ≠ cache.key n) (enough : (left ++ n :: right).length ≤ rounds) :
    removeFrom cache (cache.key n) h rounds before start =
      some (redirect cache h (left.getLast?.or before) (cache.hnext n)) := by
  induction left generalizing start before rounds with
  | nil =>
      simp only [List.nil_append, List.length_cons] at enough
      obtain ⟨more, rfl⟩ := Nat.exists_eq_add_of_le' (Nat.le_trans (Nat.le_add_left 1 _) enough)
      rw [linked.1, removeFrom, if_pos rfl]
      rfl
  | cons first rest ih =>
      simp only [List.cons_append, List.length_cons] at enough
      obtain ⟨more, rfl⟩ := Nat.exists_eq_add_of_le' (Nat.le_trans (Nat.le_add_left 1 _) enough)
      have last : (first :: rest).getLast?.or before = rest.getLast?.or (some first) := by
        cases rest <;> simp [List.getLast?_cons]
      rw [linked.1, removeFrom, if_neg (passed first (by simp)), last]
      exact ih linked.2 (fun node member => passed node (by simp [member])) (by omega)

/-- The hash table does not know the list. -/
theorem removeFrom_links {links : Links Node} : removeFrom { cache with links } key h rounds before start =
    (removeFrom cache key h rounds before start).map fun after => { after with links } := by
  induction rounds generalizing before start with
  | zero => cases start <;> rfl
  | succ rounds ih =>
      cases start with
      | none => rfl
      | some n =>
          rw [removeFrom, removeFrom]
          split
          · cases before <;> rfl
          · exact ih

theorem tableRemove_links {links : Links Node} : tableRemove program { cache with links } key =
    (tableRemove program cache key).map fun after => { after with links } :=
  removeFrom_links

namespace Represents

theorem key_injective (represents : Represents program cache nodes) {first second : Node}
    (inFirst : first ∈ nodes) (inSecond : second ∈ nodes) (same : cache.key first = cache.key second) :
    first = second :=
  List.inj_on_of_nodup_map represents.distinct inFirst inSecond same

theorem lt_allocated (represents : Represents program cache nodes) (member : n ∈ nodes) : n < cache.allocated :=
  (represents.allocated n).mpr (Or.inl member)

theorem length_chain_le (represents : Represents program cache nodes) (distinct : chain.Nodup)
    (inside : ∀ node ∈ chain, node ∈ nodes) : chain.length ≤ cache.allocated := by
  have within : chain.toFinset ⊆ Finset.range cache.allocated := by
    intro node member
    exact Finset.mem_range.mpr (represents.lt_allocated (inside node (List.mem_toFinset.mp member)))
  have fewer := Finset.card_le_card within
  rwa [List.toFinset_card_of_nodup distinct, Finset.card_range] at fewer

/-- What is found in the table is what is in the list. -/
theorem tableFind_eq (represents : Represents program cache nodes) (key : Int32) :
    tableFind program cache key = some (nodes.find? fun node => cache.key node = key) := by
  obtain ⟨chain, linked, distinct, members⟩ := represents.chains (program.bucket key)
  have enough := represents.length_chain_le distinct fun node member => ((members node).mp member).1
  rw [tableFind, findFrom_eq linked enough]
  congr 1
  cases listed : nodes.find? fun node => cache.key node = key with
  | none =>
      rw [List.find?_eq_none] at listed ⊢
      intro node member
      exact listed node ((members node).mp member).1
  | some n =>
      have named : cache.key n = key := by simpa using List.find?_some listed
      have inNodes := List.mem_of_find?_eq_some listed
      have inChain : n ∈ chain := (members n).mpr ⟨inNodes, by rw [named]⟩
      cases found : chain.find? fun node => cache.key node = key with
      | none =>
          rw [List.find?_eq_none] at found
          exact absurd (decide_eq_true named) (found n inChain)
      | some other =>
          have same : cache.key other = key := by simpa using List.find?_some found
          have member := ((members other).mp (List.mem_of_find?_eq_some found)).1
          rw [represents.key_injective member inNodes (same.trans named.symm)]

/-- Other links for the same nodes, in another order. -/
theorem relink (represents : Represents program cache nodes) {links : Links Node} {others : List Node}
    (lists : links.Lists others) (same : others.Perm nodes) :
    Represents program { cache with links } others := by
  constructor
  · exact lists
  · intro bucket
    obtain ⟨chain, linked, distinct, members⟩ := represents.chains bucket
    refine ⟨chain, linked, distinct, ?_⟩
    intro node
    rw [members, same.mem_iff]
  · exact (same.map cache.key).nodup_iff.mpr represents.distinct
  · rw [same.length_eq]
    exact represents.size
  · intro node
    rw [same.mem_iff]
    exact represents.allocated node
  · exact represents.freed
  · intro node member
    exact represents.live node (same.mem_iff.mp member)

theorem moveToFront (represents : Represents program cache (left ++ n :: right)) :
    Represents program (moveToFront cache n) (n :: (left ++ right)) := by
  rw [C.moveToFront]
  split
  next first =>
    have head := represents.lists.head
    rw [first] at head
    cases left with
    | nil => exact represents
    | cons other rest =>
        have same : n = other := by simpa using head
        have twice := represents.lists.nodup
        simp [same] at twice
  next =>
    obtain ⟨bypassed, fresh⟩ := represents.lists.bypass
    exact represents.relink (bypassed.pushFront fresh) List.perm_middle.symm

/-- The chains without a node. -/
structure Removed (program : Program) (cache : LRUCache) (nodes : List Node) (n : Node)
    (hnext : Node → Option Node) (table : Nat → Option Node) : Prop where
  chains : ∀ bucket, ∃ chain, Chain hnext (table bucket) chain ∧ chain.Nodup ∧
    ∀ node, node ∈ chain ↔ node ∈ nodes ∧ node ≠ n ∧ program.bucket (cache.key node) = bucket

/-- When the chain of a node is without it and the others are as before, the node is
removed. -/
theorem removed (represents : Represents program cache nodes) {hnext : Node → Option Node}
    {table : Nat → Option Node} (linked : Chain hnext (table (program.bucket (cache.key n))) (left ++ right))
    (distinct : (left ++ n :: right).Nodup)
    (members : ∀ node, node ∈ left ++ n :: right ↔
      node ∈ nodes ∧ program.bucket (cache.key node) = program.bucket (cache.key n))
    (kept : ∀ bucket chain, bucket ≠ program.bucket (cache.key n) →
      (∀ node ∈ chain, program.bucket (cache.key node) = bucket) →
      Chain cache.hnext (cache.table bucket) chain → Chain hnext (table bucket) chain) :
    Removed program cache nodes n hnext table := by
  constructor
  intro bucket
  by_cases here : bucket = program.bucket (cache.key n)
  · subst bucket
    refine ⟨left ++ right, linked, distinct.sublist (by simp), ?_⟩
    intro node
    have absent := (List.nodup_cons.mp (List.nodup_middle.mp distinct)).1
    have whole := members node
    by_cases same : node = n
    · simpa [same] using absent
    · simp only [List.mem_append, List.mem_cons, same, false_or] at whole
      rw [List.mem_append, whole]
      simp [same]
  · obtain ⟨chain, linked, distinct, members⟩ := represents.chains bucket
    refine ⟨chain, kept bucket chain here (fun node member => ((members node).mp member).2) linked, distinct, ?_⟩
    intro node
    rw [members]
    constructor
    · intro both
      refine ⟨both.1, ?_, both.2⟩
      intro same
      exact here (same ▸ both.2.symm)
    · intro all
      exact ⟨all.1, all.2.2⟩

/-- The node with the key leaves its chain, and no other chain changes. -/
theorem tableRemove_eq (represents : Represents program cache nodes) (member : n ∈ nodes) :
    ∃ hnext table, tableRemove program cache (cache.key n) = some { cache with hnext, table } ∧
      Removed program cache nodes n hnext table := by
  obtain ⟨chain, linked, distinct, members⟩ := represents.chains (program.bucket (cache.key n))
  obtain ⟨left, right, rfl⟩ := List.append_of_mem ((members n).mpr ⟨member, rfl⟩)
  have enough := represents.length_chain_le distinct fun node inside => ((members node).mp inside).1
  have absent := (List.nodup_cons.mp (List.nodup_middle.mp distinct)).1
  have passed : ∀ node ∈ left, cache.key node ≠ cache.key n := by
    intro node early same
    have node_eq := represents.key_injective ((members node).mp (by simp [early])).1 member same
    exact absent (node_eq ▸ List.mem_append_left right early)
  have walked : tableRemove program cache (cache.key n) = some (redirect cache
      (program.bucket (cache.key n)) (left.getLast?.or none) (cache.hnext n)) :=
    removeFrom_eq linked passed enough
  have link := linked.next_of_append
  rcases left.eq_nil_or_concat' with rfl | ⟨initial, before, rfl⟩
  · refine ⟨cache.hnext, Function.update cache.table (program.bucket (cache.key n)) (cache.hnext n), walked, ?_⟩
    refine represents.removed ?_ distinct members ?_
    · rw [Function.update_self]
      exact linked.2
    · intro bucket chain other _ same
      rwa [Function.update_of_ne other]
  · rw [List.getLast?_concat] at walked
    refine ⟨Function.update cache.hnext before (cache.hnext n), cache.table, walked, ?_⟩
    refine represents.removed ?_ distinct members ?_
    · simp only [List.append_assoc, List.singleton_append] at linked distinct ⊢
      exact linked.unlink_after distinct
    · intro bucket chain other inBucket same
      apply same.update_outside
      intro inside
      have first := ((members before).mp (by simp)).2
      exact other ((inBucket before inside).symm.trans first)

/-- Evicting takes the last node of the list out of both structures and frees it. -/
theorem evictLRU_eq (represents : Represents program cache (left ++ [victim])) :
    ∃ after, evictLRU program cache = some after ∧ Represents program after left ∧ after.key = cache.key ∧
      after.value = cache.value ∧ after.capacity = cache.capacity := by
  have tail : cache.links.tail = some victim := by
    rw [represents.lists.tail, List.getLast?_concat]
  obtain ⟨bypassed, fresh⟩ := represents.lists.bypass
  rw [List.append_nil] at bypassed fresh
  obtain ⟨hnext, table, removed, chains⟩ := represents.tableRemove_eq (List.mem_append_right left (List.mem_singleton_self victim))
  have evicted : evictLRU program cache = some { cache with
      links := cache.links.bypass victim, hnext, table
      freed := victim :: cache.freed, size := cache.size - 1 } := by
    rw [evictLRU, tail]
    simp only [listUnlink]
    rw [tableRemove_links, removed]
    rfl
  refine ⟨_, evicted, ?_, rfl, rfl, rfl⟩
  have others : ∀ node, node ∈ left ↔ node ∈ left ++ [victim] ∧ node ≠ victim := by
    intro node
    rw [List.mem_append, List.mem_singleton]
    constructor
    · intro member
      exact ⟨Or.inl member, fun same => fresh (same ▸ member)⟩
    · intro both
      exact both.1.resolve_right both.2
  constructor
  · exact bypassed
  · intro bucket
    obtain ⟨chain, linked, distinct, members⟩ := chains.chains bucket
    refine ⟨chain, linked, distinct, ?_⟩
    intro node
    rw [members, others, and_assoc]
  · exact represents.distinct.sublist (by simp)
  · have size := represents.size
    rw [List.length_append, List.length_singleton] at size
    simp only
    omega
  · intro node
    rw [represents.allocated, others, List.mem_cons]
    by_cases same : node = victim <;> simp [same]
  · rw [List.nodup_cons]
    exact ⟨represents.live victim (by simp), represents.freed⟩
  · intro node member
    rw [List.mem_cons, not_or]
    exact ⟨((others node).mp member).2, represents.live node ((others node).mp member).1⟩

/-- A new node goes to the front of the list and of its chain. -/
theorem putNew (represents : Represents program cache nodes) (key value : Int32)
    (fresh : ∀ node ∈ nodes, cache.key node ≠ key) :
    Represents program (putNew program cache key value) (cache.allocated :: nodes) ∧
      (putNew program cache key value).entries (cache.allocated :: nodes) = (key, value) :: cache.entries nodes := by
  have absent : cache.allocated ∉ nodes := fun member => Nat.lt_irrefl _ (represents.lt_allocated member)
  have notFreed : cache.allocated ∉ cache.freed := fun member =>
    Nat.lt_irrefl _ ((represents.allocated _).mpr (Or.inr member))
  have apart : ∀ node ∈ nodes, node ≠ cache.allocated := by
    intro node member same
    exact absent (same ▸ member)
  have keys : ∀ node ∈ nodes, Function.update cache.key cache.allocated key node = cache.key node := by
    intro node member
    exact Function.update_of_ne (apart node member) _ _
  have values : ∀ node ∈ nodes, Function.update cache.value cache.allocated value node = cache.value node := by
    intro node member
    exact Function.update_of_ne (apart node member) _ _
  refine ⟨?_, ?_⟩
  swap
  · simp only [LRUCache.entries, C.putNew, tableInsert, listAddFront, List.map_cons, Function.update_self]
    congr 1
    apply List.map_congr_left
    intro node member
    rw [keys node member, values node member]
  constructor
  · exact represents.lists.pushFront absent
  · intro bucket
    obtain ⟨chain, linked, distinct, members⟩ := represents.chains bucket
    have outside : cache.allocated ∉ chain := fun member => absent ((members _).mp member).1
    have others : ∀ node, node ∈ chain ↔ node ∈ nodes ∧
        program.bucket (Function.update cache.key cache.allocated key node) = bucket := by
      intro node
      rw [members]
      constructor
      · intro both
        rw [keys node both.1]
        exact both
      · intro both
        rw [keys node both.1] at both
        exact both
    simp only [C.putNew, tableInsert, listAddFront, Function.update_self]
    by_cases here : bucket = program.bucket key
    · subst bucket
      refine ⟨cache.allocated :: chain, ⟨Function.update_self _ _ _, ?_⟩, List.nodup_cons.mpr ⟨outside, distinct⟩, ?_⟩
      · rw [Function.update_self]
        exact (linked.update_outside outside).update_outside outside
      · intro node
        rw [List.mem_cons, List.mem_cons, others]
        by_cases same : node = cache.allocated <;> simp [same]
    · rw [Function.update_of_ne here]
      refine ⟨chain, (linked.update_outside outside).update_outside outside, distinct, ?_⟩
      intro node
      rw [others, List.mem_cons]
      by_cases same : node = cache.allocated
      · simp [same, absent, Ne.symm here]
      · simp [same]
  · simp only [C.putNew, tableInsert, listAddFront, List.map_cons, Function.update_self, List.nodup_cons]
    rw [List.map_congr_left keys]
    refine ⟨?_, represents.distinct⟩
    intro member
    obtain ⟨node, inside, same⟩ := List.mem_map.mp member
    exact fresh node inside same
  · simp only [C.putNew, tableInsert, listAddFront, List.length_cons]
    have size := represents.size
    omega
  · intro node
    have before := represents.allocated node
    simp only [C.putNew, tableInsert, listAddFront, List.mem_cons]
    rw [or_assoc, ← before]
    omega
  · exact represents.freed
  · intro node member
    cases List.mem_cons.mp member with
    | inl same => exact same ▸ notFreed
    | inr old => exact represents.live node old

end Represents

end HundredDays.LruCache.C
