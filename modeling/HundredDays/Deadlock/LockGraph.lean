import HundredDays.Data.DepthFirst
import Mathlib.Data.Finset.Union
import Mathlib.Data.Finset.Lattice.Basic

namespace HundredDays.Deadlock

open HundredDays.Data Relation

/-! The `LockGraph`: who waits for whom, searched for a cycle at every request.

Thread hashes and mutex ids are nodes of one graph.  Each hash container
iterates in an order of its own, which every search is given as a parameter.
-/

abbrev Node := UInt64

/-- The map `adj_`: its keys, and the successors of each.  A node that is not a
key has none. -/
structure LockGraph where
  keys : Finset Node
  adj : Node → Finset Node
  absent : ∀ node, node ∉ keys → adj node = ∅

/-- The hash containers of a graph: the map itself, and the set of each of its keys. -/
inductive Container where
  | keys
  | next (node : Node)

/-- The orders in which the hash containers give out their elements. -/
structure Iteration where
  elements : Container → Finset Node → List Node
  once : ∀ container set, (elements container set).Nodup
  mem_elements : ∀ container set node, node ∈ elements container set ↔ node ∈ set

/-- The two sets that `dfs` fills in. -/
structure Search where
  visited : Finset Node
  stack : Finset Node

namespace Search

def empty : Search := { visited := ∅, stack := ∅ }

def enter (search : Search) (node : Node) : Search :=
  { visited := insert node search.visited, stack := insert node search.stack }

def leave (search : Search) (node : Node) : Search :=
  { search with stack := search.stack.erase node }

def marks (search : Search) : Marks Node := { visited := search.visited, path := search.stack }

theorem visited_marks {search : Search} : search.marks.visited = search.visited := rfl

theorem path_marks {search : Search} : search.marks.path = search.stack := rfl

end Search

namespace LockGraph

def empty : LockGraph := { keys := ∅, adj := fun _ => ∅, absent := fun _ _ => rfl }

/-- `adj_[node]` replaced, which makes `node` a key. -/
def set (graph : LockGraph) (node : Node) (next : Finset Node) : LockGraph where
  keys := insert node graph.keys
  adj := Function.update graph.adj node next
  absent := by
    intro other outside
    rw [Finset.mem_insert, not_or] at outside
    rw [Function.update_of_ne outside.1, graph.absent other outside.2]

def insertEdge (graph : LockGraph) (node next : Node) : LockGraph :=
  graph.set node (insert next (graph.adj node))

def eraseEdge (graph : LockGraph) (node next : Node) : LockGraph :=
  graph.set node ((graph.adj node).erase next)

def Edge (graph : LockGraph) (node next : Node) : Prop := next ∈ graph.adj node

/-- The loop of `dfs` over the successors of a node, given the recursive call. -/
def dfsNexts (dfs : Node → Search → Option (Bool × Search)) :
    List Node → Search → Option (Bool × Search)
  | [], search => some (false, search)
  | next :: rest, search =>
      if next ∉ search.visited then
        (dfs next search).bind fun result =>
          if result.1 then some (true, result.2) else dfsNexts dfs rest result.2
      else if next ∈ search.stack then some (true, search)
      else dfsNexts dfs rest search

/-- `none` when the recursion goes deeper than the given depth. -/
def dfs (graph : LockGraph) (order : Iteration) : Nat → Node → Search → Option (Bool × Search)
  | 0, _, _ => none
  | depth + 1, curr, search =>
      let nexts := if curr ∈ graph.keys then order.elements (.next curr) (graph.adj curr) else []
      (dfsNexts (graph.dfs order depth) nexts (search.enter curr)).map fun result =>
        if result.1 then result else (false, result.2.leave curr)

/-- The loop of `detect_cycle` over the keys. -/
def detectFrom (dfs : Node → Search → Option (Bool × Search)) : List Node → Search → Option Bool
  | [], _ => some false
  | node :: rest, search =>
      if node ∉ search.visited then
        (dfs node search).bind fun result =>
          if result.1 then some true else detectFrom dfs rest result.2
      else detectFrom dfs rest search

/-- Every node of the graph: the keys and their successors. -/
def nodes (graph : LockGraph) : Finset Node := graph.keys ∪ graph.keys.biUnion graph.adj

def detectCycle (graph : LockGraph) (order : Iteration) : Option Bool :=
  detectFrom (graph.dfs order (graph.nodes.card + 1)) (order.elements .keys graph.keys) Search.empty

/-- Whether the request throws, and the graph it leaves. -/
def addRequest (graph : LockGraph) (order : Iteration) (tid mid : Node) : Option (Bool × LockGraph) :=
  let graph := graph.insertEdge tid mid
  (graph.detectCycle order).map fun found =>
    if found then (true, graph.eraseEdge tid mid) else (false, graph)

def acquire (graph : LockGraph) (tid mid : Node) : LockGraph :=
  (graph.eraseEdge tid mid).insertEdge mid tid

def release (graph : LockGraph) (tid mid : Node) : LockGraph := graph.eraseEdge mid tid

variable {graph : LockGraph} {order : Iteration} {node next other curr : Node} {search after : Search}
  {nexts : List Node} {depth : Nat}

@[simp] theorem adj_insertEdge : (graph.insertEdge node next).adj =
    Function.update graph.adj node (insert next (graph.adj node)) := rfl

@[simp] theorem adj_eraseEdge : (graph.eraseEdge node next).adj =
    Function.update graph.adj node ((graph.adj node).erase next) := rfl

theorem edge_insertEdge {source target : Node} : (graph.insertEdge node next).Edge source target ↔
    graph.Edge source target ∨ source = node ∧ target = next := by
  by_cases same : source = node
  · subst source
    simp [Edge, or_comm]
  · simp [Edge, same]

theorem edge_eraseEdge {source target : Node} : (graph.eraseEdge node next).Edge source target ↔
    graph.Edge source target ∧ ¬ (source = node ∧ target = next) := by
  by_cases same : source = node
  · subst source
    simp [Edge, and_comm]
  · simp [Edge, same]

/-- A request that is taken back leaves every edge as it was. -/
theorem adj_eraseEdge_insertEdge (fresh : ¬ graph.Edge node next) :
    ((graph.insertEdge node next).eraseEdge node next).adj = graph.adj := by
  simp [Finset.erase_insert fresh]

theorem mem_keys_of_edge (edge : graph.Edge node next) : node ∈ graph.keys := by
  by_contra outside
  rw [Edge, graph.absent node outside] at edge
  exact absurd edge (Finset.notMem_empty next)

theorem mem_nodes_of_edge (edge : graph.Edge node next) : next ∈ graph.nodes :=
  Finset.mem_union_right _ (Finset.mem_biUnion.mpr ⟨node, mem_keys_of_edge edge, edge⟩)

/-- The successors that `dfs` goes through. -/
def successors (graph : LockGraph) (order : Iteration) (node : Node) : List Node :=
  if node ∈ graph.keys then order.elements (.next node) (graph.adj node) else []

theorem mem_nexts : next ∈ graph.successors order node ↔ graph.Edge node next := by
  rw [successors]
  by_cases key : node ∈ graph.keys
  · simp [key, order.mem_elements, Edge]
  · simp [key, Edge, graph.absent node key]

/-- The search is the depth-first search of the successors. -/
theorem dfsNexts_eq {dfs : Node → Search → Option (Bool × Search)} {found : Node → Marks Node → Option (Bool × Marks Node)}
    (same : ∀ node search, (dfs node search).map (Prod.map id Search.marks) = found node search.marks) :
    (dfsNexts dfs nexts search).map (Prod.map id Search.marks) = searchNexts found nexts search.marks := by
  induction nexts generalizing search with
  | nil => rfl
  | cons next rest ih =>
      rw [dfsNexts, searchNexts, ← same, Search.visited_marks, Search.path_marks]
      by_cases fresh : next ∉ search.visited
      · rw [if_pos fresh, if_pos fresh]
        cases called : dfs next search with
        | none => rfl
        | some result =>
            obtain ⟨foundFirst, middle⟩ := result
            cases foundFirst with
            | true => rfl
            | false => exact ih
      · rw [if_neg fresh, if_neg fresh]
        by_cases entered : next ∈ search.stack
        · rw [if_pos entered, if_pos entered]
          rfl
        · rw [if_neg entered, if_neg entered]
          exact ih

theorem dfs_eq : (graph.dfs order depth node search).map (Prod.map id Search.marks) =
    Data.search (graph.successors order) depth node search.marks := by
  induction depth generalizing node search with
  | zero => rfl
  | succ depth ih =>
      have looped : (dfsNexts (graph.dfs order depth) (graph.successors order node) (search.enter node)).map
          (Prod.map id Search.marks) = _ := dfsNexts_eq fun _ _ => ih
      change ((dfsNexts (graph.dfs order depth) (graph.successors order node) (search.enter node)).map _).map _ =
        (searchNexts (Data.search (graph.successors order) depth) (graph.successors order node) (search.enter node).marks).map _
      rw [← looped]
      cases dfsNexts (graph.dfs order depth) (graph.successors order node) (search.enter node) with
      | none => rfl
      | some result =>
          obtain ⟨found, inside⟩ := result
          cases found <;> rfl

theorem detectFrom_eq : detectFrom (graph.dfs order depth) nexts search =
    searchRoots (Data.search (graph.successors order) depth) nexts search.marks := by
  induction nexts generalizing search with
  | nil => rfl
  | cons node rest ih =>
      rw [detectFrom, searchRoots, ← dfs_eq, Search.visited_marks]
      by_cases fresh : node ∉ search.visited
      · rw [if_pos fresh, if_pos fresh]
        cases called : graph.dfs order depth node search with
        | none => rfl
        | some result =>
            obtain ⟨found, middle⟩ := result
            cases found with
            | true => rfl
            | false => exact ih
      · rw [if_neg fresh, if_neg fresh]
        exact ih

/-- The search returns, and finds a cycle exactly when there is one. -/
theorem detectCycle_iff : ∃ found, graph.detectCycle order = some found ∧
    (found = true ↔ Cyclic graph.Edge) := by
  rw [detectCycle, detectFrom_eq]
  apply searchRoots_iff (fun node next => mem_nexts) (fun _ _ step => mem_nodes_of_edge step) (Nat.le_succ _)
    Explored.empty rfl
  · intro node member
    exact Finset.mem_union_left _ ((order.mem_elements _ _ _).mp member)
  · intro node next step
    exact Or.inr ((order.mem_elements _ _ _).mpr (mem_keys_of_edge step))

/-- What a request does: it throws exactly when its edge closes a cycle, and then
takes the edge back. -/
theorem addRequest_spec {tid mid : Node} (fresh : ¬ graph.Edge tid mid) :
    ∃ throws after, graph.addRequest order tid mid = some (throws, after) ∧
      (throws = true ↔ Cyclic (graph.insertEdge tid mid).Edge) ∧
      (throws = true → after.adj = graph.adj) ∧
      (throws = false → after = graph.insertEdge tid mid) := by
  obtain ⟨found, searched, cyclic⟩ : ∃ found, (graph.insertEdge tid mid).detectCycle order = some found ∧
      (found = true ↔ Cyclic (graph.insertEdge tid mid).Edge) := detectCycle_iff
  rw [addRequest, searched]
  cases found with
  | true => exact ⟨true, _, rfl, cyclic, fun _ => adj_eraseEdge_insertEdge fresh, by simp⟩
  | false => exact ⟨false, _, rfl, cyclic, by simp, fun _ => rfl⟩

end LockGraph

end HundredDays.Deadlock
