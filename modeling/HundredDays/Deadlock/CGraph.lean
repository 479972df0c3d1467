import HundredDays.Deadlock.LockGraph
import Mathlib.Data.Finset.Range
import Mathlib.Data.List.Nodup

namespace HundredDays.Deadlock

open HundredDays.Data Relation

/-! The `Graph` of the detector in C: a table of nodes and a matrix of edges between their places. -/

def maxNodes : Nat := 64

inductive NodeType where
  | thread
  | mutex
deriving DecidableEq, Repr

structure GraphNode where
  id : BitVec 32
  type : NodeType
deriving DecidableEq, Repr

/-- `node_count` is the length of the table. -/
structure Graph where
  nodes : List GraphNode
  adj : Nat → Nat → Bool

namespace Graph

/-- `graph_init` -/
def empty : Graph := { nodes := [], adj := fun _ _ => false }

def setEdge (graph : Graph) (source target : Nat) (value : Bool) : Graph :=
  { graph with adj := fun row column => if row = source ∧ column = target then value else graph.adj row column }

/-- `none` when the table is full: the process exits. -/
def getOrCreateNode (graph : Graph) (id : BitVec 32) (type : NodeType) : Option (Nat × Graph) :=
  match graph.nodes.findIdx? fun node => node.id = id ∧ node.type = type with
  | some place => some (place, graph)
  | none =>
      if graph.nodes.length ≥ maxNodes then none
      else some (graph.nodes.length, { graph with nodes := graph.nodes ++ [{ id, type }] })

/-- The loop of `dfs` over all places, given the recursive call. -/
def dfsNexts (graph : Graph) (dfs : Nat → Marks Nat → Option (Bool × Marks Nat)) (curr : Nat) :
    List Nat → Marks Nat → Option (Bool × Marks Nat)
  | [], marks => some (false, marks)
  | next :: rest, marks =>
      if graph.adj curr next then
        if next ∉ marks.visited then
          (dfs next marks).bind fun result => if result.1 then some (true, result.2) else graph.dfsNexts dfs curr rest result.2
        else if next ∈ marks.path then some (true, marks)
        else graph.dfsNexts dfs curr rest marks
      else graph.dfsNexts dfs curr rest marks

/-- `none` when the recursion goes deeper than the given depth. -/
def dfs (graph : Graph) : Nat → Nat → Marks Nat → Option (Bool × Marks Nat)
  | 0, _, _ => none
  | depth + 1, curr, marks =>
      (graph.dfsNexts (graph.dfs depth) curr (List.range graph.nodes.length) (marks.enter curr)).map fun result =>
        if result.1 then result else (false, result.2.leave curr)

def detectCycle (graph : Graph) : Option Bool :=
  searchRoots (graph.dfs (graph.nodes.length + 1)) (List.range graph.nodes.length) Marks.empty

/-- The first section of `my_mutex_lock`: whether it returns -1, and the places of both nodes. -/
def request (graph : Graph) (tid id : BitVec 32) : Option (Bool × (Nat × Nat) × Graph) := do
  let (thread, graph) ← graph.getOrCreateNode tid .thread
  let (mutex, graph) ← graph.getOrCreateNode id .mutex
  let graph := graph.setEdge thread mutex true
  let found ← graph.detectCycle
  return (found, (thread, mutex), if found then graph.setEdge thread mutex false else graph)

/-- The second section of `my_mutex_lock`. -/
def acquire (graph : Graph) (thread mutex : Nat) : Graph :=
  (graph.setEdge thread mutex false).setEdge mutex thread true

/-- The section of `my_mutex_unlock`. -/
def release (graph : Graph) (tid id : BitVec 32) : Option Graph := do
  let (thread, graph) ← graph.getOrCreateNode tid .thread
  let (mutex, graph) ← graph.getOrCreateNode id .mutex
  return graph.setEdge mutex thread false

variable {graph after : Graph} {id : BitVec 32} {type : NodeType} {place source target depth curr : Nat}
  {marks : Marks Nat} {nexts : List Nat} {value : Bool} {node : GraphNode}

/-- The edges between places of the table: all that the loops look at. -/
def Edge (graph : Graph) (source target : Nat) : Prop :=
  source < graph.nodes.length ∧ target < graph.nodes.length ∧ graph.adj source target = true

/-- The places of the table that an edge joins. -/
def Inside (graph : Graph) : Prop :=
  ∀ source target, graph.adj source target = true → source < graph.nodes.length ∧ target < graph.nodes.length

theorem Inside.edge_iff (inside : graph.Inside) : graph.Edge source target ↔ graph.adj source target = true := by
  constructor
  · intro edge
    exact edge.2.2
  · intro edge
    exact ⟨(inside source target edge).1, (inside source target edge).2, edge⟩

def successors (graph : Graph) (curr : Nat) : List Nat := (List.range graph.nodes.length).filter (graph.adj curr)

/-- The successors of a place of the table, and none elsewhere. -/
def tableSuccessors (graph : Graph) (curr : Nat) : List Nat :=
  if curr < graph.nodes.length then graph.successors curr else []

theorem mem_tableSuccessors : target ∈ graph.tableSuccessors source ↔ graph.Edge source target := by
  rw [tableSuccessors, Edge]
  by_cases inside : source < graph.nodes.length
  · simp [inside, successors]
  · simp [inside]

/-- The search is the depth-first search of the successors. -/
theorem dfsNexts_eq {dfs : Nat → Marks Nat → Option (Bool × Marks Nat)} :
    graph.dfsNexts dfs curr nexts marks = searchNexts dfs (nexts.filter (graph.adj curr)) marks := by
  induction nexts generalizing marks with
  | nil => rfl
  | cons next rest ih =>
      rw [dfsNexts]
      by_cases edge : graph.adj curr next
      · rw [if_pos edge, List.filter_cons_of_pos edge, searchNexts]
        simp only [ih]
      · rw [if_neg edge, List.filter_cons_of_neg edge, ih]

theorem dfs_eq : graph.dfs depth = search graph.successors depth := by
  induction depth with
  | zero => rfl
  | succ depth ih =>
      funext curr marks
      rw [dfs, dfsNexts_eq, ih]
      rfl

theorem search_tableSuccessors : searchRoots (search graph.successors depth) (List.range graph.nodes.length) marks =
    searchRoots (search graph.tableSuccessors depth) (List.range graph.nodes.length) marks := by
  have same : ∀ place ∈ Finset.range graph.nodes.length, graph.successors place = graph.tableSuccessors place := by
    intro place listed
    rw [tableSuccessors, if_pos (Finset.mem_range.mp listed)]
  have closed : ∀ place ∈ Finset.range graph.nodes.length, ∀ next ∈ graph.successors place,
      next ∈ Finset.range graph.nodes.length := by
    intro place _ next listed
    exact Finset.mem_range.mpr (List.mem_range.mp (List.mem_filter.mp listed).1)
  apply searchRoots_congr
  intro place listed
  exact search_congr same closed (Finset.mem_range.mpr (List.mem_range.mp listed))

/-- The search returns, and finds a cycle exactly when the table has one. -/
theorem detectCycle_edge_iff : ∃ found, graph.detectCycle = some found ∧ (found = true ↔ Cyclic graph.Edge) := by
  rw [detectCycle, dfs_eq, search_tableSuccessors]
  have places : ∀ source target, graph.Edge source target → target ∈ Finset.range graph.nodes.length :=
    fun source target edge => Finset.mem_range.mpr edge.2.1
  have room : (Finset.range graph.nodes.length).card ≤ graph.nodes.length + 1 := by
    rw [Finset.card_range]
    exact Nat.le_succ _
  apply searchRoots_iff (fun source target => mem_tableSuccessors) places room Explored.empty rfl
  · intro place listed
    exact Finset.mem_range.mpr (List.mem_range.mp listed)
  · intro source target edge
    exact Or.inr (List.mem_range.mpr edge.1)

theorem detectCycle_iff (inside : graph.Inside) :
    ∃ found, graph.detectCycle = some found ∧ (found = true ↔ Cyclic fun source target => graph.adj source target = true) := by
  have same : graph.Edge = fun source target => graph.adj source target = true := by
    funext source target
    exact propext inside.edge_iff
  rw [← same]
  exact detectCycle_edge_iff

end Graph

/-- Both detectors return on every graph, and answer whether it has a directed cycle: the one in C
over the places of its table, the one in C++ in whatever order its containers iterate. -/
theorem cycle_detection_exact :
    (∀ graph : Graph, ∃ found, graph.detectCycle = some found ∧ (found = true ↔ Cyclic graph.Edge)) ∧
      ∀ (graph : LockGraph) (order : Iteration), ∃ found, graph.detectCycle order = some found ∧
        (found = true ↔ Cyclic graph.Edge) := by
  constructor
  · intro graph
    exact Graph.detectCycle_edge_iff
  · intro graph order
    exact LockGraph.detectCycle_iff

end HundredDays.Deadlock
