import HundredDays.Deadlock.CGraph

namespace HundredDays.Deadlock

open HundredDays.Data Relation

/-! The table and the matrix as a graph whose nodes are numbers. -/

/-- A number for each id and type. -/
def GraphNode.number (node : GraphNode) : Node :=
  match node.type with
  | .thread => UInt64.ofNat (2 * node.id.toNat)
  | .mutex => UInt64.ofNat (2 * node.id.toNat + 1)

theorem GraphNode.toNat_number (node : GraphNode) :
    node.number.toNat = 2 * node.id.toNat + if node.type = .mutex then 1 else 0 := by
  obtain ⟨id, type⟩ := node
  have bound := id.isLt
  cases type with
  | thread => exact UInt64.toNat_ofNat_of_lt' (by simp only [UInt64.size]; omega)
  | mutex => exact UInt64.toNat_ofNat_of_lt' (by simp only [UInt64.size]; omega)

theorem GraphNode.number_injective : Function.Injective GraphNode.number := by
  intro first second same
  have equal := congrArg UInt64.toNat same
  rw [toNat_number, toNat_number] at equal
  obtain ⟨id, type⟩ := first
  obtain ⟨other, kind⟩ := second
  have ids : id = other := by
    apply BitVec.eq_of_toNat_eq
    cases type <;> cases kind <;> simp at equal <;> omega
  subst ids
  cases type <;> cases kind <;> simp at equal ⊢

variable {graph after : Graph} {image : LockGraph} {id : BitVec 32} {type : NodeType} {place source target : Nat}
  {node next : GraphNode}

namespace Graph

/-- There is an edge from one node to the other. -/
def Joined (graph : Graph) (source target : GraphNode) : Prop :=
  ∃ row column, graph.adj row column = true ∧ graph.nodes[row]? = some source ∧ graph.nodes[column]? = some target

/-- The number of the node at a place. -/
def number (graph : Graph) (place : Nat) : Option Node := graph.nodes[place]?.map GraphNode.number

/-- The edges of the graph are those between the numbers. -/
structure Pictures (graph : Graph) (image : LockGraph) : Prop where
  nodup : graph.nodes.Nodup
  inside : graph.Inside
  edges : ∀ source target, image.Edge source target ↔
    ∃ row column, graph.adj row column = true ∧ graph.number row = some source ∧ graph.number column = some target

theorem number_eq (found : graph.nodes[place]? = some node) : graph.number place = some node.number :=
  congrArg (Option.map GraphNode.number) found

namespace Pictures

theorem injective (pictures : graph.Pictures image) (first second : Nat) (there : Node)
    (here : graph.number first = some there) (same : graph.number second = some there) : first = second := by
  obtain ⟨node, found, rfl⟩ := Option.map_eq_some_iff.mp here
  obtain ⟨other, listed, equal⟩ := Option.map_eq_some_iff.mp same
  cases GraphNode.number_injective equal
  exact (List.getElem?_inj (List.getElem?_eq_some_iff.mp found).1 pictures.nodup).mp (found.trans listed.symm)

theorem cyclic_iff (pictures : graph.Pictures image) :
    Cyclic (fun source target => graph.adj source target = true) ↔ Cyclic image.Edge := by
  apply cyclic_iff_of_places graph.number pictures.injective pictures.edges
  intro row column edge
  obtain ⟨first, second⟩ := pictures.inside row column edge
  exact ⟨⟨_, number_eq (List.getElem?_eq_getElem first)⟩, ⟨_, number_eq (List.getElem?_eq_getElem second)⟩⟩

theorem joined_iff (pictures : graph.Pictures image) : graph.Joined node next ↔ image.Edge node.number next.number := by
  rw [pictures.edges]
  constructor
  · rintro ⟨row, column, edge, first, second⟩
    exact ⟨row, column, edge, number_eq first, number_eq second⟩
  · rintro ⟨row, column, edge, first, second⟩
    obtain ⟨source, here, same⟩ := Option.map_eq_some_iff.mp first
    obtain ⟨target, there, equal⟩ := Option.map_eq_some_iff.mp second
    cases GraphNode.number_injective same
    cases GraphNode.number_injective equal
    exact ⟨row, column, edge, here, there⟩

theorem insertEdge (pictures : graph.Pictures image) (first : graph.nodes[source]? = some node)
    (second : graph.nodes[target]? = some next) :
    (graph.setEdge source target true).Pictures (image.insertEdge node.number next.number) := by
  refine ⟨pictures.nodup, ?_, ?_⟩
  · intro row column edge
    change (if row = source ∧ column = target then true else graph.adj row column) = true at edge
    split_ifs at edge with same
    · obtain ⟨rfl, rfl⟩ := same
      exact ⟨(List.getElem?_eq_some_iff.mp first).1, (List.getElem?_eq_some_iff.mp second).1⟩
    · exact pictures.inside row column edge
  · intro tail head
    rw [LockGraph.edge_insertEdge, pictures.edges]
    constructor
    · rintro (⟨row, column, edge, here, there⟩ | ⟨rfl, rfl⟩)
      · refine ⟨row, column, ?_, here, there⟩
        change (if row = source ∧ column = target then true else graph.adj row column) = true
        rw [edge, ite_self]
      · exact ⟨source, target, if_pos ⟨rfl, rfl⟩, number_eq first, number_eq second⟩
    · rintro ⟨row, column, edge, here, there⟩
      change (if row = source ∧ column = target then true else graph.adj row column) = true at edge
      split_ifs at edge with same
      · obtain ⟨rfl, rfl⟩ := same
        exact .inr ⟨Option.some.inj (here.symm.trans (number_eq first)),
          Option.some.inj (there.symm.trans (number_eq second))⟩
      · exact .inl ⟨row, column, edge, here, there⟩

theorem eraseEdge (pictures : graph.Pictures image) (first : graph.nodes[source]? = some node)
    (second : graph.nodes[target]? = some next) :
    (graph.setEdge source target false).Pictures (image.eraseEdge node.number next.number) := by
  have edge_iff : ∀ row column, (graph.setEdge source target false).adj row column = true ↔
      graph.adj row column = true ∧ ¬ (row = source ∧ column = target) := by
    intro row column
    change (if row = source ∧ column = target then false else graph.adj row column) = true ↔ _
    by_cases same : row = source ∧ column = target
    · simp [same]
    · simp [same]
  refine ⟨pictures.nodup, fun row column edge => pictures.inside row column ((edge_iff row column).mp edge).1, ?_⟩
  intro tail head
  rw [LockGraph.edge_eraseEdge, pictures.edges]
  constructor
  · rintro ⟨⟨row, column, edge, here, there⟩, differs⟩
    refine ⟨row, column, (edge_iff row column).mpr ⟨edge, ?_⟩, here, there⟩
    rintro ⟨rfl, rfl⟩
    exact differs ⟨Option.some.inj (here.symm.trans (number_eq first)),
      Option.some.inj (there.symm.trans (number_eq second))⟩
  · rintro ⟨row, column, edge, here, there⟩
    obtain ⟨edge, differs⟩ := (edge_iff row column).mp edge
    refine ⟨⟨row, column, edge, here, there⟩, ?_⟩
    rintro ⟨rfl, rfl⟩
    exact differs ⟨pictures.injective row source _ here (number_eq first),
      pictures.injective column target _ there (number_eq second)⟩

/-- A node that is looked for is there afterwards, and the others stay where they are. -/
theorem create (pictures : graph.Pictures image) (created : graph.getOrCreateNode id type = some (place, after)) :
    after.Pictures image ∧ after.nodes[place]? = some { id, type } ∧
      ∀ (other : Nat) (node : GraphNode), graph.nodes[other]? = some node → after.nodes[other]? = some node := by
  rw [getOrCreateNode] at created
  split at created
  next position found =>
    cases created
    obtain ⟨within, same, _⟩ := List.findIdx?_eq_some_iff_getElem.mp found
    refine ⟨pictures, ?_, fun _ _ listed => listed⟩
    obtain ⟨ids, types⟩ := of_decide_eq_true same
    rw [List.getElem?_eq_getElem within, ← ids, ← types]
  next none =>
    split_ifs at created with full
    cases created
    have fresh : { id, type } ∉ graph.nodes := by
      intro member
      have differs := List.findIdx?_eq_none_iff.mp none _ member
      simp at differs
    have kept : ∀ (other : Nat) (node : GraphNode), graph.nodes[other]? = some node →
        (graph.nodes ++ [GraphNode.mk id type])[other]? = some node := by
      intro other node found
      rw [List.getElem?_append_left (List.getElem?_eq_some_iff.mp found).1]
      exact found
    refine ⟨⟨?_, ?_, ?_⟩, List.getElem?_concat_length, kept⟩
    · exact List.nodup_append.mpr ⟨pictures.nodup, List.nodup_singleton _, by
        intro member listed other same
        cases List.mem_singleton.mp same
        rintro rfl
        exact fresh listed⟩
    · intro row column edge
      obtain ⟨first, second⟩ := pictures.inside row column edge
      simp only [List.length_append, List.length_singleton]
      exact ⟨Nat.lt_succ_of_lt first, Nat.lt_succ_of_lt second⟩
    · intro tail head
      rw [pictures.edges]
      have same : ∀ row < graph.nodes.length,
          Graph.number { graph with nodes := graph.nodes ++ [{ id, type }] } row = graph.number row := by
        intro row within
        exact congrArg (Option.map GraphNode.number) (List.getElem?_append_left within)
      constructor
      · rintro ⟨row, column, edge, here, there⟩
        obtain ⟨first, second⟩ := pictures.inside row column edge
        exact ⟨row, column, edge, (same row first).trans here, (same column second).trans there⟩
      · rintro ⟨row, column, edge, here, there⟩
        obtain ⟨first, second⟩ := pictures.inside row column edge
        exact ⟨row, column, edge, (same row first).symm.trans here, (same column second).symm.trans there⟩

theorem create_succeeds (room : graph.nodes.length < maxNodes) : ∃ place after,
    graph.getOrCreateNode id type = some (place, after) ∧ after.nodes.length ≤ graph.nodes.length + 1 := by
  rw [getOrCreateNode]
  split
  next position _ => exact ⟨position, graph, rfl, Nat.le_succ _⟩
  next =>
    rw [if_neg (Nat.not_le_of_lt room)]
    exact ⟨_, _, rfl, by rw [List.length_append, List.length_singleton]⟩

variable {tid : BitVec 32} {thread mutex : Nat} {refused : Bool}

theorem request_answers (pictures : graph.Pictures image) (room : graph.nodes.length + 2 ≤ maxNodes) :
    ∃ refused places after, graph.request tid id = some (refused, places, after) := by
  obtain ⟨place, first, createdThread, fewer⟩ : ∃ place after, graph.getOrCreateNode tid .thread = some (place, after) ∧
      after.nodes.length ≤ graph.nodes.length + 1 := create_succeeds (by omega)
  obtain ⟨position, second, createdMutex, _⟩ : ∃ place after, first.getOrCreateNode id .mutex = some (place, after) ∧
      after.nodes.length ≤ first.nodes.length + 1 := create_succeeds (by omega)
  obtain ⟨picturesFirst, thereFirst, _⟩ := pictures.create createdThread
  obtain ⟨picturesSecond, thereMutex, keptSecond⟩ := picturesFirst.create createdMutex
  obtain ⟨found, searched, _⟩ := detectCycle_iff (picturesSecond.insertEdge (keptSecond _ _ thereFirst) thereMutex).inside
  simp only [Graph.request, Option.bind_eq_bind, createdThread, createdMutex, Option.bind_some, searched]
  exact ⟨_, _, _, rfl⟩

/-- A request is answered as the graph of numbers answers it. -/
theorem request (pictures : graph.Pictures image) (order : Iteration)
    (requested : graph.request tid id = some (refused, (thread, mutex), after)) :
    (∃ next, image.addRequest order (GraphNode.mk tid .thread).number (GraphNode.mk id .mutex).number =
        some (refused, next) ∧ after.Pictures next) ∧
      after.nodes[thread]? = some (GraphNode.mk tid .thread) ∧ after.nodes[mutex]? = some (GraphNode.mk id .mutex) ∧
      ∀ (other : Nat) (node : GraphNode), graph.nodes[other]? = some node → after.nodes[other]? = some node := by
  simp only [Graph.request, Option.bind_eq_bind, Option.bind_eq_some_iff, Option.pure_def, Option.some.injEq] at requested
  obtain ⟨⟨place, first⟩, createdThread, ⟨position, second⟩, createdMutex, found, detected, same⟩ := requested
  cases same
  obtain ⟨picturesFirst, thereFirst, keptFirst⟩ := pictures.create createdThread
  obtain ⟨picturesSecond, thereMutex, keptSecond⟩ := picturesFirst.create createdMutex
  have thereThread := keptSecond _ _ thereFirst
  have inserted := picturesSecond.insertEdge thereThread thereMutex
  obtain ⟨answer, searched, cyclic⟩ := detectCycle_iff inserted.inside
  cases detected.symm.trans searched
  obtain ⟨other, searchedImage, cyclicImage⟩ : ∃ found, LockGraph.detectCycle (image.insertEdge
      (GraphNode.mk tid .thread).number (GraphNode.mk id .mutex).number) order = some found ∧ _ := LockGraph.detectCycle_iff
  have agree : other = refused := Bool.eq_iff_iff.mpr (cyclicImage.trans (inserted.cyclic_iff.symm.trans cyclic.symm))
  have kept : ∀ (other : Nat) (node : GraphNode), graph.nodes[other]? = some node → second.nodes[other]? = some node :=
    fun other node found => keptSecond other node (keptFirst other node found)
  rw [LockGraph.addRequest, searchedImage, agree]
  cases refused with
  | true => exact ⟨⟨_, rfl, inserted.eraseEdge thereThread thereMutex⟩, thereThread, thereMutex, kept⟩
  | false => exact ⟨⟨_, rfl, inserted⟩, thereThread, thereMutex, kept⟩

theorem acquire (pictures : graph.Pictures image) (first : graph.nodes[thread]? = some (GraphNode.mk tid .thread))
    (second : graph.nodes[mutex]? = some (GraphNode.mk id .mutex)) :
    (graph.acquire thread mutex).Pictures
      (image.acquire (GraphNode.mk tid .thread).number (GraphNode.mk id .mutex).number) :=
  (pictures.eraseEdge first second).insertEdge second first

theorem release (pictures : graph.Pictures image) (released : graph.release tid id = some after) :
    after.Pictures (image.release (GraphNode.mk tid .thread).number (GraphNode.mk id .mutex).number) ∧
      ∀ (other : Nat) (node : GraphNode), graph.nodes[other]? = some node → after.nodes[other]? = some node := by
  simp only [Graph.release, Option.bind_eq_bind, Option.bind_eq_some_iff, Option.pure_def, Option.some.injEq] at released
  obtain ⟨⟨place, first⟩, createdThread, ⟨position, second⟩, createdMutex, same⟩ := released
  cases same
  obtain ⟨picturesFirst, thereFirst, keptFirst⟩ := pictures.create createdThread
  obtain ⟨picturesSecond, thereMutex, keptSecond⟩ := picturesFirst.create createdMutex
  exact ⟨picturesSecond.eraseEdge thereMutex (keptSecond _ _ thereFirst),
    fun other node found => keptSecond other node (keptFirst other node found)⟩

end Pictures

end Graph

end HundredDays.Deadlock
