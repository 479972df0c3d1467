import HundredDays.TreiberStack.Nodes
import HundredDays.TreiberStack.Reclamation

namespace HundredDays.TreiberStack.Reclamation

open HundredDays.Data

/-! Where each node is, and what the steps of one thread leave to the others.

A node is with the allocator, with the producer that is pushing it, on the stack, with
the consumer that has popped it, or on the retire list.
-/

/-- A producer or a consumer. -/
abbrev Agent (producers consumers : Nat) := Fin producers ⊕ Fin consumers

inductive Place (producers consumers : Nat) where
  | allocator
  | stack
  | retired
  | agent (agent : Agent producers consumers)
deriving DecidableEq

/-- What the threads share, with the nodes on the stack and on the retire list. -/
structure World (producers consumers : Nat) where
  store : Store (Fin consumers)
  place : Node → Place producers consumers
  nodes : List Node
  retired : List Node
  history : List (Event consumers)

variable {producers consumers : Nat}

def Event.exchanges : Event consumers → Bool
  | .pushed _ => true
  | .popped _ => true
  | _ => false

/-- How often the head was exchanged. -/
def swaps (history : List (Event consumers)) : Nat := history.countP Event.exchanges

def Event.isPushed : Event consumers → Bool
  | .pushed _ => true
  | _ => false

def Event.isPopped : Event consumers → Bool
  | .popped _ => true
  | _ => false

def pushes (history : List (Event consumers)) : Nat := history.countP Event.isPushed

def pops (history : List (Event consumers)) : Nat := history.countP Event.isPopped

/-- What happens to a node; a look at it does not. -/
def Event.about (node : Node) : Event consumers → Bool
  | .allocated other => other = node
  | .pushed other => other = node
  | .popped other => other = node
  | .freed other => other = node
  | _ => false

/-- A node is allocated, pushed, popped and freed, over and over. -/
def life (node : Node) (index : Nat) : Event consumers :=
  match index % 4 with
  | 0 => .allocated node
  | 1 => .pushed node
  | 2 => .popped node
  | _ => .freed node

/-- What has happened to the node is the beginning of its life, of this length. -/
def Lived (node : Node) (history : List (Event consumers)) (count : Nat) : Prop :=
  history.filter (Event.about node) = (List.range count).map (life node)

/-- What has happened to a node that is here, since it was last with the allocator. -/
def Place.stage : Place producers consumers → Nat
  | .allocator => 0
  | .agent (.inl _) => 1
  | .stack => 2
  | .retired => 3
  | .agent (.inr _) => 3

def Lives (place : Node → Place producers consumers) (history : List (Event consumers)) : Prop :=
  ∀ node, ∃ count, Lived node history count ∧ count % 4 = (place node).stage

/-- What is in the slot of a consumer, once it has one. -/
def hazardOf (memory : Memory (Fin consumers)) (consumer : Fin consumers) : Option Node :=
  (memory.hazardSlot consumer).bind memory.hazard

structure Slots (memory : Memory (Fin consumers)) : Prop where
  given : ∀ consumer slot, memory.hazardSlot consumer = some slot → slot < memory.nextHazardSlot
  few : memory.nextHazardSlot ≤ MAX_HAZARD_THREADS
  injective : ∀ consumer other slot, memory.hazardSlot consumer = some slot → memory.hazardSlot other = some slot →
    consumer = other
  unused : ∀ slot, (∀ consumer, memory.hazardSlot consumer ≠ some slot) → memory.hazard slot = none

structure Shared (world : World producers consumers) : Prop where
  represents : Represents world.store.memory world.nodes (swaps world.history)
  stack : ∀ node, world.place node = .stack ↔ node ∈ world.nodes
  allocated : ∀ node, world.store.allocated node = true ↔ world.place node ≠ .allocator
  chain : Chain world.store.memory.retireNext world.store.retireList world.retired
  distinct : world.retired.Nodup
  retired : ∀ node, world.place node = .retired ↔ node ∈ world.retired
  slots : Slots world.store.memory
  lives : Lives world.place world.history
  balance : world.nodes.length + pops world.history = pushes world.history

/-- The event of a consumer that looks at a node. -/
def Event.by (consumer : Fin consumers) : Event consumers → Prop
  | .loaded other _ => other = consumer
  | .followed other _ => other = consumer
  | _ => False

/-- What another thread leaves to this one. -/
structure Undisturbed (agent : Agent producers consumers) (world after : World producers consumers) : Prop where
  head : (after.store.memory.head = world.store.memory.head ∧ swaps after.history = swaps world.history ∧
      ∀ node ∈ world.nodes, after.store.memory.next node = world.store.memory.next node) ∨
    swaps after.history = swaps world.history + 1
  own : ∀ node, after.place node = .agent agent ↔ world.place node = .agent agent
  links : ∀ node, world.place node = .agent agent → after.store.memory.next node = world.store.memory.next node ∧
    after.store.memory.retireNext node = world.store.memory.retireNext node
  hazard : ∀ consumer, agent = .inr consumer →
    after.store.memory.hazardSlot consumer = world.store.memory.hazardSlot consumer ∧
      hazardOf after.store.memory consumer = hazardOf world.store.memory consumer
  locked : ∀ consumer, agent = .inr consumer →
    (after.store.retireLock = some consumer ↔ world.store.retireLock = some consumer) ∧
      (world.store.retireLock = some consumer →
        after.retired = world.retired ∧ after.store.retireList = world.store.retireList)
  events : ∃ events, after.history = world.history ++ events ∧ ∀ event ∈ events,
    (∀ consumer node, agent = .inr consumer → event ≠ .loaded consumer node) ∧
      ∀ node, event = .freed node → node ∉ world.nodes

/-- A step of this thread. -/
structure Moved (mine : Agent producers consumers) (world after : World producers consumers) : Prop where
  shared : Shared after
  others : ∀ agent, agent ≠ mine → Undisturbed agent world after

variable {world after : World producers consumers} {mine agent : Agent producers consumers} {node : Node}
  {producer : Fin producers} {consumer : Fin consumers}

theorem Slots.congr {memory after : Memory (Fin consumers)} (slots : Slots memory)
    (hazard : after.hazard = memory.hazard) (next : after.nextHazardSlot = memory.nextHazardSlot) (slot : after.hazardSlot = memory.hazardSlot) :
    Slots after := by
  constructor
  · rw [slot, next]
    exact slots.given
  · rw [next]
    exact slots.few
  · rw [slot]
    exact slots.injective
  · rw [slot, hazard]
    exact slots.unused

theorem swaps_append (history events : List (Event consumers)) :
    swaps (history ++ events) = swaps history + swaps events := List.countP_append ..

theorem pushes_append (history events : List (Event consumers)) :
    pushes (history ++ events) = pushes history + pushes events := List.countP_append ..

theorem pops_append (history events : List (Event consumers)) :
    pops (history ++ events) = pops history + pops events := List.countP_append ..

theorem swaps_eq (history : List (Event consumers)) : swaps history = pushes history + pops history := by
  induction history with
  | nil => rfl
  | cons event history ih =>
      have first := swaps_append [event] history
      have second := pushes_append [event] history
      have third := pops_append [event] history
      have one : swaps [event] = pushes [event] + pops [event] := by cases event <;> rfl
      rw [List.singleton_append] at first second third
      omega

theorem counts_append (history : List (Event consumers)) {events : List (Event consumers)}
    (silent : ∀ event ∈ events, event.exchanges = false) : swaps (history ++ events) = swaps history ∧
      pushes (history ++ events) = pushes history ∧ pops (history ++ events) = pops history := by
  have none : swaps events = 0 := by
    rw [swaps, List.countP_eq_zero]
    intro event listed
    simp [silent event listed]
  have both := swaps_eq events
  rw [swaps_append, pushes_append, pops_append]
  omega

theorem about_life (node other : Node) (index : Nat) :
    (life node index : Event consumers).about other = decide (node = other) := by
  unfold life
  split <;> rfl

theorem life_stage {count stage : Nat} (here : count % 4 = stage) :
    (life node count : Event consumers) = life node stage := by
  rw [← here, life, life, Nat.mod_mod]

namespace Lives

variable {place later : Node → Place producers consumers} {history : List (Event consumers)}

theorem unconcerned (lives : Lives place history) {events : List (Event consumers)}
    (silent : ∀ event ∈ events, ∀ node, event.about node = false)
    (same : ∀ node, (later node).stage = (place node).stage) : Lives later (history ++ events) := by
  intro node
  obtain ⟨count, lived, stage⟩ := lives node
  have nothing : events.filter (Event.about node) = [] := by
    rw [List.filter_eq_nil_iff]
    intro event listed
    simp [silent event listed node]
  refine ⟨count, ?_, by rw [stage, same]⟩
  rw [Lived, List.filter_append, nothing, List.append_nil]
  exact lived

/-- The next thing happens to a node. -/
theorem onward (lives : Lives place history) {target : Place producers consumers} {event : Event consumers}
    (due : event = life node (place node).stage) (next : target.stage = ((place node).stage + 1) % 4) :
    Lives (Function.update place node target) (history ++ [event]) := by
  intro other
  obtain ⟨count, lived, stage⟩ := lives other
  by_cases here : node = other
  · subst here
    refine ⟨count + 1, ?_, ?_⟩
    · have own : [event].filter (Event.about node) = [event] := by
        rw [due]
        simp [about_life]
      rw [Lived, List.filter_append, own, lived, List.range_succ, List.map_append, List.map_singleton,
        life_stage stage, due]
    · rw [Function.update_self, next]
      omega
  · have away : [event].filter (Event.about other) = [] := by
      rw [due]
      simp [about_life, here]
    refine ⟨count, ?_, ?_⟩
    · rw [Lived, List.filter_append, away, List.append_nil]
      exact lived
    · rw [Function.update_of_ne (Ne.symm here), stage]

end Lives

namespace Shared

theorem head_mem (shared : Shared world) (top : world.store.memory.head.ptr = some node) : node ∈ world.nodes := by
  have start := shared.represents.chain.start_eq_head?
  rw [top] at start
  exact List.mem_of_mem_head? start.symm

/-- A step that leaves each node where it is, and writes to the links of its own nodes only. -/
theorem moved (shared : Shared world) (mine : Agent producers consumers) (events : List (Event consumers))
    (place : after.place = world.place) (nodes : after.nodes = world.nodes) (retired : after.retired = world.retired)
    (head : after.store.memory.head = world.store.memory.head)
    (retireList : after.store.retireList = world.store.retireList)
    (allocated : after.store.allocated = world.store.allocated)
    (links : ∀ node, world.place node ≠ .agent mine → after.store.memory.next node = world.store.memory.next node ∧
      after.store.memory.retireNext node = world.store.memory.retireNext node)
    (slots : Slots after.store.memory)
    (hazards : ∀ consumer, mine ≠ .inr consumer →
      after.store.memory.hazardSlot consumer = world.store.memory.hazardSlot consumer ∧
        hazardOf after.store.memory consumer = hazardOf world.store.memory consumer)
    (locked : ∀ consumer, mine ≠ .inr consumer →
      (after.store.retireLock = some consumer ↔ world.store.retireLock = some consumer))
    (history : after.history = world.history ++ events)
    (looks : ∀ event ∈ events, ∃ consumer, mine = .inr consumer ∧ event.by consumer) : Moved mine world after := by
  have silent : ∀ event ∈ events, event.exchanges = false ∧ ∀ node, event.about node = false := by
    intro event emitted
    obtain ⟨consumer, _, look⟩ := looks event emitted
    cases event with
    | loaded other node => exact ⟨rfl, fun _ => rfl⟩
    | followed other node => exact ⟨rfl, fun _ => rfl⟩
    | _ => exact look.elim
  obtain ⟨same, pushed, popped⟩ := counts_append world.history fun event emitted => (silent event emitted).1
  rw [← history] at same pushed popped
  constructor
  · constructor
    · rw [nodes, same]
      refine shared.represents.congr head fun node inside => (links node ?_).1
      rw [(shared.stack node).mpr inside]
      simp
    · rw [place, nodes]
      exact shared.stack
    · rw [place, allocated]
      exact shared.allocated
    · rw [retireList, retired]
      refine shared.chain.congr fun node inside => (links node ?_).2
      rw [(shared.retired node).mpr inside]
      simp
    · rw [retired]
      exact shared.distinct
    · rw [place, retired]
      exact shared.retired
    · exact slots
    · rw [history]
      exact shared.lives.unconcerned (fun event emitted => (silent event emitted).2) fun node => by rw [place]
    · rw [nodes, pushed, popped]
      exact shared.balance
  · intro agent differs
    have apart : ∀ node, world.place node = .agent agent → world.place node ≠ .agent mine := by
      intro node held same
      rw [held] at same
      exact differs (Place.agent.inj same)
    refine ⟨.inl ⟨head, same, fun node inside => (links node ?_).1⟩, fun node => by rw [place],
      fun node held => links node (apart node held), ?_, ?_, events, history, ?_⟩
    · rw [(shared.stack node).mpr inside]
      simp
    · intro consumer equal
      subst equal
      exact hazards consumer differs.symm
    · intro consumer equal
      subst equal
      exact ⟨locked consumer differs.symm, fun _ => ⟨retired, retireList⟩⟩
    · intro event emitted
      obtain ⟨consumer, rfl, look⟩ := looks event emitted
      constructor
      · rintro other node rfl rfl
        exact differs (congrArg Sum.inr look)
      · intro node equal
        subst equal
        exact look.elim

/-- A node changes its place, and the members of a place change accordingly. -/
theorem listed_update {place : Node → Place producers consumers} {kind target : Place producers consumers}
    {members changed : List Node} (before : ∀ node, place node = kind ↔ node ∈ members)
    (others : ∀ other, other ≠ node → (other ∈ changed ↔ other ∈ members)) (own : target = kind ↔ node ∈ changed)
    (other : Node) : Function.update place node target other = kind ↔ other ∈ changed := by
  by_cases here : other = node
  · rw [here, Function.update_self, own]
  · rw [Function.update_of_ne here, before, others other here]

/-- A node that goes from one place to another does not concern a thread that has it neither before nor after. -/
theorem own_update {place : Node → Place producers consumers} {target : Place producers consumers}
    (before : place node ≠ .agent agent) (afterwards : target ≠ .agent agent) (other : Node) :
    Function.update place node target other = .agent agent ↔ place other = .agent agent := by
  by_cases here : other = node
  · rw [here, Function.update_self]
    exact iff_of_false afterwards before
  · rw [Function.update_of_ne here]

/-- A node goes between the allocator and this thread, which overwrites it. -/
theorem handed (shared : Shared world) {target : Place producers consumers} {flag : Bool} {event : Event consumers}
    (chance : Chance) (source : world.place node = .allocator ∨ world.place node = .agent mine)
    (goal : (target = .allocator ∧ flag = false) ∨ (target = .agent mine ∧ flag = true))
    (named : event = .allocated node ∨ event = .freed node) (due : event = life node (world.place node).stage)
    (next : target.stage = ((world.place node).stage + 1) % 4)
    (store : after.store = { world.store.scribble node chance with
      allocated := Function.update world.store.allocated node flag })
    (place : after.place = Function.update world.place node target) (nodes : after.nodes = world.nodes)
    (retired : after.retired = world.retired) (history : after.history = world.history ++ [event]) :
    Moved mine world after := by
  have unstacked : node ∉ world.nodes := by
    rw [← shared.stack]
    rcases source with from_ | from_ <;> simp [from_]
  have unretired : node ∉ world.retired := by
    rw [← shared.retired]
    rcases source with from_ | from_ <;> simp [from_]
  have silent : event.exchanges = false := by rcases named with rfl | rfl <;> rfl
  obtain ⟨same, pushed, popped⟩ := counts_append world.history fun other (listed : other ∈ [event]) => by
    rw [List.mem_singleton.mp listed, silent]
  rw [← history] at same pushed popped
  have links (other : Node) (differs : other ≠ node) :
      after.store.memory.next other = world.store.memory.next other ∧
        after.store.memory.retireNext other = world.store.memory.retireNext other := by
    rw [store]
    exact ⟨Function.update_of_ne differs _ _, Function.update_of_ne differs _ _⟩
  have stacked (other : Node) (inside : other ∈ world.nodes) : other ≠ node := by
    intro equal
    subst equal
    exact unstacked inside
  have head : after.store.memory.head = world.store.memory.head := by
    rw [store]
    rfl
  have allocated : after.store.allocated = Function.update world.store.allocated node flag := by rw [store]
  constructor
  · constructor
    · rw [nodes, same]
      exact shared.represents.congr head fun other inside => (links other (stacked other inside)).1
    · rw [place, nodes]
      refine listed_update shared.stack (fun _ _ => Iff.rfl) (iff_of_false ?_ unstacked)
      rcases goal with ⟨rfl, _⟩ | ⟨rfl, _⟩ <;> simp
    · intro other
      rw [place, allocated]
      by_cases here : other = node
      · rw [here, Function.update_self, Function.update_self]
        rcases goal with ⟨rfl, rfl⟩ | ⟨rfl, rfl⟩ <;> simp
      · rw [Function.update_of_ne here, Function.update_of_ne here]
        exact shared.allocated other
    · rw [store, retired]
      exact shared.chain.update_outside unretired
    · rw [retired]
      exact shared.distinct
    · rw [place, retired]
      refine listed_update shared.retired (fun _ _ => Iff.rfl) (iff_of_false ?_ unretired)
      rcases goal with ⟨rfl, _⟩ | ⟨rfl, _⟩ <;> simp
    · rw [store]
      exact shared.slots.congr rfl rfl rfl
    · rw [place, history]
      exact shared.lives.onward due next
    · rw [nodes, pushed, popped]
      exact shared.balance
  · intro agent differs
    have away : world.place node ≠ .agent agent := by
      rcases source with from_ | from_ <;> rw [from_] <;> simp [differs.symm]
    have unowned : target ≠ .agent agent := by
      rcases goal with ⟨rfl, _⟩ | ⟨rfl, _⟩ <;> simp [differs.symm]
    refine ⟨.inl ⟨head, same, fun other inside => (links other (stacked other inside)).1⟩, ?_, ?_, ?_, ?_,
      [event], history, ?_⟩
    · rw [place]
      exact own_update away unowned
    · intro other held
      apply links
      intro equal
      subst equal
      exact away held
    · rw [store]
      exact fun _ _ => ⟨rfl, rfl⟩
    · rw [store, retired]
      exact fun _ _ => ⟨Iff.rfl, fun _ => ⟨rfl, rfl⟩⟩
    · intro emitted listed
      rw [List.mem_singleton.mp listed]
      constructor
      · intro consumer loaded _ equal
        subst equal
        rcases named with impossible | impossible <;> cases impossible
      · intro freed equal
        subst equal
        rcases named with impossible | own
        · cases impossible
        · cases own
          exact unstacked

/-- A thread exchanges the head, and a node goes between the thread and the stack. -/
theorem exchanged (shared : Shared world) {source target : Place producers consumers} {head : TaggedPtr}
    {event : Event consumers} (origin : world.place node = source) (counts : event.exchanges = true)
    (ends : source = .stack ∧ target = .agent mine ∨ source = .agent mine ∧ target = .stack)
    (store : after.store = { world.store with memory := { world.store.memory with head } })
    (place : after.place = Function.update world.place node target) (retired : after.retired = world.retired)
    (history : after.history = world.history ++ [event])
    (due : event = life node source.stage) (next : target.stage = (source.stage + 1) % 4)
    (represents : Represents after.store.memory after.nodes (swaps world.history + 1))
    (balance : after.nodes.length + pops after.history = pushes after.history)
    (others : ∀ other, other ≠ node → (other ∈ after.nodes ↔ other ∈ world.nodes))
    (own : target = .stack ↔ node ∈ after.nodes) : Moved mine world after := by
  have unretired : node ∉ world.retired := by
    rw [← shared.retired, origin]
    rcases ends with ⟨rfl, _⟩ | ⟨rfl, _⟩ <;> simp
  have more : swaps after.history = swaps world.history + 1 := by
    have one : swaps [event] = 1 := by rw [swaps, List.countP_singleton, if_pos counts]
    rw [history, swaps_append, one]
  have allocated : after.store.allocated = world.store.allocated := by rw [store]
  constructor
  · constructor
    · rw [more]
      exact represents
    · rw [place]
      exact listed_update shared.stack others own
    · intro other
      rw [place, allocated]
      by_cases here : other = node
      · rw [here, Function.update_self, shared.allocated, origin]
        rcases ends with ⟨rfl, rfl⟩ | ⟨rfl, rfl⟩ <;> simp
      · rw [Function.update_of_ne here]
        exact shared.allocated other
    · rw [store, retired]
      exact shared.chain
    · rw [retired]
      exact shared.distinct
    · rw [place, retired]
      refine listed_update shared.retired (fun _ _ => Iff.rfl) (iff_of_false ?_ unretired)
      rcases ends with ⟨_, rfl⟩ | ⟨_, rfl⟩ <;> simp
    · rw [store]
      exact shared.slots.congr rfl rfl rfl
    · rw [place, history]
      exact shared.lives.onward (by rw [origin, due]) (by rw [origin, next])
    · exact balance
  · intro agent differs
    refine ⟨.inr more, ?_, ?_, ?_, ?_, [event], history, ?_⟩
    · rw [place]
      apply own_update
      · rw [origin]
        rcases ends with ⟨rfl, _⟩ | ⟨rfl, _⟩ <;> simp [differs.symm]
      · rcases ends with ⟨_, rfl⟩ | ⟨_, rfl⟩ <;> simp [differs.symm]
    · rw [store]
      exact fun _ _ => ⟨rfl, rfl⟩
    · rw [store]
      exact fun _ _ => ⟨rfl, rfl⟩
    · rw [store, retired]
      exact fun _ _ => ⟨Iff.rfl, fun _ => ⟨rfl, rfl⟩⟩
    · intro emitted listed
      rw [List.mem_singleton.mp listed]
      constructor
      · intro consumer loaded _ equal
        subst equal
        cases counts
      · intro freed equal
        subst equal
        cases counts

/-- A thread pushes its own node, which is linked to the rest. -/
theorem pushed (shared : Shared world) (held : world.place node = .agent (.inl producer))
    (linked : world.store.memory.next node = world.store.memory.head.ptr)
    (store : after.store = { world.store with
      memory := { world.store.memory with head := { ptr := some node, tag := world.store.memory.head.tag + 1 } } })
    (place : after.place = Function.update world.place node .stack) (nodes : after.nodes = node :: world.nodes)
    (retired : after.retired = world.retired) (history : after.history = world.history ++ [.pushed node]) :
    Moved (.inl producer) world after := by
  have fresh : node ∉ world.nodes := by
    rw [← shared.stack, held]
    simp
  refine shared.exchanged held rfl (.inr ⟨rfl, rfl⟩) store place retired history rfl rfl ?_ ?_ ?_ ?_
  · rw [store, nodes]
    exact shared.represents.push fresh linked
  · have balance := shared.balance
    have one : pushes ([.pushed node] : List (Event consumers)) = 1 := rfl
    have none : pops ([.pushed node] : List (Event consumers)) = 0 := rfl
    rw [nodes, history, pushes_append, pops_append, List.length_cons]
    omega
  · intro other differs
    rw [nodes, List.mem_cons, or_iff_right differs]
  · simp [nodes]

/-- A thread takes the first node off the stack. -/
theorem popped (shared : Shared world) {rest : List Node} (top : world.nodes = node :: rest)
    (store : after.store = { world.store with memory := { world.store.memory with
      head := { ptr := world.store.memory.next node, tag := world.store.memory.head.tag + 1 } } })
    (place : after.place = Function.update world.place node (.agent (.inr consumer))) (nodes : after.nodes = rest)
    (retired : after.retired = world.retired) (history : after.history = world.history ++ [.popped node]) :
    Moved (.inr consumer) world after := by
  have represents := shared.represents
  rw [top] at represents
  have origin : world.place node = .stack := by
    rw [shared.stack, top]
    exact List.mem_cons_self
  refine shared.exchanged origin rfl (.inl ⟨rfl, rfl⟩) store place retired history rfl rfl ?_ ?_ ?_ ?_
  · rw [store, nodes]
    exact represents.pop
  · have balance := shared.balance
    have none : pushes ([.popped node] : List (Event consumers)) = 0 := rfl
    have one : pops ([.popped node] : List (Event consumers)) = 1 := rfl
    rw [top, List.length_cons] at balance
    rw [nodes, history, pushes_append, pops_append]
    omega
  · intro other differs
    rw [nodes, top, List.mem_cons, or_iff_right differs]
  · rw [nodes]
    exact iff_of_false (by simp) (List.nodup_cons.mp represents.distinct).1

/-- The holder of the lock puts its node on the retire list. -/
theorem listed (shared : Shared world) (held : world.place node = .agent (.inr consumer))
    (locked : world.store.retireLock = some consumer)
    (linked : world.store.memory.retireNext node = world.store.retireList)
    (store : after.store = { world.store with retireList := some node })
    (place : after.place = Function.update world.place node .retired) (nodes : after.nodes = world.nodes)
    (retired : after.retired = node :: world.retired) (history : after.history = world.history) :
    Moved (.inr consumer) world after := by
  have unstacked : node ∉ world.nodes := by
    rw [← shared.stack, held]
    simp
  have fresh : node ∉ world.retired := by
    rw [← shared.retired, held]
    simp
  have allocated : after.store.allocated = world.store.allocated := by rw [store]
  constructor
  · constructor
    · rw [nodes, history, store]
      exact shared.represents
    · rw [place, nodes]
      exact listed_update shared.stack (fun _ _ => Iff.rfl) (iff_of_false (by simp) unstacked)
    · intro other
      rw [place, allocated]
      by_cases here : other = node
      · rw [here, Function.update_self, shared.allocated, held]
        simp
      · rw [Function.update_of_ne here]
        exact shared.allocated other
    · rw [store, retired]
      exact ⟨rfl, linked ▸ shared.chain⟩
    · rw [retired]
      exact List.nodup_cons.mpr ⟨fresh, shared.distinct⟩
    · rw [place, retired]
      refine listed_update shared.retired (fun other differs => ?_) (by simp)
      rw [List.mem_cons, or_iff_right differs]
    · rw [store]
      exact shared.slots
    · rw [history, ← List.append_nil world.history]
      refine shared.lives.unconcerned (by simp) fun other => ?_
      rw [place]
      by_cases here : other = node
      · rw [here, Function.update_self, held]
        rfl
      · rw [Function.update_of_ne here]
    · rw [nodes, history]
      exact shared.balance
  · intro agent differs
    refine ⟨.inl ⟨by rw [store], by rw [history], fun _ _ => by rw [store]⟩, ?_, ?_, ?_, ?_, [],
      by rw [history, List.append_nil], by simp⟩
    · rw [place]
      exact own_update (by simpa [held] using differs.symm) (by simp)
    · rw [store]
      exact fun _ _ => ⟨rfl, rfl⟩
    · rw [store]
      exact fun _ _ => ⟨rfl, rfl⟩
    · intro other equal
      subst equal
      rw [store]
      refine ⟨Iff.rfl, fun lock => ?_⟩
      rw [locked] at lock
      exact absurd (congrArg Sum.inr (Option.some.inj lock).symm) differs

/-- The holder of the lock takes a node off the retire list. -/
theorem unlisted (shared : Shared world) {visited rest : List Node} (split : world.retired = visited ++ node :: rest)
    (locked : world.store.retireLock = some consumer)
    (store : after.store = world.store.unlinkRetired visited.getLast? rest.head?)
    (place : after.place = Function.update world.place node (.agent (.inr consumer)))
    (nodes : after.nodes = world.nodes)
    (retired : after.retired = visited ++ rest) (history : after.history = world.history) :
    Moved (.inr consumer) world after := by
  have origin : world.place node = .retired := by
    rw [shared.retired, split]
    simp
  have unstacked : node ∉ world.nodes := by
    rw [← shared.stack, origin]
    simp
  have chain := shared.chain
  have distinct := shared.distinct
  rw [split] at chain distinct
  have fresh := distinct
  rw [List.nodup_middle, List.nodup_cons] at fresh
  have same : after.store.memory.head = world.store.memory.head ∧ after.store.memory.next = world.store.memory.next ∧
      after.store.allocated = world.store.allocated ∧ after.store.retireLock = world.store.retireLock ∧
      after.store.memory.hazard = world.store.memory.hazard ∧
      after.store.memory.nextHazardSlot = world.store.memory.nextHazardSlot ∧
      after.store.memory.hazardSlot = world.store.memory.hazardSlot := by
    rw [store]
    cases visited.getLast? <;> exact ⟨rfl, rfl, rfl, rfl, rfl, rfl, rfl⟩
  obtain ⟨head, next, allocated, lock, hazard, nextSlot, slot⟩ := same
  have relinked : Chain after.store.memory.retireNext after.store.retireList (visited ++ rest) ∧
      ∀ other ∉ visited, after.store.memory.retireNext other = world.store.memory.retireNext other := by
    rw [store]
    rcases visited.eq_nil_or_concat' with rfl | ⟨initial, previous, rfl⟩
    · have onward := chain.next_of_append
      rw [List.nil_append] at chain
      exact ⟨onward ▸ chain.2, fun _ _ => rfl⟩
    · have onward := chain.next_of_append
      rw [List.getLast?_concat]
      rw [List.append_assoc, List.singleton_append] at chain distinct
      constructor
      · rw [List.append_assoc, List.singleton_append, ← onward]
        exact chain.unlink_after distinct
      · intro other outside
        exact Function.update_of_ne (fun here => outside (by simp [here])) _ _
  constructor
  · constructor
    · rw [nodes, history]
      exact shared.represents.congr head fun other _ => congrFun next other
    · rw [place, nodes]
      exact listed_update shared.stack (fun _ _ => Iff.rfl) (iff_of_false (by simp) unstacked)
    · intro other
      rw [place, allocated]
      by_cases here : other = node
      · rw [here, Function.update_self, shared.allocated, origin]
        simp
      · rw [Function.update_of_ne here]
        exact shared.allocated other
    · rw [retired]
      exact relinked.1
    · rw [retired]
      exact fresh.2
    · rw [place, retired]
      refine listed_update shared.retired (fun other differs => ?_) (iff_of_false (by simp) fresh.1)
      rw [split]
      simp [differs]
    · exact shared.slots.congr hazard nextSlot slot
    · rw [history, ← List.append_nil world.history]
      refine shared.lives.unconcerned (by simp) fun other => ?_
      rw [place]
      by_cases here : other = node
      · rw [here, Function.update_self, origin]
        rfl
      · rw [Function.update_of_ne here]
    · rw [nodes, history]
      exact shared.balance
  · intro agent differs
    refine ⟨.inl ⟨head, by rw [history], fun other _ => congrFun next other⟩, ?_, ?_, ?_, ?_, [],
      by rw [history, List.append_nil], by simp⟩
    · rw [place]
      exact own_update (by simp [origin]) (by simpa using differs.symm)
    · intro other held
      refine ⟨congrFun next other, relinked.2 other fun inside => ?_⟩
      have also := (shared.retired other).mpr (split ▸ List.mem_append_left _ inside)
      rw [held] at also
      cases also
    · intro other _
      exact ⟨congrFun slot other, by rw [hazardOf, hazardOf, hazard, slot]⟩
    · intro other equal
      subst equal
      rw [lock]
      refine ⟨Iff.rfl, fun held => ?_⟩
      rw [locked] at held
      exact absurd (congrArg Sum.inr (Option.some.inj held).symm) differs

end Shared

end HundredDays.TreiberStack.Reclamation
