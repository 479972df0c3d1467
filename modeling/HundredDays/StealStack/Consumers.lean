import HundredDays.Data.Census
import HundredDays.StealStack.Transfer

namespace HundredDays.StealStack

open HundredDays.Data HundredDays.Semantics

/-! The producers and consumers of `main`. -/

variable {producers consumers : Nat}

inductive ProducerPhase where
  /-- At the head of the loop over the messages. -/
  | loop (j : Nat)
  | allocated (j : Nat) (node : Node)
  | pushing (j : Nat)
  | finished
deriving DecidableEq

inductive ConsumerPhase where
  | steal
  /-- Found the stack empty; about to look for producers. -/
  | check
  | stealAgain
  | walk (head : Option Node)
  /-- The node is counted, and about to be deleted. -/
  | delete (head : Node) (next : Option Node)
  | leave
  | exited
deriving DecidableEq

structure Consumer where
  phase : ConsumerPhase
  local_count : Nat
  /-- What the consumer has yet to count of the chain that it stole. -/
  chain : List Node

/-- The numbers of producers and of messages are constants of `main`. -/
structure Main (producers consumers : Nat) where
  stack : State (Fin producers ⊕ Fin consumers)
  messages : Nat
  producer : Fin producers → ProducerPhase
  active_producers : Nat
  consumer : Fin consumers → Consumer
  total_consumed : Int32

inductive Turn (producers consumers : Nat) where
  /-- With the node that `new` returns, and the failure of a weak exchange. -/
  | produce (index : Fin producers) (node : Node) (spurious : Bool)
  /-- With what `delete` leaves where the link was. -/
  | consume (index : Fin consumers) (garbage : Option Node)

namespace Main

def initial (producers consumers messages : Nat) (next : Node → Option Node) : Main producers consumers :=
  { stack := .initial next, messages, producer := fun _ => .loop 0, active_producers := producers
    consumer := fun _ => { phase := .steal, local_count := 0, chain := [] }, total_consumed := 0 }

variable (main : Main producers consumers)

def setProducer (index : Fin producers) (stack : State (Fin producers ⊕ Fin consumers)) (phase : ProducerPhase) :
    Main producers consumers :=
  { main with stack, producer := Function.update main.producer index phase }

def setConsumer (index : Fin consumers) (stack : State (Fin producers ⊕ Fin consumers)) (consumer : Consumer) :
    Main producers consumers :=
  { main with stack, consumer := Function.update main.consumer index consumer }

def produce (index : Fin producers) (node : Node) (spurious : Bool) : Option (Main producers consumers) :=
  match main.producer index with
  | .loop j =>
      if j < main.messages then
        if main.stack.holder node = .allocator then
          (StealStack.step main.stack (.hand node (some (.inl index)) none)).map fun stack =>
            main.setProducer index stack (.allocated j node)
        else none
      else some { main.setProducer index main.stack .finished with active_producers := main.active_producers - 1 }
  | .allocated j node =>
      (StealStack.step main.stack (.push (.inl index) [] node)).map fun stack =>
        main.setProducer index stack (.pushing j)
  | .pushing j =>
      (StealStack.step main.stack (.step (.inl index) spurious)).map fun stack =>
        main.setProducer index stack (if stack.phase (.inl index) = .idle then .loop (j + 1) else .pushing j)
  | .finished => none

/-- What the consumer goes on with after a steal. -/
def stolen (index : Fin consumers) (empty : ConsumerPhase) : Option (Main producers consumers) :=
  (StealStack.step main.stack (.steal (.inr index))).map fun stack =>
    main.setConsumer index stack { main.consumer index with
      phase := if main.stack.memory.head = none then empty else .walk main.stack.memory.head
      chain := content main.stack.history }

def consume (index : Fin consumers) (garbage : Option Node) : Option (Main producers consumers) :=
  match (main.consumer index).phase with
  | .steal => main.stolen index .check
  | .check => some (main.setConsumer index main.stack { main.consumer index with
      phase := if main.active_producers = 0 then .stealAgain else .steal })
  | .stealAgain => main.stolen index .leave
  | .walk none => some (main.setConsumer index main.stack { main.consumer index with phase := .steal })
  | .walk (some head) =>
      -- the increment of an int that has its greatest value is undefined
      if (main.consumer index).local_count = 2 ^ 31 - 1 then none
      else some (main.setConsumer index main.stack
        { phase := .delete head (main.stack.memory.next head)
          local_count := (main.consumer index).local_count + 1
          chain := (main.consumer index).chain.tail })
  | .delete head next =>
      (StealStack.step main.stack (.hand head none garbage)).map fun stack =>
        main.setConsumer index stack { main.consumer index with phase := .walk next }
  | .leave => some { main.setConsumer index main.stack { main.consumer index with phase := .exited } with
      total_consumed := main.total_consumed + Int32.ofNat (main.consumer index).local_count }
  | .exited => none

def step : Turn producers consumers → Option (Main producers consumers)
  | .produce index node spurious => main.produce index node spurious
  | .consume index garbage => main.consume index garbage

end Main

/-- What a consumer knows of the nodes that it has yet to count. -/
def Walks (state : State (Fin producers ⊕ Fin consumers)) (index : Fin consumers) (consumer : Consumer) : Prop :=
  consumer.chain.Nodup ∧ (∀ node ∈ consumer.chain, state.holder node = .thread (.inr index)) ∧
    match consumer.phase with
    | .walk head => Chain state.memory.next head consumer.chain
    | .delete head next => Chain state.memory.next next consumer.chain ∧ head ∉ consumer.chain ∧
        state.holder head = .thread (.inr index)
    | _ => consumer.chain = []

namespace ConsumerPhase

/-- Saw that no producer is active. -/
def closing : ConsumerPhase → Prop
  | stealAgain | leave | exited => True
  | _ => False

/-- Saw after that that the stack was empty. -/
def done : ConsumerPhase → Prop
  | leave | exited => True
  | _ => False

end ConsumerPhase

namespace Consumer

def taken (consumer : Consumer) : Nat := consumer.local_count + consumer.chain.length

def reported (consumer : Consumer) : Nat := if consumer.phase = .exited then consumer.local_count else 0

end Consumer

def ProducerPhase.active (phase : ProducerPhase) : Nat := if phase = .finished then 0 else 1

/-- Where the pushed nodes are, and what the counters say of them. -/
structure Accounted (main : Main producers consumers) : Prop where
  sound : Sound main.stack
  walks : ∀ index, Walks main.stack index (main.consumer index)
  counts : census Consumer.taken main.consumer + (content main.stack.history).length =
    (pushedNodes main.stack.history).length
  total : main.total_consumed = Int32.ofNat (census Consumer.reported main.consumer)
  active : main.active_producers = census ProducerPhase.active main.producer
  closing : ∀ index, (main.consumer index).phase.closing → main.active_producers = 0
  drained : ∀ index, (main.consumer index).phase.done → content main.stack.history = []

variable {main after : Main producers consumers} {state next : State (Fin producers ⊕ Fin consumers)}
  {index : Fin consumers} {consumer : Consumer}

theorem initial_accounted (messages : Nat) (next : Node → Option Node) :
    Accounted (Main.initial producers consumers messages next) := by
  have none : census Consumer.reported (fun _ : Fin consumers => ⟨.steal, 0, []⟩) = 0 :=
    census_eq_zero.mpr fun _ => rfl
  have nothing : census Consumer.taken (fun _ : Fin consumers => ⟨.steal, 0, []⟩) = 0 :=
    census_eq_zero.mpr fun _ => rfl
  refine ⟨initial_sound next, fun _ => ⟨List.nodup_nil, by simp [Main.initial], rfl⟩, ?_, ?_, ?_, ?_, ?_⟩
  · simp only [Main.initial, nothing]
    rfl
  · simp only [Main.initial, none]
    rfl
  · simp [Main.initial, census, ProducerPhase.active]
  · intro index closes
    exact closes.elim
  · intro index done
    exact done.elim

/-- The nodes of the consumer keep their links and their holder. -/
theorem Walks.congr (walks : Walks state index consumer)
    (own : ∀ node, state.holder node = .thread (.inr index) →
      next.memory.next node = state.memory.next node ∧ next.holder node = .thread (.inr index)) :
    Walks next index consumer := by
  obtain ⟨distinct, held, where_⟩ := walks
  have links : ∀ node ∈ consumer.chain, next.memory.next node = state.memory.next node :=
    fun node inside => (own node (held node inside)).1
  refine ⟨distinct, fun node inside => (own node (held node inside)).2, ?_⟩
  cases phase : consumer.phase with
  | walk head =>
      rw [phase] at where_
      exact Chain.congr where_ links
  | delete head link =>
      rw [phase] at where_
      exact ⟨where_.1.congr links, where_.2.1, (own head where_.2.2).2⟩
  | _ =>
      rw [phase] at where_
      exact where_

namespace Accounted

/-- While a producer is not finished no consumer closes. -/
theorem busy {producer : Fin producers} (accounted : Accounted main) (unfinished : main.producer producer ≠ .finished)
    (index : Fin consumers) : ¬ (main.consumer index).phase.closing := by
  intro closes
  have none := accounted.closing index closes
  have some := le_census ProducerPhase.active main.producer producer
  rw [← accounted.active, none, ProducerPhase.active, if_neg unfinished] at some
  exact absurd some (by decide)

theorem closing_of_done {phase : ConsumerPhase} (done : phase.done) : phase.closing := by
  cases phase <;> trivial

/-- A producer that is not finished before or after goes on. -/
theorem setProducer {producer : Fin producers} {phase : ProducerPhase} (accounted : Accounted main)
    (unfinished : main.producer producer ≠ .finished) (still : phase ≠ .finished) (sound : Sound next)
    (own : ∀ index node, main.stack.holder node = .thread (.inr index) →
      next.memory.next node = main.stack.memory.next node ∧ next.holder node = .thread (.inr index))
    (history : (content next.history).length + (pushedNodes main.stack.history).length =
      (content main.stack.history).length + (pushedNodes next.history).length) :
    Accounted (main.setProducer producer next phase) := by
  have same := census_update ProducerPhase.active main.producer producer phase
  rw [ProducerPhase.active, ProducerPhase.active, if_neg unfinished, if_neg still] at same
  refine ⟨sound, fun index => (accounted.walks index).congr (own index), ?_, accounted.total, ?_, ?_, ?_⟩
  · have counts := accounted.counts
    show census Consumer.taken main.consumer + (content next.history).length = (pushedNodes next.history).length
    omega
  · have active := accounted.active
    show main.active_producers = census ProducerPhase.active (Function.update main.producer producer phase)
    omega
  · intro index closes
    exact absurd closes (accounted.busy unfinished index)
  · intro index done
    exact absurd (closing_of_done done) (accounted.busy unfinished index)

theorem finish {producer : Fin producers} (accounted : Accounted main)
    (unfinished : main.producer producer ≠ .finished) :
    Accounted { main.setProducer producer main.stack .finished with
      active_producers := main.active_producers - 1 } := by
  have fewer := census_update ProducerPhase.active main.producer producer .finished
  rw [ProducerPhase.active, ProducerPhase.active, if_neg unfinished, if_pos rfl] at fewer
  refine ⟨accounted.sound, accounted.walks, accounted.counts, accounted.total, ?_, ?_, accounted.drained⟩
  · have active := accounted.active
    show main.active_producers - 1 = census ProducerPhase.active (Function.update main.producer producer .finished)
    omega
  · intro index closes
    exact absurd closes (accounted.busy unfinished index)

theorem produce {producer : Fin producers} {node : Node} {spurious : Bool} (accounted : Accounted main)
    (stepped : main.produce producer node spurious = some after) : Accounted after := by
  unfold Main.produce at stepped
  cases phase : main.producer producer with
  | finished =>
      simp only [phase] at stepped
      cases stepped
  | loop j =>
      simp only [phase] at stepped
      have unfinished : main.producer producer ≠ .finished := by
        rw [phase]
        simp
      split at stepped
      next =>
        split at stepped
        next fresh =>
          obtain ⟨stack, handed, rfl⟩ := Option.map_eq_some_iff.mp stepped
          have sound := accounted.sound.step handed
          simp only [StealStack.step] at handed
          split at handed <;> cases handed
          refine accounted.setProducer unfinished (by simp) sound ?_ rfl
          intro index other held
          have different : other ≠ node := by
            intro same
            rw [same, fresh] at held
            cases held
          exact ⟨Function.update_of_ne different _ _, (Function.update_of_ne different _ _).trans held⟩
        next => cases stepped
      next =>
        cases stepped
        exact accounted.finish unfinished
  | allocated j fresh =>
      simp only [phase] at stepped
      have unfinished : main.producer producer ≠ .finished := by
        rw [phase]
        simp
      obtain ⟨stack, called, rfl⟩ := Option.map_eq_some_iff.mp stepped
      have sound := accounted.sound.step called
      simp only [StealStack.step] at called
      split at called <;> cases called
      exact accounted.setProducer unfinished (by simp) sound (fun _ _ held => ⟨rfl, held⟩) rfl
  | pushing j =>
      simp only [phase] at stepped
      have unfinished : main.producer producer ≠ .finished := by
        rw [phase]
        simp
      obtain ⟨stack, pushed, rfl⟩ := Option.map_eq_some_iff.mp stepped
      have sound := accounted.sound.step pushed
      simp only [StealStack.step] at pushed
      split at pushed <;> cases pushed
      next before chain_tail pushing busy =>
        obtain ⟨keeps, history⟩ := stepPush_frame spurious accounted.sound busy
        refine accounted.setProducer unfinished ?_ sound (fun index node held => keeps node _ held (by simp)) ?_
        · split <;> simp
        · rcases history with same | pushed
          · rw [same]
          · rw [pushed, content_pushed, pushedNodes_pushed]
            simp only [List.length_append]
            omega

/-- A consumer goes on; what it adds to the total it has not reported before. -/
theorem setConsumer {total_consumed : Int32} (gained : Nat) (accounted : Accounted main) (sound : Sound next)
    (own : ∀ other ≠ index, ∀ node, main.stack.holder node = .thread (.inr other) →
      next.memory.next node = main.stack.memory.next node ∧ next.holder node = .thread (.inr other))
    (walks : Walks next index consumer)
    (counts : consumer.taken + (content next.history).length + (pushedNodes main.stack.history).length =
      (main.consumer index).taken + (content main.stack.history).length + (pushedNodes next.history).length)
    (total : total_consumed = main.total_consumed + Int32.ofNat gained)
    (reported : consumer.reported = (main.consumer index).reported + gained)
    (closes : consumer.phase.closing → main.active_producers = 0)
    (drained : content next.history = [] ∨
      content next.history = content main.stack.history ∧ (consumer.phase.done → content main.stack.history = [])) :
    Accounted { main.setConsumer index next consumer with total_consumed } := by
  have taken := census_update Consumer.taken main.consumer index consumer
  have told := census_update Consumer.reported main.consumer index consumer
  refine ⟨sound, ?_, ?_, ?_, accounted.active, ?_, ?_⟩
  · exact (Function.forall_update_iff _ fun each consumer => Walks next each consumer).mpr
      ⟨walks, fun other different => (accounted.walks other).congr (own other different)⟩
  · have before := accounted.counts
    show census Consumer.taken (Function.update main.consumer index consumer) + (content next.history).length =
      (pushedNodes next.history).length
    omega
  · have more : census Consumer.reported (Function.update main.consumer index consumer) =
        census Consumer.reported main.consumer + gained := by omega
    show total_consumed = Int32.ofNat (census Consumer.reported (Function.update main.consumer index consumer))
    rw [total, accounted.total, more, Int32.ofNat_add]
  · exact (Function.forall_update_iff _ fun (_ : Fin consumers) (consumer : Consumer) =>
      consumer.phase.closing → main.active_producers = 0).mpr ⟨closes, fun other _ => accounted.closing other⟩
  · rcases drained with empty | ⟨same, done⟩
    · exact fun _ _ => empty
    · show ∀ each, (Function.update main.consumer index consumer each).phase.done → content next.history = []
      rw [same]
      exact (Function.forall_update_iff _ fun (_ : Fin consumers) (consumer : Consumer) =>
        consumer.phase.done → content main.stack.history = []).mpr ⟨done, fun other _ => accounted.drained other⟩

theorem stolen {empty : ConsumerPhase} (accounted : Accounted main) (ready : (main.consumer index).chain = [])
    (unreported : (main.consumer index).reported = 0)
    (goesOn : empty = .check ∨ empty = .leave ∧ main.active_producers = 0)
    (stepped : main.stolen index empty = some after) : Accounted after := by
  obtain ⟨stack, stole, rfl⟩ := Option.map_eq_some_iff.mp stepped
  have sound := accounted.sound.step stole
  have head := accounted.sound.chain.start_eq_head?
  simp only [StealStack.step] at stole
  split at stole <;> cases stole
  have emptied : main.stack.memory.head = none → content main.stack.history = [] := by
    intro none
    rw [none] at head
    exact List.head?_eq_none_iff.mp head.symm
  refine accounted.setConsumer 0 sound ?_ ?_ ?_ (by simp) ?_ ?_ (.inl content_stolen)
  · intro other _ node held
    exact ⟨rfl, (if_neg (by rw [held]; simp)).trans held⟩
  · refine ⟨accounted.sound.distinct, fun node inside => if_pos ((accounted.sound.holders node).mpr inside), ?_⟩
    by_cases none : main.stack.memory.head = none
    · simp only [if_pos none]
      rcases goesOn with rfl | ⟨rfl, _⟩
      · exact emptied none
      · exact emptied none
    · simp only [if_neg none]
      exact accounted.sound.chain
  · simp only [Consumer.taken, ready, content_stolen, pushedNodes_stolen, List.length_nil]
    omega
  · rw [unreported]
    refine if_neg ?_
    dsimp only
    split
    · rcases goesOn with rfl | ⟨rfl, _⟩
      · simp
      · simp
    · simp
  · intro closes
    dsimp only at closes
    split at closes
    · rcases goesOn with rfl | ⟨_, none⟩
      · exact closes.elim
      · exact none
    · exact closes.elim

/-- A consumer that saw the stack empty looks for producers. -/
theorem checked (accounted : Accounted main) (phase : (main.consumer index).phase = .check) :
    Accounted (main.setConsumer index main.stack { main.consumer index with
      phase := if main.active_producers = 0 then .stealAgain else .steal }) := by
  have walks := accounted.walks index
  simp only [Walks, phase] at walks
  refine accounted.setConsumer 0 accounted.sound (fun _ _ _ held => ⟨rfl, held⟩) ?_ rfl (by simp) ?_ ?_
    (.inr ⟨rfl, ?_⟩)
  · refine ⟨walks.1, walks.2.1, ?_⟩
    by_cases none : main.active_producers = 0
    · simpa only [if_pos none] using walks.2.2
    · simpa only [if_neg none] using walks.2.2
  · simp only [Consumer.reported, phase]
    split <;> simp
  · intro closes
    dsimp only at closes
    split at closes
    next none => exact none
    next => exact closes.elim
  · intro done
    dsimp only at done
    split at done <;> exact done.elim

/-- A consumer counts the first node of its chain. -/
theorem counted {head : Node} (accounted : Accounted main) (phase : (main.consumer index).phase = .walk (some head)) :
    Accounted (main.setConsumer index main.stack
      { phase := .delete head (main.stack.memory.next head)
        local_count := (main.consumer index).local_count + 1
        chain := (main.consumer index).chain.tail }) := by
  have walks := accounted.walks index
  simp only [Walks, phase] at walks
  obtain ⟨distinct, held, chain⟩ := walks
  cases nodes : (main.consumer index).chain with
  | nil =>
      rw [nodes] at chain
      cases chain
  | cons first rest =>
      rw [nodes] at distinct held chain
      obtain ⟨here, later⟩ := chain
      cases here
      obtain ⟨fresh, distinctRest⟩ := List.nodup_cons.mp distinct
      refine accounted.setConsumer 0 accounted.sound (fun _ _ _ held => ⟨rfl, held⟩) ?_ ?_ (by simp)
        ?_ (fun closes => closes.elim) (.inr ⟨rfl, fun done => done.elim⟩)
      · exact ⟨distinctRest, fun node inside => held node (List.mem_cons_of_mem _ inside), later, fresh,
          held _ List.mem_cons_self⟩
      · have taken : (main.consumer index).taken = (main.consumer index).local_count + (rest.length + 1) := by
          rw [Consumer.taken, nodes, List.length_cons]
        show (main.consumer index).local_count + 1 + rest.length + (content main.stack.history).length +
            (pushedNodes main.stack.history).length =
          (main.consumer index).taken + (content main.stack.history).length +
            (pushedNodes main.stack.history).length
        rw [taken]
        omega
      · simp [Consumer.reported, phase]

/-- A consumer deletes the node that it counted. -/
theorem deleted {head : Node} {link garbage : Option Node} (accounted : Accounted main)
    (phase : (main.consumer index).phase = .delete head link)
    (handed : StealStack.step main.stack (.hand head none garbage) = some next) :
    Accounted (main.setConsumer index next { main.consumer index with phase := .walk link }) := by
  have walks := accounted.walks index
  simp only [Walks, phase] at walks
  obtain ⟨distinct, held, chain, fresh, mine⟩ := walks
  have sound := accounted.sound.step handed
  simp only [StealStack.step] at handed
  split at handed <;> cases handed
  refine accounted.setConsumer 0 sound ?_ ?_ rfl (by simp) ?_ (fun closes => closes.elim)
    (.inr ⟨rfl, fun done => done.elim⟩)
  · intro other different node owned
    have elsewhere : node ≠ head := by
      intro same
      rw [same, mine] at owned
      exact different (Sum.inr.inj (Holder.thread.inj owned)).symm
    exact ⟨Function.update_of_ne elsewhere _ _, (Function.update_of_ne elsewhere _ _).trans owned⟩
  · refine ⟨distinct, ?_, chain.update_outside fresh⟩
    intro node inside
    have elsewhere : node ≠ head := fun same => fresh (same ▸ inside)
    exact (Function.update_of_ne elsewhere _ _).trans (held node inside)
  · simp [Consumer.reported, phase]

theorem consume {garbage : Option Node} (accounted : Accounted main) (stepped : main.consume index garbage = some after) :
    Accounted after := by
  have walks := accounted.walks index
  have closing := accounted.closing index
  have drained := accounted.drained index
  unfold Main.consume at stepped
  cases phase : (main.consumer index).phase with
  | exited =>
      simp only [phase] at stepped
      cases stepped
  | steal =>
      simp only [phase] at stepped
      simp only [Walks, phase] at walks
      exact accounted.stolen walks.2.2 (if_neg (by rw [phase]; simp)) (.inl rfl) stepped
  | stealAgain =>
      simp only [phase] at stepped
      simp only [Walks, phase] at walks
      rw [phase] at closing
      exact accounted.stolen walks.2.2 (if_neg (by rw [phase]; simp)) (.inr ⟨rfl, closing trivial⟩) stepped
  | check =>
      simp only [phase] at stepped
      cases stepped
      exact accounted.checked phase
  | walk head =>
      cases head with
      | none =>
          simp only [phase] at stepped
          simp only [Walks, phase] at walks
          cases stepped
          refine accounted.setConsumer 0 accounted.sound (fun _ _ _ held => ⟨rfl, held⟩) ?_ rfl (by simp) ?_
            (fun closes => closes.elim) (.inr ⟨rfl, fun done => done.elim⟩)
          · refine ⟨walks.1, walks.2.1, ?_⟩
            exact List.head?_eq_none_iff.mp walks.2.2.start_eq_head?.symm
          · simp [Consumer.reported, phase]
      | some head =>
          simp only [phase] at stepped
          split at stepped <;> cases stepped
          exact accounted.counted phase
  | delete head link =>
      simp only [phase] at stepped
      obtain ⟨stack, handed, rfl⟩ := Option.map_eq_some_iff.mp stepped
      exact accounted.deleted phase handed
  | leave =>
      simp only [phase] at stepped
      simp only [Walks, phase] at walks
      rw [phase] at closing drained
      cases stepped
      refine accounted.setConsumer _ accounted.sound (fun _ _ _ held => ⟨rfl, held⟩) walks rfl rfl ?_
        (fun _ => closing trivial) (.inr ⟨rfl, fun _ => drained trivial⟩)
      simp [Consumer.reported, phase]

theorem step {turn : Turn producers consumers} (accounted : Accounted main) (stepped : main.step turn = some after) :
    Accounted after := by
  cases turn with
  | produce index node spurious => exact accounted.produce stepped
  | consume index garbage => exact accounted.consume stepped

end Accounted

theorem run_accounted {messages : Nat} {links : Node → Option Node} {turns : List (Turn producers consumers)}
    (reached : run Main.step (Main.initial producers consumers messages links) turns = some main) : Accounted main :=
  run_invariant Accounted (fun _ _ _ accounted stepped => accounted.step stepped)
    (initial_accounted messages links) reached

/-- All consumers have left, and there was one. -/
theorem Accounted.total_pushed (accounted : Accounted main) (some : 0 < consumers)
    (exited : ∀ index, (main.consumer index).phase = .exited) :
    main.total_consumed = Int32.ofNat (pushedNodes main.stack.history).length := by
  have drained : content main.stack.history = [] :=
    accounted.drained ⟨0, some⟩ (by rw [exited]; trivial)
  have same : Consumer.taken ∘ main.consumer = Consumer.reported ∘ main.consumer := by
    funext index
    have chain : (main.consumer index).chain = [] := by
      have walks := accounted.walks index
      simp only [Walks, exited] at walks
      exact walks.2.2
    simp only [Function.comp_apply, Consumer.taken, Consumer.reported, chain, exited, if_true, List.length_nil,
      Nat.add_zero]
  have counts := accounted.counts
  have equal : census Consumer.taken main.consumer = census Consumer.reported main.consumer :=
    Finset.sum_congr rfl fun index _ => congrFun same index
  rw [drained, List.length_nil, Nat.add_zero, equal] at counts
  rw [accounted.total, counts]

/-- What holds of the stack in every reachable state. -/
structure Transferred {Thread : Type} [DecidableEq Thread] (state : State Thread) : Prop where
  chain : Chain state.memory.next state.memory.head (content state.history)
  distinct : (content state.history).Nodup
  holders : ∀ node, state.holder node = .stack ↔ node ∈ content state.history
  /-- A steal returns the head of the chain of the nodes pushed since the last one. -/
  steals : ∀ thread after, step state (.steal thread) = some after →
    after.history = state.history ++ [(thread, .stolen state.memory.head)] ∧ after.memory.head = none ∧
      Chain after.memory.next state.memory.head (content state.history) ∧
      ∀ node ∈ content state.history, after.holder node = .thread thread
  once : pushedNodes state.history = content state.history ++ (stolenChains state.history).flatten

theorem Sound.transferred {Thread : Type} [DecidableEq Thread] {state : State Thread} (sound : Sound state) :
    Transferred state := by
  refine ⟨sound.chain, sound.distinct, sound.holders, ?_, pushedNodes_split state.history⟩
  intro thread after stepped
  obtain ⟨head, links, history, held⟩ := steal_takes sound stepped
  exact ⟨history, head, links ▸ sound.chain, held⟩

/-- Any threads that push chains of their own and steal; and the consumers of `main`. -/
theorem steals_transfer_once (Thread : Type) [DecidableEq Thread] (links : Node → Option Node) :
    (∀ actions (state : State Thread), run step (State.initial links) actions = some state → Transferred state) ∧
    ∀ producers consumers messages turns (main : Main producers consumers),
      run Main.step (Main.initial producers consumers messages links) turns = some main → 0 < consumers →
        (∀ index, (main.consumer index).phase = .exited) →
          main.total_consumed = Int32.ofNat (pushedNodes main.stack.history).length ∧
            ((pushedNodes main.stack.history).length < 2 ^ 31 →
              main.total_consumed.toInt = (pushedNodes main.stack.history).length) := by
  constructor
  · intro actions state reached
    have sound : Sound state :=
      run_invariant Sound (fun _ _ _ sound stepped => sound.step stepped) (initial_sound links) reached
    exact sound.transferred
  · intro producers consumers messages turns main reached some exited
    have total := (run_accounted reached).total_pushed some exited
    refine ⟨total, fun few => ?_⟩
    rw [total, Int32.toInt_ofNat_of_lt few]

/-- One node goes from the producer through the stack to the consumer. -/
def oneNode : List (Turn 1 1) :=
  List.replicate 6 (.produce 0 7 false) ++ List.replicate 8 (.consume 0 none)

theorem steals_transfer_once_one_node :
    ∃ main, run Main.step (Main.initial 1 1 1 fun _ => none) oneNode = some main ∧
      main.total_consumed = Int32.ofNat (pushedNodes main.stack.history).length := by
  refine ⟨_, rfl, ?_⟩
  refine ((steals_transfer_once Nat fun _ => none).2 1 1 1 oneNode _ rfl (by decide) ?_).1
  intro index
  rw [Subsingleton.elim index 0]
  rfl

/-- Without consumers all of them have left, and nothing is counted. -/
theorem nobody_consumes : ∃ (turns : List (Turn 1 0)) (main : Main 1 0),
    run Main.step (Main.initial 1 0 1 fun _ => none) turns = some main ∧
      (∀ index, (main.consumer index).phase = .exited) ∧
      main.total_consumed.toInt ≠ (pushedNodes main.stack.history).length := by
  refine ⟨List.replicate 6 (.produce 0 7 false), _, rfl, fun index => index.elim0, ?_⟩
  decide

end HundredDays.StealStack
