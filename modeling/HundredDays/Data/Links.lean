import Mathlib.Logic.Function.Basic
import Mathlib.Data.List.Nodup

namespace HundredDays.Data

/-! Intrusive linked lists over an arbitrary node type.

A node's links are read through functions, so the same predicates serve a list
threaded through structs in memory, through a byte pool, or through an array.
Null is `none`.
-/

variable {α : Type*} {next prev : α → Option α} {before after start : Option α}
  {node : α} {left right nodes : List α}

/-- Following `next` from `start` visits exactly `nodes` and then reaches null. -/
def Chain (next : α → Option α) : Option α → List α → Prop
  | start, [] => start = none
  | start, node :: rest => start = some node ∧ Chain next (next node) rest

/-- A doubly linked stretch whose first node points back to `before` and whose
last node points on to `after`. -/
def Segment (next prev : α → Option α) : Option α → List α → Option α → Prop
  | _, [], _ => True
  | before, node :: rest, after =>
      prev node = before ∧ next node = rest.head?.or after ∧
        Segment next prev (some node) rest after

@[simp] theorem chain_nil : Chain next start [] ↔ start = none := Iff.rfl

@[simp] theorem chain_cons : Chain next start (node :: nodes) ↔
    start = some node ∧ Chain next (next node) nodes := Iff.rfl

@[simp] theorem segment_nil : Segment next prev before [] after := trivial

@[simp] theorem segment_cons : Segment next prev before (node :: nodes) after ↔
    prev node = before ∧ next node = nodes.head?.or after ∧
      Segment next prev (some node) nodes after := Iff.rfl

theorem Chain.start_eq_head? (chain : Chain next start nodes) : start = nodes.head? := by
  cases nodes with
  | nil => exact chain
  | cons node rest => exact chain.1

/-- The nodes a chain visits are determined by where it starts. -/
theorem Chain.unique {others : List α} (first : Chain next start nodes)
    (second : Chain next start others) : nodes = others := by
  induction nodes generalizing start others with
  | nil =>
      cases others with
      | nil => rfl
      | cons other rest =>
          rw [chain_nil.mp first] at second
          exact absurd second.1 (by simp)
  | cons node rest ih =>
      cases others with
      | nil =>
          rw [chain_nil.mp second] at first
          exact absurd first.1 (by simp)
      | cons other otherRest =>
          have same : node = other := Option.some.inj (first.1.symm.trans second.1)
          subst other
          rw [ih first.2 second.2]

/-- Two link functions that agree on the visited nodes visit the same chain. -/
theorem Chain.congr {other : α → Option α} (chain : Chain next start nodes)
    (agree : ∀ node ∈ nodes, other node = next node) : Chain other start nodes := by
  induction nodes generalizing start with
  | nil => exact chain
  | cons node rest ih =>
      refine ⟨chain.1, ?_⟩
      rw [agree node (by simp)]
      exact ih chain.2 (fun member inside => agree member (by simp [inside]))

/-- Nodes that are linked one after another. -/
theorem chain_of_consecutive {place : Nat → α} {count : Nat}
    (linked : ∀ i < count, next (place i) = some (place (i + 1))) (last : next (place count) = none) {first : Nat}
    (bound : first ≤ count) :
    Chain next (some (place first)) ((List.range' first (count + 1 - first)).map place) := by
  induction left : count - first generalizing first with
  | zero =>
      obtain rfl : first = count := by omega
      simp [last]
  | succ more ih =>
      have rest := ih (by omega : first + 1 ≤ count) (by omega)
      have length : count + 1 - first = count + 1 - (first + 1) + 1 := by omega
      rw [length, List.range'_succ, List.map_cons, chain_cons]
      exact ⟨rfl, linked first (by omega) ▸ rest⟩

theorem Chain.append (chain : Chain next start (left ++ right)) :
    Chain next right.head? right := by
  induction left generalizing start with
  | nil =>
      have head := chain.start_eq_head?
      simp only [List.nil_append] at head chain
      exact head ▸ chain
  | cons node rest ih => exact ih chain.2

/-- The link into the second half of a chain comes from the last node of the
first half. -/
theorem Chain.next_of_append (chain : Chain next start (left ++ node :: right)) :
    next node = right.head? := by
  have suffixChain := chain.append
  exact suffixChain.2.start_eq_head?

/-- Each node links to the next one; where the last one leads is left open. -/
def Strand (next : α → Option α) : List α → Prop
  | node :: other :: rest => next node = some other ∧ Strand next (other :: rest)
  | _ => True

instance decidableStrand [DecidableEq α] (next : α → Option α) : ∀ nodes, Decidable (Strand next nodes)
  | [] => isTrue trivial
  | [_] => isTrue trivial
  | _ :: other :: rest =>
      have := decidableStrand next (other :: rest)
      inferInstanceAs (Decidable (_ ∧ _))

/-- The last node only has to keep its place. -/
theorem Strand.congr {other : α → Option α} (strand : Strand next (left ++ [node]))
    (agree : ∀ member ∈ left, other member = next member) : Strand other (left ++ [node]) := by
  induction left with
  | nil => trivial
  | cons first rest ih =>
      cases rest with
      | nil => exact ⟨(agree first List.mem_cons_self).trans strand.1, trivial⟩
      | cons second tail =>
          exact ⟨(agree first List.mem_cons_self).trans strand.1,
            ih strand.2 fun member inside => agree member (List.mem_cons_of_mem _ inside)⟩

/-- Linked in front of a chain, a strand makes a longer one. -/
theorem Strand.chain (strand : Strand next (left ++ [node])) (rest : Chain next (next node) nodes) :
    Chain next (some (left.headD node)) (left ++ node :: nodes) := by
  induction left with
  | nil => exact ⟨rfl, rest⟩
  | cons first tail ih =>
      cases tail with
      | nil => exact ⟨rfl, strand.1, rest⟩
      | cons second later =>
          refine ⟨rfl, ?_⟩
          rw [strand.1]
          exact ih strand.2

/-- A chain whose tail is exchanged: on the part that stays only the last link
changes, or the start when that part is empty. -/
theorem Chain.splice [DecidableEq α] {other : α → Option α} {otherStart : Option α} {replaced : List α}
    (chain : Chain next start (left ++ right)) (rest : Chain other replaced.head? replaced)
    (head : otherStart = if left = [] then replaced.head? else start) (distinct : left.Nodup)
    (links : ∀ node ∈ left, other node = if left.getLast? = some node then replaced.head? else next node) :
    Chain other otherStart (left ++ replaced) := by
  induction left generalizing start otherStart with
  | nil => simpa [head] using rest
  | cons node tail ih =>
      obtain ⟨fresh, distinctTail⟩ := List.nodup_cons.mp distinct
      refine ⟨by rw [head, if_neg (List.cons_ne_nil _ _)]; exact chain.1, ?_⟩
      apply ih chain.2
      · rw [links node (by simp)]
        cases tail with
        | nil => simp
        | cons second later =>
            have last : (node :: second :: later).getLast? ≠ some node := by
              intro same
              rw [List.getLast?_cons_cons] at same
              exact fresh (List.mem_of_getLast? same)
            rw [if_neg last, if_neg (List.cons_ne_nil _ _)]
      · exact distinctTail
      · intro member inside
        rw [links member (by simp [inside])]
        cases tail with
        | nil => simp at inside
        | cons second later => rw [List.getLast?_cons_cons]

theorem Segment.congr {otherNext otherPrev : α → Option α}
    (segment : Segment next prev before nodes after)
    (agreeNext : ∀ node ∈ nodes, otherNext node = next node)
    (agreePrev : ∀ node ∈ nodes, otherPrev node = prev node) :
    Segment otherNext otherPrev before nodes after := by
  induction nodes generalizing before with
  | nil => trivial
  | cons node rest ih =>
      refine ⟨?_, ?_, ?_⟩
      · rw [agreePrev node (by simp)]
        exact segment.1
      · rw [agreeNext node (by simp)]
        exact segment.2.1
      · exact ih segment.2.2 (fun member inside => agreeNext member (by simp [inside]))
          (fun member inside => agreePrev member (by simp [inside]))

theorem segment_append :
    Segment next prev before (left ++ right) after ↔
      Segment next prev before left (right.head?.or after) ∧
        Segment next prev (left.getLast?.or before) right after := by
  induction left generalizing before with
  | nil => simp
  | cons node rest ih =>
      simp only [List.cons_append, segment_cons, ih]
      have link : (rest ++ right).head?.or after = rest.head?.or (right.head?.or after) := by
        cases rest <;> simp
      have last : (node :: rest).getLast?.or before = rest.getLast?.or (some node) := by
        cases rest <;> simp [List.getLast?_cons]
      rw [link, last]
      tauto

variable [DecidableEq α]

theorem Chain.update_outside {link : Option α} (chain : Chain next start nodes)
    (outside : node ∉ nodes) : Chain (Function.update next node link) start nodes := by
  apply chain.congr
  intro member inside
  have different : member ≠ node := fun same => outside (same ▸ inside)
  exact Function.update_of_ne different _ _

/-- Unlinking a node from the middle of a chain by redirecting its predecessor. -/
theorem Chain.unlink_after {predecessor : α}
    (chain : Chain next start (left ++ predecessor :: node :: right))
    (distinct : (left ++ predecessor :: node :: right).Nodup) :
    Chain (Function.update next predecessor (next node)) start (left ++ predecessor :: right) := by
  induction left generalizing start with
  | nil =>
      obtain ⟨first, second, rest⟩ := chain
      simp only [List.nil_append, List.nodup_cons, List.mem_cons, not_or] at distinct
      refine ⟨first, ?_⟩
      rw [Function.update_self]
      exact rest.update_outside distinct.1.2
  | cons head tail ih =>
      have apart : head ≠ predecessor := by
        intro same
        simp [same] at distinct
      refine ⟨chain.1, ?_⟩
      rw [Function.update_of_ne apart]
      exact ih chain.2 (List.nodup_cons.mp distinct).2

theorem Segment.update_outside (forward backward : Option α)
    (segment : Segment next prev before nodes after) (outside : node ∉ nodes) :
    Segment (Function.update next node forward) (Function.update prev node backward)
      before nodes after := by
  apply segment.congr
  all_goals
    intro member inside
    have different : member ≠ node := fun same => outside (same ▸ inside)
    exact Function.update_of_ne different _ _

/-- The node before the removed one is the last of `left`; without one, the chain
starts where the removed node pointed. -/
theorem Chain.remove (chain : Chain next start (left ++ node :: right))
    (distinct : (left ++ node :: right).Nodup) :
    match left.getLast? with
    | some previous =>
        Chain (Function.update (Function.update next previous (next node)) node none) start (left ++ right)
    | none => Chain (Function.update next node none) (next node) (left ++ right) := by
  have fresh := distinct
  rw [List.nodup_middle, List.nodup_cons] at fresh
  rcases left.eq_nil_or_concat' with rfl | ⟨initial, previous, rfl⟩
  · exact chain.2.update_outside fresh.1
  · simp only [List.getLast?_concat]
    simp only [List.append_assoc, List.singleton_append] at chain distinct fresh ⊢
    exact (chain.unlink_after distinct).update_outside fresh.1

/-- Redirecting the forward link of the last node moves the segment's target. -/
theorem Segment.retarget_last (forward : Option α)
    (segment : Segment next prev before (nodes ++ [node]) after)
    (distinct : (nodes ++ [node]).Nodup) :
    Segment (Function.update next node forward) prev before (nodes ++ [node]) forward := by
  rw [segment_append] at segment ⊢
  have outside : node ∉ nodes := by
    intro inside
    simp [List.nodup_append] at distinct
    exact distinct.2 node inside rfl
  refine ⟨?_, ?_⟩
  · have kept := segment.1.update_outside forward (prev node) outside
    simpa using kept
  · simpa using segment.2.1

/-- Redirecting the backward link of the first node moves the segment's source. -/
theorem Segment.retarget_first (backward : Option α)
    (segment : Segment next prev before (node :: nodes) after) (outside : node ∉ nodes) :
    Segment next (Function.update prev node backward) backward (node :: nodes) after := by
  refine ⟨Function.update_self .., segment.2.1, ?_⟩
  have kept := segment.2.2.update_outside (next node) backward outside
  simpa only [Function.update_eq_self] using kept

omit [DecidableEq α] in
/-- Forgetting the way back. -/
theorem Segment.chain (segment : Segment next prev before nodes none) : Chain next nodes.head? nodes := by
  induction nodes generalizing before with
  | nil => rfl
  | cons node rest ih =>
      obtain ⟨_, forth, later⟩ := segment
      refine ⟨rfl, ?_⟩
      rw [forth, Option.or_none]
      exact ih later

/-- The links of one doubly linked list together with its two ends. -/
structure Links (α : Type*) where
  next : α → Option α
  prev : α → Option α
  head : Option α
  tail : Option α

namespace Links

/-- The links describe a list with exactly these nodes, front to back. -/
structure Lists (links : Links α) (nodes : List α) : Prop where
  segment : Segment links.next links.prev none nodes none
  head : links.head = nodes.head?
  tail : links.tail = nodes.getLast?
  nodup : nodes.Nodup

/-- Take a node out by bypassing it in both directions, then clear its links. -/
def unlink (links : Links α) (node : α) : Links α :=
  let bypassed := match links.prev node with
    | some before => { links with next := Function.update links.next before (links.next node) }
    | none => { links with head := links.next node }
  let detached := match bypassed.next node with
    | some after => { bypassed with prev := Function.update bypassed.prev after (bypassed.prev node) }
    | none => { bypassed with tail := bypassed.prev node }
  { detached with
    next := Function.update detached.next node none
    prev := Function.update detached.prev node none }

/-- Insert a node before the current front. -/
def pushFront (links : Links α) (node : α) : Links α :=
  let linked := { links with
    next := Function.update links.next node links.head
    prev := Function.update links.prev node none }
  let pointed := match linked.head with
    | some first => { linked with prev := Function.update linked.prev first (some node) }
    | none => linked
  { pointed with
    head := some node
    tail := match pointed.tail with
      | some last => some last
      | none => some node }

omit [DecidableEq α] in
theorem Lists.nil (next prev : α → Option α) : Lists ⟨next, prev, none, none⟩ [] :=
  ⟨trivial, rfl, rfl, List.nodup_nil⟩

omit [DecidableEq α] in
/-- Where a listed node's own links lead. -/
theorem Lists.neighbours {links : Links α} (lists : links.Lists (left ++ node :: right)) :
    links.prev node = left.getLast? ∧ links.next node = right.head? := by
  have segment := (segment_append.mp lists.segment).2
  simpa using And.intro segment.1 segment.2.1

theorem Lists.pushFront {links : Links α} (lists : links.Lists nodes) (fresh : node ∉ nodes) :
    (links.pushFront node).Lists (node :: nodes) := by
  obtain ⟨segment, head, tail, nodup⟩ := lists
  have kept := segment.update_outside links.head none fresh
  cases nodes with
  | nil =>
      simp only [List.head?_nil, List.getLast?_nil] at head tail
      refine ⟨?_, ?_, ?_, by simp⟩ <;> simp [Links.pushFront, head, tail]
  | cons first rest =>
      have apart : node ≠ first := fun same => fresh (by simp [same])
      have last : links.tail = some ((first :: rest).getLast (by simp)) := by
        rw [tail, List.getLast?_eq_some_getLast]
      simp only [List.head?_cons] at head
      refine ⟨?_, ?_, ?_, List.nodup_cons.mpr ⟨fresh, nodup⟩⟩
      · simp only [Links.pushFront, head]
        refine ⟨?_, by simp, ?_⟩
        · rw [Function.update_of_ne apart, Function.update_self]
        · rw [head] at kept
          exact kept.retarget_first _ (List.nodup_cons.mp nodup).1
      · simp [Links.pushFront, head]
      · simp only [Links.pushFront, head, last, List.getLast?_eq_some_getLast (List.cons_ne_nil _ _),
          List.getLast_cons_cons]

/-- Rejoining the two sides of a removed node: only the last node before it and
the first node after it change a link. -/
theorem rejoin {next prev : α → Option α}
    (leftSegment : Segment next prev none left (some node))
    (rightSegment : Segment next prev (some node) right none)
    (distinct : (left ++ right).Nodup) :
    Segment
      (match left.getLast? with
        | some before => Function.update next before right.head?
        | none => next)
      (match right.head? with
        | some after => Function.update prev after left.getLast?
        | none => prev)
      none (left ++ right) none := by
  have apart := List.nodup_append.mp distinct
  rw [segment_append]
  constructor
  · rcases left.eq_nil_or_concat' with rfl | ⟨initial, before, rfl⟩
    · trivial
    · have moved := leftSegment.retarget_last right.head? apart.1
      simp only [List.getLast?_concat, Option.or_none]
      cases right with
      | nil => exact moved
      | cons after rest =>
          apply moved.congr (fun _ _ => rfl)
          intro member inside
          exact Function.update_of_ne (apart.2.2 member inside after (by simp)) _ _
  · cases right with
    | nil => trivial
    | cons after rest =>
        have outside := (List.nodup_cons.mp apart.2.1).1
        have moved := rightSegment.retarget_first left.getLast? outside
        simp only [List.head?_cons, Option.or_none]
        rcases left.eq_nil_or_concat' with rfl | ⟨initial, before, rfl⟩
        · exact moved
        · simp only [List.getLast?_concat] at moved ⊢
          apply moved.congr ?_ (fun _ _ => rfl)
          intro member inside
          exact Function.update_of_ne (apart.2.2 before (by simp) member inside).symm _ _

/-- Take a node out by bypassing it in both directions; its own links stay. -/
def bypass (links : Links α) (node : α) : Links α :=
  let bypassed := match links.prev node with
    | some before => { links with next := Function.update links.next before (links.next node) }
    | none => { links with head := links.next node }
  match bypassed.next node with
  | some after => { bypassed with prev := Function.update bypassed.prev after (bypassed.prev node) }
  | none => { bypassed with tail := bypassed.prev node }

theorem Lists.bypass {links : Links α} (lists : links.Lists (left ++ node :: right)) :
    (links.bypass node).Lists (left ++ right) ∧ node ∉ left ++ right := by
  obtain ⟨back, forth⟩ := lists.neighbours
  obtain ⟨segment, head, tail, nodup⟩ := lists
  obtain ⟨leftSegment, _, _, rightSegment⟩ := segment_append.mp segment
  have distinct := List.nodup_append.mp nodup
  have shorter : (left ++ right).Nodup := nodup.sublist (by simp)
  have fresh : node ∉ left ++ right := by
    simp only [List.mem_append, not_or]
    exact ⟨fun inside => distinct.2.2 node inside node (by simp) rfl,
      (List.nodup_cons.mp distinct.2.1).1⟩
  refine ⟨?_, fresh⟩
  have rejoined := rejoin leftSegment rightSegment shorter
  rcases left.eq_nil_or_concat' with rfl | ⟨initial, before, rfl⟩
  · cases right with
    | nil =>
        exact ⟨rejoined, by simp [Links.bypass, back, forth], by simp [Links.bypass, back, forth], shorter⟩
    | cons after rest =>
        refine ⟨?_, by simp [Links.bypass, back, forth], ?_, shorter⟩
        · simpa [Links.bypass, back, forth] using rejoined
        · simpa [Links.bypass, back, forth] using tail
  · have apart : before ≠ node := fun same => fresh (by simp [same])
    cases right with
    | nil =>
        refine ⟨?_, ?_, by simp [Links.bypass, back, forth, apart.symm], shorter⟩
        · simpa [Links.bypass, back, forth, apart.symm] using rejoined
        · simpa [Links.bypass, back, forth, apart.symm] using head
    | cons after rest =>
        refine ⟨?_, ?_, ?_, shorter⟩
        · simpa [Links.bypass, back, forth, apart.symm] using rejoined
        · simpa [Links.bypass, back, forth, apart.symm] using head
        · simpa [Links.bypass, back, forth, apart.symm] using tail

theorem Lists.unlink {links : Links α} (lists : links.Lists (left ++ node :: right)) :
    (links.unlink node).Lists (left ++ right) := by
  obtain ⟨⟨segment, head, tail, nodup⟩, fresh⟩ := lists.bypass
  exact ⟨segment.update_outside none none fresh, head, tail, nodup⟩

end Links

section Sentinels

variable {first last : α}

/-- A doubly linked list between two sentinels that are no members of it. -/
structure Fenced (next prev : α → Option α) (first last : α) (nodes : List α) : Prop where
  segment : Segment next prev none (first :: (nodes ++ [last])) none
  nodup : (first :: (nodes ++ [last])).Nodup

omit [DecidableEq α] in
theorem Fenced.back (fenced : Fenced next prev first last (left ++ [node])) : prev last = some node := by
  have segment := fenced.segment
  rw [← List.cons_append, segment_append] at segment
  have link := segment.2.1
  rw [← List.cons_append, List.getLast?_concat] at link
  exact link

/-- Taking out a node redirects the links of its two neighbours. -/
theorem Fenced.delete (fenced : Fenced next prev first last (left ++ node :: right)) :
    ∃ before after, prev node = some before ∧ next node = some after ∧ before ≠ node ∧
      Fenced (Function.update next before (some after)) (Function.update prev after (some before)) first last
        (left ++ right) := by
  obtain ⟨segment, nodup⟩ := fenced
  rw [List.append_assoc, List.cons_append, ← List.cons_append] at segment nodup
  obtain ⟨leftSegment, back, forth, rightSegment⟩ := segment_append.mp segment
  have distinct := List.nodup_append.mp nodup
  have shorter : ((first :: left) ++ (right ++ [last])).Nodup := nodup.sublist (by simp)
  have rejoined := Links.rejoin leftSegment rightSegment shorter
  have beforeExists : (first :: left).getLast?.isSome = true := by simp
  have afterExists : (right ++ [last]).head?.isSome = true := by simp
  obtain ⟨before, before_eq⟩ := Option.isSome_iff_exists.mp beforeExists
  obtain ⟨after, after_eq⟩ := Option.isSome_iff_exists.mp afterExists
  rw [before_eq, after_eq] at rejoined
  rw [before_eq] at back
  rw [after_eq] at forth
  refine ⟨before, after, back, forth, ?_, ?_, ?_⟩
  · intro same
    exact distinct.2.2 before (List.mem_of_getLast? before_eq) node (by simp) same
  · rw [List.append_assoc, ← List.cons_append]
    exact rejoined
  · rw [List.append_assoc, ← List.cons_append]
    exact shorter

/-- Putting a new node behind the first sentinel. -/
theorem Fenced.addFirst (fenced : Fenced next prev first last nodes)
    (fresh : node ∉ first :: (nodes ++ [last])) :
    ∃ old, next first = some old ∧
      Fenced (Function.update (Function.update next first (some node)) node (some old))
        (Function.update (Function.update prev node (some first)) old (some node)) first last (node :: nodes) := by
  obtain ⟨segment, nodup⟩ := fenced
  obtain ⟨start, forth, later⟩ := segment
  rw [List.nodup_cons] at nodup
  rw [List.mem_cons, not_or] at fresh
  cases split : nodes ++ [last] with
  | nil => simp at split
  | cons old rest =>
      rw [split] at forth later nodup fresh
      have apart : old ≠ node := fun same => fresh.2 (by simp [same])
      have firstFresh : first ≠ node := fun same => fresh.1 same.symm
      have firstApart : first ≠ old := fun same => nodup.1 (by simp [same])
      refine ⟨old, forth, ⟨?_, ?_⟩⟩
      · rw [List.cons_append, split]
        refine ⟨?_, ?_, ?_, ?_, ?_⟩
        · rw [Function.update_of_ne firstApart, Function.update_of_ne firstFresh, start]
        · rw [Function.update_of_ne firstFresh, Function.update_self]
          rfl
        · rw [Function.update_of_ne apart.symm, Function.update_self]
        · rw [Function.update_self]
          rfl
        · apply (later.retarget_first (some node) (List.nodup_cons.mp nodup.2).1).congr
          · intro member inside
            have differNode : member ≠ node := fun same => fresh.2 (same ▸ inside)
            have differFirst : member ≠ first := fun same => nodup.1 (same ▸ inside)
            rw [Function.update_of_ne differNode, Function.update_of_ne differFirst]
          · intro member inside
            have differNode : member ≠ node := fun same => fresh.2 (same ▸ inside)
            by_cases here : member = old
            · rw [here, Function.update_self, Function.update_self]
            · rw [Function.update_of_ne here, Function.update_of_ne here, Function.update_of_ne differNode]
      · rw [List.cons_append, split, List.nodup_cons, List.nodup_cons]
        refine ⟨?_, fresh.2, nodup.2⟩
        rw [List.mem_cons, not_or]
        exact ⟨firstFresh, nodup.1⟩

end Sentinels

section Teardown

variable [DecidableEq α] {freed : List α} {rounds : Nat}

/-- Free the nodes of a list one by one, each after its link is read.  There is no result when a node
is freed twice, or the list does not end. -/
def freeChain (next : α → Option α) : Nat → List α → Option α → Option (List α)
  | _, freed, none => some freed
  | 0, _, some _ => none
  | rounds + 1, freed, some node => if node ∈ freed then none else freeChain next rounds (node :: freed) (next node)

theorem freeChain_eq (chain : Chain next start nodes) (nodup : nodes.Nodup) (fresh : ∀ node ∈ nodes, node ∉ freed)
    (enough : nodes.length ≤ rounds) : freeChain next rounds freed start = some (nodes.reverse ++ freed) := by
  induction nodes generalizing start freed rounds with
  | nil =>
      rw [chain_nil.mp chain]
      cases rounds <;> rfl
  | cons node rest ih =>
      obtain ⟨here, onward⟩ := chain
      obtain ⟨apart, nodup⟩ := List.nodup_cons.mp nodup
      rw [List.length_cons] at enough
      obtain ⟨more, rfl⟩ := Nat.exists_eq_add_of_le' (Nat.le_trans (Nat.le_add_left 1 _) enough)
      have later : ∀ other ∈ rest, other ∉ node :: freed := by
        intro other member again
        obtain same | before := List.mem_cons.mp again
        · exact apart (same ▸ member)
        · exact fresh other (List.mem_cons_of_mem _ member) before
      rw [here, freeChain, if_neg (fresh node List.mem_cons_self), ih onward nodup later (by omega)]
      simp

end Teardown

end HundredDays.Data
