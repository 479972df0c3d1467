import HundredDays.Data.Links
import HundredDays.Buddy.Model

namespace HundredDays.Buddy

open HundredDays.Data HundredDays.Memory

/-! Block headers in the pool, and the free lists that run through them. -/

/-- A place where a header can be: headers are at least 32 bytes apart. -/
def Slot (pool : Nat) (node : Nat) : Prop := ∃ count, node = pool + 32 * count ∧ 0 < node ∧ node < 2 ^ 64

/-- The fields of a header. -/
structure Header where
  next : Option Nat
  prev : Option Nat
  order : Nat
  isFree : Bool

variable {alloc : BuddyAllocator} {pool node other : Nat} {link : Option Nat} {index : Nat}
  {nodes left right : List Nat}

theorem Slot.far (here : Slot pool node) (there : Slot pool other) (differ : other ≠ node) :
    other + 32 ≤ node ∨ node + 32 ≤ other := by
  obtain ⟨count, first, _⟩ := here
  obtain ⟨otherCount, second, _⟩ := there
  omega

theorem Slot.valid (slots : ∀ target, link = some target → Slot pool target) :
    ∀ target, link = some target → 0 < target ∧ target < 2 ^ 64 := by
  intro target same
  obtain ⟨_, _, range⟩ := slots target same
  exact range

namespace BuddyAllocator

def header (alloc : BuddyAllocator) (node : Nat) : Header :=
  ⟨alloc.next node, alloc.prev node, alloc.order node, alloc.isFree node⟩

@[simp] theorem freeLists_setNext : (alloc.setNext node link).freeLists = alloc.freeLists := rfl

@[simp] theorem freeLists_setPrev : (alloc.setPrev node link).freeLists = alloc.freeLists := rfl

@[simp] theorem header_setList : (alloc.setList index link).header = alloc.header := rfl

theorem header_setNext (here : Slot pool node) (there : Slot pool other)
    (slots : ∀ target, link = some target → Slot pool target) : (alloc.setNext node link).header other =
      if other = node then { alloc.header other with next := link } else alloc.header other := by
  have fields : (alloc.setNext node link).header other = Header.mk
      (loadPointer (storePointer alloc.memory node link) other)
      (loadPointer (storePointer alloc.memory node link) (other + 8))
      (storePointer alloc.memory node link (other + 16)).toNat
      (storePointer alloc.memory node link (other + 17) != 0) := rfl
  rw [fields]
  by_cases same : other = node
  · subst other
    rw [if_pos rfl, loadPointer_storePointer (Slot.valid slots), loadPointer_storePointer_other (by omega),
      storePointer_outside (by omega), storePointer_outside (by omega)]
    simp only [header, next, prev, order, isFree]
  · have far := here.far there same
    rw [if_neg same, loadPointer_storePointer_other (by omega), loadPointer_storePointer_other (by omega),
      storePointer_outside (by omega), storePointer_outside (by omega)]
    simp only [header, next, prev, order, isFree]

theorem header_setPrev (here : Slot pool node) (there : Slot pool other)
    (slots : ∀ target, link = some target → Slot pool target) : (alloc.setPrev node link).header other =
      if other = node then { alloc.header other with prev := link } else alloc.header other := by
  have fields : (alloc.setPrev node link).header other = Header.mk
      (loadPointer (storePointer alloc.memory (node + 8) link) other)
      (loadPointer (storePointer alloc.memory (node + 8) link) (other + 8))
      (storePointer alloc.memory (node + 8) link (other + 16)).toNat
      (storePointer alloc.memory (node + 8) link (other + 17) != 0) := rfl
  rw [fields]
  by_cases same : other = node
  · subst other
    rw [if_pos rfl, loadPointer_storePointer (Slot.valid slots), loadPointer_storePointer_other (by omega),
      storePointer_outside (by omega), storePointer_outside (by omega)]
    simp only [header, next, prev, order, isFree]
  · have far := here.far there same
    rw [if_neg same, loadPointer_storePointer_other (by omega), loadPointer_storePointer_other (by omega),
      storePointer_outside (by omega), storePointer_outside (by omega)]
    simp only [header, next, prev, order, isFree]

/-- A byte that is written outside the 18 bytes that a header uses. -/
theorem header_setByte {position : Nat} {byte : UInt8} (outside : position < other ∨ other + 18 ≤ position) :
    (alloc.setByte position byte).header other = alloc.header other := by
  have order : Function.update alloc.memory position byte (other + 16) = alloc.memory (other + 16) :=
    Function.update_of_ne (by omega) _ _
  have isFree : Function.update alloc.memory position byte (other + 17) = alloc.memory (other + 17) :=
    Function.update_of_ne (by omega) _ _
  simp only [header, next, prev, BuddyAllocator.order, BuddyAllocator.isFree, setByte,
    loadPointer_update (show position < other ∨ other + 8 ≤ position by omega),
    loadPointer_update (show position < other + 8 ∨ other + 8 + 8 ≤ position by omega), order, isFree]

theorem header_setOrder {order : Nat} (here : Slot pool node) (there : Slot pool other) (small : order < 256) :
    (alloc.setOrder node order).header other =
      if other = node then { alloc.header other with order } else alloc.header other := by
  by_cases same : other = node
  · subst other
    have stored : (UInt8.ofNat order).toNat = order := by
      simp only [UInt8.toNat_ofNat']
      exact Nat.mod_eq_of_lt small
    have isFree : Function.update alloc.memory (node + 16) (UInt8.ofNat order) (node + 17) =
        alloc.memory (node + 17) := Function.update_of_ne (by omega) _ _
    simp only [header, next, prev, BuddyAllocator.order, BuddyAllocator.isFree, setOrder, setByte, if_true,
      loadPointer_update (show node + 16 < node ∨ node + 8 ≤ node + 16 by omega),
      loadPointer_update (show node + 16 < node + 8 ∨ node + 8 + 8 ≤ node + 16 by omega),
      Function.update_self, stored, isFree]
  · have far := here.far there same
    rw [if_neg same]
    exact header_setByte (by omega)

theorem header_setFree {isFree : Bool} (here : Slot pool node) (there : Slot pool other) :
    (alloc.setFree node isFree).header other =
      if other = node then { alloc.header other with isFree } else alloc.header other := by
  by_cases same : other = node
  · subst other
    have order : ∀ byte, Function.update alloc.memory (node + 17) byte (node + 16) =
        alloc.memory (node + 16) := fun byte => Function.update_of_ne (by omega) _ _
    have stored : ((if isFree then 1 else 0 : UInt8) != 0) = isFree := by cases isFree <;> rfl
    simp only [header, next, prev, BuddyAllocator.order, BuddyAllocator.isFree, setFree, setByte, if_true,
      loadPointer_update (show node + 17 < node ∨ node + 8 ≤ node + 17 by omega),
      loadPointer_update (show node + 17 < node + 8 ∨ node + 8 + 8 ≤ node + 17 by omega),
      Function.update_self, stored, order]
  · have far := here.far there same
    rw [if_neg same]
    exact header_setByte (by omega)

end BuddyAllocator

/-- The list with this index runs through these blocks. -/
structure Threaded (alloc : BuddyAllocator) (index : Nat) (nodes : List Nat) : Prop where
  segment : Segment alloc.next alloc.prev none nodes none
  head : alloc.freeLists index = nodes.head?
  nodup : nodes.Nodup

namespace Threaded

/-- Only the links of listed blocks matter. -/
theorem congr {after : BuddyAllocator} (threaded : Threaded alloc index nodes)
    (head : after.freeLists index = alloc.freeLists index)
    (links : ∀ node ∈ nodes, after.next node = alloc.next node ∧ after.prev node = alloc.prev node) :
    Threaded after index nodes where
  segment := threaded.segment.congr (fun node member => (links node member).1)
    fun node member => (links node member).2
  head := head.trans threaded.head
  nodup := threaded.nodup

end Threaded

/-- What `list_add` does to the headers. -/
theorem header_listAdd (here : Slot pool node) (there : Slot pool other)
    (slots : ∀ target, alloc.freeLists index = some target → Slot pool target) :
    (listAdd alloc index node).header other = Header.mk
      (if other = node then alloc.freeLists index else alloc.next other)
      (if alloc.freeLists index = some other then some node else if other = node then none else alloc.prev other)
      (alloc.order other) (alloc.isFree other) := by
  have own : ∀ target, some node = some target → Slot pool target := fun target same => Option.some.inj same ▸ here
  have linked : ((alloc.setNext node (alloc.freeLists index)).setPrev node none).header other = Header.mk
      (if other = node then alloc.freeLists index else alloc.next other)
      (if other = node then none else alloc.prev other) (alloc.order other) (alloc.isFree other) := by
    rw [BuddyAllocator.header_setPrev here there (by simp), BuddyAllocator.header_setNext here there slots]
    by_cases same : other = node <;> simp [same, BuddyAllocator.header]
  unfold listAdd
  cases first : alloc.freeLists index with
  | none =>
      rw [first] at linked
      simp only [BuddyAllocator.freeLists_setPrev, BuddyAllocator.freeLists_setNext, first,
        BuddyAllocator.header_setList, linked]
      simp
  | some head =>
      rw [first] at linked
      simp only [BuddyAllocator.freeLists_setPrev, BuddyAllocator.freeLists_setNext, first,
        BuddyAllocator.header_setList]
      rw [BuddyAllocator.header_setPrev (slots head first) there own, linked]
      by_cases same : other = head
      · simp [same]
      · simp [same, Ne.symm same]

theorem freeLists_listAdd : (listAdd alloc index node).freeLists =
    Function.update alloc.freeLists index (some node) := by
  unfold listAdd
  cases first : alloc.freeLists index with
  | none =>
      simp only [BuddyAllocator.freeLists_setPrev, BuddyAllocator.freeLists_setNext, first]
      rfl
  | some head =>
      simp only [BuddyAllocator.freeLists_setPrev, BuddyAllocator.freeLists_setNext, first]
      rfl

/-- Let the block before a removed one, or the list itself, lead past it. -/
def bypass (alloc : BuddyAllocator) (index : Nat) (backward forward : Option Nat) : BuddyAllocator :=
  match backward with
  | some before => alloc.setNext before forward
  | none => alloc.setList index forward

def pointBack (alloc : BuddyAllocator) (forward backward : Option Nat) : BuddyAllocator :=
  match forward with
  | some after => alloc.setPrev after backward
  | none => alloc

theorem listRemove_eq : listRemove alloc index node =
    pointBack (bypass alloc index (alloc.prev node) (alloc.next node))
      ((bypass alloc index (alloc.prev node) (alloc.next node)).next node)
      ((bypass alloc index (alloc.prev node) (alloc.next node)).prev node) := rfl

theorem header_bypass {forward backward : Option Nat} (there : Slot pool other)
    (before : ∀ target, backward = some target → Slot pool target)
    (after : ∀ target, forward = some target → Slot pool target) :
    (bypass alloc index backward forward).header other = Header.mk
      (if backward = some other then forward else alloc.next other) (alloc.prev other)
      (alloc.order other) (alloc.isFree other) := by
  cases backward with
  | none =>
      rw [bypass, BuddyAllocator.header_setList]
      simp [BuddyAllocator.header]
  | some target =>
      rw [bypass, BuddyAllocator.header_setNext (before target rfl) there after]
      by_cases same : other = target
      · simp [same, BuddyAllocator.header]
      · simp [same, Ne.symm same, BuddyAllocator.header]

/-- What `list_remove` does to the headers. -/
theorem header_listRemove (index : Nat) (here : Slot pool node) (there : Slot pool other)
    (before : ∀ target, alloc.prev node = some target → Slot pool target ∧ target ≠ node)
    (after : ∀ target, alloc.next node = some target → Slot pool target) :
    (listRemove alloc index node).header other = Header.mk
      (if alloc.prev node = some other then alloc.next node else alloc.next other)
      (if alloc.next node = some other then alloc.prev node else alloc.prev other)
      (alloc.order other) (alloc.isFree other) := by
  have bypassed : ∀ place, Slot pool place →
      (bypass alloc index (alloc.prev node) (alloc.next node)).header place = _ :=
    fun place slot => header_bypass slot (fun target same => (before target same).1) after
  have own := bypassed node here
  rw [if_neg fun same => (before node same).2 rfl] at own
  have ownNext : (bypass alloc index (alloc.prev node) (alloc.next node)).next node = alloc.next node :=
    congrArg Header.next own
  have ownPrev : (bypass alloc index (alloc.prev node) (alloc.next node)).prev node = alloc.prev node :=
    congrArg Header.prev own
  rw [listRemove_eq, ownNext, ownPrev]
  cases forward : alloc.next node with
  | none =>
      rw [forward] at bypassed
      simpa [pointBack] using bypassed other there
  | some target =>
      rw [forward] at bypassed
      rw [pointBack, BuddyAllocator.header_setPrev (after target forward) there
        fun place same => (before place same).1, bypassed other there]
      by_cases same : other = target
      · simp [same]
      · simp [same, Ne.symm same]

theorem freeLists_listRemove : (listRemove alloc index node).freeLists =
      if alloc.prev node = none then Function.update alloc.freeLists index (alloc.next node)
      else alloc.freeLists := by
  unfold listRemove
  cases prev : alloc.prev node with
  | none =>
      simp only [if_true]
      split <;> rfl
  | some target =>
      simp only [reduceCtorEq, if_false]
      split <;> rfl

namespace Threaded

theorem slots_head (threaded : Threaded alloc index nodes) (slots : ∀ node ∈ nodes, Slot pool node) :
    ∀ target, alloc.freeLists index = some target → Slot pool target := by
  intro target first
  rw [threaded.head] at first
  exact slots target (List.mem_of_head? first)

/-- The block that `list_add` was given comes first. -/
theorem listAdd (threaded : Threaded alloc index nodes) (here : Slot pool node)
    (slots : ∀ node ∈ nodes, Slot pool node) (fresh : node ∉ nodes) :
    Threaded (listAdd alloc index node) index (node :: nodes) where
  nodup := List.nodup_cons.mpr ⟨fresh, threaded.nodup⟩
  head := by simp [freeLists_listAdd]
  segment := by
    have first := threaded.slots_head slots
    have links : ∀ other, Slot pool other →
        (Buddy.listAdd alloc index node).next other = (if other = node then nodes.head? else alloc.next other) ∧
        (Buddy.listAdd alloc index node).prev other = (if nodes.head? = some other then some node
          else if other = node then none else alloc.prev other) := by
      intro other there
      have header := header_listAdd here there first
      rw [threaded.head] at header
      exact ⟨congrArg Header.next header, congrArg Header.prev header⟩
    have unlisted : nodes.head? ≠ some node := fun same => fresh (List.mem_of_head? same)
    rw [segment_cons, (links node here).1, (links node here).2, if_pos rfl, if_neg unlisted, if_pos rfl]
    constructor
    · rfl
    constructor
    · simp
    · cases nodes with
      | nil => exact segment_nil
      | cons second rest =>
          obtain ⟨_, next, tail⟩ := segment_cons.mp threaded.segment
          have apart : ∀ other ∈ second :: rest, other ≠ node := fun other member same => fresh (same ▸ member)
          have secondLinks := links second (slots second List.mem_cons_self)
          rw [if_neg (apart second List.mem_cons_self)] at secondLinks
          rw [segment_cons, secondLinks.1, secondLinks.2]
          constructor
          · simp
          constructor
          · exact next
          · apply tail.congr
            · intro other member
              rw [(links other (slots other (List.mem_cons_of_mem _ member))).1,
                if_neg (apart other (List.mem_cons_of_mem _ member))]
            · intro other member
              have later : second ≠ other := fun same =>
                (List.nodup_cons.mp threaded.nodup).1 (same ▸ member)
              rw [(links other (slots other (List.mem_cons_of_mem _ member))).2]
              simp [later, apart other (List.mem_cons_of_mem _ member)]

/-- Adding to one list keeps the others. -/
theorem listAdd_other {otherIndex : Nat} {others : List Nat} (threaded : Threaded alloc index nodes)
    (kept : Threaded alloc otherIndex others) (here : Slot pool node) (slots : ∀ node ∈ nodes, Slot pool node)
    (otherSlots : ∀ node ∈ others, Slot pool node) (apart : otherIndex ≠ index)
    (fresh : ∀ other ∈ others, other ≠ node ∧ other ∉ nodes) :
    Threaded (Buddy.listAdd alloc index node) otherIndex others := by
  apply kept.congr
  · rw [freeLists_listAdd, Function.update_of_ne apart]
  · intro other member
    have header := header_listAdd here (otherSlots other member) (threaded.slots_head slots)
    obtain ⟨differs, unlisted⟩ := fresh other member
    have notFirst : alloc.freeLists index ≠ some other := by
      rw [threaded.head]
      exact fun same => unlisted (List.mem_of_head? same)
    rw [if_neg differs, if_neg notFirst, if_neg differs] at header
    exact ⟨congrArg Header.next header, congrArg Header.prev header⟩

/-- The links of a listed block. -/
theorem neighbours (threaded : Threaded alloc index (left ++ node :: right)) :
    alloc.prev node = left.getLast? ∧ alloc.next node = right.head? := by
  have segment := (segment_append.mp threaded.segment).2
  simpa using And.intro segment.1 segment.2.1

theorem slots_neighbours (threaded : Threaded alloc index (left ++ node :: right))
    (slots : ∀ place ∈ left ++ node :: right, Slot pool place) :
    (∀ target, alloc.prev node = some target → Slot pool target ∧ target ≠ node) ∧
      ∀ target, alloc.next node = some target → Slot pool target := by
  obtain ⟨prev, next⟩ := threaded.neighbours
  rw [prev, next]
  constructor
  · intro target last
    have member := List.mem_of_getLast? last
    refine ⟨slots target (List.mem_append_left _ member), ?_⟩
    intro same
    exact (List.nodup_append.mp threaded.nodup).2.2 target member node List.mem_cons_self same
  · intro target first
    have member := List.mem_of_head? first
    exact slots target (List.mem_append_right _ (List.mem_cons_of_mem _ member))

/-- Removing a listed block keeps the order of the others. -/
theorem listRemove (threaded : Threaded alloc index (left ++ node :: right))
    (slots : ∀ place ∈ left ++ node :: right, Slot pool place) :
    Threaded (listRemove alloc index node) index (left ++ right) := by
  obtain ⟨prev, next⟩ := threaded.neighbours
  obtain ⟨before, after⟩ := threaded.slots_neighbours slots
  have here : Slot pool node := slots node (by simp)
  obtain ⟨leftSegment, _, _, rightSegment⟩ := segment_append.mp threaded.segment
  have distinct := List.nodup_append.mp threaded.nodup
  have shorter : (left ++ right).Nodup := threaded.nodup.sublist (by simp)
  have inside : ∀ other ∈ left ++ right, other ∈ left ++ node :: right := by
    intro other member
    exact List.perm_middle.mem_iff.mpr (List.mem_cons_of_mem node member)
  have links : ∀ other ∈ left ++ right,
      (Buddy.listRemove alloc index node).next other =
        (if left.getLast? = some other then right.head? else alloc.next other) ∧
      (Buddy.listRemove alloc index node).prev other =
        (if right.head? = some other then left.getLast? else alloc.prev other) := by
    intro other member
    have header := header_listRemove index here (slots other (inside other member)) before after
    rw [prev, next] at header
    exact ⟨congrArg Header.next header, congrArg Header.prev header⟩
  refine ⟨?_, ?_, shorter⟩
  · apply (Links.rejoin leftSegment rightSegment shorter).congr
    · intro other member
      rw [(links other member).1]
      cases left.getLast? with
      | none => simp
      | some last => simp [Function.update_apply, eq_comm]
    · intro other member
      rw [(links other member).2]
      cases right.head? with
      | none => simp
      | some first => simp [Function.update_apply, eq_comm]
  · rw [freeLists_listRemove, prev, next]
    cases left with
    | nil => simp
    | cons first rest =>
        have nonempty : (first :: rest).getLast? ≠ none := by simp
        rw [if_neg nonempty, threaded.head]
        rfl

/-- Removing from one list keeps the others. -/
theorem listRemove_other {otherIndex : Nat} {others : List Nat}
    (threaded : Threaded alloc index (left ++ node :: right)) (kept : Threaded alloc otherIndex others)
    (slots : ∀ place ∈ left ++ node :: right, Slot pool place) (otherSlots : ∀ node ∈ others, Slot pool node)
    (apart : otherIndex ≠ index) (fresh : ∀ other ∈ others, other ∉ left ++ node :: right) :
    Threaded (Buddy.listRemove alloc index node) otherIndex others := by
  obtain ⟨prev, next⟩ := threaded.neighbours
  obtain ⟨before, after⟩ := threaded.slots_neighbours slots
  apply kept.congr
  · rw [freeLists_listRemove]
    split
    · rw [Function.update_of_ne apart]
    · rfl
  · intro other member
    have header := header_listRemove index (slots node (by simp)) (otherSlots other member) before after
    have notLast : alloc.prev node ≠ some other := by
      rw [prev]
      exact fun same => fresh other member (List.mem_append_left _ (List.mem_of_getLast? same))
    have notFirst : alloc.next node ≠ some other := by
      rw [next]
      exact fun same => fresh other member
        (List.mem_append_right _ (List.mem_cons_of_mem _ (List.mem_of_head? same)))
    rw [if_neg notLast, if_neg notFirst] at header
    exact ⟨congrArg Header.next header, congrArg Header.prev header⟩

end Threaded

end HundredDays.Buddy
