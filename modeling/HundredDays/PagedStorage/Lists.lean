import HundredDays.PagedStorage.Model

namespace HundredDays.PagedStorage

open HundredDays.Data HundredDays.Memory

/-! What the list and hash helpers do to the links, and that they touch nothing
else of the pager. -/

variable {pager : Pager} {node : Addr} {ends : Links Addr} {size : Int} {link : Option Addr}
  {buckets : Nat → Option Addr} {chain : Addr → Option Addr} {pageId : Int32} {bucket : Nat}

namespace Pager

/-- The links that thread the LRU list through the nodes. -/
def links (pager : Pager) : Links Addr where
  next node := (pager.page node).next
  prev node := (pager.page node).prev
  head := pager.lruList.head
  tail := pager.lruList.tail

/-- The links that thread the hash chains through the nodes. -/
def hashNext (pager : Pager) (node : Addr) : Option Addr := (pager.page node).hashNext

/-- The page id a node is labelled with. -/
def idAt (pager : Pager) (node : Addr) : Int32 := (pager.page node).pageId

/-- The same pager with other LRU links. -/
def withLinks (pager : Pager) (links : Links Addr) (size : Int) : Pager :=
  { pager with
    page := fun node => { pager.page node with next := links.next node, prev := links.prev node }
    lruList := ⟨links.head, links.tail, size⟩ }

/-- The same pager with other hash chains. -/
def withChains (pager : Pager) (buckets : Nat → Option Addr) (chain : Addr → Option Addr) : Pager :=
  { pager with
    page := fun node => { pager.page node with hashNext := chain node }
    hashMap := buckets }

theorem withChains_self (pager : Pager) : pager.withChains pager.hashMap pager.hashNext = pager := rfl

@[simp] theorem setNext_withLinks : (pager.withLinks ends size).setNext node link =
    pager.withLinks { ends with next := Function.update ends.next node link } size := by
  simp only [setNext, Pager.modify, withLinks, Pager.mk.injEq, true_and, and_true]
  funext other
  by_cases same : other = node <;> simp [same]

@[simp] theorem setPrev_withLinks : (pager.withLinks ends size).setPrev node link =
    pager.withLinks { ends with prev := Function.update ends.prev node link } size := by
  simp only [setPrev, Pager.modify, withLinks, Pager.mk.injEq, true_and, and_true]
  funext other
  by_cases same : other = node <;> simp [same]

@[simp] theorem setHead_withLinks : (pager.withLinks ends size).setHead link =
    pager.withLinks { ends with head := link } size := rfl

@[simp] theorem setTail_withLinks : (pager.withLinks ends size).setTail link =
    pager.withLinks { ends with tail := link } size := rfl

@[simp] theorem setSize_withLinks {other : Int} : (pager.withLinks ends size).setSize other =
    pager.withLinks ends other := rfl

@[simp] theorem next_withLinks : ((pager.withLinks ends size).page node).next = ends.next node := rfl

@[simp] theorem prev_withLinks : ((pager.withLinks ends size).page node).prev = ends.prev node := rfl

@[simp] theorem lruList_withLinks :
    (pager.withLinks ends size).lruList = ⟨ends.head, ends.tail, size⟩ := rfl

@[simp] theorem setHashNext_withChains : (pager.withChains buckets chain).setHashNext node link =
    pager.withChains buckets (Function.update chain node link) := by
  simp only [setHashNext, Pager.modify, withChains, Pager.mk.injEq, true_and, and_true]
  funext other
  by_cases same : other = node <;> simp [same]

@[simp] theorem setBucket_withChains : (pager.withChains buckets chain).setBucket bucket link =
    pager.withChains (Function.update buckets bucket link) chain := rfl

@[simp] theorem hashNext_withChains :
    ((pager.withChains buckets chain).page node).hashNext = chain node := rfl

end Pager

theorem listUnlink_withLinks (pager : Pager) (ends : Links Addr) (size : Int) : listUnlink (pager.withLinks ends size) node =
    pager.withLinks (ends.unlink node) (size - 1) := by
  unfold listUnlink Links.unlink
  cases back : ends.prev node with
  | none => cases forth : ends.next node <;> simp [back, forth]
  | some before =>
      simp only [Pager.prev_withLinks, Pager.next_withLinks, Pager.setNext_withLinks, back]
      cases forth : Function.update ends.next before (ends.next node) node <;> simp

theorem listAddFront_withLinks (pager : Pager) (ends : Links Addr) (size : Int) : listAddFront (pager.withLinks ends size) node =
    pager.withLinks (ends.pushFront node) (size + 1) := by
  unfold listAddFront Links.pushFront
  cases front : ends.head <;> cases back : ends.tail <;> simp [front, back]

theorem listUnlink_eq : listUnlink pager node =
    pager.withLinks (pager.links.unlink node) (pager.lruList.size - 1) :=
  listUnlink_withLinks pager pager.links pager.lruList.size

theorem listAddFront_eq : listAddFront pager node =
    pager.withLinks (pager.links.pushFront node) (pager.lruList.size + 1) :=
  listAddFront_withLinks pager pager.links pager.lruList.size

theorem hashInsert_eq (found : bucketOf (pager.page node).pageId = some bucket) :
    hashInsert pager node = some (pager.withChains
      (Function.update pager.hashMap bucket (some node))
      (Function.update pager.hashNext node (pager.hashMap bucket))) := by
  simp only [hashInsert, found, Option.map_some]
  rw [← pager.withChains_self, Pager.setHashNext_withChains,
    Pager.setBucket_withChains]
  rfl

/-- A walk down a chain finds the first node with the wanted page id. -/
theorem hashFindFrom_chain {steps : Nat} {start : Option Addr} {nodes : List Addr}
    (chain : Chain pager.hashNext start nodes) (enough : nodes.length ≤ steps) :
    hashFindFrom pager pageId steps start =
      some (nodes.find? fun node => pager.idAt node = pageId) := by
  induction nodes generalizing start steps with
  | nil =>
      rw [chain_nil.mp chain]
      simp [hashFindFrom]
  | cons node rest ih =>
      cases steps with
      | zero => simp at enough
      | succ steps =>
          obtain ⟨rfl, remaining⟩ := chain
          have tail := ih remaining (by simpa using enough)
          by_cases same : pager.idAt node = pageId
          · have hit : (pager.page node).pageId = pageId := same
            simp [hashFindFrom, hit, same]
          · have miss : (pager.page node).pageId ≠ pageId := same
            have later : hashFindFrom pager pageId steps (pager.page node).hashNext = _ := tail
            simp [hashFindFrom, miss, same, later]

/-- The walk that removes a node redirects the link of the node before it, or the
bucket itself. -/
theorem hashRemoveFrom_chain {steps : Nat} {start : Option Addr} {left right : List Addr} (bucket : Nat)
    (before : List Addr)
    (chain : Chain pager.hashNext start (left ++ node :: right))
    (distinct : (left ++ node :: right).Nodup) (enough : left.length < steps) :
    hashRemoveFrom pager bucket node steps before.getLast? start =
      some (match (before ++ left).getLast? with
        | some previous => pager.withChains pager.hashMap
            (Function.update (Function.update pager.hashNext previous (pager.hashNext node)) node none)
        | none => pager.withChains (Function.update pager.hashMap bucket (pager.hashNext node))
            (Function.update pager.hashNext node none)) := by
  induction left generalizing start steps before with
  | nil =>
      cases steps with
      | zero => simp at enough
      | succ steps =>
          obtain ⟨rfl, -⟩ := chain
          simp only [hashRemoveFrom, if_true, List.append_nil]
          rw [← pager.withChains_self]
          cases before.getLast? <;>
            simp only [Pager.setHashNext_withChains, Pager.setBucket_withChains,
              Pager.hashNext_withChains] <;> rfl
  | cons first left ih =>
      cases steps with
      | zero => simp at enough
      | succ steps =>
          obtain ⟨rfl, remaining⟩ := chain
          have apart : first ≠ node := by
            intro same
            simp [same] at distinct
          have tail := ih (before ++ [first]) remaining
            (List.nodup_cons.mp distinct).2 (by simpa using enough)
          simp only [hashRemoveFrom, if_neg apart]
          simp only [List.getLast?_concat, List.append_assoc, List.singleton_append] at tail
          exact tail

/-- Removing a chained node keeps the rest of its chain and every other chain. -/
theorem hashRemove_chain {left right : List Addr}
    (bucketed : bucketOf (pager.idAt node) = some bucket)
    (chain : Chain pager.hashNext (pager.hashMap bucket) (left ++ node :: right))
    (distinct : (left ++ node :: right).Nodup) (enough : left.length < pager.walkBound) :
    ∃ heads links, hashRemove pager node = some (pager.withChains heads links) ∧
      Chain links (heads bucket) (left ++ right) ∧
      (∀ other, other ≠ bucket → heads other = pager.hashMap other) ∧
      ∀ other, other ∉ left ++ node :: right → links other = pager.hashNext other := by
  have walked := hashRemoveFrom_chain bucket [] chain distinct enough
  have removed := chain.remove distinct
  have started : hashRemove pager node =
      hashRemoveFrom pager bucket node pager.walkBound ([] : List Addr).getLast? (pager.hashMap bucket) := by
    have found : bucketOf (pager.page node).pageId = some bucket := bucketed
    rw [hashRemove, found, Option.bind_some]
    rfl
  rw [started, walked, List.nil_append]
  cases last : left.getLast? with
  | none =>
      rw [last] at removed
      refine ⟨_, _, rfl, ?_, ?_, ?_⟩
      · rw [Function.update_self]
        exact removed
      · intro other different
        exact Function.update_of_ne different _ _
      · intro other outside
        have apart : other ≠ node := fun same => outside (by simp [same])
        exact Function.update_of_ne apart _ _
  | some previous =>
      rw [last] at removed
      refine ⟨_, _, rfl, removed, fun _ _ => rfl, ?_⟩
      intro other outside
      have apart : other ≠ node := fun same => outside (by simp [same])
      have before : other ≠ previous := by
        intro same
        exact outside (by simp [same, List.mem_of_getLast? last])
      rw [Function.update_of_ne apart, Function.update_of_ne before]

theorem bucketOf_nonneg (nonneg : 0 ≤ pageId) :
    bucketOf pageId = some (pageId.toInt.toNat % hashMapSize) := by
  have lower : 0 ≤ pageId.toInt := by simpa [Int32.le_iff_toInt_le] using nonneg
  have value : hashFunc pageId = (pageId.toInt.toNat % hashMapSize : Nat) := by
    rw [hashFunc, Int.tmod_eq_emod_of_nonneg lower, Int.natCast_mod, Int.toNat_of_nonneg lower]
  rw [bucketOf, value, if_neg (by omega), Int.toNat_natCast]

end HundredDays.PagedStorage
