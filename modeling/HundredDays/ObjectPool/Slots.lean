import HundredDays.Data.Links
import HundredDays.ObjectPool.Model

namespace HundredDays.ObjectPool

open HundredDays.Data HundredDays.Memory

/-! The slots of the array and the list of those that are free. -/

variable {params : Params} {pool : ObjectPool} {base slot other node : Nat} {slots : List Nat}

/-- The array lies in the address space and is not at null. -/
def Room (params : Params) (base : Nat) : Prop :=
  0 < base ∧ base + params.capacity * params.sizeofNode < 2 ^ 64

theorem nodeAt_apart (less : slot < other) :
    nodeAt params base slot + params.sizeofNode ≤ nodeAt params base other := by
  have rows := Nat.mul_le_mul_right params.sizeofNode (Nat.succ_le_of_lt less)
  rw [Nat.succ_mul] at rows
  rw [nodeAt, nodeAt]
  omega

theorem nodeAt_inj : nodeAt params base slot = nodeAt params base other ↔ slot = other := by
  have link := params.link
  constructor
  · intro same
    rcases Nat.lt_trichotomy slot other with less | equal | greater
    · have apart := @nodeAt_apart params base slot other less
      omega
    · exact equal
    · have apart := @nodeAt_apart params base other slot greater
      omega
  · exact congrArg _

theorem nodeAt_room (base : Nat) (inside : slot < params.capacity) :
    base ≤ nodeAt params base slot ∧ nodeAt params base slot + params.sizeofNode ≤
      base + params.capacity * params.sizeofNode := by
  have rows := Nat.mul_le_mul_right params.sizeofNode (Nat.succ_le_of_lt inside)
  rw [Nat.succ_mul] at rows
  rw [nodeAt]
  omega

theorem nodeAt_pointer (room : Room params base) (inside : slot < params.capacity) :
    0 < nodeAt params base slot ∧ nodeAt params base slot < 2 ^ 64 := by
  have bounds := nodeAt_room base inside
  rw [Room] at room
  omega

theorem indexOf_nodeAt : indexOf params base (nodeAt params base slot) = some slot := by
  have link := params.link
  rw [indexOf, nodeAt, Nat.add_sub_cancel_left, Nat.mul_mod_left, Nat.mul_div_cancel _ (by omega)]
  exact if_pos ⟨Nat.le_add_right _ _, rfl⟩

theorem indexOf_eq_some (found : indexOf params base node = some slot) : node = nodeAt params base slot := by
  rw [indexOf] at found
  split at found
  next aligned =>
    cases found
    have parts := Nat.div_add_mod' (node - base) params.sizeofNode
    rw [nodeAt]
    omega
  next => cases found

/-! ### Reading what was written -/

namespace ObjectPool

@[simp] theorem pool_setNext (node : Nat) (link : Option Nat) : (pool.setNext node link).pool = pool.pool := rfl

@[simp] theorem inUse_setNext (node : Nat) (link : Option Nat) : (pool.setNext node link).inUse = pool.inUse := rfl

theorem next_setNext {link : Option Nat} (room : Room params base)
    (inside : ∀ target, link = some target → ∃ i < params.capacity, target = nodeAt params base i) :
    (pool.setNext node link).next node = link := by
  apply loadPointer_storePointer
  intro target same
  obtain ⟨i, bound, rfl⟩ := inside target same
  exact nodeAt_pointer room bound

theorem next_setNext_other (link : Option Nat) (differs : slot ≠ other) :
    (pool.setNext (nodeAt params base slot) link).next (nodeAt params base other) =
      pool.next (nodeAt params base other) := by
  have width := params.link
  apply loadPointer_storePointer_other
  rcases Nat.lt_or_gt_of_ne differs with less | greater
  · have apart := @nodeAt_apart params base slot other less
    omega
  · have apart := @nodeAt_apart params base other slot greater
    omega

end ObjectPool

/-- The storage of a slot is apart from the links of the others. -/
theorem loadPointer_fill (memory bytes : Nat → UInt8) (differs : slot ≠ other) :
    loadPointer (fill params memory (nodeAt params base slot) bytes) (nodeAt params base other) =
      loadPointer memory (nodeAt params base other) := by
  have width := params.link
  have storage := params.storage
  apply loadPointer_congr
  intro address lower upper
  rw [fill, if_neg]
  rcases Nat.lt_or_gt_of_ne differs with less | greater
  · have apart := @nodeAt_apart params base slot other less
    omega
  · have apart := @nodeAt_apart params base other slot greater
    omega

/-! ### The free list -/

/-- The list visits the slots that are not in use, each once, and ends. -/
structure Listed (params : Params) (pool : ObjectPool) (slots : List Nat) : Prop where
  chain : Chain pool.next pool.freelist (slots.map (nodeAt params pool.pool))
  once : slots.Nodup
  free : ∀ slot, slot ∈ slots ↔ slot < params.capacity ∧ pool.inUse slot = false

theorem linkSlots_next (room : Room params pool.pool) {count : Nat} (bound : count < params.capacity) :
    (pool.linkSlots params count).pool = pool.pool ∧ (pool.linkSlots params count).inUse = pool.inUse ∧
      (pool.linkSlots params count).destroyed = pool.destroyed ∧
      ∀ i < count, (pool.linkSlots params count).next (nodeAt params pool.pool i) =
        some (nodeAt params pool.pool (i + 1)) := by
  induction count with
  | zero => exact ⟨rfl, rfl, rfl, by omega⟩
  | succ count ih =>
      obtain ⟨placed, used, destroyed, linked⟩ := ih (by omega)
      have step : pool.linkSlots params (count + 1) = (pool.linkSlots params count).setNext
          (nodeAt params pool.pool count) (some (nodeAt params pool.pool (count + 1))) := by
        rw [← placed, ObjectPool.linkSlots, List.range_succ, List.foldl_append]
        rfl
      rw [step]
      refine ⟨placed, used, destroyed, fun i inside => ?_⟩
      by_cases newest : i = count
      · subst newest
        apply ObjectPool.next_setNext room
        intro target same
        cases same
        exact ⟨i + 1, bound, rfl⟩
      · rw [ObjectPool.next_setNext_other _ (Ne.symm newest)]
        exact linked i (by omega)

/-- When no slot is in use all are linked. -/
theorem linkAll_listed (room : Room params pool.pool) (unused : ∀ slot < params.capacity, pool.inUse slot = false) :
    (pool.linkAll params).pool = pool.pool ∧ (pool.linkAll params).inUse = pool.inUse ∧
      (pool.linkAll params).destroyed = pool.destroyed ∧
      Listed params (pool.linkAll params) (List.range params.capacity) := by
  have positive := params.anySlot
  obtain ⟨placed, used, destroyed, linked⟩ :=
    @linkSlots_next params pool room (params.capacity - 1) (by omega)
  refine ⟨placed, used, destroyed, ?_, List.nodup_range, fun slot => ?_⟩
  · have last : ((pool.linkSlots params (params.capacity - 1)).setNext
        (nodeAt params pool.pool (params.capacity - 1)) none).next
          (nodeAt params pool.pool (params.capacity - 1)) = none :=
      ObjectPool.next_setNext room (by simp)
    have visits := @chain_of_consecutive _ ((pool.linkSlots params (params.capacity - 1)).setNext
        (nodeAt params pool.pool (params.capacity - 1)) none).next (nodeAt params pool.pool) (params.capacity - 1)
      (fun i inside => by
        rw [ObjectPool.next_setNext_other _ (by omega)]
        exact linked i inside) last 0 (Nat.zero_le _)
    have whole : params.capacity - 1 + 1 - 0 = params.capacity := by omega
    rw [whole, ← List.range_eq_range'] at visits
    rw [ObjectPool.linkAll]
    simp only [placed, ObjectPool.pool_setNext]
    exact visits
  · rw [List.mem_range]
    change _ ↔ _ ∧ (pool.linkSlots params (params.capacity - 1)).inUse slot = false
    rw [used]
    exact ⟨fun inside => ⟨inside, unused slot inside⟩, And.left⟩

end HundredDays.ObjectPool
