import HundredDays.ObjectPool.Slots
import Mathlib.Logic.Function.Basic

namespace HundredDays.ObjectPool

open HundredDays.Data HundredDays.Memory

/-! What one call does to the slots. -/

variable {params : Params} {pool after : ObjectPool} {base slot other : Nat} {slots : List Nat} {bytes : Nat → UInt8}
  {throws : Bool}

/-- The pool after its first free slot was taken for a constructor. -/
def taken (params : Params) (pool : ObjectPool) (slot : Nat) (bytes : Nat → UInt8) : ObjectPool :=
  { pool with
    freelist := pool.next (nodeAt params pool.pool slot)
    inUse := Function.update pool.inUse slot true
    memory := fill params pool.memory (nodeAt params pool.pool slot) bytes }

theorem inUse_taken : (taken params pool slot bytes).inUse slot = true := Function.update_self ..

/-- The pool after the object in a slot was destroyed. -/
def released (params : Params) (pool : ObjectPool) (slot : Nat) : ObjectPool :=
  let node := nodeAt params pool.pool slot
  { (pool.destruct params node).setNext node pool.freelist with
    inUse := Function.update pool.inUse slot false
    freelist := some node }

namespace Listed

theorem construct (listed : Listed params pool (slot :: slots)) :
    construct params pool bytes throws = some (if throws then .thrown else .object (nodeAt params pool.pool slot),
      taken params pool slot bytes) := by
  have index : indexOf params pool.pool (nodeAt params pool.pool slot) = some slot := indexOf_nodeAt
  rw [ObjectPool.construct, listed.chain.1]
  simp only [index, Option.map_some]
  rfl

theorem exhausted (listed : Listed params pool []) :
    ObjectPool.construct params pool bytes throws = some (.null, pool) := by
  rw [ObjectPool.construct, listed.chain]

theorem taken (listed : Listed params pool (slot :: slots)) : Listed params (taken params pool slot bytes) slots := by
  obtain ⟨fresh, distinct⟩ := List.nodup_cons.mp listed.once
  refine ⟨?_, distinct, fun other => ?_⟩
  · apply listed.chain.2.congr
    intro node member
    obtain ⟨other, inside, rfl⟩ := List.mem_map.mp member
    exact loadPointer_fill _ _ fun same => fresh (same ▸ inside)
  · by_cases same : other = slot
    · subst same
      simp [ObjectPool.taken, fresh]
    · have before := listed.free other
      rw [List.mem_cons, or_iff_right same] at before
      rw [before, ObjectPool.taken]
      simp only [Function.update_of_ne same]

theorem released (listed : Listed params pool slots) (room : Room params pool.pool) (inside : slot < params.capacity)
    (used : pool.inUse slot = true) : Listed params (released params pool slot) (slot :: slots) := by
  have fresh : slot ∉ slots := by
    intro member
    rw [((listed.free slot).mp member).2] at used
    cases used
  refine ⟨⟨rfl, ?_⟩, List.nodup_cons.mpr ⟨fresh, listed.once⟩, fun other => ?_⟩
  · have linked : (ObjectPool.released params pool slot).next (nodeAt params pool.pool slot) = pool.freelist := by
      apply ObjectPool.next_setNext room
      intro target first
      cases slots with
      | nil => cases first.symm.trans listed.chain
      | cons head rest =>
          cases first.symm.trans listed.chain.1
          exact ⟨head, ((listed.free head).mp List.mem_cons_self).1, rfl⟩
    change Chain _ ((ObjectPool.released params pool slot).next (nodeAt params pool.pool slot)) _
    rw [linked]
    apply listed.chain.congr
    intro node member
    obtain ⟨other, listedOther, rfl⟩ := List.mem_map.mp member
    have differs : slot ≠ other := fun same => fresh (same ▸ listedOther)
    exact (ObjectPool.next_setNext_other _ differs).trans (loadPointer_fill _ _ differs)
  · rw [List.mem_cons, ObjectPool.released]
    by_cases same : other = slot
    · subst same
      simp [inside]
    · simp only [or_iff_right same, Function.update_of_ne same]
      exact listed.free other

/-- The bytes of an object in use are no link. -/
theorem write (listed : Listed params pool slots) {offset : Nat} (byte : UInt8) (inside : offset < params.sizeofT)
    (used : slot ∉ slots) : Listed params
      { pool with memory := Function.update pool.memory (nodeAt params pool.pool slot + offset) byte } slots := by
  refine ⟨?_, listed.once, listed.free⟩
  apply listed.chain.congr
  intro node member
  obtain ⟨other, listedOther, rfl⟩ := List.mem_map.mp member
  have differs : slot ≠ other := fun same => used (same ▸ listedOther)
  have width := params.link
  have storage := params.storage
  apply loadPointer_update
  rcases Nat.lt_or_gt_of_ne differs with less | greater
  · have apart := @nodeAt_apart params pool.pool slot other less
    omega
  · have apart := @nodeAt_apart params pool.pool other slot greater
    omega

end Listed

/-! ### Destroying -/

/-- The pointer is at no byte of the array. -/
def Outside (params : Params) (base p : Nat) : Prop := p < base ∨ p ≥ base + params.capacity * params.sizeofNode

theorem destroy_outside (room : Room params pool.pool) {p : Nat} (outside : Outside params pool.pool p) :
    destroy params pool (some p) = some ((false, some "destroy: pointer outside pool\n"), pool) := by
  have limit : (pool.pool + params.capacity * params.sizeofNode) % 2 ^ 64 =
      pool.pool + params.capacity * params.sizeofNode := Nat.mod_eq_of_lt room.2
  rw [Outside] at outside
  simp only [destroy]
  rw [limit, if_pos outside]

theorem destroy_inside (room : Room params pool.pool) {p : Nat} (inside : ¬ Outside params pool.pool p) :
    destroy params pool (some p) = (indexOf params pool.pool p).map fun index =>
      if pool.inUse index then ((true, none), { (pool.destruct params p).setNext p pool.freelist with
        inUse := Function.update pool.inUse index false
        freelist := some p })
      else ((false, some "destroy: double free detected\n"), pool) := by
  have limit : (pool.pool + params.capacity * params.sizeofNode) % 2 ^ 64 =
      pool.pool + params.capacity * params.sizeofNode := Nat.mod_eq_of_lt room.2
  rw [Outside] at inside
  simp only [destroy]
  rw [limit, if_neg inside]
  congr 1
  funext index
  cases pool.inUse index <;> rfl

theorem nodeAt_inside (room : Room params base) (inside : slot < params.capacity) :
    ¬ Outside params base (nodeAt params base slot) := by
  have bounds := nodeAt_room base inside
  have link := params.link
  rw [Outside]
  omega

/-- A pointer to a slot is accepted when the slot is in use. -/
theorem destroy_slot (room : Room params pool.pool) (inside : slot < params.capacity) :
    destroy params pool (some (nodeAt params pool.pool slot)) =
      if pool.inUse slot then some ((true, none), released params pool slot)
      else some ((false, some "destroy: double free detected\n"), pool) := by
  rw [destroy_inside room (nodeAt_inside room inside), indexOf_nodeAt, Option.map_some]
  cases pool.inUse slot <;> rfl

/-- A pointer into the array that is at no slot is undefined. -/
theorem destroy_misaligned (room : Room params pool.pool) {p : Nat} (inside : ¬ Outside params pool.pool p)
    (misaligned : ∀ slot < params.capacity, p ≠ nodeAt params pool.pool slot) :
    destroy params pool (some p) = none := by
  rw [destroy_inside room inside]
  cases found : indexOf params pool.pool p with
  | none => rfl
  | some slot =>
      have here := indexOf_eq_some found
      have below : slot < params.capacity := by
        rw [Outside, here, nodeAt, not_or, Nat.not_lt, Nat.not_le, Nat.add_lt_add_iff_left] at inside
        exact Nat.lt_of_mul_lt_mul_right inside.2
      exact absurd here (misaligned slot below)

/-- A call that is defined refuses and does nothing, or it releases a slot in use. -/
theorem destroy_cases (room : Room params pool.pool) {ptr : Option Nat} {result : Bool} {message : Option String}
    (completed : destroy params pool ptr = some ((result, message), after)) :
    (result = false ∧ after = pool ∧
      ∀ slot < params.capacity, ptr = some (nodeAt params pool.pool slot) → pool.inUse slot = false) ∨
    (result = true ∧ ∃ slot < params.capacity, ptr = some (nodeAt params pool.pool slot) ∧
      pool.inUse slot = true ∧ after = released params pool slot) := by
  cases ptr with
  | none =>
      cases completed
      exact .inl ⟨rfl, rfl, by simp⟩
  | some p =>
      by_cases outside : Outside params pool.pool p
      · cases (destroy_outside room outside).symm.trans completed
        refine .inl ⟨rfl, rfl, fun slot inside same => ?_⟩
        cases same
        exact absurd outside (nodeAt_inside room inside)
      · by_cases aligned : ∃ slot < params.capacity, p = nodeAt params pool.pool slot
        · obtain ⟨slot, inside, here⟩ := aligned
          subst here
          rw [destroy_slot room inside] at completed
          split at completed
          next used =>
            cases completed
            exact .inr ⟨rfl, slot, inside, rfl, used, rfl⟩
          next unused =>
            cases completed
            refine .inl ⟨rfl, rfl, fun other _ same => ?_⟩
            cases nodeAt_inj.mp (Option.some.inj same)
            exact Bool.eq_false_iff.mpr unused
        · have misaligned : ∀ slot < params.capacity, p ≠ nodeAt params pool.pool slot :=
            fun slot inside same => aligned ⟨slot, inside, same⟩
          cases (destroy_misaligned room outside misaligned).symm.trans completed

/-! ### Resetting -/

/-- What the rounds of the first loop of `reset` so far have done. -/
structure Cleared (params : Params) (pool after : ObjectPool) (count : Nat) : Prop where
  placed : after.pool = pool.pool
  cleared : ∀ slot < count, after.inUse slot = false
  kept : ∀ slot, count ≤ slot → after.inUse slot = pool.inUse slot
  destroyed : after.destroyed = pool.destroyed ++
    ((List.range count).filter fun slot => pool.inUse slot).map (nodeAt params pool.pool)

theorem resetSlots_cleared (params : Params) (pool : ObjectPool) (count : Nat) :
    Cleared params pool ((List.range count).foldl (resetSlot params) pool) count := by
  induction count with
  | zero => exact ⟨rfl, by omega, fun _ _ => rfl, by simp⟩
  | succ count ih =>
      rw [List.range_succ, List.foldl_append, List.foldl_cons, List.foldl_nil]
      obtain ⟨placed, cleared, kept, destroyed⟩ := ih
      have here := kept count (Nat.le_refl _)
      cases used : pool.inUse count with
      | true =>
          rw [used] at here
          rw [resetSlot, if_pos here]
          refine ⟨placed, fun slot inside => ?_, fun slot behind => ?_, ?_⟩
          · by_cases newest : slot = count
            · simp [newest]
            · simp only [Function.update_of_ne newest]
              exact cleared slot (by omega)
          · have differs : slot ≠ count := by omega
            simp only [Function.update_of_ne differs]
            exact kept slot (by omega)
          · simp [ObjectPool.destruct, destroyed, placed, List.range_succ, used]
      | false =>
          rw [used] at here
          rw [resetSlot, if_neg (by simp [here])]
          refine ⟨placed, fun slot inside => ?_, fun slot behind => kept slot (by omega), ?_⟩
          · by_cases newest : slot = count
            · rw [newest, here]
            · exact cleared slot (by omega)
          · simp [destroyed, List.range_succ, used]

/-- `reset` destroys what is in use and links all slots. -/
theorem reset_listed (room : Room params pool.pool) : (reset params pool).pool = pool.pool ∧
    (∀ slot < params.capacity, (reset params pool).inUse slot = false) ∧
    (reset params pool).destroyed = pool.destroyed ++
      ((List.range params.capacity).filter fun slot => pool.inUse slot).map (nodeAt params pool.pool) ∧
    Listed params (reset params pool) (List.range params.capacity) := by
  obtain ⟨placed, cleared, _, destroyed⟩ := resetSlots_cleared params pool params.capacity
  rw [reset]
  rw [← placed] at room
  obtain ⟨samePlace, sameUse, sameDestroyed, listed⟩ := linkAll_listed room cleared
  refine ⟨samePlace.trans placed, fun slot inside => ?_, sameDestroyed.trans destroyed, listed⟩
  rw [sameUse]
  exact cleared slot inside

end HundredDays.ObjectPool
