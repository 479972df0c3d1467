import HundredDays.ObjectPool.Calls
import HundredDays.Semantics.Run

namespace HundredDays.ObjectPool

open HundredDays.Data HundredDays.Semantics

/-! The slots in use are those of the objects that are alive and those whose
constructor threw. -/

variable {params : Params} {base slot : Nat} {session after : Session} {bytes : Nat → UInt8} {throws : Bool}

/-- What every call keeps. -/
structure Kept (params : Params) (base : Nat) (session : Session) : Prop where
  placed : session.pool.pool = base
  listed : ∃ slots, Listed params session.pool slots
  held : ∀ p, p ∈ session.live ∨ p ∈ session.thrown ↔
    ∃ slot < params.capacity, p = nodeAt params base slot ∧ session.pool.inUse slot = true
  apart : ∀ p ∈ session.live, p ∉ session.thrown
  once : session.live.Nodup

/-- A pool in which no slot is in use has no objects. -/
theorem kept_unused {pool : ObjectPool} {slots : List Nat} (handles : List Nat) (listed : Listed params pool slots)
    (unused : ∀ slot < params.capacity, pool.inUse slot = false) :
    Kept params pool.pool { pool, live := [], thrown := [], handles } := by
  refine ⟨rfl, ⟨slots, listed⟩, fun p => ?_, by simp, List.nodup_nil⟩
  constructor
  · intro member
    cases member with
    | inl member => cases member
    | inr member => cases member
  · intro present
    obtain ⟨slot, inside, _, used⟩ := present
    rw [unused slot inside] at used
    cases used

namespace Kept

/-- A slot that is taken was no one's. -/
theorem fresh {slots : List Nat} (kept : Kept params base session) (listed : Listed params session.pool (slot :: slots)) :
    nodeAt params base slot ∉ session.live ∧ nodeAt params base slot ∉ session.thrown := by
  rw [← not_or, kept.held]
  intro present
  obtain ⟨other, _, same, used⟩ := present
  cases nodeAt_inj.mp same
  rw [((listed.free slot).mp List.mem_cons_self).2] at used
  cases used

theorem held_taken {slots : List Nat} (kept : Kept params base session)
    (listed : Listed params session.pool (slot :: slots)) (p : Nat) :
    p = nodeAt params base slot ∨ p ∈ session.live ∨ p ∈ session.thrown ↔
      ∃ other < params.capacity, p = nodeAt params base other ∧
        (taken params session.pool slot bytes).inUse other = true := by
  have inside := ((listed.free slot).mp List.mem_cons_self).1
  rw [kept.held]
  constructor
  · intro present
    obtain here | ⟨other, bound, place, used⟩ := present
    · exact ⟨slot, inside, here, inUse_taken⟩
    · refine ⟨other, bound, place, ?_⟩
      by_cases same : other = slot
      · subst same
        exact Function.update_self ..
      · exact (Function.update_of_ne same _ _).trans used
  · intro present
    obtain ⟨other, bound, place, used⟩ := present
    by_cases same : other = slot
    · subst same
      exact .inl place
    · exact .inr ⟨other, bound, place, (Function.update_of_ne same _ _).symm.trans used⟩

theorem construct {result : Construction} (kept : Kept params base session)
    (completed : session.construct params bytes throws = some (result, after)) : Kept params base after := by
  obtain ⟨slots, listed⟩ := kept.listed
  rw [Session.construct] at completed
  cases slots with
  | nil =>
      rw [listed.exhausted] at completed
      cases completed
      exact kept
  | cons slot rest =>
      obtain ⟨notLive, notThrown⟩ := kept.fresh listed
      have held := @held_taken params base slot session bytes rest kept listed
      rw [listed.construct] at completed
      cases throws with
      | true =>
          cases completed
          refine ⟨kept.placed, ⟨rest, listed.taken⟩, fun p => ?_, fun p member present => ?_, kept.once⟩
          · rw [← held p, listed.chain.1, kept.placed]
            simp only [Option.toList_some, List.singleton_append, List.mem_cons]
            exact or_left_comm
          · rw [listed.chain.1, kept.placed] at present
            cases List.mem_cons.mp present with
            | inl here => exact notLive (here ▸ member)
            | inr earlier => exact kept.apart p member earlier
      | false =>
          cases completed
          refine ⟨kept.placed, ⟨rest, listed.taken⟩, fun p => ?_, fun p member => ?_, ?_⟩
          · rw [← held p, kept.placed]
            simp only [List.mem_cons, or_assoc]
          · rw [kept.placed] at member
            cases List.mem_cons.mp member with
            | inl here => exact here ▸ notThrown
            | inr earlier => exact kept.apart p earlier
          · rw [kept.placed]
            exact List.nodup_cons.mpr ⟨notLive, kept.once⟩

theorem destroy (kept : Kept params base session) (room : Room params base) {ptr : Option Nat}
    (completed : session.destroy params ptr = some after) : Kept params base after := by
  obtain ⟨slots, listed⟩ := kept.listed
  have placed := kept.placed
  rw [Session.destroy] at completed
  obtain ⟨⟨⟨result, message⟩, pool⟩, destroyed, same⟩ := Option.map_eq_some_iff.mp completed
  subst same
  obtain ⟨refused, unchanged, _⟩ | ⟨accepted, slot, inside, place, used, freed⟩ :=
    destroy_cases (placed.symm ▸ room) destroyed
  · subst refused unchanged
    exact kept
  · subst accepted place freed
    rw [placed]
    refine ⟨placed, ⟨_, listed.released (placed.symm ▸ room) inside used⟩, fun p => ?_, fun p member present => ?_,
      kept.once.filter _⟩
    · simp only [if_true, List.mem_filter, bne_iff_ne, ne_eq, Option.some.injEq, ← or_and_right]
      rw [kept.held]
      constructor
      · intro present
        obtain ⟨⟨other, bound, here, usedOther⟩, differs⟩ := present
        have apart : other ≠ slot := fun same => differs (same ▸ here)
        exact ⟨other, bound, here, (Function.update_of_ne apart _ _).trans usedOther⟩
      · intro present
        obtain ⟨other, bound, here, usedOther⟩ := present
        have apart : other ≠ slot := by
          intro same
          subst same
          cases (Function.update_self ..).symm.trans usedOther
        exact ⟨⟨other, bound, here, (Function.update_of_ne apart _ _).symm.trans usedOther⟩,
          fun same => apart (nodeAt_inj.mp (here.symm.trans same))⟩
    · exact kept.apart p (List.mem_of_mem_filter member) (List.mem_of_mem_filter present)

theorem write (kept : Kept params base session) {ptr offset : Nat} (byte : UInt8) (member : ptr ∈ session.live)
    (inside : offset < params.sizeofT) : Kept params base { session with
      pool := { session.pool with memory := Function.update session.pool.memory (ptr + offset) byte } } := by
  obtain ⟨slots, listed⟩ := kept.listed
  obtain ⟨slot, bound, place, used⟩ := (kept.held ptr).mp (.inl member)
  have outside : slot ∉ slots := by
    intro idle
    rw [((listed.free slot).mp idle).2] at used
    cases used
  subst place
  rw [← kept.placed]
  exact ⟨rfl, ⟨slots, listed.write byte inside outside⟩, kept.placed ▸ kept.held, kept.apart, kept.once⟩

theorem step (room : Room params base) (session : Session) (call : Call) (after : Session)
    (kept : Kept params base session) (stepped : session.step params call = some after) :
    Kept params base after := by
  cases call with
  | construct bytes throws =>
      obtain ⟨⟨result, next⟩, completed, same⟩ := Option.map_eq_some_iff.mp stepped
      cases same
      exact kept.construct completed
  | acquire bytes throws =>
      obtain ⟨⟨result, next⟩, completed, same⟩ := Option.map_eq_some_iff.mp stepped
      obtain ⟨placed, listed, held, apart, once⟩ := kept.construct completed
      subst same
      cases result with
      | null => exact ⟨placed, listed, held, apart, once⟩
      | thrown => exact ⟨placed, listed, held, apart, once⟩
      | object ptr => exact ⟨placed, listed, held, apart, once⟩
  | destroy ptr => exact kept.destroy room stepped
  | dropHandle ptr =>
      rw [Session.step] at stepped
      split at stepped
      next =>
        obtain ⟨next, completed, same⟩ := Option.map_eq_some_iff.mp stepped
        obtain ⟨placed, listed, held, apart, once⟩ := kept.destroy room completed
        subst same
        exact ⟨placed, listed, held, apart, once⟩
      next => cases stepped
  | reset =>
      cases stepped
      rw [← kept.placed] at room
      obtain ⟨placed, unused, _, listed⟩ := reset_listed room
      rw [← kept.placed, ← placed]
      exact kept_unused session.handles listed unused
  | write ptr offset byte =>
      rw [Session.step] at stepped
      split at stepped
      next allowed =>
        cases stepped
        exact kept.write byte allowed.1 allowed.2
      next => cases stepped

end Kept

theorem start_kept (room : Room params base) (memory : Nat → UInt8) :
    Kept params base (Session.start params base memory) := by
  obtain ⟨placed, used, _, listed⟩ := @linkAll_listed params
    { pool := base, freelist := none, inUse := fun _ => false, memory, destroyed := [] } room fun _ _ => rfl
  have kept := kept_unused [] listed fun slot _ => by rw [used]
  rw [placed] at kept
  exact kept

/-- Every state that is reached is kept. -/
theorem run_kept (room : Room params base) {memory : Nat → UInt8} {calls : List Call}
    (completed : run (Session.step params) (Session.start params base memory) calls = some session) :
    Kept params base session :=
  run_invariant (Kept params base) (Kept.step room) (start_kept room memory) completed

end HundredDays.ObjectPool
