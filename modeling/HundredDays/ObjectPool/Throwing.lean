import HundredDays.ObjectPool.Destroying

namespace HundredDays.ObjectPool

open HundredDays.Semantics

/-! Constructors that throw.  The slot is taken before the constructor runs and not given
back, so that the pool counts it as an object until it is reset. -/

variable {params : Params} {base : Nat} {session : Session}

/-- The flags are those of the live objects, and a reset runs the destructor once on each of them and on nothing else. -/
structure Exact (params : Params) (session : Session) : Prop where
  flags : ∀ slot < params.capacity,
    session.pool.inUse slot = true ↔ nodeAt params session.pool.pool slot ∈ session.live
  once : session.live.Nodup
  destroyed : ∃ order, order.Perm session.live ∧
    (reset params session.pool).destroyed = session.pool.destroyed ++ order

/-- A constructor that throws leaves the free list and the flags. -/
def Atomic (params : Params) (session : Session) (bytes : Nat → UInt8) (throws : Bool) : Prop :=
  ∀ after, construct params session.pool bytes throws = some (.thrown, after) →
    after.freelist = session.pool.freelist ∧ after.inUse = session.pool.inUse

/-- No constructor throws while a slot is free. -/
def Undisturbed (session : Session) : Call → Prop
  | .construct _ throws => ¬ (throws = true ∧ session.pool.freelist ≠ none)
  | .acquire _ throws => ¬ (throws = true ∧ session.pool.freelist ≠ none)
  | _ => True

namespace Kept

/-- The flags are exact when no constructor has thrown. -/
theorem exact (kept : Kept params base session) (room : Room params base) (sound : session.thrown = []) :
    Exact params session := by
  have placed := kept.placed
  subst placed
  have held := kept.held
  simp only [sound, List.not_mem_nil, or_false] at held
  refine ⟨fun slot inside => ?_, kept.once, _, ?_, (reset_listed room).2.2.1⟩
  · rw [held]
    constructor
    · intro used
      exact ⟨slot, inside, rfl, used⟩
    · intro present
      obtain ⟨other, _, same, used⟩ := present
      cases nodeAt_inj.mp same
      exact used
  · have distinct : Function.Injective (nodeAt params session.pool.pool) := fun _ _ same => nodeAt_inj.mp same
    apply (List.perm_ext_iff_of_nodup ((List.nodup_range.filter _).map distinct) kept.once).mpr
    intro p
    rw [held]
    simp only [List.mem_map, List.mem_filter, List.mem_range]
    constructor
    · intro present
      obtain ⟨slot, ⟨inside, used⟩, here⟩ := present
      exact ⟨slot, inside, here.symm, used⟩
    · intro present
      obtain ⟨slot, inside, here, used⟩ := present
      exact ⟨slot, ⟨inside, used⟩, here.symm⟩

theorem atomic_iff (kept : Kept params base session) (bytes : Nat → UInt8) (throws : Bool) :
    Atomic params session bytes throws ↔ ¬ (throws = true ∧ session.pool.freelist ≠ none) := by
  obtain ⟨slots, listed⟩ := kept.listed
  constructor
  · intro atomic disturbed
    obtain ⟨threw, free⟩ := disturbed
    subst threw
    cases slots with
    | nil => exact free listed.chain
    | cons slot rest =>
        have flags := (atomic _ listed.construct).2
        have idle := ((listed.free slot).mp List.mem_cons_self).2
        rw [← flags] at idle
        cases inUse_taken.symm.trans idle
  · intro undisturbed after completed
    cases slots with
    | nil =>
        rw [listed.exhausted] at completed
        cases completed
    | cons slot rest =>
        rw [listed.construct] at completed
        cases throws with
        | true => exact absurd ⟨rfl, by simp [listed.chain.1]⟩ undisturbed
        | false => cases completed

theorem construct_sound {result : Construction} {after : Session} {bytes : Nat → UInt8} {throws : Bool}
    (kept : Kept params base session) (sound : session.thrown = [])
    (undisturbed : ¬ (throws = true ∧ session.pool.freelist ≠ none))
    (completed : session.construct params bytes throws = some (result, after)) : after.thrown = [] := by
  obtain ⟨slots, listed⟩ := kept.listed
  rw [Session.construct] at completed
  cases slots with
  | nil =>
      rw [listed.exhausted] at completed
      cases completed
      exact sound
  | cons slot rest =>
      rw [listed.construct] at completed
      cases throws with
      | true => exact absurd ⟨rfl, by simp [listed.chain.1]⟩ undisturbed
      | false =>
          cases completed
          exact sound

end Kept

theorem destroy_sound {after : Session} {ptr : Option Nat} (sound : session.thrown = [])
    (completed : session.destroy params ptr = some after) : after.thrown = [] := by
  obtain ⟨⟨⟨result, message⟩, pool⟩, _, same⟩ := Option.map_eq_some_iff.mp completed
  subst same
  cases result <;> simp [sound]

theorem step_sound (session : Session) (call : Call) (after : Session)
    (kept : Kept params base session ∧ session.thrown = []) (undisturbed : Undisturbed session call)
    (stepped : session.step params call = some after) : after.thrown = [] := by
  obtain ⟨kept, sound⟩ := kept
  cases call with
  | construct bytes throws =>
      obtain ⟨⟨result, next⟩, completed, same⟩ := Option.map_eq_some_iff.mp stepped
      cases same
      exact kept.construct_sound sound undisturbed completed
  | acquire bytes throws =>
      obtain ⟨⟨result, next⟩, completed, same⟩ := Option.map_eq_some_iff.mp stepped
      have threw := kept.construct_sound sound undisturbed completed
      subst same
      cases result <;> exact threw
  | destroy ptr => exact destroy_sound sound stepped
  | dropHandle ptr =>
      rw [Session.step] at stepped
      split at stepped
      next =>
        obtain ⟨next, completed, same⟩ := Option.map_eq_some_iff.mp stepped
        have threw := destroy_sound sound completed
        subst same
        exact threw
      next => cases stepped
  | reset =>
      cases stepped
      rfl
  | write ptr offset byte =>
      rw [Session.step] at stepped
      split at stepped
      next =>
        cases stepped
        exact sound
      next => cases stepped

/-- While no constructor throws in a free slot the flags are exact, and the next call of `construct` is atomic exactly
when its constructor does not throw in a free slot either. -/
theorem construct_atomic (params : Params) (base : Nat) (room : Room params base) (memory : Nat → UInt8)
    (calls : List Call) (session : Session)
    (undisturbed : Meets (Session.step params) Undisturbed (Session.start params base memory) calls)
    (completed : run (Session.step params) (Session.start params base memory) calls = some session) :
    Exact params session ∧ ∀ bytes throws,
      Atomic params session bytes throws ↔ ¬ (throws = true ∧ session.pool.freelist ≠ none) := by
  have reached := run_invariant_meeting (fun session => Kept params base session ∧ session.thrown = [])
    (fun session call after kept met stepped =>
      ⟨Kept.step room session call after kept.1 stepped, step_sound session call after kept met stepped⟩)
    ⟨start_kept room memory, rfl⟩ undisturbed completed
  exact ⟨reached.1.exact room reached.2, reached.1.atomic_iff⟩

/-- One entity is constructed. -/
theorem construct_atomic_entity : Exact entities oneEntity ∧ ∀ bytes throws,
    Atomic entities oneEntity bytes throws ↔ ¬ (throws = true ∧ oneEntity.pool.freelist ≠ none) :=
  construct_atomic entities 4096 entities_room _ [.construct (fun _ => 0) false] oneEntity
    ⟨by simp [Undisturbed], fun _ _ => trivial⟩ oneEntity_reached

/-- The session after the first constructor throws. -/
def thrownEntity : Session :=
  { entityPool with pool := taken entities entityPool.pool 0 fun _ => 0, thrown := [4096] }

/-- The slot is lost, and the reset runs the destructor where there is no object. -/
theorem construct_throws :
    run (Session.step entities) entityPool [.construct (fun _ => 0) true] = some thrownEntity ∧
      thrownEntity.live = [] ∧ thrownEntity.pool.inUse 0 = true ∧
      4096 ∈ (reset entities thrownEntity.pool).destroyed ∧
      ¬ Atomic entities entityPool (fun _ => 0) true ∧ ¬ Exact entities thrownEntity := by
  have first : entityPool.pool.freelist = some 4096 := by
    rw [entityPool_listed.chain.1, entityPool_placed]
    rfl
  have used : thrownEntity.pool.inUse 0 = true := inUse_taken
  refine ⟨?_, rfl, used, ?_, fun atomic => ?_, fun exact => ?_⟩
  · rw [run_cons_iff]
    refine ⟨thrownEntity, ?_, run_nil⟩
    rw [Session.step, Session.construct, entityPool_listed.construct, first]
    rfl
  · have place : thrownEntity.pool.pool = 4096 := by simp only [thrownEntity, taken, entityPool_placed]
    rw [(reset_listed (place.symm ▸ entities_room)).2.2.1, List.mem_append, place]
    exact .inr (List.mem_map.mpr ⟨0, List.mem_filter.mpr ⟨List.mem_range.mpr (by decide), used⟩, rfl⟩)
  · have flags := congrFun (atomic _ entityPool_listed.construct).2 0
    have idle := ((entityPool_listed.free 0).mp List.mem_cons_self).2
    rw [idle] at flags
    cases inUse_taken.symm.trans flags
  · cases (exact.flags 0 (by decide)).mp used

end HundredDays.ObjectPool
