import HundredDays.ObjectPool.Sessions

namespace HundredDays.ObjectPool

open HundredDays.Semantics

/-! `destroy` on any pointer.  It does not check that the pointer is to the start of a
slot, and it takes a slot whose constructor threw for a live object. -/

variable {params : Params} {base : Nat} {session : Session}

/-- The destructor has run once, and the slot is the next to be reused. -/
structure Accepted (params : Params) (pool after : ObjectPool) (p : Nat) : Prop where
  destroyed : after.destroyed = pool.destroyed ++ [p]
  reused : ∀ bytes, (construct params after bytes false).map Prod.fst = some (.object p)

/-- `destroy` as it is meant: the addresses of the live objects are accepted, and everything else leaves no trace. -/
structure DestroysLive (params : Params) (session : Session) (ptr : Option Nat) : Prop where
  listed : ∃ slots, Listed params session.pool slots
  outcome : ∃ result message after, destroy params session.pool ptr = some ((result, message), after) ∧
    (result = true ↔ ∃ p ∈ session.live, ptr = some p) ∧
    (result = true → ∀ p, ptr = some p → Accepted params session.pool after p) ∧
    (result = false → after = session.pool)

/-- A pointer into the array is to the start of a slot, and not of one whose constructor threw. -/
def MayDestroy (params : Params) (session : Session) (ptr : Option Nat) : Prop :=
  ∀ p, ptr = some p → ¬ Outside params session.pool.pool p →
    (∃ slot < params.capacity, p = nodeAt params session.pool.pool slot) ∧ p ∉ session.thrown

theorem accepted_released {pool : ObjectPool} {slots : List Nat} {slot : Nat} (listed : Listed params pool slots)
    (room : Room params pool.pool) (inside : slot < params.capacity) (used : pool.inUse slot = true) :
    Accepted params pool (released params pool slot) (nodeAt params pool.pool slot) := by
  refine ⟨rfl, fun bytes => ?_⟩
  rw [(listed.released room inside used).construct]
  rfl

namespace Kept

theorem destroys_outside (kept : Kept params base session) (room : Room params base) {p : Nat}
    (outside : Outside params session.pool.pool p) : DestroysLive params session (some p) := by
  have placed := kept.placed
  subst placed
  refine ⟨kept.listed, false, _, _, destroy_outside room outside, ⟨by simp, ?_⟩, by simp, fun _ => rfl⟩
  intro live
  obtain ⟨other, member, same⟩ := live
  cases same
  obtain ⟨slot, inside, here, _⟩ := (kept.held p).mp (.inl member)
  exact absurd (here ▸ outside) (nodeAt_inside room inside)

theorem destroys_slot (kept : Kept params base session) (room : Room params base) {slot : Nat}
    (inside : slot < params.capacity) (sound : nodeAt params base slot ∉ session.thrown) :
    DestroysLive params session (some (nodeAt params base slot)) := by
  obtain ⟨slots, listed⟩ := kept.listed
  have placed := kept.placed
  subst placed
  have found := destroy_slot room inside
  have held := kept.held (nodeAt params session.pool.pool slot)
  rw [or_iff_left sound] at held
  refine ⟨kept.listed, ?_⟩
  cases used : session.pool.inUse slot with
  | true =>
      rw [used] at found
      have live := held.mpr ⟨slot, inside, rfl, used⟩
      refine ⟨true, _, _, found, ⟨fun _ => ⟨_, live, rfl⟩, fun _ => rfl⟩, fun _ p same => ?_, by simp⟩
      cases same
      exact accepted_released listed room inside used
  | false =>
      rw [used] at found
      refine ⟨false, _, _, found, ⟨by simp, ?_⟩, by simp, fun _ => rfl⟩
      intro live
      obtain ⟨p, member, same⟩ := live
      cases same
      obtain ⟨other, _, here, usedOther⟩ := held.mp member
      cases nodeAt_inj.mp here
      exact absurd usedOther (by simp [used])

theorem mayDestroy (kept : Kept params base session) (room : Room params base) {ptr : Option Nat}
    (destroys : DestroysLive params session ptr) : MayDestroy params session ptr := by
  have placed := kept.placed
  subst placed
  intro p same inside
  subst same
  obtain ⟨result, message, after, completed, accepts, _⟩ := destroys.outcome
  have aligned : ∃ slot < params.capacity, p = nodeAt params session.pool.pool slot := by
    by_contra misaligned
    rw [destroy_misaligned room inside fun slot bound here => misaligned ⟨slot, bound, here⟩] at completed
    cases completed
  refine ⟨aligned, fun threw => ?_⟩
  obtain ⟨slot, bound, here, used⟩ := (kept.held p).mp (.inr threw)
  rw [here, destroy_slot room bound, if_pos used] at completed
  cases completed
  obtain ⟨other, member, same⟩ := accepts.mp rfl
  cases same
  exact kept.apart p member threw

end Kept

/-- In every state that is reached, `destroy` does what it is meant to do on exactly these pointers. -/
theorem destroy_exact_iff (params : Params) (base : Nat) (room : Room params base) (memory : Nat → UInt8)
    (calls : List Call) (session : Session)
    (completed : run (Session.step params) (Session.start params base memory) calls = some session)
    (ptr : Option Nat) : DestroysLive params session ptr ↔ MayDestroy params session ptr := by
  have kept := run_kept room completed
  constructor
  · exact kept.mayDestroy room
  · intro allowed
    cases ptr with
    | none =>
        exact ⟨kept.listed, false, none, session.pool, rfl, ⟨by simp, by simp⟩, by simp, fun _ => rfl⟩
    | some p =>
        by_cases outside : Outside params session.pool.pool p
        · exact kept.destroys_outside room outside
        · obtain ⟨⟨slot, inside, here⟩, sound⟩ := allowed p rfl outside
          rw [kept.placed] at here
          subst here
          exact kept.destroys_slot room inside sound

/-- The pool of entities, whose destructor leaves the bytes. -/
def entities : Params :=
  { capacity := 1028
    sizeofT := 40
    sizeofNode := 40
    destructor := fun memory _ => memory
    anySlot := by decide
    storage := by decide
    link := by decide }

def entityPool : Session := Session.start entities 4096 fun _ => 0

theorem entities_room : Room entities 4096 := by
  rw [Room]
  decide

theorem entityPool_listed : Listed entities entityPool.pool (0 :: List.range' 1 1027) := by
  have listed := (@linkAll_listed entities
    { pool := 4096, freelist := none, inUse := fun _ => false, memory := fun _ => 0, destroyed := [] }
    entities_room fun _ _ => rfl).2.2.2
  rw [List.range_eq_range', entities, List.range'_succ] at listed
  exact listed

theorem entityPool_placed : entityPool.pool.pool = 4096 := (start_kept entities_room fun _ => 0).placed

/-- The session after the first entity is constructed. -/
def oneEntity : Session :=
  { entityPool with pool := taken entities entityPool.pool 0 fun _ => 0, live := [4096] }

theorem oneEntity_reached :
    run (Session.step entities) entityPool [.construct (fun _ => 0) false] = some oneEntity := by
  rw [run_cons_iff]
  refine ⟨oneEntity, ?_, run_nil⟩
  rw [Session.step, Session.construct, entityPool_listed.construct, entityPool_placed]
  rfl

/-- The first entity, and a pointer behind the array. -/
theorem destroy_exact_iff_entities :
    (DestroysLive entities oneEntity (some 4096) ↔ MayDestroy entities oneEntity (some 4096)) ∧
      (DestroysLive entities oneEntity (some 90000) ↔ MayDestroy entities oneEntity (some 90000)) :=
  ⟨destroy_exact_iff entities 4096 entities_room _ _ oneEntity oneEntity_reached (some 4096),
    destroy_exact_iff entities 4096 entities_room _ _ oneEntity oneEntity_reached (some 90000)⟩

/-- A pointer to the second word of the first entity is undefined and not refused. -/
theorem destroy_middle : destroy entities oneEntity.pool (some 4104) = none ∧
    ¬ DestroysLive entities oneEntity (some 4104) := by
  have place : oneEntity.pool.pool = 4096 := by simp only [oneEntity, taken, entityPool_placed]
  have undefined : destroy entities oneEntity.pool (some 4104) = none := by
    apply destroy_misaligned
    · rw [place]
      exact entities_room
    · rw [place, Outside, entities]
      decide
    · rw [place]
      intro slot _ here
      simp only [nodeAt, entities] at here
      omega
  refine ⟨undefined, fun destroys => ?_⟩
  obtain ⟨result, message, after, completed, _⟩ := destroys.outcome
  cases undefined.symm.trans completed

end HundredDays.ObjectPool
