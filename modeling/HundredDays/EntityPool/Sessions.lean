import HundredDays.Data.Links
import HundredDays.EntityPool.Model
import HundredDays.Semantics.Run

namespace HundredDays.EntityPool

open HundredDays.Data HundredDays.Memory HundredDays.Semantics

/-! A slot's link is meaningful while the slot is free, and an owner's bytes are in a
slot in use, so that the list of free slots survives every call. -/

variable {pool after : Pool} {base slot other : Nat} {slots : List Nat}

/-- The array lies in the address space and is not at null. -/
def Room (objectPool : Nat) : Prop :=
  0 < objectPool ∧ objectPool + numAlloction * sizeofPoolNode < 2 ^ 64

theorem nodeAt_inj : nodeAt base slot = nodeAt base other ↔ slot = other := by
  simp only [nodeAt, sizeofPoolNode]
  omega

theorem nodeAt_room (room : Room base) (inside : slot < numAlloction) :
    0 < nodeAt base slot ∧ nodeAt base slot < 2 ^ 64 := by
  simp only [Room, nodeAt, sizeofPoolNode] at room ⊢
  omega

/-! ### Reading what was written -/

namespace Pool

@[simp] theorem objectPool_setNext (node : Nat) (link : Option Nat) :
    (pool.setNext node link).objectPool = pool.objectPool := rfl

@[simp] theorem objectPool_setInUse (node : Nat) (value : Bool) :
    (pool.setInUse node value).objectPool = pool.objectPool := rfl

@[simp] theorem next_freelist (freelist : Option Nat) : ({ pool with freelist } : Pool).next = pool.next := rfl

@[simp] theorem inUse_freelist (freelist : Option Nat) : ({ pool with freelist } : Pool).inUse = pool.inUse := rfl

theorem next_setNext {link : Option Nat} (room : Room base)
    (inside : ∀ target, link = some target → ∃ i < numAlloction, target = nodeAt base i) :
    (pool.setNext (nodeAt base slot) link).next (nodeAt base slot) = link := by
  apply loadPointer_storePointer
  intro target same
  obtain ⟨i, bound, rfl⟩ := inside target same
  exact nodeAt_room room bound

theorem next_setNext_other (link : Option Nat) (differs : slot ≠ other) :
    (pool.setNext (nodeAt base slot) link).next (nodeAt base other) = pool.next (nodeAt base other) := by
  apply loadPointer_storePointer_other
  simp only [nodeAt, sizeofPoolNode]
  omega

@[simp] theorem next_setInUse (value : Bool) :
    (pool.setInUse (nodeAt base slot) value).next (nodeAt base other) = pool.next (nodeAt base other) := by
  apply loadPointer_update
  simp only [nodeAt, sizeofPoolNode, sizeofEntity]
  omega

@[simp] theorem inUse_setNext (link : Option Nat) :
    (pool.setNext (nodeAt base slot) link).inUse (nodeAt base other) = pool.inUse (nodeAt base other) := by
  have same : (pool.setNext (nodeAt base slot) link).memory (nodeAt base other + sizeofEntity) =
      pool.memory (nodeAt base other + sizeofEntity) := by
    apply storePointer_outside
    simp only [nodeAt, sizeofPoolNode, sizeofEntity]
    omega
  rw [inUse, same, inUse]

@[simp] theorem inUse_setInUse (node : Nat) (value : Bool) : (pool.setInUse node value).inUse node = value := by
  cases value <;> simp [inUse, setInUse]

theorem inUse_setInUse_other (value : Bool) (differs : slot ≠ other) :
    (pool.setInUse (nodeAt base slot) value).inUse (nodeAt base other) = pool.inUse (nodeAt base other) := by
  have apart : nodeAt base other + sizeofEntity ≠ nodeAt base slot + sizeofEntity := by
    simp only [nodeAt, sizeofPoolNode]
    omega
  simp [inUse, setInUse, Function.update_of_ne apart]

end Pool

/-! ### The free list -/

/-- The list visits the slots that are not in use, each once, and ends. -/
structure Listed (pool : Pool) (slots : List Nat) : Prop where
  chain : Chain pool.next pool.freelist (slots.map (nodeAt pool.objectPool))
  once : slots.Nodup
  free : ∀ slot, slot ∈ slots ↔ slot < numAlloction ∧ pool.inUse (nodeAt pool.objectPool slot) = false

/-- What the rounds of the loop so far have done. -/
structure Linked (pool : Pool) (base count : Nat) : Prop where
  placed : pool.objectPool = base
  next : ∀ i < count, pool.next (nodeAt base i) = some (nodeAt base (i + 1))
  free : ∀ i < count, pool.inUse (nodeAt base i) = false

/-- One more slot set free, with its link. -/
theorem Linked.link {count : Nat} {link : Option Nat} (linked : Linked pool base count) (room : Room base)
    (inside : ∀ target, link = some target → ∃ i < numAlloction, target = nodeAt base i) :
    Linked (linkSlot pool count link) base count ∧ (linkSlot pool count link).next (nodeAt base count) = link ∧
      (linkSlot pool count link).inUse (nodeAt base count) = false := by
  obtain ⟨rfl, next, free⟩ := linked
  refine ⟨⟨rfl, ?_, ?_⟩, ?_, Pool.inUse_setInUse ..⟩
  · intro i earlier
    rw [linkSlot, Pool.objectPool_setNext, Pool.next_setInUse, Pool.next_setNext_other link (by omega)]
    exact next i earlier
  · intro i earlier
    rw [linkSlot, Pool.objectPool_setNext, Pool.inUse_setInUse_other false (by omega), Pool.inUse_setNext]
    exact free i earlier
  · rw [linkSlot, Pool.objectPool_setNext, Pool.next_setInUse]
    exact Pool.next_setNext room inside

theorem linkSlots_linked (room : Room pool.objectPool) {count : Nat} (bound : count < numAlloction) :
    Linked (linkSlots pool count) pool.objectPool count := by
  induction count with
  | zero => exact ⟨rfl, by omega, by omega⟩
  | succ count ih =>
      have before := ih (by omega)
      have inside : ∀ target, some (nodeAt pool.objectPool (count + 1)) = some target →
          ∃ i < numAlloction, target = nodeAt pool.objectPool i := by
        rintro target ⟨⟩
        exact ⟨count + 1, bound, rfl⟩
      obtain ⟨after, linked, free⟩ := before.link room inside
      have step : linkSlots pool (count + 1) =
          linkSlot (linkSlots pool count) count (some (nodeAt pool.objectPool (count + 1))) := by
        rw [← before.placed, linkSlots, List.range_succ, List.foldl_append]
        rfl
      rw [step]
      refine ⟨after.placed, ?_, ?_⟩
      · intro i inside
        rcases Nat.lt_succ_iff_lt_or_eq.mp inside with earlier | rfl
        · exact after.next i earlier
        · exact linked
      · intro i inside
        rcases Nat.lt_succ_iff_lt_or_eq.mp inside with earlier | rfl
        · exact after.free i earlier
        · exact free

theorem Linked.listed {count : Nat} (linked : Linked pool base count) (whole : count + 1 = numAlloction)
    (last : pool.next (nodeAt base count) = none) (free : pool.inUse (nodeAt base count) = false) :
    Listed { pool with freelist := some (nodeAt base 0) } (List.range numAlloction) := by
  have visits := chain_of_consecutive linked.next last (Nat.zero_le count)
  rw [Nat.sub_zero, whole, ← List.range_eq_range', ← linked.placed] at visits
  refine ⟨?_, List.nodup_range, fun slot => ?_⟩
  · rw [Pool.next_freelist, ← linked.placed]
    exact visits
  · rw [List.mem_range, Pool.inUse_freelist, linked.placed, ← whole]
    refine ⟨fun inside => ⟨inside, ?_⟩, And.left⟩
    rcases Nat.lt_succ_iff_lt_or_eq.mp inside with earlier | rfl
    · exact linked.free slot earlier
    · exact free

theorem linkAll_listed (room : Room pool.objectPool) :
    (linkAll pool).objectPool = pool.objectPool ∧ Listed (linkAll pool) (List.range numAlloction) := by
  have size := numAlloction_eq
  have rounds := linkSlots_linked room (by omega : numAlloction - 1 < numAlloction)
  rw [linkAll]
  generalize linkSlots pool (numAlloction - 1) = middle at rounds ⊢
  have bounded : ∀ target, none = some target → ∃ i < numAlloction, target = nodeAt pool.objectPool i := by simp
  obtain ⟨after, last, free⟩ := rounds.link room bounded
  generalize linkSlot middle (numAlloction - 1) none = linked at after last free ⊢
  have listed := after.listed (by omega) last free
  rw [← after.placed] at listed ⊢
  exact ⟨rfl, listed⟩

/-! ### One call -/

/-- The pool after its first free slot was handed out. -/
def taken (pool : Pool) (slot : Nat) : Pool :=
  ({ pool with freelist := pool.next (nodeAt pool.objectPool slot) }).setInUse (nodeAt pool.objectPool slot) true

/-- The pool after a slot was taken back. -/
def released (pool : Pool) (slot : Nat) : Pool :=
  { (pool.setInUse (nodeAt pool.objectPool slot) false).setNext (nodeAt pool.objectPool slot) pool.freelist with
    freelist := some (nodeAt pool.objectPool slot) }

theorem Listed.alloc (listed : Listed pool (slot :: slots)) :
    entityPoolAlloc pool = (some (nodeAt pool.objectPool slot), taken pool slot) := by
  rw [entityPoolAlloc, listed.chain.1]
  rfl

theorem Listed.exhausted (listed : Listed pool []) : entityPoolAlloc pool = (none, pool) := by
  rw [entityPoolAlloc, listed.chain]

theorem Listed.taken (listed : Listed pool (slot :: slots)) : Listed (taken pool slot) slots := by
  obtain ⟨fresh, distinct⟩ := List.nodup_cons.mp listed.once
  refine ⟨?_, distinct, fun other => ?_⟩
  · apply listed.chain.2.congr
    intro node member
    obtain ⟨other, _, rfl⟩ := List.mem_map.mp member
    exact Pool.next_setInUse true
  · by_cases same : slot = other
    · subst same
      simp [EntityPool.taken, fresh]
    · have before := listed.free other
      rw [List.mem_cons, or_iff_right (Ne.symm same)] at before
      rw [before, EntityPool.taken, Pool.objectPool_setInUse, Pool.inUse_setInUse_other true same]
      rfl

theorem Listed.released (listed : Listed pool slots) (room : Room pool.objectPool) (inside : slot < numAlloction)
    (used : pool.inUse (nodeAt pool.objectPool slot) = true) : Listed (released pool slot) (slot :: slots) := by
  have fresh : slot ∉ slots := by
    intro member
    rw [(listed.free slot).mp member |>.2] at used
    cases used
  refine ⟨⟨rfl, ?_⟩, List.nodup_cons.mpr ⟨fresh, listed.once⟩, fun other => ?_⟩
  · have linked : (EntityPool.released pool slot).next (nodeAt pool.objectPool slot) = pool.freelist := by
      apply Pool.next_setNext room
      intro target first
      cases slots with
      | nil => cases first.symm.trans listed.chain
      | cons head rest =>
          cases first.symm.trans listed.chain.1
          exact ⟨head, ((listed.free head).mp List.mem_cons_self).1, rfl⟩
    change Chain _ ((EntityPool.released pool slot).next (nodeAt pool.objectPool slot)) _
    rw [linked]
    apply listed.chain.congr
    intro node member
    obtain ⟨other, listedOther, rfl⟩ := List.mem_map.mp member
    have differs : slot ≠ other := fun same => fresh (same ▸ listedOther)
    exact (Pool.next_setNext_other _ differs).trans (Pool.next_setInUse false)
  · have flag : (EntityPool.released pool slot).inUse (nodeAt pool.objectPool other) =
        (pool.setInUse (nodeAt pool.objectPool slot) false).inUse (nodeAt pool.objectPool other) :=
      Pool.inUse_setNext _
    change _ ↔ _ ∧ (EntityPool.released pool slot).inUse (nodeAt pool.objectPool other) = false
    rw [flag, List.mem_cons]
    by_cases same : slot = other
    · subst same
      simp [inside]
    · rw [or_iff_right (Ne.symm same), Pool.inUse_setInUse_other false same]
      exact listed.free other

theorem entityFree_slot (room : Room pool.objectPool) (inside : slot < numAlloction)
    (used : pool.inUse (nodeAt pool.objectPool slot) = true) :
    entityFree pool (some (nodeAt pool.objectPool slot)) = ((true, none), released pool slot) := by
  have size := numAlloction_eq
  have bounds : ¬ (nodeAt pool.objectPool slot < pool.objectPool ∨
      nodeAt pool.objectPool slot ≥ (pool.objectPool + numAlloction * sizeofPoolNode) % 2 ^ 64) := by
    rw [Nat.mod_eq_of_lt room.2]
    simp only [nodeAt, sizeofPoolNode]
    omega
  have index : (nodeAt pool.objectPool slot - pool.objectPool) / sizeofPoolNode % 2 ^ 32 = slot := by
    simp only [nodeAt, sizeofPoolNode]
    omega
  simp only [entityFree]
  rw [if_neg bounds, index, if_neg (by simp), if_neg (by simp [used])]
  rfl

/-- Every other pointer is refused. -/
theorem entityFree_other (room : Room pool.objectPool) {entity : Option Nat}
    (unused : ∀ slot < numAlloction, entity = some (nodeAt pool.objectPool slot) →
      pool.inUse (nodeAt pool.objectPool slot) = false) :
    (entityFree pool entity).1.1 = false ∧ (entityFree pool entity).2 = pool := by
  have size := numAlloction_eq
  cases entity with
  | none => exact ⟨rfl, rfl⟩
  | some p =>
      simp only [entityFree]
      rw [Nat.mod_eq_of_lt room.2]
      split_ifs with outside misaligned free
      · exact ⟨rfl, rfl⟩
      · exact ⟨rfl, rfl⟩
      · exact ⟨rfl, rfl⟩
      · have aligned := not_not.mp misaligned
        have inside : (p - pool.objectPool) / sizeofPoolNode % 2 ^ 32 < numAlloction := by
          simp only [sizeofPoolNode] at outside ⊢
          omega
        have idle := unused _ inside (by rw [aligned])
        exact absurd (by rw [idle]; rfl) free

/-- The bytes of an entity in use are no link and no flag. -/
theorem Listed.write (listed : Listed pool slots) {offset : Nat} (byte : UInt8) (inside : offset < sizeofEntity)
    (used : slot ∉ slots) :
    Listed { pool with memory := Function.update pool.memory (nodeAt pool.objectPool slot + offset) byte } slots := by
  refine ⟨?_, listed.once, fun other => ?_⟩
  · apply listed.chain.congr
    intro node member
    obtain ⟨other, listedOther, rfl⟩ := List.mem_map.mp member
    have differs : slot ≠ other := fun same => used (same ▸ listedOther)
    apply loadPointer_update
    simp only [nodeAt, sizeofPoolNode, sizeofEntity] at inside ⊢
    omega
  · rw [listed.free other]
    have apart : nodeAt pool.objectPool other + sizeofEntity ≠ nodeAt pool.objectPool slot + offset := by
      simp only [nodeAt, sizeofPoolNode, sizeofEntity] at inside ⊢
      omega
    simp [Pool.inUse, Function.update_of_ne apart]

/-! ### Whole sessions -/

/-- What every call keeps: the entities that are owned are those of the slots in use. -/
structure Kept (base : Nat) (session : Session) : Prop where
  placed : session.pool.objectPool = base
  listed : ∃ slots, Listed session.pool slots
  owned : ∀ entity, entity ∈ session.owned ↔
    ∃ slot < numAlloction, entity = nodeAt base slot ∧ session.pool.inUse (nodeAt base slot) = true

theorem linkAll_kept (room : Room pool.objectPool) : Kept pool.objectPool { pool := linkAll pool, owned := [] } := by
  obtain ⟨placed, listed⟩ := linkAll_listed room
  refine ⟨placed, ⟨_, listed⟩, fun entity => ?_⟩
  simp only [List.not_mem_nil, false_iff]
  rintro ⟨slot, inside, _, used⟩
  have idle := ((listed.free slot).mp (List.mem_range.mpr inside)).2
  rw [placed, used] at idle
  cases idle

namespace Kept

variable {session : Session}

theorem alloc (kept : Kept base session) :
    Kept base { pool := (entityPoolAlloc session.pool).2,
                owned := (entityPoolAlloc session.pool).1.toList ++ session.owned } := by
  obtain ⟨rfl, ⟨slots, listed⟩, owned⟩ := kept
  cases slots with
  | nil =>
      rw [listed.exhausted]
      exact ⟨rfl, ⟨[], listed⟩, owned⟩
  | cons slot rest =>
      rw [listed.alloc]
      refine ⟨rfl, ⟨rest, listed.taken⟩, fun entity => ?_⟩
      have inside := ((listed.free slot).mp List.mem_cons_self).1
      simp only [Option.toList_some, List.singleton_append, List.mem_cons, owned]
      constructor
      · rintro (rfl | ⟨other, bound, rfl, used⟩)
        · exact ⟨slot, inside, rfl, Pool.inUse_setInUse ..⟩
        · have differs : slot ≠ other := by
            rintro rfl
            rw [((listed.free slot).mp List.mem_cons_self).2] at used
            cases used
          exact ⟨other, bound, rfl, (Pool.inUse_setInUse_other true differs).trans used⟩
      · rintro ⟨other, bound, rfl, used⟩
        by_cases same : slot = other
        · subst same
          exact .inl rfl
        · exact .inr ⟨other, bound, rfl, (Pool.inUse_setInUse_other true same).symm.trans used⟩

theorem free (kept : Kept base session) (room : Room base) (entity : Option Nat) :
    Kept base { pool := (entityFree session.pool entity).2,
                owned := if (entityFree session.pool entity).1.1 then
                  session.owned.filter (fun other => some other != entity) else session.owned } := by
  obtain ⟨rfl, ⟨slots, listed⟩, owned⟩ := kept
  by_cases here : ∃ slot < numAlloction, entity = some (nodeAt session.pool.objectPool slot) ∧
      session.pool.inUse (nodeAt session.pool.objectPool slot) = true
  · obtain ⟨slot, inside, rfl, used⟩ := here
    rw [entityFree_slot room inside used, if_pos rfl]
    refine ⟨rfl, ⟨_, listed.released room inside used⟩, fun entity => ?_⟩
    have flag : ∀ other, (released session.pool slot).inUse (nodeAt session.pool.objectPool other) =
        (session.pool.setInUse (nodeAt session.pool.objectPool slot) false).inUse (nodeAt session.pool.objectPool other) :=
      fun other => Pool.inUse_setNext _
    simp only [List.mem_filter, owned, flag, bne_iff_ne, ne_eq, Option.some.injEq]
    constructor
    · rintro ⟨⟨other, bound, rfl, usedOther⟩, differs⟩
      have apart : slot ≠ other := fun same => differs (same ▸ rfl)
      exact ⟨other, bound, rfl, (Pool.inUse_setInUse_other false apart).trans usedOther⟩
    · rintro ⟨other, bound, rfl, usedOther⟩
      have apart : slot ≠ other := by
        rintro rfl
        rw [Pool.inUse_setInUse] at usedOther
        cases usedOther
      exact ⟨⟨other, bound, rfl, (Pool.inUse_setInUse_other false apart).symm.trans usedOther⟩,
        fun same => apart (nodeAt_inj.mp same).symm⟩
  · have unused : ∀ slot < numAlloction, entity = some (nodeAt session.pool.objectPool slot) →
        session.pool.inUse (nodeAt session.pool.objectPool slot) = false :=
      fun slot inside same => Bool.eq_false_iff.mpr fun used => here ⟨slot, inside, same, used⟩
    obtain ⟨refused, unchanged⟩ := entityFree_other room unused
    rw [refused, unchanged]
    exact ⟨rfl, ⟨slots, listed⟩, owned⟩

theorem write (kept : Kept base session) {entity offset : Nat} (byte : UInt8) (member : entity ∈ session.owned)
    (inside : offset < sizeofEntity) :
    Kept base { session with
      pool := { session.pool with memory := Function.update session.pool.memory (entity + offset) byte } } := by
  obtain ⟨rfl, ⟨slots, listed⟩, owned⟩ := kept
  obtain ⟨slot, bound, rfl, used⟩ := (owned entity).mp member
  have outside : slot ∉ slots := by
    intro idle
    rw [((listed.free slot).mp idle).2] at used
    cases used
  refine ⟨rfl, ⟨slots, listed.write byte inside outside⟩, fun other => ?_⟩
  rw [owned other]
  have apart : ∀ slot', nodeAt session.pool.objectPool slot' + sizeofEntity ≠ nodeAt session.pool.objectPool slot + offset := by
    intro slot'
    simp only [nodeAt, sizeofPoolNode, sizeofEntity] at inside ⊢
    omega
  simp [Pool.inUse, Function.update_of_ne (apart _)]

theorem step (room : Room base) (session : Session) (call : Call) (after : Session) (kept : Kept base session)
    (stepped : session.step call = some after) : Kept base after := by
  cases call with
  | alloc =>
      cases stepped
      exact kept.alloc
  | free entity =>
      cases stepped
      exact kept.free room entity
  | reset =>
      cases stepped
      have fresh := @linkAll_kept session.pool (kept.placed ▸ room)
      rw [kept.placed] at fresh
      exact fresh
  | write entity offset byte =>
      simp only [Session.step] at stepped
      split_ifs at stepped with allowed
      cases stepped
      exact kept.write byte allowed.1 allowed.2

end Kept

/-- The free list and the flags agree, and the three operations do what they say. -/
structure Sound (session : Session) : Prop where
  listed : ∃ slots, Listed session.pool slots
  owned : ∀ entity, entity ∈ session.owned ↔ ∃ slot < numAlloction,
    entity = nodeAt session.pool.objectPool slot ∧ session.pool.inUse (nodeAt session.pool.objectPool slot) = true
  allocated : ∀ entity pool, entityPoolAlloc session.pool = (some entity, pool) →
    ∃ slot < numAlloction, entity = nodeAt session.pool.objectPool slot ∧
      session.pool.inUse (nodeAt session.pool.objectPool slot) = false
  exhausted : (entityPoolAlloc session.pool).1 = none → ∀ slot < numAlloction,
    session.pool.inUse (nodeAt session.pool.objectPool slot) = true
  freed : ∀ entity, (entityFree session.pool entity).1.1 = true ↔ ∃ slot < numAlloction,
    entity = some (nodeAt session.pool.objectPool slot) ∧
      session.pool.inUse (nodeAt session.pool.objectPool slot) = true
  refused : ∀ entity, (entityFree session.pool entity).1.1 = false → (entityFree session.pool entity).2 = session.pool

theorem Kept.sound {session : Session} (kept : Kept base session) (room : Room base) : Sound session := by
  obtain ⟨rfl, ⟨slots, listed⟩, owned⟩ := kept
  have other : ∀ entity, (¬ ∃ slot < numAlloction, entity = some (nodeAt session.pool.objectPool slot) ∧
      session.pool.inUse (nodeAt session.pool.objectPool slot) = true) →
      (entityFree session.pool entity).1.1 = false ∧ (entityFree session.pool entity).2 = session.pool :=
    fun entity unused => entityFree_other room
      fun slot inside same => Bool.eq_false_iff.mpr fun used => unused ⟨slot, inside, same, used⟩
  refine ⟨⟨slots, listed⟩, owned, ?_, ?_, ?_, ?_⟩
  · intro entity pool allocated
    cases slots with
    | nil => cases listed.exhausted.symm.trans allocated
    | cons slot rest =>
        cases listed.alloc.symm.trans allocated
        obtain ⟨inside, idle⟩ := (listed.free slot).mp List.mem_cons_self
        exact ⟨slot, inside, rfl, idle⟩
  · intro nothing slot inside
    cases slots with
    | nil =>
        by_contra idle
        exact List.not_mem_nil ((listed.free slot).mpr ⟨inside, Bool.eq_false_iff.mpr idle⟩)
    | cons first rest =>
        rw [listed.alloc] at nothing
        cases nothing
  · intro entity
    constructor
    · intro freed
      by_contra unused
      rw [(other entity unused).1] at freed
      cases freed
    · rintro ⟨slot, inside, rfl, used⟩
      rw [entityFree_slot room inside used]
  · intro entity refused
    apply (other entity _).2
    rintro ⟨slot, inside, rfl, used⟩
    rw [entityFree_slot room inside used] at refused
    cases refused

/-- Every state that is reached from the initialised pool is sound. -/
theorem sessions_sound (objectPool : Nat) (room : Room objectPool) (memory : Nat → UInt8) (calls : List Call)
    (after : Session) (completed : run Session.step (Session.start objectPool memory) calls = some after) :
    Sound after := by
  have initial : Kept objectPool (Session.start objectPool memory) :=
    @linkAll_kept { objectPool, freelist := none, memory } room
  exact (run_invariant (Kept objectPool) (Kept.step room) initial completed).sound room

/-- An interior pointer and a second free, with the array at address 4096. -/
theorem sessions_sound_refusals :
    ∃ after, run Session.step (Session.start 4096 fun _ => 0)
      [.alloc, .free (some 4104), .free (some 4096), .free (some 4096), .reset] = some after ∧ Sound after := by
  have room : Room 4096 := by
    rw [Room, numAlloction_eq]
    decide
  have total : ∀ session : Session, ∀ entity : Option Nat, ∃ after, session.step (.free entity) = some after :=
    fun _ _ => ⟨_, rfl⟩
  have allocates : ∀ session : Session, ∃ after, session.step .alloc = some after := fun _ => ⟨_, rfl⟩
  have resets : ∀ session : Session, ∃ after, session.step .reset = some after := fun _ => ⟨_, rfl⟩
  obtain ⟨s1, first⟩ := allocates (Session.start 4096 fun _ => 0)
  obtain ⟨s2, second⟩ := total s1 (some 4104)
  obtain ⟨s3, third⟩ := total s2 (some 4096)
  obtain ⟨s4, fourth⟩ := total s3 (some 4096)
  obtain ⟨s5, fifth⟩ := resets s4
  have completed : run Session.step (Session.start 4096 fun _ => 0)
      [.alloc, .free (some 4104), .free (some 4096), .free (some 4096), .reset] = some s5 :=
    run_cons_iff.mpr ⟨s1, first, run_cons_iff.mpr ⟨s2, second, run_cons_iff.mpr ⟨s3, third,
      run_cons_iff.mpr ⟨s4, fourth, run_cons_iff.mpr ⟨s5, fifth, run_nil⟩⟩⟩⟩⟩
  exact ⟨s5, completed, sessions_sound 4096 room (fun _ => 0) _ s5 completed⟩

end HundredDays.EntityPool
