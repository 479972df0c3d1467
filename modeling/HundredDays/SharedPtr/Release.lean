import HundredDays.SharedPtr.Ownership

namespace HundredDays.SharedPtr

open HundredDays.Data

/-! Releasing a handle, with all that is deleted because of it.

An object survives a release when its control block is closing already, or when it is kept
by handles that survive: variables, and fields of objects that are kept.
-/

variable {state middle after : State} {holders left rest : Finset Handle} {closing : Finset Nat}
  {handle : Handle} {pointer object depth : Nat} {loose : Option Handle} {kept safe : Nat → Prop}

def Supported (state : State) (holders : Finset Handle) (kept : Nat → Prop) : Prop :=
  ∀ object, kept object → ∃ pointer, state.Owns pointer object ∧ ∃ handle ∈ holders,
    state.ctrl handle = some pointer ∧ ∀ other index, handle = .field other index → kept other

def Safe (state : State) (closing : Finset Nat) (kept : Nat → Prop) (object : Nat) : Prop :=
  kept object ∨ ∃ pointer ∈ closing, state.Owns pointer object

/-- What a release leaves of the handles and the objects. -/
structure Shrunk (state after : State) (holders left : Finset Handle) (safe : Nat → Prop) : Prop where
  subset : left ⊆ holders
  fields : ∀ handle ∈ holders, handle ∉ left → ∃ object index, handle = .field object index ∧ ¬ safe object
  objects : ∀ object, safe object → after.objects object = state.objects object
  blocks : ∀ pointer block, after.ctrls pointer = some block →
    ∃ before, state.ctrls pointer = some before ∧ before.ptr = block.ptr
  ctrl : after.ctrl = state.ctrl
  scope : after.scope = state.scope
  nextObject : after.nextObject = state.nextObject
  nextCtrl : after.nextCtrl = state.nextCtrl

namespace Shrunk

theorem trans (first : Shrunk state middle holders left safe) (second : Shrunk middle after left rest safe) :
    Shrunk state after holders rest safe := by
  refine ⟨second.subset.trans first.subset, ?_, ?_, ?_, second.ctrl.trans first.ctrl, second.scope.trans first.scope,
    second.nextObject.trans first.nextObject, second.nextCtrl.trans first.nextCtrl⟩
  · intro handle member gone
    by_cases between : handle ∈ left
    · exact second.fields handle between gone
    · exact first.fields handle member between
  · intro object survives
    exact (second.objects object survives).trans (first.objects object survives)
  · intro pointer block found
    obtain ⟨between, there, same⟩ := second.blocks pointer block found
    obtain ⟨before, here, equal⟩ := first.blocks pointer between there
    exact ⟨before, here, equal.trans same⟩

theorem mono {other : Nat → Prop} (shrunk : Shrunk state after holders left safe)
    (fewer : ∀ object, other object → safe object) : Shrunk state after holders left other := by
  refine { shrunk with fields := ?_, objects := fun object survives => shrunk.objects object (fewer object survives) }
  intro handle member gone
  obtain ⟨object, index, same, unsafe'⟩ := shrunk.fields handle member gone
  exact ⟨object, index, same, fun survives => unsafe' (fewer object survives)⟩

/-- A field of an object that is not safe goes. -/
theorem erase {index : Nat} (lost : ¬ safe object) :
    Shrunk state state holders (holders.erase (.field object index)) safe := by
  refine ⟨Finset.erase_subset _ _, ?_, fun _ _ => rfl, fun _ block found => ⟨block, found, rfl⟩, rfl, rfl, rfl, rfl⟩
  intro handle member gone
  have same : handle = .field object index := by
    apply Classical.byContradiction
    intro differs
    exact gone (Finset.mem_erase.mpr ⟨differs, member⟩)
  exact ⟨object, index, same, lost⟩

theorem owns (shrunk : Shrunk state after holders left safe) (owned : after.Owns pointer object) :
    state.Owns pointer object := by
  obtain ⟨block, found, ptr⟩ := owned
  obtain ⟨before, there, same⟩ := shrunk.blocks pointer block found
  exact ⟨before, there, same.trans ptr⟩

/-- A control block that is closing stays that of its object. -/
theorem owns_closing (shrunk : Shrunk state after holders left safe) (counted : Counted after left closing)
    (listed : pointer ∈ closing) (owns : state.Owns pointer object) : after.Owns pointer object := by
  obtain ⟨block, found, _⟩ := counted.closed pointer listed
  obtain ⟨before, there, same⟩ := shrunk.blocks pointer block found
  obtain ⟨own, foundOwn, ptr⟩ := owns
  cases there.symm.trans foundOwn
  exact ⟨block, found, same.symm.trans ptr⟩

theorem present (shrunk : Shrunk state after holders left safe) (there : state.Present handle)
    (survives : ∀ object index, handle = .field object index → safe object) : after.Present handle := by
  cases handle with
  | var name =>
      change name ∈ after.scope
      rw [shrunk.scope]
      exact there
  | field object index =>
      obtain ⟨count, same, inside⟩ := there
      exact ⟨count, (shrunk.objects object (survives object index rfl)).trans same, inside⟩

end Shrunk

/-- What is kept is not closing. -/
theorem Supported.not_closing (supported : Supported state holders kept) (counted : Counted state holders closing)
    (owned : Owned state holders closing loose) (listed : pointer ∈ closing) (owns : state.Owns pointer object) :
    ¬ kept object := by
  intro keeps
  obtain ⟨position, owner, handle, member, refers, _⟩ := supported object keeps
  cases owned.once pointer position object owns owner
  exact counted.closing_unheld listed member refers

theorem Supported.erase {index : Nat} (supported : Supported state holders kept) (lost : ¬ kept object) :
    Supported state (holders.erase (.field object index)) kept := by
  intro other keeps
  obtain ⟨position, owner, handle, member, refers, within⟩ := supported other keeps
  refine ⟨position, owner, handle, Finset.mem_erase.mpr ⟨?_, member⟩, refers, within⟩
  intro same
  exact lost (within object index same)

/-- What is kept before is kept after. -/
theorem Supported.shrunk {others : Finset Handle} (supported : Supported state holders kept)
    (shrunk : Shrunk state after holders left safe)
    (covered : ∀ object, kept object → safe object) (before : Owned state others closing loose)
    (owned : Owned after left closing loose) : Supported after left kept := by
  intro object keeps
  obtain ⟨pointer, owns, handle, member, refers, within⟩ := supported object keeps
  obtain ⟨fields, there⟩ := before.object pointer object owns
  have remains : handle ∈ left := by
    apply Classical.byContradiction
    intro gone
    obtain ⟨other, index, same, lost⟩ := shrunk.fields handle member gone
    exact lost (covered other (within other index same))
  obtain ⟨position, owner⟩ := owned.owner object fields ((shrunk.objects object (covered object keeps)).trans there)
  cases before.once pointer position object owns (shrunk.owns owner)
  exact ⟨pointer, owner, handle, remains, (congrFun shrunk.ctrl handle).trans refers, within⟩

/-- The released handle is the loose one, in an object that is kept, or in one that is being deleted. -/
def Anchored (state : State) (closing : Finset Nat) (loose : Option Handle) (kept : Nat → Prop) (handle : Handle) : Prop :=
  ∀ object index, handle = .field object index →
    (loose = some handle ∧ kept object) ∨ ∃ pointer ∈ closing, state.Owns pointer object

structure Settled (state after : State) (holders left : Finset Handle) (closing : Finset Nat)
    (loose : Option Handle) (safe : Nat → Prop) : Prop where
  counted : Counted after left closing
  owned : Owned after left closing loose
  shrunk : Shrunk state after holders left safe

/-- A release of that depth comes to its end and accesses nothing that is not there. -/
def Releases (loose : Option Handle) (kept : Nat → Prop) (depth : Nat) : Prop :=
  ∀ state holders closing handle, Counted state holders closing → Owned state holders closing loose →
    handle ∈ holders → Supported state (holders.erase handle) kept → Anchored state closing loose kept handle →
    state.nextCtrl < depth + closing.card →
    ∃ after left, release depth state handle = .ok after ∧
      Settled state after (holders.erase handle) left closing loose (Safe state closing kept)

theorem Counted.closing_card (counted : Counted state holders closing) : closing.card ≤ state.nextCtrl := by
  have within : closing ⊆ Finset.range state.nextCtrl := by
    intro pointer listed
    obtain ⟨block, found, _⟩ := counted.closed pointer listed
    exact Finset.mem_range.mpr (counted.bounded pointer block found)
  exact (Finset.card_le_card within).trans_eq (Finset.card_range _)

/-- The fields of an object that is being deleted. -/
theorem destroyFields_settled (releases : Releases loose kept depth) (listed : pointer ∈ closing)
    (lost : ¬ safe object) (count : Nat) (counted : Counted state holders closing)
    (owned : Owned state holders closing loose) (owns : state.Owns pointer object)
    (covered : ∀ other, safe other → Safe state closing kept other)
    (before : ∀ index < count, .field object index ∈ holders) (beyond : ∀ index, count ≤ index → .field object index ∉ holders)
    (supported : Supported state holders kept) (deep : state.nextCtrl < depth + closing.card) :
    ∃ after left, destroyFields (release depth) object count state = .ok after ∧
      Settled state after holders left closing loose safe ∧ (∀ index, .field object index ∉ left) ∧
      after.objects object = state.objects object := by
  induction count generalizing state holders with
  | zero =>
      refine ⟨state, holders, rfl, ⟨counted, owned, ?_⟩, fun index => beyond index (Nat.zero_le _), rfl⟩
      exact ⟨fun _ member => member, fun _ member gone => absurd member gone, fun _ _ => rfl,
        fun _ block found => ⟨block, found, rfl⟩, rfl, rfl, rfl, rfl⟩
  | succ count ih =>
      have member := before count (Nat.lt_succ_self count)
      have closes : ¬ kept object := supported.not_closing counted owned listed owns
      have safely : Safe state closing kept object := .inr ⟨pointer, listed, owns⟩
      have remaining : Supported state (holders.erase (.field object count)) kept := supported.erase closes
      obtain ⟨next, left, released, settled⟩ := releases state holders closing (.field object count) counted owned member
        remaining (fun other index same => .inr (by cases same; exact ⟨pointer, listed, owns⟩)) deep
      have shrunk := settled.shrunk
      have stays : ∀ index < count, .field object index ∈ left := by
        intro index inside
        apply Classical.byContradiction
        intro gone
        have there : Handle.field object index ∈ holders.erase (.field object count) := by
          refine Finset.mem_erase.mpr ⟨?_, before index (Nat.lt_succ_of_lt inside)⟩
          rintro ⟨⟩
          exact Nat.lt_irrefl _ inside
        obtain ⟨other, position, same, unsafe'⟩ := shrunk.fields _ there gone
        cases same
        exact unsafe' safely
      have away : ∀ index, count ≤ index → .field object index ∉ left := by
        intro index outside listedLeft
        obtain ⟨differs, listedBefore⟩ := Finset.mem_erase.mp (shrunk.subset listedLeft)
        rcases Nat.eq_or_lt_of_le outside with rfl | later
        · exact differs rfl
        · exact beyond index later listedBefore
      have coveredNext : ∀ other, safe other → Safe next closing kept other := by
        intro other survives
        rcases covered other survives with keeps | ⟨position, closes, owner⟩
        · exact .inl keeps
        · exact .inr ⟨position, closes, shrunk.owns_closing settled.counted closes owner⟩
      obtain ⟨after, rest, destroyed, final, none, same⟩ := ih settled.counted settled.owned
        (shrunk.owns_closing settled.counted listed owns) coveredNext stays away
        (remaining.shrunk shrunk (fun _ keeps => .inl keeps) owned settled.owned) (shrunk.nextCtrl.symm ▸ deep)
      refine ⟨after, rest, ?_, ⟨final.counted, final.owned, ?_⟩, none, same.trans (shrunk.objects object safely)⟩
      · rw [destroyFields, released]
        exact destroyed
      · exact ((Shrunk.erase lost).trans (shrunk.mono covered)).trans final.shrunk

theorem member_eq (present : state.Present handle) : state.member handle = .ok (state.ctrl handle) := if_pos present

theorem release_eq {next : State} {block : ControlBlock} (member : state.member handle = .ok (some pointer))
    (counted : count state pointer (-1) = .ok next) (found : next.ctrls pointer = some block) :
    release (depth + 1) state handle =
      if block.refcount = 0 then
        deleteObject (release depth) next block.ptr >>= fun after => after.member handle >>= deleteCtrl after
      else .ok next := by
  rw [release, member]
  simp only [bind, Except.bind, counted, State.block, found]
  rfl

theorem deleteCtrl_eq {block : ControlBlock} (found : state.ctrls pointer = some block) :
    deleteCtrl state (some pointer) = .ok (state.setBlock pointer none) := by
  simp only [deleteCtrl, State.block, found]
  rfl

theorem Counted.congr (counted : Counted state holders closing) (ctrls : after.ctrls = state.ctrls)
    (ctrl : after.ctrl = state.ctrl) (nextCtrl : after.nextCtrl = state.nextCtrl) : Counted after holders closing := by
  cases state
  cases after
  cases ctrls
  cases ctrl
  cases nextCtrl
  exact ⟨counted.denotes, counted.counts, counted.small, counted.held, counted.closed, counted.bounded⟩

theorem Shrunk.setBlock {block : ControlBlock} {refcount : Int} (found : state.ctrls pointer = some block) :
    Shrunk state (state.setBlock pointer (some { block with refcount })) holders holders safe := by
  refine ⟨fun _ member => member, fun _ member gone => absurd member gone, fun _ _ => rfl, ?_, rfl, rfl, rfl, rfl⟩
  intro position other same
  by_cases here : position = pointer
  · subst here
    change Function.update _ _ _ _ = _ at same
    rw [Function.update_self] at same
    cases same
    exact ⟨block, found, rfl⟩
  · exact ⟨other, (Function.update_of_ne here _ _).symm.trans same, rfl⟩

theorem Shrunk.deleted : Shrunk state (state.setBlock pointer none) holders holders safe := by
  refine ⟨fun _ member => member, fun _ member gone => absurd member gone, fun _ _ => rfl, ?_, rfl, rfl, rfl, rfl⟩
  intro position other same
  by_cases here : position = pointer
  · subst here
    change Function.update _ _ _ _ = _ at same
    rw [Function.update_self] at same
    cases same
  · exact ⟨other, (Function.update_of_ne here _ _).symm.trans same, rfl⟩

/-- Deletion of an object that is not safe. -/
theorem Shrunk.deletedObject (lost : ¬ safe object) :
    Shrunk state { state with objects := Function.update state.objects object none } holders holders safe := by
  refine ⟨fun _ member => member, fun _ member gone => absurd member gone, ?_, fun _ block found => ⟨block, found, rfl⟩,
    rfl, rfl, rfl, rfl⟩
  intro other survives
  apply Function.update_of_ne
  rintro rfl
  exact lost survives

/-- A release of a handle that is not the last one. -/
theorem release_more {block : ControlBlock} (counted : Counted state holders closing)
    (owned : Owned state holders closing loose) (member : handle ∈ holders) (anchored : Anchored state closing loose kept handle)
    (refers : state.ctrl handle = some pointer) (found : state.ctrls pointer = some block)
    (more : block.refcount + -1 ≠ 0) :
    ∃ after left, release (depth + 1) state handle = .ok after ∧
      Settled state after (holders.erase handle) left closing loose (Safe state closing kept) := by
  obtain ⟨counting, dropped⟩ := counted.drop member refers found
  rw [if_neg more] at dropped
  have reads := (member_eq (owned.present handle member)).trans (congrArg Except.ok refers)
  refine ⟨_, holders.erase handle, (release_eq reads counting (Function.update_self ..)).trans (if_neg more), dropped, ?_,
    Shrunk.setBlock found⟩
  exact owned.drop found (fun _ listed => listed) fun object index same => (anchored object index same).imp_left And.left

/-- A release of the last handle to a null pointer. -/
theorem release_null {block : ControlBlock} (counted : Counted state holders closing)
    (owned : Owned state holders closing loose) (member : handle ∈ holders) (anchored : Anchored state closing loose kept handle)
    (refers : state.ctrl handle = some pointer) (found : state.ctrls pointer = some block)
    (last : block.refcount + -1 = 0) (null : block.ptr = none) :
    ∃ after left, release (depth + 1) state handle = .ok after ∧
      Settled state after (holders.erase handle) left closing loose (Safe state closing kept) := by
  obtain ⟨counting, dropped⟩ := counted.drop member refers found
  have opened : pointer ∉ closing := fun listed => counted.closing_unheld listed member refers
  have ownedNext : Owned (state.setBlock pointer (some { block with refcount := block.refcount + -1 }))
      (holders.erase handle) (insert pointer closing) loose :=
    owned.drop found (Finset.subset_insert pointer closing) fun object index same =>
      (anchored object index same).imp_left And.left
  rw [if_pos last] at dropped
  generalize reached : state.setBlock pointer (some { block with refcount := block.refcount + -1 }) = next
    at counting dropped ownedNext
  have here : next.ctrls pointer = some { block with refcount := block.refcount + -1 } := by
    rw [← reached]
    exact Function.update_self ..
  have shrunk : Shrunk state next (holders.erase handle) (holders.erase handle) (Safe state closing kept) :=
    reached ▸ Shrunk.setBlock found
  have reads := (member_eq (owned.present handle member)).trans (congrArg Except.ok refers)
  have readsNext : next.member handle = .ok (some pointer) := reached ▸ reads
  have ownerless : ∀ object, ¬ next.Owns pointer object := by
    rintro object ⟨other, there, ptr⟩
    cases here.symm.trans there
    cases null.symm.trans ptr
  refine ⟨next.setBlock pointer none, holders.erase handle, ?_, ?_, ?_, shrunk.trans Shrunk.deleted⟩
  · rw [release_eq reads counting here, if_pos last, null]
    change (next.member handle >>= deleteCtrl next) = _
    rw [readsNext]
    exact deleteCtrl_eq here
  · have deleted := dropped.delete (Finset.mem_insert_self pointer closing)
    rwa [Finset.erase_insert opened] at deleted
  · have deleted := ownedNext.deleteCtrl ownerless
    rwa [Finset.erase_insert opened] at deleted

/-- A release of the last handle to an object, whose fields are released in turn. -/
theorem release_object {block : ControlBlock} (releases : Releases loose kept depth)
    (looseKept : ∀ object index, loose = some (.field object index) → kept object)
    (counted : Counted state holders closing) (owned : Owned state holders closing loose) (member : handle ∈ holders)
    (supported : Supported state (holders.erase handle) kept) (anchored : Anchored state closing loose kept handle)
    (deep : state.nextCtrl < depth + 1 + closing.card)
    (refers : state.ctrl handle = some pointer) (found : state.ctrls pointer = some block)
    (last : block.refcount + -1 = 0) (holds : block.ptr = some object) :
    ∃ after left, release (depth + 1) state handle = .ok after ∧
      Settled state after (holders.erase handle) left closing loose (Safe state closing kept) := by
  obtain ⟨counting, dropped⟩ := counted.drop member refers found
  have opened : pointer ∉ closing := fun listed => counted.closing_unheld listed member refers
  have ownedNext : Owned (state.setBlock pointer (some { block with refcount := block.refcount + -1 }))
      (holders.erase handle) (insert pointer closing) loose :=
    owned.drop found (Finset.subset_insert pointer closing) fun object index same =>
      (anchored object index same).imp_left And.left
  rw [if_pos last] at dropped
  have owns : state.Owns pointer object := ⟨block, found, holds⟩
  obtain ⟨fields, there⟩ := owned.object pointer object owns
  generalize reached : state.setBlock pointer (some { block with refcount := block.refcount + -1 }) = next
    at counting dropped ownedNext
  have here : next.ctrls pointer = some { block with refcount := block.refcount + -1 } := by
    rw [← reached]
    exact Function.update_self ..
  have ownsNext : next.Owns pointer object := ⟨_, here, holds⟩
  have same : ∀ position other, next.Owns position other ↔ state.Owns position other := by
    intro position other
    rw [← reached]
    exact State.owns_setBlock found
  have shrunk : Shrunk state next (holders.erase handle) (holders.erase handle) (Safe state closing kept) :=
    reached ▸ Shrunk.setBlock found
  have supportedNext : Supported next (holders.erase handle) kept := by
    intro other keeps
    obtain ⟨position, owner, support⟩ := supported other keeps
    exact ⟨position, (same position other).mpr owner, reached ▸ support⟩
  have unkept : ¬ kept object :=
    supportedNext.not_closing dropped ownedNext (Finset.mem_insert_self pointer closing) ownsNext
  have lost : ¬ Safe state closing kept object := by
    rintro (keeps | ⟨position, listed, owner⟩)
    · exact unkept keeps
    · cases owned.once position pointer object owner owns
      exact opened listed
  have apart : ∀ index, handle ≠ .field object index := by
    rintro index rfl
    rcases anchored object index rfl with ⟨_, keeps⟩ | closes
    · exact unkept keeps
    · exact lost (.inr closes)
  have before : ∀ index < fields, .field object index ∈ holders.erase handle := by
    intro index inside
    rcases owned.full pointer object fields there owns opened index inside with listed | same
    · exact Finset.mem_erase.mpr ⟨(apart index).symm, listed⟩
    · exact absurd (looseKept object index same) unkept
  have beyond : ∀ index, fields ≤ index → .field object index ∉ holders.erase handle := by
    intro index outside listed
    obtain ⟨count, size, inside⟩ := owned.present _ (Finset.mem_of_mem_erase listed)
    cases size.symm.trans there
    exact Nat.not_lt_of_le outside inside
  have covered : ∀ other, Safe state closing kept other → Safe next (insert pointer closing) kept other := by
    rintro other (keeps | ⟨position, listed, owner⟩)
    · exact .inl keeps
    · exact .inr ⟨position, Finset.mem_insert_of_mem listed, (same position other).mpr owner⟩
  have deepNext : next.nextCtrl < depth + (insert pointer closing).card := by
    rw [Finset.card_insert_of_notMem opened, ← reached]
    change state.nextCtrl < _
    omega
  obtain ⟨emptied, left, destroyed, settled, gone, remains⟩ := destroyFields_settled releases
    (Finset.mem_insert_self pointer closing) lost fields dropped ownedNext ownsNext covered before beyond supportedNext deepNext
  have thereNext : next.objects object = some fields := reached ▸ there
  have thereEmptied := remains.trans thereNext
  have ownsEmptied := settled.shrunk.owns_closing settled.counted (Finset.mem_insert_self pointer closing) ownsNext
  have final := (shrunk.trans settled.shrunk).trans (Shrunk.deletedObject lost)
  obtain ⟨closed, foundClosed, _⟩ := settled.counted.closed pointer (Finset.mem_insert_self pointer closing)
  have reads := (member_eq (owned.present handle member)).trans (congrArg Except.ok refers)
  have readsFinal : State.member { emptied with objects := Function.update emptied.objects object none } handle =
      .ok (some pointer) := by
    refine (member_eq (final.present (owned.present handle member) ?_)).trans ?_
    · intro other index same
      rcases anchored other index same with ⟨_, keeps⟩ | closes
      · exact .inl keeps
      · exact .inr closes
    · exact congrArg Except.ok ((congrFun final.ctrl handle).trans refers)
  refine ⟨State.setBlock { emptied with objects := Function.update emptied.objects object none } pointer none, left,
    ?_, ?_, ?_, final.trans Shrunk.deleted⟩
  · rw [release_eq reads counting here, if_pos last, holds]
    simp only [deleteObject, thereNext]
    rw [destroyed]
    change (State.member { emptied with objects := Function.update emptied.objects object none } handle >>= _) = _
    rw [readsFinal]
    exact deleteCtrl_eq foundClosed
  · have deleted := settled.counted.delete (Finset.mem_insert_self pointer closing)
    rw [Finset.erase_insert opened] at deleted
    exact deleted.congr rfl rfl rfl
  · have deleted := settled.owned.deleteObject ownsEmptied thereEmptied gone
    rwa [Finset.erase_insert opened] at deleted

/-- A release comes to its end, because every release within it takes the last handle from another
control block. -/
theorem releases (looseKept : ∀ object index, loose = some (.field object index) → kept object) (depth : Nat) :
    Releases loose kept depth := by
  induction depth with
  | zero =>
      intro state holders closing handle counted _ _ _ _ deep
      have most := counted.closing_card
      omega
  | succ depth ih =>
      intro state holders closing handle counted owned member supported anchored deep
      obtain ⟨pointer, block, refers, found⟩ := counted.denotes handle member
      by_cases last : block.refcount + -1 = 0
      · cases holds : block.ptr with
        | none => exact release_null counted owned member anchored refers found last holds
        | some object =>
            exact release_object ih looseKept counted owned member supported anchored deep refers found last holds
      · exact release_more counted owned member anchored refers found last

end HundredDays.SharedPtr
