import HundredDays.SharedPtr.Model
import HundredDays.Data.References

namespace HundredDays.SharedPtr

open HundredDays.Data

/-! What holds of the control blocks and the objects, also while some of them are being deleted.

The handles that count are `holders`; a handle that is being released counts no longer. The
control blocks whose last handle is gone are `closing`.
-/

variable {state after : State} {holders : Finset Handle} {closing : Finset Nat} {handle : Handle}
  {pointer object : Nat} {block : ControlBlock} {loose : Option Handle}

/-- The control block is that of the object. -/
def State.Owns (state : State) (pointer object : Nat) : Prop :=
  ∃ block, state.ctrls pointer = some block ∧ block.ptr = some object

/-- Every count is that of the holders. -/
structure Counted (state : State) (holders : Finset Handle) (closing : Finset Nat) : Prop where
  denotes : ∀ handle ∈ holders, ∃ pointer block, state.ctrl handle = some pointer ∧ state.ctrls pointer = some block
  counts : ∀ pointer block, state.ctrls pointer = some block →
    block.refcount = references holders state.ctrl (some pointer)
  small : ∀ pointer block, state.ctrls pointer = some block → block.refcount ≤ intMax
  held : ∀ pointer block, state.ctrls pointer = some block → pointer ∉ closing → 0 < block.refcount
  closed : ∀ pointer ∈ closing, ∃ block, state.ctrls pointer = some block ∧ block.refcount = 0
  bounded : ∀ pointer block, state.ctrls pointer = some block → pointer < state.nextCtrl

/-- Every object has its control block and its handles, but for the one that is `loose`. -/
structure Owned (state : State) (holders : Finset Handle) (closing : Finset Nat) (loose : Option Handle) : Prop where
  present : ∀ handle ∈ holders, state.Present handle
  owner : ∀ object fields, state.objects object = some fields → ∃ pointer, state.Owns pointer object
  object : ∀ pointer object, state.Owns pointer object → ∃ fields, state.objects object = some fields
  once : ∀ pointer other object, state.Owns pointer object → state.Owns other object → other = pointer
  full : ∀ pointer object fields, state.objects object = some fields → state.Owns pointer object →
    pointer ∉ closing → ∀ index < fields, .field object index ∈ holders ∨ loose = some (.field object index)
  bounded : ∀ object fields, state.objects object = some fields → object < state.nextObject

theorem count_eq {change : Int} (found : state.ctrls pointer = some block)
    (low : -intMax - 1 ≤ block.refcount + change) (high : block.refcount + change ≤ intMax) :
    count state pointer change = .ok (state.setBlock pointer (some { block with refcount := block.refcount + change })) := by
  simp only [count, State.block, found]
  exact if_pos ⟨low, high⟩

namespace Counted

/-- One control block changes, and with it the handles that denote it. -/
theorem change (counted : Counted state holders closing) (pointer : Nat) {nextHolders : Finset Handle}
    {nextClosing : Finset Nat} {changed : Option ControlBlock}
    (blocks : after.ctrls = Function.update state.ctrls pointer changed)
    (grown : state.nextCtrl ≤ after.nextCtrl)
    (own : ∀ block, changed = some block → block.refcount = references nextHolders after.ctrl (some pointer) ∧
      block.refcount ≤ intMax ∧ (pointer ∉ nextClosing → 0 < block.refcount) ∧ pointer < after.nextCtrl)
    (closed : ∀ position ∈ nextClosing, (position = pointer ∧ ∃ block, changed = some block ∧ block.refcount = 0) ∨
      (position ≠ pointer ∧ position ∈ closing))
    (others : ∀ position block, position ≠ pointer → state.ctrls position = some block →
      references nextHolders after.ctrl (some position) = references holders state.ctrl (some position) ∧
        (position ∈ closing → position ∈ nextClosing))
    (denotes : ∀ handle ∈ nextHolders, (after.ctrl handle = some pointer ∧ ∃ block, changed = some block) ∨
      (handle ∈ holders ∧ after.ctrl handle = state.ctrl handle ∧ state.ctrl handle ≠ some pointer)) :
    Counted after nextHolders nextClosing := by
  have found : ∀ position block, after.ctrls position = some block →
      (position = pointer ∧ changed = some block) ∨ (position ≠ pointer ∧ state.ctrls position = some block) := by
    intro position block same
    rw [blocks] at same
    by_cases here : position = pointer
    · subst here
      rw [Function.update_self] at same
      exact .inl ⟨rfl, same⟩
    · rw [Function.update_of_ne here] at same
      exact .inr ⟨here, same⟩
  refine ⟨?_, ?_, ?_, ?_, ?_, ?_⟩
  · intro handle member
    rcases denotes handle member with ⟨refers, block, same⟩ | ⟨listed, refers, differs⟩
    · exact ⟨pointer, block, refers, by rw [blocks, Function.update_self, same]⟩
    · obtain ⟨position, block, before, there⟩ := counted.denotes handle listed
      have apart : position ≠ pointer := by
        rintro rfl
        exact differs before
      exact ⟨position, block, refers.trans before, by rw [blocks, Function.update_of_ne apart, there]⟩
  · intro position block same
    rcases found position block same with ⟨rfl, here⟩ | ⟨differs, before⟩
    · exact (own block here).1
    · rw [(others position block differs before).1]
      exact counted.counts position block before
  · intro position block same
    rcases found position block same with ⟨rfl, here⟩ | ⟨_, before⟩
    · exact (own block here).2.1
    · exact counted.small position block before
  · intro position block same unlisted
    rcases found position block same with ⟨rfl, here⟩ | ⟨differs, before⟩
    · exact (own block here).2.2.1 unlisted
    · exact counted.held position block before fun listed => unlisted ((others position block differs before).2 listed)
  · intro position listed
    rcases closed position listed with ⟨rfl, block, same, zero⟩ | ⟨differs, before⟩
    · exact ⟨block, by rw [blocks, Function.update_self, same], zero⟩
    · obtain ⟨block, same, zero⟩ := counted.closed position before
      exact ⟨block, by rw [blocks, Function.update_of_ne differs, same], zero⟩
  · intro position block same
    rcases found position block same with ⟨rfl, here⟩ | ⟨_, before⟩
    · exact (own block here).2.2.2
    · exact Nat.lt_of_lt_of_le (counted.bounded position block before) grown

/-- A control block that is closing has no holder. -/
theorem closing_unheld (counted : Counted state holders closing) (listed : pointer ∈ closing) (member : handle ∈ holders) :
    state.ctrl handle ≠ some pointer := by
  obtain ⟨block, found, zero⟩ := counted.closed pointer listed
  have none := counted.counts pointer block found
  rw [zero] at none
  exact references_eq_zero.mp (by omega) handle member

/-- A handle no longer counts. -/
theorem drop (counted : Counted state holders closing) (member : handle ∈ holders)
    (refers : state.ctrl handle = some pointer) (found : state.ctrls pointer = some block) :
    count state pointer (-1) = .ok (state.setBlock pointer (some { block with refcount := block.refcount + -1 })) ∧
      Counted (state.setBlock pointer (some { block with refcount := block.refcount + -1 })) (holders.erase handle)
        (if block.refcount + -1 = 0 then insert pointer closing else closing) := by
  have total := counted.counts pointer block found
  have positive : 0 < references holders state.ctrl (some pointer) := references_pos.mpr ⟨handle, member, refers⟩
  have most := counted.small pointer block found
  have fewer : ∀ position, references (holders.erase handle) state.ctrl (some position) +
      (if pointer = position then 1 else 0) = references holders state.ctrl (some position) := by
    intro position
    have erased : references (holders.erase handle) state.ctrl (some position) +
        (if state.ctrl handle = some position then 1 else 0) = references holders state.ctrl (some position) :=
      references_erase member
    simpa only [refers, Option.some.injEq] using erased
  have here := fewer pointer
  rw [if_pos rfl] at here
  have range : (0 : Int) ≤ intMax := by decide
  refine ⟨count_eq found (by omega) (by omega), ?_⟩
  refine counted.change pointer rfl (Nat.le_refl _) ?_ ?_ ?_ ?_
  · rintro left ⟨⟩
    refine ⟨?_, ?_, ?_, counted.bounded pointer block found⟩
    · change block.refcount + -1 = references (holders.erase handle) state.ctrl (some pointer)
      omega
    · change block.refcount + -1 ≤ intMax
      omega
    · intro unlisted
      change 0 < block.refcount + -1
      split_ifs at unlisted with last
      · exact absurd (Finset.mem_insert_self _ _) unlisted
      · omega
  · intro position listed
    split_ifs at listed with last
    · rcases Finset.mem_insert.mp listed with rfl | before
      · exact .inl ⟨rfl, _, rfl, last⟩
      · refine .inr ⟨?_, before⟩
        rintro rfl
        exact counted.closing_unheld before member refers
    · refine .inr ⟨?_, listed⟩
      rintro rfl
      exact counted.closing_unheld listed member refers
  · intro position _ differs _
    have others := fewer position
    rw [if_neg (Ne.symm differs), Nat.add_zero] at others
    refine ⟨others, fun listed => ?_⟩
    split_ifs
    · exact Finset.mem_insert_of_mem listed
    · exact listed
  · intro each inside
    obtain ⟨_, listed⟩ := Finset.mem_erase.mp inside
    by_cases shared : state.ctrl each = some pointer
    · exact .inl ⟨shared, _, rfl⟩
    · exact .inr ⟨listed, rfl, shared⟩

/-- A control block is deleted that is closing. -/
theorem delete (counted : Counted state holders closing) (listed : pointer ∈ closing) :
    Counted (state.setBlock pointer none) holders (closing.erase pointer) := by
  refine counted.change pointer rfl (Nat.le_refl _) ?_ ?_ ?_ ?_
  · intro block same
    cases same
  · intro position inside
    obtain ⟨differs, before⟩ := Finset.mem_erase.mp inside
    exact .inr ⟨differs, before⟩
  · intro position block differs _
    exact ⟨rfl, fun before => Finset.mem_erase.mpr ⟨differs, before⟩⟩
  · intro each member
    exact .inr ⟨member, rfl, counted.closing_unheld listed member⟩

/-- A handle that does not count takes what another has. -/
theorem take {other : Handle} (counted : Counted state holders closing) (fresh : handle ∉ holders)
    (member : other ∈ holders) (refers : state.ctrl other = some pointer) (found : state.ctrls pointer = some block)
    (room : block.refcount < intMax) :
    Counted ({ state with ctrl := Function.update state.ctrl handle (some pointer) }.setBlock pointer
      (some { block with refcount := block.refcount + 1 })) (insert handle holders) closing := by
  have total := counted.counts pointer block found
  have more : ∀ position, references (insert handle holders) (Function.update state.ctrl handle (some pointer))
      (some position) = references holders state.ctrl (some position) + if pointer = position then 1 else 0 := by
    intro position
    rw [references_insert_update fresh]
    simp only [Option.some.injEq]
  have here := more pointer
  rw [if_pos rfl] at here
  refine counted.change pointer rfl (Nat.le_refl _) ?_ ?_ ?_ ?_
  · rintro left ⟨⟩
    refine ⟨?_, ?_, fun _ => ?_, counted.bounded pointer block found⟩
    · change block.refcount + 1 = references (insert handle holders)
        (Function.update state.ctrl handle (some pointer)) (some pointer)
      omega
    · change block.refcount + 1 ≤ intMax
      omega
    · change 0 < block.refcount + 1
      omega
  · intro position listed
    refine .inr ⟨?_, listed⟩
    rintro rfl
    exact counted.closing_unheld listed member refers
  · intro position _ differs _
    have others := more position
    rw [if_neg (Ne.symm differs), Nat.add_zero] at others
    exact ⟨others, id⟩
  · intro each inside
    rcases Finset.mem_insert.mp inside with rfl | listed
    · exact .inl ⟨Function.update_self .., _, rfl⟩
    · have differs : each ≠ handle := by
        rintro rfl
        exact fresh listed
      have same : Function.update state.ctrl handle (some pointer) each = state.ctrl each :=
        Function.update_of_ne differs _ _
      by_cases shared : state.ctrl each = some pointer
      · exact .inl ⟨same.trans shared, _, rfl⟩
      · exact .inr ⟨listed, same, shared⟩

/-- A new handle has a new control block. -/
theorem construct (counted : Counted state holders closing) (fresh : handle ∉ holders) (ptr : Option Nat) :
    Counted (construct state handle ptr) (insert handle holders) closing := by
  have unused : ∀ each ∈ holders, state.ctrl each ≠ some state.nextCtrl := by
    intro each listed same
    obtain ⟨pointer, block, refers, found⟩ := counted.denotes each listed
    cases same.symm.trans refers
    exact Nat.lt_irrefl _ (counted.bounded _ block found)
  have more : ∀ position, references (insert handle holders) (Function.update state.ctrl handle (some state.nextCtrl))
      (some position) = references holders state.ctrl (some position) + if state.nextCtrl = position then 1 else 0 := by
    intro position
    rw [references_insert_update fresh]
    simp only [Option.some.injEq]
  have here := more state.nextCtrl
  rw [if_pos rfl, references_eq_zero.mpr unused] at here
  refine counted.change state.nextCtrl rfl (Nat.le_succ _) ?_ ?_ ?_ ?_
  · rintro left ⟨⟩
    exact ⟨congrArg Nat.cast here.symm, (by decide : (1 : Int) ≤ intMax), fun _ => Int.one_pos, Nat.lt_succ_self _⟩
  · intro position listed
    refine .inr ⟨?_, listed⟩
    rintro rfl
    obtain ⟨block, found, _⟩ := counted.closed _ listed
    exact Nat.lt_irrefl _ (counted.bounded _ block found)
  · intro position _ differs _
    have others := more position
    rw [if_neg (Ne.symm differs), Nat.add_zero] at others
    exact ⟨others, id⟩
  · intro each inside
    rcases Finset.mem_insert.mp inside with rfl | listed
    · exact .inl ⟨Function.update_self .., _, rfl⟩
    · have differs : each ≠ handle := by
        rintro rfl
        exact fresh listed
      exact .inr ⟨listed, Function.update_of_ne differs _ _, unused each listed⟩

end Counted

/-! ### Objects -/

theorem State.owns_setBlock {refcount : Int} (found : state.ctrls pointer = some block) {position : Nat} :
    (state.setBlock pointer (some { block with refcount })).Owns position object ↔ state.Owns position object := by
  by_cases here : position = pointer
  · subst here
    simp [State.Owns, State.setBlock, found]
  · simp [State.Owns, State.setBlock, Function.update_of_ne here]

theorem State.owns_deleted {position : Nat} :
    (state.setBlock pointer none).Owns position object ↔ position ≠ pointer ∧ state.Owns position object := by
  by_cases here : position = pointer
  · subst here
    simp [State.Owns, State.setBlock]
  · simp [State.Owns, State.setBlock, here]

namespace Owned

/-- A handle no longer counts, because it is the loose one or its object is being deleted. -/
theorem drop {refcount : Int} {nextClosing : Finset Nat} (owned : Owned state holders closing loose)
    (found : state.ctrls pointer = some block) (wider : closing ⊆ nextClosing)
    (anchored : ∀ object index, handle = .field object index →
      loose = some handle ∨ ∃ pointer ∈ closing, state.Owns pointer object) :
    Owned (state.setBlock pointer (some { block with refcount })) (holders.erase handle) nextClosing loose := by
  refine ⟨?_, ?_, ?_, ?_, ?_, owned.bounded⟩
  · intro each member
    exact owned.present each (Finset.mem_of_mem_erase member)
  · intro object fields there
    obtain ⟨position, owns⟩ := owned.owner object fields there
    exact ⟨position, (State.owns_setBlock found).mpr owns⟩
  · intro position object owns
    exact owned.object position object ((State.owns_setBlock found).mp owns)
  · intro position other object first second
    exact owned.once position other object ((State.owns_setBlock found).mp first) ((State.owns_setBlock found).mp second)
  · intro position object fields there owns unlisted index inside
    have before := (State.owns_setBlock found).mp owns
    have opened : position ∉ closing := fun listed => unlisted (wider listed)
    rcases owned.full position object fields there before opened index inside with listed | same
    · by_cases own : Handle.field object index = handle
      · rcases anchored object index own.symm with same | ⟨other, listedOther, owner⟩
        · exact .inr (own ▸ same)
        · cases owned.once position other object before owner
          exact absurd listedOther opened
      · exact .inl (Finset.mem_erase.mpr ⟨own, listed⟩)
    · exact .inr same

/-- An object and its control block are deleted when none of its handles counts. -/
theorem deleteObject {fields : Nat} (owned : Owned state holders closing loose) (owns : state.Owns pointer object)
    (there : state.objects object = some fields) (gone : ∀ index, .field object index ∉ holders) :
    Owned ({ state with objects := Function.update state.objects object none }.setBlock pointer none) holders
      (closing.erase pointer) loose := by
  have remain : ∀ {other : Nat} {count : Nat}, Function.update state.objects object none other = some count →
      other ≠ object ∧ state.objects other = some count := by
    intro other count same
    by_cases here : other = object
    · subst here
      simp at same
    · rw [Function.update_of_ne here] at same
      exact ⟨here, same⟩
  have apart : ∀ position other, state.Owns position other → position ≠ pointer → other ≠ object := by
    rintro position other owner differs rfl
    exact differs (owned.once pointer position other owns owner)
  have before : ∀ position other,
      ({ state with objects := Function.update state.objects object none }.setBlock pointer none).Owns position other →
        position ≠ pointer ∧ state.Owns position other := fun position other => State.owns_deleted.mp
  refine ⟨?_, ?_, ?_, ?_, ?_, ?_⟩
  · intro each member
    have present := owned.present each member
    cases each with
    | var name => exact present
    | field other index =>
        have differs : other ≠ object := by
          rintro rfl
          exact gone index member
        obtain ⟨count, same, inside⟩ := present
        exact ⟨count, (Function.update_of_ne differs _ _).trans same, inside⟩
  · intro other count same
    obtain ⟨differs, same⟩ := remain same
    obtain ⟨position, owner⟩ := owned.owner other count same
    refine ⟨position, State.owns_deleted.mpr ⟨?_, owner⟩⟩
    rintro rfl
    obtain ⟨block, found, ptr⟩ := owner
    obtain ⟨own, foundOwn, ptrOwn⟩ := owns
    cases found.symm.trans foundOwn
    exact differs (Option.some.inj (ptr.symm.trans ptrOwn))
  · intro position other owner
    obtain ⟨differs, owner⟩ := before position other owner
    obtain ⟨count, same⟩ := owned.object position other owner
    exact ⟨count, (Function.update_of_ne (apart position other owner differs) _ _).trans same⟩
  · intro position second other first last
    exact owned.once position second other (before _ _ first).2 (before _ _ last).2
  · intro position other count same owner unlisted index inside
    obtain ⟨differs, owner⟩ := before position other owner
    exact owned.full position other count (remain same).2 owner
      (fun listed => unlisted (Finset.mem_erase.mpr ⟨differs, listed⟩)) index inside
  · intro other count same
    exact owned.bounded other count (remain same).2

/-- A control block of a null pointer is deleted. -/
theorem deleteCtrl (owned : Owned state holders closing loose) (null : ∀ object, ¬ state.Owns pointer object) :
    Owned (state.setBlock pointer none) holders (closing.erase pointer) loose := by
  have other : ∀ position object, state.Owns position object → position ≠ pointer := by
    rintro position object owns rfl
    exact null object owns
  refine ⟨owned.present, ?_, ?_, ?_, ?_, owned.bounded⟩
  · intro object fields there
    obtain ⟨position, owns⟩ := owned.owner object fields there
    exact ⟨position, State.owns_deleted.mpr ⟨other position object owns, owns⟩⟩
  · intro position object owns
    exact owned.object position object (State.owns_deleted.mp owns).2
  · intro position second object first last
    exact owned.once position second object (State.owns_deleted.mp first).2 (State.owns_deleted.mp last).2
  · intro position object fields there owns unlisted index inside
    obtain ⟨differs, owns⟩ := State.owns_deleted.mp owns
    exact owned.full position object fields there owns
      (fun listed => unlisted (Finset.mem_erase.mpr ⟨differs, listed⟩)) index inside

end Owned

end HundredDays.SharedPtr
