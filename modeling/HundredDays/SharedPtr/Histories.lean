import HundredDays.SharedPtr.Release
import HundredDays.Semantics.Run

namespace HundredDays.SharedPtr

open HundredDays.Data HundredDays.Semantics

/-! Sequences of calls between which nothing is being deleted. -/

variable {state after : State} {holders left : Finset Handle} {handle other : Handle} {pointer object name : Nat}

/-- Every control block counts the handles that exist and has one, and every object has one control block. -/
structure Sound (state : State) : Prop where
  counted : Counted state state.handles ∅
  owned : Owned state state.handles ∅ none

theorem State.present_of_mem (member : handle ∈ state.handles) : state.Present handle := by
  simp only [State.handles, Finset.mem_union, Finset.mem_image, Finset.mem_biUnion, Finset.mem_range] at member
  rcases member with ⟨name, listed, rfl⟩ | ⟨object, _, index, inside, rfl⟩
  · exact listed
  · cases found : state.objects object with
    | none => simp [found] at inside
    | some fields =>
        rw [found, Option.getD_some] at inside
        exact ⟨fields, found, inside⟩

theorem State.mem_of_present (bounded : ∀ object fields, state.objects object = some fields → object < state.nextObject)
    (present : state.Present handle) : handle ∈ state.handles := by
  simp only [State.handles, Finset.mem_union, Finset.mem_image, Finset.mem_biUnion, Finset.mem_range]
  cases handle with
  | var name => exact .inl ⟨name, present, rfl⟩
  | field object index =>
      obtain ⟨fields, found, inside⟩ := present
      exact .inr ⟨object, bounded object fields found, index, by rwa [found], rfl⟩

theorem Sound.mem_handles (sound : Sound state) : handle ∈ state.handles ↔ state.Present handle :=
  ⟨State.present_of_mem, State.mem_of_present sound.owned.bounded⟩

/-- When nothing is being deleted, the handles that count are those that exist. -/
theorem Sound.of_holders (counted : Counted state holders ∅) (owned : Owned state holders ∅ none)
    (scope : ∀ name ∈ state.scope, .var name ∈ holders) : Sound state := by
  have same : state.handles = holders := by
    ext handle
    refine ⟨fun member => ?_, fun member => State.mem_of_present owned.bounded (owned.present handle member)⟩
    have present := State.present_of_mem member
    cases handle with
    | var name => exact scope name present
    | field object index =>
        obtain ⟨fields, found, inside⟩ := present
        obtain ⟨pointer, owns⟩ := owned.owner object fields found
        exact (owned.full pointer object fields found owns (Finset.notMem_empty pointer) index inside).resolve_right
          (Option.some_ne_none _).symm
  exact ⟨same ▸ counted, same ▸ owned⟩

/-- What goes when a handle is released: itself, and the fields of objects all of whose handles go. -/
inductive Dropped (state : State) (released : Handle) : Handle → Prop where
  | given : Dropped state released released
  | field {pointer object : Nat} (index : Nat) (owns : state.Owns pointer object)
      (all : ∀ handle ∈ state.handles, state.ctrl handle = some pointer → Dropped state released handle) :
      Dropped state released (.field object index)

/-- The object is deleted when the handle is released. -/
def Lost (state : State) (released : Handle) (object : Nat) : Prop :=
  ∃ pointer, state.Owns pointer object ∧
    ∀ handle ∈ state.handles, state.ctrl handle = some pointer → Dropped state released handle

/-- An assignment deletes neither the object that its destination is in nor that of its source, and no
count leaves the range of `int`. -/
def Outlasting (state : State) : Call → Prop
  | .copy _ other =>
      ∀ pointer block, state.ctrl other = some pointer → state.ctrls pointer = some block → block.refcount < intMax
  | .assign handle other => handle ≠ other →
      (∀ object index, handle = .field object index ∨ other = .field object index → ¬ Lost state handle object) ∧
      ∀ pointer block, state.ctrl other = some pointer → state.ctrls pointer = some block → block.refcount < intMax ∨
        ∃ dropped ∈ state.handles, Dropped state handle dropped ∧ state.ctrl dropped = some pointer
  | _ => True

namespace Sound

/-- The objects that are not lost are kept by handles that do not go. -/
theorem supported (sound : Sound state) (released : Handle) :
    Supported state (state.handles.erase released) fun object =>
      (∃ fields, state.objects object = some fields) ∧ ¬ Lost state released object := by
  rintro object ⟨⟨fields, found⟩, kept⟩
  obtain ⟨pointer, owns⟩ := sound.owned.owner object fields found
  refine ⟨pointer, owns, ?_⟩
  have survivor : ∃ handle ∈ state.handles, state.ctrl handle = some pointer ∧ ¬ Dropped state released handle := by
    apply Classical.byContradiction
    intro none
    refine kept ⟨pointer, owns, fun handle member refers => ?_⟩
    apply Classical.byContradiction
    intro stays
    exact none ⟨handle, member, refers, stays⟩
  obtain ⟨handle, member, refers, stays⟩ := survivor
  have differs : handle ≠ released := by
    rintro rfl
    exact stays .given
  refine ⟨handle, Finset.mem_erase.mpr ⟨differs, member⟩, refers, ?_⟩
  rintro other index rfl
  obtain ⟨count, there, _⟩ := State.present_of_mem member
  refine ⟨⟨count, there⟩, ?_⟩
  rintro ⟨position, owner, all⟩
  exact stays (.field index owner all)

/-- A release when nothing is being deleted. -/
theorem release (sound : Sound state) (present : state.Present handle)
    (stays : ∀ object index, handle = .field object index → ¬ Lost state handle object) :
    ∃ after left, state.release handle = .ok after ∧
      Settled state after (state.handles.erase handle) left ∅ (some handle) fun object =>
        (∃ fields, state.objects object = some fields) ∧ ¬ Lost state handle object := by
  have kept : ∀ object index, handle = .field object index →
      (∃ fields, state.objects object = some fields) ∧ ¬ Lost state handle object := by
    rintro object index rfl
    obtain ⟨fields, found, _⟩ := present
    exact ⟨⟨fields, found⟩, stays object index rfl⟩
  have owned : Owned state state.handles ∅ (some handle) := by
    refine { sound.owned with full := ?_ }
    intro pointer object fields found owns opened index inside
    exact (sound.owned.full pointer object fields found owns opened index inside).imp_right fun same =>
      absurd same.symm (Option.some_ne_none _)
  obtain ⟨after, left, released, settled⟩ := releases (fun object index same => kept object index (Option.some.inj same))
    (state.nextCtrl + 1) state state.handles ∅ handle sound.counted owned (sound.mem_handles.mpr present)
    (sound.supported handle) (fun object index same => .inl ⟨rfl, kept object index same⟩) (Nat.lt_succ_self _)
  exact ⟨after, left, released, settled.counted, settled.owned, settled.shrunk.mono fun _ keeps => .inl keeps⟩

/-- What is dropped goes. -/
theorem dropped_gone (sound : Sound state) {safe : Nat → Prop} {released : Handle}
    (settled : Settled state after (state.handles.erase released) left ∅ (some released) safe)
    (dropped : Dropped state released handle) : handle ∉ left := by
  induction dropped with
  | given => exact fun member => Finset.notMem_erase released state.handles (settled.shrunk.subset member)
  | @field pointer object index owns _ ih =>
      intro member
      obtain ⟨fields, found, _⟩ := settled.owned.present _ member
      obtain ⟨position, owner⟩ := settled.owned.owner object fields found
      cases sound.owned.once pointer position object owns (settled.shrunk.owns owner)
      obtain ⟨block, there, _⟩ := owner
      have positive := settled.counted.held pointer block there (Finset.notMem_empty pointer)
      rw [settled.counted.counts pointer block there] at positive
      obtain ⟨holder, listed, refers⟩ := references_pos.mp (Int.natCast_pos.mp positive)
      rw [settled.shrunk.ctrl] at refers
      exact ih holder (Finset.mem_of_mem_erase (settled.shrunk.subset listed)) refers listed

end Sound

/-- A call leaves a sound state, or it is none. -/
inductive Served : Except Stop State → Prop where
  | done {after : State} (sound : Sound after) : Served (.ok after)
  | refused : Served (.error .refused)

/-- A handle takes what another has. -/
theorem adopt_eq {block : ControlBlock} (there : state.Present other) (here : state.Present handle)
    (refers : state.ctrl other = some pointer) (found : state.ctrls pointer = some block)
    (low : 0 < block.refcount) (room : block.refcount < intMax) :
    adopt state handle other = .ok ({ state with ctrl := Function.update state.ctrl handle (some pointer) }.setBlock pointer
      (some { block with refcount := block.refcount + 1 })) := by
  have range : (0 : Int) ≤ intMax := by decide
  have counted : count { state with ctrl := Function.update state.ctrl handle (some pointer) } pointer 1 = _ :=
    count_eq found (by omega) (by omega)
  simp only [adopt, member_eq there, refers, bind, Except.bind, State.setMember, if_pos here]
  exact counted

/-- A new holder, after which nothing is loose. -/
theorem Owned.take {refcount : Int} {block : ControlBlock} {loose : Option Handle} {ctrl : Handle → Option Nat}
    (owned : Owned state holders ∅ loose) (present : state.Present handle)
    (found : state.ctrls pointer = some block) (tied : ∀ object index, loose = some (.field object index) →
      handle = .field object index) :
    Owned ({ state with ctrl }.setBlock pointer (some { block with refcount })) (insert handle holders) ∅ none := by
  have same : ∀ position object,
      ({ state with ctrl }.setBlock pointer (some { block with refcount })).Owns position object ↔
        state.Owns position object := by
    have there : { state with ctrl }.ctrls pointer = some block := found
    exact fun position object => State.owns_setBlock there
  refine ⟨?_, ?_, ?_, ?_, ?_, owned.bounded⟩
  · intro each member
    rcases Finset.mem_insert.mp member with rfl | listed
    · exact present
    · exact owned.present each listed
  · intro object fields there
    obtain ⟨position, owns⟩ := owned.owner object fields there
    exact ⟨position, (same position object).mpr owns⟩
  · intro position object owns
    exact owned.object position object ((same position object).mp owns)
  · intro position second object first last
    exact owned.once position second object ((same position object).mp first) ((same second object).mp last)
  · intro position object fields there owns opened index inside
    rcases owned.full position object fields there ((same position object).mp owns) opened index inside with listed | left
    · exact .inl (Finset.mem_insert_of_mem listed)
    · exact .inl (tied object index left ▸ Finset.mem_insert_self _ _)

/-- Variables come and go. -/
theorem Owned.rescope {closing : Finset Nat} {loose : Option Handle} (owned : Owned state holders closing loose)
    (scope : Finset Nat) (within : ∀ name, .var name ∈ holders → name ∈ scope)
    (tied : ∀ object index, loose ≠ some (.field object index)) : Owned { state with scope } holders closing none := by
  refine ⟨?_, owned.owner, owned.object, owned.once, ?_, owned.bounded⟩
  · intro each member
    cases each with
    | var name => exact within name member
    | field object index => exact owned.present (.field object index) member
  · intro pointer object fields there owns opened index inside
    exact (owned.full pointer object fields there owns opened index inside).imp_right fun same =>
      absurd same (tied object index)

namespace Sound

theorem destroy (sound : Sound state) (name : Nat) : Served (perform state (.destroy name)) := by
  simp only [perform]
  by_cases listed : name ∈ state.scope
  · rw [if_neg (not_not.mpr listed)]
    have present : state.Present (.var name) := listed
    obtain ⟨after, left, released, settled⟩ := sound.release present (by rintro _ _ ⟨⟩)
    rw [released]
    have counted : Counted { after with scope := after.scope.erase name } left ∅ := settled.counted.congr rfl rfl rfl
    have owned : Owned { after with scope := after.scope.erase name } left ∅ none := by
      refine settled.owned.rescope _ ?_ (by rintro _ _ ⟨⟩)
      intro each member
      refine Finset.mem_erase.mpr ⟨?_, settled.owned.present _ member⟩
      rintro rfl
      exact Finset.notMem_erase _ _ (settled.shrunk.subset member)
    refine .done (Sound.of_holders counted owned ?_)
    intro each remains
    obtain ⟨differs, inside⟩ := Finset.mem_erase.mp remains
    have before : Handle.var each ∈ state.handles.erase (.var name) := by
      refine Finset.mem_erase.mpr ⟨fun same => differs (Handle.var.inj same), sound.mem_handles.mpr ?_⟩
      change each ∈ state.scope
      rwa [← settled.shrunk.scope]
    apply Classical.byContradiction
    intro gone
    obtain ⟨_, _, ⟨⟩, _⟩ := settled.shrunk.fields _ before gone
  · rw [if_pos listed]
    exact .refused

theorem copy (sound : Sound state) (name : Nat) (other : Handle) (met : Outlasting state (.copy name other)) :
    Served (perform state (.copy name other)) := by
  simp only [perform]
  by_cases unlisted : name ∈ state.scope ∨ ¬ state.Present other
  · rw [if_pos unlisted]
    exact .refused
  · rw [if_neg unlisted]
    obtain ⟨fresh, there⟩ := not_or.mp unlisted
    have listed : other ∈ state.handles := sound.mem_handles.mpr (not_not.mp there)
    have absent : Handle.var name ∉ state.handles := fun member => fresh (sound.mem_handles.mp member)
    obtain ⟨pointer, block, refers, found⟩ := sound.counted.denotes other listed
    let extended : State := { state with scope := insert name state.scope }
    have present : extended.Present (.var name) := Finset.mem_insert_self name state.scope
    have owned : Owned extended state.handles ∅ none := by
      refine sound.owned.rescope _ ?_ (by rintro _ _ ⟨⟩)
      intro each member
      exact Finset.mem_insert_of_mem (sound.mem_handles.mp member)
    have counted : Counted extended state.handles ∅ := sound.counted.congr rfl rfl rfl
    have room := met pointer block refers found
    have low := sound.counted.held pointer block found (Finset.notMem_empty pointer)
    have adopted := adopt_eq (owned.present other listed) present refers found low room
    rw [adopted]
    refine .done (Sound.of_holders (counted.take absent listed refers found room)
      (owned.take present found (by rintro _ _ ⟨⟩)) ?_)
    intro each inside
    rcases Finset.mem_insert.mp inside with rfl | before
    · exact Finset.mem_insert_self _ _
    · exact Finset.mem_insert_of_mem (sound.mem_handles.mpr before)

theorem assign (sound : Sound state) (handle other : Handle) (met : Outlasting state (.assign handle other)) :
    Served (perform state (.assign handle other)) := by
  simp only [perform]
  by_cases unlisted : ¬ state.Present handle ∨ ¬ state.Present other
  · rw [if_pos unlisted]
    exact .refused
  · rw [if_neg unlisted]
    obtain ⟨first, second⟩ := not_or.mp unlisted
    have present := not_not.mp first
    have presentOther := not_not.mp second
    by_cases differs : handle ≠ other
    · rw [if_pos differs]
      obtain ⟨stays, room⟩ := met differs
      obtain ⟨after, left, released, settled⟩ := sound.release present fun object index same => stays object index (.inl same)
      have shrunk := settled.shrunk
      have safe : ∀ object index, handle = .field object index ∨ other = .field object index →
          (∃ fields, state.objects object = some fields) ∧ ¬ Lost state handle object := by
        intro object index same
        refine ⟨?_, stays object index same⟩
        rcases same with rfl | rfl
        · obtain ⟨fields, found, _⟩ := present
          exact ⟨fields, found⟩
        · obtain ⟨fields, found, _⟩ := presentOther
          exact ⟨fields, found⟩
      have listed : other ∈ left := by
        apply Classical.byContradiction
        intro gone
        have before := Finset.mem_erase.mpr ⟨differs.symm, sound.mem_handles.mpr presentOther⟩
        obtain ⟨object, index, same, lost⟩ := shrunk.fields other before gone
        exact lost (safe object index (.inr same))
      have absent : handle ∉ left := fun member => Finset.notMem_erase _ _ (shrunk.subset member)
      have here : after.Present handle := shrunk.present present fun object index same => safe object index (.inl same)
      obtain ⟨pointer, block, refers, found⟩ := settled.counted.denotes other listed
      have low := settled.counted.held pointer block found (Finset.notMem_empty pointer)
      have fits : block.refcount < intMax := by
        obtain ⟨before, foundBefore, _⟩ := shrunk.blocks pointer block found
        have refersBefore := (congrFun shrunk.ctrl other).symm.trans refers
        have total := sound.counted.counts pointer before foundBefore
        have most := sound.counted.small pointer before foundBefore
        have subset : left ⊆ state.handles := shrunk.subset.trans (Finset.erase_subset _ _)
        rw [settled.counted.counts pointer block found, shrunk.ctrl]
        rcases room pointer before refersBefore foundBefore with small | ⟨dropped, member, goes, shares⟩
        · have fewer : references left state.ctrl (some pointer) ≤ _ := references_mono subset
          omega
        · have fewer := references_lt subset member shares (sound.dropped_gone settled goes)
          omega
      rw [released]
      have adopted := adopt_eq (settled.owned.present other listed) here refers found low fits
      change Served (adopt after handle other)
      rw [adopted]
      refine .done (Sound.of_holders (settled.counted.take absent listed refers found fits)
        (settled.owned.take here found fun object index same => Option.some.inj same) ?_)
      intro each inside
      by_cases same : Handle.var each = handle
      · exact same ▸ Finset.mem_insert_self _ _
      · apply Finset.mem_insert_of_mem
        apply Classical.byContradiction
        intro gone
        have before : Handle.var each ∈ state.handles.erase handle := by
          refine Finset.mem_erase.mpr ⟨same, sound.mem_handles.mpr ?_⟩
          change each ∈ state.scope
          rw [← shrunk.scope]
          exact inside
        obtain ⟨_, _, ⟨⟩, _⟩ := shrunk.fields _ before gone
    · rw [if_neg differs]
      exact .done sound

end Sound

/-! ### Construction -/

theorem Counted.owns_construct {closing : Finset Nat} {ptr : Option Nat} {position : Nat}
    (counted : Counted state holders closing) :
    (SharedPtr.construct state handle ptr).Owns position object ↔
      (position = state.nextCtrl ∧ ptr = some object) ∨ state.Owns position object := by
  have unused : ¬ state.Owns state.nextCtrl object := by
    rintro ⟨block, found, _⟩
    exact Nat.lt_irrefl _ (counted.bounded _ block found)
  by_cases here : position = state.nextCtrl
  · subst here
    simp [State.Owns, SharedPtr.construct] at unused ⊢
    exact fun block found ptr => absurd ptr (unused block found)
  · simp [State.Owns, SharedPtr.construct, here]

/-- The fields of a new object, each with a control block of its own. -/
structure Fielded (state after : State) (holders : Finset Handle) (object count : Nat) : Prop where
  counted : Counted after (holders ∪ (Finset.range count).image (.field object)) ∅
  owns : ∀ pointer other, after.Owns pointer other ↔ state.Owns pointer other
  objects : after.objects = state.objects
  scope : after.scope = state.scope
  nextObject : after.nextObject = state.nextObject

theorem constructFields_fielded (counted : Counted state holders ∅)
    (fresh : ∀ index, .field object index ∉ holders) (count : Nat) :
    Fielded state (constructFields object count state) holders object count := by
  induction count with
  | zero => exact ⟨by simpa [constructFields] using counted, fun _ _ => Iff.rfl, rfl, rfl, rfl⟩
  | succ count ih =>
      have absent : Handle.field object count ∉ holders ∪ (Finset.range count).image (.field object) := by
        simp [fresh count]
      refine ⟨?_, ?_, ih.objects, ih.scope, ih.nextObject⟩
      · have next := ih.counted.construct absent none
        rwa [← Finset.union_insert, ← Finset.image_insert, ← Finset.range_add_one] at next
      · intro pointer other
        rw [constructFields, ih.counted.owns_construct, ih.owns]
        simp

theorem Owned.construct {closing : Finset Nat} {loose : Option Handle} (counted : Counted state holders closing)
    (owned : Owned state holders closing loose) (present : state.Present handle) :
    Owned (SharedPtr.construct state handle none) (insert handle holders) closing loose := by
  have same : ∀ position object,
      (SharedPtr.construct state handle none).Owns position object ↔ state.Owns position object := by
    intro position object
    rw [counted.owns_construct]
    simp
  refine ⟨?_, ?_, ?_, ?_, ?_, owned.bounded⟩
  · intro each member
    rcases Finset.mem_insert.mp member with rfl | listed
    · exact present
    · exact owned.present each listed
  · intro object fields there
    obtain ⟨position, owns⟩ := owned.owner object fields there
    exact ⟨position, (same position object).mpr owns⟩
  · intro position object owns
    exact owned.object position object ((same position object).mp owns)
  · intro position second object first last
    exact owned.once position second object ((same position object).mp first) ((same second object).mp last)
  · intro position object fields there owns opened index inside
    exact (owned.full position object fields there ((same position object).mp owns) opened index inside).imp_left
      (Finset.mem_insert_of_mem ·)

namespace Sound

theorem construct_null (sound : Sound state) {name : Nat} (fresh : name ∉ state.scope) :
    Sound (SharedPtr.construct { state with scope := insert name state.scope } (.var name) none) := by
  let extended : State := { state with scope := insert name state.scope }
  have absent : Handle.var name ∉ state.handles := fun member => fresh (sound.mem_handles.mp member)
  have counted : Counted extended state.handles ∅ := sound.counted.congr rfl rfl rfl
  have owned : Owned extended state.handles ∅ none := by
    refine sound.owned.rescope _ ?_ (by rintro _ _ ⟨⟩)
    intro each member
    exact Finset.mem_insert_of_mem (sound.mem_handles.mp member)
  refine Sound.of_holders (counted.construct absent none) (owned.construct counted (Finset.mem_insert_self name _)) ?_
  intro each inside
  rcases Finset.mem_insert.mp inside with rfl | before
  · exact Finset.mem_insert_self _ _
  · exact Finset.mem_insert_of_mem (sound.mem_handles.mpr before)

theorem construct_object (sound : Sound state) {name : Nat} (fresh : name ∉ state.scope) (fields : Nat) :
    Sound (SharedPtr.construct { (newObject state fields).2 with scope := insert name (newObject state fields).2.scope }
      (.var name) (some (newObject state fields).1)) := by
  let base : State := { state with
    objects := Function.update state.objects state.nextObject (some fields), nextObject := state.nextObject + 1 }
  have outside : ∀ index, Handle.field state.nextObject index ∉ state.handles := by
    intro index member
    obtain ⟨count, found, _⟩ := sound.mem_handles.mp member
    exact Nat.lt_irrefl _ (sound.owned.bounded _ count found)
  have before : Counted base state.handles ∅ := sound.counted.congr rfl rfl rfl
  have fielded := constructFields_fielded before outside fields
  change Sound (SharedPtr.construct { constructFields state.nextObject fields base with
    scope := insert name (constructFields state.nextObject fields base).scope } (.var name) (some state.nextObject))
  generalize constructFields state.nextObject fields base = built at fielded ⊢
  let extended : State := { built with scope := insert name built.scope }
  have counted : Counted extended (state.handles ∪ (Finset.range fields).image (.field state.nextObject)) ∅ :=
    fielded.counted.congr rfl rfl rfl
  have absent : Handle.var name ∉ state.handles ∪ (Finset.range fields).image (.field state.nextObject) := by
    simp only [Finset.mem_union, sound.mem_handles, Finset.mem_image, reduceCtorEq, and_false, exists_false, or_false]
    exact fresh
  have owns : ∀ position other, (SharedPtr.construct extended (.var name) (some state.nextObject)).Owns position other ↔
      (position = built.nextCtrl ∧ state.nextObject = other) ∨ state.Owns position other := by
    intro position other
    rw [counted.owns_construct, Option.some.injEq]
    exact or_congr_right (fielded.owns position other)
  have objects : ∀ other, built.objects other = if other = state.nextObject then some fields else state.objects other := by
    intro other
    rw [fielded.objects]
    exact Function.update_apply ..
  have old : ∀ position other, state.Owns position other → other ≠ state.nextObject := by
    rintro position other owner rfl
    obtain ⟨count, found⟩ := sound.owned.object position _ owner
    exact Nat.lt_irrefl _ (sound.owned.bounded _ count found)
  refine Sound.of_holders (counted.construct absent _) ⟨?_, ?_, ?_, ?_, ?_, ?_⟩ ?_
  · intro each member
    rcases Finset.mem_insert.mp member with rfl | member
    · exact Finset.mem_insert_self name _
    rcases Finset.mem_union.mp member with before | new
    · have present := sound.mem_handles.mp before
      cases each with
      | var other => exact Finset.mem_insert_of_mem (fielded.scope.symm ▸ present)
      | field other index =>
          obtain ⟨count, found, inside⟩ := present
          have differs : other ≠ state.nextObject := Nat.ne_of_lt (sound.owned.bounded other count found)
          exact ⟨count, ((objects other).trans (if_neg differs)).trans found, inside⟩
    · obtain ⟨index, inside, rfl⟩ := Finset.mem_image.mp new
      exact ⟨fields, (objects _).trans (if_pos rfl), Finset.mem_range.mp inside⟩
  · intro other count found
    change built.objects other = some count at found
    rw [objects] at found
    split_ifs at found with here
    · exact ⟨built.nextCtrl, (owns _ _).mpr (.inl ⟨rfl, here.symm⟩)⟩
    · obtain ⟨position, owner⟩ := sound.owned.owner other count found
      exact ⟨position, (owns _ _).mpr (.inr owner)⟩
  · intro position other owner
    rcases (owns position other).mp owner with ⟨_, rfl⟩ | owner
    · exact ⟨fields, (objects _).trans (if_pos rfl)⟩
    · obtain ⟨count, found⟩ := sound.owned.object position other owner
      exact ⟨count, ((objects other).trans (if_neg (old position other owner))).trans found⟩
  · intro position second other first last
    rcases (owns position other).mp first with ⟨rfl, rfl⟩ | first <;>
      rcases (owns second _).mp last with ⟨rfl, same⟩ | last
    · rfl
    · exact absurd rfl (old _ _ last)
    · exact absurd same.symm (old _ _ first)
    · exact sound.owned.once position second other first last
  · intro position other count found owner opened index inside
    change built.objects other = some count at found
    rw [objects] at found
    refine .inl (Finset.mem_insert_of_mem (Finset.mem_union.mpr ?_))
    split_ifs at found with here
    · cases found
      exact .inr (Finset.mem_image.mpr ⟨index, Finset.mem_range.mpr inside, by rw [here]⟩)
    · rcases (owns position other).mp owner with ⟨_, same⟩ | owner
      · exact absurd same.symm here
      · exact .inl ((sound.owned.full position other count found owner opened index inside).resolve_right
          (Option.some_ne_none _).symm)
  · intro other count found
    change built.objects other = some count at found
    rw [objects] at found
    change other < built.nextObject
    rw [fielded.nextObject]
    split_ifs at found with here
    · exact here ▸ Nat.lt_succ_self _
    · exact Nat.lt_succ_of_lt (sound.owned.bounded other count found)
  · intro each inside
    rcases Finset.mem_insert.mp inside with rfl | before
    · exact Finset.mem_insert_self _ _
    · apply Finset.mem_insert_of_mem
      apply Finset.mem_union_left
      rw [fielded.scope] at before
      exact sound.mem_handles.mpr before

theorem construct (sound : Sound state) (name : Nat) (fields : Option Nat) :
    Served (perform state (.construct name fields)) := by
  simp only [perform]
  by_cases listed : name ∈ state.scope
  · rw [if_pos listed]
    exact .refused
  · rw [if_neg listed]
    cases fields with
    | none => exact .done (sound.construct_null listed)
    | some fields => exact .done (sound.construct_object listed fields)

theorem perform (sound : Sound state) {call : Call} (met : Outlasting state call) : Served (perform state call) := by
  cases call with
  | construct name fields => exact sound.construct name fields
  | copy name other => exact sound.copy name other met
  | assign handle other => exact sound.assign handle other met
  | destroy name => exact sound.destroy name

theorem start : Sound State.start := by
  have counted : Counted State.start ∅ ∅ := by constructor <;> simp [State.start]
  have owned : Owned State.start ∅ ∅ none := by constructor <;> simp [State.start, State.Owns]
  exact Sound.of_holders counted owned (by simp [State.start])

end Sound

/-- While no assignment deletes the object that one of its handles is in, every object and control block
is there as long as a handle refers to it, the counts are those of the handles, and nothing is accessed
that is not there. -/
theorem sound_while_outlasting (calls : List Call) (meets : Meets step Outlasting State.start calls) (after : State)
    (completed : run step State.start calls = some after) :
    Sound after ∧ ∀ call stop, Outlasting after call → perform after call = .error stop → stop = .refused := by
  have sound : Sound after := by
    refine run_invariant_meeting Sound ?_ Sound.start meets completed
    intro state call next sound met stepped
    have served := sound.perform met
    change (perform state call).toOption = some next at stepped
    generalize perform state call = result at served stepped
    cases served with
    | done sound =>
        cases stepped
        exact sound
    | refused => cases stepped
  refine ⟨sound, fun call stop met failed => ?_⟩
  have served := sound.perform met
  rw [failed] at served
  cases served
  rfl

theorem sound_while_outlasting_field :
    ∃ after, run step State.start [.construct 0 (some 1), .construct 1 none, .assign (.field 0 0) (.var 1)] = some after ∧
      Sound after := by
  have meets : Meets step Outlasting State.start
      [.construct 0 (some 1), .construct 1 none, .assign (.field 0 0) (.var 1)] := by
    refine ⟨trivial, ?_⟩
    rintro _ ⟨⟩
    refine ⟨trivial, ?_⟩
    rintro _ ⟨⟩
    refine ⟨fun _ => ⟨?_, ?_⟩, fun _ _ => trivial⟩
    · rintro object index (⟨⟨⟩⟩ | ⟨⟨⟩⟩) ⟨pointer, ⟨block, found, ptr⟩, all⟩
      have owner : pointer = 1 := by
        clear all
        change Function.update (Function.update (Function.update (fun _ => none) 0 (some ⟨none, 1⟩)) 1
          (some ⟨some 0, 1⟩)) 2 (some ⟨none, 1⟩) pointer = some block at found
        simp only [Function.update_apply] at found
        split_ifs at found with last second first
        · cases found
          cases ptr
        · exact second
        · cases found
          cases ptr
      subst owner
      have dropped := all (.var 0) (by decide) rfl
      cases dropped
    · rintro pointer block ⟨⟩ ⟨⟩
      exact .inl (by decide)
  exact ⟨_, rfl, (sound_while_outlasting _ meets _ rfl).1⟩

/-- `p = p->next` -/
theorem not_sound : ¬ ∀ calls after, run step State.start calls = some after →
    Sound after ∧ ∀ call stop, perform after call = .error stop → stop = .refused := by
  intro sound
  have faultless := (sound [.construct 0 (some 1), .construct 1 (some 1), .assign (.field 0 0) (.var 1), .destroy 1] _ rfl).2
  cases faultless (.assign (.var 0) (.field 0 0)) .fault rfl

end HundredDays.SharedPtr
