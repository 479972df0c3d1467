import HundredDays.CowString.Model
import HundredDays.Data.References
import HundredDays.Semantics.Run

namespace HundredDays.CowString

open HundredDays.Data HundredDays.Semantics

/-! A block is shared by the handles that denote its characters, and its count says how
many there are, so that a handle that is written has its block alone. -/

variable {state after : State} {values : Values} {holders : Finset Nat} {value : Nat → List UInt8}
  {handle other pointer index : Nat} {block : StringData}

/-- What is copied of a string is what stands before its first 0, and that 0. -/
theorem take_terminated {str : List UInt8} (terminated : 0 ∈ str) :
    str.take (str.idxOf 0 + 1) = str.takeWhile (· ≠ 0) ++ [0] := by
  induction str with
  | nil => cases terminated
  | cons char rest ih =>
      by_cases ends : char = 0
      · simp [ends]
      · have later : 0 ∈ rest := (List.mem_cons.mp terminated).resolve_left (Ne.symm ends)
        rw [List.idxOf_cons_ne _ ends, List.take_succ_cons, ih later, List.takeWhile_cons_of_pos (by simpa using ends),
          List.cons_append]

/-- The handles among `holders` denote strings by their blocks, and every block has one. -/
structure Sharing (state : State) (holders : Finset Nat) (value : Nat → List UInt8) : Prop where
  denotes : ∀ handle ∈ holders, ∃ pointer block, state.buffer handle = some pointer ∧
    state.blocks pointer = some block ∧ block.data = value handle ++ [0]
  lengths : ∀ pointer block, state.blocks pointer = some block → block.data.length = block.length + 1
  counts : ∀ pointer block, state.blocks pointer = some block →
    block.refCount = references holders state.buffer (some pointer)
  held : ∀ pointer block, state.blocks pointer = some block → 0 < block.refCount
  bounded : ∀ pointer block, state.blocks pointer = some block → pointer < state.allocated

namespace Sharing

/-- The block of a handle. -/
theorem block_of (sharing : Sharing state holders value) (member : handle ∈ holders) :
    ∃ pointer block, state.buffer handle = some pointer ∧ state.blocks pointer = some block ∧
      block.data = value handle ++ [0] ∧ block.length = (value handle).length ∧
      block.refCount = references holders state.buffer (some pointer) := by
  obtain ⟨pointer, block, buffer, found, data⟩ := sharing.denotes handle member
  have length := sharing.lengths pointer block found
  rw [data, List.length_append, List.length_singleton, Nat.add_right_cancel_iff] at length
  exact ⟨pointer, block, buffer, found, data, length.symm, sharing.counts pointer block found⟩

/-- One block changes, and with it the handles that refer to it. -/
theorem change (sharing : Sharing state holders value) (pointer : Nat) {nextHolders : Finset Nat} {nextValue : Nat → List UInt8}
    {changed : Option StringData} (blocks : after.blocks = Function.update state.blocks pointer changed)
    (bounded : pointer < after.allocated) (grown : state.allocated ≤ after.allocated)
    (own : ∀ block, changed = some block → block.data.length = block.length + 1 ∧
      block.refCount = references nextHolders after.buffer (some pointer) ∧ 0 < block.refCount)
    (others : ∀ position block, position ≠ pointer → state.blocks position = some block →
      references nextHolders after.buffer (some position) = references holders state.buffer (some position))
    (denotes : ∀ handle ∈ nextHolders,
      (∃ block, after.buffer handle = some pointer ∧ changed = some block ∧ block.data = nextValue handle ++ [0]) ∨
        (handle ∈ holders ∧ after.buffer handle = state.buffer handle ∧ state.buffer handle ≠ some pointer ∧
          nextValue handle = value handle)) :
    Sharing after nextHolders nextValue := by
  have found : ∀ position block, after.blocks position = some block →
      (position = pointer ∧ changed = some block) ∨ (position ≠ pointer ∧ state.blocks position = some block) := by
    intro position block same
    rw [blocks] at same
    by_cases at' : position = pointer
    · subst at'
      rw [Function.update_self] at same
      exact .inl ⟨rfl, same⟩
    · rw [Function.update_of_ne at'] at same
      exact .inr ⟨at', same⟩
  refine ⟨?_, ?_, ?_, ?_, ?_⟩
  · intro handle member
    rcases denotes handle member with ⟨block, buffer, same, data⟩ | ⟨listed, buffer, differs, data⟩
    · refine ⟨pointer, block, buffer, ?_, data⟩
      rw [blocks, Function.update_self, same]
    · obtain ⟨position, block, before, here, held⟩ := sharing.denotes handle listed
      have apart : position ≠ pointer := by
        rintro rfl
        exact differs before
      refine ⟨position, block, buffer.trans before, ?_, by rw [held, data]⟩
      rw [blocks, Function.update_of_ne apart, here]
  · intro position block same
    rcases found position block same with ⟨rfl, here⟩ | ⟨_, before⟩
    · exact (own block here).1
    · exact sharing.lengths position block before
  · intro position block same
    rcases found position block same with ⟨rfl, here⟩ | ⟨differs, before⟩
    · exact (own block here).2.1
    · rw [others position block differs before]
      exact sharing.counts position block before
  · intro position block same
    rcases found position block same with ⟨rfl, here⟩ | ⟨_, before⟩
    · exact (own block here).2.2
    · exact sharing.held position block before
  · intro position block same
    rcases found position block same with ⟨rfl, _⟩ | ⟨_, before⟩
    · exact bounded
    · exact Nat.lt_of_lt_of_le (sharing.bounded position block before) grown

/-- Giving up a string: the block goes with its last handle. -/
theorem release (sharing : Sharing state holders value) (member : handle ∈ holders) :
    ∃ after, release state handle = .ok after ∧ Sharing after (holders.erase handle) value ∧
      after.handles = state.handles ∧ after.buffer = state.buffer ∧ after.output = state.output := by
  obtain ⟨pointer, block, buffer, found, _, _, count⟩ := sharing.block_of member
  have fewer : ∀ position, references (holders.erase handle) state.buffer (some position) +
      (if pointer = position then 1 else 0) = references holders state.buffer (some position) := by
    intro position
    have erased : references (holders.erase handle) state.buffer (some position) +
        (if state.buffer handle = some position then 1 else 0) = references holders state.buffer (some position) :=
      references_erase member
    simpa only [buffer, Option.some.injEq] using erased
  have here := fewer pointer
  rw [if_pos rfl] at here
  let last : Option StringData :=
    if block.refCount - 1 = 0 then none else some { block with refCount := block.refCount - 1 }
  have released : CowString.release state handle = .ok (state.setBlock pointer last) := by
    simp only [CowString.release, buffer, State.block, found]
    rfl
  refine ⟨state.setBlock pointer last, released, ?_, rfl, rfl, rfl⟩
  refine sharing.change pointer rfl (sharing.bounded pointer block found) (Nat.le_refl _) ?_ ?_ ?_
  · intro left same
    simp only [last] at same
    split_ifs at same with gone
    cases same
    refine ⟨sharing.lengths pointer block found, ?_, Nat.pos_of_ne_zero gone⟩
    change block.refCount - 1 = references (holders.erase handle) state.buffer (some pointer)
    omega
  · intro position _ differs _
    have others := fewer position
    rwa [if_neg (Ne.symm differs), Nat.add_zero] at others
  · intro each inside
    obtain ⟨_, listed⟩ := Finset.mem_erase.mp inside
    by_cases shared : state.buffer each = some pointer
    · obtain ⟨position, held, bufferEach, foundEach, data⟩ := sharing.denotes each listed
      cases shared.symm.trans bufferEach
      cases foundEach.symm.trans found
      have positive : 0 < references (holders.erase handle) state.buffer (some pointer) :=
        references_pos.mpr ⟨each, inside, shared⟩
      have more : block.refCount - 1 ≠ 0 := by omega
      exact .inl ⟨{ block with refCount := block.refCount - 1 }, shared, if_neg more, data⟩
    · exact .inr ⟨listed, rfl, shared, rfl⟩

/-- Taking the string of another handle. -/
theorem retain (sharing : Sharing state holders value) (fresh : handle ∉ holders) (member : other ∈ holders) :
    ∃ after, retain (state.setBuffer handle (state.buffer other)) handle = .ok after ∧
      Sharing after (insert handle holders) (Function.update value handle (value other)) ∧
      after.handles = state.handles ∧ after.output = state.output := by
  obtain ⟨pointer, block, buffer, found, data, _, count⟩ := sharing.block_of member
  have more : ∀ position,
      references (insert handle holders) (state.setBuffer handle (state.buffer other)).buffer (some position) =
        references holders state.buffer (some position) + if pointer = position then 1 else 0 := by
    intro position
    have turned : (state.setBuffer handle (state.buffer other)).buffer =
        Function.update state.buffer handle (state.buffer other) := rfl
    rw [turned, references_insert_update fresh, buffer]
    simp only [Option.some.injEq]
  have retained : CowString.retain (state.setBuffer handle (state.buffer other)) handle =
      .ok ((state.setBuffer handle (state.buffer other)).setBlock pointer
        (some { block with refCount := block.refCount + 1 })) := by
    simp only [CowString.retain, State.setBuffer, Function.update_self, buffer, State.block, found]
    rfl
  refine ⟨_, retained, ?_, rfl, rfl⟩
  refine sharing.change pointer rfl (sharing.bounded pointer block found) (Nat.le_refl _) ?_ ?_ ?_
  · rintro left ⟨⟩
    refine ⟨sharing.lengths pointer block found, ?_, Nat.succ_pos _⟩
    have here := more pointer
    rw [if_pos rfl] at here
    exact (congrArg (· + 1) count).trans here.symm
  · intro position _ differs _
    have others := more position
    rwa [if_neg (Ne.symm differs), Nat.add_zero] at others
  · intro each inside
    rcases Finset.mem_insert.mp inside with rfl | listed
    · refine .inl ⟨_, ?_, rfl, ?_⟩
      · exact (Function.update_self ..).trans buffer
      · rw [Function.update_self]
        exact data
    · have differs : each ≠ handle := by
        rintro rfl
        exact fresh listed
      have same : ((state.setBuffer handle (state.buffer other)).setBlock pointer
          (some { block with refCount := block.refCount + 1 })).buffer each = state.buffer each :=
        Function.update_of_ne differs _ _
      by_cases shared : state.buffer each = some pointer
      · obtain ⟨position, held, bufferEach, foundEach, dataEach⟩ := sharing.denotes each listed
        cases shared.symm.trans bufferEach
        cases foundEach.symm.trans found
        refine .inl ⟨_, same.trans shared, rfl, ?_⟩
        rw [Function.update_of_ne differs]
        exact dataEach
      · refine .inr ⟨listed, same, shared, Function.update_of_ne differs _ _⟩

/-- What is not about the blocks and the handles may change. -/
theorem congr (sharing : Sharing state holders value) (blocks : after.blocks = state.blocks)
    (buffer : after.buffer = state.buffer) (allocated : after.allocated = state.allocated) :
    Sharing after holders value := by
  cases state
  cases after
  cases blocks
  cases buffer
  cases allocated
  exact ⟨sharing.denotes, sharing.lengths, sharing.counts, sharing.held, sharing.bounded⟩

/-- A new block for a new handle. -/
theorem new (sharing : Sharing state holders value) (fresh : handle ∉ holders) {str : List UInt8} (terminated : 0 ∈ str) :
    ∃ grown, newStringData state str = .ok (state.allocated, grown) ∧
      Sharing (grown.setBuffer handle (some state.allocated)) (insert handle holders)
        (Function.update value handle (str.takeWhile (· ≠ 0))) ∧
      references (insert handle holders) (grown.setBuffer handle (some state.allocated)).buffer
        (some state.allocated) = 1 ∧
      grown.handles = state.handles ∧ grown.output = state.output := by
  let block : StringData := { data := str.take (str.idxOf 0 + 1), length := str.idxOf 0, refCount := 1 }
  let grown : State := ({ state with allocated := state.allocated + 1 }).setBlock state.allocated (some block)
  have created : newStringData state str = .ok (state.allocated, grown) := by
    rw [newStringData, strlen, if_pos terminated]
    rfl
  have within : str.idxOf 0 < str.length := List.idxOf_lt_length_of_mem terminated
  have unused : ∀ each ∈ holders, state.buffer each ≠ some state.allocated := by
    intro each listed same
    obtain ⟨pointer, _, buffer, found, _⟩ := sharing.denotes each listed
    cases same.symm.trans buffer
    exact Nat.lt_irrefl _ (sharing.bounded _ _ found)
  have turned : (grown.setBuffer handle (some state.allocated)).buffer =
      Function.update state.buffer handle (some state.allocated) := rfl
  have more : ∀ position, references (insert handle holders)
      (grown.setBuffer handle (some state.allocated)).buffer (some position) =
        references holders state.buffer (some position) + if state.allocated = position then 1 else 0 := by
    intro position
    rw [turned, references_insert_update fresh]
    simp only [Option.some.injEq]
  have once : references (insert handle holders) (grown.setBuffer handle (some state.allocated)).buffer
      (some state.allocated) = 1 := by
    rw [more, if_pos rfl, references_eq_zero.mpr unused]
  refine ⟨grown, created, ?_, once, rfl, rfl⟩
  refine sharing.change state.allocated rfl (Nat.lt_succ_self _) (Nat.le_succ _) ?_ ?_ ?_
  · rintro left ⟨⟩
    refine ⟨?_, once.symm, Nat.one_pos⟩
    rw [List.length_take, Nat.min_eq_left within]
  · intro position _ differs _
    rw [more, if_neg (Ne.symm differs), Nat.add_zero]
  · intro each inside
    rcases Finset.mem_insert.mp inside with rfl | listed
    · refine .inl ⟨block, Function.update_self .., rfl, ?_⟩
      rw [Function.update_self]
      exact take_terminated terminated
    · have differs : each ≠ handle := by
        rintro rfl
        exact fresh listed
      exact .inr ⟨listed, Function.update_of_ne differs _ _, unused each listed, Function.update_of_ne differs _ _⟩

/-- To detach from a shared block is to give it up for a new one. -/
theorem detach (sharing : Sharing state holders value) (member : handle ∈ holders)
    (terminated : ∀ pointer block, state.buffer handle = some pointer → state.blocks pointer = some block →
      1 < block.refCount → 0 ∉ value handle) :
    ∃ after, detachIfShared state handle = .ok after ∧ Sharing after holders value ∧
      references holders after.buffer (after.buffer handle) = 1 ∧
      after.handles = state.handles ∧ after.output = state.output := by
  obtain ⟨pointer, block, buffer, found, data, _, count⟩ := sharing.block_of member
  by_cases shared : block.refCount > 1
  · obtain ⟨left, gave, kept, handles, buffers, output⟩ := sharing.release member
    have released : left = state.setBlock pointer (some { block with refCount := block.refCount - 1 }) := by
      have remains : block.refCount - 1 ≠ 0 := by omega
      simp only [CowString.release, buffer, State.block, found] at gave
      cases gave
      exact congrArg _ (if_neg remains)
    have ends : 0 ∈ block.data := by
      rw [data]
      exact List.mem_append_right _ (List.mem_singleton_self 0)
    have string : block.data.takeWhile (· ≠ 0) = value handle := by
      have none := terminated pointer block buffer found shared
      rw [data, List.takeWhile_append_of_pos, List.takeWhile_cons_of_neg (by simp), List.append_nil]
      intro char inside
      exact decide_eq_true fun same => none (same ▸ inside)
    obtain ⟨grown, created, fresh, once, handlesGrown, outputGrown⟩ := kept.new (Finset.notMem_erase handle holders) ends
    rw [Finset.insert_erase member, string, Function.update_eq_self] at fresh
    rw [Finset.insert_erase member] at once
    have turned : (grown.setBuffer handle (some left.allocated)).buffer handle = some left.allocated :=
      Function.update_self ..
    refine ⟨grown.setBuffer handle (some left.allocated), ?_, fresh, turned.symm ▸ once, ?_, ?_⟩
    · have apart : pointer ≠ state.allocated := Nat.ne_of_lt (sharing.bounded pointer block found)
      rw [newStringData, strlen, if_pos ends, released] at created
      cases created
      simp only [detachIfShared, buffer, State.block, found]
      refine (if_pos shared).trans ?_
      rw [newStringData, strlen, if_pos ends, released]
      simp only [State.setBlock, State.setBuffer]
      rw [Function.update_comm apart]
      rfl
    · exact handlesGrown.trans handles
    · exact outputGrown.trans output
  · have alone : detachIfShared state handle = .ok state := by
      simp only [detachIfShared, buffer, State.block, found]
      exact if_neg shared
    refine ⟨state, alone, sharing, ?_, rfl, rfl⟩
    have positive := sharing.held pointer block found
    rw [buffer, ← count]
    omega

/-- A character of a string that is alone in its block. -/
theorem setCharacter (sharing : Sharing state holders value) (member : handle ∈ holders)
    (once : references holders state.buffer (state.buffer handle) = 1) (within : index < (value handle).length)
    (char : UInt8) :
    ∃ after, setCharacter state handle index char = .ok after ∧
      Sharing after holders (Function.update value handle ((value handle).set index char)) ∧
      after.handles = state.handles ∧ after.output = state.output := by
  obtain ⟨pointer, block, buffer, found, data, length, count⟩ := sharing.block_of member
  have lengths := sharing.lengths pointer block found
  have inside : index < block.data.length := by omega
  have written : CowString.setCharacter state handle index char =
      .ok (state.setBlock pointer (some { block with data := block.data.set index char })) := by
    simp only [CowString.setCharacter, buffer, State.block, found]
    exact if_pos inside
  refine ⟨_, written, ?_, rfl, rfl⟩
  refine sharing.change pointer rfl (sharing.bounded pointer block found) (Nat.le_refl _) ?_ ?_ ?_
  · rintro left ⟨⟩
    exact ⟨by rw [List.length_set, lengths], count, sharing.held pointer block found⟩
  · intro position _ _ _
    rfl
  · intro each listed
    by_cases same : each = handle
    · subst same
      refine .inl ⟨_, buffer, rfl, ?_⟩
      rw [Function.update_self, data, List.set_append_left _ _ within]
    · refine .inr ⟨listed, rfl, fun shared => same ?_, Function.update_of_ne same _ _⟩
      exact eq_of_references_one once member rfl listed (shared.trans buffer.symm)

/-- The assertion of `operator[]` compares with the length of the string. -/
theorem assertIndex (sharing : Sharing state holders value) (member : handle ∈ holders) (index : Nat) :
    assertIndex state handle index = if index < (value handle).length then .ok () else .error .refused := by
  obtain ⟨pointer, block, buffer, found, _, length, _⟩ := sharing.block_of member
  simp only [CowString.assertIndex, buffer, State.block, found, ← length]
  rfl

theorem character (sharing : Sharing state holders value) (member : handle ∈ holders)
    (within : index < (value handle).length) : character state handle index = .ok ((value handle)[index]) := by
  obtain ⟨pointer, block, buffer, found, data, _, _⟩ := sharing.block_of member
  have char : block.data[index]? = some ((value handle)[index]) := by
    rw [data, List.getElem?_append_left within, List.getElem?_eq_getElem within]
  simp only [CowString.character, buffer, State.block, found, bind, Except.bind, char]
  rfl

end Sharing

/-! ### Runs -/

/-- Every handle denotes what the copies by value hold, and so has been read. -/
structure Isolated (state : State) (values : Values) : Prop where
  sharing : Sharing state state.handles values.value
  handles : state.handles = values.handles
  output : state.output = values.output

/-- A call is answered as the copies by value answer it, and nothing that is not there is accessed. -/
inductive Answered : Except Stop State → Option Values → Prop where
  | accepted {after : State} {next : Values} (isolated : Isolated after next) : Answered (.ok after) (some next)
  | refused : Answered (.error .refused) none

/-- No `operator[]` that is not `const` is called on a shared string with a 0 before its end. -/
def Terminated (state : State) : Call → Prop
  | .write handle _ _ | .access handle _ =>
      ∀ pointer block, state.buffer handle = some pointer → state.blocks pointer = some block →
        1 < block.refCount → 0 ∉ block.data.take block.length
  | _ => True

namespace Isolated

theorem construct (isolated : Isolated state values) (handle : Nat) (str : List UInt8) :
    Answered (perform state (.construct handle str)) (values.step (.construct handle str)) := by
  simp only [perform, Values.step, ← isolated.handles]
  split_ifs with listed
  · exact .refused
  · have ends : 0 ∈ str ++ [0] := List.mem_append_right _ (List.mem_singleton_self 0)
    obtain ⟨grown, created, sharing, _, handles, output⟩ := isolated.sharing.new listed ends
    have string : (str ++ [0]).takeWhile (· ≠ 0) = str.takeWhile (· ≠ 0) := by
      rw [List.takeWhile_append]
      split_ifs with whole
      · rw [List.takeWhile_cons_of_neg (by simp), List.append_nil]
        exact ((List.takeWhile_prefix _).eq_of_length whole).symm
      · rfl
    rw [string] at sharing
    rw [created]
    have listing : insert handle grown.handles = insert handle state.handles := congrArg _ handles
    refine .accepted ⟨?_, listing, output.trans isolated.output⟩
    exact (listing ▸ sharing).congr rfl rfl rfl

theorem copy (isolated : Isolated state values) (handle other : Nat) :
    Answered (perform state (.copy handle other)) (values.step (.copy handle other)) := by
  simp only [perform, Values.step, ← isolated.handles]
  split_ifs with unlisted
  · exact .refused
  · obtain ⟨fresh, member⟩ := not_or.mp unlisted
    have listed := not_not.mp member
    let extended : State := { state with handles := insert handle state.handles }
    have before : Sharing extended state.handles values.value := isolated.sharing.congr rfl rfl rfl
    obtain ⟨after, retained, sharing, handles, output⟩ := before.retain fresh listed
    have taken : CowString.retain (extended.setBuffer handle (state.buffer other)) handle = .ok after := retained
    rw [taken]
    exact .accepted ⟨handles.symm ▸ sharing, handles, output.trans isolated.output⟩

theorem assign (isolated : Isolated state values) (handle other : Nat) :
    Answered (perform state (.assign handle other)) (values.step (.assign handle other)) := by
  simp only [perform, Values.step, ← isolated.handles]
  by_cases unlisted : handle ∉ state.handles ∨ other ∉ state.handles
  · rw [if_pos unlisted, if_pos unlisted]
    exact .refused
  · rw [if_neg unlisted, if_neg unlisted]
    obtain ⟨first, second⟩ := not_or.mp unlisted
    have member := not_not.mp first
    have listed := not_not.mp second
    by_cases differs : handle ≠ other
    · obtain ⟨left, released, kept, handles, buffers, output⟩ := isolated.sharing.release member
      have remains : other ∈ state.handles.erase handle := Finset.mem_erase.mpr ⟨differs.symm, listed⟩
      obtain ⟨after, retained, sharing, handlesAfter, outputAfter⟩ :=
        kept.retain (Finset.notMem_erase handle state.handles) remains
      rw [Finset.insert_erase member] at sharing
      have same := handlesAfter.trans handles
      rw [if_pos differs, released]
      have taken : (Except.ok left >>= fun state =>
          CowString.retain (state.setBuffer handle (state.buffer other)) handle) = .ok after := retained
      rw [taken]
      exact .accepted ⟨same.symm ▸ sharing, same, (outputAfter.trans output).trans isolated.output⟩
    · rw [if_neg differs]
      have self : Function.update values.value handle (values.value other) = values.value := by
        rw [← not_not.mp differs, Function.update_eq_self]
      exact .accepted ⟨self.symm ▸ isolated.sharing, rfl, isolated.output⟩

/-- Before its end a string with a shared block has no 0. -/
theorem terminated (isolated : Isolated state values) (member : handle ∈ state.handles)
    (none : ∀ pointer block, state.buffer handle = some pointer → state.blocks pointer = some block →
      1 < block.refCount → 0 ∉ block.data.take block.length) :
    ∀ pointer block, state.buffer handle = some pointer → state.blocks pointer = some block →
      1 < block.refCount → 0 ∉ values.value handle := by
  intro pointer block buffer found shared
  obtain ⟨position, held, bufferHeld, foundHeld, data, length, _⟩ := isolated.sharing.block_of member
  cases buffer.symm.trans bufferHeld
  cases found.symm.trans foundHeld
  have before := none pointer block buffer found shared
  rwa [data, length, List.take_left] at before

theorem write (isolated : Isolated state values) (handle index : Nat) (char : UInt8)
    (met : Terminated state (.write handle index char)) :
    Answered (perform state (.write handle index char)) (values.step (.write handle index char)) := by
  simp only [perform, Values.step, ← isolated.handles]
  by_cases member : handle ∈ state.handles
  · rw [if_neg (not_not.mpr member), isolated.sharing.assertIndex member]
    by_cases within : index < (values.value handle).length
    · rw [if_pos within, if_pos ⟨member, within⟩]
      obtain ⟨alone, detached, kept, once, handles, output⟩ :=
        isolated.sharing.detach member (isolated.terminated member met)
      obtain ⟨after, written, sharing, handlesAfter, outputAfter⟩ := kept.setCharacter member once within char
      have done : (Except.ok () >>= fun _ : Unit => detachIfShared state handle >>= fun state =>
          CowString.setCharacter state handle index char) = .ok after := by
        rw [detached]
        exact written
      rw [done]
      have same := handlesAfter.trans handles
      exact .accepted ⟨same.symm ▸ sharing, same, (outputAfter.trans output).trans isolated.output⟩
    · rw [if_neg within, if_neg fun both => within both.2]
      exact .refused
  · rw [if_pos member, if_neg fun both => member both.1]
    exact .refused

theorem access (isolated : Isolated state values) (handle index : Nat) (met : Terminated state (.access handle index)) :
    Answered (perform state (.access handle index)) (values.step (.access handle index)) := by
  simp only [perform, Values.step, ← isolated.handles]
  by_cases member : handle ∈ state.handles
  · rw [if_neg (not_not.mpr member), if_neg (not_not.mpr member), isolated.sharing.assertIndex member]
    by_cases within : index < (values.value handle).length
    · rw [if_pos within, List.getElem?_eq_getElem within]
      obtain ⟨alone, detached, kept, _, handles, output⟩ :=
        isolated.sharing.detach member (isolated.terminated member met)
      have read := kept.character member within
      rw [detached]
      have done : (Except.ok () >>= fun _ : Unit => Except.ok alone >>= fun state =>
          CowString.character state handle index >>= fun char =>
            pure { state with output := state.output ++ [char] }) =
          (.ok { alone with output := alone.output ++ [(values.value handle)[index]] } : Except Stop State) := by
        change (CowString.character alone handle index >>= _) = _
        rw [read]
        rfl
      rw [done]
      have listing : alone.handles = state.handles := handles
      refine .accepted ⟨(listing ▸ kept : Sharing alone alone.handles values.value).congr rfl rfl rfl,
        handles, ?_⟩
      exact congrArg (· ++ _) (output.trans isolated.output)
    · rw [if_neg within, List.getElem?_eq_none (Nat.le_of_not_lt within)]
      exact .refused
  · rw [if_pos member, if_pos member]
    exact .refused

theorem read (isolated : Isolated state values) (handle index : Nat) :
    Answered (perform state (.read handle index)) (values.step (.read handle index)) := by
  simp only [perform, Values.step, ← isolated.handles]
  by_cases member : handle ∈ state.handles
  · rw [if_neg (not_not.mpr member), if_neg (not_not.mpr member), isolated.sharing.assertIndex member]
    by_cases within : index < (values.value handle).length
    · rw [if_pos within, List.getElem?_eq_getElem within, isolated.sharing.character member within]
      refine .accepted ⟨isolated.sharing.congr rfl rfl rfl, rfl, ?_⟩
      exact congrArg (· ++ _) isolated.output
    · rw [if_neg within, List.getElem?_eq_none (Nat.le_of_not_lt within)]
      exact .refused
  · rw [if_pos member, if_pos member]
    exact .refused

theorem destroy (isolated : Isolated state values) (handle : Nat) :
    Answered (perform state (.destroy handle)) (values.step (.destroy handle)) := by
  simp only [perform, Values.step, ← isolated.handles]
  by_cases member : handle ∈ state.handles
  · rw [if_neg (not_not.mpr member), if_neg (not_not.mpr member)]
    obtain ⟨left, released, kept, handles, _, output⟩ := isolated.sharing.release member
    rw [released]
    have listing : left.handles.erase handle = state.handles.erase handle := congrArg (·.erase handle) handles
    exact .accepted ⟨(listing ▸ kept : Sharing left (left.handles.erase handle) values.value).congr rfl rfl rfl,
      listing, output.trans isolated.output⟩
  · rw [if_pos member, if_pos member]
    exact .refused

theorem perform (isolated : Isolated state values) {call : Call} (met : Terminated state call) :
    Answered (perform state call) (values.step call) := by
  cases call with
  | construct handle str => exact isolated.construct handle str
  | copy handle other => exact isolated.copy handle other
  | assign handle other => exact isolated.assign handle other
  | write handle index char => exact isolated.write handle index char met
  | access handle index => exact isolated.access handle index met
  | read handle index => exact isolated.read handle index
  | destroy handle => exact isolated.destroy handle

theorem start : Isolated State.start Values.start :=
  ⟨⟨by simp [State.start], by simp [State.start], by simp [State.start], by simp [State.start], by simp [State.start]⟩,
    rfl, rfl⟩

end Isolated

theorem Answered.related {result : Except Stop State} {answer : Option Values} (answered : Answered result answer) :
    Option.Rel Isolated result.toOption answer := by
  cases answered with
  | accepted isolated => exact .some isolated
  | refused => exact .none

theorem Answered.ne_fault {result : Except Stop State} {answer : Option Values} (answered : Answered result answer) :
    result ≠ .error .fault := by
  cases answered <;> simp

/-- Strings that are terminated where they are detached are isolated: each denotes what a copy by
value would, the counts are those of the handles, and no index that the assertion lets pass is outside. -/
theorem isolated_while_terminated (calls : List Call) (meets : Meets step Terminated State.start calls) :
    Option.Rel Isolated (run step State.start calls) (run Values.step Values.start calls) ∧
      ∀ state call, run step State.start calls = some state → Terminated state call →
        perform state call ≠ .error .fault := by
  have related : Option.Rel Isolated (run step State.start calls) (run Values.step Values.start calls) := by
    apply run_lockstep_meeting _ Isolated.start meets
    intro state values call isolated met
    exact (isolated.perform met).related
  refine ⟨related, ?_⟩
  intro state call completed met
  rw [completed] at related
  generalize run Values.step Values.start calls = final at related
  cases related with
  | some isolated => exact (isolated.perform met).ne_fault

theorem isolated_while_terminated_copy :
    Option.Rel Isolated
      (run step State.start [.construct 0 [97, 98], .copy 1 0, .write 1 0 120, .assign 0 1, .destroy 1])
      (run Values.step Values.start [.construct 0 [97, 98], .copy 1 0, .write 1 0 120, .assign 0 1, .destroy 1]) := by
  have meets : Meets step Terminated State.start
      [.construct 0 [97, 98], .copy 1 0, .write 1 0 120, .assign 0 1, .destroy 1] := by
    refine ⟨trivial, ?_⟩
    rintro _ ⟨⟩
    refine ⟨trivial, ?_⟩
    rintro _ ⟨⟩
    refine ⟨?_, ?_⟩
    · rintro _ _ ⟨⟩ ⟨⟩ _
      decide
    · rintro _ ⟨⟩
      refine ⟨trivial, ?_⟩
      rintro _ ⟨⟩
      exact ⟨trivial, fun _ _ => trivial⟩
  exact (isolated_while_terminated _ meets).1

/-- What follows a 0 in a shared string is lost to the handle that detaches. -/
theorem not_isolated : ¬ ∀ calls,
    Option.Rel Isolated (run step State.start calls) (run Values.step Values.start calls) ∧
      ∀ state call, run step State.start calls = some state → perform state call ≠ .error .fault := by
  intro isolated
  obtain ⟨_, faultless⟩ := isolated [.construct 0 [97, 98], .write 0 0 0, .copy 1 0]
  exact faultless _ (.write 1 1 99) rfl rfl

end HundredDays.CowString
