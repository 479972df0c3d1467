import HundredDays.LeakTracker.Records

namespace HundredDays.LeakTracker

open HundredDays.Semantics State

/-! The tracker lists exactly the live blocks, and its reports are exact, in all runs in
which a delete that was reported as invalid frees nothing that is allocated by then.

At each time a block is in the table, or in the hands of one thread that has not recorded
it yet or has removed its record already.
-/

variable {Thread : Type} [DecidableEq Thread] {state after : State Thread} {thread : Thread} {phase : Phase}
  {place other : Option Thread} {ptr : Address} {entry : AllocEntry}

/-- The block at this address is in the hands of a thread in this phase. -/
def Phase.Holds : Phase → Address → Prop
  | .recording entry, ptr => entry.ptr = ptr
  | .freeing given wasLive, ptr => wasLive = true ∧ given = some ptr
  | _, _ => False

/-- The block at this address is in the hands of a thread, or in the table. -/
def Holds (state : State Thread) : Option Thread → Address → Prop
  | none, ptr => isAt state.live (some ptr)
  | some thread, ptr => (state.phase thread).Holds ptr

structure Sound (state : State Thread) : Prop where
  outside : ∀ thread, state.gInsideTracker thread = false
  unique : Unique state.gAllocMap
  listed : ∀ entry, entry ∈ state.gAllocMap ↔ entry ∈ state.live
  kept : state.live ⊆ state.blocks
  recording : ∀ thread entry, state.phase thread = .recording entry → entry ∈ state.blocks
  allocated : ∀ place ptr, Holds state place ptr → isAt state.blocks (some ptr)
  covered : ∀ block ∈ state.blocks, ∃ place, Holds state place block.ptr
  apart : ∀ place other ptr, Holds state place ptr → Holds state other ptr → place = other
  distinct : ∀ block ∈ state.blocks, ∀ other ∈ state.blocks, block.ptr = other.ptr → block = other
  bounded : state.blocks.card ≤ MAX_RECORDS

/-- At most `MAX_RECORDS` blocks are allocated, and a delete of a block that was not live frees
nothing. -/
def Allowed (state : State Thread) : Action Thread → Prop
  | .malloc _ (some _) => state.blocks.card < MAX_RECORDS
  | .free thread => ∀ ptr, state.phase thread = .freeing (some ptr) false → ¬ isAt state.blocks (some ptr)
  | _ => True

omit [DecidableEq Thread] in
theorem initial_sound : Sound (initial : State Thread) where
  outside := fun _ => rfl
  unique := List.nodup_nil
  listed := by simp [initial]
  kept := fun _ member => member
  recording := by simp [initial]
  allocated := by
    intro place ptr held
    cases place with
    | none => exact held
    | some thread => exact held.elim
  covered := by simp [initial]
  apart := by
    intro place other ptr held
    cases place with
    | none =>
        obtain ⟨block, member, _⟩ := held
        exact absurd member (Finset.notMem_empty block)
    | some thread => exact held.elim
  distinct := by simp [initial]
  bounded := Nat.zero_le _

omit [DecidableEq Thread] in
theorem holds_table : Holds state none ptr ↔ isAt state.live (some ptr) := Iff.rfl

theorem holds_here (phases : after.phase = Function.update state.phase thread phase) :
    Holds after (some thread) ptr ↔ phase.Holds ptr := by
  rw [Holds, phases, Function.update_self]

theorem holds_there {bystander : Thread} (phases : after.phase = Function.update state.phase thread phase)
    (differ : bystander ≠ thread) : Holds after (some bystander) ptr ↔ Holds state (some bystander) ptr := by
  rw [Holds, Holds, phases, Function.update_of_ne differ]

/-- What the others hold stays where it is when a block that they do not hold is handed over. -/
theorem holds_bystander {bystander : Thread} {address : Address} {target : Option Thread}
    (phases : after.phase = Function.update state.phase thread phase) (differ : bystander ≠ thread)
    (apart : ∀ ptr, Holds state (some bystander) ptr → ptr ≠ address) (elsewhere : target ≠ some bystander) :
    Holds after (some bystander) ptr ↔
      (ptr ≠ address ∧ Holds state (some bystander) ptr) ∨ (ptr = address ∧ some bystander = target) := by
  rw [holds_there phases differ]
  constructor
  · exact fun held => .inl ⟨apart ptr held, held⟩
  · rintro (⟨_, held⟩ | ⟨_, same⟩)
    · exact held
    · exact absurd same.symm elsewhere

/-- A thread that goes to another phase is not the one that has a block to record. -/
theorem recording_there {bystander : Thread} (phases : after.phase = Function.update state.phase thread phase)
    (other : ∀ entry, phase ≠ .recording entry) (reached : after.phase bystander = .recording entry) :
    state.phase bystander = .recording entry ∧ bystander ≠ thread := by
  by_cases here : bystander = thread
  · rw [phases, here, Function.update_self] at reached
    exact absurd reached (other entry)
  · rw [phases, Function.update_of_ne here] at reached
    exact ⟨reached, here⟩

omit [DecidableEq Thread] in
theorem without_eq {blocks : Finset AllocEntry} {given : Option Address} (absent : ¬ isAt blocks given) :
    without blocks given = blocks := by
  rw [without, Finset.filter_eq_self]
  intro block member same
  exact absent ⟨block, member, same⟩

omit [DecidableEq Thread] in
theorem not_isAt_none {blocks : Finset AllocEntry} : ¬ isAt blocks none := by
  rintro ⟨block, _, impossible⟩
  cases impossible

namespace Sound

omit [DecidableEq Thread] in
/-- The block at an address comes into the hands of a thread, or into the table. -/
theorem handOver (sound : Sound state) (target : Option Thread) (address : Address)
    (moved : ∀ place ptr, Holds after place ptr ↔
      (ptr ≠ address ∧ Holds state place ptr) ∨ (ptr = address ∧ place = target))
    (outside : after.gInsideTracker = state.gInsideTracker) (unique : Unique after.gAllocMap)
    (listed : ∀ entry, entry ∈ after.gAllocMap ↔ entry ∈ after.live) (kept : after.live ⊆ after.blocks)
    (recording : ∀ thread entry, after.phase thread = .recording entry → entry ∈ after.blocks)
    (grows : state.blocks ⊆ after.blocks) (here : isAt after.blocks (some address))
    (only : ∀ block ∈ after.blocks, block ∈ state.blocks ∨ block.ptr = address)
    (distinct : ∀ block ∈ after.blocks, ∀ other ∈ after.blocks, block.ptr = other.ptr → block = other)
    (bounded : after.blocks.card ≤ MAX_RECORDS) : Sound after := by
  refine ⟨fun thread => by rw [outside, sound.outside], unique, listed, kept, recording, ?_, ?_, ?_, distinct, bounded⟩
  · intro place ptr held
    rcases (moved place ptr).mp held with ⟨_, before⟩ | ⟨rfl, _⟩
    · obtain ⟨block, member, same⟩ := sound.allocated place ptr before
      exact ⟨block, grows member, same⟩
    · exact here
  · intro block member
    by_cases same : block.ptr = address
    · exact ⟨target, (moved target block.ptr).mpr (.inr ⟨same, rfl⟩)⟩
    · obtain ⟨place, held⟩ := sound.covered block ((only block member).resolve_right same)
      exact ⟨place, (moved place block.ptr).mpr (.inl ⟨same, held⟩)⟩
  · intro place other ptr first second
    rcases (moved place ptr).mp first with ⟨differ, before⟩ | ⟨same, atTarget⟩
    · rcases (moved other ptr).mp second with ⟨_, beforeOther⟩ | ⟨same, _⟩
      · exact sound.apart place other ptr before beforeOther
      · exact absurd same differ
    · rcases (moved other ptr).mp second with ⟨differ, _⟩ | ⟨_, otherTarget⟩
      · exact absurd same differ
      · rw [atTarget, otherTarget]

/-- A thread goes to a phase in which it has nothing in its hands, as before. -/
theorem quiet (sound : Sound state) (phases : after.phase = Function.update state.phase thread phase)
    (before : ∀ ptr, ¬ (state.phase thread).Holds ptr) (now : ∀ ptr, ¬ phase.Holds ptr)
    (outside : after.gInsideTracker = state.gInsideTracker) (map : after.gAllocMap = state.gAllocMap)
    (live : after.live = state.live) (blocks : after.blocks = state.blocks) : Sound after := by
  have holds (place : Option Thread) (ptr : Address) : Holds after place ptr ↔ Holds state place ptr := by
    cases place with
    | none => rw [holds_table, holds_table, live]
    | some bystander =>
        by_cases here : bystander = thread
        · rw [here, holds_here phases]
          exact iff_of_false (now ptr) (before ptr)
        · exact holds_there phases here
  constructor
  · rw [outside]
    exact sound.outside
  · rw [map]
    exact sound.unique
  · rw [map, live]
    exact sound.listed
  · rw [live, blocks]
    exact sound.kept
  · intro bystander entry reached
    have other (entry : AllocEntry) : phase ≠ .recording entry := by
      rintro rfl
      exact now entry.ptr rfl
    rw [blocks]
    exact sound.recording bystander entry (recording_there phases other reached).1
  · intro place ptr held
    rw [blocks]
    exact sound.allocated place ptr ((holds place ptr).mp held)
  · intro block member
    rw [blocks] at member
    obtain ⟨place, held⟩ := sound.covered block member
    exact ⟨place, (holds place _).mpr held⟩
  · intro place other ptr first second
    exact sound.apart place other ptr ((holds place ptr).mp first) ((holds other ptr).mp second)
  · rw [blocks]
    exact sound.distinct
  · rw [blocks]
    exact sound.bounded

/-- A new block. -/
theorem malloc (sound : Sound state) (phases : after.phase = Function.update state.phase thread (.recording entry))
    (empty : ∀ ptr, ¬ (state.phase thread).Holds ptr) (outside : after.gInsideTracker = state.gInsideTracker)
    (map : after.gAllocMap = state.gAllocMap) (live : after.live = state.live)
    (blocks : after.blocks = insert entry state.blocks) (fresh : ¬ isAt state.blocks (some entry.ptr))
    (room : state.blocks.card < MAX_RECORDS) : Sound after := by
  have new : ∀ block ∈ state.blocks, block.ptr ≠ entry.ptr := fun block member same =>
    fresh ⟨block, member, by rw [same]⟩
  have elsewhere (place : Option Thread) (ptr : Address) (held : Holds state place ptr) : ptr ≠ entry.ptr := fun same =>
    fresh (sound.allocated place entry.ptr (same ▸ held))
  have grows : state.blocks ⊆ after.blocks := blocks ▸ Finset.subset_insert ..
  refine sound.handOver (some thread) entry.ptr ?_ outside (map ▸ sound.unique) ?_ ?_ ?_ grows
    ⟨entry, blocks ▸ Finset.mem_insert_self .., rfl⟩ ?_ ?_ ?_
  · intro place ptr
    cases place with
    | none =>
        rw [holds_table, live, ← holds_table]
        constructor
        · exact fun held => .inl ⟨elsewhere none ptr held, held⟩
        · rintro (⟨_, held⟩ | ⟨_, impossible⟩)
          · exact held
          · cases impossible
    | some bystander =>
        by_cases here : bystander = thread
        · subst bystander
          rw [holds_here phases]
          constructor
          · exact fun same => .inr ⟨same.symm, rfl⟩
          · rintro (⟨_, held⟩ | ⟨same, _⟩)
            · exact absurd held (empty ptr)
            · exact same.symm
        · exact holds_bystander phases here (elsewhere (some bystander)) (by simpa using Ne.symm here)
  · rw [map, live]
    exact sound.listed
  · rw [live]
    exact sound.kept.trans grows
  · intro bystander other reached
    by_cases here : bystander = thread
    · rw [phases, here, Function.update_self, Phase.recording.injEq] at reached
      rw [blocks, ← reached]
      exact Finset.mem_insert_self ..
    · rw [phases, Function.update_of_ne here] at reached
      exact grows (sound.recording bystander other reached)
  · intro block member
    rw [blocks, Finset.mem_insert] at member
    exact member.symm.imp_right (congrArg AllocEntry.ptr)
  · intro block member other memberOther same
    rw [blocks, Finset.mem_insert] at member memberOther
    rcases member with rfl | old
    · exact memberOther.elim Eq.symm fun oldOther => absurd same.symm (new other oldOther)
    · rcases memberOther with rfl | oldOther
      · exact absurd same (new block old)
      · exact sound.distinct block old other oldOther same
  · rw [blocks, Finset.card_insert_of_notMem fun member => new entry member rfl]
    exact room

/-- The record of a block that a thread has in its hands. -/
theorem record (sound : Sound state) (phases : after.phase = Function.update state.phase thread .idle)
    (doing : state.phase thread = .recording entry) (outside : after.gInsideTracker = state.gInsideTracker)
    (map : after.gAllocMap = addRecord (state.gInsideTracker thread) (some entry.ptr) entry.size entry.isArray
      state.gAllocMap)
    (live : after.live = insert entry state.live) (blocks : after.blocks = state.blocks) : Sound after := by
  have held : Holds state (some thread) entry.ptr := by rw [Holds, doing, Phase.Holds]
  have inBlocks := sound.recording thread entry doing
  have absent : ∀ recorded ∈ state.gAllocMap, recorded.ptr ≠ entry.ptr := by
    intro recorded member same
    have listed : Holds state none entry.ptr := ⟨recorded, (sound.listed recorded).mp member, by rw [same]⟩
    cases sound.apart none (some thread) entry.ptr listed held
  have room : state.gAllocMap.length < MAX_RECORDS := by
    have recorded : state.gAllocMap.toFinset ⊆ state.blocks.erase entry := by
      intro other member
      rw [List.mem_toFinset] at member
      exact Finset.mem_erase.mpr
        ⟨fun same => absent other member (by rw [same]), sound.kept ((sound.listed other).mp member)⟩
    have few := Finset.card_le_card recorded
    rw [List.toFinset_card_of_nodup (List.Nodup.of_map _ sound.unique), Finset.card_erase_of_mem inBlocks] at few
    have some_block := Finset.card_pos.mpr ⟨entry, inBlocks⟩
    have most := sound.bounded
    omega
  rw [sound.outside, addRecord_eq room] at map
  refine sound.handOver none entry.ptr ?_ outside (map ▸ sound.unique.concat absent) ?_ ?_ ?_
    (blocks ▸ Finset.Subset.refl _) ⟨entry, blocks ▸ inBlocks, rfl⟩ ?_ ?_ ?_
  · intro place ptr
    cases place with
    | none =>
        rw [holds_table, holds_table, live, isAt, isAt]
        simp only [Finset.mem_insert, exists_eq_or_imp, Option.some_inj]
        constructor
        · rintro (same | ⟨block, member, same⟩)
          · exact .inr ⟨same.symm, trivial⟩
          · refine .inl ⟨?_, block, member, same⟩
            rw [← same]
            exact absent block ((sound.listed block).mpr member)
        · rintro (⟨_, listed⟩ | ⟨same, _⟩)
          · exact .inr listed
          · exact .inl same.symm
    | some bystander =>
        by_cases here : bystander = thread
        · subst bystander
          rw [holds_here phases, Holds, doing]
          constructor
          · exact False.elim
          · rintro (⟨differ, same⟩ | ⟨_, impossible⟩)
            · exact absurd same.symm differ
            · cases impossible
        · refine holds_bystander phases here ?_ (by simp)
          rintro ptr other rfl
          exact here (Option.some.inj (sound.apart _ _ _ other held))
  · intro other
    rw [map, live, Finset.mem_insert, List.mem_append, List.mem_singleton, sound.listed, or_comm]
  · rw [live, blocks]
    exact Finset.insert_subset inBlocks sound.kept
  · intro bystander other reached
    rw [blocks]
    exact sound.recording bystander other (recording_there phases (by simp) reached).1
  · intro block member
    exact .inl (blocks ▸ member)
  · rw [blocks]
    exact sound.distinct
  · rw [blocks]
    exact sound.bounded

omit [DecidableEq Thread] in
/-- What `remove_record` finds is what is live. -/
theorem removes (sound : Sound state) (thread : Thread) (isArray : Bool) {block : AllocEntry}
    (member : block ∈ state.live) :
    (block :: (removeRecord (state.gInsideTracker thread) (some block.ptr) isArray state.gAllocMap).1).Perm
        state.gAllocMap ∧
      (removeRecord (state.gInsideTracker thread) (some block.ptr) isArray state.gAllocMap).2 =
        if block.isArray ≠ isArray then [mismatchedDelete block.ptr] else [] := by
  rw [sound.outside]
  exact removeRecord_found sound.unique ((sound.listed block).mpr member)

omit [DecidableEq Thread] in
theorem misses (sound : Sound state) (thread : Thread) (isArray : Bool) (absent : ¬ isAt state.live (some ptr)) :
    removeRecord (state.gInsideTracker thread) (some ptr) isArray state.gAllocMap =
      (state.gAllocMap, [invalidDelete ptr]) := by
  rw [sound.outside]
  apply removeRecord_missing
  intro recorded member same
  exact absent ⟨recorded, (sound.listed recorded).mp member, by rw [same]⟩

/-- The record of a block goes, and the block is in the hands of the thread that deletes it. -/
theorem remove (sound : Sound state) {given : Option Address} {isArray : Bool}
    (phases : after.phase = Function.update state.phase thread (.freeing given (isAt state.live given)))
    (doing : state.phase thread = .removing given isArray) (outside : after.gInsideTracker = state.gInsideTracker)
    (map : after.gAllocMap = (removeRecord (state.gInsideTracker thread) given isArray state.gAllocMap).1)
    (live : after.live = without state.live given) (blocks : after.blocks = state.blocks) : Sound after := by
  have empty (ptr : Address) : ¬ (state.phase thread).Holds ptr := by
    rw [doing]
    exact id
  by_cases present : isAt state.live given
  · obtain ⟨block, member, rfl⟩ := present
    have left := (sound.removes thread isArray member).1
    rw [← map] at left
    have distinct : (block.ptr :: after.gAllocMap.map AllocEntry.ptr).Nodup :=
      (left.map AllocEntry.ptr).nodup_iff.mpr sound.unique
    have gone : ∀ recorded ∈ after.gAllocMap, recorded.ptr ≠ block.ptr := by
      intro recorded inMap same
      exact (List.nodup_cons.mp distinct).1 (same ▸ List.mem_map_of_mem inMap)
    have rest (other : AllocEntry) : other ∈ after.gAllocMap ↔ other ∈ state.live ∧ other.ptr ≠ block.ptr := by
      rw [← sound.listed, ← left.mem_iff, List.mem_cons]
      constructor
      · exact fun inMap => ⟨.inr inMap, gone other inMap⟩
      · rintro ⟨rfl | inMap, differ⟩
        · exact absurd rfl differ
        · exact inMap
    have held : Holds state none block.ptr := ⟨block, member, rfl⟩
    refine sound.handOver (some thread) block.ptr ?_ outside (List.nodup_cons.mp distinct).2 ?_ ?_ ?_
      (blocks ▸ Finset.Subset.refl _) ⟨block, blocks ▸ sound.kept member, rfl⟩ ?_ ?_ ?_
    · intro place ptr
      cases place with
      | none =>
          rw [holds_table, holds_table, live, isAt, isAt]
          simp only [without, Finset.mem_filter, Ne, Option.some_inj]
          constructor
          · rintro ⟨other, ⟨inLive, differ⟩, rfl⟩
            exact .inl ⟨differ, other, inLive, rfl⟩
          · rintro (⟨differ, other, inLive, rfl⟩ | ⟨_, impossible⟩)
            · exact ⟨other, ⟨inLive, differ⟩, rfl⟩
            · cases impossible
      | some bystander =>
          by_cases here : bystander = thread
          · subst bystander
            rw [holds_here phases]
            constructor
            · intro inHands
              exact .inr ⟨(Option.some.inj inHands.2).symm, rfl⟩
            · rintro (⟨_, before⟩ | ⟨same, _⟩)
              · exact absurd before (empty ptr)
              · exact ⟨decide_eq_true ⟨block, member, rfl⟩, by rw [same]⟩
          · refine holds_bystander phases here ?_ (by simpa using Ne.symm here)
            rintro ptr other rfl
            cases sound.apart _ _ _ other held
    · intro other
      rw [rest, live, without, Finset.mem_filter, Ne, Ne, Option.some_inj]
    · rw [live, blocks]
      exact (Finset.filter_subset ..).trans sound.kept
    · intro bystander other reached
      rw [blocks]
      exact sound.recording bystander other (recording_there phases (by simp) reached).1
    · intro other inBlocks
      exact .inl (blocks ▸ inBlocks)
    · rw [blocks]
      exact sound.distinct
    · rw [blocks]
      exact sound.bounded
  · have same : without state.live given = state.live := without_eq present
    refine sound.quiet phases empty ?_ outside ?_ (live.trans same) blocks
    · rintro ptr ⟨wasLive, _⟩
      exact present (of_decide_eq_true wasLive)
    · rw [map]
      cases given with
      | none => rfl
      | some ptr => rw [sound.misses thread isArray present]

/-- A block goes out of the hands of a thread back to the allocator. -/
theorem release (sound : Sound state) {given : Option Address} {wasLive : Bool}
    (phases : after.phase = Function.update state.phase thread .idle)
    (doing : state.phase thread = .freeing given wasLive) (outside : after.gInsideTracker = state.gInsideTracker)
    (map : after.gAllocMap = state.gAllocMap) (live : after.live = state.live)
    (blocks : after.blocks = without state.blocks given)
    (allowed : ∀ ptr, state.phase thread = .freeing (some ptr) false → ¬ isAt state.blocks (some ptr)) :
    Sound after := by
  by_cases holding : ∃ ptr, given = some ptr ∧ wasLive = true
  · obtain ⟨ptr, rfl, rfl⟩ := holding
    have held : Holds state (some thread) ptr := by
      rw [Holds, doing]
      exact ⟨rfl, rfl⟩
    have mine (place : Option Thread) (differ : place ≠ some thread) (address : Address)
        (other : Holds state place address) : address ≠ ptr := by
      rintro rfl
      exact differ (sound.apart place (some thread) address other held)
    have holds (place : Option Thread) (address : Address) :
        Holds after place address ↔ Holds state place address ∧ address ≠ ptr := by
      cases place with
      | none =>
          rw [holds_table, live, ← holds_table]
          exact ⟨fun other => ⟨other, mine none (by simp) address other⟩, And.left⟩
      | some bystander =>
          by_cases here : bystander = thread
          · subst bystander
            rw [holds_here phases, Holds, doing]
            exact ⟨False.elim, fun before => absurd (Option.some.inj before.1.2).symm before.2⟩
          · rw [holds_there phases here]
            exact ⟨fun other => ⟨other, mine _ (by simpa using here) address other⟩, And.left⟩
    have member (block : AllocEntry) : block ∈ after.blocks ↔ block ∈ state.blocks ∧ block.ptr ≠ ptr := by
      rw [blocks, without, Finset.mem_filter, Ne, Ne, Option.some_inj]
    constructor
    · rw [outside]
      exact sound.outside
    · rw [map]
      exact sound.unique
    · rw [map, live]
      exact sound.listed
    · intro block listed
      rw [live] at listed
      exact (member block).mpr ⟨sound.kept listed, mine none (by simp) _ ⟨block, listed, rfl⟩⟩
    · intro bystander entry reached
      obtain ⟨recording, here⟩ := recording_there phases (by simp) reached
      have held : Holds state (some bystander) entry.ptr := by
        rw [Holds, recording]
        rfl
      exact (member entry).mpr
        ⟨sound.recording bystander entry recording, mine (some bystander) (by simpa using here) _ held⟩
    · intro place address other
      obtain ⟨before, differ⟩ := (holds place address).mp other
      obtain ⟨block, inBlocks, same⟩ := sound.allocated place address before
      exact ⟨block, (member block).mpr ⟨inBlocks, by rw [Option.some.inj same]; exact differ⟩, same⟩
    · intro block inBlocks
      obtain ⟨before, differ⟩ := (member block).mp inBlocks
      obtain ⟨place, other⟩ := sound.covered block before
      exact ⟨place, (holds place _).mpr ⟨other, differ⟩⟩
    · intro place other address first second
      exact sound.apart place other address ((holds place address).mp first).1 ((holds other address).mp second).1
    · intro block inBlocks other inOther same
      exact sound.distinct block ((member block).mp inBlocks).1 other ((member other).mp inOther).1 same
    · rw [blocks]
      exact (Finset.card_filter_le ..).trans sound.bounded
  · have same : without state.blocks given = state.blocks := by
      apply without_eq
      cases given with
      | none => exact not_isAt_none
      | some ptr =>
          apply allowed ptr
          cases wasLive with
          | false => exact doing
          | true => exact absurd ⟨ptr, rfl, rfl⟩ holding
    refine sound.quiet phases ?_ (fun ptr => id) outside map live (blocks.trans same)
    intro ptr
    rw [doing]
    exact fun inHands => holding ⟨ptr, inHands.2, inHands.1⟩

/-- Every step that is allowed. -/
theorem step (sound : Sound state) (action : Action Thread) (allowed : Allowed state action)
    (stepped : state.step action = some after) : Sound after := by
  cases action with
  | new thread size isArray =>
      rw [State.step] at stepped
      split at stepped
      next idle =>
        cases stepped
        exact sound.quiet rfl (by rw [idle]; exact fun _ => id) (fun _ => id) rfl rfl rfl rfl
      next => cases stepped
  | malloc thread result =>
      rw [State.step] at stepped
      split at stepped
      next size isArray doing =>
        have empty (ptr : Address) : ¬ (state.phase thread).Holds ptr := by
          rw [doing]
          exact id
        cases result with
        | none =>
            cases stepped
            exact sound.quiet rfl empty (fun _ => id) rfl rfl rfl rfl
        | some ptr =>
            simp only at stepped
            split at stepped
            next => cases stepped
            next fresh =>
              cases stepped
              exact sound.malloc rfl empty rfl rfl rfl rfl fresh allowed
      next => cases stepped
  | addRecord thread =>
      rw [State.step] at stepped
      split at stepped
      next entry doing =>
        cases stepped
        exact sound.record rfl doing rfl rfl rfl rfl
      next => cases stepped
  | delete thread ptr isArray size =>
      rw [State.step] at stepped
      split at stepped
      next idle =>
        cases stepped
        exact sound.quiet rfl (by rw [idle]; exact fun _ => id) (fun _ => id) rfl rfl rfl rfl
      next => cases stepped
  | removeRecord thread =>
      rw [State.step] at stepped
      split at stepped
      next ptr isArray doing =>
        cases stepped
        exact sound.remove rfl doing rfl rfl rfl rfl
      next => cases stepped
  | free thread =>
      rw [State.step] at stepped
      split at stepped
      next ptr wasLive doing =>
        cases stepped
        exact sound.release rfl doing rfl rfl rfl rfl allowed
      next => cases stepped

end Sound

/-- What a delete prints: nothing for a null pointer, else one complaint when the block is not live and another one
when it is live in the other form. -/
def Reports (state : State Thread) (ptr : Option Address) (isArray : Bool) (printed : List Report) : Prop :=
  match ptr with
  | none => printed = []
  | some address =>
      (invalidDelete address ∈ printed ↔ ¬ isAt state.live ptr) ∧
        (mismatchedDelete address ∈ printed ↔
          ∃ block ∈ state.live, some block.ptr = ptr ∧ block.isArray ≠ isArray) ∧
        ∀ report ∈ printed, report = invalidDelete address ∨ report = mismatchedDelete address

omit [DecidableEq Thread] in
theorem Sound.reports (sound : Sound state) (thread : Thread) (ptr : Option Address) (isArray : Bool) :
    Reports state ptr isArray (removeRecord (state.gInsideTracker thread) ptr isArray state.gAllocMap).2 := by
  cases ptr with
  | none => rfl
  | some address =>
      have differ : invalidDelete address ≠ mismatchedDelete address := by simp [invalidDelete, mismatchedDelete]
      rw [Reports]
      by_cases present : isAt state.live (some address)
      · obtain ⟨block, member, same⟩ := present
        cases same
        have mismatched : (∃ other ∈ state.live, some other.ptr = some block.ptr ∧ other.isArray ≠ isArray) ↔
            block.isArray ≠ isArray := by
          constructor
          · rintro ⟨other, inLive, same, mismatch⟩
            have one := sound.distinct other (sound.kept inLive) block (sound.kept member) (Option.some.inj same)
            rwa [one] at mismatch
          · exact fun mismatch => ⟨block, member, rfl, mismatch⟩
        rw [(sound.removes thread isArray member).2, mismatched]
        have live : isAt state.live (some block.ptr) := ⟨block, member, rfl⟩
        split
        next mismatch => simp [differ, live, mismatch]
        next matching => simp [live, matching]
      · rw [sound.misses thread isArray present]
        have unlisted : ¬ ∃ block ∈ state.live, some block.ptr = some address ∧ block.isArray ≠ isArray := by
          rintro ⟨block, member, same, _⟩
          exact present ⟨block, member, same⟩
        simp only [List.mem_singleton]
        exact ⟨iff_of_true trivial present, iff_of_false differ.symm unlisted, fun report equal => .inl equal⟩

/-- Only `remove_record` prints. -/
theorem State.step_output {action : Action Thread} (stepped : state.step action = some after)
    (other : ∀ thread, action ≠ .removeRecord thread) : after.output = state.output := by
  cases action with
  | removeRecord thread => exact absurd rfl (other thread)
  | malloc thread result =>
      rw [State.step] at stepped
      split at stepped
      next =>
        cases result with
        | none =>
            cases stepped
            rfl
        | some ptr =>
            simp only at stepped
            split at stepped
            · cases stepped
            · cases stepped
              rfl
      next => cases stepped
  | _ =>
      rw [State.step] at stepped
      split at stepped
      · cases stepped
        rfl
      · cases stepped

/-- When no call is in progress, the table lists what is allocated, and each report is due. -/
theorem tracker_exact (actions : List (Action Thread)) (ran : run State.step initial actions = some state)
    (allowed : Meets State.step Allowed initial actions) :
    ((∀ thread, state.phase thread = .idle) →
      Unique state.gAllocMap ∧ ∀ entry, entry ∈ state.gAllocMap ↔ entry ∈ state.blocks) ∧
      (∀ thread ptr isArray after, state.phase thread = .removing ptr isArray →
        state.step (.removeRecord thread) = some after →
        ∃ printed, after.output = state.output ++ printed ∧ Reports state ptr isArray printed) ∧
      ∀ action after, state.step action = some after → (∀ thread, action ≠ .removeRecord thread) →
        after.output = state.output := by
  have sound : Sound state := run_invariant_meeting Sound
    (fun _ action _ sound met stepped => sound.step action met stepped) initial_sound allowed ran
  refine ⟨?_, ?_, fun action after stepped other => State.step_output stepped other⟩
  · intro idle
    refine ⟨sound.unique, fun entry => (sound.listed entry).trans ⟨fun member => sound.kept member, ?_⟩⟩
    intro member
    obtain ⟨place, held⟩ := sound.covered entry member
    cases place with
    | none =>
        obtain ⟨block, live, same⟩ := held
        rwa [sound.distinct entry member block (sound.kept live) (Option.some.inj same).symm]
    | some thread =>
        rw [Holds, idle] at held
        exact held.elim
  · intro thread ptr isArray after doing stepped
    simp only [State.step, doing] at stepped
    cases stepped
    exact ⟨_, rfl, sound.reports thread ptr isArray⟩

theorem tracker_exact_delete :
    ∃ state : State Unit, run State.step initial [.new () 4 true, .malloc () (some 100), .addRecord (),
        .delete () (some 100) false none, .removeRecord (), .free ()] = some state ∧
      Unique state.gAllocMap ∧ ∀ entry, entry ∈ state.gAllocMap ↔ entry ∈ state.blocks := by
  have allowed : Meets State.step Allowed (initial : State Unit) [.new () 4 true, .malloc () (some 100), .addRecord (),
      .delete () (some 100) false none, .removeRecord (), .free ()] := by
    refine ⟨trivial, ?_⟩
    rintro _ ⟨⟩
    refine ⟨(by decide : (∅ : Finset AllocEntry).card < MAX_RECORDS), ?_⟩
    rintro _ ⟨⟩
    refine ⟨trivial, ?_⟩
    rintro _ ⟨⟩
    refine ⟨trivial, ?_⟩
    rintro _ ⟨⟩
    refine ⟨trivial, ?_⟩
    rintro _ ⟨⟩
    refine ⟨?_, fun _ _ => trivial⟩
    rintro ptr ⟨⟩
  exact ⟨_, rfl, (tracker_exact [.new () 4 true, .malloc () (some 100), .addRecord (),
    .delete () (some 100) false none, .removeRecord (), .free ()] rfl allowed).1 fun _ => rfl⟩

/-- The block that a thread deletes for the second time is by then that of another thread. -/
theorem tracker_lists_twice :
    ¬ ∀ (actions : List (Action (Fin 3))) (state : State (Fin 3)), run State.step initial actions = some state →
      (∀ thread, state.phase thread = .idle) → Unique state.gAllocMap := by
  intro claim
  have idle : ∀ thread : Fin 3, thread = 0 ∨ thread = 1 ∨ thread = 2 := by decide
  have unique := claim [.new 0 4 false, .malloc 0 (some 100), .addRecord 0, .delete 0 (some 100) false none,
    .removeRecord 0, .free 0, .delete 1 (some 100) false none, .removeRecord 1, .new 2 4 false, .malloc 2 (some 100),
    .free 1, .addRecord 2, .new 0 4 false, .malloc 0 (some 100), .addRecord 0] _ rfl
    fun thread => by rcases idle thread with rfl | rfl | rfl <;> rfl
  exact absurd unique (by unfold Unique; decide)

end HundredDays.LeakTracker
