import HundredDays.Buddy.Narrowing

namespace HundredDays.Buddy

open HundredDays.Data HundredDays.Semantics

/-! Sessions with an allocator of any sizes that `buddy_init` accepts. -/

variable {pool low high extra index order size ceil : Nat} {alloc wide after : BuddyAllocator} {session next : Session}
  {lists : Nat → List Nat} {tiles live : Set Block} {block : Block}

theorem exhausted_narrow (fewer : extra ≤ alloc.minOrder) (ordered : alloc.minOrder ≤ alloc.maxOrder) :
    (alloc.narrow extra).Exhausted order ↔ alloc.Exhausted order := by
  apply or_congr Iff.rfl
  constructor
  · intro empty place above most
    rw [← @freeLists_narrow alloc extra place]
    apply empty
    · change order - (alloc.minOrder - extra) ≤ place + extra
      omega
    · change place + extra ≤ alloc.maxOrder - (alloc.minOrder - extra)
      omega
  · intro empty index above most
    change order - (alloc.minOrder - extra) ≤ index at above
    change index ≤ alloc.maxOrder - (alloc.minOrder - extra) at most
    by_contra filled
    obtain ⟨node, head⟩ := Option.ne_none_iff_exists'.mp filled
    obtain ⟨place, rfl, first⟩ := freeLists_narrow_some head
    rw [empty place (by omega) (by omega)] at first
    cases first

/-- `buddy_free` computes the same blocks, and lists that are some places further on. -/
theorem buddyFree_narrow {ptr : Nat} (fewer : extra ≤ alloc.minOrder)
    (above : alloc.minOrder ≤ alloc.order (ptr - headerSize)) (small : alloc.order (ptr - headerSize) < 64) :
    buddyFree (alloc.narrow extra) (some ptr) = (buddyFree alloc (some ptr)).map (BuddyAllocator.narrow extra) ∧
      freeIndices (alloc.narrow extra) (some ptr) = (freeIndices alloc (some ptr)).map (· + extra) := by
  have order : (alloc.setFree (ptr - headerSize) true).order (ptr - headerSize) = alloc.order (ptr - headerSize) :=
    congrArg UInt8.toNat (Function.update_of_ne (by omega) _ _)
  have narrowed : ((alloc.narrow extra).setFree (ptr - headerSize) true).order (ptr - headerSize) =
    alloc.order (ptr - headerSize) := order
  have place : listIndex (alloc.order (ptr - headerSize)) (alloc.minOrder - extra) =
      listIndex (alloc.order (ptr - headerSize)) alloc.minOrder + extra := by
    rw [listIndex_eq (by omega) small, listIndex_eq above small]
    omega
  obtain ⟨merged, indices⟩ := @narrow_mergeFrom (alloc.setFree (ptr - headerSize) true) extra
    (listIndex (alloc.order (ptr - headerSize)) alloc.minOrder) (ptr - headerSize) (alloc.maxOrder + 1)
  rw [← place] at merged indices
  simp only [buddyFree, freeIndices, order, narrowed]
  exact ⟨merged, indices⟩

/-- The same for a pointer that was returned. -/
theorem Kept.buddyFree_narrow (kept : Kept pool low high session lists tiles live) {ptr : Nat}
    (listed : ptr ∈ session.pointers) (fewer : extra ≤ low) :
    buddyFree (session.alloc.narrow extra) (some ptr) =
        (buddyFree session.alloc (some ptr)).map (BuddyAllocator.narrow extra) ∧
      freeIndices (session.alloc.narrow extra) (some ptr) = (freeIndices session.alloc (some ptr)).map (· + extra) := by
  obtain ⟨_, smallest, _⟩ := kept.laid.shapes
  obtain ⟨block, alive, rfl⟩ := (kept.pointers ptr).mp listed
  have member := kept.laid.liveTiles alive
  apply Buddy.buddyFree_narrow
  · omega
  · rw [Nat.add_sub_cancel, kept.laid.orders block member, smallest]
    exact kept.laid.minimal block member
  · rw [Nat.add_sub_cancel, kept.laid.orders block member]
    exact kept.laid.order_lt member

def Session.narrow (extra : Nat) (session : Session) : Session :=
  { session with alloc := session.alloc.narrow extra }

/-- An allocator with room for a header in no block, before it hands out any. -/
structure Idle (pool low high : Nat) (session : Session) : Prop where
  small : high < max low 5
  shape : session.alloc.shape = (pool, low, high)
  root : low ≤ high → session.alloc.freeLists (high - low) ≠ none
  pointers : session.pointers = []

/-- The allocator is idle, or does what one with room for a header in every block does. -/
def Tamed (pool low high : Nat) (session : Session) : Prop :=
  Idle pool low high session ∨ ∃ (wide : Session) (lists : Nat → List Nat) (tiles live : Set Block),
    session = wide.narrow (max low 5 - low) ∧ Kept pool (max low 5) high wide lists tiles live

/-- A request gets a block with room for a header, or none. -/
def Tame (session : Session) : Call → Prop
  | .alloc size =>
      let order := max session.alloc.minOrder (Nat.clog 2 ((size + headerSize) % 2 ^ 64))
      headerSize ≤ 2 ^ order ∨ Crowded session.alloc.memoryPool session.alloc.maxOrder session order
  | _ => True

theorem five_le_iff : headerSize ≤ 2 ^ order ↔ 5 ≤ order := by
  constructor
  · intro room
    by_contra less
    have few : 2 ^ order ≤ 2 ^ 4 := Nat.pow_le_pow_right (by decide) (by omega)
    simp only [headerSize] at room
    omega
  · intro large
    have many : 2 ^ 5 ≤ 2 ^ order := Nat.pow_le_pow_right (by decide) large
    simp only [headerSize]
    omega

namespace Tamed

theorem shape (tamed : Tamed pool low high session) : session.alloc.shape = (pool, low, high) := by
  rcases tamed with idle | ⟨wide, lists, tiles, live, rfl, kept⟩
  · exact idle.shape
  · obtain ⟨atPool, smallest, largest⟩ := kept.laid.shapes
    have low : wide.alloc.minOrder - (max low 5 - low) = low := by omega
    exact congrArg₂ Prod.mk atPool (congrArg₂ Prod.mk low largest)

theorem exhausted_iff (tamed : Tamed pool low high session) (above : low ≤ order) :
    session.alloc.Exhausted order ↔ Crowded pool high session order := by
  rcases tamed with idle | ⟨wide, lists, tiles, live, rfl, kept⟩
  · obtain ⟨_, smallest, largest⟩ : _ ∧ _ ∧ _ := by simpa [BuddyAllocator.shape] using idle.shape
    rw [BuddyAllocator.Exhausted, smallest, largest, crowded_empty_iff idle.pointers]
    apply or_iff_left_of_imp
    intro empty
    by_contra beyond
    exact idle.root (by omega) (empty (high - low) (by omega) le_rfl)
  · obtain ⟨_, smallest, largest⟩ := kept.laid.shapes
    have ordered := kept.laid.room.ordered
    have same : Crowded pool high (wide.narrow (max low 5 - low)) order ↔ Crowded pool high wide order := Iff.rfl
    rw [same, kept.crowded_iff, ← kept.laid.exhausted_iff]
    exact exhausted_narrow (by omega) (by omega)

theorem shapes (tamed : Tamed pool low high session) : session.alloc.memoryPool = pool ∧
    session.alloc.minOrder = low ∧ session.alloc.maxOrder = high := by
  simpa [BuddyAllocator.shape] using tamed.shape

/-- What a call with a size that can be rounded does. -/
theorem request (tamed : Tamed pool low high session) (rounded : log2Ceil ((size + headerSize) % 2 ^ 64) = some ceil) :
    (Crowded pool high session (max low ceil) ∧ buddyAlloc session.alloc size = some (none, session.alloc)) ∨
      ∃ (node : Nat) (after : BuddyAllocator), ¬ Crowded pool high session (max low ceil) ∧
        buddyAlloc session.alloc size = some (some (node + headerSize), after) ∧
        (5 ≤ max low ceil → after.order node = max low ceil ∧
          Tamed pool low high { alloc := after, pointers := (node + headerSize) :: session.pointers }) := by
  obtain ⟨_, smallest, largest⟩ := tamed.shapes
  have above : low ≤ max low ceil := Nat.le_max_left low ceil
  have asked : session.alloc.reqOrder ceil = max low ceil := by rw [BuddyAllocator.reqOrder, smallest]
  have outcome := @buddyAlloc_cases session.alloc size ceil rounded
  rw [asked, smallest, largest] at outcome
  rcases outcome with ⟨exhausted, refused⟩ | ⟨currentIdx, node, fits, later, small, head, given⟩
  · exact .inl ⟨(tamed.exhausted_iff above).mp exhausted, refused⟩
  · refine .inr ⟨node, _, ?_, given, fun roomy => ?_⟩
    · rw [← tamed.exhausted_iff above, BuddyAllocator.Exhausted, smallest, largest]
      rintro (beyond | empty)
      · omega
      · rw [empty currentIdx later small] at head
        cases head
    · rcases tamed with idle | ⟨wide, lists, tiles, live, rfl, kept⟩
      · have none := idle.small
        omega
      · obtain ⟨place, rfl, first⟩ := freeLists_narrow_some head
        obtain ⟨block, others, rest, rfl, dead, order, laid, unpaired⟩ :=
          kept.laid.give kept.unpaired (by omega : max low 5 ≤ max low ceil) (by omega) (by omega) first
        have target : max low ceil - low = max low ceil - max low 5 + (max low 5 - low) := by omega
        have steps : place + (max low 5 - low) - (max low ceil - max low 5 + (max low 5 - low)) =
            place - (max low ceil - max low 5) := by omega
        have same : (splitFrom (listRemove (wide.alloc.narrow (max low 5 - low)) (place + (max low 5 - low))
            (pool + block.offset)) (pool + block.offset) (max low ceil - low)
            (place + (max low 5 - low) - (max low ceil - low))).setFree (pool + block.offset) false =
            ((splitFrom (listRemove wide.alloc place (pool + block.offset)) (pool + block.offset)
              (max low ceil - max low 5) (place - (max low ceil - max low 5))).setFree (pool + block.offset) false).narrow
              (max low 5 - low) := by
          rw [target, steps, ← narrow_listRemove, ← narrow_splitFrom]
          rfl
        have header := laid.orders block (laid.liveTiles (Set.mem_insert block live))
        rw [order] at header
        have stored := congrArg (BuddyAllocator.order · (pool + block.offset)) same
        exact ⟨stored.trans header, .inr ⟨⟨_, (pool + block.offset + headerSize) :: wide.pointers⟩, others, rest,
          insert block live, congrArg (Session.mk · _) same, kept.given dead laid unpaired⟩⟩

theorem step (tamed : Tamed pool low high session) (call : Call) (tame : Tame session call)
    (stepped : session.step call = some next) : Tamed pool low high next := by
  obtain ⟨atPool, smallest, largest⟩ := tamed.shapes
  cases call with
  | alloc size =>
      obtain ⟨⟨result, after⟩, returned, rfl⟩ := Option.map_eq_some_iff.mp stepped
      obtain ⟨ceil, rounded, _⟩ := Option.bind_eq_some_iff.mp returned
      obtain ⟨_, rfl⟩ := log2Ceil_cases rounded
      simp only [Tame, atPool, smallest, largest] at tame
      rcases tamed.request rounded with ⟨_, refused⟩ | ⟨node, after, spare, given, roomy⟩
      · cases refused.symm.trans returned
        exact tamed
      · cases given.symm.trans returned
        exact (roomy (five_le_iff.mp (tame.resolve_right spare))).2
  | free ptr =>
      rcases tamed with idle | ⟨wide, lists, tiles, live, rfl, kept⟩
      · cases ptr with
        | none =>
            cases stepped
            exact .inl idle
        | some ptr =>
            rw [Session.step, idle.pointers, if_neg List.not_mem_nil] at stepped
            cases stepped
      · obtain ⟨final, moved, same⟩ : ∃ final, wide.step (.free ptr) = some final ∧
            next = final.narrow (max low 5 - low) := by
          cases ptr with
          | none =>
              cases stepped
              exact ⟨wide, rfl, rfl⟩
          | some ptr =>
              simp only [Session.step] at stepped ⊢
              split_ifs at stepped with listed
              obtain ⟨alloc, freed, rfl⟩ := Option.map_eq_some_iff.mp stepped
              have both := (kept.buddyFree_narrow listed (by omega : max low 5 - low ≤ max low 5)).1
              obtain ⟨after, released, rfl⟩ := Option.map_eq_some_iff.mp (both.symm.trans freed)
              refine ⟨{ alloc := after, pointers := wide.pointers.erase ptr }, ?_, rfl⟩
              have here : ptr ∈ wide.pointers := listed
              rw [if_pos here, released]
              rfl
        obtain ⟨others, rest, alive, kept⟩ := kept.step _ moved
        exact .inr ⟨final, others, rest, alive, same, kept⟩
  | write ptr offset byte =>
      rcases tamed with idle | ⟨wide, lists, tiles, live, rfl, kept⟩
      · simp only [Session.step, idle.pointers, List.not_mem_nil, false_and, if_false] at stepped
        cases stepped
      · simp only [Session.step] at stepped
        split_ifs at stepped with allowed
        cases stepped
        have moved : wide.step (.write ptr offset byte) =
            some { wide with alloc := wide.alloc.setByte (ptr + offset) byte } := if_pos allowed
        obtain ⟨others, rest, alive, kept⟩ := kept.step _ moved
        exact .inr ⟨_, others, rest, alive, rfl, kept⟩

end Tamed

/-- A pool of any sizes that `buddy_init` accepts starts idle, or as one free block. -/
theorem buddyInit_tamed {memory : Nat → UInt8} {poolSize minBlockSize : Nat} (positive : 0 < pool)
    (ending : pool + 2 ^ Nat.clog 2 poolSize ≤ 2 ^ 64)
    (created : buddyInit memory pool poolSize minBlockSize = some alloc) :
    Tamed pool (Nat.clog 2 minBlockSize) (Nat.clog 2 poolSize) { alloc, pointers := [] } := by
  have size := Nat.two_pow_pos (Nat.clog 2 poolSize)
  obtain ⟨small, _, orders, shape, freeLists, header⟩ := buddyInit_cases positive (by omega) created
  have most : Nat.clog 2 poolSize ≤ 63 := Nat.clog_le_of_le_pow small
  generalize Nat.clog 2 poolSize = high at *
  generalize Nat.clog 2 minBlockSize = low at *
  by_cases room : max low 5 ≤ high
  · right
    have place : listIndex high low = high - max low 5 + (max low 5 - low) := by
      rw [listIndex_eq (by omega) (by omega)]
      omega
    let empty : BuddyAllocator := { alloc with minOrder := max low 5, freeLists := fun _ => none }
    have same : alloc = (empty.setList (high - max low 5) (some pool)).narrow (max low 5 - low) := by
      obtain ⟨_, smallest, _⟩ : alloc.memoryPool = pool ∧ alloc.minOrder = low ∧ alloc.maxOrder = high := by
        simpa [BuddyAllocator.shape] using shape
      have minOrder : max low 5 - (max low 5 - low) = alloc.minOrder := by omega
      rw [narrow_setList, ← place]
      cases alloc
      simp only [BuddyAllocator.setList, BuddyAllocator.narrow, empty, ite_self, minOrder, BuddyAllocator.mk.injEq,
        true_and, and_true]
      exact freeLists
    have wider : Room pool (max low 5) high := by
      refine ⟨positive, ending, by omega, room, ?_⟩
      simp only [maxOrders] at orders ⊢
      omega
    have shaped : (empty.setList (high - max low 5) (some pool)).shape = (pool, max low 5, high) := by
      simp only [BuddyAllocator.shape, Prod.mk.injEq] at shape ⊢
      exact ⟨shape.1, rfl, shape.2.2⟩
    obtain ⟨lists, laid⟩ := root_laid wider shaped rfl header
    exact ⟨⟨_, []⟩, lists, _, ∅, congrArg (Session.mk · []) same, laid, unpaired_root, by simp, List.nodup_nil⟩
  · left
    refine ⟨by omega, shape, fun ordered => ?_, rfl⟩
    rw [freeLists, listIndex_eq ordered (by omega), Function.update_self]
    simp

/-- What is reached from it while no request gets a block that is too small for a header. -/
theorem run_tamed {memory : Nat → UInt8} {poolSize minBlockSize : Nat} {calls : List Call} (positive : 0 < pool)
    (ending : pool + 2 ^ Nat.clog 2 poolSize ≤ 2 ^ 64)
    (created : buddyInit memory pool poolSize minBlockSize = some alloc)
    (tame : Meets Session.step Tame { alloc, pointers := [] } calls)
    (completed : run Session.step { alloc, pointers := [] } calls = some session) :
    Tamed pool (Nat.clog 2 minBlockSize) (Nat.clog 2 poolSize) session :=
  run_invariant_meeting (Tamed pool (Nat.clog 2 minBlockSize) (Nat.clog 2 poolSize))
    (fun _ call _ tamed met stepped => tamed.step call met stepped) (buddyInit_tamed positive ending created) tame completed

end HundredDays.Buddy
