import HundredDays.Buddy.Configurations

namespace HundredDays.Buddy

open HundredDays.Data HundredDays.Semantics

/-! Which sizes keep the blocks within the pool and the lists within their array. -/

variable {pool low high poolSize minBlockSize size index node : Nat} {alloc : BuddyAllocator} {session : Session}
  {lists : Nat → List Nat} {tiles live : Set Block} {nodes : List Nat}

/-- The header and what follows it lie within the pool. -/
structure Contained (pool poolSize : Nat) (alloc : BuddyAllocator) (node : Nat) : Prop where
  above : pool ≤ node
  header : headerSize ≤ 2 ^ alloc.order node
  inside : node + 2 ^ alloc.order node ≤ pool + poolSize

/-- The blocks of the pool are within it, and so is every index of a list that was or will be used. -/
structure Sound (poolSize : Nat) (session : Session) : Prop where
  root : listIndex session.alloc.maxOrder session.alloc.minOrder < maxOrders
  free : ∀ index ≤ session.alloc.maxOrder - session.alloc.minOrder, ∃ nodes, Threaded session.alloc index nodes ∧
    ∀ node ∈ nodes, Contained session.alloc.memoryPool poolSize session.alloc node
  live : ∀ ptr ∈ session.pointers, headerSize ≤ ptr ∧
    Contained session.alloc.memoryPool poolSize session.alloc (ptr - headerSize)
  allocs : ∀ size, ∀ index ∈ allocIndices session.alloc size, index < maxOrders
  frees : ∀ ptr ∈ session.pointers, ∀ index ∈ freeIndices session.alloc (some ptr), index < maxOrders

theorem searchIndices_lt {steps currentIdx : Nat} :
    ∀ index ∈ searchIndices alloc steps currentIdx, index < alloc.orders := by
  induction steps generalizing currentIdx with
  | zero => simp [searchIndices]
  | succ steps ih =>
      rw [searchIndices]
      split
      · rename_i inside
        rw [List.forall_mem_cons]
        refine ⟨inside, ?_⟩
        split
        · exact ih
        · simp
      · simp

/-- A request uses the lists of the orders that the pool has. -/
theorem allocIndices_lt : ∀ index ∈ allocIndices alloc size, index < alloc.orders := by
  intro index used
  simp only [allocIndices] at used
  split at used
  · cases used
  · rename_i ceil _
    generalize (if ceil < alloc.minOrder then alloc.minOrder else ceil) = reqOrder at used
    split_ifs at used with large beyond
    · cases used
    · rw [List.append_nil] at used
      exact searchIndices_lt index used
    · have count : alloc.orders = alloc.maxOrder - alloc.minOrder + 1 := rfl
      rcases List.mem_append.mp used with searched | split
      · exact searchIndices_lt index searched
      · rcases List.mem_cons.mp split with rfl | between
        · omega
        · rw [List.mem_range'_1] at between
          omega

theorem Threaded.narrow {extra : Nat} (threaded : Threaded alloc index nodes) :
    Threaded (alloc.narrow extra) (index + extra) nodes :=
  ⟨threaded.segment, freeLists_narrow.trans threaded.head, threaded.nodup⟩

theorem Kept.contained (kept : Kept pool low high session lists tiles live) {block : Block} (member : block ∈ tiles) :
    Contained pool (2 ^ high) session.alloc (pool + block.offset) := by
  have order := kept.laid.orders block member
  have fits := kept.laid.tiling.fits member
  refine ⟨Nat.le_add_right .., ?_, ?_⟩
  · rw [order, five_le_iff]
    exact kept.laid.room.header.trans (kept.laid.minimal block member)
  · rw [order]
    rw [Block.size] at fits
    omega

theorem Contained.narrow {extra : Nat} (contained : Contained pool poolSize alloc node) :
    Contained pool poolSize (alloc.narrow extra) node :=
  ⟨contained.above, contained.header, contained.inside⟩

/-- The blocks of a pool that is a power of two, with room for a header, stay within it. -/
theorem Tamed.sound (tamed : Tamed pool low high session) (large : 5 ≤ high) (ordered : low ≤ high)
    (orders : high < low + maxOrders) : Sound (2 ^ high) session := by
  have count : high - low < maxOrders := by omega
  obtain ⟨atPool, smallest, largest⟩ := tamed.shapes
  have few : session.alloc.orders ≤ maxOrders := by
    rw [BuddyAllocator.orders, smallest, largest]
    omega
  have searches : ∀ size, ∀ index ∈ allocIndices session.alloc size, index < maxOrders :=
    fun size index used => (allocIndices_lt index used).trans_le few
  rcases tamed with idle | ⟨wide, lists, tiles, live, rfl, kept⟩
  · have small := idle.small
    omega
  · have top := kept.laid.room.high_lt
    have fewer : max low 5 - low ≤ max low 5 := by omega
    refine ⟨?_, ?_, ?_, searches, ?_⟩
    · rw [smallest, largest, listIndex_eq ordered top]
      exact count
    · intro index most
      rw [smallest, largest] at most
      rw [atPool]
      by_cases front : index < max low 5 - low
      · refine ⟨[], ⟨segment_nil, if_pos front, List.nodup_nil⟩, by simp⟩
      · obtain ⟨place, rfl⟩ := Nat.exists_eq_add_of_le' (Nat.le_of_not_lt front)
        have small : place ≤ high - max low 5 := by omega
        refine ⟨lists place, (kept.laid.threaded place small).narrow, fun node listed => ?_⟩
        obtain ⟨block, member, _, _, _, rfl⟩ := (kept.laid.listed place small node).mp listed
        exact (kept.contained member).narrow
    · intro ptr listed
      obtain ⟨block, alive, rfl⟩ := (kept.pointers ptr).mp listed
      rw [atPool, Nat.add_sub_cancel]
      exact ⟨Nat.le_add_left .., (kept.contained (kept.laid.liveTiles alive)).narrow⟩
    · intro ptr listed index used
      have indices := (kept.buddyFree_narrow listed fewer).2
      obtain ⟨block, alive, rfl⟩ := (kept.pointers ptr).mp listed
      obtain ⟨_, _, _, _, _, _, bounded⟩ := buddyFree_laid kept.laid kept.unpaired alive
      obtain ⟨place, visited, rfl⟩ := List.mem_map.mp (indices ▸ used)
      have small := bounded place visited
      omega

/-- The sizes of the pool and of its smallest block, of those that `buddy_init` accepts, with which the blocks stay
within the pool. -/
theorem sound_iff (pool poolSize minBlockSize : Nat) (positive : 0 < pool) (nonempty : 0 < poolSize)
    (ending : pool + poolSize ≤ 2 ^ 64) (memory : Nat → UInt8) (alloc : BuddyAllocator)
    (created : buddyInit memory pool poolSize minBlockSize = some alloc) :
    (∀ calls session, Meets Session.step Tame { alloc, pointers := [] } calls →
      run Session.step { alloc, pointers := [] } calls = some session → Sound poolSize session) ↔
      (∃ order, 5 ≤ order ∧ poolSize = 2 ^ order) ∧ minBlockSize ≤ poolSize := by
  obtain ⟨small, ordered, orders, shape, freeLists, header⟩ := buddyInit_cases positive (by omega) created
  have most : Nat.clog 2 poolSize ≤ 63 := Nat.clog_le_of_le_pow small
  obtain ⟨atPool, smallest, largest⟩ : _ ∧ _ ∧ _ := by simpa [BuddyAllocator.shape] using shape
  constructor
  · intro sound
    obtain ⟨root, free, _⟩ := sound [] _ trivial rfl
    simp only [smallest, largest, atPool] at root free
    have less : Nat.clog 2 minBlockSize ≤ Nat.clog 2 poolSize := by
      by_contra more
      simp only [listIndex, maxOrders] at root
      omega
    obtain ⟨nodes, threaded, contained⟩ := free _ le_rfl
    have listed : pool ∈ nodes := by
      apply List.mem_of_head?
      rw [← threaded.head, freeLists, listIndex_eq less (by omega), Function.update_self]
    obtain ⟨_, room, inside⟩ := contained pool listed
    have order : alloc.order pool = Nat.clog 2 poolSize := congrArg Header.order header
    rw [order] at room inside
    have enough : poolSize ≤ 2 ^ Nat.clog 2 poolSize := Nat.le_pow_clog (by decide) _
    refine ⟨⟨_, five_le_iff.mp room, by omega⟩, ?_⟩
    calc
      minBlockSize ≤ 2 ^ Nat.clog 2 minBlockSize := Nat.le_pow_clog (by decide) _
      _ ≤ 2 ^ Nat.clog 2 poolSize := Nat.pow_le_pow_right (by decide) less
      _ ≤ poolSize := by omega
  · rintro ⟨⟨order, large, rfl⟩, smaller⟩ calls session tame completed
    have top : Nat.clog 2 (2 ^ order) = order := Nat.clog_pow _ _ (by decide)
    have less : Nat.clog 2 minBlockSize ≤ order := Nat.clog_le_of_le_pow smaller
    have tamed := run_tamed positive (by rw [top]; exact ending) created tame completed
    rw [top] at tamed orders
    exact tamed.sound large less orders

theorem sound_iff_kilobyte : ∃ alloc, buddyInit (fun _ => 0) 4096 (2 ^ 10) (2 ^ 5) = some alloc ∧
    ((∀ calls session, Meets Session.step Tame { alloc, pointers := [] } calls →
      run Session.step { alloc, pointers := [] } calls = some session → Sound (2 ^ 10) session) ↔
      (∃ order, 5 ≤ order ∧ 2 ^ 10 = 2 ^ order) ∧ 2 ^ 5 ≤ 2 ^ 10) := by
  have room : Room 4096 5 10 := ⟨by decide, by decide, by decide, by decide, by decide⟩
  obtain ⟨alloc, created, _⟩ := run_kept room fun _ => 0
  exact ⟨alloc, created, sound_iff 4096 (2 ^ 10) (2 ^ 5) (by decide) (by decide) (by decide) _ alloc created⟩

/-- With a smallest block of 64 bytes a pool of 32 passes the assertion, and its root is put at the index 255. -/
theorem root_out_of_bounds : ∃ alloc, buddyInit (fun _ => 0) 4096 32 64 = some alloc ∧
    listIndex alloc.maxOrder alloc.minOrder = 255 ∧ ¬ Sound 32 { alloc, pointers := [] } := by
  have accepted : ∃ alloc, buddyInit (fun _ => 0) 4096 32 64 = some alloc := ⟨_, rfl⟩
  obtain ⟨alloc, created⟩ := accepted
  have root : listIndex alloc.maxOrder alloc.minOrder = 255 := by
    obtain ⟨_, _, _, shape, _⟩ := buddyInit_cases (by decide) (by decide) created
    have low : Nat.clog 2 64 = 6 := Nat.clog_pow 2 6 (by decide)
    have high : Nat.clog 2 32 = 5 := Nat.clog_pow 2 5 (by decide)
    rw [low, high] at shape
    obtain ⟨_, smallest, largest⟩ : _ ∧ alloc.minOrder = 6 ∧ alloc.maxOrder = 5 := by
      simpa [BuddyAllocator.shape] using shape
    rw [smallest, largest]
    rfl
  refine ⟨alloc, created, root, fun sound => ?_⟩
  have bounded := sound.root
  rw [root] at bounded
  exact absurd bounded (by decide)

end HundredDays.Buddy
