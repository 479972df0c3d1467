import HundredDays.CustomVector.Model
import HundredDays.Semantics.Run

namespace HundredDays.CustomVector

open HundredDays.Memory HundredDays.Semantics

/-! What a push does to the elements, over any allocator that keeps its promises. -/

variable {σ : Type} {backend : Backend σ} {Live : σ → (Nat → UInt8) → List Range → Prop} {others : List Range}
  {memory after : Nat → UInt8} {data newData count address other : Nat} {val : Int32} {vec : CustomVector}
  {session : Session σ}

theorem loadInt_storeInt : loadInt (storeInt memory address val) address = val := by
  have fits : val.toUInt32.toNat < 256 ^ sizeofInt := val.toUInt32.toNat_lt
  rw [loadInt, storeInt, loadLE_storeLE_of_lt fits, UInt32.ofNat_toNat]
  rfl

theorem loadInt_congr
    (agree : ∀ index, address ≤ index → index < address + sizeofInt → after index = memory index) :
    loadInt after address = loadInt memory address := by
  rw [loadInt, loadInt, loadLE_congr agree]

theorem loadInt_storeInt_other (apart : other + sizeofInt ≤ address ∨ address + sizeofInt ≤ other) :
    loadInt (storeInt memory address val) other = loadInt memory other := by
  rw [loadInt, loadInt, storeInt, loadLE_storeLE_disjoint apart]

/-- The loop copies the elements and changes nothing else. -/
theorem copyInts_eq (apart : newData + sizeofInt * count ≤ data ∨ data + sizeofInt * count ≤ newData) :
    ∃ after, copyInts memory newData (some data) count = some after ∧
      (∀ address, address < newData ∨ newData + sizeofInt * count ≤ address → after address = memory address) ∧
      ∀ index < count, loadInt after (newData + sizeofInt * index) = loadInt memory (data + sizeofInt * index) := by
  induction count with
  | zero => exact ⟨memory, rfl, fun _ _ => rfl, fun index below => absurd below (Nat.not_lt_zero index)⟩
  | succ count ih =>
      simp only [sizeofInt] at apart ih ⊢
      obtain ⟨middle, copied, outside, elements⟩ := ih (by omega)
      refine ⟨storeInt middle (newData + 4 * count) (loadInt middle (data + 4 * count)), ?_, ?_, ?_⟩
      · rw [copyInts, copied]
        rfl
      · intro address beyond
        rw [storeInt, storeLE_outside (by simp only [sizeofInt]; omega)]
        exact outside address (by omega)
      · intro index below
        have source : loadInt middle (data + 4 * count) = loadInt memory (data + 4 * count) := by
          apply loadInt_congr
          intro address lower upper
          simp only [sizeofInt] at upper
          exact outside address (by omega)
        by_cases newest : index = count
        · rw [newest, loadInt_storeInt, source]
        · rw [loadInt_storeInt_other (by simp only [sizeofInt]; omega)]
          exact elements index (by omega)

/-- What the vector asks for: at most half of the addresses, aligned for elements. -/
def Asked (size align : Nat) : Prop := size ≤ 2 ^ 63 ∧ align = alignofInt

/-- The buffer of the vector. -/
def owned (vec : CustomVector) : List Range :=
  match vec.data with
  | some data => [⟨data, vec.capacity * sizeofInt⟩]
  | none => []

/-- The vector holds the accepted values in its own buffer, which is all that it has of the allocator. -/
structure Sound (Live : σ → (Nat → UInt8) → List Range → Prop) (others : List Range) (session : Session σ) : Prop where
  live : Live session.world.ctx session.world.memory (owned session.vec ++ others)
  empty : session.vec.data = none → session.vec.capacity = 0
  bounded : session.vec.size ≤ session.vec.capacity
  narrow : session.vec.capacity ≤ 2 ^ 61
  size : session.vec.size = session.accepted.length
  elements : session.contents = session.accepted
  observed : run observe [] session.world.history = some (owned session.vec)

theorem initial_sound {ctx : σ} (live : Live ctx memory others) : Sound Live others (Session.initial ctx memory) :=
  ⟨live, fun _ => rfl, Nat.le_refl _, Nat.zero_le _, rfl, rfl, rfl⟩

/-- A value that is written behind the elements. -/
theorem contents_append (room : vec.data = some data) (memory : Nat → UInt8) (val : Int32) :
    CustomVector.contents { vec with size := vec.size + 1 } (storeInt memory (data + sizeofInt * vec.size) val) =
      vec.contents memory ++ [val] := by
  simp only [CustomVector.contents, room, List.range_succ, List.map_append, List.map_singleton, loadInt_storeInt,
    List.append_cancel_right_eq]
  apply List.map_congr_left
  intro index member
  have below := List.mem_range.mp member
  apply loadInt_storeInt_other
  simp only [sizeofInt]
  omega

/-- The capacity after a growth. -/
def grown (capacity : Nat) : Nat := if capacity = 0 then 4 else capacity * 2

/-- What the vector asks for does not wrap. -/
theorem sizes_exact {capacity : Nat} (small : capacity ≤ 2 ^ 60) :
    (if capacity = 0 then 4 else capacity * 2 % 2 ^ 64) = grown capacity ∧
      grown capacity * sizeofInt % 2 ^ 64 = grown capacity * sizeofInt ∧ Asked (grown capacity * sizeofInt) alignofInt ∧
      grown capacity ≤ 2 ^ 61 ∧ capacity < grown capacity := by
  have doubled : capacity * 2 % 2 ^ 64 = capacity * 2 := Nat.mod_eq_of_lt (by omega)
  rw [doubled]
  have bounds : capacity < grown capacity ∧ grown capacity ≤ 2 ^ 61 := by
    rw [grown]
    split <;> omega
  refine ⟨rfl, ?_, ⟨?_, rfl⟩, bounds.2, bounds.1⟩
  all_goals
    simp only [sizeofInt]
    omega

theorem allocate_none {world : World σ} {ctx : σ} {size align : Nat}
    (called : backend.allocate world.ctx world.memory size align = (none, ctx, memory)) :
    world.allocate backend size align = (none, { ctx, memory, history := world.history ++ [.refused size] }) := by
  simp only [World.allocate, called]

theorem allocate_some {world : World σ} {ctx : σ} {size align start : Nat}
    (called : backend.allocate world.ctx world.memory size align = (some start, ctx, memory)) :
    world.allocate backend size align =
      (some start, { ctx, memory, history := world.history ++ [.obtained ⟨start, size⟩] }) := by
  simp only [World.allocate, called]

theorem contents_untouched {before : Nat → UInt8} (kept : Untouched (owned vec ++ others) before after)
    (bounded : vec.size ≤ vec.capacity) : vec.contents after = vec.contents before := by
  cases found : vec.data with
  | none => simp only [CustomVector.contents, found]
  | some data =>
      simp only [CustomVector.contents, found]
      apply List.map_congr_left
      intro index member
      have below := List.mem_range.mp member
      apply loadInt_congr
      intro address lower upper
      refine kept ⟨data, vec.capacity * sizeofInt⟩ (by simp [owned, found]) address ?_
      change data ≤ address ∧ address < data + vec.capacity * sizeofInt
      simp only [sizeofInt] at lower upper ⊢
      omega

namespace Sound

/-- With room behind the elements a push writes there. -/
theorem push_room (sound : Sound Live others session) (lawful : Lawful backend Asked Live)
    (room : session.vec.size < session.vec.capacity) (val : Int32) :
    ∃ after : Session σ, vecPushBack backend session.vec val session.world = some (true, after.vec, after.world) ∧
      Sound Live others after ∧ after.accepted = session.accepted ++ [val] ∧
      after.vec.capacity = session.vec.capacity ∧ after.world.history = session.world.history := by
  obtain ⟨live, empty, bounded, narrow, size, elements, observed⟩ := sound
  cases found : session.vec.data with
  | none =>
      have zero := empty found
      omega
  | some data =>
      refine ⟨{
        vec := { session.vec with size := session.vec.size + 1 }
        world := { session.world with
          memory := storeInt session.world.memory (data + sizeofInt * session.vec.size) val }
        accepted := session.accepted ++ [val] }, ?_, ⟨?_, empty, room, narrow, ?_, ?_, observed⟩, rfl, rfl, rfl⟩
      · rw [vecPushBack, if_neg (Nat.not_le_of_lt room), append]
        exact Option.map_eq_some_iff.mpr ⟨data, found, rfl⟩
      · have own : owned session.vec = [⟨data, session.vec.capacity * sizeofInt⟩] := by simp only [owned, found]
        change Live _ _ (owned session.vec ++ others)
        refine lawful.writes live fun address outside => ?_
        have beyond := outside ⟨data, session.vec.capacity * sizeofInt⟩ (by simp [own])
        rw [Range.Holds] at beyond
        simp only [sizeofInt] at beyond ⊢
        exact storeLE_outside (by simp only [sizeofInt]; omega)
      · simp [size]
      · rw [← elements]
        exact contents_append found session.world.memory val

/-- The old buffer is copied and released, and the new one has the same elements. -/
theorem moved (sound : Sound Live others session) (lawful : Lawful backend Asked Live) {ctx : σ} {size : Nat}
    {history : List Event} (live : Live ctx memory (⟨newData, size⟩ :: (owned session.vec ++ others)))
    (kept : Untouched (owned session.vec ++ others) session.world.memory memory)
    (apart : ∀ range ∈ owned session.vec ++ others, Range.Apart ⟨newData, size⟩ range)
    (larger : session.vec.capacity * sizeofInt < size) (full : session.vec.size = session.vec.capacity)
    (seen : run observe [] history = some (⟨newData, size⟩ :: owned session.vec)) :
    ∃ copied final, copyInts memory newData session.vec.data session.vec.size = some copied ∧
      release backend session.vec { ctx, memory := copied, history } = final ∧
      Live final.ctx final.memory (⟨newData, size⟩ :: others) ∧
      run observe [] final.history = some [⟨newData, size⟩] ∧
      final.history.filterMap failure = history.filterMap failure ∧
      CustomVector.contents { session.vec with data := some newData } final.memory = session.accepted := by
  obtain ⟨_, empty, bounded, narrow, length, elements, _⟩ := sound
  cases found : session.vec.data with
  | none =>
      have zero := empty found
      have none : session.vec.size = 0 := by omega
      have own : owned session.vec = [] := by simp only [owned, found]
      have nothing : session.accepted = [] := List.length_eq_zero_iff.mp (length.symm.trans none)
      rw [own, List.nil_append] at live
      rw [own] at seen
      refine ⟨memory, { ctx, memory, history }, by rw [none]; rfl, by simp only [release, found], live, seen, rfl, ?_⟩
      simp [CustomVector.contents, none, nothing]
  | some data =>
      have own : owned session.vec = [⟨data, session.vec.capacity * sizeofInt⟩] := by simp only [owned, found]
      rw [own] at live kept apart seen
      have between := apart ⟨data, session.vec.capacity * sizeofInt⟩ List.mem_cons_self
      rw [Range.Apart] at between
      simp only [sizeofInt] at between larger
      have exact : session.vec.capacity * sizeofInt % 2 ^ 64 = session.vec.capacity * sizeofInt := by
        simp only [sizeofInt]
        omega
      obtain ⟨copied, called, outside, same⟩ := @copyInts_eq memory data newData session.vec.size (by
        simp only [sizeofInt]
        omega)
      have written : Live ctx copied (⟨newData, size⟩ :: ([⟨data, session.vec.capacity * sizeofInt⟩] ++ others)) := by
        refine lawful.writes live fun address beyond => outside address ?_
        have here : ¬ (newData ≤ address ∧ address < newData + size) := beyond ⟨newData, size⟩ List.mem_cons_self
        simp only [sizeofInt]
        omega
      cases called' : backend.deallocate ctx copied data (session.vec.capacity * sizeofInt) with
      | mk ctxAfter memoryAfter =>
          obtain ⟨remaining, untouched⟩ := lawful.releases written (List.mem_cons_of_mem _ List.mem_cons_self) called'
          have differ : (⟨newData, size⟩ : Range) ≠ ⟨data, session.vec.capacity * sizeofInt⟩ := by
            intro equal
            have lengths := congrArg Range.length equal
            simp only [sizeofInt] at lengths
            omega
          have rest : (⟨newData, size⟩ :: ([⟨data, session.vec.capacity * sizeofInt⟩] ++ others)).erase
              ⟨data, session.vec.capacity * sizeofInt⟩ = (⟨newData, size⟩ : Range) :: others := by
            rw [List.erase_cons_tail (by simpa using differ)]
            simp
          rw [rest] at remaining untouched
          refine ⟨copied, _, called, rfl, ?_, ?_, ?_, ?_⟩
          · simpa only [release, found, exact, World.deallocate, called'] using remaining
          · simp only [release, found, exact, World.deallocate, called', run_concat_iff]
            refine ⟨_, seen, ?_⟩
            rw [observe, if_pos (by simp), List.erase_cons_tail (by simpa using differ)]
            simp
          · simp [release, found, World.deallocate, failure]
          · rw [← elements, Session.contents]
            simp only [release, found, exact, World.deallocate, called', CustomVector.contents]
            apply List.map_congr_left
            intro index member
            have below := List.mem_range.mp member
            have target : loadInt memoryAfter (newData + sizeofInt * index) = loadInt copied (newData + sizeofInt * index) := by
              apply loadInt_congr
              intro address lower upper
              refine untouched ⟨newData, size⟩ List.mem_cons_self address ?_
              change newData ≤ address ∧ address < newData + size
              simp only [sizeofInt] at lower upper
              omega
            have source : loadInt memory (data + sizeofInt * index) =
                loadInt session.world.memory (data + sizeofInt * index) := by
              apply loadInt_congr
              intro address lower upper
              refine kept ⟨data, session.vec.capacity * sizeofInt⟩ List.mem_cons_self address ?_
              change data ≤ address ∧ address < data + session.vec.capacity * sizeofInt
              simp only [sizeofInt] at lower upper ⊢
              omega
            rw [target, same index below, source]

/-- At the capacity a push asks for a larger buffer.  When that is refused nothing has changed. -/
theorem push_full (sound : Sound Live others session) (lawful : Lawful backend Asked Live)
    (full : session.vec.capacity ≤ session.vec.size) (small : session.vec.size ≤ 2 ^ 60) (val : Int32) :
    (∃ after : Session σ, vecPushBack backend session.vec val session.world = some (false, after.vec, after.world) ∧
      Sound Live others after ∧ after.accepted = session.accepted ∧ after.vec = session.vec ∧
      after.failures = session.failures ++ [true]) ∨
    (∃ after : Session σ, vecPushBack backend session.vec val session.world = some (true, after.vec, after.world) ∧
      Sound Live others after ∧ after.accepted = session.accepted ++ [val] ∧
      after.vec.capacity = grown session.vec.capacity ∧ after.failures = session.failures ++ [false]) := by
  have bounded := sound.bounded
  obtain ⟨cap, bytes, asked, narrow, larger⟩ := @sizes_exact session.vec.capacity (by omega)
  rw [vecPushBack, if_pos full]
  simp only [cap, bytes]
  cases called : backend.allocate session.world.ctx session.world.memory (grown session.vec.capacity * sizeofInt)
      alignofInt with
  | mk result rest =>
      obtain ⟨ctx, memory⟩ := rest
      cases result with
      | none =>
          rw [allocate_none called]
          obtain ⟨live, kept⟩ := lawful.refuses sound.live asked called
          obtain ⟨_, empty, bounded, narrow, size, elements, observed⟩ := sound
          refine .inl ⟨{
            vec := session.vec
            world := { ctx, memory, history := session.world.history ++ [.refused (grown session.vec.capacity * sizeofInt)] }
            accepted := session.accepted }, rfl, ⟨live, empty, bounded, narrow, size, ?_, ?_⟩, rfl, rfl, ?_⟩
          · exact (contents_untouched kept bounded).trans elements
          · exact run_concat_iff.mpr ⟨_, observed, rfl⟩
          · simp [Session.failures, failure]
      | some newData =>
          rw [allocate_some called]
          obtain ⟨live, kept, apart⟩ := lawful.grants sound.live asked called
          have seen : run observe []
              (session.world.history ++ [.obtained ⟨newData, grown session.vec.capacity * sizeofInt⟩]) =
              some (⟨newData, grown session.vec.capacity * sizeofInt⟩ :: owned session.vec) :=
            run_concat_iff.mpr ⟨_, sound.observed, rfl⟩
          obtain ⟨copied, final, copies, releases, remaining, observed, requests, elements⟩ :=
            sound.moved lawful live kept apart (Nat.mul_lt_mul_of_pos_right larger (by decide)) (Nat.le_antisymm bounded full)
              seen
          refine .inr ⟨{
            vec := { data := some newData, size := session.vec.size + 1, capacity := grown session.vec.capacity }
            world := { final with memory := storeInt final.memory (newData + sizeofInt * session.vec.size) val }
            accepted := session.accepted ++ [val] }, ?_, ⟨?_, ?_, ?_, narrow, ?_, ?_, observed⟩, rfl, rfl, ?_⟩
          · simp only [copies, Option.bind_some, releases, append, Option.map_some]
          · refine lawful.writes remaining fun address outside => ?_
            have beyond : ¬ (newData ≤ address ∧ address < newData + grown session.vec.capacity * sizeofInt) :=
              outside ⟨newData, grown session.vec.capacity * sizeofInt⟩ List.mem_cons_self
            simp only [sizeofInt] at beyond
            exact storeLE_outside (by simp only [sizeofInt]; omega)
          · simp
          · change session.vec.size + 1 ≤ grown session.vec.capacity
            omega
          · simp [sound.size]
          · rw [← elements]
            exact @contents_append newData { session.vec with data := some newData } rfl final.memory val
          · simp [Session.failures, requests, failure]

end Sound

end HundredDays.CustomVector
