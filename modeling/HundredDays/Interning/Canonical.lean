import HundredDays.Data.Probing
import HundredDays.Interning.Model

namespace HundredDays.Interning

open HundredDays.Data.Probing

/-! Equal strings have one pointer, and different strings have different ones, as long as
the pool is not full: a full pool returns null even for a string that it holds.
-/

/-- What a bucket holds. -/
def State.cells (state : State) (index : Nat) : Cell CString Address :=
  match state.pool.buckets index with
  | none => .empty
  | some pointer =>
      match state.copies pointer with
      | none => .deleted
      | some str => .full str pointer

/-- Where the search for a string begins. -/
def home (capacity : Nat) (str : CString) : Nat := (fnv1a str).toNat % capacity

theorem home_eq {capacity : Nat} {str : CString} : (fnv1a str).toNat % capacity = home capacity str := rfl

/-- What two calls on one pool have to do with each other. -/
def Consistent (earlier later : Event) : Prop :=
  ∀ pointer, earlier.result = some pointer →
    (later.str = earlier.str → later.result = if later.full then none else some pointer) ∧
      (later.str ≠ earlier.str → later.result ≠ some pointer)

structure Sound (state : State) (past : List Event) : Prop where
  probed : 0 < state.pool.capacity → Probed state.pool.capacity (home state.pool.capacity) state.cells
  held : ∀ index pointer, state.pool.buckets index = some pointer →
    ∃ str, state.cells index = .full str pointer
  strings : ∀ event ∈ past, ∀ pointer, event.result = some pointer →
    ∃ str index, event.str = some str ∧ state.cells index = .full str pointer
  known : ∀ index str pointer, state.cells index = .full str pointer → str ∈ interned past
  count : state.pool.count = (interned past).card
  full : tally Cell.isFull state.pool.capacity state.cells = state.pool.count
  bounded : state.pool.count ≤ state.pool.capacity

variable {state : State} {past : List Event} {event : Event} {str other : CString} {index fuel step start visited : Nat}
  {pointer : Address} {strdup : Option Address}

theorem cells_eq_empty : state.cells index = .empty ↔ state.pool.buckets index = none := by
  rw [State.cells]
  split
  next none => simp [none]
  next pointer found => split <;> simp [found]

theorem cells_eq_full : state.cells index = .full str pointer ↔
    state.pool.buckets index = some pointer ∧ state.copies pointer = some str := by
  rw [State.cells]
  split
  next none => simp [none]
  next pointer found =>
    split
    next missing =>
      simp only [found, Option.some_inj, reduceCtorEq, false_iff, not_and]
      rintro rfl
      simp [missing]
    next copy present =>
      simp only [found, Option.some_inj, Cell.full.injEq]
      constructor
      · rintro ⟨rfl, rfl⟩
        exact ⟨rfl, present⟩
      · rintro ⟨rfl, same⟩
        rw [present] at same
        exact ⟨Option.some.inj same, rfl⟩

/-- One pointer is that of one string. -/
theorem string_unique {place : Nat} (first : state.cells index = .full str pointer)
    (second : state.cells place = .full other pointer) : str = other := by
  have same := (cells_eq_full.mp first).2
  rw [(cells_eq_full.mp second).2] at same
  exact (Option.some.inj same).symm

theorem mem_interned : str ∈ interned past ↔
    ∃ event ∈ past, ∃ pointer, event.result = some pointer ∧ event.str = some str := by
  rw [interned, List.mem_toFinset, List.mem_filterMap]
  apply exists_congr
  intro event
  cases returned : event.result <;> simp

theorem interned_quiet (quiet : event.result = none) : interned (past ++ [event]) = interned past := by
  simp [interned, quiet]

theorem interned_concat (returned : event.result = some pointer) (called : event.str = some str) :
    interned (past ++ [event]) = insert str (interned past) := by
  rw [interned, List.filterMap_append, List.toFinset_append, Finset.union_comm]
  simp [interned, returned, called]

theorem Consistent.of_none {earlier : Event} (quiet : event.result = none)
    (gone : event.str = earlier.str → earlier.result ≠ none → event.full = true) : Consistent earlier event := by
  intro pointer returned
  constructor
  · intro same
    rw [quiet, gone same (by simp [returned]), if_pos rfl]
  · intro _
    rw [quiet]
    simp

namespace Sound

theorem clean (sound : Sound state past) : state.cells index ≠ .deleted := by
  intro deleted
  cases found : state.pool.buckets index with
  | none =>
      rw [cells_eq_empty.mpr found] at deleted
      cases deleted
  | some pointer =>
      obtain ⟨str, full⟩ := sound.held index pointer found
      rw [full] at deleted
      cases deleted

/-- A call that returns null. -/
theorem quiet (sound : Sound state past) (null : event.result = none) : Sound state (past ++ [event]) where
  probed := sound.probed
  held := sound.held
  strings := by
    intro older member pointer returned
    rcases List.mem_append.mp member with inPast | last
    · exact sound.strings older inPast pointer returned
    · rw [List.mem_singleton.mp last, null] at returned
      cases returned
  known := by rw [interned_quiet null]; exact sound.known
  count := by rw [interned_quiet null]; exact sound.count
  full := sound.full
  bounded := sound.bounded

/-- A call that finds its string. -/
theorem found (sound : Sound state past) (present : state.cells index = .full str pointer)
    (returned : event.result = some pointer) (called : event.str = some str) : Sound state (past ++ [event]) := by
  have same : interned (past ++ [event]) = interned past := by
    rw [interned_concat returned called, Finset.insert_eq_of_mem (sound.known index str pointer present)]
  constructor
  · exact sound.probed
  · exact sound.held
  · intro older member address issued
    rcases List.mem_append.mp member with inPast | last
    · exact sound.strings older inPast address issued
    · rw [List.mem_singleton.mp last, returned] at issued
      cases issued
      exact ⟨str, index, by rw [List.mem_singleton.mp last, called], present⟩
  · rw [same]
    exact sound.known
  · rw [same]
    exact sound.count
  · exact sound.full
  · exact sound.bounded

/-- The cells after a copy at a new address is put into an empty one. -/
theorem cells_store (sound : Sound state past) (fresh : state.copies pointer = none) :
    (state.store index pointer str).cells = Function.update state.cells index (.full str pointer) := by
  funext place
  by_cases here : place = index
  · rw [here, Function.update_self, cells_eq_full]
    exact ⟨Function.update_self .., Function.update_self ..⟩
  · rw [Function.update_of_ne here]
    cases found : state.pool.buckets place with
    | none =>
        rw [cells_eq_empty.mpr found, cells_eq_empty, ← found]
        exact Function.update_of_ne here ..
    | some other =>
        obtain ⟨old, full⟩ := sound.held place other found
        have present := (cells_eq_full.mp full).2
        have differ : other ≠ pointer := by
          intro same
          rw [← same, present] at fresh
          cases fresh
        rw [full, cells_eq_full]
        exact ⟨(Function.update_of_ne here ..).trans found, (Function.update_of_ne differ ..).trans present⟩

/-- A call that stores a copy. -/
theorem store (sound : Sound state past) (fresh : state.copies pointer = none)
    (room : state.pool.count < state.pool.capacity) (bound : step < state.pool.capacity)
    (empty : state.cells (place state.pool.capacity (home state.pool.capacity str) step) = .empty)
    (passed : ∀ earlier < step, state.cells (place state.pool.capacity (home state.pool.capacity str) earlier) ≠ .empty)
    (missing : ∀ index value, state.cells index ≠ .full str value)
    (returned : event.result = some pointer) (called : event.str = some str) :
    Sound (state.store (place state.pool.capacity (home state.pool.capacity str) step) pointer str)
      (past ++ [event]) := by
  have positive : 0 < state.pool.capacity := by omega
  have cells : (state.store (place state.pool.capacity (home state.pool.capacity str) step) pointer str).cells =
      Function.update state.cells (place state.pool.capacity (home state.pool.capacity str) step) (.full str pointer) :=
    sound.cells_store fresh
  have absent : str ∉ interned past := by
    intro member
    obtain ⟨older, inPast, issued, result, same⟩ := mem_interned.mp member
    obtain ⟨_, index, own, full⟩ := sound.strings older inPast issued result
    rw [same] at own
    cases own
    exact missing index issued full
  have kept (index : Nat) (held : state.cells index ≠ .empty) :
      (state.store (place state.pool.capacity (home state.pool.capacity str) step) pointer str).cells index =
        state.cells index := by
    rw [cells, Function.update_of_ne]
    rintro rfl
    exact held empty
  constructor
  · intro _
    rw [cells]
    exact (sound.probed positive).fill missing bound passed
  · intro index held present
    by_cases here : index = place state.pool.capacity (home state.pool.capacity str) step
    · have own : held = pointer := by
        rw [here, State.store_buckets, Function.update_self] at present
        exact (Option.some.inj present).symm
      exact ⟨str, by rw [cells, here, Function.update_self, own]⟩
    · rw [State.store_buckets, Function.update_of_ne here] at present
      obtain ⟨old, full⟩ := sound.held index held present
      exact ⟨old, by rw [kept index (by simp [full]), full]⟩
  · intro older member issued result
    rcases List.mem_append.mp member with inPast | last
    · obtain ⟨old, index, own, full⟩ := sound.strings older inPast issued result
      exact ⟨old, index, own, by rw [kept index (by simp [full]), full]⟩
    · rw [List.mem_singleton.mp last] at result ⊢
      rw [returned] at result
      cases result
      exact ⟨str, _, called, by rw [cells, Function.update_self]⟩
  · intro index old issued full
    rw [interned_concat returned called, Finset.mem_insert]
    by_cases here : index = place state.pool.capacity (home state.pool.capacity str) step
    · rw [cells, here, Function.update_self] at full
      cases full
      exact .inl rfl
    · rw [cells, Function.update_of_ne here] at full
      exact .inr (sound.known index old issued full)
  · rw [interned_concat returned called, Finset.card_insert_of_notMem absent, ← sound.count]
    rfl
  · have moved := tally_update Cell.isFull state.cells (.full str pointer) (place_lt positive :
      place state.pool.capacity (home state.pool.capacity str) step < state.pool.capacity)
    rw [empty, sound.full] at moved
    rw [cells]
    simpa [Cell.isFull] using moved
  · exact room

end Sound

/-- The loop ends where the search does. -/
theorem findBucket_eq (sound : Sound state past)
    (searched : search state.pool.capacity state.cells start str = some step) (before : visited ≤ step)
    (enough : step < visited + fuel) :
    findBucket state str (place state.pool.capacity start visited) fuel =
      some (place state.pool.capacity start step) := by
  obtain ⟨bound, ends, passed⟩ := search_eq_some.mp searched
  induction fuel generalizing visited with
  | zero => omega
  | succ fuel ih =>
      rw [findBucket]
      cases found : state.pool.buckets (place state.pool.capacity start visited) with
      | none =>
          have stop : visited = step := by
            by_contra early
            have onward := passed visited (by omega)
            rw [← Bool.not_eq_true, stops_iff] at onward
            exact onward (.inl (cells_eq_empty.mpr found))
          rw [stop]
      | some pointer =>
          obtain ⟨old, full⟩ := sound.held _ _ found
          simp only [(cells_eq_full.mp full).2, Option.bind_eq_bind, Option.bind_some]
          by_cases last : visited = step
          · rw [← last, stops_iff, full] at ends
            have same : old = str := by simpa using ends
            rw [if_pos same, last]
          · have onward := passed visited (by omega)
            rw [← Bool.not_eq_true, stops_iff, full] at onward
            have differ : old ≠ str := by simpa using onward
            rw [if_neg differ, ← place_succ]
            exact ih (by omega) (by omega)

/-- One call on a pool. -/
theorem Sound.poolIntern (sound : Sound state past) (str : CString) (enough : state.pool.capacity ≤ fuel)
    (fresh : ∀ copy, strdup = some copy → state.copies copy = none) :
    ∃ result after, Interning.poolIntern fuel strdup state str = some (result, after) ∧
      after.pool.capacity = state.pool.capacity ∧
      (∀ copy, after.copies copy ≠ none → state.copies copy ≠ none ∨ strdup = some copy) ∧
      Sound after (past ++ [⟨some str, result, state.pool.count ≥ state.pool.capacity⟩]) ∧
      ∀ earlier ∈ past, Consistent earlier ⟨some str, result, state.pool.count ≥ state.pool.capacity⟩ := by
  by_cases full : state.pool.count ≥ state.pool.capacity
  · refine ⟨none, state, if_pos full, rfl, fun copy held => .inl held, sound.quiet rfl, ?_⟩
    intro earlier _
    exact .of_none rfl fun _ _ => decide_eq_true full
  have positive : 0 < state.pool.capacity := by omega
  have probed := sound.probed positive
  obtain ⟨free, below, room⟩ : ∃ index, index < state.pool.capacity ∧ state.cells index = .empty := by
    apply exists_empty
    rw [tally_isDeleted_eq_zero fun _ => sound.clean, sound.full]
    omega
  obtain ⟨step, searched⟩ : ∃ step,
      search state.pool.capacity state.cells (home state.pool.capacity str) str = some step :=
    search_room (probed.home_lt str) below room
  obtain ⟨bound, ends, passed⟩ := search_eq_some.mp searched
  have bucket : findBucket state str (place state.pool.capacity (home state.pool.capacity str) 0) fuel = _ :=
    findBucket_eq sound searched (Nat.zero_le step) (by omega)
  rw [place_zero (probed.home_lt str)] at bucket
  rw [Interning.poolIntern, if_neg full]
  simp only [home_eq, bucket, Option.bind_eq_bind, Option.bind_some]
  cases there : state.pool.buckets (place state.pool.capacity (home state.pool.capacity str) step) with
  | some pointer =>
      obtain ⟨old, held⟩ := sound.held _ _ there
      have same : old = str := by
        rw [stops_iff, held] at ends
        simpa using ends
      subst old
      refine ⟨some pointer, state, rfl, rfl, fun copy present => .inl present, sound.found held rfl rfl, ?_⟩
      intro earlier member issued returned
      obtain ⟨own, index, called, inBucket⟩ := sound.strings earlier member issued returned
      constructor
      · intro equal
        rw [called] at equal
        cases equal
        have one := probed.unique _ index issued _ pointer inBucket held
        rw [one, held] at inBucket
        cases inBucket
        rw [if_neg (by simp; omega)]
      · intro differ again
        cases again
        exact differ (by rw [called, string_unique inBucket held])
  | none =>
      have empty := cells_eq_empty.mpr there
      have missing (index : Nat) (pointer : Address) : state.cells index ≠ .full str pointer := by
        intro held
        obtain ⟨other, again, here⟩ := probed.search_held held
        rw [searched] at again
        cases again
        rw [here, held] at empty
        cases empty
      have unknown (earlier : Event) (member : earlier ∈ past) (same : some str = earlier.str) :
          earlier.result = none := by
        cases returned : earlier.result with
        | none => rfl
        | some issued =>
            obtain ⟨own, index, called, held⟩ := sound.strings earlier member issued returned
            rw [called] at same
            cases same
            exact absurd held (missing index issued)
      cases copied : strdup with
      | none =>
          refine ⟨none, state, rfl, rfl, fun copy present => .inl present, sound.quiet rfl, ?_⟩
          intro earlier member
          exact .of_none rfl fun same issued => absurd (unknown earlier member same) issued
      | some copy =>
          have new := fresh copy copied
          refine ⟨some copy, _, rfl, rfl, ?_, ?_, ?_⟩
          · intro other present
            by_cases same : other = copy
            · exact .inr (by rw [same])
            · rw [State.store_copies, Function.update_of_ne same] at present
              exact .inl present
          · refine sound.store new (by omega) bound empty ?_ missing rfl rfl
            intro earlier before free
            have onward := passed earlier before
            rw [← Bool.not_eq_true, stops_iff] at onward
            exact onward (.inl free)
          · intro earlier member issued returned
            obtain ⟨own, index, called, held⟩ := sound.strings earlier member issued returned
            constructor
            · intro same
              rw [unknown earlier member same] at returned
              cases returned
            · intro _ again
              cases again
              rw [(cells_eq_full.mp held).2] at new
              cases new

/-- A pool that was created, or null, after some calls. -/
def SoundPool (capacity : Nat) (past : List Event) : Option State → Prop
  | none => ∀ event ∈ past, event.result = none
  | some state => state.pool.capacity = capacity ∧ Sound state past

variable {capacity : Nat} {pool : Option State} {call : Call} {calls : List Call}

/-- The addresses that `strdup` will return are not those of copies. -/
def Fresh (pool : Option State) (calls : List Call) : Prop :=
  (calls.filterMap Call.strdup).Nodup ∧
    ∀ state, pool = some state → ∀ copy ∈ calls.filterMap Call.strdup, state.copies copy = none

theorem poolCreate_sound {malloc calloc : Bool} :
    SoundPool capacity [] (poolCreate malloc calloc capacity) ∧
      ∀ state, poolCreate malloc calloc capacity = some state → ∀ copy, state.copies copy = none := by
  rw [poolCreate]
  split
  · constructor
    · refine ⟨rfl, ⟨?_, ?_, ?_, ?_, ?_, ?_, ?_⟩⟩
      · intro positive
        refine ⟨fun str => Nat.mod_lt _ positive, fun index held => absurd rfl held, ?_, ?_⟩
        · intro str pointer step bound held
          cases held
        · intro str index pointer place other held
          cases held
      · intro index pointer held
        cases held
      · intro event member
        cases member
      · intro index str pointer held
        cases held
      · rfl
      · simp [tally, State.cells, Cell.isFull]
      · exact Nat.zero_le _
    · intro state created copy
      cases created
      rfl
  · constructor
    · intro event member
      cases member
    · intro state created
      cases created

/-- One call. -/
theorem callIntern_sound (sound : SoundPool capacity past pool) (enough : capacity ≤ fuel)
    (fresh : Fresh pool (call :: calls)) :
    ∃ event after, callIntern fuel pool call = some (event, after) ∧ event.str = call.str ∧ Fresh after calls ∧
      SoundPool capacity (past ++ [event]) after ∧ ∀ earlier ∈ past, Consistent earlier event := by
  have rest : (calls.filterMap Call.strdup).Nodup :=
    fresh.1.sublist ((List.sublist_cons_self call calls).filterMap Call.strdup)
  have member (copy : Address) (inside : copy ∈ calls.filterMap Call.strdup) :
      copy ∈ (call :: calls).filterMap Call.strdup :=
    ((List.sublist_cons_self call calls).filterMap Call.strdup).subset inside
  obtain ⟨given, strdup⟩ := call
  cases pool with
  | none =>
      refine ⟨⟨given, none, false⟩, none, rfl, rfl, ⟨rest, by simp⟩, ?_, ?_⟩
      · intro event inside
        rcases List.mem_append.mp inside with inPast | last
        · exact sound event inPast
        · rw [List.mem_singleton.mp last]
      · intro earlier inside pointer returned
        rw [sound earlier inside] at returned
        cases returned
  | some state =>
      obtain ⟨size, sound⟩ := sound
      cases given with
      | none =>
          refine ⟨⟨none, none, false⟩, some state, rfl, rfl, ⟨rest, ?_⟩,
            ⟨size, sound.quiet rfl⟩, ?_⟩
          · intro same equal copy inside
            cases equal
            exact fresh.2 state rfl copy (member copy inside)
          · intro earlier inside
            apply Consistent.of_none rfl
            intro null issued
            obtain ⟨pointer, returned⟩ := Option.ne_none_iff_exists'.mp issued
            obtain ⟨str, _, named, _⟩ := sound.strings earlier inside pointer returned
            rw [named] at null
            cases null
      | some str =>
          have new (copy : Address) (copied : strdup = some copy) : state.copies copy = none := by
            apply fresh.2 state rfl copy
            simp [copied]
          obtain ⟨result, after, interned, same, copies, kept, related⟩ :=
            sound.poolIntern str (size ▸ enough) new
          refine ⟨⟨some str, result, state.pool.count ≥ state.pool.capacity⟩, some after, ?_, rfl, ⟨rest, ?_⟩,
            ⟨same.trans size, kept⟩, related⟩
          · simp [callIntern, interned]
          · intro final equal copy inside
            cases equal
            by_contra held
            rcases copies copy held with before | now
            · exact before (fresh.2 state rfl copy (member copy inside))
            · have twice := fresh.1
              rw [List.filterMap_cons, now] at twice
              exact (List.nodup_cons.mp twice).1 inside

theorem run_sound (sound : SoundPool capacity past pool) (enough : capacity ≤ fuel) (fresh : Fresh pool calls)
    (consistent : past.Pairwise Consistent) :
    ∃ events after, run fuel pool calls = some (events, after) ∧ events.map Event.str = calls.map Call.str ∧
      SoundPool capacity (past ++ events) after ∧ (past ++ events).Pairwise Consistent := by
  induction calls generalizing past pool with
  | nil => exact ⟨[], pool, rfl, rfl, by simpa using sound, by simpa using consistent⟩
  | cons call calls ih =>
      obtain ⟨event, next, called, named, later, kept, related⟩ := callIntern_sound sound enough fresh
      have extended : (past ++ [event]).Pairwise Consistent := by
        rw [List.pairwise_append]
        refine ⟨consistent, List.pairwise_singleton .., ?_⟩
        intro earlier member last inLast
        rw [List.mem_singleton.mp inLast]
        exact related earlier member
      obtain ⟨events, after, ran, names, sound, pairs⟩ := ih kept later extended
      rw [List.append_assoc, List.singleton_append] at sound pairs
      exact ⟨event :: events, after, by simp [run, called, ran], by simp [named, names], sound, pairs⟩

/-- While the pool is not full, a string gets the pointer that it had before; a full pool returns null.  No other
string gets it, every call ends, and the strings are counted. -/
theorem pool_intern_canonical (malloc calloc : Bool) (capacity fuel : Nat) (enough : capacity ≤ fuel)
    (calls : List Call) (fresh : (calls.filterMap Call.strdup).Nodup) :
    ∃ events after, run fuel (poolCreate malloc calloc capacity) calls = some (events, after) ∧
      events.map Event.str = calls.map Call.str ∧ events.Pairwise Consistent ∧
      ∀ state, after = some state →
        state.pool.capacity = capacity ∧ state.pool.count = (interned events).card ∧ state.pool.count ≤ capacity := by
  obtain ⟨sound, clear⟩ := @poolCreate_sound capacity malloc calloc
  obtain ⟨events, after, ran, names, sound, consistent⟩ :=
    run_sound sound enough ⟨fresh, fun state same copy _ => clear state same copy⟩ List.Pairwise.nil
  refine ⟨events, after, ran, names, consistent, ?_⟩
  intro state equal
  subst after
  exact ⟨sound.1, sound.2.count, sound.1 ▸ sound.2.bounded⟩

/-- A string of one byte. -/
def letter (byte : UInt8) (noNul : 0 ∉ [byte]) : CString := ⟨[byte], noNul⟩

theorem pool_intern_canonical_pair :
    ∃ events after,
      run 2 (poolCreate true true 2) [⟨some (letter 97 (by decide)), some 100⟩, ⟨none, none⟩,
        ⟨some (letter 97 (by decide)), none⟩] = some (events, after) ∧ events.Pairwise Consistent := by
  obtain ⟨events, after, ran, _, consistent, _⟩ := pool_intern_canonical true true 2 2 le_rfl
    [⟨some (letter 97 (by decide)), some 100⟩, ⟨none, none⟩, ⟨some (letter 97 (by decide)), none⟩] (by decide)
  exact ⟨events, after, ran, consistent⟩

/-- In a pool of one bucket, the string that it holds is not found again. -/
theorem pool_full_loses_string :
    ¬ ∀ (capacity fuel : Nat) (calls : List Call), capacity ≤ fuel → (calls.filterMap Call.strdup).Nodup →
      ∃ events after, run fuel (poolCreate true true capacity) calls = some (events, after) ∧
        events.Pairwise fun earlier later =>
          ∀ pointer, earlier.result = some pointer → later.str = earlier.str → later.result = some pointer := by
  intro claim
  have session : (run 1 (poolCreate true true 1) [⟨some (letter 97 (by decide)), some 100⟩,
      ⟨some (letter 97 (by decide)), none⟩]).map Prod.fst =
        some [⟨some (letter 97 (by decide)), some 100, false⟩, ⟨some (letter 97 (by decide)), none, true⟩] := by
    decide
  obtain ⟨events, after, ran, same⟩ := claim 1 1
    [⟨some (letter 97 (by decide)), some 100⟩, ⟨some (letter 97 (by decide)), none⟩] le_rfl (by decide)
  rw [ran, Option.map_some, Option.some_inj] at session
  rw [show events = _ from session, List.pairwise_pair] at same
  exact absurd (same 100 rfl rfl) (by simp)

end HundredDays.Interning
