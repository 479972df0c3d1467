import HundredDays.LookUpTable.Structure

namespace HundredDays.LookUpTable

open HundredDays.Data.Probing SymbolTable

/-! Moving the keys of a table to a larger one. -/

variable {V : Type} [Inhabited V] {table : SymbolTable V} {slots old new : Nat → Slot V} {key : Key}
  {value : V} {contents : Key → Option V} {capacity index done exponent : Nat}

def cellsOf (slots : Nat → Slot V) (index : Nat) : Cell Key V := (slots index).cell

/-- The new slots hold the keys of the first old slots, and no tombstones. -/
structure Rebuilding (old : Nat → Slot V) (capacity done : Nat) (new : Nat → Slot V) : Prop where
  probed : Probed (usable capacity) (start capacity) (cellsOf new)
  clean : ∀ index, cellsOf new index ≠ .deleted
  moved : ∀ key value, (∃ index, cellsOf new index = .full key value) ↔
    ∃ index < done, cellsOf old index = .full key value
  count : tally Cell.isFull (usable capacity) (cellsOf new) = tally Cell.isFull done (cellsOf old)

omit [Inhabited V] in
theorem cellsOf_update {slot : Slot V} : cellsOf (Function.update slots index slot) =
    Function.update (cellsOf slots) index slot.cell := by
  funext place
  by_cases here : place = index
  · subst place
    simp [cellsOf]
  · simp [cellsOf, here]

theorem Rebuilding.begin (same : capacity = 2 ^ exponent) :
    Rebuilding old capacity 0 fun _ => (emptySlot : Slot V) := by
  have empty : ∀ index, cellsOf (fun _ => (emptySlot : Slot V)) index = .empty := fun _ => rfl
  constructor
  · constructor
    · exact fun key => start_lt same
    · exact fun index used => absurd (empty index) used
    · intro key value step _ full
      rw [empty] at full
      cases full
    · intro key index value other old full
      rw [empty] at full
      cases full
  · intro index
    simp [empty]
  · simp [empty]
  · have uncounted : (Cell.empty : Cell Key V).isFull = false := rfl
    simp [tally, empty, uncounted]

namespace Rebuilding

omit [Inhabited V] in
theorem skip (rebuilding : Rebuilding old capacity done new) (free : (old done).state ≠ .OCCUPIED) :
    Rebuilding old capacity (done + 1) new := by
  have notFull : ∀ key value, cellsOf old done ≠ .full key value := fun key value full =>
    free (cell_full.mp full).1
  have uncounted : (cellsOf old done).isFull = false := by
    cases same : cellsOf old done with
    | empty => rfl
    | deleted => rfl
    | full key value => exact absurd same (notFull key value)
  constructor
  · exact rebuilding.probed
  · exact rebuilding.clean
  · intro key value
    rw [rebuilding.moved]
    constructor
    · intro found
      obtain ⟨index, before, full⟩ := found
      exact ⟨index, by omega, full⟩
    · intro found
      obtain ⟨index, before, full⟩ := found
      have differ : index ≠ done := by
        intro same
        exact notFull key value (same ▸ full)
      exact ⟨index, by omega, full⟩
  · rw [rebuilding.count, tally_succ, uncounted]
    simp

omit [Inhabited V] in
/-- In new slots without the key, the search stops at the slots that are not occupied. -/
theorem open_eq_stops (rebuilding : Rebuilding old capacity done new)
    (missing : ∀ index any, cellsOf new index ≠ .full key any) (index : Nat) :
    decide ((new index).state ≠ .OCCUPIED) = stops (cellsOf new) key index := by
  have clean := rebuilding.clean index
  have absent := missing index
  cases state : (new index).state with
  | EMPTY => simp [stops, cellsOf, Slot.cell, state]
  | DELETED => exact absurd (cell_deleted.mpr state) clean
  | OCCUPIED =>
      have differ : (new index).key ≠ key := by
        intro equal
        exact absent (new index).value (cell_full.mpr ⟨state, equal, rfl⟩)
      simp [stops, cellsOf, Slot.cell, state, differ]

omit [Inhabited V] in
/-- The next old slot holds a key, which goes to a free slot of its probe sequence. -/
theorem insert {step : Nat} (rebuilding : Rebuilding old capacity done new)
    (full : cellsOf old done = .full key value) (missing : ∀ index any, cellsOf new index ≠ .full key any)
    (bound : step < usable capacity)
    (nonempty : ∀ earlier < step, cellsOf new (place (usable capacity) (start capacity key) earlier) ≠ .empty)
    (empty : cellsOf new (place (usable capacity) (start capacity key) step) = .empty) :
    Rebuilding old capacity (done + 1) (Function.update new (place (usable capacity) (start capacity key) step)
      { key, value, state := .OCCUPIED }) := by
  have cell : Slot.cell { key, value, state := .OCCUPIED } = .full key value := rfl
  constructor
  · rw [cellsOf_update, cell]
    exact rebuilding.probed.fill missing bound nonempty
  · intro index deleted
    rw [cellsOf_update, cell, Function.update_apply] at deleted
    split at deleted
    next => cases deleted
    next => exact rebuilding.clean index deleted
  · intro other any
    rw [cellsOf_update, cell]
    constructor
    · intro held
      obtain ⟨index, held⟩ := held
      by_cases here : index = place (usable capacity) (start capacity key) step
      · rw [here, Function.update_self] at held
        cases held
        exact ⟨done, by omega, full⟩
      · rw [Function.update_of_ne here] at held
        obtain ⟨before, less, again⟩ := (rebuilding.moved other any).mp ⟨index, held⟩
        exact ⟨before, by omega, again⟩
    · intro held
      obtain ⟨before, less, held⟩ := held
      by_cases last : before = done
      · rw [last, full] at held
        cases held
        exact ⟨_, Function.update_self _ _ _⟩
      · obtain ⟨index, again⟩ := (rebuilding.moved other any).mpr ⟨before, by omega, held⟩
        refine ⟨index, ?_⟩
        rw [Function.update_of_ne]
        · exact again
        · intro here
          rw [here, empty] at again
          cases again
  · rw [cellsOf_update, cell, tally_succ, ← rebuilding.count, full]
    have inside : place (usable capacity) (start capacity key) step < usable capacity :=
      place_lt (rebuilding.probed.positive key)
    have change := tally_update Cell.isFull (cellsOf new) (.full key value) inside
    rw [empty] at change
    simpa [Cell.isFull] using change

omit [Inhabited V] in
/-- The next key goes to the first slot that is not occupied. -/
theorem move (rebuilding : Rebuilding old capacity done new) (same : capacity = 2 ^ exponent)
    (occupied : (old done).state = .OCCUPIED) (room : done < usable capacity)
    (unique : ∀ key index value other old', cellsOf old index = .full key value →
      cellsOf old other = .full key old' → index = other) :
    ∃ step, search (usable capacity) (cellsOf new) (start capacity (old done).key) (old done).key = some step ∧
      (new (place (usable capacity) (start capacity (old done).key) step)).state = .EMPTY ∧
      insertRaw new capacity (old done).key (old done).value =
        some (Function.update new (place (usable capacity) (start capacity (old done).key) step)
          { key := (old done).key, value := (old done).value, state := .OCCUPIED }) ∧
      Rebuilding old capacity (done + 1)
        (Function.update new (place (usable capacity) (start capacity (old done).key) step)
          { key := (old done).key, value := (old done).value, state := .OCCUPIED }) := by
  have full : cellsOf old done = .full (old done).key (old done).value := cell_full.mpr ⟨occupied, rfl, rfl⟩
  generalize (old done).key = key at full ⊢
  generalize (old done).value = value at full ⊢
  have missing : ∀ index any, cellsOf new index ≠ .full key any := by
    intro index any held
    obtain ⟨place, before, again⟩ := (rebuilding.moved key any).mp ⟨index, held⟩
    have equal := unique key place any done value again full
    omega
  have few : tally Cell.isFull (usable capacity) (cellsOf new) +
      tally Cell.isDeleted (usable capacity) (cellsOf new) < usable capacity := by
    have none : tally Cell.isDeleted (usable capacity) (cellsOf new) = 0 :=
      tally_isDeleted_eq_zero rebuilding.clean
    have most : tally Cell.isFull done (cellsOf old) ≤ done := tally_le
    rw [rebuilding.count, none]
    omega
  obtain ⟨free, below, empty⟩ := exists_empty few
  obtain ⟨step, searched⟩ := search_room (rebuilding.probed.home_lt key) below empty
  obtain ⟨bound, _, passed⟩ := search_eq_some.mp searched
  have emptyHere := search_missing missing searched
  have nonempty : ∀ earlier < step,
      cellsOf new (place (usable capacity) (start capacity key) earlier) ≠ .empty := by
    intro earlier less emptyEarlier
    have ends := passed earlier less
    rw [← Bool.not_eq_true, stops_iff] at ends
    exact ends (Or.inl emptyEarlier)
  have stopping : stopped (fun index => decide ((new index).state ≠ .OCCUPIED)) (fun _ => false) (usable capacity)
      (start capacity key) = some (place (usable capacity) (start capacity key) step,
        firstTombstone (fun _ => false) (usable capacity) (start capacity key) step) := by
    rw [stopped, show (fun step => decide ((new (place (usable capacity) (start capacity key) step)).state ≠
      .OCCUPIED)) = fun step => stops (cellsOf new) key (place (usable capacity) (start capacity key) step) from
      funext fun step => rebuilding.open_eq_stops missing _]
    rw [← search, searched]
    rfl
  refine ⟨step, searched, cell_empty.mp emptyHere, ?_, rebuilding.insert full missing bound nonempty emptyHere⟩
  rw [insertRaw, probe_start same, stopping]
  rfl

end Rebuilding

/-- The loop of `resize` over the first old slots. -/
theorem rebuild_exists (same : capacity = 2 ^ exponent)
    (unique : ∀ key index value other old', cellsOf old index = .full key value →
      cellsOf old other = .full key old' → index = other)
    (room : ∀ index, (old index).state = .OCCUPIED → index < usable capacity) (count : Nat) :
    ∃ new, (List.range count).foldlM (fun newSlots index =>
        if (old index).state = .OCCUPIED then insertRaw newSlots capacity (old index).key (old index).value
        else some newSlots) (fun _ => (emptySlot : Slot V)) = some new ∧
      Rebuilding old capacity count new := by
  induction count with
  | zero => exact ⟨fun _ => emptySlot, rfl, Rebuilding.begin same⟩
  | succ count ih =>
      obtain ⟨new, folded, rebuilding⟩ := ih
      rw [List.range_succ, List.foldlM_append, folded]
      by_cases occupied : (old count).state = .OCCUPIED
      · obtain ⟨step, _, _, inserted, further⟩ := rebuilding.move same occupied (room count occupied) unique
        exact ⟨_, by simp [occupied, inserted], further⟩
      · exact ⟨new, by simp [occupied], rebuilding.skip occupied⟩

omit [Inhabited V] in
/-- The slots of a table of twice the size can take all its keys. -/
theorem SymbolTable.Structured.doubled (structured : table.Structured contents)
    (small : table.capacity ≤ 2 ^ 32) :
    ∃ exponent, 4 ≤ exponent ∧ exponent ≤ 33 ∧ table.capacity * 2 = 2 ^ exponent ∧
      ∀ index, (table.slots index).state = .OCCUPIED → index < usable (table.capacity * 2) := by
  obtain ⟨exponent, least, _, same⟩ := structured.capacity
  have doubled : table.capacity * 2 = 2 ^ (exponent + 1) := by rw [same, Nat.pow_succ]
  have larger : usable table.capacity ≤ usable (table.capacity * 2) := by
    rw [doubled, same, usable_eq, usable_eq]
    exact Nat.pow_le_pow_right (by simp) (by omega)
  have most : exponent ≤ 32 := by
    rw [same] at small
    exact (Nat.pow_le_pow_iff_right (by simp)).mp small
  refine ⟨exponent + 1, by omega, by omega, doubled, ?_⟩
  intro index occupied
  have below := structured.probed.inside index (by simp [cells, Slot.cell, occupied])
  omega

/-- A table of twice the size has the same contents and no tombstones. -/
theorem SymbolTable.Structured.resize_eq (structured : table.Structured contents)
    (small : table.capacity ≤ 2 ^ 32) :
    ∃ after, table.resize (table.capacity * 2) = some after ∧ after.Structured contents ∧
      after.capacity = table.capacity * 2 ∧ after.count = table.count ∧ after.tombstones = 0 := by
  obtain ⟨exponent, least, most, doubled, room⟩ := structured.doubled small
  obtain ⟨new, folded, rebuilding⟩ := rebuild_exists doubled structured.probed.unique room table.capacity
  have resized : table.resize (table.capacity * 2) =
      some { table with slots := new, capacity := table.capacity * 2, tombstones := 0 } := by
    rw [resize, folded]
    rfl
  refine ⟨_, resized, ?_, rfl, rfl, rfl⟩
  have inside : ∀ key value, (∃ index < table.capacity, cellsOf table.slots index = .full key value) ↔
      ∃ index, table.cells index = .full key value := by
    intro key value
    constructor
    · intro found
      obtain ⟨index, _, full⟩ := found
      exact ⟨index, full⟩
    · intro found
      obtain ⟨index, full⟩ := found
      have below := structured.probed.inside index (by simp [full])
      exact ⟨index, Nat.lt_of_lt_of_le below structured.size_le_capacity, full⟩
  constructor
  · exact ⟨exponent, least, most, doubled⟩
  · exact rebuilding.probed
  · intro key value
    rw [structured.holds, ← inside]
    exact (rebuilding.moved key value).symm
  · rw [structured.count]
    refine Eq.trans ?_ rebuilding.count.symm
    exact (tally_extend structured.probed.inside rfl structured.size_le_capacity).symm
  · exact (tally_isDeleted_eq_zero rebuilding.clean).symm
  · exact structured.keys

end HundredDays.LookUpTable
