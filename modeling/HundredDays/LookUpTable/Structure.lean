import HundredDays.LookUpTable.Probe

namespace HundredDays.LookUpTable

open HundredDays.Data.Probing

/-! What holds of the slots of a table, and how single slots change. -/

variable {V : Type} {table : SymbolTable V} {slots : Nat → Slot V} {key other : Key}
  {value old : V} {contents : Key → Option V} {capacity index : Nat}

def Slot.cell (slot : Slot V) : Cell Key V :=
  match slot.state with
  | .EMPTY => .empty
  | .DELETED => .deleted
  | .OCCUPIED => .full slot.key slot.value

namespace SymbolTable

def cells (table : SymbolTable V) (index : Nat) : Cell Key V := (table.slots index).cell

/-- The table is a well-formed open-addressing table for this map; the counters
count what they are named for. -/
structure Structured (table : SymbolTable V) (contents : Key → Option V) : Prop where
  capacity : ∃ exponent, 4 ≤ exponent ∧ exponent ≤ 33 ∧ table.capacity = 2 ^ exponent
  probed : Probed (usable table.capacity) (start table.capacity) table.cells
  holds : Holds table.cells contents
  count : table.count = tally Cell.isFull (usable table.capacity) table.cells
  tombstones : table.tombstones = tally Cell.isDeleted (usable table.capacity) table.cells
  keys : ∃ keys : Finset Key, (∀ key, key ∈ keys ↔ contents key ≠ none) ∧ keys.card = table.count

end SymbolTable

open SymbolTable

theorem cell_empty {slot : Slot V} : slot.cell = .empty ↔ slot.state = .EMPTY := by
  cases same : slot.state <;> simp [Slot.cell, same]

theorem cell_deleted {slot : Slot V} : slot.cell = .deleted ↔ slot.state = .DELETED := by
  cases same : slot.state <;> simp [Slot.cell, same]

theorem cell_full {slot : Slot V} : slot.cell = .full key value ↔
    slot.state = .OCCUPIED ∧ slot.key = key ∧ slot.value = value := by
  cases same : slot.state <;> simp [Slot.cell, same]

theorem stopsAt_eq : table.stopsAt key index = stops table.cells key index := by
  cases same : (table.slots index).state <;> simp [stopsAt, stops, cells, Slot.cell, same]

theorem cells_update {slot : Slot V} {count tombstones : Nat} :
    SymbolTable.cells { table with slots := Function.update table.slots index slot, count, tombstones } =
      Function.update table.cells index slot.cell := by
  funext place
  by_cases here : place = index
  · subst place
    simp [cells]
  · simp [cells, here]

/-- Probing from the home slot of a key. -/
theorem probe_start {stop tombstone : Nat → Bool} {exponent : Nat} (same : capacity = 2 ^ exponent) :
    probe stop tombstone (maskOf capacity) (start capacity key) =
      some (stopped stop tombstone (usable capacity) (start capacity key)) := by
  have size : usable capacity = 2 ^ min exponent 32 := same ▸ usable_eq
  have mask : maskOf capacity = 2 ^ min exponent 32 - 1 := by
    rw [← size, usable, Nat.add_sub_cancel]
  have inside : start capacity key < 2 ^ min exponent 32 := by
    rw [start, mask, and_mask]
    exact Nat.mod_lt _ (Nat.two_pow_pos _)
  rw [size, mask]
  exact probe_eq (Nat.min_le_right _ _) inside

theorem start_lt {exponent : Nat} (same : capacity = 2 ^ exponent) : start capacity key < usable capacity := by
  have size : usable capacity = 2 ^ min exponent 32 := same ▸ usable_eq
  have mask : maskOf capacity = 2 ^ min exponent 32 - 1 := by
    rw [← size, usable, Nat.add_sub_cancel]
  rw [start, mask, and_mask, size]
  exact Nat.mod_lt _ (Nat.two_pow_pos _)

/-- Where a probe for the key ends. -/
theorem stopped_eq {tombstone : Nat → Bool} {size start : Nat} :
    stopped (table.stopsAt key) tombstone size start = (search size table.cells start key).map fun step =>
      (place size start step, firstTombstone tombstone size start step) := by
  have same : (fun step => table.stopsAt key (place size start step)) =
      fun step => stops table.cells key (place size start step) := by
    funext step
    exact stopsAt_eq
  rw [stopped, search, same]

namespace SymbolTable.Structured

theorem size_le_capacity (structured : table.Structured contents) :
    usable table.capacity ≤ table.capacity := by
  obtain ⟨exponent, _, _, same⟩ := structured.capacity
  rw [same, usable_eq]
  exact Nat.pow_le_pow_right (by simp) (Nat.min_le_left _ _)

theorem used_le (structured : table.Structured contents) :
    table.count + table.tombstones ≤ usable table.capacity := by
  rw [structured.count, structured.tombstones]
  exact tally_add_le

theorem missing (structured : table.Structured contents) (none : contents key = none) :
    ∀ index value, table.cells index ≠ .full key value :=
  structured.holds.missing.mp none

/-- A probe for a key of the table finds its slot. -/
theorem probe_held (structured : table.Structured contents) (tombstone : Nat → Bool)
    (held : contents key = some value) : ∃ index first,
      probe (table.stopsAt key) tombstone (maskOf table.capacity) (start table.capacity key) =
        some (some (index, first)) ∧ (table.slots index).state = .OCCUPIED ∧ (table.slots index).key = key ∧
      (table.slots index).value = value := by
  obtain ⟨exponent, _, _, same⟩ := structured.capacity
  obtain ⟨index, full⟩ := (structured.holds key value).mp held
  obtain ⟨step, searched, here⟩ := structured.probed.search_held full
  obtain ⟨state, sameKey, sameValue⟩ := cell_full.mp full
  refine ⟨index, firstTombstone tombstone (usable table.capacity) (start table.capacity key) step, ?_, state,
    sameKey, sameValue⟩
  rw [probe_start same, stopped_eq, searched, Option.map_some, here]

/-- A probe for another key ends at an empty slot, if there is one. -/
theorem probe_missing (structured : table.Structured contents) (tombstone : Nat → Bool)
    (none : contents key = none) :
    (probe (table.stopsAt key) tombstone (maskOf table.capacity) (start table.capacity key) = some .none ∧
      table.count + table.tombstones = usable table.capacity) ∨
    ∃ step, search (usable table.capacity) table.cells (start table.capacity key) key = some step ∧
      probe (table.stopsAt key) tombstone (maskOf table.capacity) (start table.capacity key) =
        some (some (place (usable table.capacity) (start table.capacity key) step,
          firstTombstone tombstone (usable table.capacity) (start table.capacity key) step)) ∧
      (table.slots (place (usable table.capacity) (start table.capacity key) step)).state = .EMPTY := by
  obtain ⟨exponent, _, _, same⟩ := structured.capacity
  rw [probe_start same, stopped_eq]
  cases searched : search (usable table.capacity) table.cells (start table.capacity key) key with
  | none =>
      refine Or.inl ⟨rfl, ?_⟩
      have most := structured.used_le
      by_contra fewer
      have few : table.count + table.tombstones < usable table.capacity := by omega
      rw [structured.count, structured.tombstones] at few
      obtain ⟨index, below, empty⟩ := exists_empty few
      obtain ⟨step, found⟩ := search_room (structured.probed.home_lt key) below empty
      rw [searched] at found
      cases found
  | some step => exact Or.inr ⟨step, rfl, rfl, cell_empty.mp (search_missing (structured.missing none) searched)⟩

theorem lookup_eq (structured : table.Structured contents) (key : Key) :
    table.lookup key = some (contents key) := by
  cases found : contents key with
  | some value =>
      obtain ⟨index, first, probed, state, _, same⟩ := structured.probe_held (fun _ => false) found
      simp [lookup, probed, state, same]
  | none =>
      cases structured.probe_missing (fun _ => false) found with
      | inl round => simp [lookup, round.1]
      | inr empty =>
          obtain ⟨step, _, probed, state⟩ := empty
          simp [lookup, probed, state]

theorem remove_missing (structured : table.Structured contents) (none : contents key = none) :
    table.remove key = some (false, table) := by
  cases structured.probe_missing (fun _ => false) none with
  | inl round => simp [remove, round.1]
  | inr empty =>
      obtain ⟨step, _, probed, state⟩ := empty
      simp [remove, probed, state]

theorem remove_held (structured : table.Structured contents) (held : contents key = some value) :
    ∃ after, table.remove key = some (true, after) ∧
      after.Structured (Function.update contents key none) ∧ after.capacity = table.capacity ∧
      after.count + 1 = table.count ∧ after.tombstones = table.tombstones + 1 := by
  obtain ⟨index, first, probed, state, sameKey, sameValue⟩ := structured.probe_held (fun _ => false) held
  obtain ⟨keys, member, card⟩ := structured.keys
  have positive : 0 < table.count := by
    rw [← card]
    exact Finset.card_pos.mpr ⟨key, (member key).mpr (by simp [held])⟩
  have full : table.cells index = .full key value := cell_full.mpr ⟨state, sameKey, sameValue⟩
  have below := structured.probed.inside index (by simp [full])
  have removed : table.remove key = some (true, { table with
      slots := Function.update table.slots index { table.slots index with state := .DELETED }
      count := table.count - 1
      tombstones := table.tombstones + 1 }) := by
    simp [remove, probed, state]
  refine ⟨_, removed, ?_, rfl, Nat.sub_add_cancel positive, rfl⟩
  constructor
  · exact structured.capacity
  · rw [cells_update]
    exact structured.probed.overwrite full (Or.inl rfl)
  · rw [cells_update]
    exact (structured.holds.overwrite structured.probed full value).2
  · rw [cells_update]
    have change := tally_update Cell.isFull table.cells (Slot.cell { table.slots index with state := .DELETED }) below
    rw [full] at change
    simp [Cell.isFull, Slot.cell, ← structured.count] at change ⊢
    omega
  · rw [cells_update]
    have change := tally_update Cell.isDeleted table.cells (Slot.cell { table.slots index with state := .DELETED }) below
    rw [full] at change
    simp [Cell.isDeleted, Slot.cell, ← structured.tombstones] at change ⊢
    omega
  · refine ⟨keys.erase key, ?_, ?_⟩
    · intro other
      rw [Finset.mem_erase, member, Function.update_apply]
      by_cases same : other = key <;> simp [same]
    · rw [Finset.card_erase_of_mem ((member key).mpr (by simp [held])), card]

/-- An insert of a key of the table changes its value. -/
theorem insertProbed_held (structured : table.Structured contents) (held : contents key = some old)
    (value : V) : ∃ after, table.insertProbed key value = some (true, after) ∧
      after.Structured (Function.update contents key (some value)) ∧ after.capacity = table.capacity ∧
      after.count = table.count ∧ after.tombstones = table.tombstones := by
  obtain ⟨index, first, probed, state, sameKey, sameValue⟩ := structured.probe_held table.tombstoneAt held
  obtain ⟨keys, member, card⟩ := structured.keys
  have full : table.cells index = .full key old := cell_full.mpr ⟨state, sameKey, sameValue⟩
  have below := structured.probed.inside index (by simp [full])
  have inserted : table.insertProbed key value = some (true, { table with
      slots := Function.update table.slots index { table.slots index with value } }) := by
    simp [insertProbed, probed, state]
  have cell : Slot.cell { table.slots index with value } = .full key value := cell_full.mpr ⟨state, sameKey, rfl⟩
  refine ⟨_, inserted, ?_, rfl, rfl, rfl⟩
  constructor
  · exact structured.capacity
  · rw [cells_update, cell]
    exact structured.probed.overwrite full (Or.inr ⟨value, rfl⟩)
  · rw [cells_update, cell]
    exact (structured.holds.overwrite structured.probed full value).1
  · rw [cells_update, cell]
    have change := tally_update Cell.isFull table.cells (.full key value) below
    rw [full] at change
    simp only [Cell.isFull, if_true, ← structured.count] at change
    exact (Nat.add_right_cancel change).symm
  · rw [cells_update, cell]
    have change := tally_update Cell.isDeleted table.cells (.full key value) below
    rw [full] at change
    simp only [Cell.isDeleted, ← structured.tombstones] at change
    exact (Nat.add_right_cancel change).symm
  · refine ⟨keys, ?_, card⟩
    intro other
    rw [member, Function.update_apply]
    by_cases same : other = key
    · simp [same, held]
    · simp [same]

/-- The slot that an insert writes: the first tombstone on the way, or the empty
slot at the end. -/
theorem dest_eq {step : Nat}
    (empty : table.cells (place (usable table.capacity) (start table.capacity key) step) = .empty) :
    ∃ dest, dest ≤ step ∧
      (firstTombstone table.tombstoneAt (usable table.capacity) (start table.capacity key) step).getD
        (place (usable table.capacity) (start table.capacity key) step) =
        place (usable table.capacity) (start table.capacity key) dest ∧
      (table.cells (place (usable table.capacity) (start table.capacity key) dest) = .deleted ∨
        table.cells (place (usable table.capacity) (start table.capacity key) dest) = .empty) := by
  cases found : (List.range step).find?
      fun step => table.tombstoneAt (place (usable table.capacity) (start table.capacity key) step) with
  | none => exact ⟨step, Nat.le_refl step, by rw [firstTombstone, found]; rfl, Or.inr empty⟩
  | some dest =>
      obtain ⟨deleted, earlier, _⟩ := List.find?_range_eq_some.mp found
      refine ⟨dest, Nat.le_of_lt (List.mem_range.mp earlier), by rw [firstTombstone, found]; rfl, Or.inl ?_⟩
      exact cell_deleted.mpr (by simpa [tombstoneAt] using deleted)

/-- An insert of a new key fills one slot, or fails when none is empty. -/
theorem insertProbed_missing (structured : table.Structured contents) (none : contents key = none)
    (value : V) :
    (table.insertProbed key value = some (false, table) ∧
      table.count + table.tombstones = usable table.capacity) ∨
    ∃ after, table.insertProbed key value = some (true, after) ∧
      after.Structured (Function.update contents key (some value)) ∧ after.capacity = table.capacity ∧
      after.count = table.count + 1 ∧ after.tombstones ≤ table.tombstones := by
  cases structured.probe_missing table.tombstoneAt none with
  | inl round => exact Or.inl ⟨by simp [insertProbed, round.1], round.2⟩
  | inr found =>
      obtain ⟨step, searched, probed, state⟩ := found
      obtain ⟨dest, before, same, unused⟩ := dest_eq (cell_empty.mpr state)
      obtain ⟨keys, member, card⟩ := structured.keys
      obtain ⟨bound, _, passed⟩ := search_eq_some.mp searched
      have nonempty : ∀ earlier < dest,
          table.cells (place (usable table.capacity) (start table.capacity key) earlier) ≠ .empty := by
        intro earlier less empty
        have ends := passed earlier (by omega)
        rw [← Bool.not_eq_true, stops_iff] at ends
        exact ends (Or.inl empty)
      have inserted : table.insertProbed key value = some (true, { table with
          slots := Function.update table.slots (place (usable table.capacity) (start table.capacity key) dest)
            { key, value, state := .OCCUPIED }
          count := table.count + 1
          tombstones := if (table.slots (place (usable table.capacity) (start table.capacity key) dest)).state =
            .DELETED then table.tombstones - 1 else table.tombstones }) := by
        simp [insertProbed, probed, state, same]
      have cell : Slot.cell { key, value, state := .OCCUPIED } = .full key value := rfl
      have below : place (usable table.capacity) (start table.capacity key) dest < usable table.capacity :=
        place_lt (structured.probed.positive key)
      have filled : Probed (usable table.capacity) (start table.capacity) (Function.update table.cells
          (place (usable table.capacity) (start table.capacity key) dest) (.full key value)) :=
        structured.probed.fill (structured.missing none) (by omega) nonempty
      generalize place (usable table.capacity) (start table.capacity key) dest = index at *
      refine Or.inr ⟨_, inserted, ?_, rfl, rfl, ?_⟩
      · constructor
        · exact structured.capacity
        · rw [cells_update, cell]
          exact filled
        · rw [cells_update, cell]
          apply structured.holds.fill none
          intro other found full
          cases unused with
          | inl deleted => rw [deleted] at full; cases full
          | inr empty => rw [empty] at full; cases full
        · rw [cells_update, cell]
          have change := tally_update Cell.isFull table.cells (.full key value) below
          cases unused with
          | inl deleted =>
              rw [deleted] at change
              simpa [Cell.isFull, ← structured.count] using change.symm
          | inr empty =>
              rw [empty] at change
              simpa [Cell.isFull, ← structured.count] using change.symm
        · rw [cells_update, cell]
          have change := tally_update Cell.isDeleted table.cells (.full key value) below
          cases unused with
          | inl deleted =>
              rw [deleted] at change
              simp only [cell_deleted.mp deleted, Cell.isDeleted, ← structured.tombstones, if_true] at change ⊢
              simp at change
              omega
          | inr empty =>
              rw [empty] at change
              simp only [cell_empty.mp empty, Cell.isDeleted, ← structured.tombstones] at change ⊢
              simpa using change.symm
        · refine ⟨keys.cons key fun inside => (member key).mp inside none, ?_, ?_⟩
          · intro other
            rw [Finset.mem_cons, member, Function.update_apply]
            by_cases same : other = key <;> simp [same]
          · rw [Finset.card_cons, card]
      · simp only
        split <;> omega

end SymbolTable.Structured

end HundredDays.LookUpTable
