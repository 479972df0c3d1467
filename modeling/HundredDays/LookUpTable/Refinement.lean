import HundredDays.LookUpTable.Resize
import HundredDays.Semantics.Run

namespace HundredDays.LookUpTable

open HundredDays.Data.Probing HundredDays.Semantics SymbolTable

/-! The C++ `SymbolTable` as a finite map. -/

variable {V : Type} [Inhabited V] {table after : SymbolTable V} {key : Key} {value old : V}
  {contents : Key → Option V}

inductive Request (V : Type) where
  | insert (key : Key) (value : V)
  | lookup (key : Key)
  | remove (key : Key)

def step (table : SymbolTable V) : Request V → Option (SymbolTable V)
  | .insert key value => (table.insert key value).map Prod.snd
  | .lookup key => (table.lookup key).map fun _ => table
  | .remove key => (table.remove key).map Prod.snd

/-- What a request does to the map. -/
def Request.apply (contents : Key → Option V) : Request V → Key → Option V
  | .insert key value => Function.update contents key (some value)
  | .lookup _ => contents
  | .remove key => Function.update contents key none

/-- The last insert of each key that no remove of the key follows. -/
def contentsAfter (requests : List (Request V)) : Key → Option V :=
  requests.foldl Request.apply fun _ => none

/-- A structured table whose load is within the limit. -/
structure Consistent (table : SymbolTable V) (contents : Key → Option V) : Prop where
  structured : table.Structured contents
  load : overloaded (table.count + table.tombstones) table.capacity = false

theorem create_consistent : Consistent (create 16 : SymbolTable V) fun _ => none := by
  have empty : ∀ index, (create 16 : SymbolTable V).cells index = .empty := fun _ => rfl
  have begun : Rebuilding (create 16 : SymbolTable V).slots 16 0 (create 16 : SymbolTable V).slots :=
    Rebuilding.begin (show 16 = 2 ^ 4 from rfl)
  refine ⟨?_, by simp [overloaded, create]⟩
  constructor
  · exact ⟨4, by omega, by omega, rfl⟩
  · exact begun.probed
  · intro key value
    simp [empty]
  · exact begun.count.symm
  · exact (tally_isDeleted_eq_zero begun.clean).symm
  · exact ⟨∅, by simp, rfl⟩

/-- A lighter table is not overloaded either. -/
theorem overloaded_mono {used more capacity : Nat} (less : used ≤ more)
    (light : overloaded more capacity = false) : overloaded used capacity = false := by
  simp only [overloaded, decide_eq_false_iff_not, Nat.not_lt] at light ⊢
  exact Nat.le_trans (Nat.mul_le_mul_right _ less) light

namespace Consistent

omit [Inhabited V] in
theorem count_lt (consistent : Consistent table contents) :
    table.count + table.tombstones < table.capacity := by
  obtain ⟨exponent, least, _, same⟩ := consistent.structured.capacity
  have load := consistent.load
  have positive : 0 < table.capacity := same ▸ Nat.two_pow_pos exponent
  simp only [overloaded, decide_eq_false_iff_not] at load
  omega

omit [Inhabited V] in
/-- Without an empty slot the table uses all the slots that a mask can reach. -/
theorem full (consistent : Consistent table contents)
    (none : table.count + table.tombstones = usable table.capacity) :
    table.count + table.tombstones = 2 ^ 32 := by
  obtain ⟨exponent, least, most, same⟩ := consistent.structured.capacity
  have more := consistent.count_lt
  rw [none, same, usable_eq] at more ⊢
  have larger : min exponent 32 < exponent := (Nat.pow_lt_pow_iff_right (by simp)).mp more
  congr 1
  omega

omit [Inhabited V] in
/-- A table of `2 ^ 33` slots is never overloaded: only half of them are used. -/
theorem capacity_le (consistent : Consistent table contents)
    (load : overloaded (table.count + table.tombstones + 1) table.capacity = true) :
    table.capacity ≤ 2 ^ 32 := by
  obtain ⟨exponent, least, most, same⟩ := consistent.structured.capacity
  have used := consistent.structured.used_le
  have reach : usable table.capacity ≤ 2 ^ 32 := usable_le
  rw [same] at load ⊢
  by_cases last : exponent = 33
  · simp only [overloaded, decide_eq_true_eq, last] at load
    omega
  · exact Nat.pow_le_pow_right (by simp) (by omega)

/-- The doubled table has room for another key. -/
theorem resized (consistent : Consistent table contents)
    (load : overloaded (table.count + table.tombstones + 1) table.capacity = true) :
    ∃ after, table.resize (table.capacity * 2 % 2 ^ 64) = some after ∧ after.Structured contents ∧
      after.count = table.count ∧ after.tombstones = 0 ∧ after.capacity = 2 * table.capacity ∧
      table.count < usable after.capacity ∧ overloaded (table.count + 1) after.capacity = false := by
  have small := consistent.capacity_le load
  obtain ⟨after, resized, structured, doubled, count, tombstones⟩ := consistent.structured.resize_eq small
  have less := consistent.count_lt
  have fits : table.capacity * 2 % 2 ^ 64 = table.capacity * 2 := Nat.mod_eq_of_lt (by omega)
  have larger : table.capacity ≤ usable after.capacity := by
    obtain ⟨exponent, least, most, same⟩ := consistent.structured.capacity
    rw [doubled, same, ← Nat.pow_succ, usable_eq]
    rw [same] at small
    have bound := (Nat.pow_le_pow_iff_right (by simp)).mp small
    exact Nat.pow_le_pow_right (by simp) (by omega)
  refine ⟨after, by rw [fits, resized], structured, count, tombstones, by omega, by omega, ?_⟩
  simp only [overloaded, decide_eq_false_iff_not, doubled]
  omega

/-- An insert succeeds, after doubling the table where the load asks for it, unless
the key is new and every reachable slot is in use. -/
theorem insert_cases (consistent : Consistent table contents) (key : Key) (value : V) :
    (table.insert key value = some (false, table) ∧ contents key = none ∧
      table.count + table.tombstones = 2 ^ 32) ∨
    ∃ after, table.insert key value = some (true, after) ∧
      Consistent after (Function.update contents key (some value)) ∧
      after.count = table.count + (if contents key = none then 1 else 0) ∧
      after.count + after.tombstones ≤ table.count + table.tombstones + 1 := by
  cases load : overloaded (table.count + table.tombstones + 1) table.capacity with
  | false =>
      have direct : table.insert key value = table.insertProbed key value := by
        simp [SymbolTable.insert, load]
      rw [direct]
      cases found : contents key with
      | some old =>
          obtain ⟨after, inserted, structured, capacity, count, tombstones⟩ :=
            consistent.structured.insertProbed_held found value
          refine Or.inr ⟨after, inserted, ⟨structured, ?_⟩, by simp [count], by omega⟩
          rw [count, tombstones, capacity]
          exact consistent.load
      | none =>
          cases consistent.structured.insertProbed_missing found value with
          | inl refused => exact Or.inl ⟨refused.1, rfl, consistent.full refused.2⟩
          | inr filled =>
              obtain ⟨after, inserted, structured, capacity, count, tombstones⟩ := filled
              refine Or.inr ⟨after, inserted, ⟨structured, ?_⟩, by simp [count], by omega⟩
              rw [capacity]
              exact overloaded_mono (by omega) load
  | true =>
      obtain ⟨doubled, resized, structured, sameCount, noTombstones, capacity, room, light⟩ :=
        consistent.resized load
      have onward : table.insert key value = doubled.insertProbed key value := by
        rw [SymbolTable.insert, if_pos load, resized]
        rfl
      rw [onward]
      cases found : contents key with
      | some old =>
          obtain ⟨after, inserted, structured, capacity, count, tombstones⟩ :=
            structured.insertProbed_held found value
          refine Or.inr ⟨after, inserted, ⟨structured, ?_⟩, by simp [count, sameCount], by omega⟩
          rw [capacity]
          exact overloaded_mono (by omega) light
      | none =>
          cases structured.insertProbed_missing found value with
          | inl refused => omega
          | inr filled =>
              obtain ⟨after, inserted, structured, capacity, count, tombstones⟩ := filled
              refine Or.inr ⟨after, inserted, ⟨structured, ?_⟩, by simp [count, sameCount], by omega⟩
              rw [capacity]
              exact overloaded_mono (by omega) light

omit [Inhabited V] in
theorem remove_cases (consistent : Consistent table contents) (key : Key) :
    ∃ after, table.remove key = some ((contents key).isSome, after) ∧
      Consistent after (Function.update contents key none) ∧
      after.count + after.tombstones = table.count + table.tombstones := by
  cases found : contents key with
  | none =>
      have same : Function.update contents key none = contents := by
        rw [← found, Function.update_eq_self]
      refine ⟨table, consistent.structured.remove_missing found, ?_, rfl⟩
      rw [same]
      exact consistent
  | some value =>
      obtain ⟨after, removed, structured, capacity, count, tombstones⟩ :=
        consistent.structured.remove_held found
      have used : after.count + after.tombstones = table.count + table.tombstones := by omega
      refine ⟨after, removed, ⟨structured, ?_⟩, used⟩
      rw [used, capacity]
      exact consistent.load

end Consistent

/-- As long as not all slots that a mask can reach are in use, every request returns
and does what it does to the map. -/
theorem step_consistent (consistent : Consistent table contents)
    (room : table.count + table.tombstones < 2 ^ 32) (request : Request V) :
    ∃ after, step table request = some after ∧ Consistent after (request.apply contents) ∧
      after.count + after.tombstones ≤ table.count + table.tombstones + 1 := by
  cases request with
  | insert key value =>
      cases consistent.insert_cases key value with
      | inl refused => omega
      | inr inserted =>
          obtain ⟨after, inserted, consistentAfter, _, used⟩ := inserted
          exact ⟨after, by simp [step, inserted], consistentAfter, used⟩
  | lookup key =>
      exact ⟨table, by simp [step, consistent.structured.lookup_eq], consistent, Nat.le_succ _⟩
  | remove key =>
      obtain ⟨after, removed, consistentAfter, used⟩ := consistent.remove_cases key
      exact ⟨after, by simp [step, removed], consistentAfter, by omega⟩

/-- The table answers as the map does. -/
structure ActsAs (table : SymbolTable V) (contents : Key → Option V) : Prop where
  inserts : ∀ key value, ∃ after, table.insert key value = some (true, after)
  lookups : ∀ key, table.lookup key = some (contents key)
  removes : ∀ key, ∃ after, table.remove key = some ((contents key).isSome, after)
  size : ∃ keys : Finset Key, (∀ key, key ∈ keys ↔ contents key ≠ none) ∧ table.size = keys.card
  tombstones : table.tombstones =
    ((Finset.range table.capacity).filter fun index => (table.slots index).state = .DELETED).card
  capacity : ∃ exponent, table.capacity = 2 ^ exponent
  probes : ∀ key tombstone, ∃ index first,
    probe (table.stopsAt key) tombstone (maskOf table.capacity) (start table.capacity key) =
      some (some (index, first)) ∧
    ((table.slots index).state = .EMPTY ∨
      (table.slots index).state = .OCCUPIED ∧ (table.slots index).key = key)

theorem Consistent.actsAs (consistent : Consistent table contents)
    (room : table.count + table.tombstones < 2 ^ 32) : ActsAs table contents := by
  have structured := consistent.structured
  constructor
  · intro key value
    cases consistent.insert_cases key value with
    | inl refused => omega
    | inr inserted =>
        obtain ⟨after, inserted, _⟩ := inserted
        exact ⟨after, inserted⟩
  · exact structured.lookup_eq
  · intro key
    obtain ⟨after, removed, _⟩ := consistent.remove_cases key
    exact ⟨after, removed⟩
  · obtain ⟨keys, member, card⟩ := structured.keys
    exact ⟨keys, member, card.symm⟩
  · rw [structured.tombstones, ← tally_extend structured.probed.inside rfl structured.size_le_capacity, tally]
    congr 1
    apply Finset.filter_congr
    intro index _
    cases state : (table.slots index).state <;> simp [cells, Slot.cell, Cell.isDeleted, state]
  · obtain ⟨exponent, _, _, same⟩ := structured.capacity
    exact ⟨exponent, same⟩
  · intro key tombstone
    cases found : contents key with
    | some value =>
        obtain ⟨index, first, probed, state, sameKey, _⟩ := structured.probe_held tombstone found
        exact ⟨index, first, probed, Or.inr ⟨state, sameKey⟩⟩
    | none =>
        cases structured.probe_missing tombstone found with
        | inl round =>
            have full := consistent.full round.2
            omega
        | inr empty =>
            obtain ⟨step, _, probed, state⟩ := empty
            exact ⟨_, _, probed, Or.inl state⟩

omit [Inhabited V] in
theorem contentsAfter_concat {requests : List (Request V)} {request : Request V} :
    contentsAfter (requests ++ [request]) = request.apply (contentsAfter requests) := by
  simp [contentsAfter]

/-- In every state on the way, some slot that a mask can reach is not in use. -/
def StaysBelow (requests : List (Request V)) : Prop :=
  ∀ earlier state, earlier <+: requests → run step (create 16 : SymbolTable V) earlier = some state →
    state.count + state.tombstones < 2 ^ 32

theorem run_consistent {requests : List (Request V)} (room : StaysBelow requests) :
    ∃ table, run step (create 16 : SymbolTable V) requests = some table ∧
      Consistent table (contentsAfter requests) := by
  induction requests using List.reverseRecOn with
  | nil => exact ⟨_, rfl, create_consistent⟩
  | append_singleton earlier request ih =>
      have prefixes := List.prefix_append earlier [request]
      have roomEarlier : StaysBelow earlier := by
        intro first state before
        exact room first state (before.trans prefixes)
      obtain ⟨table, ran, consistent⟩ := ih roomEarlier
      obtain ⟨after, stepped, consistentAfter, _⟩ :=
        step_consistent consistent (room earlier table prefixes ran) request
      exact ⟨after, run_concat_iff.mpr ⟨table, ran, stepped⟩, contentsAfter_concat ▸ consistentAfter⟩

/-- Every sequence of requests that leaves a slot within reach unused behaves as on
a finite map. -/
theorem symbol_table_refines_map (requests : List (Request V)) (room : StaysBelow requests) :
    ∃ table, run step (create 16 : SymbolTable V) requests = some table ∧
      ActsAs table (contentsAfter requests) := by
  obtain ⟨table, ran, consistent⟩ := run_consistent room
  exact ⟨table, ran, consistent.actsAs (room requests table (List.prefix_refl requests) ran)⟩

/-- A request takes at most one slot into use. -/
theorem run_used {requests : List (Request V)} (few : requests.length ≤ 2 ^ 32) :
    ∃ table, run step (create 16 : SymbolTable V) requests = some table ∧
      Consistent table (contentsAfter requests) ∧ table.count + table.tombstones ≤ requests.length := by
  induction requests using List.reverseRecOn with
  | nil => exact ⟨_, rfl, create_consistent, Nat.le_refl _⟩
  | append_singleton earlier request ih =>
      simp only [List.length_append, List.length_cons, List.length_nil] at few ⊢
      obtain ⟨table, ran, consistent, used⟩ := ih (by omega)
      obtain ⟨after, stepped, consistentAfter, more⟩ := step_consistent consistent (by omega) request
      exact ⟨after, run_concat_iff.mpr ⟨table, ran, stepped⟩, contentsAfter_concat ▸ consistentAfter, by omega⟩

/-- Fewer than `2 ^ 32` requests always leave a slot. -/
theorem staysBelow_of_length {requests : List (Request V)} (few : requests.length < 2 ^ 32) :
    StaysBelow requests := by
  intro earlier state before ran
  have shorter := before.length_le
  obtain ⟨table, same, _, used⟩ := run_used (V := V) (show earlier.length ≤ 2 ^ 32 by omega)
  rw [ran, Option.some_inj] at same
  rw [same]
  omega

theorem symbol_table_refines_map_smoke :
    ∃ table, run step (create 16 : SymbolTable Nat)
      [.insert [65] 182, .insert [78] 721, .insert [65] 185, .remove [78]] = some table ∧
    ActsAs table (contentsAfter [.insert [65] 182, .insert [78] 721, .insert [65] 185, .remove [78]]) :=
  symbol_table_refines_map _ (staysBelow_of_length (by decide))

/-- Inserts of keys that grow by one byte each. -/
def growingKeys (count : Nat) : List (Request Nat) :=
  (List.range count).map fun length => .insert (List.replicate length 65) 0

theorem growingKeys_run {count : Nat} (few : count ≤ 2 ^ 32) :
    ∃ table, run step (create 16) (growingKeys count) = some table ∧
      Consistent table (contentsAfter (growingKeys count)) ∧ table.count = count ∧
      table.count + table.tombstones ≤ count ∧
      ∀ length, count ≤ length → contentsAfter (growingKeys count) (List.replicate length 65) = none := by
  induction count with
  | zero => exact ⟨_, rfl, create_consistent, rfl, Nat.le_refl _, fun _ _ => rfl⟩
  | succ count ih =>
      obtain ⟨table, ran, consistent, counted, used, fresh⟩ := ih (by omega)
      have grown : growingKeys (count + 1) = growingKeys count ++ [.insert (List.replicate count 65) 0] := by
        simp [growingKeys, List.range_succ]
      have new := fresh count (Nat.le_refl count)
      cases consistent.insert_cases (List.replicate count 65) 0 with
      | inl refused => omega
      | inr inserted =>
          obtain ⟨after, inserted, consistentAfter, more, usedAfter⟩ := inserted
          rw [new, if_pos rfl] at more
          rw [grown, contentsAfter_concat]
          refine ⟨after, run_concat_iff.mpr ⟨table, ran, by simp [step, inserted]⟩, consistentAfter, by omega,
            by omega, ?_⟩
          intro length longer
          rw [Request.apply, Function.update_of_ne]
          · exact fresh length (by omega)
          · intro same
            have lengths := congrArg List.length same
            simp only [List.length_replicate] at lengths
            omega

/-- Once `2 ^ 32` keys are in the table, of which a mask reaches no more slots, the
insert of another key returns false. -/
theorem full_table_refuses_key : ∃ table, run step (create 16) (growingKeys (2 ^ 32)) = some table ∧
    table.insert (List.replicate (2 ^ 32) 65) 0 = some (false, table) := by
  obtain ⟨table, ran, consistent, counted, _, fresh⟩ := growingKeys_run (Nat.le_refl (2 ^ 32))
  refine ⟨table, ran, ?_⟩
  cases consistent.insert_cases (List.replicate (2 ^ 32) 65) 0 with
  | inl refused => exact refused.1
  | inr inserted =>
      obtain ⟨after, _, consistentAfter, more, _⟩ := inserted
      rw [fresh _ (Nat.le_refl _), if_pos rfl] at more
      have most := consistentAfter.structured.used_le
      have reach : usable after.capacity ≤ 2 ^ 32 := usable_le
      omega

end HundredDays.LookUpTable
