import HundredDays.LookUpTable.Model

namespace HundredDays.LookUpTable

open HundredDays.Data.Probing

/-! The probe loop and the arithmetic of its indices. -/

variable {exponent mask start step index steps done used capacity : Nat} {stops tombstone : Nat → Bool}

/-- The slots that a table of this capacity uses. -/
def usable (capacity : Nat) : Nat := maskOf capacity + 1

theorem usable_eq : usable (2 ^ exponent) = 2 ^ min exponent 32 := by
  have positive : 0 < 2 ^ exponent := Nat.two_pow_pos exponent
  rw [usable, maskOf]
  by_cases small : exponent ≤ 32
  · have bound : 2 ^ exponent ≤ 2 ^ 32 := Nat.pow_le_pow_right (by simp) small
    rw [Nat.min_eq_left small]
    omega
  · rw [Nat.min_eq_right (by omega)]
    have factor : 2 ^ exponent = 2 ^ 32 * 2 ^ (exponent - 32) := by
      rw [← Nat.pow_add, Nat.add_sub_cancel' (by omega)]
    rw [factor]
    omega

theorem usable_le : usable capacity ≤ 2 ^ 32 := by
  rw [usable, maskOf]
  omega

/-- Masking takes an index back into the slots in use. -/
theorem and_mask (index : Nat) : index &&& (2 ^ exponent - 1) = index % 2 ^ exponent :=
  Nat.and_two_pow_sub_one_eq_mod index exponent

theorem next_place (small : exponent ≤ 32) :
    (place (2 ^ exponent) start step + 1) % 2 ^ 32 &&& (2 ^ exponent - 1) =
      place (2 ^ exponent) start (step + 1) := by
  rw [and_mask, Nat.mod_mod_of_dvd _ (Nat.pow_dvd_pow 2 small), place_succ]

theorem probeFrom_stops {first : Option Nat} {found : Nat × Option Nat}
    (ended : probeFrom stops tombstone mask start steps index first = some (some found)) :
    stops found.1 = true := by
  induction steps generalizing index first with
  | zero => cases ended
  | succ steps ih =>
      rw [probeFrom] at ended
      split at ended
      next here =>
        cases ended
        exact here
      next =>
        simp only at ended
        split at ended
        · cases ended
        · exact ih ended

/-- A probe ends at a slot that passes the test. -/
theorem probe_stops {found : Nat × Option Nat}
    (ended : probe stops tombstone mask start = some (some found)) : stops found.1 = true :=
  probeFrom_stops ended

/-- The first tombstone within some steps. -/
def firstTombstone (tombstone : Nat → Bool) (size start steps : Nat) : Option Nat :=
  ((List.range steps).find? fun step => tombstone (place size start step)).map (place size start)

theorem firstTombstone_succ {size : Nat} : firstTombstone tombstone size start (step + 1) =
    if tombstone (place size start step) then
      (firstTombstone tombstone size start step).or (some (place size start step))
    else firstTombstone tombstone size start step := by
  rw [firstTombstone, firstTombstone, List.range_succ, List.find?_append]
  split
  next here => cases (List.range step).find? fun step => tombstone (place size start step) <;> simp [here]
  next here => cases (List.range step).find? fun step => tombstone (place size start step) <;> simp [here]

/-- Where the walk stops, and the first tombstone before that place. -/
def stopped (stops tombstone : Nat → Bool) (size start : Nat) : Option (Nat × Option Nat) :=
  ((List.range size).find? fun step => stops (place size start step)).map fun step =>
    (place size start step, firstTombstone tombstone size start step)

theorem probeFrom_eq (small : exponent ≤ 32) (inside : start < 2 ^ exponent) (before : done < 2 ^ exponent)
    (passed : ∀ step < done, stops (place (2 ^ exponent) start step) = false)
    (enough : 2 ^ exponent ≤ done + steps) :
    probeFrom stops tombstone (2 ^ exponent - 1) start steps (place (2 ^ exponent) start done)
      (firstTombstone tombstone (2 ^ exponent) start done) =
      some (stopped stops tombstone (2 ^ exponent) start) := by
  induction steps generalizing done with
  | zero => omega
  | succ steps ih =>
      rw [probeFrom]
      split
      next here =>
        have found : (List.range (2 ^ exponent)).find? (fun step => stops (place (2 ^ exponent) start step)) =
            some done := by
          rw [List.find?_range_eq_some]
          exact ⟨here, List.mem_range.mpr before, fun step earlier => by rw [passed step earlier]; rfl⟩
        rw [stopped, found]
        rfl
      next here =>
        have onward : ∀ step < done + 1, stops (place (2 ^ exponent) start step) = false := by
          intro step earlier
          by_cases last : step = done
          · rw [last]
            simpa using here
          · exact passed step (by omega)
        simp only [next_place small, ← firstTombstone_succ]
        split
        next back =>
          have last := (place_eq_start inside before).mp back
          have missing : (List.range (2 ^ exponent)).find?
              (fun step => stops (place (2 ^ exponent) start step)) = none := by
            rw [List.find?_range_eq_none]
            intro step below
            rw [onward step (by omega)]
            rfl
          rw [stopped, missing]
          rfl
        next further =>
          have more : done + 1 ≠ 2 ^ exponent := fun last => further ((place_eq_start inside before).mpr last)
          exact ih (by omega) onward (by omega)

theorem probe_eq (small : exponent ≤ 32) (inside : start < 2 ^ exponent) :
    probe stops tombstone (2 ^ exponent - 1) start = some (stopped stops tombstone (2 ^ exponent) start) := by
  have bound : 2 ^ exponent ≤ 0 + rounds := by
    rw [Nat.zero_add]
    exact Nat.pow_le_pow_right (by simp) small
  have begun : probeFrom stops tombstone (2 ^ exponent - 1) start rounds (place (2 ^ exponent) start 0) none =
      some (stopped stops tombstone (2 ^ exponent) start) :=
    probeFrom_eq small inside (by omega) (by simp) bound
  rwa [place_zero inside] at begun

end HundredDays.LookUpTable
