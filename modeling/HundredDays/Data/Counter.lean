import HundredDays.Data.Probing

namespace HundredDays.Data.Counter

open HundredDays.Data.Probing

/-! Counters of 64 bits that go on counting past their end. -/

variable {start : UInt64} {count other size exponent : Nat}

/-- The counter after counting up from its start. -/
def counter (start : UInt64) (count : Nat) : UInt64 := start + UInt64.ofNat count

@[simp] theorem counter_zero : counter start 0 = start := by
  simp [counter]

theorem counter_succ : counter start (count + 1) = counter start count + 1 := by
  rw [counter, counter, UInt64.ofNat_add, UInt64.add_assoc]
  rfl

theorem toNat_counter : (counter start count).toNat = (start.toNat + count) % 2 ^ 64 := by
  rw [counter, UInt64.toNat_add, UInt64.toNat_ofNat', Nat.add_mod_mod]

/-- The difference of two counters is how much was counted in between. -/
theorem toNat_sub (ordered : other ≤ count) (near : count < other + 2 ^ 64) :
    (counter start count - counter start other).toNat = count - other := by
  rw [UInt64.toNat_sub, toNat_counter, toNat_counter]
  have bound := start.toNat_lt
  omega

theorem counter_eq_iff (ordered : other ≤ count) (near : count < other + 2 ^ 64) :
    counter start other = counter start count ↔ other = count := by
  constructor
  · intro same
    have distance : (counter start count - counter start other).toNat = count - other := toNat_sub ordered near
    rw [same, UInt64.sub_self] at distance
    have zero : (0 : UInt64).toNat = 0 := rfl
    omega
  · intro same
    rw [same]

/-- The slot of a counter goes round a ring whose size divides that of the counter. -/
theorem slot_eq (small : exponent ≤ 64) :
    (counter start count).toNat &&& (2 ^ exponent - 1) = place (2 ^ exponent) start.toNat count := by
  rw [Nat.and_two_pow_sub_one_eq_mod, toNat_counter, Nat.mod_mod_of_dvd _ (Nat.pow_dvd_pow 2 small), place]

/-- Less than a round later is another slot. -/
theorem place_ne {first : Nat} (later : count < other) (near : other < count + size) :
    place size first count ≠ place size first other := by
  have shifted : ∀ step, place size first (count + step) = place size (first + count) step := by
    intro step
    rw [place, place, Nat.add_assoc]
  obtain ⟨more, rfl⟩ := Nat.exists_eq_add_of_lt later
  intro same
  have again : place size (first + count) 0 = place size (first + count) (more + 1) := by
    rw [← shifted, ← shifted]
    exact same
  have equal := place_injective (by omega) (by omega) again
  omega

end HundredDays.Data.Counter
