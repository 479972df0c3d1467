import Mathlib.Algebra.Order.Ring.Nat
import Mathlib.Tactic.Ring

namespace HundredDays.Data

/-! Masks for powers of two in words of a fixed width. -/

variable {width order word : Nat}

/-- What the low bits of the complement are. -/
theorem complement_and (small : word < 2 ^ width) (shift : order ≤ width) :
    (2 ^ width - 1 - word) &&& (2 ^ order - 1) = 2 ^ order - 1 - word % 2 ^ order := by
  rw [Nat.and_two_pow_sub_one_eq_mod]
  obtain ⟨factor, split⟩ : ∃ factor, 2 ^ width = 2 ^ order * factor := Nat.pow_dvd_pow 2 shift
  have positive := Nat.two_pow_pos order
  have parts := Nat.div_add_mod word (2 ^ order)
  have less := Nat.mod_lt word positive
  have quotient : word / 2 ^ order < factor := by
    rw [Nat.div_lt_iff_lt_mul positive, Nat.mul_comm, ← split]
    exact small
  obtain ⟨rest, rfl⟩ := Nat.exists_eq_add_of_lt quotient
  have whole : 2 ^ order * (word / 2 ^ order + rest + 1) =
      2 ^ order * (word / 2 ^ order) + 2 ^ order * rest + 2 ^ order := by ring
  have difference : 2 ^ width - 1 - word = 2 ^ order * rest + (2 ^ order - 1 - word % 2 ^ order) := by omega
  rw [difference, Nat.mul_add_mod]
  exact Nat.mod_eq_of_lt (by omega)

/-- Clearing the low bits rounds down. -/
theorem and_complement (small : word < 2 ^ width) (shift : order ≤ width) :
    word &&& (2 ^ width - 1 - (2 ^ order - 1)) = word / 2 ^ order * 2 ^ order := by
  have positive := Nat.two_pow_pos order
  have larger := Nat.pow_le_pow_right (show 0 < 2 by decide) shift
  have mask : 2 ^ width - 1 - (2 ^ order - 1) = 2 ^ width - (2 ^ order - 1 + 1) := by omega
  have rounded : word / 2 ^ order * 2 ^ order = word >>> order <<< order := by
    rw [Nat.shiftLeft_eq, Nat.shiftRight_eq_div_pow]
  rw [mask, rounded]
  apply Nat.eq_of_testBit_eq
  intro index
  rw [Nat.testBit_and, Nat.testBit_two_pow_sub_succ (by omega), Nat.testBit_two_pow_sub_one, Nat.testBit_shiftLeft,
    Nat.testBit_shiftRight]
  by_cases low : index < order
  · simp [low]
  · have place : order + (index - order) = index := by omega
    by_cases high : index < width
    · simp [low, high, place]
      omega
    · have zero : word.testBit index = false :=
        Nat.testBit_lt_two_pow (lt_of_lt_of_le small (Nat.pow_le_pow_right (by decide) (by omega)))
      simp [zero, place]

end HundredDays.Data
