import Mathlib.Data.List.Range

namespace HundredDays.Data

/-! A list cut into pieces of one size, and what is left over. -/

variable {α : Type*} {size : Nat} {items more : List α}

/-- The whole pieces, in their order. -/
def chunks (size : Nat) (items : List α) : List (List α) :=
  (List.range (items.length / size)).map fun index => (items.drop (size * index)).take size

/-- What is behind the last whole piece. -/
def leftover (size : Nat) (items : List α) : List α := items.drop (size * (items.length / size))

theorem leftover_length : (leftover size items).length = items.length % size := by
  rw [leftover, List.length_drop, Nat.mod_eq_sub_mul_div]

theorem chunks_of_lt (short : items.length < size) : chunks size items = [] := by
  simp [chunks, Nat.div_eq_of_lt short]

theorem leftover_of_lt (short : items.length < size) : leftover size items = items := by
  simp [leftover, Nat.div_eq_of_lt short]

theorem chunks_of_le (positive : 0 < size) (enough : size ≤ items.length) :
    chunks size items = items.take size :: chunks size (items.drop size) := by
  have rounds : items.length / size = (items.drop size).length / size + 1 := by
    rw [List.length_drop, ← Nat.add_div_right _ positive, Nat.sub_add_cancel enough]
  rw [chunks, rounds, List.range_succ_eq_map, List.map_cons, List.map_map, Nat.mul_zero, List.drop_zero, chunks]
  congr 2
  funext index
  simp [Nat.mul_succ, Nat.add_comm]

theorem leftover_of_le (positive : 0 < size) (enough : size ≤ items.length) :
    leftover size items = leftover size (items.drop size) := by
  have rounds : items.length / size = (items.drop size).length / size + 1 := by
    rw [List.length_drop, ← Nat.add_div_right _ positive, Nat.sub_add_cancel enough]
  rw [leftover, rounds, leftover, List.drop_drop, Nat.mul_succ, Nat.add_comm]

/-- Cutting can stop anywhere and go on with what was left over. -/
theorem chunks_append (positive : 0 < size) :
    chunks size (items ++ more) = chunks size items ++ chunks size (leftover size items ++ more) ∧
      leftover size (items ++ more) = leftover size (leftover size items ++ more) := by
  induction long : items.length using Nat.strongRecOn generalizing items with
  | ind length ih =>
      by_cases enough : size ≤ items.length
      · have longer : size ≤ (items ++ more).length := by
          rw [List.length_append]
          omega
        have shorter : (items.drop size).length < length := by
          rw [List.length_drop]
          omega
        have rest := ih _ shorter rfl
        rw [chunks_of_le positive longer, leftover_of_le positive longer, List.take_append_of_le_length enough,
          List.drop_append_of_le_length enough, rest.1, rest.2, chunks_of_le positive enough,
          leftover_of_le positive enough]
        exact ⟨rfl, rfl⟩
      · have short : items.length < size := by omega
        rw [chunks_of_lt short, leftover_of_lt short]
        exact ⟨rfl, rfl⟩

end HundredDays.Data
