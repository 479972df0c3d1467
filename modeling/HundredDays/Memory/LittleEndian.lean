import Mathlib.Algebra.Order.Ring.Nat
import Mathlib.Data.Nat.ModEq

namespace HundredDays.Memory

/-! Little-endian loads and stores on a byte-addressed memory. -/

variable {memory other : Nat → UInt8} {address index width value : Nat}

/-- The unsigned number in the `width` bytes from `address` on. -/
def loadLE (memory : Nat → UInt8) (address : Nat) : Nat → Nat
  | 0 => 0
  | width + 1 => (memory address).toNat + 256 * loadLE memory (address + 1) width

/-- Write the low `width` bytes of `value` from `address` on. -/
def storeLE (memory : Nat → UInt8) (address width value : Nat) : Nat → UInt8 := fun index =>
  if address ≤ index ∧ index < address + width then
    UInt8.ofNat (value / 256 ^ (index - address))
  else memory index

theorem loadLE_congr
    (agree : ∀ index, address ≤ index → index < address + width → other index = memory index) :
    loadLE other address width = loadLE memory address width := by
  induction width generalizing address with
  | zero => rfl
  | succ width ih =>
      rw [loadLE, loadLE, agree address (by omega) (by omega),
        ih (fun index lower upper => agree index (by omega) (by omega))]

theorem storeLE_outside (outside : index < address ∨ address + width ≤ index) :
    storeLE memory address width value index = memory index := by
  rw [storeLE, if_neg (by omega)]

/-- A load of bytes that a store does not touch. -/
theorem loadLE_storeLE_disjoint {start count : Nat}
    (apart : start + count ≤ address ∨ address + width ≤ start) :
    loadLE (storeLE memory address width value) start count = loadLE memory start count := by
  apply loadLE_congr
  intro index lower upper
  exact storeLE_outside (by omega)

theorem loadLE_of_digits
    (digits : ∀ index, index < width →
      memory (address + index) = UInt8.ofNat (value / 256 ^ index)) :
    loadLE memory address width = value % 256 ^ width := by
  induction width generalizing address value with
  | zero => simp [loadLE, Nat.mod_one]
  | succ width ih =>
      have head : (memory address).toNat = value % 256 := by
        have first := digits 0 (by omega)
        simp only [Nat.add_zero, pow_zero, Nat.div_one] at first
        rw [first, UInt8.toNat_ofNat']
      have tail : loadLE memory (address + 1) width = value / 256 % 256 ^ width := by
        apply ih
        intro index bound
        have later := digits (index + 1) (by omega)
        rw [Nat.div_div_eq_div_mul, ← pow_succ', ← later]
        congr 1
        omega
      rw [loadLE, head, tail, pow_succ', Nat.mod_mul]

theorem loadLE_storeLE :
    loadLE (storeLE memory address width value) address width = value % 256 ^ width := by
  apply loadLE_of_digits
  intro index bound
  rw [storeLE, if_pos (by omega), Nat.add_sub_cancel_left]

/-- A stored number that fits its width is loaded back unchanged. -/
theorem loadLE_storeLE_of_lt (fits : value < 256 ^ width) :
    loadLE (storeLE memory address width value) address width = value := by
  rw [loadLE_storeLE, Nat.mod_eq_of_lt fits]

end HundredDays.Memory
