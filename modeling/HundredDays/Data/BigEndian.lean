import Mathlib.Algebra.Order.Ring.Nat
import Mathlib.Data.List.Induction
import Mathlib.Data.Nat.ModEq

namespace HundredDays.Data

/-! Numbers as bytes, the most significant one first. -/

variable {bytes : List UInt8} {byte : UInt8} {width value : Nat}

/-- The low `width` bytes of `value`. -/
def toBE : Nat → Nat → List UInt8
  | 0, _ => []
  | width + 1, value => toBE width (value / 256) ++ [UInt8.ofNat value]

def fromBE (bytes : List UInt8) : Nat := bytes.foldl (fun value byte => 256 * value + byte.toNat) 0

@[simp] theorem toBE_length : (toBE width value).length = width := by
  induction width generalizing value with
  | zero => rfl
  | succ width ih => simp [toBE, ih]

@[simp] theorem fromBE_concat : fromBE (bytes ++ [byte]) = 256 * fromBE bytes + byte.toNat := by
  simp [fromBE]

theorem fromBE_lt : fromBE bytes < 256 ^ bytes.length := by
  induction bytes using List.reverseRecOn with
  | nil => simp [fromBE]
  | append_singleton bytes byte ih =>
      have low : byte.toNat < 256 := byte.toNat_lt
      rw [fromBE_concat, List.length_append, List.length_singleton, pow_succ]
      omega

theorem fromBE_toBE : fromBE (toBE width value) = value % 256 ^ width := by
  induction width generalizing value with
  | zero => simp [toBE, fromBE, Nat.mod_one]
  | succ width ih =>
      have low : (UInt8.ofNat value).toNat = value % 256 := UInt8.toNat_ofNat'
      rw [toBE, fromBE_concat, ih, low, pow_succ', Nat.mod_mul, Nat.add_comm]

/-- Bytes are the digits of their number. -/
theorem toBE_fromBE : toBE bytes.length (fromBE bytes) = bytes := by
  induction bytes using List.reverseRecOn with
  | nil => rfl
  | append_singleton bytes byte ih =>
      have low : byte.toNat < 256 := byte.toNat_lt
      have high : (256 * fromBE bytes + byte.toNat) / 256 = fromBE bytes := by omega
      have digit : UInt8.ofNat (256 * fromBE bytes + byte.toNat) = byte := by
        apply UInt8.toNat_inj.mp
        rw [UInt8.toNat_ofNat']
        omega
      rw [List.length_append, List.length_singleton, fromBE_concat, toBE, high, ih, digit]

/-- Shifted bytes do not overlap, so that they are combined by either operation. -/
theorem shiftLeft_or_byte {number shift : Nat} (low : value < 256) :
    number <<< (shift + 8) ||| value <<< shift = (256 * number + value) <<< shift := by
  have combined : number <<< 8 + value = number <<< 8 ||| value :=
    Nat.shiftLeft_add_eq_or_of_lt low number
  rw [Nat.add_comm shift, Nat.shiftLeft_add, ← Nat.shiftLeft_or_distrib, ← combined, Nat.shiftLeft_eq number,
    Nat.mul_comm number]

end HundredDays.Data
