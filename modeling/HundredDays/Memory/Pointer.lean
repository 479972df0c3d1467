import HundredDays.Memory.LittleEndian
import Mathlib.Logic.Function.Basic

namespace HundredDays.Memory

/-! Pointers and `size_t` numbers in eight bytes; a null pointer is `none` and stored
as 0. -/

variable {memory : Nat → UInt8} {node other value : Nat} {link : Option Nat}

@[irreducible] def loadPointer (memory : Nat → UInt8) (address : Nat) : Option Nat :=
  if loadLE memory address 8 = 0 then none else some (loadLE memory address 8)

@[irreducible] def storePointer (memory : Nat → UInt8) (address : Nat) (pointer : Option Nat) : Nat → UInt8 :=
  storeLE memory address 8 (pointer.getD 0)

@[irreducible] def loadSize (memory : Nat → UInt8) (address : Nat) : Nat := loadLE memory address 8

@[irreducible] def storeSize (memory : Nat → UInt8) (address : Nat) (value : Nat) : Nat → UInt8 :=
  storeLE memory address 8 value

theorem loadPointer_congr {after : Nat → UInt8}
    (agree : ∀ index, node ≤ index → index < node + 8 → after index = memory index) :
    loadPointer after node = loadPointer memory node := by
  simp only [loadPointer, loadLE_congr agree]

theorem loadSize_congr {after : Nat → UInt8}
    (agree : ∀ index, node ≤ index → index < node + 8 → after index = memory index) :
    loadSize after node = loadSize memory node := by
  simp only [loadSize, loadLE_congr agree]

theorem loadPointer_storePointer (valid : ∀ target, link = some target → 0 < target ∧ target < 2 ^ 64) :
    loadPointer (storePointer memory node link) node = link := by
  have fits : link.getD 0 < 256 ^ 8 := by
    cases link with
    | none => simp
    | some target =>
        have bound := (valid target rfl).2
        simpa using bound
  rw [loadPointer, storePointer, loadLE_storeLE_of_lt fits]
  cases link with
  | none => rfl
  | some target =>
      have positive := (valid target rfl).1
      rw [if_neg (by simp; omega)]
      rfl

theorem loadPointer_storePointer_other (apart : other + 8 ≤ node ∨ node + 8 ≤ other) :
    loadPointer (storePointer memory node link) other = loadPointer memory other := by
  simp only [loadPointer, storePointer, loadLE_storeLE_disjoint apart]

theorem storePointer_outside {position : Nat} (outside : position < node ∨ node + 8 ≤ position) :
    storePointer memory node link position = memory position := by
  rw [storePointer]
  exact storeLE_outside outside

theorem storePointer_none {position : Nat} (inside : node ≤ position ∧ position < node + 8) :
    storePointer memory node none position = 0 := by
  simp [storePointer, storeLE, inside]

theorem storeSize_outside {position : Nat} (outside : position < node ∨ node + 8 ≤ position) :
    storeSize memory node value position = memory position := by
  rw [storeSize]
  exact storeLE_outside outside

theorem storeSize_zero {position : Nat} (inside : node ≤ position ∧ position < node + 8) :
    storeSize memory node 0 position = 0 := by
  simp [storeSize, storeLE, inside]

theorem loadPointer_update {position : Nat} {byte : UInt8} (outside : position < node ∨ node + 8 ≤ position) :
    loadPointer (Function.update memory position byte) node = loadPointer memory node := by
  have same : loadLE (Function.update memory position byte) node 8 = loadLE memory node 8 := by
    apply loadLE_congr
    intro index lower upper
    exact Function.update_of_ne (by omega) _ _
  simp only [loadPointer, same]

theorem loadSize_storeSize (fits : value < 2 ^ 64) :
    loadSize (storeSize memory node value) node = value := by
  rw [loadSize, storeSize]
  exact loadLE_storeLE_of_lt (by simpa using fits)

theorem loadSize_storeSize_other (apart : other + 8 ≤ node ∨ node + 8 ≤ other) :
    loadSize (storeSize memory node value) other = loadSize memory other := by
  simp only [loadSize, storeSize, loadLE_storeLE_disjoint apart]

theorem loadSize_storePointer (apart : other + 8 ≤ node ∨ node + 8 ≤ other) :
    loadSize (storePointer memory node link) other = loadSize memory other := by
  simp only [loadSize, storePointer, loadLE_storeLE_disjoint apart]

theorem loadPointer_storeSize (apart : other + 8 ≤ node ∨ node + 8 ≤ other) :
    loadPointer (storeSize memory node value) other = loadPointer memory other := by
  simp only [loadPointer, storeSize, loadLE_storeLE_disjoint apart]

theorem loadSize_update {position : Nat} {byte : UInt8} (outside : position < node ∨ node + 8 ≤ position) :
    loadSize (Function.update memory position byte) node = loadSize memory node := by
  simp only [loadSize]
  apply loadLE_congr
  intro index lower upper
  exact Function.update_of_ne (by omega) _ _

end HundredDays.Memory
