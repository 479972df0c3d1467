import Mathlib.Algebra.Order.Group.Nat
import Mathlib.Order.MinMax

namespace HundredDays.Memory

/-! A regular file behind an open descriptor, as `pread` and `pwrite` see it. -/

/-- The bytes of a file.  `accepts` is the environment's choice of how many bytes
the `pwrite` call with a given number is able to transfer. -/
@[ext] structure File where
  size : Nat
  byte : Nat → UInt8
  beyond : ∀ index, size ≤ index → byte index = 0
  pwrites : Nat
  accepts : Nat → Nat

namespace File

variable {file : File} {count offset index start : Nat} {bytes : Fin count → UInt8}

/-- A file just created. -/
def empty (accepts : Nat → Nat) : File :=
  { size := 0, byte := fun _ => 0, beyond := fun _ _ => rfl, pwrites := 0, accepts }

/-- Every `pwrite` of `count` bytes transfers all of them. -/
def Whole (file : File) (count : Nat) : Prop := ∀ call, count ≤ file.accepts call

/-- `pread` leaves alone the part of the buffer that lies beyond the end of the
file, and fails at a negative offset. -/
def pread (file : File) (buffer : Fin count → UInt8) (offset : Int) : Option (Fin count → UInt8) :=
  if offset < 0 then none
  else some fun index =>
    if offset.toNat + index < file.size then file.byte (offset.toNat + index) else buffer index

/-- The file after the first `length` bytes of the buffer reached it. -/
def transfer (file : File) (bytes : Fin count → UInt8) (offset length : Nat) : File where
  size := if length = 0 then file.size else max file.size (offset + length)
  byte := fun index =>
    if inside : offset ≤ index ∧ index < offset + length ∧ index - offset < count then
      bytes ⟨index - offset, inside.2.2⟩
    else file.byte index
  beyond := by
    intro index outside
    split at outside
    · rw [dif_neg (by omega)]
      exact file.beyond index outside
    · rw [dif_neg (by omega)]
      exact file.beyond index (by omega)
  pwrites := file.pwrites + 1
  accepts := file.accepts

/-- `pwrite` returns how many bytes it transferred, or `-1` at a negative offset. -/
def pwrite (file : File) (bytes : Fin count → UInt8) (offset : Int) : Int × File :=
  if offset < 0 then (-1, { file with pwrites := file.pwrites + 1 })
  else
    let length := min count (file.accepts file.pwrites)
    (length, file.transfer bytes offset.toNat length)

/-- The `count` bytes from an offset on, zero beyond the end of the file. -/
def window (file : File) (count start : Nat) : Fin count → UInt8 := fun index =>
  file.byte (start + index)

theorem pread_zeroed : file.pread (fun _ : Fin count => 0) offset = some (file.window count offset) := by
  rw [pread, if_neg (by omega)]
  congr 1
  funext index
  simp only [Int.toNat_natCast, window]
  split
  · rfl
  · rw [file.beyond _ (by omega)]

theorem pwrite_whole (whole : file.Whole count) :
    file.pwrite bytes offset = ((count : Int), file.transfer bytes offset count) := by
  have all : min count (file.accepts file.pwrites) = count := Nat.min_eq_left (whole _)
  rw [pwrite, if_neg (by omega)]
  simp only [Int.toNat_natCast, all]

theorem Whole.transfer {length : Nat} (whole : file.Whole count) :
    (file.transfer bytes offset length).Whole count := whole

theorem window_transfer : (file.transfer bytes offset count).window count offset = bytes := by
  funext index
  have bound := index.isLt
  simp only [window, File.transfer]
  rw [dif_pos (by omega)]
  congr 1
  exact Fin.ext (by simp)

/-- A window that a transfer does not reach keeps its bytes, however much was transferred. -/
theorem window_transfer_disjoint {length sent : Nat}
    (apart : start + length ≤ offset ∨ offset + count ≤ start) :
    (file.transfer bytes offset sent).window length start = file.window length start := by
  funext index
  have bound := index.isLt
  simp only [window, File.transfer]
  rw [dif_neg (by omega)]

theorem window_pwrite_disjoint {length : Nat} {written : Int} {after : File}
    (called : file.pwrite bytes offset = (written, after))
    (apart : start + length ≤ offset ∨ offset + count ≤ start) :
    after.window length start = file.window length start := by
  rw [pwrite, if_neg (by omega)] at called
  cases called
  simpa using window_transfer_disjoint apart

/-- The part of the buffer that the next `pwrite` leaves behind is on file already. -/
def Lands (file : File) (bytes : Fin count → UInt8) (start : Nat) : Prop :=
  ∀ index : Fin count, file.accepts file.pwrites ≤ index → file.byte (start + index) = bytes index

theorem window_pwrite_lands {written : Int} {after : File}
    (called : file.pwrite bytes offset = (written, after)) :
    after.window count offset = bytes ↔ file.Lands bytes offset := by
  rw [pwrite, if_neg (by omega)] at called
  cases called
  rw [funext_iff]
  apply forall_congr'
  intro index
  have bound := index.isLt
  simp only [window, File.transfer, Int.toNat_natCast]
  by_cases reached : index < file.accepts file.pwrites
  · rw [dif_pos (by omega)]
    simp [reached]
  · rw [dif_neg (by omega)]
    simp [Nat.le_of_not_lt reached]

/-- A `pwrite` that returns the size of its buffer wrote all of it. -/
theorem window_pwrite {after : File} (called : file.pwrite bytes offset = ((count : Int), after)) :
    after.window count offset = bytes := by
  refine (window_pwrite_lands called).mpr fun index left => ?_
  rw [pwrite, if_neg (by omega)] at called
  simp only [Prod.mk.injEq, Int.natCast_inj] at called
  have bound := index.isLt
  omega

/-- Transfers to windows that do not meet may be swapped. -/
theorem transfer_comm {length : Nat} {others : Fin length → UInt8}
    (apart : start + length ≤ offset ∨ offset + count ≤ start) :
    (file.transfer bytes offset count).transfer others start length =
      (file.transfer others start length).transfer bytes offset count := by
  refine File.ext ?_ ?_ rfl rfl
  · simp only [File.transfer]
    split <;> split <;> omega
  · funext index
    simp only [File.transfer]
    by_cases first : offset ≤ index ∧ index < offset + count ∧ index - offset < count
    · rw [dif_neg (by omega), dif_pos first, dif_pos first]
    · rw [dif_neg first, dif_neg first]

theorem size_transfer_pos (positive : 0 < count) : 0 < (file.transfer bytes offset count).size := by
  simp only [File.transfer]
  split <;> omega

end File

end HundredDays.Memory
