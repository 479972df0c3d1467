import Mathlib.Data.List.Basic

namespace HundredDays.Memory

/-! A buffer of bytes, in which an access outside the bounds has no result. -/

variable {buffer bytes more : List UInt8} {offset count : Nat}

def readByte (buffer : List UInt8) (index : Nat) : Option UInt8 := buffer[index]?

def writeByte (buffer : List UInt8) (index : Nat) (byte : UInt8) : Option (List UInt8) :=
  if index < buffer.length then some (buffer.set index byte) else none

def readBytes (buffer : List UInt8) (offset : Nat) : Nat → Option (List UInt8)
  | 0 => some []
  | count + 1 => do
      let byte ← readByte buffer offset
      let rest ← readBytes buffer (offset + 1) count
      return byte :: rest

def writeBytes (buffer : List UInt8) (offset : Nat) : List UInt8 → Option (List UInt8)
  | [] => some buffer
  | byte :: rest => do
      let buffer ← writeByte buffer offset byte
      writeBytes buffer (offset + 1) rest

/-- The buffer with some of its bytes replaced. -/
def splice (buffer : List UInt8) (offset : Nat) (bytes : List UInt8) : List UInt8 :=
  buffer.take offset ++ bytes ++ buffer.drop (offset + bytes.length)

theorem readBytes_eq (inside : offset + count ≤ buffer.length) :
    readBytes buffer offset count = some ((buffer.drop offset).take count) := by
  induction count generalizing offset with
  | zero => simp [readBytes]
  | succ count ih =>
      have first : offset < buffer.length := by omega
      rw [readBytes, readByte, List.getElem?_eq_getElem first, ih (by omega), List.drop_eq_getElem_cons first]
      rfl

theorem splice_set (byte : UInt8) (inside : offset < buffer.length) :
    splice (buffer.set offset byte) (offset + 1) bytes = splice buffer offset (byte :: bytes) := by
  have front : (buffer.set offset byte).take (offset + 1) = buffer.take offset ++ [byte] := by
    rw [List.take_succ_eq_append_getElem (by simpa using inside), List.take_set_of_le (Nat.le_refl offset),
      List.getElem_set_self]
  have back : offset + 1 + bytes.length = offset + (byte :: bytes).length := by
    rw [List.length_cons]
    omega
  rw [splice, splice, front, back, List.drop_set_of_lt (by simp), List.append_assoc, List.append_assoc,
    List.append_assoc]
  rfl

theorem writeBytes_eq (inside : offset + bytes.length ≤ buffer.length) :
    writeBytes buffer offset bytes = some (splice buffer offset bytes) := by
  induction bytes generalizing buffer offset with
  | nil => simp [writeBytes, splice]
  | cons byte rest ih =>
      rw [List.length_cons] at inside
      have first : offset < buffer.length := by omega
      have next : offset + 1 + rest.length ≤ (buffer.set offset byte).length := by
        rw [List.length_set]
        omega
      rw [writeBytes, writeByte, if_pos first, ← splice_set byte first, ← ih next]
      rfl

theorem writeBytes_append :
    writeBytes buffer offset (bytes ++ more) = (do
      let buffer ← writeBytes buffer offset bytes
      writeBytes buffer (offset + bytes.length) more) := by
  induction bytes generalizing buffer offset with
  | nil => rfl
  | cons byte rest ih =>
      have position : offset + 1 + rest.length = offset + (rest.length + 1) := by omega
      simp only [List.cons_append, writeBytes, Option.bind_eq_bind, Option.bind_assoc, ih, List.length_cons, position]

end HundredDays.Memory
