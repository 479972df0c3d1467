import Mathlib.Algebra.Ring.Nat
import Mathlib.Data.List.GetD
import Mathlib.Logic.Function.Basic
import HundredDays.Memory.Malloc

namespace HundredDays.Memory

/-! Heap blocks with their bytes, and copying between memories.

A memory is a function from offsets to bytes.  `none` is an access outside a live
block, or the release of a block that is not live.
-/

/-- The memory holds these bytes from its start on. -/
def Contains (memory : Nat → UInt8) (bytes : List UInt8) : Prop :=
  ∀ index, index < bytes.length → memory index = bytes.getD index 0

/-- The memory after `bytes` were copied to `offset`. -/
def overwrite (memory : Nat → UInt8) (offset : Nat) (bytes : List UInt8) : Nat → UInt8 := fun index =>
  if offset ≤ index ∧ index < offset + bytes.length then bytes.getD (index - offset) 0 else memory index

/-- The first `count` bytes of a memory. -/
def peek (memory : Nat → UInt8) (count : Nat) : List UInt8 := (List.range count).map memory

variable {memory other : Nat → UInt8} {bytes more : List UInt8} {offset index count : Nat}

theorem overwrite_outside (outside : index < offset ∨ offset + bytes.length ≤ index) :
    overwrite memory offset bytes index = memory index := by
  rw [overwrite, if_neg (by omega)]

theorem Contains.congr (contains : Contains memory bytes)
    (same : ∀ index, index < bytes.length → other index = memory index) : Contains other bytes :=
  fun index inside => (same index inside).trans (contains index inside)

theorem Contains.left (contains : Contains memory (bytes ++ more)) : Contains memory bytes := by
  intro index inside
  have whole := contains index (by rw [List.length_append]; omega)
  rwa [List.getD_append _ _ _ _ inside] at whole

/-- Copying to the end of what a memory holds makes it hold more. -/
theorem Contains.append (contains : Contains memory bytes) :
    Contains (overwrite memory bytes.length more) (bytes ++ more) := by
  intro index inside
  rw [List.length_append] at inside
  by_cases early : index < bytes.length
  · rw [overwrite_outside (.inl early), List.getD_append _ _ _ _ early]
    exact contains index early
  · rw [overwrite, if_pos (by omega), List.getD_append_right _ _ _ _ (by omega)]

theorem contains_overwrite : Contains (overwrite memory 0 bytes) bytes := by
  have nothing : Contains memory [] := fun index inside => by simp at inside
  have all : Contains (overwrite memory 0 bytes) ([] ++ bytes) := nothing.append
  exact all

theorem Contains.peek (contains : Contains memory bytes) : peek memory bytes.length = bytes := by
  apply List.ext_getElem
  · simp [Memory.peek]
  · intro index first second
    simp only [Memory.peek, List.getElem_map, List.getElem_range]
    rw [contains index second, List.getD_eq_getElem _ _ second]

/-- Copying the first bytes of a memory copies what it holds there. -/
theorem Contains.copied (contains : Contains memory bytes) (within : bytes.length ≤ count) :
    Contains (overwrite other 0 (Memory.peek memory count)) bytes := by
  intro index inside
  have length : (Memory.peek memory count).length = count := by simp [Memory.peek]
  have below : index < (Memory.peek memory count).length := by omega
  rw [contains_overwrite index below, List.getD_eq_getElem _ _ below, ← contains index inside]
  simp [Memory.peek]

/-- A live block: how much was asked for, and its bytes. -/
structure Block where
  size : Nat
  byte : Nat → UInt8

/-- The live blocks by the addresses that lead to them. -/
abbrev Blocks := Addr → Option Block

/-- The allocator's answer to a request: null, or an address and what the memory
there happens to hold. -/
abbrev Grant := Option (Addr × (Nat → UInt8))

namespace Blocks

variable {blocks after : Blocks} {pointer : Addr} {block : Block} {size : Nat}

/-- `malloc`, which may answer only with an address that nothing occupies. -/
def malloc (blocks : Blocks) (grant : Grant) (size : Nat) : Option (Option Addr × Blocks) :=
  match grant with
  | none => some (none, blocks)
  | some (pointer, junk) =>
      if (blocks pointer).isNone then some (some pointer, Function.update blocks pointer (some ⟨size, junk⟩))
      else none

def free (blocks : Blocks) (pointer : Option Addr) : Option Blocks :=
  match pointer with
  | none => some blocks
  | some pointer => (blocks pointer).map fun _ => Function.update blocks pointer none

/-- `realloc` moves a block, or grows it in place; asking for no bytes at all is undefined. -/
def realloc (blocks : Blocks) (grant : Grant) (pointer : Option Addr) (size : Nat) :
    Option (Option Addr × Blocks) :=
  if size = 0 then none
  else match pointer, grant with
    | none, _ => malloc blocks grant size
    | some pointer, none => (blocks pointer).map fun _ => (none, blocks)
    | some pointer, some (moved, junk) => (blocks pointer).bind fun block =>
        let kept := peek block.byte (min block.size size)
        malloc (Function.update blocks pointer none) (some (moved, overwrite junk 0 kept)) size

/-- Copy bytes into a block. -/
def write (blocks : Blocks) (pointer : Addr) (offset : Nat) (bytes : List UInt8) : Option Blocks :=
  (blocks pointer).bind fun block =>
    if offset + bytes.length ≤ block.size then
      some (Function.update blocks pointer (some { block with byte := overwrite block.byte offset bytes }))
    else none

def read (blocks : Blocks) (pointer : Addr) (count : Nat) : Option (List UInt8) :=
  (blocks pointer).bind fun block => if count ≤ block.size then some (peek block.byte count) else none

theorem malloc_fresh {junk : Nat → UInt8} (fresh : blocks pointer = none) :
    blocks.malloc (some (pointer, junk)) size =
      some (some pointer, Function.update blocks pointer (some ⟨size, junk⟩)) := by
  simp [malloc, fresh]

theorem free_live (live : blocks pointer = some block) :
    blocks.free (some pointer) = some (Function.update blocks pointer none) := by
  simp [free, live]

theorem realloc_refused (live : blocks pointer = some block) (positive : 0 < size) :
    blocks.realloc none (some pointer) size = some (none, blocks) := by
  rw [realloc, if_neg (by omega), live]
  rfl

theorem realloc_moved {moved : Addr} {junk : Nat → UInt8} (live : blocks pointer = some block) (positive : 0 < size)
    (fresh : Function.update blocks pointer none moved = none) :
    blocks.realloc (some (moved, junk)) (some pointer) size =
      some (some moved, Function.update (Function.update blocks pointer none) moved
        (some ⟨size, overwrite junk 0 (peek block.byte (min block.size size))⟩)) := by
  rw [realloc, if_neg (by omega), live]
  exact malloc_fresh fresh

theorem write_live (live : blocks pointer = some block) (inside : offset + bytes.length ≤ block.size) :
    blocks.write pointer offset bytes =
      some (Function.update blocks pointer (some { block with byte := overwrite block.byte offset bytes })) := by
  simp [write, live, inside]

theorem read_live (live : blocks pointer = some block) (inside : bytes.length ≤ block.size)
    (contains : Contains block.byte bytes) : blocks.read pointer bytes.length = some bytes := by
  simp [read, live, inside, contains.peek]

/-- Reading a block, whatever was granted besides. -/
theorem read_beside {source : Addr} {granted : Option Block} (live : blocks source = some block)
    (fresh : blocks pointer = none) (inside : bytes.length ≤ block.size) (contains : Contains block.byte bytes) :
    read (Function.update blocks pointer granted) source bytes.length = some bytes := by
  have differs : source ≠ pointer := by
    rintro rfl
    cases fresh.symm.trans live
  exact read_live (by rw [Function.update_of_ne differs, live]) inside contains

end Blocks

end HundredDays.Memory
