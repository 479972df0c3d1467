import Mathlib.Data.List.Nodup
import Mathlib.Data.List.Perm.Basic
import Mathlib.Data.List.Range
import Mathlib.Logic.Function.Basic

namespace HundredDays.Memory

/-! A heap of objects as the list of its cells.

A client that keeps the list split among those who own the cells may free what it owns,
and no two of them own the same.
-/

variable {β : Type*} {heap : Nat → Option β} {cells other : List (Nat × β)} {address : Nat} {block : β}

/-- The objects of the heap, each once. -/
structure Represents (heap : Nat → Option β) (cells : List (Nat × β)) : Prop where
  distinct : (cells.map Prod.fst).Nodup
  holds : ∀ address block, heap address = some block ↔ (address, block) ∈ cells

namespace Represents

theorem empty : Represents (fun _ => (none : Option β)) [] := ⟨List.nodup_nil, by simp⟩

theorem perm (represents : Represents heap cells) (same : cells.Perm other) : Represents heap other :=
  ⟨(same.map Prod.fst).nodup_iff.mp represents.distinct, fun address block =>
    (represents.holds address block).trans same.mem_iff⟩

theorem lookup (represents : Represents heap cells) (member : (address, block) ∈ cells) : heap address = some block :=
  (represents.holds address block).mpr member

/-- Where the heap has nothing no cell is. -/
theorem absent (represents : Represents heap cells) (free : heap address = none) : address ∉ cells.map Prod.fst := by
  intro listed
  obtain ⟨cell, member, rfl⟩ := List.mem_map.mp listed
  cases free.symm.trans (represents.lookup member)

theorem absent_iff (represents : Represents heap cells) : heap address = none ↔ address ∉ cells.map Prod.fst := by
  refine ⟨represents.absent, fun absent => ?_⟩
  cases at_ : heap address with
  | none => rfl
  | some block => exact absurd (List.mem_map_of_mem ((represents.holds address block).mp at_)) absent

/-- A cell given back. -/
theorem release (represents : Represents heap ((address, block) :: cells)) :
    Represents (Function.update heap address none) cells := by
  obtain ⟨fresh, distinct⟩ := List.nodup_cons.mp represents.distinct
  refine ⟨distinct, fun place found => ?_⟩
  by_cases here : place = address
  · rw [here, Function.update_self]
    refine ⟨nofun, fun member => absurd (List.mem_map_of_mem member) fresh⟩
  · rw [Function.update_of_ne here, represents.holds, List.mem_cons]
    exact or_iff_right fun same => here (congrArg Prod.fst same)

/-- A new cell. -/
theorem allocate (represents : Represents heap cells) (free : heap address = none) (block : β) :
    Represents (Function.update heap address (some block)) ((address, block) :: cells) := by
  refine ⟨List.nodup_cons.mpr ⟨represents.absent free, represents.distinct⟩, fun place found => ?_⟩
  by_cases here : place = address
  · rw [here, Function.update_self, List.mem_cons, Option.some.injEq]
    constructor
    · intro same
      exact .inl (congrArg (Prod.mk address) same.symm)
    · rintro (same | member)
      · exact (congrArg Prod.snd same).symm
      · exact absurd (List.mem_map_of_mem member) (represents.absent free)
  · rw [Function.update_of_ne here, represents.holds, List.mem_cons]
    exact (or_iff_right fun same => here (congrArg Prod.fst same)).symm

/-- A cell written. -/
theorem write {now : β} (represents : Represents heap ((address, block) :: cells)) :
    Represents (Function.update heap address (some now)) ((address, now) :: cells) := by
  have cleared := represents.release.allocate (Function.update_self address none heap) now
  rwa [Function.update_idem] at cleared

/-- An allocator has room as long as there are more addresses than cells. -/
theorem exists_free (represents : Represents heap cells) {limit : Nat} (few : cells.length < limit) :
    ∃ address < limit, heap (address + 1) = none := by
  by_contra full
  push Not at full
  have covered : (List.range limit).map (fun address => address + 1) ⊆ cells.map Prod.fst := by
    intro place listed
    obtain ⟨address, inside, rfl⟩ := List.mem_map.mp listed
    by_contra absent
    exact full address (List.mem_range.mp inside) (represents.absent_iff.mpr absent)
  have fits := (List.subperm_of_subset (List.nodup_range.map (Nat.succ_injective)) covered).length_le
  rw [List.length_map, List.length_map, List.length_range] at fits
  omega

end Represents

end HundredDays.Memory
