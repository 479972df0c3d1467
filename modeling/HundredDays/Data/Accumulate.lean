import Mathlib.Data.List.Range
import Mathlib.Logic.Function.Basic

namespace HundredDays.Data

/-! Loops that combine values into the cells of a memory.

Such a loop is determined by its stores, in their order.  What ends up in a cell
depends on the stores to that cell only, so that two loop nests agree when every
cell gets the same values in the same order.
-/

variable {ι κ α β : Type*}

/-- Combine each value with what its cell holds. -/
def accumulate [DecidableEq ι] (step : α → β → α) (memory : ι → α) (stores : List (ι × β)) : ι → α :=
  stores.foldl (fun memory store => Function.update memory store.1 (step (memory store.1) store.2)) memory

/-- The values that go to one cell. -/
def received [DecidableEq ι] (stores : List (ι × β)) (cell : ι) : List β :=
  stores.filterMap fun store => if store.1 = cell then some store.2 else none

theorem accumulate_apply [DecidableEq ι] (step : α → β → α) (memory : ι → α) (stores : List (ι × β)) (cell : ι) :
    accumulate step memory stores cell = (received stores cell).foldl step (memory cell) := by
  induction stores generalizing memory with
  | nil => rfl
  | cons store rest ih =>
      have later := ih (Function.update memory store.1 (step (memory store.1) store.2))
      rw [accumulate, List.foldl_cons]
      rw [accumulate] at later
      rw [later]
      by_cases same : store.1 = cell
      · subst same
        simp [received]
      · simp [same, received, Function.update_of_ne (Ne.symm same)]

@[simp] theorem received_flatMap [DecidableEq ι] (items : List κ) (stores : κ → List (ι × β)) (cell : ι) :
    received (items.flatMap stores) cell = items.flatMap fun item => received (stores item) cell := by
  simp [received, List.filterMap_flatMap]

@[simp] theorem received_single [DecidableEq ι] (place cell : ι) (value : β) :
    received [(place, value)] cell = if place = cell then [value] else [] := by
  by_cases same : place = cell <;> simp [received, same]

theorem received_eq_nil [DecidableEq ι] {stores : List (ι × β)} {cell : ι}
    (elsewhere : ∀ store ∈ stores, store.1 ≠ cell) : received stores cell = [] :=
  List.filterMap_eq_nil_iff.mpr fun store member => if_neg (elsewhere store member)

/-- A loop of which only one round does something. -/
theorem flatMap_single {items : List κ} {rounds : κ → List β} {only : κ} (member : only ∈ items)
    (distinct : items.Nodup) (idle : ∀ item ∈ items, item ≠ only → rounds item = []) :
    items.flatMap rounds = rounds only := by
  obtain ⟨left, right, rfl⟩ := List.append_of_mem member
  have apart := (List.perm_middle.nodup_iff).mp distinct
  have before : ∀ item ∈ left ++ right, rounds item = [] := by
    intro item inside
    refine idle item ?_ ?_
    · exact List.perm_middle.mem_iff.mpr (List.mem_cons_of_mem _ inside)
    · rintro rfl
      exact (List.nodup_cons.mp apart).1 inside
  have first : left.flatMap rounds = [] :=
    List.flatMap_eq_nil_iff.mpr fun item inside => before item (List.mem_append_left _ inside)
  have last : right.flatMap rounds = [] :=
    List.flatMap_eq_nil_iff.mpr fun item inside => before item (List.mem_append_right _ inside)
  rw [List.flatMap_append, List.flatMap_cons, first, last, List.nil_append, List.append_nil]

/-- The values of the variable in `for (v = start; v < stop; v += step)`. -/
def strided (start stop step : Nat) : List Nat := List.range' start ((stop - start + step - 1) / step) step

end HundredDays.Data
