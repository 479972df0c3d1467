import HundredDays.Data.Probing
import Mathlib.Data.List.Basic
import Mathlib.Logic.Function.Basic

namespace HundredDays.Data

open HundredDays.Data.Probing

/-! A ring of fixed capacity as a queue, and what went through a queue that a marked item closes. -/

/-- A list that ends with its only marked item ends where one is seen. -/
theorem append_eq_of_marked {α : Type*} {marked : α → Prop} {front back before : List α} {last : α}
    (unmarked : ∀ item ∈ before, ¬ marked item) (same : front ++ back = before ++ [last])
    (seen : ∃ item ∈ front, marked item) : front = before ++ [last] ∧ back = [] := by
  obtain ⟨item, inside, mark⟩ := seen
  rcases List.append_eq_append_iff.mp same with ⟨middle, split, _⟩ | ⟨middle, split, ends⟩
  · rw [split] at unmarked
    exact absurd mark (unmarked item (List.mem_append_left middle inside))
  · cases middle with
    | nil =>
        rw [split, List.append_nil] at inside
        exact absurd mark (unmarked item inside)
    | cons first rest =>
        rw [List.cons_append, List.cons.injEq] at ends
        obtain ⟨restNil, backNil⟩ := List.append_eq_nil_iff.mp ends.2.symm
        rw [split, ← ends.1, restNil]
        exact ⟨rfl, backNil⟩

structure RingBuffer (α : Type*) where
  buffer : Nat → α
  head : Nat
  tail : Nat
  count : Nat

namespace RingBuffer

variable {α : Type*} {capacity : Nat} {ring : RingBuffer α}

def empty (buffer : Nat → α) : RingBuffer α := { buffer, head := 0, tail := 0, count := 0 }

def enqueue (capacity : Nat) (ring : RingBuffer α) (item : α) : RingBuffer α :=
  { ring with
    buffer := Function.update ring.buffer ring.tail item
    tail := (ring.tail + 1) % capacity
    count := ring.count + 1 }

def dequeue (capacity : Nat) (ring : RingBuffer α) : RingBuffer α :=
  { ring with head := (ring.head + 1) % capacity, count := ring.count - 1 }

/-- What is in the ring, oldest first. -/
def contents (capacity : Nat) (ring : RingBuffer α) : List α :=
  (List.range ring.count).map fun index => ring.buffer (place capacity ring.head index)

structure WellFormed (capacity : Nat) (ring : RingBuffer α) : Prop where
  head : ring.head < capacity
  bounded : ring.count ≤ capacity
  tail : ring.tail = place capacity ring.head ring.count

theorem empty_wellFormed (positive : 0 < capacity) (buffer : Nat → α) : WellFormed capacity (empty buffer) :=
  ⟨positive, Nat.zero_le _, (place_zero positive).symm⟩

@[simp] theorem empty_contents (buffer : Nat → α) : (empty buffer).contents capacity = [] := rfl

@[simp] theorem contents_length : (ring.contents capacity).length = ring.count := by
  rw [contents, List.length_map, List.length_range]

theorem WellFormed.enqueue (wellFormed : WellFormed capacity ring) (room : ring.count < capacity) (item : α) :
    WellFormed capacity (ring.enqueue capacity item) := by
  refine ⟨wellFormed.head, room, ?_⟩
  show (ring.tail + 1) % capacity = place capacity ring.head (ring.count + 1)
  rw [wellFormed.tail, place_succ]

theorem enqueue_contents (wellFormed : WellFormed capacity ring) (room : ring.count < capacity) (item : α) :
    (ring.enqueue capacity item).contents capacity = ring.contents capacity ++ [item] := by
  show (List.range (ring.count + 1)).map
    (fun index => Function.update ring.buffer ring.tail item (place capacity ring.head index)) = _
  rw [List.range_succ, List.map_append, List.map_singleton, ← wellFormed.tail, Function.update_self]
  congr 1
  refine List.map_congr_left fun index before => ?_
  have less := List.mem_range.mp before
  have apart : place capacity ring.head index ≠ ring.tail := by
    rw [wellFormed.tail]
    intro same
    exact Nat.ne_of_lt less (place_injective (Nat.lt_trans less room) room same)
  rw [Function.update_of_ne apart]

theorem WellFormed.dequeue (wellFormed : WellFormed capacity ring) (filled : 0 < ring.count) :
    WellFormed capacity (ring.dequeue capacity) := by
  have positive := Nat.lt_of_le_of_lt (Nat.zero_le _) wellFormed.head
  refine ⟨Nat.mod_lt _ positive, Nat.le_trans (Nat.sub_le _ _) wellFormed.bounded, ?_⟩
  show ring.tail = place capacity ((ring.head + 1) % capacity) (ring.count - 1)
  rw [place_shift, Nat.sub_add_cancel filled, wellFormed.tail]

theorem dequeue_contents (wellFormed : WellFormed capacity ring) (filled : 0 < ring.count) :
    ring.contents capacity = ring.buffer ring.head :: (ring.dequeue capacity).contents capacity := by
  obtain ⟨fewer, less⟩ := Nat.exists_eq_add_of_lt filled
  rw [Nat.zero_add] at less
  show _ = _ :: (List.range (ring.count - 1)).map
    (fun index => ring.buffer (place capacity ((ring.head + 1) % capacity) index))
  rw [contents, less, Nat.add_sub_cancel, List.range_succ_eq_map, List.map_cons, List.map_map,
    place_zero wellFormed.head]
  congr 1
  refine List.map_congr_left fun index _ => ?_
  rw [place_shift, Function.comp_apply]

end RingBuffer

end HundredDays.Data
