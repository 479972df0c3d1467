import HundredDays.LockFreeQueue.Model
import Mathlib.Data.List.Basic
import Mathlib.Data.Nat.ModEq

namespace HundredDays.LockFreeQueue

/-! The queue is a bounded list when it has at least two slots.

The sequence of a slot is the ticket it is free for, or one more than the ticket that
filled it.  With one slot the two are the same number.
-/

variable {T : Type} {capacity head spurious : Nat} {queue : LockFreeQueue T} {items : List T} {val : T}

/-- The tickets from `head` on have filled their slots with the items, and the rest of the lap is free. -/
structure Represents (capacity : Nat) (queue : LockFreeQueue T) (head : Nat) (items : List T) : Prop where
  first : queue.head = head
  last : queue.tail = head + items.length
  bounded : items.length ≤ capacity
  filled : ∀ index (inside : index < items.length), queue.sequence ((head + index) % capacity) = head + index + 1 ∧
    queue.data ((head + index) % capacity) = items[index]
  free : ∀ ticket, head + items.length ≤ ticket → ticket < head + capacity →
    queue.sequence (ticket % capacity) = ticket % 2 ^ 64

theorem create_represents (word : capacity < 2 ^ 64) (data : Nat → T) : Represents capacity (create data) 0 [] := by
  refine ⟨rfl, rfl, Nat.zero_le _, fun index inside => absurd inside (Nat.not_lt_zero _), ?_⟩
  intro ticket _ below
  rw [Nat.zero_add] at below
  rw [Nat.mod_eq_of_lt below, Nat.mod_eq_of_lt (Nat.lt_trans below word)]
  rfl

/-- Two tickets of one lap are at different slots. -/
theorem slot_ne {ticket other : Nat} (less : ticket < other) (near : other < ticket + capacity) :
    ticket % capacity ≠ other % capacity := by
  intro same
  have multiple := (Nat.modEq_iff_dvd' (Nat.le_of_lt less)).mp same
  have size := Nat.le_of_dvd (by omega) multiple
  omega

theorem ptrdiff_of_lt {value : Nat} (small : value < 2 ^ 63) : ptrdiff value = value := if_pos small

/-- At a slot that is free for the ticket the loop of `push` ends when the exchange succeeds. -/
theorem push_ready (ready : ptrdiff (queue.sequence (queue.tail % capacity)) - ptrdiff queue.tail = 0)
    (spurious : Nat) : push capacity queue val (spurious + 1) spurious = some (true, { queue with
      tail := (queue.tail + 1) % 2 ^ 64
      data := Function.update queue.data (queue.tail % capacity) val
      sequence := Function.update queue.sequence (queue.tail % capacity) ((queue.tail + 1) % 2 ^ 64) }) := by
  rw [push]
  induction spurious with
  | zero =>
      rw [pushFrom]
      simp only [ready, and_self, if_true]
  | succ count ih =>
      rw [pushFrom]
      simp only [ready, if_true, Nat.add_one_ne_zero, and_false, if_false, Nat.add_sub_cancel]
      exact ih

/-- At a slot that the ticket has filled the loop of `pop` ends when the exchange succeeds. -/
theorem pop_ready
    (ready : ptrdiff (queue.sequence (queue.head % capacity)) - ptrdiff ((queue.head + 1) % 2 ^ 64) = 0)
    (spurious : Nat) : pop capacity queue (spurious + 1) spurious =
      some (some (queue.data (queue.head % capacity)), { queue with
        head := (queue.head + 1) % 2 ^ 64
        sequence := Function.update queue.sequence (queue.head % capacity) ((queue.head + capacity) % 2 ^ 64) }) := by
  rw [pop]
  induction spurious with
  | zero =>
      rw [popFrom]
      simp only [ready, and_self, if_true]
  | succ count ih =>
      rw [popFrom]
      simp only [ready, if_true, Nat.add_one_ne_zero, and_false, if_false, Nat.add_sub_cancel]
      exact ih

namespace Represents

/-- A push to a free slot, after any number of spurious failures. -/
theorem push_room (rep : Represents capacity queue head items) (val : T) (room : items.length < capacity)
    (small : head + items.length + 1 < 2 ^ 63) (spurious : Nat) :
    ∃ after, push capacity queue val (spurious + 1) spurious = some (true, after) ∧
      Represents capacity after head (items ++ [val]) := by
  obtain ⟨first, last, bounded, filled, free⟩ := rep
  have fresh := free (head + items.length) (Nat.le_refl _) (by omega)
  have exact : (head + items.length) % 2 ^ 64 = head + items.length := Nat.mod_eq_of_lt (by omega)
  have next : (head + items.length + 1) % 2 ^ 64 = head + items.length + 1 := Nat.mod_eq_of_lt (by omega)
  rw [exact] at fresh
  have pushed := @push_ready T capacity queue val (by rw [last, fresh, Int.sub_self]) spurious
  rw [last, next] at pushed
  refine ⟨_, pushed, first, ?_, ?_, ?_, ?_⟩
  · rw [List.length_append, List.length_singleton]
    rfl
  · rw [List.length_append, List.length_singleton]
    omega
  · intro index inside
    rw [List.length_append, List.length_singleton] at inside
    by_cases newest : index = items.length
    · subst newest
      simp
    · have elsewhere := @slot_ne capacity (head + index) (head + items.length) (by omega) (by omega)
      have before : index < items.length := by omega
      simp only [Function.update_of_ne elsewhere, List.getElem_append_left before]
      exact filled index before
  · intro ticket lower upper
    rw [List.length_append, List.length_singleton] at lower
    have elsewhere := @slot_ne capacity (head + items.length) ticket (by omega) (by omega)
    simp only [Function.update_of_ne elsewhere.symm]
    exact free ticket (by omega) upper

/-- A push to a full queue whose sequences tell a filled slot from a free one. -/
theorem push_full (rep : Represents capacity queue head items) (val : T) (two : 2 ≤ capacity) (full : items.length = capacity)
    (small : head + items.length < 2 ^ 63) (spurious : Nat) :
    push capacity queue val (spurious + 1) spurious = some (false, queue) := by
  have oldest := (rep.filled 0 (by omega)).1
  rw [Nat.add_zero] at oldest
  have slot : (head + items.length) % capacity = head % capacity := by rw [full, Nat.add_mod_right]
  have less : ptrdiff (head + 1) - ptrdiff (head + items.length) < 0 := by
    rw [ptrdiff_of_lt (by omega), ptrdiff_of_lt small]
    omega
  rw [push, pushFrom]
  simp only [rep.last, slot, oldest, if_neg (Int.ne_of_lt less), if_pos less]

theorem pop_empty (rep : Represents capacity queue head []) (positive : 1 ≤ capacity) (small : head + 1 < 2 ^ 63)
    (spurious : Nat) : pop capacity queue (spurious + 1) spurious = some (none, queue) := by
  have fresh := rep.free head (Nat.le_refl _) (by omega)
  have exact : head % 2 ^ 64 = head := Nat.mod_eq_of_lt (by omega)
  have next : (head + 1) % 2 ^ 64 = head + 1 := Nat.mod_eq_of_lt (by omega)
  have less : ptrdiff head - ptrdiff (head + 1) < 0 := by
    rw [ptrdiff_of_lt (by omega), ptrdiff_of_lt small]
    omega
  rw [pop, popFrom]
  simp only [rep.first, fresh, exact, next, if_neg (Int.ne_of_lt less), if_pos less]

theorem pop_oldest {rest : List T} (rep : Represents capacity queue head (val :: rest))
    (small : head + 1 < 2 ^ 63) (spurious : Nat) :
    ∃ after, pop capacity queue (spurious + 1) spurious = some (some val, after) ∧
      Represents capacity after (head + 1) rest := by
  obtain ⟨first, last, bounded, filled, free⟩ := rep
  rw [List.length_cons] at last bounded
  obtain ⟨oldest, value⟩ := filled 0 (Nat.succ_pos _)
  rw [Nat.add_zero] at oldest value
  have next : (head + 1) % 2 ^ 64 = head + 1 := Nat.mod_eq_of_lt (by omega)
  have popped := @pop_ready T capacity queue (by rw [first, next, oldest, Int.sub_self]) spurious
  rw [first, next, value] at popped
  refine ⟨_, popped, rfl, ?_, by omega, ?_, ?_⟩
  · change queue.tail = head + 1 + rest.length
    omega
  · intro index inside
    have elsewhere := @slot_ne capacity head (head + 1 + index) (by omega) (by omega)
    have later := filled (index + 1) (Nat.succ_lt_succ inside)
    have place : head + 1 + index = head + (index + 1) := by omega
    simp only [Function.update_of_ne elsewhere.symm]
    rw [place]
    exact later
  · intro ticket lower upper
    by_cases newest : ticket = head + capacity
    · subst newest
      simp
    · have elsewhere := @slot_ne capacity head ticket (by omega) (by omega)
      simp only [Function.update_of_ne elsewhere.symm]
      exact free ticket (by rw [List.length_cons]; omega) (by omega)

end Represents

/-- Calls that are few enough for the tickets follow the list. -/
theorem follows_of_represents (two : 2 ≤ capacity) (calls : List (Call T)) (queue : LockFreeQueue T) (head : Nat)
    (items : List T) (rep : Represents capacity queue head items)
    (few : head + items.length + calls.length < 2 ^ 63) : Follows capacity queue items calls := by
  induction calls generalizing queue head items with
  | nil => trivial
  | cons call rest ih =>
      obtain ⟨operation, spurious⟩ := call
      rw [List.length_cons] at few
      cases operation with
      | push val =>
          by_cases full : items.length = capacity
          · have refused := rep.push_full val two full (by omega) spurious
            refine ⟨spurious + 1, queue, ?_, ?_⟩
            · simp [perform, refused, respond, full]
            · simp only [respond, if_pos full]
              exact ih queue head items rep (by omega)
          · have bounded := rep.bounded
            obtain ⟨after, pushed, represented⟩ := rep.push_room val (by omega) (by omega) spurious
            refine ⟨spurious + 1, after, ?_, ?_⟩
            · simp [perform, pushed, respond, full]
            · simp only [respond, if_neg full]
              exact ih after head (items ++ [val]) represented (by simp; omega)
      | pop =>
          cases items with
          | nil =>
              have refused := rep.pop_empty (by omega) (by omega) spurious
              refine ⟨spurious + 1, queue, ?_, ih queue head [] rep (by omega)⟩
              simp [perform, refused, respond]
          | cons val later =>
              rw [List.length_cons] at few
              obtain ⟨after, popped, represented⟩ := rep.pop_oldest (by omega) spurious
              refine ⟨spurious + 1, after, ?_, ih after (head + 1) later represented (by omega)⟩
              simp [perform, popped, respond]

/-- The queue with one slot after a push. -/
def occupied (data : Nat → T) (val : T) : LockFreeQueue T where
  data := Function.update data 0 val
  sequence := Function.update (fun i => i) 0 1
  head := 0
  tail := 1

/-- The queue with one slot after two pushes. -/
def overwritten (data : Nat → T) (val : T) : LockFreeQueue T where
  data := Function.update data 0 val
  sequence := Function.update (fun i => i) 0 2
  head := 0
  tail := 2

theorem push_occupied (data : Nat → T) (val : T) (rounds : Nat) :
    push 1 (create data) val (rounds + 1) 0 = some (true, occupied data val) := rfl

theorem push_overwritten (data : Nat → T) (val next : T) (rounds : Nat) :
    push 1 (occupied data val) next (rounds + 1) 0 = some (true, overwritten data next) := by
  rw [push, pushFrom]
  simp [occupied, overwritten, ptrdiff]

/-- The second value of a queue with one slot is accepted as well. -/
theorem not_follows_single (data : Nat → T) (val next : T) :
    ¬ Follows 1 (create data) [] [⟨.push val, 0⟩, ⟨.push next, 0⟩] := by
  intro follows
  obtain ⟨rounds, first, pushed, more, second, again, _⟩ := follows
  cases rounds with
  | zero => cases pushed
  | succ rounds =>
      simp only [perform, push_occupied, Option.map_some] at pushed
      cases pushed
      cases more with
      | zero => cases again
      | succ more =>
          simp only [perform, push_overwritten, Option.map_some] at again
          cases again

/-- Every sequence of calls that is short enough for the tickets follows the list exactly when there are at least two
slots. -/
theorem fifo_iff (capacity : Nat) (positive : 1 ≤ capacity) (word : capacity < 2 ^ 64) (data : Nat → T) :
    (∀ calls : List (Call T), calls.length < 2 ^ 63 → Follows capacity (create data) [] calls) ↔ 2 ≤ capacity := by
  constructor
  · intro follows
    apply Nat.lt_of_le_of_ne positive
    intro single
    subst single
    exact not_follows_single data (data 0) (data 0) (follows _ (Nat.lt_of_le_of_lt (Nat.le_refl 2) (by decide)))
  · intro two calls few
    exact follows_of_represents two calls (create data) 0 [] (create_represents word data) (by simpa using few)

theorem fifo_iff_default :
    (∀ calls : List (Call Nat), calls.length < 2 ^ 63 → Follows 1024 (create fun _ => 0) [] calls) ↔ 2 ≤ 1024 :=
  fifo_iff 1024 (by decide) (by decide) fun _ => 0

/-- The second push into one slot overwrites the first value, and the pop after it never ends. -/
theorem single_slot : (∃ first second, push 1 (create fun _ => 0) 7 1 0 = some (true, first) ∧
      push 1 first 8 1 0 = some (true, second) ∧ ∀ rounds, pop 1 second rounds 0 = none) ∧
    ¬ Follows 1 (create fun _ => 0) [] [⟨.push 7, 0⟩, ⟨.push 8, 0⟩] := by
  refine ⟨⟨_, _, push_occupied _ 7 0, push_overwritten _ 7 8 0, fun rounds => ?_⟩, not_follows_single _ 7 8⟩
  induction rounds with
  | zero => rfl
  | succ rounds ih => exact ih

end HundredDays.LockFreeQueue
