namespace HundredDays.Memory

/-! The C allocator as its callers may rely on it.

An address stands for one allocated object.  Which address `malloc` returns, and
when it returns null, is the environment's choice: it may depend on how many
calls were made before and on what is allocated now.  All a caller is promised
is that an address handed out is not one that is still allocated.
-/

abbrev Addr := Nat

/-- Every answer `malloc` will ever give: `answer calls live` is what the call
numbered `calls` returns while `live` is allocated; `none` is null. -/
structure Malloc where
  answer : Nat → List Addr → Option Addr
  fresh : ∀ {calls live address}, answer calls live = some address → address ∉ live

/-- Some call of this allocator returns null. -/
def Malloc.Refuses (malloc : Malloc) : Prop := ∃ calls live, malloc.answer calls live = none

/-- The allocator that hands out the address above all allocated ones. -/
def Malloc.bump : Malloc where
  answer _ live := some (live.foldr max 0 + 1)
  fresh := by
    have below : ∀ (live : List Addr) (address : Addr), address ∈ live → address ≤ live.foldr max 0 := by
      intro live address member
      induction live with
      | nil => contradiction
      | cons first rest ih =>
          rcases List.mem_cons.mp member with rfl | later
          · exact Nat.le_max_left _ _
          · exact Nat.le_trans (ih later) (Nat.le_max_right _ _)
    intro calls live address answered member
    cases answered
    exact absurd (below live _ member) (Nat.not_succ_le_self _)

theorem Malloc.bump_never_refuses : ¬ Malloc.bump.Refuses := by
  rintro ⟨calls, live, answer⟩
  cases answer

/-- An allocator whose memory is used up after so many calls. -/
def Malloc.limited (granted : Nat) : Malloc where
  answer calls live := if calls < granted then Malloc.bump.answer calls live else none
  fresh := by
    intro calls live address answered
    split at answered
    · exact Malloc.bump.fresh answered
    · contradiction

structure Heap where
  oracle : Malloc
  calls : Nat
  live : List Addr

namespace Heap

/-- The heap of a process that has allocated nothing yet. -/
def start (oracle : Malloc) : Heap := { oracle, calls := 0, live := [] }

def malloc (heap : Heap) : Option Addr × Heap :=
  match heap.oracle.answer heap.calls heap.live with
  | some address =>
      (some address, { heap with calls := heap.calls + 1, live := address :: heap.live })
  | none => (none, { heap with calls := heap.calls + 1 })

def free (heap : Heap) (address : Addr) : Heap :=
  { heap with live := heap.live.erase address }

/-- Whether the allocator would grant the request that comes after `asked` others. -/
def grants (heap : Heap) : Nat → Bool
  | 0 => heap.malloc.1.isSome
  | asked + 1 => heap.malloc.2.grants asked

theorem malloc_some {heap after : Heap} {address : Addr}
    (allocated : heap.malloc = (some address, after)) :
    address ∉ heap.live ∧ after.live = address :: heap.live ∧ after.oracle = heap.oracle := by
  cases answered : heap.oracle.answer heap.calls heap.live with
  | none => simp [malloc, answered] at allocated
  | some given =>
      simp only [malloc, answered, Prod.mk.injEq, Option.some.injEq] at allocated
      obtain ⟨rfl, rfl⟩ := allocated
      exact ⟨heap.oracle.fresh answered, rfl, rfl⟩

theorem malloc_none {heap after : Heap} (refused : heap.malloc = (none, after)) :
    after.live = heap.live ∧ after.oracle = heap.oracle := by
  cases answered : heap.oracle.answer heap.calls heap.live with
  | none =>
      simp only [malloc, answered, Prod.mk.injEq, true_and] at refused
      subst after
      exact ⟨rfl, rfl⟩
  | some given => simp [malloc, answered] at refused

theorem refuses {heap after : Heap} (refused : heap.malloc = (none, after)) : heap.oracle.Refuses := by
  refine ⟨heap.calls, heap.live, ?_⟩
  cases answered : heap.oracle.answer heap.calls heap.live with
  | none => rfl
  | some given => simp [malloc, answered] at refused

end Heap

end HundredDays.Memory
