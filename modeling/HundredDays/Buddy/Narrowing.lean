import HundredDays.Buddy.Exhaustion

namespace HundredDays.Buddy

open HundredDays.Data HundredDays.Semantics

/-! An allocator whose smallest blocks have no room for a header.

As long as no such block is asked for, it does what one with larger smallest blocks
does, on lists that are some places further on.
-/

variable {alloc : BuddyAllocator} {extra index node target steps order : Nat} {link : Option Nat} {isFree : Bool}

/-- The allocator with some empty lists in front, for smaller blocks than it has. -/
def BuddyAllocator.narrow (extra : Nat) (alloc : BuddyAllocator) : BuddyAllocator :=
  { alloc with
    minOrder := alloc.minOrder - extra
    freeLists := fun index => if index < extra then none else alloc.freeLists (index - extra) }

theorem freeLists_narrow : (alloc.narrow extra).freeLists (index + extra) = alloc.freeLists index := by
  have later : ¬ index + extra < extra := by omega
  simp only [BuddyAllocator.narrow, if_neg later, Nat.add_sub_cancel]

/-- What is on a list was on one before. -/
theorem freeLists_narrow_some (head : (alloc.narrow extra).freeLists index = some node) :
    ∃ place, index = place + extra ∧ alloc.freeLists place = some node := by
  simp only [BuddyAllocator.narrow] at head
  split_ifs at head with early
  exact ⟨index - extra, by omega, head⟩

theorem narrow_setList :
    (alloc.setList index link).narrow extra = (alloc.narrow extra).setList (index + extra) link := by
  have lists : (fun place => if place < extra then none else Function.update alloc.freeLists index link (place - extra)) =
      Function.update (alloc.narrow extra).freeLists (index + extra) link := by
    funext place
    simp only [Function.update_apply, BuddyAllocator.narrow]
    by_cases early : place < extra
    · rw [if_pos early, if_neg (by omega), if_pos early]
    · have same : place - extra = index ↔ place = index + extra := by omega
      simp only [if_neg early, same]
  simp only [BuddyAllocator.setList, ← lists]
  rfl

theorem narrow_listAdd :
    (listAdd alloc index node).narrow extra = listAdd (alloc.narrow extra) (index + extra) node := by
  unfold listAdd
  cases head : alloc.freeLists index with
  | none =>
      have place := (@freeLists_narrow alloc extra index).trans head
      simp only [BuddyAllocator.freeLists_setNext, BuddyAllocator.freeLists_setPrev, head, place, narrow_setList]
      rfl
  | some first =>
      have place := (@freeLists_narrow alloc extra index).trans head
      simp only [BuddyAllocator.freeLists_setNext, BuddyAllocator.freeLists_setPrev, head, place, narrow_setList]
      rfl

theorem narrow_bypass {backward forward : Option Nat} : (bypass alloc index backward forward).narrow extra =
    bypass (alloc.narrow extra) (index + extra) backward forward := by
  cases backward with
  | none => exact narrow_setList
  | some before => rfl

theorem narrow_pointBack {forward backward : Option Nat} :
    (pointBack alloc forward backward).narrow extra = pointBack (alloc.narrow extra) forward backward := by
  cases forward <;> rfl

theorem narrow_listRemove :
    (listRemove alloc index node).narrow extra = listRemove (alloc.narrow extra) (index + extra) node := by
  rw [listRemove_eq, listRemove_eq, narrow_pointBack, narrow_bypass]
  -- the links are those of the same memory
  have bypassed := @narrow_bypass alloc extra index (alloc.prev node) (alloc.next node)
  have next := congrArg (BuddyAllocator.next · node) bypassed
  have prev := congrArg (BuddyAllocator.prev · node) bypassed
  exact congrArg₂ (pointBack _) next prev

theorem narrow_splitFrom :
    (splitFrom alloc node target steps).narrow extra = splitFrom (alloc.narrow extra) node (target + extra) steps := by
  induction steps generalizing alloc with
  | zero => rfl
  | succ steps ih =>
      have place : target + extra + steps = target + steps + extra := by omega
      rw [splitFrom, splitFrom, ih, narrow_listAdd, place]
      rfl

/-- What a round of `mergeFrom` compares is the same for both. -/
theorem narrow_mergeFrom :
    mergeFrom (alloc.narrow extra) node (index + extra) steps =
        (mergeFrom alloc node index steps).map (BuddyAllocator.narrow extra) ∧
      mergeIndices (alloc.narrow extra) node (index + extra) steps =
        (mergeIndices alloc node index steps).map (· + extra) := by
  induction steps generalizing alloc node index with
  | zero => exact ⟨rfl, rfl⟩
  | succ steps ih =>
      have order : ∀ place, (alloc.narrow extra).order place = alloc.order place := fun _ => rfl
      have isFree : ∀ place, (alloc.narrow extra).isFree place = alloc.isFree place := fun _ => rfl
      have largest : (alloc.narrow extra).maxOrder = alloc.maxOrder := rfl
      have start : (alloc.narrow extra).memoryPool = alloc.memoryPool := rfl
      simp only [mergeFrom, mergeIndices, order, isFree, largest, start]
      by_cases below : alloc.order node < alloc.maxOrder
      · rw [if_pos below, if_pos below, if_pos below, if_pos below]
        split
        · exact ⟨congrArg some narrow_listAdd.symm, rfl⟩
        · rw [← narrow_listRemove, Nat.add_right_comm index extra 1]
          generalize alloc.memoryPool + (node - alloc.memoryPool ^^^ 2 ^ alloc.order node) = buddy
          generalize (if buddy < node then buddy else node) = block
          generalize listRemove alloc index buddy = removed
          obtain ⟨merged, indices⟩ := @ih (removed.setOrder block (removed.order block + 1)) (index + 1) block
          exact ⟨merged, congrArg (List.cons _) indices⟩
      · rw [if_neg below, if_neg below, if_neg below, if_neg below]
        exact ⟨congrArg some narrow_listAdd.symm, rfl⟩

end HundredDays.Buddy
