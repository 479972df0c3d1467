import HundredDays.LeakTracker.Model
import Mathlib.Data.List.Perm.Basic

namespace HundredDays.LeakTracker

/-! The two critical sections, as operations on the set of recorded blocks. -/

variable {gAllocMap : List AllocEntry} {entry other : AllocEntry} {ptr : Address} {isArray : Bool} {i : Nat}

/-- No address is recorded twice. -/
def Unique (gAllocMap : List AllocEntry) : Prop := (gAllocMap.map AllocEntry.ptr).Nodup

theorem Unique.eq (unique : Unique gAllocMap) (first : entry ∈ gAllocMap) (second : other ∈ gAllocMap)
    (same : entry.ptr = other.ptr) : entry = other :=
  List.inj_on_of_nodup_map unique first second same

theorem addRecord_eq (room : gAllocMap.length < MAX_RECORDS) :
    addRecord false (some entry.ptr) entry.size entry.isArray gAllocMap = gAllocMap ++ [entry] := by
  rw [addRecord]
  simp [room]

theorem Unique.concat (unique : Unique gAllocMap) (new : ∀ recorded ∈ gAllocMap, recorded.ptr ≠ entry.ptr) :
    Unique (gAllocMap ++ [entry]) := by
  rw [Unique, List.map_append, List.map_singleton, List.nodup_append]
  refine ⟨unique, List.nodup_singleton _, ?_⟩
  intro address recorded last here
  obtain ⟨older, member, same⟩ := List.mem_map.mp recorded
  rw [List.mem_singleton.mp here, ← same]
  exact new older member

/-- Removing by a swap is removing, up to the order. -/
theorem swapOut_perm (found : gAllocMap[i]? = some entry) : (entry :: swapOut gAllocMap i entry).Perm gAllocMap := by
  obtain ⟨inside, here⟩ := List.getElem?_eq_some_iff.mp found
  cases gAllocMap using List.reverseRecOn with
  | nil => cases inside
  | append_singleton front last =>
      have count : (front ++ [last]).length - 1 = front.length := by simp
      have theLast : (front ++ [last]).getD front.length entry = last := by simp
      simp only [swapOut, count, theLast]
      by_cases final : i = front.length
      · subst i
        have same : last = entry := by simpa using here
        rw [same, List.set_append_right _ _ (Nat.le_refl _), List.take_left]
        exact (List.perm_append_singleton entry front).symm
      · have before : i < front.length := by
          rw [List.length_append, List.length_singleton] at inside
          omega
        have there : front[i] = entry := by rw [← here, List.getElem_append_left before]
        rw [List.set_append_left _ _ before, List.take_left' (List.length_set ..)]
        calc (entry :: front.set i last).Perm (entry :: last :: front.eraseIdx i) :=
              (List.set_perm_cons_eraseIdx before last).cons entry
          _ |>.Perm (last :: entry :: front.eraseIdx i) := List.Perm.swap ..
          _ |>.Perm (last :: front) := by
              rw [← there]
              exact (List.getElem_cons_eraseIdx_perm before).cons last
          _ |>.Perm (front ++ [last]) := (List.perm_append_singleton last front).symm

/-- What is left after a pointer that is recorded is removed. -/
theorem removeRecord_found (unique : Unique gAllocMap) (member : entry ∈ gAllocMap) :
    (entry :: (removeRecord false (some entry.ptr) isArray gAllocMap).1).Perm gAllocMap ∧
      (removeRecord false (some entry.ptr) isArray gAllocMap).2 =
        if entry.isArray ≠ isArray then [mismatchedDelete entry.ptr] else [] := by
  cases found : gAllocMap.findIdx? fun recorded => recorded.ptr = entry.ptr with
  | none =>
      have absent := List.findIdx?_eq_none_iff.mp found entry member
      simp at absent
  | some i =>
      obtain ⟨inside, same, _⟩ := List.findIdx?_eq_some_iff_getElem.mp found
      have here : gAllocMap[i]? = some entry := by
        rw [List.getElem?_eq_getElem inside, unique.eq (List.getElem_mem inside) member (by simpa using same)]
      simp only [removeRecord, found, here, Bool.false_eq_true, if_false]
      exact ⟨swapOut_perm here, trivial⟩

theorem removeRecord_missing (missing : ∀ recorded ∈ gAllocMap, recorded.ptr ≠ ptr) :
    removeRecord false (some ptr) isArray gAllocMap = (gAllocMap, [invalidDelete ptr]) := by
  have absent : gAllocMap.findIdx? (fun recorded => recorded.ptr = ptr) = none := by
    rw [List.findIdx?_eq_none_iff]
    intro recorded member
    simpa using missing recorded member
  simp only [removeRecord, absent, Bool.false_eq_true, if_false]

end HundredDays.LeakTracker
