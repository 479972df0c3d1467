import HundredDays.Data.CycleSearch
import Mathlib.Data.Finset.Card

namespace HundredDays.Data

/-! A depth-first search for a cycle, over any way to list the successors of a node.

The search stops at the first successor that is on its own path. The depth of the
recursion is an argument, and one more than there are nodes is enough.
-/

open Relation

variable {α : Type*} [DecidableEq α]

/-- The nodes that were visited, and those of them on the path. -/
structure Marks (α : Type*) where
  visited : Finset α
  path : Finset α

namespace Marks

def empty : Marks α := { visited := ∅, path := ∅ }

def enter (marks : Marks α) (node : α) : Marks α :=
  { visited := insert node marks.visited, path := insert node marks.path }

def leave (marks : Marks α) (node : α) : Marks α := { marks with path := marks.path.erase node }

end Marks

/-- The loop over the successors of a node, given the recursive call. -/
def searchNexts (search : α → Marks α → Option (Bool × Marks α)) : List α → Marks α → Option (Bool × Marks α)
  | [], marks => some (false, marks)
  | next :: rest, marks =>
      if next ∉ marks.visited then
        (search next marks).bind fun result => if result.1 then some (true, result.2) else searchNexts search rest result.2
      else if next ∈ marks.path then some (true, marks)
      else searchNexts search rest marks

/-- `none` when the recursion goes deeper than the given depth. -/
def search (successors : α → List α) : Nat → α → Marks α → Option (Bool × Marks α)
  | 0, _, _ => none
  | depth + 1, node, marks =>
      (searchNexts (search successors depth) (successors node) (marks.enter node)).map fun result =>
        if result.1 then result else (false, result.2.leave node)

/-- The loop over the nodes that a search may start from. -/
def searchRoots (search : α → Marks α → Option (Bool × Marks α)) : List α → Marks α → Option Bool
  | [], _ => some false
  | node :: rest, marks =>
      if node ∉ marks.visited then
        (search node marks).bind fun result => if result.1 then some true else searchRoots search rest result.2
      else searchRoots search rest marks

variable {edge : α → α → Prop} {successors : α → List α} {nodes : Finset α} {node next : α} {marks after : Marks α}
  {nexts : List α} {depth : Nat} {found : Bool}

theorem searchNexts_congr {first second : α → Marks α → Option (Bool × Marks α)}
    (same : ∀ next ∈ nexts, first next = second next) :
    searchNexts first nexts marks = searchNexts second nexts marks := by
  induction nexts generalizing marks with
  | nil => rfl
  | cons next rest ih =>
      have others : ∀ other ∈ rest, first other = second other := fun other member =>
        same other (List.mem_cons_of_mem next member)
      simp only [searchNexts, same next List.mem_cons_self, ih others]

/-- The search reads the successors of no node that it cannot come to. -/
theorem search_congr {others : α → List α} (same : ∀ node ∈ nodes, successors node = others node)
    (closed : ∀ node ∈ nodes, ∀ next ∈ successors node, next ∈ nodes) (inside : node ∈ nodes) :
    search successors depth node = search others depth node := by
  induction depth generalizing node with
  | zero => rfl
  | succ depth ih =>
      funext marks
      have looped : searchNexts (search successors depth) (successors node) (marks.enter node) =
          searchNexts (search others depth) (successors node) (marks.enter node) :=
        searchNexts_congr fun next member => ih (closed node inside next member)
      rw [search, search, looped, same node inside]

theorem searchRoots_congr {first second : α → Marks α → Option (Bool × Marks α)}
    (same : ∀ next ∈ nexts, first next = second next) :
    searchRoots first nexts marks = searchRoots second nexts marks := by
  induction nexts generalizing marks with
  | nil => rfl
  | cons next rest ih =>
      have others : ∀ other ∈ rest, first other = second other := fun other member =>
        same other (List.mem_cons_of_mem next member)
      simp only [searchRoots, same next List.mem_cons_self, ih others]

/-- What a call of the search or of its loop has established when it returns: a cycle, or more
finished nodes and the same path. -/
def Outcome (edge : α → α → Prop) (before : Marks α) (found : Bool) (after : Marks α) : Prop :=
  if found then Cyclic edge
  else Explored edge after.visited after.path ∧ after.path = before.path ∧ before.visited ⊆ after.visited

theorem Outcome.trans {middle : Marks α} (first : Outcome edge marks false middle)
    (second : Outcome edge middle found after) : Outcome edge marks found after := by
  cases found with
  | true => exact second
  | false =>
      obtain ⟨_, sameFirst, growsFirst⟩ := first
      obtain ⟨explored, sameSecond, growsSecond⟩ := second
      exact ⟨explored, sameSecond.trans sameFirst, growsFirst.trans growsSecond⟩

/-- The search from one node: the nodes on the path lead to it. -/
def SearchSound (edge : α → α → Prop) (search : α → Marks α → Option (Bool × Marks α)) : Prop :=
  ∀ node marks found after, Explored edge marks.visited marks.path → node ∉ marks.visited →
    (∀ entered ∈ marks.path, TransGen edge entered node) → search node marks = some (found, after) →
    Outcome edge marks found after ∧ (found = false → node ∈ after.visited)

theorem searchNexts_sound {search : α → Marks α → Option (Bool × Marks α)} (sound : SearchSound edge search)
    (explored : Explored edge marks.visited marks.path)
    (path : ∀ entered ∈ marks.path, ReflTransGen edge entered node) (steps : ∀ next ∈ nexts, edge node next)
    (returned : searchNexts search nexts marks = some (found, after)) :
    Outcome edge marks found after ∧ (found = false → ∀ next ∈ nexts, next ∈ after.visited \ after.path) := by
  induction nexts generalizing marks with
  | nil =>
      cases returned
      exact ⟨⟨explored, rfl, Finset.Subset.refl _⟩, by simp⟩
  | cons next rest ih =>
      have step : edge node next := steps next List.mem_cons_self
      have others : ∀ next ∈ rest, edge node next := fun other member => steps other (List.mem_cons_of_mem next member)
      rw [searchNexts] at returned
      split at returned
      next fresh =>
        obtain ⟨⟨foundFirst, middle⟩, called, continued⟩ := Option.bind_eq_some_iff.mp returned
        have leads : ∀ entered ∈ marks.path, TransGen edge entered next := fun entered member =>
          TransGen.tail' (path entered member) step
        obtain ⟨outcome, seen⟩ := sound next marks foundFirst middle explored fresh leads called
        cases foundFirst with
        | true =>
            cases continued
            exact ⟨outcome, by simp⟩
        | false =>
            obtain ⟨exploredMiddle, samePath, grows⟩ := id outcome
            obtain ⟨final, finished⟩ := ih exploredMiddle (by rw [samePath]; exact path) others continued
            refine ⟨outcome.trans final, ?_⟩
            intro notFound other member
            cases List.mem_cons.mp member with
            | inl same =>
                subst found other
                obtain ⟨_, sameFinal, growsFinal⟩ := final
                refine Finset.mem_sdiff.mpr ⟨growsFinal (seen rfl), ?_⟩
                rw [sameFinal, samePath]
                exact fun entered => fresh (explored.visited_of_path entered)
            | inr later => exact finished notFound other later
      next seen =>
        rw [not_not] at seen
        split at returned
        next entered =>
          cases returned
          exact ⟨⟨next, TransGen.tail' (path next entered) step⟩, by simp⟩
        next left =>
          obtain ⟨final, finished⟩ := ih explored path others returned
          refine ⟨final, ?_⟩
          intro notFound other member
          cases List.mem_cons.mp member with
          | inl same =>
              subst found other
              obtain ⟨_, sameFinal, growsFinal⟩ := final
              exact Finset.mem_sdiff.mpr ⟨growsFinal seen, sameFinal ▸ left⟩
          | inr later => exact finished notFound other later

theorem search_sound (listed : ∀ node next, next ∈ successors node ↔ edge node next) :
    SearchSound edge (search successors depth) := by
  induction depth with
  | zero =>
      intro node marks found after _ _ _ returned
      cases returned
  | succ depth ih =>
      intro node marks found after explored fresh path returned
      simp only [search, Option.map_eq_some_iff] at returned
      obtain ⟨⟨foundInside, inside⟩, looped, result⟩ := returned
      have outer : ∀ entered ∈ (marks.enter node).path, ReflTransGen edge entered node := by
        intro entered member
        cases Finset.mem_insert.mp member with
        | inl same => exact same ▸ ReflTransGen.refl
        | inr below => exact (path entered below).to_reflTransGen
      obtain ⟨outcome, finished⟩ := searchNexts_sound ih (explored.enter fresh) outer
        (fun next member => (listed node next).mp member) looped
      cases foundInside with
      | true =>
          cases result
          exact ⟨outcome, by simp⟩
      | false =>
          cases result
          obtain ⟨exploredInside, samePath, grows⟩ := outcome
          have entered : node ∈ inside.path := by
            rw [samePath]
            exact Finset.mem_insert_self node marks.path
          have left : inside.path.erase node = marks.path := by
            rw [samePath]
            exact Finset.erase_insert fun below => fresh (explored.visited_of_path below)
          refine ⟨⟨?_, left, ?_⟩, ?_⟩
          · exact exploredInside.leave entered fun next step => finished rfl next ((listed node next).mpr step)
          · exact (Finset.subset_insert node marks.visited).trans grows
          · intro _
            exact grows (Finset.mem_insert_self node marks.visited)

/-- The search returns when at most `room` nodes are left to visit. -/
def SearchReturns (nodes : Finset α) (search : α → Marks α → Option (Bool × Marks α)) (room : Nat) : Prop :=
  ∀ node marks, node ∈ nodes → node ∉ marks.visited → (nodes \ marks.visited).card ≤ room →
    ∃ found after, search node marks = some (found, after) ∧ marks.visited ⊆ after.visited

theorem searchNexts_returns {search : α → Marks α → Option (Bool × Marks α)} {room : Nat}
    (returns : SearchReturns nodes search room) (inside : ∀ next ∈ nexts, next ∈ nodes)
    (left : (nodes \ marks.visited).card ≤ room) :
    ∃ found after, searchNexts search nexts marks = some (found, after) ∧ marks.visited ⊆ after.visited := by
  induction nexts generalizing marks with
  | nil => exact ⟨false, marks, rfl, Finset.Subset.refl _⟩
  | cons next rest ih =>
      have others : ∀ other ∈ rest, other ∈ nodes := fun other member => inside other (List.mem_cons_of_mem next member)
      rw [searchNexts]
      split
      next fresh =>
        obtain ⟨foundFirst, middle, called, grows⟩ := returns next marks (inside next List.mem_cons_self) fresh left
        rw [called]
        cases foundFirst with
        | true => exact ⟨true, middle, rfl, grows⟩
        | false =>
            have fewer := (Finset.card_le_card (Finset.sdiff_subset_sdiff (Finset.Subset.refl _) grows)).trans left
            obtain ⟨found, after, looped, further⟩ := ih others fewer
            exact ⟨found, after, looped, grows.trans further⟩
      next seen =>
        split
        next => exact ⟨true, marks, rfl, Finset.Subset.refl _⟩
        next => exact ih others left

/-- Each level of the recursion visits one more node. -/
theorem search_returns (inside : ∀ node next, next ∈ successors node → next ∈ nodes) :
    SearchReturns nodes (search successors depth) depth := by
  induction depth with
  | zero =>
      intro node marks member fresh room
      have none := Finset.card_eq_zero.mp (Nat.le_zero.mp room)
      exact absurd (Finset.mem_sdiff.mpr ⟨member, fresh⟩) (none ▸ Finset.notMem_empty node)
  | succ depth ih =>
      intro node marks member fresh room
      have entered : nodes \ (marks.enter node).visited = (nodes \ marks.visited).erase node := by
        rw [Marks.enter, Finset.sdiff_insert]
      have fewer : (nodes \ (marks.enter node).visited).card ≤ depth := by
        rw [entered, Finset.card_erase_of_mem (Finset.mem_sdiff.mpr ⟨member, fresh⟩)]
        omega
      obtain ⟨found, after, looped, grows⟩ := searchNexts_returns ih (inside node) fewer
      have visited := (Finset.subset_insert node marks.visited).trans grows
      simp only [search, looped, Option.map_some]
      cases found with
      | true => exact ⟨true, after, rfl, visited⟩
      | false => exact ⟨false, after.leave node, rfl, visited⟩

/-- The search from all roots returns, and finds a cycle exactly when there is one. -/
theorem searchRoots_iff (listed : ∀ node next, next ∈ successors node ↔ edge node next)
    (inside : ∀ node next, edge node next → next ∈ nodes) (room : nodes.card ≤ depth)
    (explored : Explored edge marks.visited ∅) (start : marks.path = ∅) (roots : ∀ node ∈ nexts, node ∈ nodes)
    (rest : ∀ node next, edge node next → node ∈ marks.visited ∨ node ∈ nexts) :
    ∃ found, searchRoots (search successors depth) nexts marks = some found ∧ (found = true ↔ Cyclic edge) := by
  induction nexts generalizing marks with
  | nil =>
      refine ⟨false, rfl, ?_⟩
      simpa using explored.not_cyclic fun node next step => by simpa using rest node next step
  | cons node others ih =>
      have rootsOthers : ∀ other ∈ others, other ∈ nodes := fun other member =>
        roots other (List.mem_cons_of_mem node member)
      rw [searchRoots]
      split
      next fresh =>
        have left : (nodes \ marks.visited).card ≤ depth := (Finset.card_le_card Finset.sdiff_subset).trans room
        obtain ⟨found, after, called, _⟩ := search_returns (fun node next member => inside node next ((listed node next).mp member))
          node marks (roots node List.mem_cons_self) fresh left
        have noPath : ∀ entered ∈ marks.path, TransGen edge entered node := by simp [start]
        obtain ⟨outcome, seen⟩ := search_sound listed node marks found after (start.symm ▸ explored) fresh noPath called
        rw [called]
        cases found with
        | true => exact ⟨true, rfl, fun _ => outcome, fun _ => rfl⟩
        | false =>
            obtain ⟨exploredAfter, samePath, grows⟩ := outcome
            rw [start] at samePath
            rw [samePath] at exploredAfter
            apply ih exploredAfter samePath rootsOthers
            intro other next step
            cases rest other next step with
            | inl before => exact Or.inl (grows before)
            | inr member =>
                cases List.mem_cons.mp member with
                | inl same => exact Or.inl (same ▸ seen rfl)
                | inr later => exact Or.inr later
      next seen =>
        rw [not_not] at seen
        apply ih explored start rootsOthers
        intro other next step
        cases rest other next step with
        | inl before => exact Or.inl before
        | inr member =>
            cases List.mem_cons.mp member with
            | inl same => exact Or.inl (same ▸ seen)
            | inr later => exact Or.inr later

end HundredDays.Data
