import Mathlib.Data.Finset.Basic
import Mathlib.Logic.Relation

namespace HundredDays.Data

/-! What a depth-first search for a cycle knows while it runs.

A node that was visited and is no longer on the search path is finished: all it
leads to is finished too, and no cycle goes through it.
-/

open Relation

variable {α : Type*} {edge : α → α → Prop} {node next : α}

/-- Some node leads back to itself. -/
def Cyclic (edge : α → α → Prop) : Prop := ∃ node, TransGen edge node node

/-- What is reached from a set that its edges do not leave is in that set. -/
theorem transGen_closed {inside : α → Prop} (start : inside node) (reached : TransGen edge node next)
    (closed : ∀ node next, inside node → edge node next → inside next) : inside next := by
  induction reached with
  | single step => exact closed _ _ start step
  | tail _ step ih => exact closed _ _ ih step

/-- A relation has a cycle when its image has one, where each node has a place of its own in the image. -/
theorem cyclic_iff_of_places {β : Type*} {image : β → β → Prop} (place : α → Option β)
    (injective : ∀ node next there, place node = some there → place next = some there → node = next)
    (edges : ∀ source target, image source target ↔
      ∃ node next, edge node next ∧ place node = some source ∧ place next = some target)
    (placed : ∀ node next, edge node next → (∃ there, place node = some there) ∧ ∃ there, place next = some there) :
    Cyclic edge ↔ Cyclic image := by
  have forward : ∀ node next source target, TransGen edge node next → place node = some source →
      place next = some target → TransGen image source target := by
    intro node next source target path start finish
    induction path generalizing target with
    | single step => exact TransGen.single ((edges source target).mpr ⟨node, _, step, start, finish⟩)
    | tail _ step ih =>
        obtain ⟨⟨middle, there⟩, _⟩ := placed _ _ step
        exact TransGen.tail (ih middle there) ((edges middle target).mpr ⟨_, _, step, there, finish⟩)
  have backward : ∀ source target, TransGen image source target → ∃ node next, TransGen edge node next ∧
      place node = some source ∧ place next = some target := by
    intro source target path
    induction path with
    | single step =>
        obtain ⟨node, next, joins, start, finish⟩ := (edges source _).mp step
        exact ⟨node, next, TransGen.single joins, start, finish⟩
    | tail _ step ih =>
        obtain ⟨node, middle, reached, start, there⟩ := ih
        obtain ⟨between, next, joins, here, finish⟩ := (edges _ _).mp step
        cases injective middle between _ there here
        exact ⟨node, next, reached.tail joins, start, finish⟩
  constructor
  · rintro ⟨node, cycle⟩
    obtain ⟨next, step, _⟩ := TransGen.head'_iff.mp cycle
    obtain ⟨⟨there, here⟩, _⟩ := placed node next step
    exact ⟨there, forward node node there there cycle here here⟩
  · rintro ⟨there, cycle⟩
    obtain ⟨node, next, reached, start, finish⟩ := backward there there cycle
    cases injective node next there start finish
    exact ⟨node, reached⟩

variable [DecidableEq α] {visited path : Finset α}

structure Explored (edge : α → α → Prop) (visited path : Finset α) : Prop where
  visited_of_path : path ⊆ visited
  closed : ∀ node next, node ∈ visited \ path → edge node next → next ∈ visited \ path
  acyclic : ∀ node ∈ visited \ path, ¬ TransGen edge node node

namespace Explored

theorem empty : Explored edge ∅ ∅ := by
  constructor <;> simp

theorem finished_enter (fresh : node ∉ visited) :
    insert node visited \ insert node path = visited \ path := by
  ext other
  have apart : other ∈ visited → other ≠ node := by
    intro member same
    exact fresh (same ▸ member)
  simp only [Finset.mem_sdiff, Finset.mem_insert]
  grind

/-- A fresh node joins the search path. -/
theorem enter (explored : Explored edge visited path) (fresh : node ∉ visited) :
    Explored edge (insert node visited) (insert node path) := by
  constructor
  · exact Finset.insert_subset_insert node explored.visited_of_path
  · rw [finished_enter fresh]
    exact explored.closed
  · rw [finished_enter fresh]
    exact explored.acyclic

/-- A node on the path all of whose successors are finished is finished itself:
a cycle through it would have to come back out of the finished nodes. -/
theorem leave (explored : Explored edge visited path) (entered : node ∈ path)
    (done : ∀ next, edge node next → next ∈ visited \ path) :
    Explored edge visited (path.erase node) := by
  have grows : ∀ other, other ∈ visited \ path.erase node ↔ other = node ∨ other ∈ visited \ path := by
    intro other
    have seen := explored.visited_of_path entered
    simp only [Finset.mem_sdiff, Finset.mem_erase]
    grind
  constructor
  · exact (Finset.erase_subset node path).trans explored.visited_of_path
  · intro other next member step
    rw [grows] at member ⊢
    cases member with
    | inl same =>
        rw [same] at step
        exact Or.inr (done next step)
    | inr finished => exact Or.inr (explored.closed other next finished step)
  · intro other member cycle
    rw [grows] at member
    cases member with
    | inl same =>
        rw [same] at cycle
        obtain ⟨next, step, back⟩ := TransGen.head'_iff.mp cycle
        have finished : node ∈ visited \ path := by
          cases Relation.reflTransGen_iff_eq_or_transGen.mp back with
          | inl same => exact same ▸ done next step
          | inr reached => exact transGen_closed (done next step) reached explored.closed
        exact (Finset.mem_sdiff.mp finished).2 entered
    | inr finished => exact explored.acyclic other finished cycle

/-- A search that ends with an empty path and has seen every node that has a
successor has shown that there is no cycle. -/
theorem not_cyclic (explored : Explored edge visited ∅)
    (complete : ∀ node next, edge node next → node ∈ visited) : ¬ Cyclic edge := by
  intro cyclic
  obtain ⟨node, cycle⟩ := cyclic
  obtain ⟨next, step, _⟩ := TransGen.head'_iff.mp cycle
  exact explored.acyclic node (by simpa using complete node next step) cycle

end Explored

end HundredDays.Data
