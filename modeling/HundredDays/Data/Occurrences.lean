import Mathlib.Data.List.Infix
import Mathlib.Data.List.Pairwise

namespace HundredDays.Data

/-! Occurrences of a pattern in a text.

Going from left to right and past each occurrence that is found gives the leftmost
occurrences that do not overlap.  They are determined by what they cover.
-/

variable {α : Type*} {text pattern : List α} {start position other : Nat} {positions others : List Nat}

/-- The pattern begins at the position. -/
def OccursAt (text pattern : List α) (position : Nat) : Prop := pattern <+: text.drop position

instance [DecidableEq α] (text pattern : List α) (position : Nat) : Decidable (OccursAt text pattern position) :=
  inferInstanceAs (Decidable (pattern <+: text.drop position))

theorem OccursAt.bound (occurs : OccursAt text pattern position) (nonempty : pattern ≠ []) :
    position + pattern.length ≤ text.length := by
  have length := occurs.length_le
  have positive := List.length_pos_iff.mpr nonempty
  rw [List.length_drop] at length
  omega

/-- The leftmost occurrences from a position on that do not overlap. -/
structure Leftmost (text pattern : List α) (start : Nat) (positions : List Nat) : Prop where
  occurs : ∀ position ∈ positions, start ≤ position ∧ OccursAt text pattern position
  apart : positions.Pairwise fun earlier later => earlier + pattern.length ≤ later
  covers : ∀ position, start ≤ position → OccursAt text pattern position →
    ∃ found ∈ positions, found ≤ position ∧ position < found + pattern.length

namespace Leftmost

/-- No occurrence fits any more. -/
theorem nil (nonempty : pattern ≠ []) (behind : text.length < start + pattern.length) :
    Leftmost text pattern start [] := by
  refine ⟨by simp, List.Pairwise.nil, ?_⟩
  intro position lower occurs
  have bound := occurs.bound nonempty
  omega

/-- Where the pattern does not begin the search goes on at the next position. -/
theorem skip (leftmost : Leftmost text pattern (start + 1) positions) (absent : ¬ OccursAt text pattern start) :
    Leftmost text pattern start positions := by
  obtain ⟨occurs, apart, covers⟩ := leftmost
  refine ⟨fun position member => ?_, apart, fun position lower here => ?_⟩
  · obtain ⟨lower, here⟩ := occurs position member
    exact ⟨by omega, here⟩
  · by_cases first : position = start
    · exact absurd (first ▸ here) absent
    · exact covers position (by omega) here

/-- Where it begins the search goes on behind it. -/
theorem take (leftmost : Leftmost text pattern (start + pattern.length) positions)
    (here : OccursAt text pattern start) : Leftmost text pattern start (start :: positions) := by
  obtain ⟨occurs, apart, covers⟩ := leftmost
  refine ⟨fun position member => ?_, ?_, fun position lower found => ?_⟩
  · cases List.mem_cons.mp member with
    | inl first => exact ⟨Nat.le_of_eq first.symm, first ▸ here⟩
    | inr later =>
        obtain ⟨lower, found⟩ := occurs position later
        exact ⟨by omega, found⟩
  · exact List.pairwise_cons.mpr ⟨fun position later => (occurs position later).1, apart⟩
  · by_cases inside : position < start + pattern.length
    · exact ⟨start, List.mem_cons_self, lower, inside⟩
    · obtain ⟨covering, member, bounds⟩ := covers position (by omega) found
      exact ⟨covering, List.mem_cons_of_mem _ member, bounds⟩

theorem exists_of_nonempty (nonempty : pattern ≠ []) (start : Nat) :
    ∃ positions, Leftmost text pattern start positions := by
  have positive := List.length_pos_iff.mpr nonempty
  induction remaining : text.length - start using Nat.strong_induction_on generalizing start with
  | _ count ih =>
      by_cases behind : text.length < start + pattern.length
      · exact ⟨[], nil nonempty behind⟩
      · by_cases here : OccursAt text pattern start
        · obtain ⟨positions, leftmost⟩ := ih _ (by omega) (start + pattern.length) rfl
          exact ⟨start :: positions, leftmost.take here⟩
        · obtain ⟨positions, leftmost⟩ := ih _ (by omega) (start + 1) rfl
          exact ⟨positions, leftmost.skip here⟩

theorem tail (leftmost : Leftmost text pattern start (position :: positions)) :
    Leftmost text pattern (position + pattern.length) positions := by
  obtain ⟨occurs, apart, covers⟩ := leftmost
  obtain ⟨behind, rest⟩ := List.pairwise_cons.mp apart
  refine ⟨fun other member => ?_, rest, fun other lower found => ?_⟩
  · exact ⟨behind other member, (occurs other (List.mem_cons_of_mem _ member)).2⟩
  · have first := (occurs position List.mem_cons_self).1
    obtain ⟨covering, member, bounds⟩ := covers other (by omega) found
    cases List.mem_cons.mp member with
    | inl same => omega
    | inr later => exact ⟨covering, later, bounds⟩

/-- The first position is the least occurrence. -/
theorem head_le (leftmost : Leftmost text pattern start (position :: positions)) (lower : start ≤ other)
    (found : OccursAt text pattern other) : position ≤ other := by
  obtain ⟨covering, member, bounds⟩ := leftmost.covers other lower found
  cases List.mem_cons.mp member with
  | inl same => omega
  | inr later =>
      have behind := (List.pairwise_cons.mp leftmost.apart).1 covering later
      omega

/-- There is one way only to choose them. -/
theorem unique (first : Leftmost text pattern start positions) (second : Leftmost text pattern start others) :
    positions = others := by
  induction positions generalizing start others with
  | nil =>
      cases others with
      | nil => rfl
      | cons other rest =>
          obtain ⟨lower, found⟩ := second.occurs other List.mem_cons_self
          obtain ⟨_, member, _⟩ := first.covers other lower found
          cases member
  | cons position rest ih =>
      obtain ⟨lower, found⟩ := first.occurs position List.mem_cons_self
      cases others with
      | nil =>
          obtain ⟨_, member, _⟩ := second.covers position lower found
          cases member
      | cons other later =>
          obtain ⟨lowerOther, foundOther⟩ := second.occurs other List.mem_cons_self
          have same : position = other :=
            Nat.le_antisymm (first.head_le lowerOther foundOther) (second.head_le lower found)
          subst same
          rw [ih first.tail second.tail]

end Leftmost

end HundredDays.Data
