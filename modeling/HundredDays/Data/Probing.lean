import Mathlib.Algebra.BigOperators.Group.Finset.Piecewise
import Mathlib.Algebra.Order.BigOperators.Group.Finset
import Mathlib.Data.Nat.ModEq
import Mathlib.Logic.Function.Basic

namespace HundredDays.Data.Probing

/-! Open addressing with linear probing and tombstones, over arbitrary keys and values.

A key is searched from its home on, in cyclic order, up to the first empty cell or
the cell that holds it.  What makes this right is that no cell between the home of a
key and its place is empty.
-/

inductive Cell (K V : Type*) where
  | empty
  | deleted
  | full (key : K) (value : V)

namespace Cell

variable {K V : Type*}

def isFull : Cell K V → Bool
  | full _ _ => true
  | _ => false

def isDeleted : Cell K V → Bool
  | deleted => true
  | _ => false

end Cell

/-- The cell that a search looks at after some steps. -/
def place (size start step : Nat) : Nat := (start + step) % size

section Places

variable {size start step other index : Nat}

theorem place_lt (positive : 0 < size) : place size start step < size := Nat.mod_lt _ positive

theorem place_zero (inside : start < size) : place size start 0 = start := Nat.mod_eq_of_lt inside

theorem place_succ : place size start (step + 1) = (place size start step + 1) % size := by
  rw [place, place, Nat.mod_add_mod, Nat.add_assoc]

theorem place_shift : place size ((start + 1) % size) step = place size start (step + 1) := by
  rw [place, place, Nat.mod_add_mod, Nat.add_assoc, Nat.add_comm 1]

/-- Every cell is looked at. -/
theorem place_exists (inside : start < size) (below : index < size) :
    ∃ step, step < size ∧ place size start step = index := by
  by_cases ahead : start ≤ index
  · refine ⟨index - start, by omega, ?_⟩
    rw [place, Nat.add_sub_cancel' ahead, Nat.mod_eq_of_lt below]
  · refine ⟨index + size - start, by omega, ?_⟩
    rw [place, Nat.add_sub_cancel' (by omega), Nat.add_mod_right, Nat.mod_eq_of_lt below]

/-- No cell is looked at twice. -/
theorem place_injective (first : step < size) (second : other < size)
    (same : place size start step = place size start other) : step = other := by
  have congruent : step ≡ other [MOD size] := Nat.ModEq.add_left_cancel' start same
  rwa [Nat.ModEq, Nat.mod_eq_of_lt first, Nat.mod_eq_of_lt second] at congruent

/-- The walk comes back to its start after going through all cells, not before. -/
theorem place_eq_start (inside : start < size) (below : step < size) :
    place size start (step + 1) = start ↔ step + 1 = size := by
  constructor
  · intro back
    by_contra early
    have zero := place_injective (by omega) (by omega) (back.trans (place_zero inside).symm)
    omega
  · intro last
    rw [place, last, Nat.add_mod_right, Nat.mod_eq_of_lt inside]

end Places

variable {K V : Type*} {size : Nat} {home : K → Nat} {cells : Nat → Cell K V}
  {key other : K} {value old : V} {index step start : Nat}

structure Probed (size : Nat) (home : K → Nat) (cells : Nat → Cell K V) : Prop where
  home_lt : ∀ key, home key < size
  inside : ∀ index, cells index ≠ .empty → index < size
  chain : ∀ key value step, step < size → cells (place size (home key) step) = .full key value →
    ∀ earlier < step, cells (place size (home key) earlier) ≠ .empty
  unique : ∀ key index value other old, cells index = .full key value → cells other = .full key old →
    index = other

/-- The cells hold exactly the pairs of this map. -/
def Holds (cells : Nat → Cell K V) (contents : K → Option V) : Prop :=
  ∀ key value, contents key = some value ↔ ∃ index, cells index = .full key value

/-- The number of cells of a kind. -/
def tally (kind : Cell K V → Bool) (size : Nat) (cells : Nat → Cell K V) : Nat :=
  ((Finset.range size).filter fun index => kind (cells index) = true).card

section Search

variable [DecidableEq K]

/-- Whether a search for the key ends at this cell. -/
def stops (cells : Nat → Cell K V) (key : K) (index : Nat) : Bool :=
  match cells index with
  | .empty => true
  | .deleted => false
  | .full other _ => other = key

/-- The number of steps after which a search for the key ends. -/
def search (size : Nat) (cells : Nat → Cell K V) (start : Nat) (key : K) : Option Nat :=
  (List.range size).find? fun step => stops cells key (place size start step)

theorem stops_iff : stops cells key index = true ↔
    cells index = .empty ∨ ∃ value, cells index = .full key value := by
  cases same : cells index <;> simp [stops, same, eq_comm]

theorem search_eq_some : search size cells start key = some step ↔ step < size ∧
    stops cells key (place size start step) = true ∧
    ∀ earlier < step, stops cells key (place size start earlier) = false := by
  rw [search, List.find?_range_eq_some]
  simp only [List.mem_range, Bool.not_eq_true']
  constructor
  · intro found
    exact ⟨found.2.1, found.1, found.2.2⟩
  · intro found
    exact ⟨found.2.1, found.1, found.2.2⟩

theorem search_eq_none : search size cells start key = none ↔
    ∀ step < size, stops cells key (place size start step) = false := by
  simp [search]

/-- A search goes all the way round only when no cell is empty. -/
theorem search_room (inside : start < size) (below : index < size) (room : cells index = .empty) :
    ∃ step, search size cells start key = some step := by
  cases searched : search size cells start key with
  | some step => exact ⟨step, rfl⟩
  | none =>
      obtain ⟨step, bound, here⟩ := place_exists inside below
      have ends := search_eq_none.mp searched step bound
      rw [here, ← Bool.not_eq_true, stops_iff] at ends
      exact absurd (Or.inl room) ends

/-- A search for a key that is not held ends at an empty cell. -/
theorem search_missing (missing : ∀ index value, cells index ≠ .full key value)
    (searched : search size cells start key = some step) : cells (place size start step) = .empty := by
  obtain ⟨_, ends, _⟩ := search_eq_some.mp searched
  cases stops_iff.mp ends with
  | inl empty => exact empty
  | inr held =>
      obtain ⟨value, full⟩ := held
      exact absurd full (missing _ value)

/-- A search for a key that is held ends where it is. -/
theorem Probed.search_held (probed : Probed size home cells) (held : cells index = .full key value) :
    ∃ step, search size cells (home key) key = some step ∧ place size (home key) step = index := by
  obtain ⟨step, bound, here⟩ := place_exists (probed.home_lt key) (probed.inside index (by simp [held]))
  refine ⟨step, search_eq_some.mpr ⟨bound, stops_iff.mpr (Or.inr ⟨value, by rw [here, held]⟩), ?_⟩, here⟩
  intro earlier before
  rw [← Bool.not_eq_true, stops_iff, not_or]
  refine ⟨probed.chain key value step bound (by rw [here, held]) earlier before, ?_⟩
  intro again
  obtain ⟨old, full⟩ := again
  have same := probed.unique key _ old _ value full (here ▸ held)
  have equal := place_injective (by omega) bound same
  omega

end Search

namespace Probed

theorem positive (probed : Probed size home cells) (key : K) : 0 < size :=
  Nat.lt_of_le_of_lt (Nat.zero_le _) (probed.home_lt key)

/-- The key goes into a cell behind cells that are not empty. -/
theorem fill (probed : Probed size home cells) (missing : ∀ index value, cells index ≠ .full key value)
    (bound : step < size)
    (passed : ∀ earlier < step, cells (place size (home key) earlier) ≠ .empty) :
    Probed size home (Function.update cells (place size (home key) step) (.full key value)) := by
  have positive := probed.positive key
  constructor
  · exact probed.home_lt
  · intro index occupied
    by_cases here : index = place size (home key) step
    · exact here ▸ place_lt positive
    · rw [Function.update_of_ne here] at occupied
      exact probed.inside index occupied
  · intro other otherValue otherStep otherBound held earlier before empty
    by_cases there : place size (home other) otherStep = place size (home key) step
    · rw [there, Function.update_self] at held
      cases held
      have same := place_injective otherBound bound there
      subst otherStep
      by_cases here : place size (home key) earlier = place size (home key) step
      · rw [here, Function.update_self] at empty
        cases empty
      · rw [Function.update_of_ne here] at empty
        exact passed earlier before empty
    · rw [Function.update_of_ne there] at held
      by_cases here : place size (home other) earlier = place size (home key) step
      · rw [here, Function.update_self] at empty
        cases empty
      · rw [Function.update_of_ne here] at empty
        exact probed.chain other otherValue otherStep otherBound held earlier before empty
  · intro other first firstValue second secondValue heldFirst heldSecond
    simp only [Function.update_apply] at heldFirst heldSecond
    split at heldFirst
    next here =>
      split at heldSecond
      next there => rw [here, there]
      next =>
        cases heldFirst
        exact absurd heldSecond (missing second secondValue)
    next =>
      split at heldSecond
      next =>
        cases heldSecond
        exact absurd heldFirst (missing first firstValue)
      next => exact probed.unique other first firstValue second secondValue heldFirst heldSecond

/-- A cell in use takes another value, or becomes a tombstone. -/
theorem overwrite (probed : Probed size home cells) (held : cells index = .full key old) {cell : Cell K V}
    (kept : cell = .deleted ∨ ∃ value, cell = .full key value) :
    Probed size home (Function.update cells index cell) := by
  have used : cell ≠ .empty := by
    intro empty
    cases kept with
    | inl deleted =>
        rw [empty] at deleted
        cases deleted
    | inr full =>
        obtain ⟨value, full⟩ := full
        rw [empty] at full
        cases full
  have fulls : ∀ other place otherValue, Function.update cells index cell place = .full other otherValue →
      ∃ before, cells place = .full other before := by
    intro other place otherValue full
    by_cases here : place = index
    · rw [here, Function.update_self] at full
      cases kept with
      | inl deleted =>
          rw [deleted] at full
          cases full
      | inr same =>
          obtain ⟨value, same⟩ := same
          rw [same] at full
          cases full
          exact ⟨old, here ▸ held⟩
    · rw [Function.update_of_ne here] at full
      exact ⟨otherValue, full⟩
  constructor
  · exact probed.home_lt
  · intro place occupied
    by_cases here : place = index
    · exact here ▸ probed.inside index (by simp [held])
    · rw [Function.update_of_ne here] at occupied
      exact probed.inside place occupied
  · intro other otherValue step bound full earlier before empty
    obtain ⟨first, full⟩ := fulls _ _ _ full
    by_cases here : place size (home other) earlier = index
    · rw [here, Function.update_self] at empty
      exact used empty
    · rw [Function.update_of_ne here] at empty
      exact probed.chain other first step bound full earlier before empty
  · intro other first firstValue second secondValue fullFirst fullSecond
    obtain ⟨before, fullFirst⟩ := fulls _ _ _ fullFirst
    obtain ⟨beforeSecond, fullSecond⟩ := fulls _ _ _ fullSecond
    exact probed.unique other first before second beforeSecond fullFirst fullSecond

end Probed

section Contents

variable {contents : K → Option V}

theorem Holds.missing (holds : Holds cells contents) : contents key = none ↔
    ∀ index value, cells index ≠ .full key value := by
  constructor
  · intro none index value full
    rw [(holds key value).mpr ⟨index, full⟩] at none
    cases none
  · intro missing
    cases found : contents key with
    | none => rfl
    | some value =>
        obtain ⟨index, full⟩ := (holds key value).mp found
        exact absurd full (missing index value)

variable [DecidableEq K]

/-- A cell is replaced that no other key needs. -/
theorem Holds.update (holds : Holds cells contents) {cell : Cell K V} {new : Option V}
    (alone : ∀ place any, place ≠ index → cells place ≠ .full key any)
    (before : ∀ other any, other ≠ key → cells index ≠ .full other any)
    (after : ∀ other any, cell = .full other any ↔ other = key ∧ new = some any) :
    Holds (Function.update cells index cell) (Function.update contents key new) := by
  intro other found
  by_cases same : other = key
  · subst other
    rw [Function.update_self]
    constructor
    · intro equal
      exact ⟨index, by rw [Function.update_self, (after key found).mpr ⟨rfl, equal⟩]⟩
    · intro full
      obtain ⟨place, full⟩ := full
      by_cases here : place = index
      · rw [here, Function.update_self] at full
        exact ((after key found).mp full).2
      · rw [Function.update_of_ne here] at full
        exact absurd full (alone place found here)
  · rw [Function.update_of_ne same, holds]
    apply exists_congr
    intro place
    by_cases here : place = index
    · rw [here, Function.update_self, after]
      simp [before other found same, same]
    · rw [Function.update_of_ne here]

theorem Holds.fill (holds : Holds cells contents) (missing : contents key = none)
    (unused : ∀ other value, cells index ≠ .full other value) :
    Holds (Function.update cells index (.full key value)) (Function.update contents key (some value)) := by
  have absent := holds.missing.mp missing
  apply holds.update
  · intro place any _
    exact absent place any
  · intro other any _
    exact unused other any
  · intro other any
    simp [eq_comm]

/-- A cell that holds the key takes another value, or none. -/
theorem Holds.overwrite (holds : Holds cells contents) (probed : Probed size home cells)
    (held : cells index = .full key old) (value : V) :
    Holds (Function.update cells index (.full key value)) (Function.update contents key (some value)) ∧
    Holds (Function.update cells index .deleted) (Function.update contents key none) := by
  have alone : ∀ place any, place ≠ index → cells place ≠ .full key any := by
    intro place any differ full
    exact differ (probed.unique key place any index old full held)
  have before : ∀ other any, other ≠ key → cells index ≠ .full other any := by
    intro other any differ full
    cases held.symm.trans full
    exact differ rfl
  constructor
  · apply holds.update alone before
    intro other any
    simp [eq_comm]
  · apply holds.update alone before
    intro other any
    simp

end Contents

section Tally

variable {kind : Cell K V → Bool} {cell : Cell K V}

theorem tally_eq_sum : tally kind size cells = ∑ index ∈ Finset.range size, if kind (cells index) then 1 else 0 := by
  rw [tally, Finset.card_filter]

/-- Writing one cell moves the number of cells of a kind by at most one. -/
theorem tally_update (kind : Cell K V → Bool) (cells : Nat → Cell K V) (cell : Cell K V)
    (below : index < size) : tally kind size (Function.update cells index cell) +
      (if kind (cells index) then 1 else 0) = tally kind size cells + if kind cell then 1 else 0 := by
  have member : index ∈ Finset.range size := Finset.mem_range.mpr below
  have rest : ∀ other ∈ (Finset.range size).erase index,
      (if kind (Function.update cells index cell other) then 1 else 0) = if kind (cells other) then 1 else 0 := by
    intro other inside
    rw [Function.update_of_ne (Finset.ne_of_mem_erase inside)]
  rw [tally_eq_sum, tally_eq_sum, ← Finset.add_sum_erase _ _ member, ← Finset.add_sum_erase _ _ member,
    Finset.sum_congr rfl rest, Function.update_self]
  omega

theorem tally_succ : tally kind (size + 1) cells = tally kind size cells + if kind (cells size) then 1 else 0 := by
  rw [tally_eq_sum, tally_eq_sum, Finset.sum_range_succ]

theorem tally_le : tally kind size cells ≤ size := by
  simpa [tally] using Finset.card_filter_le (Finset.range size) fun index => kind (cells index) = true

/-- Cells of a kind that is not that of an empty cell lie below the size. -/
theorem tally_extend {capacity : Nat} (inside : ∀ index, cells index ≠ .empty → index < size)
    (empty : kind .empty = false) (larger : size ≤ capacity) : tally kind capacity cells = tally kind size cells := by
  have same : (Finset.range capacity).filter (fun index => kind (cells index) = true) =
      (Finset.range size).filter fun index => kind (cells index) = true := by
    ext index
    simp only [Finset.mem_filter, Finset.mem_range]
    constructor
    · intro member
      refine ⟨inside index ?_, member.2⟩
      intro none
      rw [none, empty] at member
      exact absurd member.2 (by simp)
    · intro member
      exact ⟨by omega, member.2⟩
  rw [tally, tally, same]

theorem tally_isDeleted_eq_zero (clean : ∀ index, cells index ≠ .deleted) :
    tally Cell.isDeleted size cells = 0 := by
  rw [tally, Finset.card_eq_zero, Finset.filter_eq_empty_iff]
  intro index _
  cases cell : cells index with
  | empty => simp [Cell.isDeleted]
  | deleted => exact absurd cell (clean index)
  | full key value => simp [Cell.isDeleted]

theorem tally_add_le : tally Cell.isFull size cells + tally Cell.isDeleted size cells ≤ size := by
  have every : ∀ index ∈ Finset.range size,
      (if (cells index).isFull then 1 else 0) + (if (cells index).isDeleted then 1 else 0) ≤ 1 := by
    intro index _
    cases cells index <;> simp [Cell.isFull, Cell.isDeleted]
  have total := Finset.sum_le_sum every
  rw [Finset.sum_add_distrib, ← tally_eq_sum, ← tally_eq_sum] at total
  simpa using total

/-- With fewer full and deleted cells than cells, one is empty. -/
theorem exists_empty (few : tally Cell.isFull size cells + tally Cell.isDeleted size cells < size) :
    ∃ index, index < size ∧ cells index = .empty := by
  by_contra none
  have every : ∀ index ∈ Finset.range size,
      1 ≤ (if (cells index).isFull then 1 else 0) + if (cells index).isDeleted then 1 else 0 := by
    intro index member
    cases same : cells index with
    | empty => exact absurd ⟨index, Finset.mem_range.mp member, same⟩ none
    | deleted => simp [Cell.isFull, Cell.isDeleted]
    | full key value => simp [Cell.isFull, Cell.isDeleted]
  have total := Finset.sum_le_sum every
  rw [Finset.sum_add_distrib, ← tally_eq_sum, ← tally_eq_sum] at total
  simp at total
  omega

end Tally

section Walk

variable {stop : Nat → Bool} {size start index fuel : Nat}

/-- The loop that goes from cell to cell until it stops at one. -/
def walk (size : Nat) (stop : Nat → Bool) (index : Nat) : Nat → Option Nat
  | 0 => none
  | fuel + 1 => if stop index = true then some index else walk size stop ((index + 1) % size) fuel

theorem walk_eq_some (inside : start < size) : walk size stop start fuel = some index ↔
    ∃ step, step < fuel ∧ place size start step = index ∧ stop index = true ∧
      ∀ earlier < step, stop (place size start earlier) = false := by
  have positive : 0 < size := by omega
  induction fuel generalizing start with
  | zero => simp [walk]
  | succ fuel ih =>
      rw [walk]
      by_cases here : stop start = true
      · rw [if_pos here, Option.some.injEq]
        constructor
        · intro same
          subst index
          exact ⟨0, by omega, place_zero inside, here, by omega⟩
        · rintro ⟨step, _, there, _, before⟩
          cases step with
          | zero => rwa [place_zero inside] at there
          | succ step =>
              have passed := before 0 (by omega)
              rw [place_zero inside, here] at passed
              cases passed
      · have later : walk size stop ((start + 1) % size) fuel = some index ↔ _ := ih (Nat.mod_lt _ positive)
        rw [if_neg here, later]
        constructor
        · rintro ⟨step, below, there, stops, before⟩
          refine ⟨step + 1, by omega, by rwa [place_shift] at there, stops, fun earlier bound => ?_⟩
          cases earlier with
          | zero => rwa [place_zero inside, ← Bool.not_eq_true]
          | succ earlier =>
              rw [← place_shift]
              exact before earlier (by omega)
        · rintro ⟨step, below, there, stops, before⟩
          cases step with
          | zero =>
              rw [place_zero inside] at there
              exact absurd (there ▸ stops) here
          | succ step =>
              refine ⟨step, by omega, by rwa [place_shift], stops, fun earlier bound => ?_⟩
              rw [place_shift]
              exact before (earlier + 1) (by omega)

/-- Once round is enough to stop, when there is a cell at which to stop. -/
theorem walk_stops (inside : start < size) (below : index < size) (stops : stop index = true)
    (enough : size ≤ fuel) : ∃ found, walk size stop start fuel = some found := by
  obtain ⟨step, bound, here⟩ := place_exists inside below
  have reached : ∃ step, step < size ∧ stop (place size start step) = true := ⟨step, bound, by rwa [here]⟩
  have minimal := Nat.find_spec reached
  refine ⟨_, (walk_eq_some inside).mpr ⟨Nat.find reached, by omega, rfl, minimal.2, fun earlier before => ?_⟩⟩
  rw [← Bool.not_eq_true]
  exact fun again => Nat.find_min reached before ⟨by omega, again⟩

theorem walk_endless (inside : start < size) (none : ∀ index < size, stop index = false) :
    walk size stop start fuel = .none := by
  cases walked : walk size stop start fuel with
  | none => rfl
  | some found =>
      obtain ⟨_, _, here, stops, _⟩ := (walk_eq_some inside).mp walked
      rw [none found (here ▸ place_lt (by omega))] at stops
      cases stops

end Walk

end HundredDays.Data.Probing
