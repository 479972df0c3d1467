import Mathlib.Data.Finset.Card
import Mathlib.Data.Finset.Insert
import Mathlib.Logic.Function.Basic

namespace HundredDays.Data

/-! How many holders refer to an object, as holders come, go and turn to other objects. -/

variable {ι β : Type*} [DecidableEq β] {holders : Finset ι} {target : ι → β} {holder : ι} {object : β}

def references (holders : Finset ι) (target : ι → β) (object : β) : Nat :=
  (holders.filter fun holder => target holder = object).card

theorem references_pos : 0 < references holders target object ↔ ∃ holder ∈ holders, target holder = object := by
  rw [references, Finset.card_pos]
  simp only [Finset.Nonempty, Finset.mem_filter]

theorem references_eq_zero : references holders target object = 0 ↔ ∀ holder ∈ holders, target holder ≠ object := by
  rw [references, Finset.card_eq_zero, Finset.filter_eq_empty_iff]

theorem eq_of_references_one {other : ι} (once : references holders target object = 1) (member : holder ∈ holders)
    (refers : target holder = object) (listed : other ∈ holders) (same : target other = object) : other = holder := by
  obtain ⟨only, alone⟩ := Finset.card_eq_one.mp once
  have first : holder ∈ ({only} : Finset ι) := alone ▸ Finset.mem_filter.mpr ⟨member, refers⟩
  have second : other ∈ ({only} : Finset ι) := alone ▸ Finset.mem_filter.mpr ⟨listed, same⟩
  rw [Finset.mem_singleton.mp first, Finset.mem_singleton.mp second]

theorem references_mono {fewer : Finset ι} (subset : fewer ⊆ holders) :
    references fewer target object ≤ references holders target object :=
  Finset.card_le_card (Finset.filter_subset_filter _ subset)

theorem references_lt {fewer : Finset ι} (subset : fewer ⊆ holders) (member : holder ∈ holders)
    (refers : target holder = object) (gone : holder ∉ fewer) :
    references fewer target object < references holders target object := by
  apply Finset.card_lt_card
  refine Finset.ssubset_iff_subset_ne.mpr ⟨Finset.filter_subset_filter _ subset, fun same => gone ?_⟩
  have listed : holder ∈ holders.filter fun holder => target holder = object := Finset.mem_filter.mpr ⟨member, refers⟩
  rw [← same] at listed
  exact (Finset.mem_filter.mp listed).1

theorem references_congr {other : ι → β} (same : ∀ holder ∈ holders, other holder = target holder) :
    references holders other object = references holders target object := by
  rw [references, references]
  congr 1
  apply Finset.filter_congr
  intro holder member
  rw [same holder member]

variable [DecidableEq ι]

/-- A new holder counts for what it refers to. -/
theorem references_insert (fresh : holder ∉ holders) :
    references (insert holder holders) target object =
      references holders target object + if target holder = object then 1 else 0 := by
  rw [references, references, Finset.filter_insert]
  split_ifs with refers
  · rw [Finset.card_insert_of_notMem fun member => fresh (Finset.mem_filter.mp member).1]
  · rw [Nat.add_zero]

theorem references_erase (member : holder ∈ holders) :
    references (holders.erase holder) target object + (if target holder = object then 1 else 0) =
      references holders target object := by
  conv_rhs => rw [← Finset.insert_erase member]
  rw [references_insert (Finset.notMem_erase holder holders)]

/-- A holder that turns to another object. -/
theorem references_update (member : holder ∈ holders) (value : β) :
    references holders (Function.update target holder value) object + (if target holder = object then 1 else 0) =
      references holders target object + if value = object then 1 else 0 := by
  have before : references (holders.erase holder) target object + (if target holder = object then 1 else 0) =
      references holders target object := references_erase member
  have after : references (holders.erase holder) (Function.update target holder value) object +
      (if Function.update target holder value holder = object then 1 else 0) =
      references holders (Function.update target holder value) object := references_erase member
  rw [Function.update_self] at after
  have others : references (holders.erase holder) (Function.update target holder value) object =
      references (holders.erase holder) target object := by
    apply references_congr
    intro other listed
    exact Function.update_of_ne (Finset.ne_of_mem_erase listed) _ _
  omega

theorem references_update_outside {value : β} (fresh : holder ∉ holders) :
    references holders (Function.update target holder value) object = references holders target object := by
  apply references_congr
  intro other member
  apply Function.update_of_ne
  rintro rfl
  exact fresh member

/-- A new holder that turns to an object first. -/
theorem references_insert_update (fresh : holder ∉ holders) (value : β) :
    references (insert holder holders) (Function.update target holder value) object =
      references holders target object + if value = object then 1 else 0 := by
  rw [references_insert fresh, references_update_outside fresh, Function.update_self]

end HundredDays.Data
