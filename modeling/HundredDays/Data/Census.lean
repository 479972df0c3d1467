import Mathlib.Algebra.BigOperators.Group.Finset.Basic
import Mathlib.Algebra.BigOperators.Group.Finset.Piecewise
import Mathlib.Algebra.Order.BigOperators.Group.Finset
import Mathlib.Data.Fintype.BigOperators

namespace HundredDays.Data

/-! Sums over the members of a finite family, as one of them changes. -/

variable {ι α : Type*} [Fintype ι] {weight : α → Nat} {members : ι → α} {member : ι} {value : α}

def census (weight : α → Nat) (members : ι → α) : Nat := ∑ each, weight (members each)

theorem le_census (weight : α → Nat) (members : ι → α) (member : ι) :
    weight (members member) ≤ census weight members := by
  classical
  rw [census, ← Finset.sum_erase_add Finset.univ _ (Finset.mem_univ member)]
  exact Nat.le_add_left _ _

theorem census_le {bound : Nat} (below : ∀ member, weight (members member) ≤ bound) :
    census weight members ≤ Fintype.card ι * bound := by
  calc census weight members ≤ ∑ _member : ι, bound := Finset.sum_le_sum fun member _ => below member
    _ = Fintype.card ι * bound := by simp

theorem census_eq_zero : census weight members = 0 ↔ ∀ member, weight (members member) = 0 := by
  simp [census]

/-- What one member gains the whole gains. -/
theorem census_update [DecidableEq ι] (weight : α → Nat) (members : ι → α) (member : ι) (value : α) :
    census weight (Function.update members member value) + weight (members member) =
      census weight members + weight value := by
  have others : ∑ each ∈ Finset.univ.erase member, weight (Function.update members member value each) =
      ∑ each ∈ Finset.univ.erase member, weight (members each) := by
    apply Finset.sum_congr rfl
    intro each inside
    rw [Function.update_of_ne (Finset.ne_of_mem_erase inside)]
  rw [census, census, ← Finset.sum_erase_add Finset.univ _ (Finset.mem_univ member), others, Function.update_self,
    ← Finset.sum_erase_add Finset.univ (fun each => weight (members each)) (Finset.mem_univ member)]
  omega

end HundredDays.Data
