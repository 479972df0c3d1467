import HundredDays.Data.Accumulate

namespace HundredDays.Matmul

open HundredDays.Data

/-! The three matrix products, over numbers of which nothing is known.

A matrix is a memory: the entry in row `r` and column `c` of an `n` by `n` matrix is
at `r * n + c`.  The three arrays are apart, so that stores to the product change
neither factor.
-/

variable {α : Type*} (zero : α) (add mul : α → α → α) (n block : Nat) (a b c : Nat → α)

/-- `zero(C)`: the first `n * n` cells. -/
def zeroFill : Nat → α :=
  (strided 0 (n * n) 1).foldl (fun c i => Function.update c i zero) c

/-- The sum that belongs in row `i` and column `j`, added up in the order of `k`. -/
def entry (i j : Nat) : α :=
  ((List.range n).map fun k => mul (a (i * n + k)) (b (k * n + j))).foldl add zero

/-- The product, with the cells beyond the matrix as they were. -/
def product : Nat → α := fun cell => if cell < n * n then entry zero add mul n a b (cell / n) (cell % n) else c cell

variable {n block}

theorem strided_one (start size : Nat) : strided start (start + size) 1 = List.range' start size := by
  rw [strided, Nat.div_one]
  congr 1
  omega

theorem strided_zero : strided 0 n 1 = List.range n := by
  have whole := strided_one 0 n
  rw [Nat.zero_add] at whole
  rw [whole, List.range_eq_range']

variable {zero add mul a b c}

theorem zeroFill_apply (cell : Nat) : zeroFill zero n c cell = if cell < n * n then zero else c cell := by
  have filled : zeroFill zero n c =
      accumulate (fun _ value => value) c ((List.range (n * n)).flatMap fun i => [(i, zero)]) := by
    simp [zeroFill, accumulate, List.foldl_flatMap, strided_zero]
  rw [filled, accumulate_apply, received_flatMap]
  by_cases inside : cell < n * n
  · rw [if_pos inside, flatMap_single (List.mem_range.mpr inside) List.nodup_range]
    · simp
    · intro i _ differs
      simp [differs]
  · rw [if_neg inside, List.flatMap_eq_nil_iff.mpr]
    · rfl
    · intro i member
      have below := List.mem_range.mp member
      simp only [received_single]
      rw [if_neg (by omega)]

/-- Every store is to a cell of the matrix, and to each cell of it go the products for
its row and column in the order of `k`. -/
structure Ordered (mul : α → α → α) (n : Nat) (a b : Nat → α) (stores : List (Nat × α)) : Prop where
  inside : ∀ store ∈ stores, store.1 < n * n
  cells : ∀ row column, row < n → column < n → received stores (row * n + column) =
    (List.range n).map fun k => mul (a (row * n + k)) (b (k * n + column))

/-- The row and the column of a cell. -/
theorem cell_split {cell : Nat} (inside : cell < n * n) :
    cell / n < n ∧ cell % n < n ∧ cell / n * n + cell % n = cell := by
  have positive : 0 < n := Nat.pos_of_mul_pos_left (Nat.zero_lt_of_lt inside)
  refine ⟨Nat.div_lt_of_lt_mul inside, Nat.mod_lt _ positive, ?_⟩
  rw [Nat.mul_comm]
  exact Nat.div_add_mod ..

theorem Ordered.product {stores : List (Nat × α)} (ordered : Ordered mul n a b stores) :
    accumulate add (zeroFill zero n c) stores = product zero add mul n a b c := by
  funext cell
  rw [accumulate_apply, zeroFill_apply, Matmul.product]
  by_cases inside : cell < n * n
  · obtain ⟨row, column, split⟩ := cell_split inside
    have values := ordered.cells _ _ row column
    rw [split] at values
    rw [if_pos inside, if_pos inside, values, entry]
  · have nothing : received stores cell = [] := by
      apply received_eq_nil
      rintro store member rfl
      exact inside (ordered.inside store member)
    rw [if_neg inside, if_neg inside, nothing, List.foldl_nil]

variable (mul a b)

variable {mul a b}

variable (mul a b block)

variable {mul a b block}

end HundredDays.Matmul
