import Mathlib.Algebra.Group.Units.Basic
import Mathlib.Data.BitVec
import Mathlib.Data.List.Basic
import Mathlib.Logic.Function.Basic

namespace HundredDays.Data.Mixing

/-! Steps that lose nothing, and what a fold of such steps tells apart.

A hash that reads its input item by item cannot be injective, but when every step can be
undone from the item as well as from the state, two inputs that differ in one item only
end in different states.
-/

/-- A map is injective when an injective view of its argument shows an injective map. -/
theorem injective_through {Word View : Type*} {view : Word → View} {f : Word → Word} {g : View → View}
    (faithful : Function.Injective view) (injective : Function.Injective g)
    (shown : ∀ word, view (f word) = g (view word)) : Function.Injective f := by
  intro left right same
  apply faithful
  apply injective
  rw [← shown, ← shown, same]

section Words

variable {width shift : Nat} {factor inverse : BitVec width}

theorem eq_zero_of_shifted {word : BitVec width} (positive : 0 < shift)
    (same : word = word >>> shift) : word = 0 := by
  have value : word.toNat = word.toNat / 2 ^ shift := by
    rw [← Nat.shiftRight_eq_div_pow, ← BitVec.toNat_ushiftRight, ← same]
  apply BitVec.eq_of_toNat_eq
  by_contra nonzero
  have smaller : word.toNat / 2 ^ shift < word.toNat :=
    Nat.div_lt_self (by simpa [Nat.pos_iff_ne_zero] using nonzero)
      (Nat.one_lt_two_pow (by omega))
  omega

/-- The difference of two words with one image is its own shift. -/
theorem xorShift_injective (positive : 0 < shift) :
    Function.Injective fun word : BitVec width => word ^^^ word >>> shift := by
  intro left right same
  have shifted : left ^^^ right = (left ^^^ right) >>> shift := by
    rw [BitVec.ushiftRight_xor_distrib]
    have folded : left ^^^ left >>> shift = right ^^^ right >>> shift := same
    calc left ^^^ right
        = (left ^^^ left >>> shift) ^^^ right ^^^ left >>> shift := by
          rw [BitVec.xor_assoc, BitVec.xor_assoc, BitVec.xor_comm right, ← BitVec.xor_assoc (left >>> shift),
            BitVec.xor_self, BitVec.zero_xor]
      _ = left >>> shift ^^^ right >>> shift := by
          rw [folded, BitVec.xor_comm right, BitVec.xor_assoc (right >>> shift), BitVec.xor_self,
            BitVec.xor_zero, BitVec.xor_comm]
  have zero := eq_zero_of_shifted positive shifted
  exact BitVec.xor_eq_zero_iff.mp zero

theorem mul_injective (unit : factor * inverse = 1) :
    Function.Injective fun word : BitVec width => word * factor :=
  (IsUnit.of_mul_eq_one inverse unit).mul_left_injective

theorem rotate_injective (inside : shift ≤ width) :
    Function.Injective fun word : BitVec width => word <<< shift ||| word >>> (width - shift) := by
  intro left right same
  have bit (index : Nat) := congrArg (fun word : BitVec width => word.getLsbD index) same
  simp only [BitVec.getLsbD_or, BitVec.getLsbD_shiftLeft, BitVec.getLsbD_ushiftRight] at bit
  refine BitVec.eq_of_getLsbD_eq fun index below => ?_
  by_cases wraps : index + shift < width
  · -- nothing of the part that comes round reaches this bit
    have moved := bit (index + shift)
    rw [BitVec.getLsbD_of_ge left (width - shift + (index + shift)) (by omega),
      BitVec.getLsbD_of_ge right (width - shift + (index + shift)) (by omega)] at moved
    simpa [wraps, show ¬ index + shift < shift by omega] using moved
  · have moved := bit (index + shift - width)
    rw [show width - shift + (index + shift - width) = index by omega] at moved
    simpa [show index + shift - width < shift by omega] using moved

end Words

section Folds

variable {State Item : Type*} {step : State → Item → State}

structure Lossless (step : State → Item → State) : Prop where
  state : ∀ item, Function.Injective fun state => step state item
  item : ∀ state, Function.Injective (step state)

theorem Lossless.foldl_state (lossless : Lossless step) (items : List Item) :
    Function.Injective fun state => items.foldl step state := by
  induction items with
  | nil => exact fun _ _ same => same
  | cons item items ih =>
      intro left right same
      exact lossless.state item (ih same)

/-- Lists of one length that agree in all places but one are told apart. -/
theorem Lossless.foldl_separates (lossless : Lossless step) {left right : List Item} {place : Nat}
    {state : State} (length : left.length = right.length)
    (elsewhere : ∀ index, index ≠ place → left[index]? = right[index]?)
    (same : left.foldl step state = right.foldl step state) : left = right := by
  induction left generalizing right place state with
  | nil => exact (List.length_eq_zero_iff.mp length.symm).symm
  | cons first left ih =>
      obtain ⟨other, right, rfl⟩ := List.exists_cons_of_length_eq_add_one length.symm
      rw [List.length_cons, List.length_cons, Nat.add_right_cancel_iff] at length
      cases place with
      | zero =>
          have tails : left = right := by
            refine List.ext_getElem? fun index => ?_
            simpa using elsewhere (index + 1) (by omega)
          subst tails
          have heads := lossless.item state (lossless.foldl_state left same)
          rw [heads]
      | succ place =>
          have heads : first = other := by simpa using elsewhere 0 (by omega)
          subst heads
          have rest : ∀ index, index ≠ place → left[index]? = right[index]? := by
            intro index apart
            simpa using elsewhere (index + 1) (by omega)
          rw [ih length rest same]

end Folds

end HundredDays.Data.Mixing
