import Mathlib.Data.List.Basic
import Mathlib.Data.List.Forall2

namespace HundredDays.Data

/-! Taking one element out of a list and keeping the rest in order. -/

variable {α β : Type*} {test : α → Bool} {values rest : List α} {found : α}

/-- The first element that passes the test, and the list without it. -/
def takeFirst (test : α → Bool) : List α → Option (α × List α)
  | [] => none
  | value :: values =>
      if test value then some (value, values)
      else (takeFirst test values).map fun (found, rest) => (found, value :: rest)

/-- The last element that passes the test, and the list without it. -/
def takeLast (test : α → Bool) : List α → Option (α × List α)
  | [] => none
  | value :: values =>
      match takeLast test values with
      | some (found, rest) => some (found, value :: rest)
      | none => if test value then some (value, values) else none

theorem takeFirst_none : takeFirst test values = none ↔ ∀ value ∈ values, test value = false := by
  induction values with
  | nil => simp [takeFirst]
  | cons value values ih =>
      cases passed : test value <;> simp [takeFirst, passed, ih]

theorem takeFirst_some (taken : takeFirst test values = some (found, rest)) :
    ∃ left right, values = left ++ found :: right ∧ rest = left ++ right ∧ test found = true ∧
      ∀ value ∈ left, test value = false := by
  induction values generalizing rest with
  | nil => simp [takeFirst] at taken
  | cons value values ih =>
      cases passed : test value with
      | true =>
          simp only [takeFirst, passed, if_true, Option.some.injEq, Prod.mk.injEq] at taken
          obtain ⟨rfl, rfl⟩ := taken
          exact ⟨[], values, rfl, rfl, passed, by simp⟩
      | false =>
          simp only [takeFirst, passed, Bool.false_eq_true, if_false, Option.map_eq_some_iff] at taken
          obtain ⟨⟨inner, others⟩, later, same⟩ := taken
          cases same
          obtain ⟨left, right, rfl, rfl, passes, earlier⟩ := ih later
          refine ⟨value :: left, right, rfl, rfl, passes, ?_⟩
          simpa [passed] using earlier

theorem takeFirst_append {left right : List α} (passes : test found = true)
    (earlier : ∀ value ∈ left, test value = false) :
    takeFirst test (left ++ found :: right) = some (found, left ++ right) := by
  induction left with
  | nil => simp [takeFirst, passes]
  | cons value left ih =>
      have head := earlier value (by simp)
      have tail := ih (fun member inside => earlier member (by simp [inside]))
      simp [takeFirst, head, tail]

theorem takeLast_none : takeLast test values = none ↔ ∀ value ∈ values, test value = false := by
  induction values with
  | nil => simp [takeLast]
  | cons value values ih =>
      cases later : takeLast test values with
      | none =>
          have others := ih.mp later
          cases passed : test value
          · simp only [takeLast, later, passed]
            simpa [passed] using others
          · simp [takeLast, later, passed]
      | some pair =>
          have others := mt ih.mpr (by simp [later])
          simp only [takeLast, later, reduceCtorEq, false_iff]
          intro all
          exact others (fun member inside => all member (by simp [inside]))

theorem takeLast_some (taken : takeLast test values = some (found, rest)) :
    ∃ left right, values = left ++ found :: right ∧ rest = left ++ right ∧ test found = true ∧
      ∀ value ∈ right, test value = false := by
  induction values generalizing rest with
  | nil => simp [takeLast] at taken
  | cons value values ih =>
      cases later : takeLast test values with
      | some pair =>
          simp only [takeLast, later, Option.some.injEq, Prod.mk.injEq] at taken
          obtain ⟨rfl, rfl⟩ := taken
          obtain ⟨left, right, rfl, same, passes, after⟩ := ih later
          exact ⟨value :: left, right, rfl, by simp [same], passes, after⟩
      | none =>
          cases passed : test value with
          | false => simp [takeLast, later, passed] at taken
          | true =>
              simp only [takeLast, later, passed, if_true, Option.some.injEq, Prod.mk.injEq] at taken
              obtain ⟨rfl, rfl⟩ := taken
              exact ⟨[], values, rfl, rfl, passed, takeLast_none.mp later⟩

theorem takeLast_concat {last : α} : takeLast test (values ++ [last]) =
    if test last then some (last, values)
    else (takeLast test values).map fun (found, rest) => (found, rest ++ [last]) := by
  induction values with
  | nil => cases passed : test last <;> simp [takeLast, passed]
  | cons value values ih =>
      rw [List.cons_append, takeLast, ih]
      cases passed : test last with
      | true => simp
      | false =>
          cases later : takeLast test values with
          | some pair => simp [takeLast, later]
          | none => cases here : test value <;> simp [takeLast, later, here]

theorem takeLast_append {left right : List α} (passes : test found = true)
    (later : ∀ value ∈ right, test value = false) :
    takeLast test (left ++ found :: right) = some (found, left ++ right) := by
  induction left with
  | nil =>
      rw [List.nil_append, takeLast, takeLast_none.mpr later]
      simp [passes]
  | cons value left ih => simp [takeLast, ih]

theorem takeLast_map {project : β → α} {values : List β} :
    takeLast test (values.map project) =
      (takeLast (test ∘ project) values).map fun (found, rest) => (project found, rest.map project) := by
  induction values with
  | nil => rfl
  | cons value values ih =>
      cases later : takeLast (test ∘ project) values with
      | some pair => simp [takeLast, later, ih]
      | none => cases passed : test (project value) <;> simp [takeLast, later, ih, passed]

theorem find?_reverse : values.reverse.find? test = (takeLast test values).map Prod.fst := by
  induction values with
  | nil => rfl
  | cons value values ih =>
      rw [List.reverse_cons, List.find?_append, ih, takeLast]
      cases takeLast test values with
      | some pair => rfl
      | none => cases passed : test value <;> simp [passed]

/-- The list around the position of one of its elements. -/
theorem getElem?_split {values : List α} {value : α} {index : Nat} (found : values[index]? = some value) :
    ∃ left right, values = left ++ value :: right ∧ values.eraseIdx index = left ++ right ∧
      ∀ other, values.set index other = left ++ other :: right := by
  obtain ⟨inside, rfl⟩ := List.getElem?_eq_some_iff.mp found
  refine ⟨values.take index, values.drop (index + 1), ?_, List.eraseIdx_eq_take_drop_succ _ _, ?_⟩
  · rw [List.getElem_cons_drop, List.take_append_drop]
  · intro other
    rw [List.set_eq_take_append_cons_drop, if_pos inside]

section Related

variable {related : α → β → Prop} {images : List β} {value : α} {image : β} {index : Nat}

theorem forall₂_getElem? (pairs : List.Forall₂ related values images) (index : Nat) :
    Option.Rel related values[index]? images[index]? := by
  induction pairs generalizing index with
  | nil => exact .none
  | cons pair _ ih =>
      cases index with
      | zero => simpa using Option.Rel.some pair
      | succ index => simpa using ih index

theorem forall₂_set (pairs : List.Forall₂ related values images) (pair : related value image) :
    List.Forall₂ related (values.set index value) (images.set index image) := by
  induction pairs generalizing index with
  | nil => exact .nil
  | cons first rest ih =>
      cases index with
      | zero => exact .cons pair rest
      | succ index => exact .cons first ih

theorem forall₂_eraseIdx (pairs : List.Forall₂ related values images) :
    List.Forall₂ related (values.eraseIdx index) (images.eraseIdx index) := by
  induction pairs generalizing index with
  | nil => exact .nil
  | cons first rest ih =>
      cases index with
      | zero => exact rest
      | succ index => exact .cons first ih

theorem forall₂_imp_mem {kept : α → β → Prop} (pairs : List.Forall₂ related values images)
    (imply : ∀ value, ∀ image ∈ images, related value image → kept value image) :
    List.Forall₂ kept values images := by
  induction pairs with
  | nil => exact .nil
  | cons first _ ih =>
      refine .cons (imply _ _ List.mem_cons_self first) (ih ?_)
      exact fun value image member => imply value image (List.mem_cons_of_mem _ member)

theorem rel_map {γ δ : Type*} {other : γ → δ → Prop} {left : α → γ} {right : β → δ}
    {value : Option α} {image : Option β} (pair : Option.Rel related value image)
    (imply : ∀ value image, related value image → other (left value) (right image)) :
    Option.Rel other (value.map left) (image.map right) := by
  cases pair with
  | some pair => exact .some (imply _ _ pair)
  | none => exact .none

end Related

end HundredDays.Data
