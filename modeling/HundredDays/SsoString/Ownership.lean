import Mathlib.Data.Option.Basic
import Mathlib.Logic.Equiv.Basic
import HundredDays.SsoString.Union

namespace HundredDays.SsoString

open HundredDays.Memory

/-! A family of strings and the heap blocks they own.

An operation changes one object and what it owns; a move hands a block from one
object to another.
-/

variable {ι : Type*} {stackCap : Nat} {objects : ι → Option TaggedUnion} {blocks after : Blocks}
  {texts : ι → Option (List UInt8)} {each other : ι} {pointer : Addr}

/-- Every object denotes its text, and every live block has exactly one owner. -/
structure Owned (stackCap : Nat) (objects : ι → Option TaggedUnion) (blocks : Blocks)
    (texts : ι → Option (List UInt8)) : Prop where
  denotes : ∀ each, Option.Rel (Denotes stackCap blocks) (objects each) (texts each)
  apart : ∀ each other string second pointer, objects each = some string → objects other = some second →
    string.Owns pointer → second.Owns pointer → each = other
  kept : ∀ pointer block, blocks pointer = some block →
    ∃ each string, objects each = some string ∧ string.Owns pointer

/-- The object that was there, if any, owns the block. -/
def OwnedAt (object : Option TaggedUnion) (pointer : Addr) : Prop :=
  ∃ string, object = some string ∧ string.Owns pointer

@[simp] theorem ownedAt_none : ¬ OwnedAt none pointer := by
  rintro ⟨string, absent, _⟩
  cases absent

@[simp] theorem ownedAt_some {string : TaggedUnion} : OwnedAt (some string) pointer ↔ string.Owns pointer := by
  simp [OwnedAt]

theorem ownedAt_iff {string : TaggedUnion} (long : string.isLong = true) (leads : string.heapPtr = some pointer) (place : Addr) :
    OwnedAt (some string) place ↔ place = pointer := by
  simp [TaggedUnion.Owns, long, leads, eq_comm]

theorem not_ownedAt {string : TaggedUnion} (short : string.isLong = false) (place : Addr) : ¬ OwnedAt (some string) place := by
  simp [TaggedUnion.Owns, short]

/-- An object in the place of another, of which at most one may be missing, and
what becomes of the blocks: those of neither stay, and none of the old one's is left over. -/
structure Replaced (was now : Option TaggedUnion) (blocks after : Blocks) : Prop where
  frame : ∀ pointer, ¬ OwnedAt was pointer → ¬ OwnedAt now pointer → after pointer = blocks pointer
  taken : ∀ pointer, OwnedAt now pointer → OwnedAt was pointer ∨ blocks pointer = none
  released : ∀ pointer, OwnedAt was pointer → ¬ OwnedAt now pointer → after pointer = none

namespace Replaced

variable {was now temp : Option TaggedUnion} {block : Block} {later : Blocks}

theorem keep (same : ∀ pointer, OwnedAt now pointer ↔ OwnedAt was pointer) : Replaced was now blocks blocks where
  frame := fun _ _ _ => rfl
  taken := fun pointer mine => .inl ((same pointer).mp mine)
  released := fun pointer former gone => absurd ((same pointer).mpr former) gone

theorem allocated (nothing : ∀ pointer, ¬ OwnedAt was pointer)
    (owns : ∀ place, OwnedAt now place ↔ place = pointer) (fresh : blocks pointer = none) :
    Replaced was now blocks (Function.update blocks pointer (some block)) where
  frame := fun place _ other => Function.update_of_ne (fun same => other ((owns place).mpr same)) _ _
  taken := by
    intro place mine
    obtain rfl := (owns place).mp mine
    exact .inr fresh
  released := fun place former => absurd former (nothing place)

/-- The new object's block may then be written to. -/
theorem rewrite (made : Replaced was temp blocks after) (former : ∀ place, OwnedAt temp place ↔ place = pointer)
    (owns : ∀ place, OwnedAt now place ↔ place = pointer) :
    Replaced was now blocks (Function.update after pointer (some block)) where
  frame := by
    intro place other new
    have differs : place ≠ pointer := fun same => new ((owns place).mpr same)
    rw [Function.update_of_ne differs]
    exact made.frame place other fun mine => differs ((former place).mp mine)
  taken := fun place mine => made.taken place ((former place).mpr ((owns place).mp mine))
  released := by
    intro place held gone
    have differs : place ≠ pointer := fun same => gone ((owns place).mpr same)
    rw [Function.update_of_ne differs]
    exact made.released place held fun mine => differs ((former place).mp mine)

theorem destroyed (former : ∀ place, OwnedAt was place ↔ place = pointer) :
    Replaced was none blocks (Function.update blocks pointer none) where
  frame := fun place other _ => Function.update_of_ne (fun same => other ((former place).mpr same)) _ _
  taken := fun place mine => absurd mine ownedAt_none
  released := by
    intro place held _
    obtain rfl := (former place).mp held
    exact Function.update_self ..

theorem trans (first : Replaced was temp blocks after) (second : Replaced temp now after later) :
    Replaced was now blocks later where
  frame := by
    intro place other new
    by_cases mine : OwnedAt temp place
    · rcases first.taken place mine with held | fresh
      · exact absurd held other
      · rw [second.released place mine new, fresh]
    · rw [second.frame place mine new, first.frame place other mine]
  taken := by
    intro place new
    by_cases held : OwnedAt was place
    · exact .inl held
    · rcases second.taken place new with mine | fresh
      · exact first.taken place mine
      · by_cases mine : OwnedAt temp place
        · exact first.taken place mine
        · exact .inr ((first.frame place held mine).symm.trans fresh)
  released := by
    intro place held gone
    by_cases mine : OwnedAt temp place
    · exact second.released place mine gone
    · rw [second.frame place mine gone, first.released place held mine]

/-- Making the new object beside the old one, and only then destroying the old one. -/
theorem beside (made : Replaced none temp blocks after) (gone : Replaced was none after later)
    (owns : ∀ place, OwnedAt now place ↔ OwnedAt temp place) : Replaced was now blocks later where
  frame := by
    intro place other new
    rw [gone.frame place other ownedAt_none]
    exact made.frame place ownedAt_none fun mine => new ((owns place).mpr mine)
  taken := by
    intro place mine
    rcases made.taken place ((owns place).mp mine) with nothing | fresh
    · exact absurd nothing ownedAt_none
    · exact .inr fresh
  released := fun place held _ => gone.released place held ownedAt_none

end Replaced

namespace Owned

theorem empty : Owned stackCap (fun _ : ι => none) (fun _ => none) fun _ => none where
  denotes := fun _ => .none
  apart := by
    intro each other string second pointer absent
    cases absent
  kept := by
    intro pointer block absent
    cases absent

theorem denotes_some {string : TaggedUnion} (owned : Owned stackCap objects blocks texts)
    (here : objects each = some string) :
    ∃ text, texts each = some text ∧ Denotes stackCap blocks string text := by
  have related := owned.denotes each
  rw [here] at related
  cases seen : texts each with
  | none => simp [seen] at related
  | some text => exact ⟨text, rfl, by simpa [seen] using related⟩

theorem texts_none (owned : Owned stackCap objects blocks texts) : objects each = none ↔ texts each = none := by
  have related := owned.denotes each
  cases here : objects each <;> cases seen : texts each <;> simp [here, seen] at related ⊢

theorem live {string : TaggedUnion} (owned : Owned stackCap objects blocks texts)
    (here : objects each = some string) (owns : string.Owns pointer) : ∃ block, blocks pointer = some block := by
  obtain ⟨text, _, denotes⟩ := owned.denotes_some here
  exact denotes.live owns

/-- The objects' names do not matter. -/
theorem permute (owned : Owned stackCap objects blocks texts) (names : Equiv.Perm ι) :
    Owned stackCap (objects ∘ names) blocks (texts ∘ names) where
  denotes := fun each => owned.denotes (names each)
  apart := fun each other string second pointer here there owns also =>
    names.injective (owned.apart _ _ string second pointer here there owns also)
  kept := by
    intro pointer block alive
    obtain ⟨each, string, here, owns⟩ := owned.kept pointer block alive
    exact ⟨names.symm each, string, by simpa using here, owns⟩

variable [DecidableEq ι]

theorem replace {string : Option TaggedUnion} {text : Option (List UInt8)}
    (owned : Owned stackCap objects blocks texts) (denotes : Option.Rel (Denotes stackCap after) string text)
    (replaced : Replaced (objects each) string blocks after) :
    Owned stackCap (Function.update objects each string) after (Function.update texts each text) := by
  -- no other object owns what the new one owns
  have single : ∀ index second pointer, index ≠ each → objects index = some second → second.Owns pointer →
      ¬ OwnedAt string pointer := by
    intro index second pointer differs here owns mine
    rcases replaced.taken pointer mine with ⟨old, was, held⟩ | free
    · exact differs (owned.apart index each second old pointer here was owns held)
    · obtain ⟨block, alive⟩ := owned.live here owns
      cases free.symm.trans alive
  refine ⟨?_, ?_, ?_⟩
  · refine (Function.forall_update_iff _ fun index value =>
      Option.Rel (Denotes stackCap after) value (Function.update texts each text index)).mpr ⟨?_, ?_⟩
    · rw [Function.update_self]
      exact denotes
    · intro index differs
      rw [Function.update_of_ne differs]
      cases here : objects index with
      | none =>
          rw [owned.texts_none.mp here]
          exact .none
      | some second =>
          obtain ⟨text, seen, before⟩ := owned.denotes_some here
          rw [seen, Option.rel_some_some]
          refine before.frame fun pointer owns => replaced.frame pointer ?_ (single index second pointer differs here owns)
          rintro ⟨old, was, held⟩
          exact differs (owned.apart index each second old pointer here was owns held)
  · intro first second one two pointer here there owns also
    by_cases same : first = each
    · by_cases equal : second = each
      · exact same.trans equal.symm
      · rw [same, Function.update_self] at here
        rw [Function.update_of_ne equal] at there
        exact absurd ⟨one, here, owns⟩ (single second two pointer equal there also)
    · rw [Function.update_of_ne same] at here
      by_cases equal : second = each
      · rw [equal, Function.update_self] at there
        exact absurd ⟨two, there, also⟩ (single first one pointer same here owns)
      · rw [Function.update_of_ne equal] at there
        exact owned.apart first second one two pointer here there owns also
  · intro pointer block alive
    by_cases mine : OwnedAt string pointer
    · obtain ⟨new, rfl, owns⟩ := mine
      exact ⟨each, new, Function.update_self .., owns⟩
    · by_cases former : OwnedAt (objects each) pointer
      · cases (replaced.released pointer former mine).symm.trans alive
      · obtain ⟨index, second, here, owns⟩ := 
          owned.kept pointer block ((replaced.frame pointer former mine).symm.trans alive)
        have differs : index ≠ each := by
          rintro rfl
          exact former ⟨second, here, owns⟩
        exact ⟨index, second, by rw [Function.update_of_ne differs, here], owns⟩

/-- One object takes over what another owns, which is left owning nothing. -/
theorem transfer {string moved emptied : TaggedUnion} {text rest : List UInt8}
    (owned : Owned stackCap objects blocks texts) (differs : each ≠ other) (vacant : objects each = none)
    (source : objects other = some string) (denotes : Denotes stackCap blocks moved text)
    (same : ∀ pointer, moved.Owns pointer ↔ string.Owns pointer) (short : emptied.isLong = false)
    (left : Denotes stackCap blocks emptied rest) :
    Owned stackCap (Function.update (Function.update objects each (some moved)) other (some emptied)) blocks
      (Function.update (Function.update texts each (some text)) other (some rest)) := by
  have swapped := owned.permute (Equiv.swap each other)
  have here : (objects ∘ Equiv.swap each other) each = some string := by simp [source]
  have there : (objects ∘ Equiv.swap each other) other = none := by simp [vacant]
  have taken : Owned stackCap (Function.update (objects ∘ Equiv.swap each other) each (some moved)) blocks
      (Function.update (texts ∘ Equiv.swap each other) each (some text)) := by
    refine swapped.replace (.some denotes) (.keep fun pointer => ?_)
    rw [here, ownedAt_some, ownedAt_some, same]
  have owns : ∀ pointer, ¬ OwnedAt (some emptied) pointer := by
    intro pointer mine
    simp [TaggedUnion.Owns, short] at mine
  have both := taken.replace (.some left) (.keep fun pointer => iff_of_false (owns pointer) <| by
    rw [Function.update_of_ne differs.symm, there]
    exact ownedAt_none)
  have outside : ∀ {α : Type _} (family : ι → α) (first second : α),
      Function.update (Function.update (family ∘ Equiv.swap each other) each first) other second =
        Function.update (Function.update family each first) other second := by
    intro α family first second
    funext index
    by_cases atOther : index = other
    · simp [atOther]
    · by_cases atEach : index = each
      · simp [atEach, differs]
      · simp [atOther, atEach, Equiv.swap_apply_of_ne_of_ne atEach atOther]
  rwa [outside objects, outside texts] at both

end Owned

/-- How many objects are in heap mode. -/
def longWeight : Option TaggedUnion → Nat
  | none => 0
  | some string => if string.isLong then 1 else 0

theorem Denotes.weight {string : TaggedUnion} {text : List UInt8} (denotes : Denotes stackCap blocks string text) :
    longWeight (some string) = if stackCap < text.length then 1 else 0 :=
  if_congr denotes.long_iff rfl rfl

end HundredDays.SsoString
