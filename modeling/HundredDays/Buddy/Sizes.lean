import HundredDays.Buddy.Configurations

namespace HundredDays.Buddy

open HundredDays.Data HundredDays.Semantics

/-! Which sizes `buddy_alloc` honours.

The header is added to the size modulo `2 ^ 64`, and a sum above `2 ^ 63` is never reached by doubling.
-/

variable {pool low high poolSize size : Nat} {session : Session}

/-- `buddy_alloc` returns; a pointer leads to as many bytes as were asked for, and where the pool has
fewer there is none. -/
def Honours (poolSize : Nat) (session : Session) (size : Nat) : Prop :=
  ∃ result after, buddyAlloc session.alloc size = some (result, after) ∧
    (∀ ptr, result = some ptr → size + headerSize ≤ 2 ^ after.order (ptr - headerSize)) ∧
    (poolSize < size + headerSize → result = none)

/-- The sum can be rounded, and the block is as large as the pool at most, or there is no space for what the
sum was wrapped to. -/
def Served (poolSize : Nat) (session : Session) (size : Nat) : Prop :=
  (size + headerSize) % 2 ^ 64 ≤ 2 ^ 63 ∧
    (size + headerSize ≤ poolSize ∨ Crowded session.alloc.memoryPool session.alloc.maxOrder session
      (max session.alloc.minOrder (Nat.clog 2 ((size + headerSize) % 2 ^ 64))))

theorem Tamed.honours_exactly (tamed : Tamed pool low high session) (small : poolSize ≤ 2 ^ 63) :
    Honours poolSize session size ↔ Served poolSize session size := by
  obtain ⟨atPool, smallest, largest⟩ := tamed.shapes
  rw [Served, atPool, smallest, largest]
  constructor
  · intro ⟨result, after, returned, _, refused⟩
    obtain ⟨ceil, rounded, _⟩ := Option.bind_eq_some_iff.mp returned
    obtain ⟨bounded, rfl⟩ := log2Ceil_cases rounded
    refine ⟨bounded, ?_⟩
    rcases tamed.request rounded with ⟨crowded, _⟩ | ⟨node, other, _, given, _⟩
    · exact .inr crowded
    · left
      by_contra large
      cases refused (by omega)
      cases given.symm.trans returned
  · intro ⟨bounded, served⟩
    rcases tamed.request (log2Ceil_clog bounded) with ⟨_, refused⟩ | ⟨node, after, spare, given, roomy⟩
    · exact ⟨none, session.alloc, refused, by simp, fun _ => rfl⟩
    · have fits := served.resolve_right spare
      have unwrapped : (size + headerSize) % 2 ^ 64 = size + headerSize := Nat.mod_eq_of_lt (by omega)
      rw [unwrapped] at roomy
      have enough : size + headerSize ≤ 2 ^ max low (Nat.clog 2 (size + headerSize)) :=
        (Nat.le_pow_clog (by decide) _).trans (Nat.pow_le_pow_right (by decide) (Nat.le_max_right ..))
      obtain ⟨order, _⟩ := roomy (five_le_iff.mp (by omega))
      refine ⟨_, after, given, ?_, fun large => absurd fits (by omega)⟩
      rintro ptr ⟨⟩
      rw [Nat.add_sub_cancel, order]
      exact enough

/-- The sizes that are honoured in the states that are reached, with sizes of the pool and of its smallest block
that `buddy_init` accepts. -/
theorem alloc_honours_iff (pool poolSize minBlockSize : Nat) (positive : 0 < pool)
    (ending : pool + 2 ^ Nat.clog 2 poolSize ≤ 2 ^ 64) (memory : Nat → UInt8) (alloc : BuddyAllocator)
    (created : buddyInit memory pool poolSize minBlockSize = some alloc) (calls : List Call) (session : Session)
    (tame : Meets Session.step Tame { alloc, pointers := [] } calls)
    (completed : run Session.step { alloc, pointers := [] } calls = some session) (size : Nat) :
    Honours poolSize session size ↔ Served poolSize session size := by
  have tamed := run_tamed positive ending created tame completed
  have large := Nat.two_pow_pos (Nat.clog 2 poolSize)
  exact tamed.honours_exactly (buddyInit_cases positive (by omega) created).1

theorem alloc_honours_iff_kilobyte : ∃ alloc, buddyInit (fun _ => 0) 4096 (2 ^ 10) (2 ^ 5) = some alloc ∧
    (Honours (2 ^ 10) { alloc, pointers := [] } 100 ↔ Served (2 ^ 10) { alloc, pointers := [] } 100) := by
  have room : Room 4096 5 10 := ⟨by decide, by decide, by decide, by decide, by decide⟩
  obtain ⟨alloc, created, _⟩ := run_kept room fun _ => 0
  have ending : 4096 + 2 ^ Nat.clog 2 (2 ^ 10) ≤ 2 ^ 64 := by
    rw [Nat.clog_pow _ _ (by decide)]
    decide
  exact ⟨alloc, created, alloc_honours_iff 4096 (2 ^ 10) (2 ^ 5) (by decide) ending _ alloc created [] _ trivial rfl 100⟩

/-- A fresh kilobyte has a block for almost all of memory, and never answers to half of it. -/
theorem alloc_wraps : ∃ alloc, buddyInit (fun _ => 0) 4096 (2 ^ 10) (2 ^ 5) = some alloc ∧
    ¬ Honours (2 ^ 10) { alloc, pointers := [] } (2 ^ 64 - 8) ∧ buddyAlloc alloc (2 ^ 63) = none := by
  have room : Room 4096 5 10 := ⟨by decide, by decide, by decide, by decide, by decide⟩
  obtain ⟨alloc, created, _⟩ := run_kept room fun _ => 0
  have low : Nat.clog 2 (2 ^ 5) = 5 := Nat.clog_pow _ _ (by decide)
  have high : Nat.clog 2 (2 ^ 10) = 10 := Nat.clog_pow _ _ (by decide)
  have sixteen : Nat.clog 2 16 = 4 := Nat.clog_pow 2 4 (by decide)
  have tamed := buddyInit_tamed (by decide : 0 < 4096) (by rw [high]; decide) created
  rw [low, high] at tamed
  obtain ⟨_, smallest, largest⟩ := tamed.shapes
  refine ⟨alloc, created, fun honours => ?_, ?_⟩
  · obtain ⟨_, fits | crowded⟩ := (tamed.honours_exactly (by decide)).mp honours
    · exact absurd fits (by decide)
    · have order : (2 ^ 64 - 8 + headerSize) % 2 ^ 64 = 16 := by decide
      rw [crowded_empty_iff rfl, smallest, largest, order, sixteen] at crowded
      exact absurd crowded (by decide)
  · have endless : log2Ceil ((2 ^ 63 + headerSize) % 2 ^ 64) = none :=
      log2CeilFrom_none (by decide) (.inr ⟨0, by decide, rfl⟩)
    rw [buddyAlloc, endless]
    rfl

end HundredDays.Buddy
