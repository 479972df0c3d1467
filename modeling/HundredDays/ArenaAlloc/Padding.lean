import HundredDays.ArenaAlloc.Model
import HundredDays.Data.Masks

namespace HundredDays.ArenaAlloc

open HundredDays.Data HundredDays.Semantics

/-! What the padding makes of the alignment.

The complement of an address has one less than the distance to the next multiple of the
alignment in its low bits, so that every result is one byte short of such a multiple.
-/

variable {buffer bufferSize numOfElem elemSize alignSize order address : Nat} {arena : Arena} {session after : Session}

/-- The bytes that are skipped before a block. -/
def skipped (arena : Arena) (alignSize : Nat) : Nat :=
  alignSize - 1 - (arena.buffer + arena.currentOffset) % alignSize

/-- The product wraps below the size of an element, or the block ends behind the buffer. -/
def Refused (arena : Arena) (numOfElem elemSize alignSize : Nat) : Prop :=
  numOfElem * elemSize % 2 ^ 64 < elemSize ∨ arena.buffer + arena.bufferSize <
    (arena.buffer + arena.currentOffset + skipped arena alignSize + numOfElem * elemSize) % 2 ^ 64

/-- The arena is a buffer within the addresses, and what was returned is before its offset. -/
structure Valid (buffer bufferSize : Nat) (session : Session) : Prop where
  start : session.arena.buffer = buffer
  size : session.arena.bufferSize = bufferSize
  placed : 0 < buffer
  ending : buffer + bufferSize < 2 ^ 64
  inside : session.arena.currentOffset ≤ bufferSize
  below : ∀ range ∈ session.ranges, range.start + range.length ≤ buffer + session.arena.currentOffset

/-- What `ArenaAlloc` does with an alignment that is a power of two. -/
theorem arenaAlloc_cases (fits : arena.buffer + arena.bufferSize < 2 ^ 64)
    (inside : arena.currentOffset ≤ arena.bufferSize) (shift : order < 64) :
    (Refused arena numOfElem elemSize (2 ^ order) ∧ arenaAlloc arena numOfElem elemSize (2 ^ order) = (none, arena)) ∨
      (¬ Refused arena numOfElem elemSize (2 ^ order) ∧ arenaAlloc arena numOfElem elemSize (2 ^ order) =
        (pointer ((arena.buffer + arena.currentOffset + skipped arena (2 ^ order)) % 2 ^ 64),
          { arena with
            currentOffset := (arena.currentOffset + skipped arena (2 ^ order) + numOfElem * elemSize) % 2 ^ 64
            memory := clear arena.memory ((arena.buffer + arena.currentOffset + skipped arena (2 ^ order)) % 2 ^ 64)
              (numOfElem * elemSize % 2 ^ 64) })) := by
  have power : ¬ (2 ^ order = 0 ∨ 2 ^ order &&& (2 ^ order - 1) ≠ 0) := by
    have positive := Nat.two_pow_pos order
    rw [Nat.and_two_pow_sub_one_eq_mod, Nat.mod_self]
    omega
  have total : (arena.currentOffset + arena.buffer) % 2 ^ 64 = arena.buffer + arena.currentOffset := by
    rw [Nat.add_comm]
    exact Nat.mod_eq_of_lt (by omega)
  have padding : (2 ^ 64 - 1 - (arena.buffer + arena.currentOffset)) &&& (2 ^ order - 1) = skipped arena (2 ^ order) :=
    complement_and (by omega) (Nat.le_of_lt shift)
  have limit : (arena.bufferSize + arena.buffer) % 2 ^ 64 = arena.buffer + arena.bufferSize := by
    rw [Nat.add_comm]
    exact Nat.mod_eq_of_lt fits
  rw [arenaAlloc, if_neg power]
  simp only [total, padding, limit, Nat.add_mod_mod, Nat.mod_add_mod]
  by_cases wraps : numOfElem * elemSize % 2 ^ 64 < elemSize
  · exact .inl ⟨.inl wraps, if_pos wraps⟩
  · rw [if_neg wraps]
    by_cases full : (arena.buffer + arena.currentOffset + skipped arena (2 ^ order) + numOfElem * elemSize) % 2 ^ 64 >
        arena.buffer + arena.bufferSize
    · exact .inl ⟨.inr full, if_pos full⟩
    · refine .inr ⟨not_or.mpr ⟨wraps, full⟩, ?_⟩
      rw [if_neg full]
      rw [Nat.add_assoc arena.currentOffset]

/-- The bits that are skipped lead to one less than a multiple. -/
theorem skipped_mod (shift : order < 64) :
    (arena.buffer + arena.currentOffset + skipped arena (2 ^ order)) % 2 ^ 64 % 2 ^ order = 2 ^ order - 1 := by
  have positive := Nat.two_pow_pos order
  have less := Nat.mod_lt (arena.buffer + arena.currentOffset) positive
  have parts := Nat.div_add_mod (arena.buffer + arena.currentOffset) (2 ^ order)
  have sum : arena.buffer + arena.currentOffset + skipped arena (2 ^ order) =
      2 ^ order * ((arena.buffer + arena.currentOffset) / 2 ^ order) + (2 ^ order - 1) := by
    rw [skipped]
    omega
  rw [Nat.mod_mod_of_dvd _ (Nat.pow_dvd_pow 2 (Nat.le_of_lt shift)), sum, Nat.mul_add_mod]
  exact Nat.mod_eq_of_lt (by omega)

/-- A call as it is meant: an aligned block within the buffer, apart from what was returned since the last reset, or
nothing at all. -/
structure Honoured (buffer bufferSize : Nat) (session : Session) (numOfElem elemSize alignSize : Nat) : Prop where
  aligned : ∀ ptr, (arenaAlloc session.arena numOfElem elemSize alignSize).1 = some ptr → alignSize ∣ ptr
  inside : ∀ ptr, (arenaAlloc session.arena numOfElem elemSize alignSize).1 = some ptr →
    buffer ≤ ptr ∧ ptr + numOfElem * elemSize ≤ buffer + bufferSize
  apart : ∀ ptr, (arenaAlloc session.arena numOfElem elemSize alignSize).1 = some ptr → ∀ range ∈ session.ranges,
    ptr + numOfElem * elemSize ≤ range.start ∨ range.start + range.length ≤ ptr
  unmoved : (arenaAlloc session.arena numOfElem elemSize alignSize).1 = none →
    (arenaAlloc session.arena numOfElem elemSize alignSize).2.currentOffset = session.arena.currentOffset

/-- The request is refused, or its alignment is 1 and the end of the block does not wrap. -/
def Allowed (session : Session) : Call → Prop
  | .alloc numOfElem elemSize alignSize => (∃ order < 64, alignSize = 2 ^ order) ∧
      (Refused session.arena numOfElem elemSize alignSize ∨
        alignSize = 1 ∧ session.arena.buffer + session.arena.currentOffset + numOfElem * elemSize < 2 ^ 64)
  | .reset => True

namespace Valid

/-- A byte-aligned block that is not refused follows what was returned. -/
theorem unaligned (valid : Valid buffer bufferSize session)
    (accepted : ¬ Refused session.arena numOfElem elemSize 1)
    (ends : session.arena.buffer + session.arena.currentOffset + numOfElem * elemSize < 2 ^ 64) :
    buffer + session.arena.currentOffset + numOfElem * elemSize ≤ buffer + bufferSize ∧
      ∃ memory, arenaAlloc session.arena numOfElem elemSize 1 = (some (buffer + session.arena.currentOffset),
        { session.arena with currentOffset := session.arena.currentOffset + numOfElem * elemSize, memory }) := by
  obtain ⟨start, size, placed, ending, inside, _⟩ := valid
  have none : skipped session.arena 1 = 0 := by simp [skipped]
  have fits : session.arena.buffer + session.arena.bufferSize < 2 ^ 64 := by omega
  have outcome := @arenaAlloc_cases numOfElem elemSize 0 session.arena fits (by omega) (by decide)
  rw [pow_zero] at outcome
  obtain ⟨refused, _⟩ | ⟨_, given⟩ := outcome
  · exact absurd refused accepted
  · rw [Refused, not_or, none, Nat.add_zero, Nat.mod_eq_of_lt ends] at accepted
    have address : (session.arena.buffer + session.arena.currentOffset) % 2 ^ 64 = buffer + session.arena.currentOffset := by
      rw [start]
      exact Nat.mod_eq_of_lt (by omega)
    have offset : (session.arena.currentOffset + numOfElem * elemSize) % 2 ^ 64 =
        session.arena.currentOffset + numOfElem * elemSize := Nat.mod_eq_of_lt (by omega)
    rw [none, Nat.add_zero, Nat.add_zero, address, offset, pointer, if_neg (by omega)] at given
    exact ⟨by omega, _, given⟩

theorem step (valid : Valid buffer bufferSize session) (call : Call) (allowed : Allowed session call)
    (stepped : session.step call = some after) : Valid buffer bufferSize after := by
  have fits : session.arena.buffer + session.arena.bufferSize < 2 ^ 64 := by
    rw [valid.start, valid.size]
    exact valid.ending
  have within : session.arena.currentOffset ≤ session.arena.bufferSize := valid.size ▸ valid.inside
  cases call with
  | alloc numOfElem elemSize alignSize =>
      obtain ⟨⟨order, shift, rfl⟩, meant⟩ := allowed
      by_cases refused : Refused session.arena numOfElem elemSize (2 ^ order)
      · obtain ⟨_, nothing⟩ | ⟨accepted, _⟩ := @arenaAlloc_cases numOfElem elemSize order session.arena fits within shift
        · simp only [Session.step, nothing, List.nil_append] at stepped
          cases stepped
          exact valid
        · exact absurd refused accepted
      · obtain ⟨one, ends⟩ := meant.resolve_left refused
        rw [one] at refused stepped
        obtain ⟨room, memory, given⟩ := valid.unaligned refused ends
        simp only [Session.step, given, List.singleton_append] at stepped
        cases stepped
        refine ⟨valid.start, valid.size, valid.placed, valid.ending, ?_, ?_⟩
        · change session.arena.currentOffset + numOfElem * elemSize ≤ bufferSize
          omega
        · intro range listed
          change range.start + range.length ≤ buffer + (session.arena.currentOffset + numOfElem * elemSize)
          rcases List.mem_cons.mp listed with rfl | earlier
          · change buffer + session.arena.currentOffset + numOfElem * elemSize ≤ _
            omega
          · have before := valid.below range earlier
            omega
  | reset =>
      cases stepped
      exact ⟨valid.start, valid.size, valid.placed, valid.ending, Nat.zero_le _, by simp⟩

theorem honoured_iff (valid : Valid buffer bufferSize session) (shift : order < 64) :
    Honoured buffer bufferSize session numOfElem elemSize (2 ^ order) ↔
      Allowed session (.alloc numOfElem elemSize (2 ^ order)) := by
  have fits : session.arena.buffer + session.arena.bufferSize < 2 ^ 64 := by
    rw [valid.start, valid.size]
    exact valid.ending
  have within : session.arena.currentOffset ≤ session.arena.bufferSize := valid.size ▸ valid.inside
  obtain ⟨refused, nothing⟩ | ⟨accepted, given⟩ :=
    @arenaAlloc_cases numOfElem elemSize order session.arena fits within shift
  · refine iff_of_true ⟨?_, ?_, ?_, ?_⟩ ⟨⟨order, shift, rfl⟩, .inl refused⟩
    all_goals simp [nothing]
  · constructor
    · intro honoured
      refine ⟨⟨order, shift, rfl⟩, .inr ?_⟩
      have residue := @skipped_mod order session.arena shift
      by_cases one : order = 0
      · rw [one, pow_zero] at honoured given
        have none : skipped session.arena 1 = 0 := by simp [skipped]
        have start := valid.start
        have placed := valid.placed
        have address : (session.arena.buffer + session.arena.currentOffset) % 2 ^ 64 = buffer + session.arena.currentOffset := by
          rw [start]
          exact Nat.mod_eq_of_lt (by omega)
        rw [none, Nat.add_zero, address, pointer, if_neg (by omega)] at given
        have bounds := honoured.inside (buffer + session.arena.currentOffset) (by rw [given])
        have ending := valid.ending
        rw [one]
        exact ⟨rfl, by omega⟩
      · have large : 2 ≤ 2 ^ order := by
          calc
            2 = 2 ^ 1 := rfl
            _ ≤ 2 ^ order := Nat.pow_le_pow_right (by decide) (by omega)
        generalize (session.arena.buffer + session.arena.currentOffset + skipped session.arena (2 ^ order)) % 2 ^ 64 = start
          at residue given
        have some : start ≠ 0 := by
          rintro rfl
          rw [Nat.zero_mod] at residue
          omega
        rw [pointer, if_neg some] at given
        have multiple := Nat.mod_eq_zero_of_dvd (honoured.aligned start (by rw [given]))
        omega
    · rintro ⟨_, refused | ⟨one, ends⟩⟩
      · exact absurd refused accepted
      · rw [one] at accepted ⊢
        obtain ⟨room, memory, given⟩ := valid.unaligned accepted ends
        refine ⟨?_, ?_, ?_, ?_⟩
        · intro ptr _
          exact Nat.one_dvd ptr
        · rw [given]
          rintro ptr ⟨⟩
          exact ⟨Nat.le_add_right .., room⟩
        · rw [given]
          rintro ptr ⟨⟩ range listed
          exact .inr (valid.below range listed)
        · rw [given]
          simp

end Valid

/-- In every state that is reached while each request meets the condition, the next request is honoured exactly when
it meets it too. -/
theorem alloc_honoured_iff (buffer bufferSize : Nat) (placed : 0 < buffer) (ending : buffer + bufferSize < 2 ^ 64)
    (arena : Arena) (memory : Nat → UInt8) (calls : List Call) (session : Session)
    (allowed : Meets Session.step Allowed
      { arena := arenaInit arena (some (buffer, memory)) bufferSize, ranges := [] } calls)
    (completed : run Session.step { arena := arenaInit arena (some (buffer, memory)) bufferSize, ranges := [] } calls =
      some session)
    (numOfElem elemSize order : Nat) (shift : order < 64) :
    Honoured buffer bufferSize session numOfElem elemSize (2 ^ order) ↔
      Allowed session (.alloc numOfElem elemSize (2 ^ order)) := by
  have initial : Valid buffer bufferSize
      { arena := arenaInit arena (some (buffer, memory)) bufferSize, ranges := [] } :=
    ⟨rfl, rfl, placed, ending, Nat.zero_le _, by simp⟩
  have valid := run_invariant_meeting (Valid buffer bufferSize)
    (fun _ call _ valid met stepped => valid.step call met stepped) initial allowed completed
  exact valid.honoured_iff shift

/-- The arena of ten kilobytes in the page at 4096. -/
def page : Arena := ⟨4096, 0, 10240, fun _ => 0⟩

theorem alloc_honoured_iff_page : Honoured 4096 10240 ⟨page, []⟩ 3 7 (2 ^ 0) ↔ Allowed ⟨page, []⟩ (.alloc 3 7 (2 ^ 0)) :=
  alloc_honoured_iff 4096 10240 (by decide) (by decide) page (fun _ => 0) [] ⟨page, []⟩ trivial rfl 3 7 0 (by decide)

/-- The `int` that `main` asks for starts at an odd address. -/
theorem alloc_misaligned : (arenaAlloc page 1 4 4).1 = some 4099 ∧ ¬ Honoured 4096 10240 ⟨page, []⟩ 1 4 4 := by
  have given : (arenaAlloc page 1 4 4).1 = some 4099 := by decide
  refine ⟨given, fun honoured => ?_⟩
  exact absurd (honoured.aligned 4099 given) (by decide)

end HundredDays.ArenaAlloc
