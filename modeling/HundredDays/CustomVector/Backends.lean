import HundredDays.BumpArena.Requests
import HundredDays.CustomVector.Growth

namespace HundredDays.CustomVector

open HundredDays.BumpArena hiding Range
open HundredDays.Memory

/-! The two allocators of the example keep their promises for what a vector asks for. -/

/-- The arena is far from the end of the addresses, and what is live is before its offset. -/
structure ArenaLive (ctx : ArenaBackend) (memory : Nat → UInt8) (ranges : List Range) : Prop where
  placed : 0 < ctx.buffer
  ending : ctx.buffer + ctx.capacity < 2 ^ 62
  inside : ctx.offset ≤ ctx.capacity
  below : ∀ range ∈ ranges, range.start + range.length ≤ ctx.buffer + ctx.offset

variable {ctx after : ArenaBackend} {memory : Nat → UInt8} {ranges : List Range} {size align : Nat}

/-- A request of a vector is refused or gets the next addresses. -/
theorem ArenaLive.allocate (live : ArenaLive ctx memory ranges) (asked : Asked size align) :
    arenaAlloc (some ctx) size align = (none, some ctx) ∨
      ∃ start stats, arenaAlloc (some ctx) size align = (some start, some { ctx with
        offset := start - ctx.buffer + size
        stats }) ∧ ctx.buffer + ctx.offset ≤ start ∧ start - ctx.buffer + size ≤ ctx.capacity := by
  obtain ⟨placed, ending, inside, _⟩ := live
  obtain ⟨half, four⟩ := asked
  have power : align = 2 ^ 2 := four
  rw [power]
  have outcome := @arenaAlloc_eq ctx.toArena 2 (by omega) inside (by decide) ctx.stats size
  obtain ⟨lower, upper⟩ := start_bounds ctx.toArena 2
  have exact : needed ctx.toArena size (2 ^ 2) % 2 ^ 64 = start ctx.toArena (2 ^ 2) - ctx.buffer + size := by
    rw [needed]
    exact Nat.mod_eq_of_lt (by omega)
  rw [exact] at outcome
  by_cases full : start ctx.toArena (2 ^ 2) - ctx.buffer + size > ctx.capacity
  · rw [if_pos full] at outcome
    exact .inl outcome
  · rw [if_neg full] at outcome
    have address : BumpArena.address ctx.toArena (2 ^ 2) = some (start ctx.toArena (2 ^ 2)) := by
      rw [BumpArena.address, Nat.mod_eq_of_lt (by omega), pointer, if_neg (by omega)]
    rw [address] at outcome
    exact .inr ⟨_, _, outcome, lower, Nat.le_of_not_gt full⟩

/-- `malloc_alloc` and `malloc_free`, with `posix_memalign` and `free`. -/
def mallocBackend {σ : Type} (heap : Backend σ) : Backend (AllocStats × σ) where
  allocate ctx memory size align :=
    match heap.allocate ctx.2 memory size (max align 8) with
    | (none, heapAfter, memory) => (none, (ctx.1, heapAfter), memory)
    | (some ptr, heapAfter, memory) => (some ptr, (ctx.1.count size, heapAfter), memory)
  deallocate ctx memory ptr size :=
    let (heapAfter, memory) := heap.deallocate ctx.2 memory ptr size
    ((ctx.1, heapAfter), memory)

/-- The alignment is that of a pointer at least. -/
theorem mallocBackend_lawful {σ : Type} {heap : Backend σ} {Live : σ → (Nat → UInt8) → List Range → Prop}
    (lawful : Lawful heap (fun size align => size ≤ 2 ^ 63 ∧ align = 8) Live) :
    Lawful (mallocBackend heap) Asked fun ctx memory ranges => Live ctx.2 memory ranges where
  refuses := by
    intro ctx memory ranges size align ctxAfter memoryAfter live asked called
    obtain ⟨half, four⟩ := asked
    cases answered : heap.allocate ctx.2 memory size (max align 8) with
    | mk result rest =>
        obtain ⟨heapAfter, memoryAfter'⟩ := rest
        simp only [mallocBackend, answered] at called
        cases result with
        | none =>
            cases called
            exact lawful.refuses live ⟨half, by rw [four]; rfl⟩ answered
        | some ptr => cases called
  grants := by
    intro ctx memory ranges size align start ctxAfter memoryAfter live asked called
    obtain ⟨half, four⟩ := asked
    cases answered : heap.allocate ctx.2 memory size (max align 8) with
    | mk result rest =>
        obtain ⟨heapAfter, memoryAfter'⟩ := rest
        simp only [mallocBackend, answered] at called
        cases result with
        | none => cases called
        | some ptr =>
            cases called
            exact lawful.grants live ⟨half, by rw [four]; rfl⟩ answered
  releases := by
    intro ctx memory ranges range ctxAfter memoryAfter live member called
    cases called
    exact lawful.releases live member rfl
  writes := by
    intro ctx memory ranges after live agree
    exact lawful.writes live agree

end HundredDays.CustomVector
