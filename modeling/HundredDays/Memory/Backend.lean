import Mathlib.Data.List.Basic

namespace HundredDays.Memory

/-! Allocators behind an interface.

An allocator may keep what it knows in a state of its own or in the memory outside the
ranges that it handed out.  A relation of these with the ranges that are live says what
it promises to whoever writes into those ranges only.
-/

structure Range where
  start : Nat
  length : Nat
deriving DecidableEq

namespace Range

def Holds (range : Range) (address : Nat) : Prop := range.start ≤ address ∧ address < range.start + range.length

def Apart (range other : Range) : Prop :=
  range.start + range.length ≤ other.start ∨ other.start + other.length ≤ range.start

end Range

/-- The bytes of the ranges are as before. -/
def Untouched (ranges : List Range) (before after : Nat → UInt8) : Prop :=
  ∀ range ∈ ranges, ∀ address, range.Holds address → after address = before address

structure Backend (σ : Type) where
  /-- The size comes before the alignment. -/
  allocate : σ → (Nat → UInt8) → Nat → Nat → Option Nat × σ × (Nat → UInt8)
  deallocate : σ → (Nat → UInt8) → Nat → Nat → σ × (Nat → UInt8)

/-- Each request of the kind that is asked for is refused or gets a range apart from those that are live, and no
call changes the bytes of a live range. -/
structure Lawful {σ : Type} (backend : Backend σ) (asked : Nat → Nat → Prop)
    (Live : σ → (Nat → UInt8) → List Range → Prop) : Prop where
  refuses : ∀ {ctx memory ranges size align ctxAfter memoryAfter}, Live ctx memory ranges → asked size align →
    backend.allocate ctx memory size align = (none, ctxAfter, memoryAfter) →
    Live ctxAfter memoryAfter ranges ∧ Untouched ranges memory memoryAfter
  grants : ∀ {ctx memory ranges size align start ctxAfter memoryAfter}, Live ctx memory ranges → asked size align →
    backend.allocate ctx memory size align = (some start, ctxAfter, memoryAfter) →
    Live ctxAfter memoryAfter (⟨start, size⟩ :: ranges) ∧ Untouched ranges memory memoryAfter ∧
      ∀ range ∈ ranges, Range.Apart ⟨start, size⟩ range
  releases : ∀ {ctx memory ranges range ctxAfter memoryAfter}, Live ctx memory ranges → range ∈ ranges →
    backend.deallocate ctx memory range.start range.length = (ctxAfter, memoryAfter) →
    Live ctxAfter memoryAfter (ranges.erase range) ∧ Untouched (ranges.erase range) memory memoryAfter
  writes : ∀ {ctx memory ranges after}, Live ctx memory ranges →
    (∀ address, (∀ range ∈ ranges, ¬ range.Holds address) → after address = memory address) → Live ctx after ranges

/-! ### What a client sees -/

inductive Event where
  | obtained (range : Range)
  | refused (size : Nat)
  | released (range : Range)

/-- The live ranges after an event.  What is released must be live. -/
def observe (live : List Range) : Event → Option (List Range)
  | .obtained range => some (range :: live)
  | .refused _ => some live
  | .released range => if range ∈ live then some (live.erase range) else none

variable {ranges more : List Range} {before middle after : Nat → UInt8} {range : Range} {address : Nat}

theorem Untouched.trans (first : Untouched ranges before middle) (second : Untouched ranges middle after) :
    Untouched ranges before after := fun range member address holds =>
  (second range member address holds).trans (first range member address holds)

theorem Untouched.sublist (untouched : Untouched ranges before after) (sub : ∀ range ∈ more, range ∈ ranges) :
    Untouched more before after := fun range member => untouched range (sub range member)

end HundredDays.Memory
