import HundredDays.CustomVector.Backends
import Mathlib.Data.List.Induction

namespace HundredDays.CustomVector

open HundredDays.Memory HundredDays.Semantics

/-! The vector as a list, whatever the allocator does. -/

variable {σ τ : Type} {backend : Backend σ} {Live : σ → (Nat → UInt8) → List Range → Prop} {others : List Range}
  {memory : Nat → UInt8} {session after : Session σ} {vals : List Int32} {ctx : σ}

/-- What one push comes to: room behind the elements, a refusal, or a larger buffer. -/
inductive Outcome (session after : Session σ) (val : Int32) : Prop where
  | room (less : session.vec.size < session.vec.capacity) (accepted : after.accepted = session.accepted ++ [val])
      (capacity : after.vec.capacity = session.vec.capacity) (failures : after.failures = session.failures)
  | refusal (full : session.vec.capacity ≤ session.vec.size) (accepted : after.accepted = session.accepted)
      (capacity : after.vec.capacity = session.vec.capacity) (failures : after.failures = session.failures ++ [true])
  | growth (full : session.vec.capacity ≤ session.vec.size) (accepted : after.accepted = session.accepted ++ [val])
      (capacity : after.vec.capacity = grown session.vec.capacity)
      (failures : after.failures = session.failures ++ [false])

theorem Sound.push (sound : Sound Live others session) (lawful : Lawful backend Asked Live)
    (small : session.vec.size ≤ 2 ^ 60) (val : Int32) :
    ∃ after, session.push backend val = some after ∧ Sound Live others after ∧ Outcome session after val := by
  by_cases room : session.vec.size < session.vec.capacity
  · obtain ⟨after, pushed, kept, accepted, capacity, history⟩ := sound.push_room lawful room val
    refine ⟨after, ?_, kept, .room room accepted capacity (by rw [Session.failures, history, Session.failures])⟩
    rw [Session.push, pushed]
    simp [← accepted]
  · have full := Nat.le_of_not_lt room
    obtain ⟨after, pushed, kept, accepted, same, failures⟩ | ⟨after, pushed, kept, accepted, capacity, failures⟩ :=
      sound.push_full lawful full small val
    · refine ⟨after, ?_, kept, .refusal full accepted (by rw [same]) failures⟩
      rw [Session.push, pushed]
      simp [← accepted]
    · refine ⟨after, ?_, kept, .growth full accepted capacity failures⟩
      rw [Session.push, pushed]
      simp [← accepted]

/-- Each push is one to fewer than `2 ^ 60` elements. -/
def Few (backend : Backend σ) (session : Session σ) (vals : List Int32) : Prop :=
  Meets (Session.push backend) (fun session _ => session.accepted.length < 2 ^ 60) session vals

theorem push_length {val : Int32} (pushed : session.push backend val = some after) :
    after.accepted.length ≤ session.accepted.length + 1 := by
  obtain ⟨⟨accepted, vec, world⟩, _, same⟩ := Option.map_eq_some_iff.mp pushed
  subst same
  cases accepted <;> simp

/-- Such pushes return, and keep the vector sound. -/
theorem run_sound (lawful : Lawful backend Asked Live) (live : Live ctx memory others)
    (few : Few backend (Session.initial ctx memory) vals) :
    ∃ session, run (Session.push backend) (Session.initial ctx memory) vals = some session ∧
      Sound Live others session ∧ session.vec.size ≤ 2 ^ 60 := by
  refine run_completes_meeting (fun session => Sound Live others session ∧ session.vec.size ≤ 2 ^ 60) ?_
    ⟨initial_sound live, Nat.zero_le _⟩ few
  intro session val invariant less
  obtain ⟨sound, small⟩ := invariant
  obtain ⟨after, pushed, kept, outcome⟩ := sound.push lawful small val
  have length := push_length pushed
  exact ⟨after, pushed, kept, by rw [kept.size]; omega⟩

end HundredDays.CustomVector
