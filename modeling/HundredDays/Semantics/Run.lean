import Mathlib.Logic.Basic
import Mathlib.Data.Option.Defs

namespace HundredDays.Semantics

/-! Runs of a deterministic machine driven by a list of inputs.

A step that returns `none` has no successor: the input is not one the machine
accepts in that state, and the run ends there.
-/

variable {σ τ ι : Type*}

/-- Feed the inputs to the machine one after another. -/
def run (step : σ → ι → Option σ) : σ → List ι → Option σ
  | state, [] => some state
  | state, input :: rest => (step state input).bind fun next => run step next rest

variable {step : σ → ι → Option σ} {state after : σ} {input : ι} {inputs more : List ι}

@[simp] theorem run_nil : run step state [] = some state := rfl

theorem run_cons_iff : run step state (input :: inputs) = some after ↔
    ∃ next, step state input = some next ∧ run step next inputs = some after := by
  simp [run, Option.bind_eq_some_iff]

theorem run_append_iff : run step state (inputs ++ more) = some after ↔
    ∃ middle, run step state inputs = some middle ∧ run step middle more = some after := by
  induction inputs generalizing state with
  | nil => simp
  | cons input rest ih =>
      simp only [List.cons_append, run_cons_iff, ih]
      constructor
      · rintro ⟨next, stepped, middle, first, second⟩
        exact ⟨middle, ⟨next, stepped, first⟩, second⟩
      · rintro ⟨middle, ⟨next, stepped, first⟩, second⟩
        exact ⟨next, stepped, middle, first, second⟩

theorem run_concat_iff : run step state (inputs ++ [input]) = some after ↔
    ∃ middle, run step state inputs = some middle ∧ step middle input = some after := by
  simp [run_append_iff, run_cons_iff]

/-- The machine that also answers, with the exchanges so far. -/
def logged {ω : Type*} (respond : σ → ι → Option (ω × σ)) (state : σ × List (ι × ω)) (input : ι) :
    Option (σ × List (ι × ω)) :=
  (respond state.1 input).map fun answered => (answered.2, state.2 ++ [(input, answered.1)])

/-- What every step preserves, every run preserves. -/
theorem run_invariant (Inv : σ → Prop)
    (preserved : ∀ state input after, Inv state → step state input = some after → Inv after)
    (initial : Inv state) (completed : run step state inputs = some after) : Inv after := by
  induction inputs generalizing state with
  | nil =>
      cases completed
      exact initial
  | cons input rest ih =>
      obtain ⟨next, stepped, remaining⟩ := run_cons_iff.mp completed
      exact ih (preserved state input next initial stepped) remaining

/-- Every step of the run meets the condition. -/
def Meets (step : σ → ι → Option σ) (condition : σ → ι → Prop) : σ → List ι → Prop
  | _, [] => True
  | state, input :: rest =>
      condition state input ∧ ∀ next, step state input = some next → Meets step condition next rest

variable {condition : σ → ι → Prop}

instance decidableMeets [∀ state input, Decidable (condition state input)] :
    ∀ state inputs, Decidable (Meets step condition state inputs)
  | _, [] => isTrue trivial
  | state, input :: rest =>
      match stepped : step state input with
      | none => decidable_of_iff (condition state input) (by simp [Meets, stepped])
      | some next =>
          have : Decidable (Meets step condition next rest) := decidableMeets next rest
          decidable_of_iff (condition state input ∧ Meets step condition next rest) (by simp [Meets, stepped])

/-- What every step that meets the condition preserves, every run preserves whose steps meet it. -/
theorem run_invariant_meeting (Inv : σ → Prop)
    (preserved : ∀ state input after, Inv state → condition state input → step state input = some after → Inv after)
    (initial : Inv state) (meets : Meets step condition state inputs)
    (completed : run step state inputs = some after) : Inv after := by
  induction inputs generalizing state with
  | nil =>
      cases completed
      exact initial
  | cons input rest ih =>
      obtain ⟨met, later⟩ := meets
      obtain ⟨next, stepped, remaining⟩ := run_cons_iff.mp completed
      exact ih (preserved state input next initial met stepped) (later next stepped) remaining

/-- A machine that never stops at an input that meets the condition completes its runs. -/
theorem run_completes_meeting (Inv : σ → Prop)
    (progress : ∀ state input, Inv state → condition state input → ∃ after, step state input = some after ∧ Inv after)
    (initial : Inv state) (meets : Meets step condition state inputs) :
    ∃ after, run step state inputs = some after ∧ Inv after := by
  induction inputs generalizing state with
  | nil => exact ⟨state, rfl, initial⟩
  | cons input rest ih =>
      obtain ⟨met, later⟩ := meets
      obtain ⟨next, stepped, kept⟩ := progress state input initial met
      obtain ⟨after, completed, final⟩ := ih kept (later next stepped)
      exact ⟨after, run_cons_iff.mpr ⟨next, stepped, completed⟩, final⟩

/-- When a step that does not meet the condition spoils the state for good, a run to a state that is
not spoiled meets it throughout. -/
theorem meets_of_unspoiled (Inv Spoiled : σ → Prop)
    (preserved : ∀ state input after, Inv state → condition state input → step state input = some after → Inv after)
    (spoils : ∀ state input after, Inv state → ¬ condition state input → step state input = some after → Spoiled after)
    (stays : ∀ state input after, Spoiled state → step state input = some after → Spoiled after)
    (initial : Inv state) (completed : run step state inputs = some after) (unspoiled : ¬ Spoiled after) :
    Meets step condition state inputs := by
  induction inputs generalizing state with
  | nil => trivial
  | cons input rest ih =>
      obtain ⟨next, stepped, remaining⟩ := run_cons_iff.mp completed
      have met : condition state input := by
        apply Classical.byContradiction
        intro unmet
        exact unspoiled (run_invariant Spoiled stays (spoils state input next initial unmet stepped) remaining)
      refine ⟨met, fun other steppedOther => ?_⟩
      cases stepped.symm.trans steppedOther
      exact ih (preserved state input next initial met stepped) remaining

theorem Meets.append {middle : σ} (meets : Meets step condition state (inputs ++ more))
    (completed : run step state inputs = some middle) :
    Meets step condition state inputs ∧ Meets step condition middle more := by
  induction inputs generalizing state with
  | nil =>
      cases completed
      exact ⟨trivial, meets⟩
  | cons input rest ih =>
      obtain ⟨met, later⟩ := meets
      obtain ⟨next, stepped, remaining⟩ := run_cons_iff.mp completed
      obtain ⟨_, afterwards⟩ := ih (later next stepped) remaining
      refine ⟨⟨met, ?_⟩, afterwards⟩
      intro other steppedOther
      cases stepped.symm.trans steppedOther
      exact (ih (later next stepped) remaining).1

/-- Forward simulation: when every step of the first machine is matched by a
step of the second on related states, so is every run. -/
theorem run_simulation {other : τ → ι → Option τ} {Related : σ → τ → Prop} {image : τ}
    (matched : ∀ state image input after, Related state image → step state input = some after →
      ∃ next, other image input = some next ∧ Related after next)
    (initial : Related state image) (completed : run step state inputs = some after) :
    ∃ final, run other image inputs = some final ∧ Related after final := by
  induction inputs generalizing state image with
  | nil =>
      cases completed
      exact ⟨image, rfl, initial⟩
  | cons input rest ih =>
      obtain ⟨next, stepped, remaining⟩ := run_cons_iff.mp completed
      obtain ⟨imageNext, imageStepped, related⟩ := matched state image input next initial stepped
      obtain ⟨final, finished, relatedFinal⟩ := ih related remaining
      exact ⟨final, run_cons_iff.mpr ⟨imageNext, imageStepped, finished⟩, relatedFinal⟩

/-- Lockstep: when the steps of two machines stop together and otherwise stay
related, so do their runs. -/
theorem run_lockstep {other : τ → ι → Option τ} {Related : σ → τ → Prop} {image : τ}
    (matched : ∀ state image input, Related state image →
      Option.Rel Related (step state input) (other image input))
    (initial : Related state image) :
    Option.Rel Related (run step state inputs) (run other image inputs) := by
  induction inputs generalizing state image with
  | nil => exact .some initial
  | cons input rest ih =>
      have both := matched state image input initial
      simp only [run]
      generalize step state input = next at both
      generalize other image input = imageNext at both
      cases both with
      | none => exact .none
      | some related => exact ih related

/-- Lockstep of the runs whose steps meet the condition. -/
theorem run_lockstep_meeting {other : τ → ι → Option τ} {Related : σ → τ → Prop} {image : τ}
    (matched : ∀ state image input, Related state image → condition state input →
      Option.Rel Related (step state input) (other image input))
    (initial : Related state image) (meets : Meets step condition state inputs) :
    Option.Rel Related (run step state inputs) (run other image inputs) := by
  induction inputs generalizing state image with
  | nil => exact .some initial
  | cons input rest ih =>
      obtain ⟨met, later⟩ := meets
      have both := matched state image input initial met
      simp only [run]
      cases stepped : step state input with
      | none =>
          rw [stepped] at both
          generalize other image input = imageNext at both
          cases both
          exact .none
      | some next =>
          rw [stepped] at both
          generalize other image input = imageNext at both
          cases both with
          | some related => exact ih related (later next stepped)

end HundredDays.Semantics
