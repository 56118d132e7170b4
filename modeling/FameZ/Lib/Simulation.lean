/-
Module: FameZ.Lib.Simulation
Purpose: What shows of a run from outside, and when what shows is a run of an
  abstract step.
Trusted boundary: none
Main exports: Transition.observe, Simulates, Simulates.observed
-/
import FameZ.Lib.Transition

namespace Transition

variable {σ α τ β : Type*}

/-- What shows of a run.  Every executed step shows any number of abstract
labels. -/
def observe (step : Step σ α) (shows : σ → α → List β) : σ → List α → List β
  | _, [] => []
  | state, label :: rest =>
      match step state label with
      | none => []
      | some next => shows state label ++ observe step shows next rest

/-- Between related states, what shows of a step that meets the condition is a
run of the abstract step. -/
def Simulates (step : Step σ α) (abstract : Step τ β)
    (condition : σ → α → Prop) (shows : σ → α → List β)
    (relates : σ → τ → Prop) : Prop :=
  ∀ state label next spec, relates state spec → condition state label →
    step state label = some next →
      ∃ after, run abstract spec (shows state label) = some after ∧
        relates next after

variable {step : Step σ α} {abstract : Step τ β} {condition : σ → α → Prop}
  {shows : σ → α → List β} {relates : σ → τ → Prop}

/-- What shows of a run is a run of the abstract step. -/
theorem Simulates.observed
    (simulates : Simulates step abstract condition shows relates)
    {state final : σ} {spec : τ} {trace : List α} (related : relates state spec)
    (meets : Meets step condition state trace)
    (reached : run step state trace = some final) :
    ∃ after, run abstract spec (observe step shows state trace) = some after ∧
      relates final after := by
  induction trace generalizing state spec with
  | nil =>
      cases reached
      exact ⟨spec, rfl, related⟩
  | cons label rest inductionHypothesis =>
      rw [run_cons] at reached
      cases taken : step state label with
      | none => simp [taken] at reached
      | some next =>
          rw [taken, Option.bind_some] at reached
          obtain ⟨met, later⟩ := meets next taken
          obtain ⟨middle, first, middleRelated⟩ :=
            simulates state label next spec related met taken
          obtain ⟨after, second, afterRelated⟩ :=
            inductionHypothesis middleRelated later reached
          refine ⟨after, ?_, afterRelated⟩
          simp only [observe, taken]
          rw [run_append, first, Option.bind_some, second]

end Transition
