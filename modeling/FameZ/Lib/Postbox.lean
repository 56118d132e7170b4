/-
Module: FameZ.Lib.Postbox
Purpose: Boxes that hold one message each, and the order in which what is posted
  into a box is collected from it.
Trusted boundary: none
Main exports: Postbox.Event, step, posted, collected, in_order
-/
import FameZ.Lib.Transition
import Mathlib.Logic.Function.Basic
import Mathlib.Data.List.Forall2

namespace Postbox

variable {α μ ρ : Type*} [DecidableEq α]

/-- An outcome is what a collector makes of the message it finds. -/
inductive Event (α μ ρ : Type*) where
  | post (box : α) (message : μ)
  | collect (box : α) (outcome : ρ)

/-- A message is posted into an empty box and collected once, with an outcome
that it can have. -/
noncomputable def step (can : α → μ → ρ → Prop) :
    Transition.Step (α → Option μ) (Event α μ ρ) :=
  open scoped Classical in fun boxes event =>
  match event with
  | .post box message =>
      match boxes box with
      | none => some (Function.update boxes box (some message))
      | some _ => none
  | .collect box outcome =>
      match boxes box with
      | none => none
      | some message =>
          if can box message outcome then
            some (Function.update boxes box none)
          else none

/-- The messages posted into a box, in order. -/
def posted (box : α) (events : List (Event α μ ρ)) : List μ :=
  events.filterMap fun event =>
    match event with
    | .post other message => if other = box then some message else none
    | .collect _ _ => none

/-- The outcomes of what was collected from a box, in order. -/
def collected (box : α) (events : List (Event α μ ρ)) : List ρ :=
  events.filterMap fun event =>
    match event with
    | .post _ _ => none
    | .collect other outcome => if other = box then some outcome else none

variable {can : α → μ → ρ → Prop} {boxes final : α → Option μ} {box : α}

theorem step_post (empty : boxes box = none) (message : μ) :
    step (ρ := ρ) can boxes (.post box message) =
      some (Function.update boxes box (some message)) := by
  simp only [step, empty]

theorem step_collect {message : μ} {outcome : ρ}
    (holds : boxes box = some message) (fits : can box message outcome) :
    step can boxes (.collect box outcome) =
      some (Function.update boxes box none) := by
  simp only [step, holds, if_pos fits]

/-- Every message is collected at most once and in the order in which it was
posted; at most the last one of each box is still there. -/
theorem in_order {events : List (Event α μ ρ)}
    (runs : Transition.run (step can) boxes events = some final) (box : α) :
    ∃ taken, (boxes box).toList ++ posted box events =
        taken ++ (final box).toList ∧
      List.Forall₂ (can box) taken (collected box events) := by
  induction events generalizing boxes with
  | nil =>
      cases runs
      exact ⟨[], by simp [posted], .nil⟩
  | cons event rest inductionHypothesis =>
      rw [Transition.run_cons] at runs
      cases event with
      | post other message =>
          cases before : boxes other with
          | some held => simp [step, before] at runs
          | none =>
              rw [step_post before, Option.bind_some] at runs
              obtain ⟨taken, order, outcomes⟩ := inductionHypothesis runs
              refine ⟨taken, ?_, outcomes⟩
              by_cases here : other = box
              · subst here
                simpa [posted, before] using order
              · rw [Function.update_of_ne (Ne.symm here)] at order
                simpa [posted, here] using order
      | collect other outcome =>
          cases before : boxes other with
          | none => simp [step, before] at runs
          | some held =>
              by_cases fits : can other held outcome
              · rw [step_collect before fits, Option.bind_some] at runs
                obtain ⟨taken, order, outcomes⟩ := inductionHypothesis runs
                by_cases here : other = box
                · subst here
                  refine ⟨held :: taken, ?_, ?_⟩
                  · simpa [posted, before] using order
                  · simpa [collected] using List.Forall₂.cons fits outcomes
                · rw [Function.update_of_ne (Ne.symm here)] at order
                  refine ⟨taken, ?_, ?_⟩
                  · simpa [posted] using order
                  · simpa [collected, here] using outcomes
              · simp [step, before, fits] at runs

end Postbox
