/-
Module: FameZ.Lib.Custody
Purpose: Logs of resources that are acquired and released, and when everything
  in a log was released once and nothing else was.
Trusted boundary: none
Main exports: Custody.Event, step, run, Settled, run_acquires, run_releases,
  run_frame
-/
import FameZ.Lib.Transition
import Mathlib.Data.Multiset.AddSub

namespace Custody

variable {ρ : Type*} [DecidableEq ρ]

inductive Event (ρ : Type*) where
  | acquire (resource : ρ)
  | release (resource : ρ)
deriving Repr, DecidableEq

/-- Only what is held can be released. -/
def step : Transition.Step (Multiset ρ) (Event ρ) := fun held event =>
  match event with
  | .acquire resource => some (resource ::ₘ held)
  | .release resource =>
      if resource ∈ held then some (held.erase resource) else none

/-- What is held after a log; `none` if it releases what is not held. -/
def run (held : Multiset ρ) (log : List (Event ρ)) : Option (Multiset ρ) :=
  Transition.run step held log

/-- Every acquisition is released once, and nothing else is. -/
def Settled (log : List (Event ρ)) : Prop := run 0 log = some 0

instance (log : List (Event ρ)) : Decidable (Settled log) :=
  inferInstanceAs (Decidable (_ = _))

variable {held after : Multiset ρ} {log : List (Event ρ)}

@[simp] theorem run_nil (held : Multiset ρ) : run held [] = some held := rfl

@[simp] theorem run_acquire (held : Multiset ρ) (resource : ρ)
    (log : List (Event ρ)) :
    run held (.acquire resource :: log) = run (resource ::ₘ held) log := rfl

theorem run_release_of_mem {resource : ρ} (member : resource ∈ held)
    (log : List (Event ρ)) :
    run held (.release resource :: log) = run (held.erase resource) log := by
  rw [run, Transition.run_cons, step, if_pos member]
  rfl

theorem run_release_of_not_mem {resource : ρ} (absent : resource ∉ held)
    (log : List (Event ρ)) :
    run held (.release resource :: log) = none := by
  rw [run, Transition.run_cons, step, if_neg absent]
  rfl

@[simp] theorem run_release_cons (held : Multiset ρ) (resource : ρ)
    (log : List (Event ρ)) :
    run (resource ::ₘ held) (.release resource :: log) = run held log := by
  rw [run_release_of_mem (Multiset.mem_cons_self ..),
    Multiset.erase_cons_head]

/-- The resource acquired before the last one is released. -/
theorem run_release_cons_cons (held : Multiset ρ) (last resource : ρ)
    (log : List (Event ρ)) :
    run (last ::ₘ resource ::ₘ held) (.release resource :: log) =
      run (last ::ₘ held) log := by
  rw [Multiset.cons_swap, run_release_cons]

theorem run_append (held : Multiset ρ) (first second : List (Event ρ)) :
    run held (first ++ second) =
      (run held first).bind fun middle => run middle second :=
  Transition.run_append ..

/-- Resources acquired in a row. -/
theorem run_acquires (held : Multiset ρ) (resources : List ρ) :
    run held (resources.map .acquire) =
      some ((resources : Multiset ρ) + held) := by
  induction resources generalizing held with
  | nil => simp
  | cons resource rest inductionHypothesis =>
      rw [List.map_cons, run_acquire, inductionHypothesis,
        ← Multiset.cons_coe, Multiset.cons_add, Multiset.add_cons]

/-- Resources released in a row. -/
theorem run_releases (held : Multiset ρ) (resources : List ρ) :
    run ((resources : Multiset ρ) + held) (resources.map .release) =
      some held := by
  induction resources with
  | nil => simp
  | cons resource rest inductionHypothesis =>
      rw [List.map_cons, ← Multiset.cons_coe, Multiset.cons_add,
        run_release_cons, inductionHypothesis]

/-- What else is held does not matter to a log that runs. -/
theorem run_frame (more : Multiset ρ) (runs : run held log = some after) :
    run (held + more) log = some (after + more) := by
  induction log generalizing held with
  | nil =>
      cases runs
      rfl
  | cons event rest inductionHypothesis =>
      cases event with
      | acquire resource =>
          rw [run_acquire] at runs ⊢
          rw [← Multiset.cons_add]
          exact inductionHypothesis runs
      | release resource =>
          by_cases member : resource ∈ held
          · rw [run_release_of_mem member] at runs
            rw [run_release_of_mem (Multiset.mem_add.mpr (.inl member)),
              Multiset.erase_add_left_pos more member]
            exact inductionHypothesis runs
          · rw [run_release_of_not_mem member] at runs
            cases runs

/-- Nothing follows a release that was not legal. -/
theorem run_append_of_none {first : List (Event ρ)}
    (illegal : run held first = none) (second : List (Event ρ)) :
    run held (first ++ second) = none := by
  rw [run_append, illegal]
  rfl

end Custody
