/-
Module: FameZ.Lib.Transition
Purpose: Runs of partial labelled steps, properties read along a run, and the
  rules that reduce them to one step.
Trusted boundary: none
Main exports: Transition.run, Along, Meets, Always, along_of_invariant,
  along_iff_meets, along_iff_forall, along_iff_meetsSoFar, run_invariant,
  run_preserves, along_last, always_run, countP_le_rank_add, countP_le_rank
-/
import Mathlib.Algebra.GroupWithZero.Nat
import Mathlib.Data.List.Basic
import Mathlib.Data.List.Induction
import Mathlib.Logic.Basic

namespace Transition

variable {σ α : Type*}

/-- A partial labelled step: `none` says the label is not enabled. -/
abbrev Step (σ α : Type*) := σ → α → Option σ

/-- Execute every label of a trace in order. -/
def run (step : Step σ α) : σ → List α → Option σ
  | state, [] => some state
  | state, label :: rest =>
      (step state label).bind fun next => run step next rest

/-- `property` holds of every transition a trace takes.  A trace that gets
stuck is judged on the part that was executed. -/
def Along (step : Step σ α) (property : σ → α → σ → Prop) :
    σ → List α → Prop
  | _, [] => True
  | state, label :: rest =>
      ∀ next, step state label = some next →
        property state label next ∧ Along step property next rest

/-- Every step of the run is taken from a state that meets `condition`. -/
def Meets (step : Step σ α) (condition : σ → α → Prop) :
    σ → List α → Prop :=
  Along step fun state label _ => condition state label

/-- `property` holds of the first state and of every state reached. -/
def Always (step : Step σ α) (property : σ → Prop) (state : σ)
    (trace : List α) : Prop :=
  property state ∧ Along step (fun _ _ next => property next) state trace

@[simp] theorem run_nil (step : Step σ α) (state : σ) :
    run step state [] = some state := rfl

theorem run_cons (step : Step σ α) (state : σ) (label : α)
    (rest : List α) :
    run step state (label :: rest) =
      (step state label).bind fun next => run step next rest := rfl

/-- A concatenated trace runs its two parts in turn. -/
theorem run_append (step : Step σ α) (state : σ) (first second : List α) :
    run step state (first ++ second) =
      (run step state first).bind fun middle => run step middle second := by
  induction first generalizing state with
  | nil => rfl
  | cons label rest inductionHypothesis =>
      simp only [List.cons_append, run_cons]
      cases step state label with
      | none => rfl
      | some next => exact inductionHypothesis next

theorem along_cons_of_none {step : Step σ α} {property : σ → α → σ → Prop}
    {state : σ} {label : α} {rest : List α} (stuck : step state label = none) :
    Along step property state (label :: rest) := by
  intro next taken
  rw [stuck] at taken
  cases taken

theorem along_cons_of_some {step : Step σ α} {property : σ → α → σ → Prop}
    {state next : σ} {label : α} {rest : List α}
    (taken : step state label = some next) :
    Along step property state (label :: rest) ↔
      property state label next ∧ Along step property next rest := by
  constructor
  · intro holds
    exact holds next taken
  · intro holds other takenOther
    rw [taken] at takenOther
    cases takenOther
    exact holds

/-- A decidable property is decided along a run by executing it. -/
instance decidableAlong (step : Step σ α) (property : σ → α → σ → Prop)
    [∀ state label next, Decidable (property state label next)] :
    ∀ state trace, Decidable (Along step property state trace)
  | _, [] => isTrue trivial
  | state, label :: rest =>
      match taken : step state label with
      | none => isTrue (along_cons_of_none taken)
      | some next =>
          have : Decidable (Along step property next rest) :=
            decidableAlong step property next rest
          decidable_of_iff' _ (along_cons_of_some taken)

instance (step : Step σ α) (condition : σ → α → Prop)
    [∀ state label, Decidable (condition state label)] (state : σ)
    (trace : List α) : Decidable (Meets step condition state trace) :=
  decidableAlong step (fun state label _ => condition state label) state trace

/-- A property read along a run may be weakened. -/
theorem Along.mono {step : Step σ α} {first second : σ → α → σ → Prop}
    (weaken : ∀ state label next, first state label next →
      second state label next)
    {state : σ} {trace : List α} (holds : Along step first state trace) :
    Along step second state trace := by
  induction trace generalizing state with
  | nil => trivial
  | cons label rest inductionHypothesis =>
      intro next taken
      exact ⟨weaken _ _ _ (holds next taken).1,
        inductionHypothesis (holds next taken).2⟩

/-- An invariant kept by the steps that meet a condition gives every
step-wise consequence along a run that meets it. -/
theorem along_of_invariant {step : Step σ α} {invariant : σ → Prop}
    {condition : σ → α → Prop} {property : σ → α → σ → Prop}
    (kept : ∀ state label next, invariant state → condition state label →
      step state label = some next →
        invariant next ∧ property state label next)
    {state : σ} {trace : List α} (initially : invariant state)
    (meets : Meets step condition state trace) :
    Along step property state trace := by
  induction trace generalizing state with
  | nil => trivial
  | cons label rest inductionHypothesis =>
      intro next taken
      have stepResult := kept state label next initially
        (meets next taken).1 taken
      exact ⟨stepResult.2,
        inductionHypothesis stepResult.1 (meets next taken).2⟩

/-- A property that holds along a run exactly when each step meets the
condition: meeting steps keep the invariant and give the property, and the
first step that does not meet it refutes the property. -/
theorem along_iff_meets {step : Step σ α} {invariant : σ → Prop}
    {condition : σ → α → Prop} {property : σ → α → σ → Prop}
    (kept : ∀ state label next, invariant state → condition state label →
      step state label = some next →
        invariant next ∧ property state label next)
    (broken : ∀ state label next, invariant state →
      ¬ condition state label → step state label = some next →
        ¬ property state label next)
    {state : σ} {trace : List α} (initially : invariant state) :
    Along step property state trace ↔ Meets step condition state trace := by
  refine ⟨fun holds => ?_, along_of_invariant kept initially⟩
  induction trace generalizing state with
  | nil => trivial
  | cons label rest inductionHypothesis =>
      intro next taken
      have met : condition state label := by
        by_contra unmet
        exact broken state label next initially unmet taken
          (holds next taken).1
      exact ⟨met,
        inductionHypothesis (kept state label next initially met taken).1
          (holds next taken).2⟩

/-- The state form of `along_iff_meets`. -/
theorem always_iff_meets {step : Step σ α} {invariant property : σ → Prop}
    {condition : σ → α → Prop}
    (kept : ∀ state label next, invariant state → condition state label →
      step state label = some next → invariant next)
    (good : ∀ state, invariant state → property state)
    (broken : ∀ state label next, invariant state →
      ¬ condition state label → step state label = some next →
        ¬ property next)
    {state : σ} {trace : List α} (initially : invariant state) :
    Always step property state trace ↔ Meets step condition state trace := by
  have along : Along step (fun _ _ next => property next) state trace ↔
      Meets step condition state trace :=
    along_iff_meets
      (fun s label next holds met taken =>
        ⟨kept s label next holds met taken,
          good next (kept s label next holds met taken)⟩)
      broken initially
  exact ⟨fun always => along.mp always.2,
    fun meets => ⟨good state initially, along.mpr meets⟩⟩

/-- Every step of the run meets a condition that may look at the steps taken
before it. -/
def MeetsSoFar (step : Step σ α) (condition : List α → σ → α → Prop)
    (start : σ) (trace : List α) : Prop :=
  ∀ past label future state next, trace = past ++ label :: future →
    run step start past = some state → step state label = some next →
      condition past state label

/-- A property holds along a run if it holds of each step of it. -/
theorem along_iff_forall {step : Step σ α} {property : σ → α → σ → Prop}
    {start : σ} {trace : List α} :
    Along step property start trace ↔
      ∀ past label future state next, trace = past ++ label :: future →
        run step start past = some state → step state label = some next →
          property state label next := by
  induction trace generalizing start with
  | nil =>
      refine ⟨fun _ past label future _ _ split => ?_, fun _ => trivial⟩
      exact absurd split (by simp)
  | cons first rest inductionHypothesis =>
      constructor
      · intro along past label future state next split here taken
        cases past with
        | nil =>
            cases split
            cases here
            exact (along next taken).1
        | cons head more =>
            cases split
            rw [run_cons] at here
            obtain ⟨middle, moved, here⟩ := Option.bind_eq_some_iff.mp here
            exact inductionHypothesis.mp (along middle moved).2 more label
              future state next rfl here taken
      · intro each next taken
        refine ⟨each [] first rest start next rfl rfl taken,
          inductionHypothesis.mpr ?_⟩
        intro past label future state after split here moved
        refine each (first :: past) label future state after ?_ ?_ moved
        · rw [split, List.cons_append]
        · rw [run_cons, taken]
          exact here

/-- What each step of a run keeps holds behind each part of it. -/
theorem invariant_of_steps {step : Step σ α} {start : σ} {trace : List α}
    {invariant : σ → Prop}
    (each : ∀ past label future state next, trace = past ++ label :: future →
      run step start past = some state → step state label = some next →
        invariant state → invariant next)
    (initially : invariant start) (past : List α) :
    ∀ future state, trace = past ++ future → run step start past = some state →
      invariant state := by
  induction past using List.reverseRecOn with
  | nil =>
      intro future state _ here
      cases here
      exact initially
  | append_singleton past label inductionHypothesis =>
      intro future next split here
      rw [run_append] at here
      obtain ⟨state, before, moved⟩ := Option.bind_eq_some_iff.mp here
      obtain ⟨last, taken, ends⟩ := Option.bind_eq_some_iff.mp moved
      cases ends
      have split : trace = past ++ label :: future := by
        rw [split, List.append_assoc, List.singleton_append]
      exact each past label future state next split before taken
        (inductionHypothesis (label :: future) state split before)

/-- `along_iff_meets` for a condition that may look at the past. -/
theorem along_iff_meetsSoFar {step : Step σ α} {start : σ}
    {invariant : σ → Prop} {condition : List α → σ → α → Prop}
    {property : σ → α → σ → Prop}
    (kept : ∀ past state label next, run step start past = some state →
      invariant state → condition past state label →
      step state label = some next →
        invariant next ∧ property state label next)
    (broken : ∀ past state label next, run step start past = some state →
      invariant state → ¬ condition past state label →
      step state label = some next → ¬ property state label next)
    (initially : invariant start) (trace : List α) :
    Along step property start trace ↔
      MeetsSoFar step condition start trace := by
  rw [along_iff_forall]
  constructor
  · intro each
    have met : ∀ past label future state next, trace = past ++ label :: future →
        run step start past = some state → step state label = some next →
          invariant state → condition past state label := by
      intro past label future state next split here taken holds
      by_contra unmet
      exact broken past state label next here holds unmet taken
        (each past label future state next split here taken)
    have holds := invariant_of_steps
      (fun past label future state next split here taken holds =>
        (kept past state label next here holds
          (met past label future state next split here taken holds) taken).1)
      initially
    intro past label future state next split here taken
    exact met past label future state next split here taken
      (holds past (label :: future) state split here)
  · intro meets
    have holds := invariant_of_steps
      (fun past label future state next split here taken holds =>
        (kept past state label next here holds
          (meets past label future state next split here taken) taken).1)
      initially
    intro past label future state next split here taken
    exact (kept past state label next here
      (holds past (label :: future) state split here)
      (meets past label future state next split here taken) taken).2

/-- An invariant kept by the meeting steps holds where a meeting run ends. -/
theorem run_invariant {step : Step σ α} {invariant : σ → Prop}
    {condition : σ → α → Prop}
    (kept : ∀ state label next, invariant state → condition state label →
      step state label = some next → invariant next)
    {state final : σ} {trace : List α} (initially : invariant state)
    (meets : Meets step condition state trace)
    (reached : run step state trace = some final) : invariant final := by
  induction trace generalizing state with
  | nil =>
      cases reached
      exact initially
  | cons label rest inductionHypothesis =>
      rw [run_cons] at reached
      cases taken : step state label with
      | none => simp [taken] at reached
      | some next =>
          rw [taken, Option.bind_some] at reached
          exact inductionHypothesis
            (kept state label next initially (meets next taken).1 taken)
            (meets next taken).2 reached

/-- A property read along a run holds of the step after any executed prefix. -/
theorem along_last {step : Step σ α} {property : σ → α → σ → Prop}
    {state before after : σ} {trace : List α} {label : α}
    (holds : Along step property state (trace ++ [label]))
    (reached : run step state trace = some before)
    (taken : step before label = some after) :
    property before label after := by
  induction trace generalizing state with
  | nil =>
      cases reached
      exact (holds after taken).1
  | cons first rest inductionHypothesis =>
      rw [run_cons] at reached
      cases head : step state first with
      | none => simp [head] at reached
      | some next =>
          rw [head, Option.bind_some] at reached
          exact inductionHypothesis (holds next head).2 reached

/-- A property of every state reached holds where the run ends. -/
theorem always_run {step : Step σ α} {property : σ → Prop}
    {state final : σ} {trace : List α}
    (always : Always step property state trace)
    (reached : run step state trace = some final) : property final := by
  induction trace generalizing state with
  | nil =>
      cases reached
      exact always.1
  | cons label rest inductionHypothesis =>
      rw [run_cons] at reached
      cases taken : step state label with
      | none => simp [taken] at reached
      | some next =>
          rw [taken, Option.bind_some] at reached
          exact inductionHypothesis (always.2 next taken) reached

/-- A condition on the labels alone is met by every run of labels that
satisfy it. -/
theorem meets_of_forall {step : Step σ α} {allowed : α → Prop} {state : σ}
    {trace : List α} (every : ∀ label ∈ trace, allowed label) :
    Meets step (fun _ label => allowed label) state trace := by
  induction trace generalizing state with
  | nil => trivial
  | cons label rest inductionHypothesis =>
      intro next _
      exact ⟨every label (List.mem_cons_self ..),
        inductionHypothesis fun other member =>
          every other (List.mem_cons_of_mem _ member)⟩

/-- An invariant kept by every step holds where a run ends. -/
theorem run_preserves {step : Step σ α} {invariant : σ → Prop}
    (kept : ∀ state label next, invariant state →
      step state label = some next → invariant next)
    {state final : σ} {trace : List α} (initially : invariant state)
    (reached : run step state trace = some final) : invariant final :=
  run_invariant (fun state label next holds (_ : True) taken =>
    kept state label next holds taken) initially
    (meets_of_forall fun _ _ => trivial) reached

/-- A rank that every step of one kind lowers and that a step raises by its
`income` at most bounds how often that kind can be taken. -/
theorem countP_le_rank_add {step : Step σ α} {invariant : σ → Prop}
    {condition : σ → α → Prop} {kind : α → Bool} {income : α → Nat}
    {rank : σ → Nat}
    (kept : ∀ state label next, invariant state → condition state label →
      step state label = some next → invariant next ∧
        rank next + (kind label).toNat ≤ rank state + income label)
    {state final : σ} {trace : List α} (initially : invariant state)
    (meets : Meets step condition state trace)
    (reached : run step state trace = some final) :
    trace.countP kind ≤ rank state + (trace.map income).sum := by
  induction trace generalizing state with
  | nil => exact Nat.zero_le _
  | cons label rest inductionHypothesis =>
      rw [run_cons] at reached
      cases taken : step state label with
      | none => simp [taken] at reached
      | some next =>
          rw [taken, Option.bind_some] at reached
          obtain ⟨invariant, lower⟩ :=
            kept state label next initially (meets next taken).1 taken
          have bound :=
            inductionHypothesis invariant (meets next taken).2 reached
          rw [List.countP_cons, List.map_cons, List.sum_cons]
          cases isKind : kind label with
          | true =>
              rw [isKind, Bool.toNat_true] at lower
              rw [if_pos rfl]
              omega
          | false =>
              rw [isKind, Bool.toNat_false] at lower
              rw [if_neg Bool.false_ne_true]
              omega

/-- What every step of one kind takes from a rank that no step raises can be
taken only so many times. -/
theorem countP_le_rank {step : Step σ α} {invariant : σ → Prop}
    {kind : α → Bool} {rank : σ → Nat}
    (kept : ∀ state label next, invariant state →
      step state label = some next →
        invariant next ∧ rank next + (kind label).toNat ≤ rank state)
    {state final : σ} {trace : List α} (initially : invariant state)
    (reached : run step state trace = some final) :
    trace.countP kind ≤ rank state := by
  have bound := @countP_le_rank_add _ _ step invariant (fun _ _ => True) kind
    (fun _ => 0) rank
    (fun state label next holds _ taken => kept state label next holds taken)
    state final trace initially (meets_of_forall fun _ _ => trivial) reached
  simpa using bound

end Transition
