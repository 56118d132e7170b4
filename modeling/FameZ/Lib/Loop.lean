/-
Module: FameZ.Lib.Loop
Purpose: While loops with fuel, by the number of passes they make, and the
  loop that looks for a key.
Trusted boundary: none
Main exports: Loop.run, Loop.Exits, run_eq_some_iff, find?_key
-/
import Mathlib.Logic.Function.Iterate

namespace Loop

variable {σ : Type*}

/-- `while (continues) body`; `none` says the fuel is spent. -/
def run (continues : σ → Prop) [DecidablePred continues] (body : σ → σ) :
    Nat → σ → Option σ
  | 0, _ => none
  | fuel + 1, state =>
      if continues state then run continues body fuel (body state)
      else some state

/-- The loop is left after `n` passes. -/
structure Exits (continues : σ → Prop) (body : σ → σ) (state : σ)
    (n : Nat) : Prop where
  before : ∀ m, m < n → continues (body^[m] state)
  here : ¬ continues (body^[n] state)

variable {continues : σ → Prop} {body : σ → σ} {state : σ} {n : Nat}

theorem exits_zero : Exits continues body state 0 ↔ ¬ continues state :=
  ⟨fun exits => exits.here, fun stops => ⟨fun _ early => by omega, stops⟩⟩

theorem exits_succ : Exits continues body state (n + 1) ↔
    continues state ∧ Exits continues body (body state) n := by
  constructor
  · intro exits
    refine ⟨exits.before 0 (Nat.succ_pos n), fun m early => ?_, exits.here⟩
    exact exits.before (m + 1) (Nat.succ_lt_succ early)
  · rintro ⟨first, exits⟩
    refine ⟨fun m early => ?_, exits.here⟩
    cases m with
    | zero => exact first
    | succ m => exact exits.before m (Nat.lt_of_succ_lt_succ early)

/-- A loop that some pass would end is left at the first such pass. -/
theorem exists_exits (stops : ¬ continues (body^[n] state)) :
    ∃ m, m ≤ n ∧ Exits continues body state m := by
  induction n generalizing state with
  | zero => exact ⟨0, Nat.le_refl 0, exits_zero.mpr stops⟩
  | succ n inductionHypothesis =>
      by_cases first : continues state
      · obtain ⟨m, early, exits⟩ := inductionHypothesis stops
        exact ⟨m + 1, Nat.succ_le_succ early, exits_succ.mpr ⟨first, exits⟩⟩
      · exact ⟨0, Nat.zero_le _, exits_zero.mpr first⟩

variable [DecidablePred continues]

/-- A loop returns what it is left with, when the fuel covers its passes. -/
theorem run_eq_some_iff {fuel : Nat} {result : σ} :
    run continues body fuel state = some result ↔
      ∃ n, n < fuel ∧ Exits continues body state n ∧
        body^[n] state = result := by
  induction fuel generalizing state with
  | zero => simp [run]
  | succ fuel inductionHypothesis =>
      rw [run]
      by_cases first : continues state
      · rw [if_pos first, inductionHypothesis]
        constructor
        · rintro ⟨n, early, exits, reaches⟩
          exact ⟨n + 1, Nat.succ_lt_succ early,
            exits_succ.mpr ⟨first, exits⟩, reaches⟩
        · rintro ⟨n, early, exits, reaches⟩
          cases n with
          | zero => exact absurd first (exits_zero.mp exits)
          | succ n =>
              exact ⟨n, Nat.lt_of_succ_lt_succ early,
                (exits_succ.mp exits).2, reaches⟩
      · rw [if_neg first]
        constructor
        · intro returned
          cases returned
          exact ⟨0, Nat.succ_pos fuel, exits_zero.mpr first, rfl⟩
        · rintro ⟨n, -, exits, reaches⟩
          cases n with
          | zero => exact congrArg some reaches
          | succ n => exact absurd (exits_succ.mp exits).1 first

/-- The search for a key that no two entries share finds its entry. -/
theorem find?_key {α κ : Type*} [DecidableEq κ] {key : α → κ}
    {entries : List α} {entry : α}
    (distinct : ∀ other, key entry = key other → entry = other)
    (member : entry ∈ entries) :
    (entries.find? fun other => decide (key entry = key other)) =
      some entry := by
  cases search : entries.find? fun other =>
      decide (key entry = key other) with
  | none =>
      have missing := List.find?_eq_none.mp search entry member
      exact absurd (decide_eq_true rfl) missing
  | some other =>
      have same := List.find?_some search
      rw [distinct other (of_decide_eq_true same)]

end Loop
