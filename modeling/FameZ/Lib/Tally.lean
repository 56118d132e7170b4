/-
Module: FameZ.Lib.Tally
Purpose: A counter that many parties raise and lower, as the sum of what each of
  them adds to it.
Trusted boundary: none
Main exports: Tally.Counts, counts_of_none, Counts.update, Counts.nonneg,
  Counts.le, Counts.eq_zero_iff
-/
import Mathlib.Algebra.BigOperators.Group.Finset.Piecewise
import Mathlib.Algebra.Order.BigOperators.Group.Finset

namespace Tally

variable {α : Type*} {weight : α → Nat} {party : Nat → α} {total : Int}

/-- The counter stands at the sum of the weights; all but finitely many parties
weigh nothing. -/
def Counts (weight : α → Nat) (party : Nat → α) (total : Int) : Prop :=
  ∃ n, (∀ i, n ≤ i → weight (party i) = 0) ∧
    total = (∑ i ∈ Finset.range n, weight (party i) : Nat)

theorem counts_of_none (none : ∀ i, weight (party i) = 0) :
    Counts weight party 0 :=
  ⟨0, fun i _ => none i, rfl⟩

/-- The sum may be taken far enough to meet any one party. -/
theorem Counts.reach (counts : Counts weight party total) (i : Nat) :
    ∃ n, i < n ∧ (∀ j, n ≤ j → weight (party j) = 0) ∧
      total = (∑ j ∈ Finset.range n, weight (party j) : Nat) := by
  obtain ⟨n, rest, sum⟩ := counts
  refine ⟨max n (i + 1), Nat.lt_of_lt_of_le (Nat.lt_succ_self i)
    (Nat.le_max_right ..), ?_, ?_⟩
  · intro j beyond
    exact rest j (Nat.le_trans (Nat.le_max_left ..) beyond)
  · rw [sum, Finset.sum_subset (Finset.range_mono (Nat.le_max_left n (i + 1)))]
    intro j _ outside
    exact rest j (Nat.le_of_not_lt fun inside =>
      outside (Finset.mem_range.mpr inside))

/-- One party changes. -/
theorem Counts.update (counts : Counts weight party total) (i : Nat) (new : α) :
    Counts weight (Function.update party i new)
      (total + weight new - weight (party i)) := by
  obtain ⟨n, inside, rest, sum⟩ := counts.reach i
  have member : i ∈ Finset.range n := Finset.mem_range.mpr inside
  refine ⟨n, ?_, ?_⟩
  · intro j beyond
    rw [Function.update_of_ne (by omega)]
    exact rest j beyond
  · have weighed : ∀ j, weight (Function.update party i new j) =
        Function.update (fun j => weight (party j)) i (weight new) j := by
      intro j
      by_cases same : j = i
      · rw [same, Function.update_self, Function.update_self]
      · rw [Function.update_of_ne same, Function.update_of_ne same]
    simp only [weighed]
    rw [Finset.sum_update_of_mem member, sum,
      ← Finset.add_sum_erase _ _ member, Finset.sdiff_singleton_eq_erase]
    omega

theorem Counts.nonneg (counts : Counts weight party total) : 0 ≤ total := by
  obtain ⟨n, -, sum⟩ := counts
  rw [sum]
  exact Int.natCast_nonneg _

/-- No party weighs more than the counter. -/
theorem Counts.le (counts : Counts weight party total) (i : Nat) :
    (weight (party i) : Int) ≤ total := by
  obtain ⟨n, inside, -, sum⟩ := counts.reach i
  rw [sum]
  apply Int.ofNat_le.mpr
  exact Finset.single_le_sum (f := fun j => weight (party j))
    (fun _ _ => Nat.zero_le _) (Finset.mem_range.mpr inside)

/-- The counter is at zero when nobody weighs anything. -/
theorem Counts.eq_zero_iff (counts : Counts weight party total) :
    total = 0 ↔ ∀ i, weight (party i) = 0 := by
  constructor
  · intro zero i
    have below := counts.le i
    omega
  · intro none
    obtain ⟨n, -, sum⟩ := counts
    rw [sum, Finset.sum_eq_zero fun i _ => none i]
    rfl

end Tally
