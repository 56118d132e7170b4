/-
Module: FameZ.Lib.Jiffies
Purpose: Comparing two readings of a tick counter that wraps around, by the sign
  of their difference.
Trusted boundary: none
Main exports: Jiffies.timeBefore, timeBefore_ofNat_iff, timeBefore_zero_iff
-/
import Mathlib.Data.BitVec

namespace Jiffies

variable {w : Nat}

/-- `(long)(a - b) < 0`. -/
def timeBefore (a b : BitVec w) : Prop := (a - b).toInt < 0

instance (a b : BitVec w) : Decidable (timeBefore a b) :=
  inferInstanceAs (Decidable (_ < _))

/-- The difference of two readings, when it fits a signed word. -/
theorem toInt_sub_ofNat {x y : Nat} (behind : 2 * y ≤ 2 * x + 2 ^ w)
    (ahead : 2 * x < 2 * y + 2 ^ w) :
    (BitVec.ofNat w x - BitVec.ofNat w y).toInt = (x : Int) - y := by
  have modular : (BitVec.ofNat w x - BitVec.ofNat w y).toInt =
      ((x : Int) - y).bmod (2 ^ w) := by
    rw [BitVec.toInt_sub, BitVec.toInt_ofNat', BitVec.toInt_ofNat',
      Int.bmod_sub_bmod, Int.sub_bmod_bmod]
  rw [modular]
  have low : (2 * y : Int) ≤ 2 * x + (2 ^ w : Nat) := by exact_mod_cast behind
  have high : (2 * x : Int) < 2 * y + (2 ^ w : Nat) := by exact_mod_cast ahead
  apply Int.bmod_eq_of_le_mul_two
  · omega
  · omega

/-- Readings less than half the range apart compare as the true counts do. -/
theorem timeBefore_ofNat_iff {x y : Nat} (behind : 2 * y ≤ 2 * x + 2 ^ w)
    (ahead : 2 * x < 2 * y + 2 ^ w) :
    timeBefore (BitVec.ofNat w x) (BitVec.ofNat w y) ↔ x < y := by
  rw [timeBefore, toInt_sub_ofNat behind ahead]
  omega

/-- Zero, which is no reading, counts as before half of the counter. -/
theorem timeBefore_zero_iff (t : BitVec w) :
    timeBefore 0 t ↔ 1 ≤ t.toNat ∧ 2 * t.toNat ≤ 2 ^ w := by
  have bound := t.isLt
  have difference : (0 - t).toNat = (2 ^ w - t.toNat) % 2 ^ w := by
    simp
  rw [timeBefore, BitVec.toInt_neg_iff, difference]
  rcases Nat.eq_zero_or_pos t.toNat with zero | positive
  · simp [zero]
  · rw [Nat.mod_eq_of_lt (by omega)]
    omega

end Jiffies
