/-
Module: FameZ.Lib.Kstrto
Purpose: The strict integer parsers of the kernel, with the radix taken from
  the text or given, and what they make of decimal digits.
Trusted boundary: the translation of kstrtoint with a base of zero and of
  kstrtou16
Main exports: Kstrto.Error, kstrtoull, kstrtoll, kstrtoint, kstrtou16,
  kstrtoint_decimal
-/
import FameZ.Lib.Scanf
import Mathlib.Data.List.TakeWhile

namespace Kstrto

open Scanf (decimal)

inductive Error where
  | einval
  | erange
deriving Repr, DecidableEq

/-- The value of a digit in any radix up to sixteen. -/
def digitOf (c : Char) : Option Nat :=
  if c.isDigit then some (c.toNat - 48)
  else if 97 ≤ c.toNat ||| 32 ∧ c.toNat ||| 32 ≤ 102 then
    some ((c.toNat ||| 32) - 87)
  else none

def isDigitOf (base : Nat) (c : Char) : Bool :=
  match digitOf c with
  | some digit => decide (digit < base)
  | none => false

/-- The radix, and the text that is left of its mark.  The zero of an octal
number counts as a digit. -/
def fixupRadix : List Char → Nat × List Char
  | '0' :: x :: digit :: rest =>
      if x.toNat ||| 32 = 120 ∧ isDigitOf 16 digit then (16, digit :: rest)
      else (8, '0' :: x :: digit :: rest)
  | '0' :: rest => (8, '0' :: rest)
  | text => (10, text)

def valueOf (base : Nat) (digits : List Char) : Nat :=
  digits.foldl (fun value c => value * base + (digitOf c).getD 0) 0

/-- `_kstrtoull` with a base of zero.  One newline may end the text. -/
def unsignedNumber (text : List Char) : Except Error Nat :=
  match fixupRadix text with
  | (base, text) =>
      let digits := text.takeWhile (isDigitOf base)
      let rest := text.dropWhile (isDigitOf base)
      if 2 ^ 64 ≤ valueOf base digits then .error .erange
      else if digits = [] then .error .einval
      else if rest = [] ∨ rest = ['\n'] then .ok (valueOf base digits)
      else .error .einval

def kstrtoull : List Char → Except Error Nat
  | '+' :: text => unsignedNumber text
  | text => unsignedNumber text

def kstrtoll : List Char → Except Error Int
  | '-' :: text =>
      match unsignedNumber text with
      | .error error => .error error
      | .ok value => if 2 ^ 63 < value then .error .erange else .ok (-value)
  | text =>
      match kstrtoull text with
      | .error error => .error error
      | .ok value => if 2 ^ 63 ≤ value then .error .erange else .ok value

def kstrtoint (text : List Char) : Except Error Int :=
  match kstrtoll text with
  | .error error => .error error
  | .ok value =>
      if -2 ^ 31 ≤ value ∧ value < 2 ^ 31 then .ok value else .error .erange

/-- `_kstrtoull` with a base that is given. -/
def numberIn (base : Nat) (text : List Char) : Except Error Nat :=
  let digits := text.takeWhile (isDigitOf base)
  let rest := text.dropWhile (isDigitOf base)
  if 2 ^ 64 ≤ valueOf base digits then .error .erange
  else if digits = [] then .error .einval
  else if rest = [] ∨ rest = ['\n'] then .ok (valueOf base digits)
  else .error .einval

/-- `kstrtou16`. -/
def kstrtou16 (base : Nat) (text : List Char) : Except Error Nat :=
  let number :=
    match text with
    | '+' :: text => numberIn base text
    | text => numberIn base text
  match number with
  | .error error => .error error
  | .ok value => if value < 2 ^ 16 then .ok value else .error .erange

example : kstrtoint "-0x2A".toList = .ok (-42) := by decide

example : kstrtou16 10 "010\n".toList = .ok 10 := by decide

example : kstrtoint "010".toList = .ok 8 := by decide

theorem kstrtoint_range {text : List Char} {value : Int}
    (parsed : kstrtoint text = .ok value) :
    -2 ^ 31 ≤ value ∧ value < 2 ^ 31 := by
  unfold kstrtoint at parsed
  split at parsed
  · cases parsed
  · split at parsed
    · rename_i inside
      cases parsed
      exact inside
    · cases parsed

/-! ### Decimal digits -/

theorem digitOf_of_isDigit {c : Char} (digit : c.isDigit = true) :
    digitOf c = some (c.toNat - 48) := if_pos digit

theorem isDigitOf_ten {c : Char} (digit : c.isDigit = true) :
    isDigitOf 10 c = true := by
  rw [isDigitOf, digitOf_of_isDigit digit]
  simp only [Char.isDigit, Bool.and_eq_true, decide_eq_true_eq] at digit
  have high : c.toNat ≤ 57 := digit.2
  apply decide_eq_true
  omega

theorem foldl_valueOf {digits : List Char}
    (every : ∀ c ∈ digits, c.isDigit = true) (start : Nat) :
    digits.foldl (fun value c => value * 10 + (digitOf c).getD 0) start =
      Nat.ofDigitChars 10 digits start := by
  induction digits generalizing start with
  | nil => rfl
  | cons c rest inductionHypothesis =>
      have digit := every c (List.mem_cons_self ..)
      have later := inductionHypothesis fun other member =>
        every other (List.mem_cons_of_mem _ member)
      rw [List.foldl_cons, later, digitOf_of_isDigit digit,
        Nat.ofDigitChars_cons, Nat.mul_comm]
      rfl

theorem valueOf_decimal (n : Nat) : valueOf 10 (decimal n) = n := by
  rw [valueOf, foldl_valueOf fun _ member =>
    Scanf.isDigit_of_mem_decimal member]
  exact Scanf.digitsValue_decimal n

/-- A positive number is printed without a leading zero. -/
theorem decimal_leads {n : Nat} (positive : 0 < n) :
    ∃ c rest, decimal n = c :: rest ∧ c ≠ '0' := by
  induction n using Nat.strongRecOn with
  | ind n inductionHypothesis =>
      rw [decimal, Nat.toDigits_eq_if (by decide)]
      split
      · rename_i small
        have leads : ∀ digit < 10, 0 < digit → digit.digitChar ≠ '0' := by
          decide
        exact ⟨n.digitChar, [], rfl, leads n small positive⟩
      · rename_i large
        obtain ⟨c, rest, digits, leads⟩ :=
          inductionHypothesis (n / 10) (by omega) (by omega)
        rw [decimal] at digits
        rw [digits]
        exact ⟨c, rest ++ [(n % 10).digitChar], rfl, leads⟩

theorem fixupRadix_decimal {n : Nat} (positive : 0 < n) :
    fixupRadix (decimal n) = (10, decimal n) := by
  obtain ⟨c, rest, digits, leads⟩ := decimal_leads positive
  rw [digits]
  unfold fixupRadix
  split
  · rename_i equal
    exact absurd (List.cons.inj equal).1 leads
  · rename_i equal
    exact absurd (List.cons.inj equal).1 leads
  · rfl

theorem unsignedNumber_decimal (n : Nat) :
    unsignedNumber (decimal n) =
      if 2 ^ 64 ≤ n then .error .erange else .ok n := by
  rcases Nat.eq_zero_or_pos n with rfl | positive
  · rfl
  · have digits : ∀ c ∈ decimal n, isDigitOf 10 c = true := fun c member =>
      isDigitOf_ten (Scanf.isDigit_of_mem_decimal member)
    have every := List.takeWhile_eq_self_iff.mpr digits
    have nothing := List.dropWhile_eq_nil_iff.mpr digits
    rw [unsignedNumber, fixupRadix_decimal positive]
    dsimp only
    rw [every, nothing, valueOf_decimal,
      if_neg (Scanf.decimal_ne_nil n), if_pos (Or.inl rfl)]

/-- Neither sign is a digit. -/
theorem kstrtoll_decimal (n : Nat) :
    kstrtoll (decimal n) =
      if 2 ^ 63 ≤ n then .error .erange else .ok n := by
  have unsigned := unsignedNumber_decimal n
  have first : ∀ c rest, decimal n = c :: rest → c ≠ '-' ∧ c ≠ '+' := by
    intro c rest digits
    have digit : c.isDigit = true :=
      Scanf.isDigit_of_mem_decimal (digits ▸ List.mem_cons_self ..)
    refine ⟨?_, ?_⟩
    · rintro rfl
      exact absurd digit (by decide)
    · rintro rfl
      exact absurd digit (by decide)
  have positive : kstrtoull (decimal n) = unsignedNumber (decimal n) := by
    unfold kstrtoull
    split
    · rename_i equal
      exact absurd rfl (first _ _ equal).2
    · rfl
  unfold kstrtoll
  split
  · rename_i equal
    exact absurd rfl (first _ _ equal).1
  · rw [positive, unsigned]
    by_cases huge : 2 ^ 64 ≤ n
    · rw [if_pos huge, if_pos (by omega)]
    · rw [if_neg huge]

/-- What the parser makes of the digits of any number. -/
theorem kstrtoint_decimal (n : Nat) :
    kstrtoint (decimal n) =
      if n < 2 ^ 31 then .ok n else .error .erange := by
  rw [kstrtoint, kstrtoll_decimal]
  by_cases huge : 2 ^ 63 ≤ n
  · rw [if_pos huge, if_neg (by omega)]
  · rw [if_neg huge]
    dsimp only
    by_cases small : n < 2 ^ 31
    · rw [if_pos small, if_pos (by omega)]
    · rw [if_neg small, if_neg (by omega)]

end Kstrto
