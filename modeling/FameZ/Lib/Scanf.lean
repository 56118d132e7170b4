/-
Module: FameZ.Lib.Scanf
Purpose: Decimal text, and C formatted input and output restricted to literal
  characters and 32-bit decimal conversions, with their round trips.
Trusted boundary: none
Main exports: Scanf.decimal, digitsSpan, scanInt, formatInt, sscanf, sprintf,
  sscanf_literal, sscanf_space, sscanf_decimal
-/
import Mathlib.Algebra.Group.Int.Defs
import Mathlib.Algebra.Group.Nat.Defs
import Mathlib.Data.List.Basic

namespace Scanf

/-! ### Decimal text -/

/-- The decimal digits of a number. -/
def decimal (n : Nat) : List Char := Nat.toDigits 10 n

/-- The longest prefix of digits and what follows it. -/
def digitsSpan (text : List Char) : List Char × List Char :=
  (text.takeWhile Char.isDigit, text.dropWhile Char.isDigit)

/-- The number a digit string denotes. -/
def digitsValue (digits : List Char) : Nat := Nat.ofDigitChars 10 digits 0

/-- The text does not go on with a digit. -/
def StopsDigits (text : List Char) : Prop :=
  ∀ c rest, text = c :: rest → c.isDigit = false

theorem decimal_ne_nil (n : Nat) : decimal n ≠ [] := Nat.toDigits_ne_nil

theorem isDigit_of_mem_decimal {n : Nat} {c : Char} (member : c ∈ decimal n) :
    c.isDigit = true :=
  Nat.isDigit_of_mem_toDigits (by decide) (by decide) member

@[simp] theorem digitsValue_decimal (n : Nat) :
    digitsValue (decimal n) = n := Nat.ofDigitChars_ten_toDigits

theorem decimal_injective {m n : Nat} (same : decimal m = decimal n) :
    m = n := by
  rw [← digitsValue_decimal m, same, digitsValue_decimal]

/-- The digits of a text that starts with digits only. -/
theorem digitsSpan_append {digits rest : List Char}
    (every : ∀ c ∈ digits, c.isDigit = true) (stops : StopsDigits rest) :
    digitsSpan (digits ++ rest) = (digits, rest) := by
  rw [digitsSpan, List.takeWhile_append_of_pos every,
    List.dropWhile_append_of_pos every]
  cases rest with
  | nil => simp
  | cons c tail =>
      have ends := stops c tail rfl
      simp [ends]

theorem digitsSpan_decimal (n : Nat) {rest : List Char}
    (stops : StopsDigits rest) :
    digitsSpan (decimal n ++ rest) = (decimal n, rest) :=
  digitsSpan_append (fun _ member => isDigit_of_mem_decimal member) stops

/-! ### Conversions -/

/-- C `isspace` of a byte. -/
def isSpace (c : Char) : Bool :=
  c.toNat ∈ [9, 10, 11, 12, 13, 32, 160]

def skipSpaces (text : List Char) : List Char := text.dropWhile isSpace

/-- `%d` into a 32-bit integer: the digits are accumulated without an overflow
check and truncated. -/
def scanInt (text : List Char) : Option (UInt32 × List Char) :=
  match text with
  | '-' :: rest =>
      let (digits, after) := digitsSpan rest
      if digits = [] then none
      else some (0 - UInt32.ofNat (digitsValue digits), after)
  | _ =>
      let (digits, after) := digitsSpan text
      if digits = [] then none
      else some (UInt32.ofNat (digitsValue digits), after)

/-- `%d` of a 32-bit integer. -/
def formatInt (value : UInt32) : List Char :=
  if value.toNat < 2 ^ 31 then decimal value.toNat
  else '-' :: decimal (2 ^ 32 - value.toNat)

/-- The values converted until the text and the format disagree. -/
def sscanf : List Char → List Char → List UInt32
  | [], _ => []
  | '%' :: 'd' :: format, text =>
      match scanInt (skipSpaces text) with
      | some (value, rest) => value :: sscanf format rest
      | none => []
  | expected :: format, text =>
      if isSpace expected then sscanf format (skipSpaces text)
      else
        match text with
        | found :: rest => if expected = found then sscanf format rest else []
        | [] => []

/-- Print the values in the places of the conversions. -/
def sprintf : List Char → List UInt32 → List Char
  | [], _ => []
  | '%' :: 'd' :: format, value :: values =>
      formatInt value ++ sprintf format values
  | c :: format, values => c :: sprintf format values

/-- A number below `2 ^ 31` is printed as its digits. -/
theorem formatInt_of_lt {value : UInt32} (small : value.toNat < 2 ^ 31) :
    formatInt value = decimal value.toNat := if_pos small

theorem skipSpaces_of_not_isSpace {c : Char} (text : List Char)
    (visible : isSpace c = false) : skipSpaces (c :: text) = c :: text := by
  simp [skipSpaces, visible]

theorem isSpace_of_isDigit {c : Char} (digit : c.isDigit = true) :
    isSpace c = false := by
  simp only [Char.isDigit, Bool.and_eq_true, decide_eq_true_eq] at digit
  have low : 48 ≤ c.toNat := digit.1
  have high : c.toNat ≤ 57 := digit.2
  simp only [isSpace, List.mem_cons, List.not_mem_nil, or_false,
    decide_eq_false_iff_not]
  omega

theorem not_minus_of_isDigit {c : Char} (digit : c.isDigit = true) :
    c ≠ '-' := by
  rintro rfl
  exact absurd digit (by decide)

/-- Leading digits are no white space. -/
theorem skipSpaces_decimal (n : Nat) (rest : List Char) :
    skipSpaces (decimal n ++ rest) = decimal n ++ rest := by
  cases digits : decimal n with
  | nil => exact False.elim (decimal_ne_nil n digits)
  | cons c tail =>
      have digit : c.isDigit = true :=
        isDigit_of_mem_decimal (digits ▸ List.mem_cons_self ..)
      exact skipSpaces_of_not_isSpace _ (isSpace_of_isDigit digit)

/-- Reading back the digits of any number keeps its low 32 bits. -/
theorem scanInt_decimal (n : Nat) {rest : List Char}
    (stops : StopsDigits rest) :
    scanInt (skipSpaces (decimal n ++ rest)) =
      some (UInt32.ofNat n, rest) := by
  rw [skipSpaces_decimal]
  have whole := digitsSpan_decimal n stops
  cases digits : decimal n with
  | nil => exact False.elim (decimal_ne_nil n digits)
  | cons c tail =>
      have digit : c.isDigit = true :=
        isDigit_of_mem_decimal (digits ▸ List.mem_cons_self ..)
      rw [digits] at whole
      have value : digitsValue (c :: tail) = n := by
        rw [← digits, digitsValue_decimal]
      rw [scanInt]
      · rw [whole]
        simp [value]
      · intro other equal
        exact not_minus_of_isDigit digit (List.cons.inj equal).1

/-- A literal character of the format that is no white space. -/
theorem sscanf_literal {c : Char} (format text : List Char)
    (plain : c ≠ '%') (visible : isSpace c = false) :
    sscanf (c :: format) (c :: text) = sscanf format text := by
  rw [sscanf]
  · simp [visible]
  · intro rest equal _
    exact plain equal

/-- White space of the format skips white space of the text. -/
theorem sscanf_space {c : Char} (format text : List Char)
    (plain : c ≠ '%') (space : isSpace c = true) :
    sscanf (c :: format) text = sscanf format (skipSpaces text) := by
  conv_lhs => unfold sscanf
  split
  · rename_i empty
    cases empty
  · rename_i equal
    exact False.elim (plain (List.cons.inj equal).1)
  · rename_i equal
    cases equal
    simp [space]

theorem sscanf_decimal (n : Nat) (format : List Char) {rest : List Char}
    (stops : StopsDigits rest) :
    sscanf ('%' :: 'd' :: format) (decimal n ++ rest) =
      UInt32.ofNat n :: sscanf format rest := by
  rw [sscanf, scanInt_decimal n stops]

/-- Characters of a format that match themselves only. -/
def Literal (text : List Char) : Prop :=
  ∀ c ∈ text, c ≠ '%' ∧ isSpace c = false

instance (text : List Char) : Decidable (Literal text) :=
  List.decidableBAll _ text

/-- A stretch of literal characters without white space. -/
theorem sscanf_literals {literal : List Char} (format text : List Char)
    (plain : Literal literal) :
    sscanf (literal ++ format) (literal ++ text) = sscanf format text := by
  induction literal with
  | nil => rfl
  | cons c rest inductionHypothesis =>
      have here := plain c (List.mem_cons_self ..)
      rw [List.cons_append, List.cons_append,
        sscanf_literal _ _ here.1 here.2,
        inductionHypothesis fun other member =>
          plain other (List.mem_cons_of_mem _ member)]

/-- Literal characters are printed as they are. -/
theorem sprintf_literals {literal : List Char} (format : List Char)
    (values : List UInt32) (plain : '%' ∉ literal) :
    sprintf (literal ++ format) values =
      literal ++ sprintf format values := by
  induction literal with
  | nil => rfl
  | cons c rest inductionHypothesis =>
      rw [List.mem_cons, not_or] at plain
      rw [List.cons_append, List.cons_append, ← inductionHypothesis plain.2]
      rw [sprintf]
      intro tail value later _ percent _
      exact plain.1 percent.symm

theorem sprintf_decimal (format : List Char) (value : UInt32)
    (values : List UInt32) :
    sprintf ('%' :: 'd' :: format) (value :: values) =
      formatInt value ++ sprintf format values := by
  rw [sprintf]

end Scanf
