/-
Module: FameZ.Lib.PyText
Purpose: The text functions of Python that split, strip and convert, on lists
  of characters, with their laws on formatted text.
Trusted boundary: none
Main exports: PyText.Text, strip, fields, splitToken, replaceChar, decimalInt,
  int?, fields_append, splitToken_append, int?_decimalInt
-/
import FameZ.Lib.Scanf
import Mathlib.Data.List.Basic

namespace PyText

open Scanf (decimal digitsValue isDigit_of_mem_decimal decimal_ne_nil
  digitsValue_decimal)

abbrev Text := List Char

/-- The characters `str.isspace` accepts. -/
def isSpace (c : Char) : Bool :=
  c.toNat ∈ [9, 10, 11, 12, 13, 28, 29, 30, 31, 32, 133, 160, 5760, 8232,
    8233, 8239, 8287, 12288] ||
  (8192 ≤ c.toNat && c.toNat ≤ 8202)

/-- A text without white space. -/
def Visible (text : Text) : Prop := ∀ c ∈ text, isSpace c = false

instance (text : Text) : Decidable (Visible text) :=
  List.decidableBAll _ text

/-- The text without the characters of a kind at its ends. -/
def stripOf (space : Char → Bool) (text : Text) : Text :=
  ((text.dropWhile space).reverse.dropWhile space).reverse

/-- `strip()`. -/
def strip (text : Text) : Text := stripOf isSpace text

/-- `split()`: the words between white space. -/
def fields (text : Text) : List Text :=
  (text.splitOnP isSpace).filter fun word => decide (word ≠ [])

/-- `split(token)`, with `skip` characters of a token found still to pass. -/
def splitTokenFrom (token : Text) : Nat → Text → List Text
  | _, [] => [[]]
  | skip + 1, _ :: rest => splitTokenFrom token skip rest
  | 0, c :: rest =>
      if token.isPrefixOf (c :: rest) then
        [] :: splitTokenFrom token (token.length - 1) rest
      else (splitTokenFrom token 0 rest).modifyHead (c :: ·)

/-- `split(token)` for a token that is not empty. -/
def splitToken (token text : Text) : List Text := splitTokenFrom token 0 text

/-- `replace(old, new)` of single characters. -/
def replaceChar (old new : Char) (text : Text) : Text :=
  text.map fun c => if c = old then new else c

/-- `'%d' % value`. -/
def decimalInt : Int → Text
  | .ofNat n => decimal n
  | .negSucc n => '-' :: decimal (n + 1)

/-- The zeros of the decimal digits of Unicode 14; every other digit follows
its zero. -/
def decimalZeros : List Nat :=
  [48, 1632, 1776, 1984, 2406, 2534, 2662, 2790, 2918, 3046, 3174, 3302, 3430,
    3558, 3664, 3792, 3872, 4160, 4240, 6112, 6160, 6470, 6608, 6784, 6800,
    6992, 7088, 7232, 7248, 42528, 43216, 43264, 43472, 43504, 43600, 44016,
    65296, 66720, 68912, 69734, 69872, 69942, 70096, 70384, 70736, 70864,
    71248, 71360, 71472, 71904, 72016, 72784, 73040, 73120, 92768, 92864,
    93008, 120782, 120792, 120802, 120812, 120822, 123200, 123632, 125264,
    130032]

/-- The value of a decimal digit. -/
def digit? (c : Char) : Option Nat :=
  (decimalZeros.find? fun start =>
    decide (start ≤ c.toNat ∧ c.toNat < start + 10)).map fun start =>
      c.toNat - start

/-- The number that digits denote, the highest first. -/
def ofDigits (digits : List Nat) : Nat :=
  digits.foldl (fun value digit => 10 * value + digit) 0

/-- Digits, in groups joined by single underscores. -/
def nat? (text : Text) : Option Nat :=
  let groups := text.splitOn '_'
  if groups.all fun group => decide (group ≠ []) then
    (groups.flatten.mapM digit?).map ofDigits
  else none

/-- What `int` passes over at the ends: the separators of ASCII are no white
space there. -/
def intSpace (c : Char) : Bool :=
  isSpace c && !decide (28 ≤ c.toNat ∧ c.toNat ≤ 31)

/-- `int(text)`; `none` is a ValueError. -/
def int? (text : Text) : Option Int :=
  match stripOf intSpace text with
  | '-' :: digits => (nat? digits).map fun n => -Int.ofNat n
  | '+' :: digits => (nat? digits).map Int.ofNat
  | digits => (nat? digits).map Int.ofNat

/-! ### Visible text -/

theorem visible_append {first second : Text} :
    Visible (first ++ second) ↔ Visible first ∧ Visible second := by
  simp [Visible, or_imp, forall_and]

theorem isSpace_of_isDigit {c : Char} (digit : c.isDigit = true) :
    isSpace c = false := by
  simp only [Char.isDigit, Bool.and_eq_true, decide_eq_true_eq] at digit
  have low : 48 ≤ c.toNat := digit.1
  have high : c.toNat ≤ 57 := digit.2
  simp only [isSpace, List.mem_cons, List.not_mem_nil, or_false,
    Bool.or_eq_false_iff, decide_eq_false_iff_not, Bool.and_eq_false_iff]
  omega

theorem visible_decimal (n : Nat) : Visible (decimal n) :=
  fun _ member => isSpace_of_isDigit (isDigit_of_mem_decimal member)

theorem visible_decimalInt (value : Int) : Visible (decimalInt value) := by
  cases value with
  | ofNat n => exact visible_decimal n
  | negSucc n =>
      intro c member
      rcases List.mem_cons.mp member with rfl | inside
      · rfl
      · exact visible_decimal (n + 1) c inside

/-- A character that is neither a digit nor the sign. -/
theorem not_mem_decimalInt {c : Char} (value : Int)
    (digit : c.isDigit = false) (sign : c ≠ '-') :
    c ∉ decimalInt value := by
  intro member
  have inDigits : ∀ n, c ∉ decimal n := by
    intro n inside
    rw [isDigit_of_mem_decimal inside] at digit
    cases digit
  cases value with
  | ofNat n => exact inDigits n member
  | negSucc n =>
      rcases List.mem_cons.mp member with same | inside
      · exact sign same
      · exact inDigits (n + 1) inside

theorem stripOf_of_absent {space : Char → Bool} {text : Text}
    (absent : ∀ c ∈ text, space c = false) : stripOf space text = text := by
  have kept : ∀ {chars : Text}, (∀ c ∈ chars, space c = false) →
      chars.dropWhile space = chars := by
    intro chars none?
    cases chars with
    | nil => rfl
    | cons c rest =>
        apply List.dropWhile_cons_of_neg
        rw [none? c (List.mem_cons_self ..)]
        exact Bool.false_ne_true
  have reversed : ∀ c ∈ text.reverse, space c = false := fun c member =>
    absent c (List.mem_reverse.mp member)
  rw [stripOf, kept absent, kept reversed, List.reverse_reverse]

theorem strip_of_visible {text : Text} (visible : Visible text) :
    strip text = text := stripOf_of_absent visible

/-! ### Splitting -/

/-- The last word. -/
theorem fields_word {word : Text} (visible : Visible word)
    (notEmpty : word ≠ []) : fields word = [word] := by
  rw [fields, List.splitOnP_eq_singleton visible]
  simp [notEmpty]

/-- A word in front of others. -/
theorem fields_append {word : Text} (rest : Text) (visible : Visible word)
    (notEmpty : word ≠ []) :
    fields (word ++ ' ' :: rest) = word :: fields rest := by
  rw [fields, List.splitOnP_append_cons_of_forall_mem visible ' ' rfl,
    List.filter_cons_of_pos (by simp [notEmpty]), ← fields]

/-- What is split off holds characters of the text between separators. -/
theorem mem_splitOnP {p : Char → Bool} {text part : Text}
    (member : part ∈ text.splitOnP p) {c : Char} (inside : c ∈ part) :
    c ∈ text ∧ p c = false := by
  induction text generalizing part with
  | nil =>
      rw [List.splitOnP_nil, List.mem_singleton] at member
      rw [member] at inside
      cases inside
  | cons d rest inductionHypothesis =>
      rw [List.splitOnP_cons_eq_if_modifyHead] at member
      split at member
      · rcases List.mem_cons.mp member with rfl | later
        · cases inside
        · have found := inductionHypothesis later inside
          exact ⟨List.mem_cons_of_mem _ found.1, found.2⟩
      · rename_i plain
        cases parts : rest.splitOnP p with
        | nil => exact absurd parts (List.splitOnP_ne_nil p rest)
        | cons first others =>
            rw [parts, List.modifyHead_cons] at member
            rw [parts] at inductionHypothesis
            rcases List.mem_cons.mp member with rfl | later
            · rcases List.mem_cons.mp inside with rfl | tail
              · exact ⟨List.mem_cons_self .., Bool.eq_false_iff.mpr plain⟩
              · have found := inductionHypothesis (List.mem_cons_self ..) tail
                exact ⟨List.mem_cons_of_mem _ found.1, found.2⟩
            · have found := inductionHypothesis
                (List.mem_cons_of_mem _ later) inside
              exact ⟨List.mem_cons_of_mem _ found.1, found.2⟩

theorem mem_splitOn {separator : Char} {text part : Text}
    (member : part ∈ text.splitOn separator) {c : Char} (inside : c ∈ part) :
    c ∈ text ∧ c ≠ separator := by
  rw [List.splitOn_eq_splitOnP] at member
  have found := mem_splitOnP member inside
  exact ⟨found.1, by simpa using found.2⟩

/-- A word of a text is visible. -/
theorem visible_of_mem_fields {text word : Text} (member : word ∈ fields text) :
    Visible word := fun _ inside =>
  (mem_splitOnP (List.mem_of_mem_filter member) inside).2

theorem mem_of_mem_strip {text : Text} {c : Char} (member : c ∈ strip text) :
    c ∈ text := by
  rw [strip, stripOf, List.mem_reverse] at member
  have left := (List.dropWhile_sublist isSpace).subset member
  rw [List.mem_reverse] at left
  exact (List.dropWhile_sublist isSpace).subset left

/-- A text without the token is not split. -/
theorem splitToken_of_absent {token text : Text}
    (absent : ∀ rest, rest <:+ text → ¬ token <+: rest) :
    splitToken token text = [text] := by
  induction text with
  | nil => rfl
  | cons c rest inductionHypothesis =>
      have later := inductionHypothesis fun other suffix =>
        absent other (suffix.trans (List.suffix_cons c rest))
      rw [splitToken, splitTokenFrom, if_neg, ← splitToken, later]
      · rfl
      · rw [List.isPrefixOf_iff_prefix]
        exact absent _ (List.suffix_refl _)

/-- A suffix of two parts is one of the second, or holds all of it. -/
theorem suffix_append_cases {rest first second : Text}
    (suffix : rest <:+ first ++ second) :
    rest <:+ second ∨
      ∃ inner, inner ≠ [] ∧ inner <:+ first ∧ rest = inner ++ second := by
  obtain ⟨before, whole⟩ := suffix
  rcases List.append_eq_append_iff.mp whole with
    ⟨inner, firstEq, restEq⟩ | ⟨more, -, secondEq⟩
  · by_cases empty : inner = []
    · rw [empty, List.nil_append] at restEq
      exact .inl (restEq ▸ List.suffix_refl _)
    · exact .inr ⟨inner, empty, ⟨before, firstEq.symm⟩, restEq⟩
  · exact .inl ⟨more, secondEq.symm⟩

/-- A token cannot start outside the middle part if its first character is
missing there, and cannot end inside it if its last one is missing there. -/
theorem splitToken_of_guarded {c last stop : Char}
    {tail before middle after : Text} (starts : c ∉ before)
    (ends : last ∈ c :: tail) (open? : last ∉ middle)
    (stops : stop ∉ c :: tail) (later : c ∉ stop :: after) :
    splitToken (c :: tail) (before ++ middle ++ stop :: after) =
      [before ++ middle ++ stop :: after] := by
  apply splitToken_of_absent
  rintro rest suffix ⟨more, start⟩
  rcases suffix_append_cases suffix with inside | ⟨inner, -, inside, restEq⟩
  · apply later
    exact inside.subset (start ▸ List.mem_cons_self ..)
  · rcases suffix_append_cases inside with within | ⟨first, some?, within, rfl⟩
    · rw [restEq] at start
      rcases List.append_eq_append_iff.mp start with
        ⟨others, innerEq, -⟩ | ⟨others, tokenEq, afterEq⟩
      · apply open?
        exact within.subset (innerEq ▸ List.mem_append_left _ ends)
      · cases others with
        | nil =>
            rw [List.append_nil] at tokenEq
            exact open? (within.subset (tokenEq ▸ ends))
        | cons d others =>
            rw [List.cons_append] at afterEq
            apply stops
            rw [tokenEq, (List.cons.inj afterEq).1]
            exact List.mem_append_right _ (List.mem_cons_self ..)
    · cases first with
      | nil => exact some? rfl
      | cons d others =>
          rw [restEq, List.cons_append, List.cons_append] at start
          apply starts
          rw [(List.cons.inj start).1]
          exact within.subset (List.mem_cons_self ..)

theorem splitTokenFrom_ne_nil (token : Text) (skip : Nat) (text : Text) :
    splitTokenFrom token skip text ≠ [] := by
  induction text generalizing skip with
  | nil => simp [splitTokenFrom]
  | cons c rest inductionHypothesis =>
      cases skip with
      | succ skip => exact inductionHypothesis skip
      | zero =>
          rw [splitTokenFrom]
          split
          · exact List.cons_ne_nil _ _
          · cases parts : splitTokenFrom token 0 rest with
            | nil => exact absurd parts (inductionHypothesis 0)
            | cons first others => exact List.cons_ne_nil _ _

theorem splitTokenFrom_skip (token : Text) (skipped rest : Text) :
    splitTokenFrom token skipped.length (skipped ++ rest) =
      splitTokenFrom token 0 rest := by
  induction skipped with
  | nil => rfl
  | cons c tail inductionHypothesis =>
      rw [List.length_cons, List.cons_append, splitTokenFrom]
      exact inductionHypothesis

/-- A text without the first character of the token is not split. -/
theorem splitToken_of_not_mem {c : Char} {tail text : Text}
    (absent : c ∉ text) : splitToken (c :: tail) text = [text] := by
  induction text with
  | nil => rfl
  | cons d rest inductionHypothesis =>
      rw [List.mem_cons, not_or] at absent
      rw [splitToken, splitTokenFrom, if_neg, ← splitToken,
        inductionHypothesis absent.2]
      · rfl
      · simp [absent.1]

/-- Such a text in front of the token is cut off. -/
theorem splitToken_append {c : Char} {tail text : Text} (rest : Text)
    (absent : c ∉ text) :
    splitToken (c :: tail) (text ++ (c :: tail ++ rest)) =
      text :: splitToken (c :: tail) rest := by
  induction text with
  | nil =>
      have found : List.isPrefixOf (c :: tail) (c :: (tail ++ rest)) = true := by
        rw [List.isPrefixOf_iff_prefix]
        exact List.prefix_append (c :: tail) rest
      rw [List.nil_append, List.cons_append, splitToken, splitTokenFrom,
        if_pos found, List.length_cons, Nat.add_sub_cancel,
        splitTokenFrom_skip, ← splitToken]
  | cons d before inductionHypothesis =>
      rw [List.mem_cons, not_or] at absent
      rw [List.cons_append, splitToken, splitTokenFrom, if_neg, ← splitToken,
        inductionHypothesis absent.2]
      · rfl
      · simp [absent.1]

/-- What is joined holds the separator and the parts. -/
theorem mem_intercalate {separator : Text} {c : Char} {parts : List Text}
    (member : c ∈ separator.intercalate parts) :
    c ∈ separator ∨ ∃ part ∈ parts, c ∈ part := by
  induction parts with
  | nil => cases member
  | cons part rest inductionHypothesis =>
      cases rest with
      | nil =>
          rw [List.intercalate_singleton] at member
          exact Or.inr ⟨part, List.mem_cons_self .., member⟩
      | cons next tail =>
          rw [List.intercalate_cons_cons, List.mem_append, List.mem_append]
            at member
          rcases member with (inside | inside) | later
          · exact Or.inr ⟨part, List.mem_cons_self .., inside⟩
          · exact Or.inl inside
          · rcases inductionHypothesis later with inside | ⟨other, isPart, found⟩
            · exact Or.inl inside
            · exact Or.inr ⟨other, List.mem_cons_of_mem _ isPart, found⟩

/-! ### Numbers -/

theorem digit?_of_isDigit {c : Char} (digit : c.isDigit = true) :
    digit? c = some (c.toNat - 48) := by
  simp only [Char.isDigit, Bool.and_eq_true, decide_eq_true_eq] at digit
  have low : 48 ≤ c.toNat := digit.1
  have high : c.toNat < 48 + 10 := Nat.lt_succ_of_le digit.2
  rw [digit?, decimalZeros, List.find?_cons_of_pos (by simp [low, high])]
  rfl

theorem mapM_digit? {digits : Text} (every : ∀ c ∈ digits, c.isDigit = true) :
    digits.mapM digit? = some (digits.map fun c => c.toNat - 48) := by
  induction digits with
  | nil => rfl
  | cons c rest inductionHypothesis =>
      have later := inductionHypothesis fun other member =>
        every other (List.mem_cons_of_mem _ member)
      rw [List.mapM_cons, digit?_of_isDigit (every c (List.mem_cons_self ..)),
        later]
      rfl

/-- The digits of ASCII denote what they do in C. -/
theorem ofDigits_of_isDigit (digits : Text) :
    ofDigits (digits.map fun c => c.toNat - 48) = digitsValue digits := by
  rw [ofDigits, List.foldl_map]
  rfl

theorem nat?_decimal (n : Nat) : nat? (decimal n) = some n := by
  have single : (decimal n).splitOn '_' = [decimal n] := by
    apply List.splitOn_eq_singleton
    intro member
    exact absurd (isDigit_of_mem_decimal member) (by decide)
  have digits := mapM_digit? fun _ member =>
    isDigit_of_mem_decimal (n := n) member
  simp [nat?, single, decimal_ne_nil, digits, ofDigits_of_isDigit]

/-- What is printed reads back. -/
theorem int?_decimalInt (value : Int) :
    int? (decimalInt value) = some value := by
  have plain : ∀ c ∈ decimalInt value, intSpace c = false := by
    intro c member
    rw [intSpace, visible_decimalInt value c member, Bool.false_and]
  rw [int?, stripOf_of_absent plain]
  cases value with
  | negSucc n =>
      simp only [decimalInt, nat?_decimal, Option.map_some, Option.some.injEq]
      rfl
  | ofNat n =>
      rw [decimalInt]
      have notSigned : ∀ c rest, decimal n = c :: rest →
          c.isDigit = true := fun c rest equal =>
        isDigit_of_mem_decimal (equal ▸ List.mem_cons_self ..)
      split
      · rename_i digits equal
        exact absurd (notSigned _ _ equal) (by decide)
      · rename_i digits equal
        exact absurd (notSigned _ _ equal) (by decide)
      · rw [nat?_decimal]
        rfl

theorem decimalInt_injective {first second : Int}
    (same : decimalInt first = decimalInt second) : first = second := by
  have value := int?_decimalInt first
  rw [same, int?_decimalInt] at value
  exact (Option.some.inj value).symm

/-! ### Words and tokens -/

/-- Words joined by blanks come apart as they were. -/
theorem fields_intercalate {words : List Text}
    (visible : ∀ word ∈ words, Visible word ∧ word ≠ []) :
    fields ([' '].intercalate words) = words := by
  induction words with
  | nil => rfl
  | cons word rest inductionHypothesis =>
      rw [List.forall_mem_cons] at visible
      obtain ⟨⟨seen, notEmpty⟩, later⟩ := visible
      cases rest with
      | nil =>
          rw [List.intercalate_singleton]
          exact fields_word seen notEmpty
      | cons next tail =>
          rw [List.intercalate_cons_cons, List.append_assoc,
            List.singleton_append, fields_append _ seen notEmpty,
            inductionHypothesis later]

/-- The words of a text. -/
theorem visible_of_fields (text : Text) :
    ∀ word ∈ fields text, Visible word ∧ word ≠ [] := by
  intro word member
  refine ⟨visible_of_mem_fields member, ?_⟩
  simpa using (List.mem_filter.mp member).2

/-- A token is on one side of a character that it does not have. -/
theorem infix_append_cons {token first second : Text} {c : Char}
    (absent : c ∉ token) (inside : token <:+: first ++ c :: second) :
    token <:+: first ∨ token <:+: second := by
  obtain ⟨before, after, whole⟩ := inside
  rcases List.append_eq_append_iff.mp whole with
    ⟨more, firstEq, -⟩ | ⟨more, left, right⟩
  · exact .inl ⟨before, more, firstEq.symm⟩
  · cases more with
    | nil =>
        rw [List.append_nil] at left
        exact .inl ⟨before, [], by rw [List.append_nil, left]⟩
    | cons d more =>
        rw [List.cons_append, List.cons.injEq] at right
        obtain ⟨rfl, rest⟩ := right
        rcases List.append_eq_append_iff.mp left with
          ⟨others, -, tokenEq⟩ | ⟨others, -, moreEq⟩
        · exact absurd (tokenEq ▸
            List.mem_append_right _ (List.mem_cons_self ..)) absent
        · cases others with
          | nil =>
              rw [List.nil_append] at moreEq
              exact absurd (moreEq ▸ List.mem_cons_self ..) absent
          | cons d others =>
              rw [List.cons_append, List.cons.injEq] at moreEq
              rw [moreEq.2] at rest
              exact .inr ⟨others, after, rest.symm⟩

/-- A token without blanks is in one of the words. -/
theorem infix_intercalate {token : Text} (blank : ' ' ∉ token)
    (notEmpty : token ≠ []) {words : List Text} :
    token <:+: [' '].intercalate words ↔ ∃ word ∈ words, token <:+: word := by
  induction words with
  | nil =>
      rw [List.intercalate_nil, List.infix_nil]
      simp [notEmpty]
  | cons word rest inductionHypothesis =>
      rw [List.exists_mem_cons_iff, ← inductionHypothesis]
      cases rest with
      | nil => simp [List.intercalate_singleton, notEmpty]
      | cons next tail =>
          rw [List.intercalate_cons_cons, List.append_assoc,
            List.singleton_append]
          constructor
          · exact infix_append_cons blank
          · rintro (first | later)
            · exact first.trans (List.prefix_append ..).isInfix
            · exact (later.trans (List.suffix_cons ' ' _).isInfix).trans
                (List.suffix_append ..).isInfix

/-- A text without the token is cut off in front of it, if the token cannot
start inside itself. -/
theorem splitToken_append_of_absent {c : Char} {tail text : Text}
    (rest : Text) (once : c ∉ tail) (absent : ¬ c :: tail <:+: text) :
    splitToken (c :: tail) (text ++ (c :: tail ++ rest)) =
      text :: splitToken (c :: tail) rest := by
  induction text with
  | nil => exact splitToken_append rest List.not_mem_nil
  | cons d before inductionHypothesis =>
      have later : ¬ c :: tail <:+: before := fun inside =>
        absent (inside.trans (List.suffix_cons d before).isInfix)
      have here : ¬ c :: tail <+: d :: before ++ (c :: tail ++ rest) := by
        rintro ⟨after, whole⟩
        rcases List.append_eq_append_iff.mp whole with
          ⟨more, beforeEq, -⟩ | ⟨more, tokenEq, restEq⟩
        · exact absent ⟨[], more, by rw [List.nil_append, beforeEq]⟩
        · cases more with
          | nil =>
              rw [List.append_nil] at tokenEq
              exact absent (tokenEq ▸ List.infix_refl _)
          | cons e more =>
              rw [List.cons_append, List.cons.injEq] at tokenEq
              rw [List.cons_append, List.cons_append,
                List.cons.injEq] at restEq
              apply once
              rw [tokenEq.2, restEq.1]
              exact List.mem_append_right _ (List.mem_cons_self ..)
      rw [List.cons_append, splitToken, splitTokenFrom, if_neg, ← splitToken,
        inductionHypothesis later]
      · rfl
      · rw [List.isPrefixOf_iff_prefix]
        exact here

/-- The first part ends at the first token. -/
theorem splitToken_first_le {token : Text} (notEmpty : token ≠ [])
    (before after : Text) :
    ∃ first others,
      splitToken token (before ++ (token ++ after)) = first :: others ∧
        first.length ≤ before.length := by
  induction before with
  | nil =>
      obtain ⟨c, tail, rfl⟩ := List.exists_cons_of_ne_nil notEmpty
      exact ⟨[], _, splitToken_append after List.not_mem_nil, Nat.le_refl _⟩
  | cons d before inductionHypothesis =>
      obtain ⟨first, others, parts, le⟩ := inductionHypothesis
      rw [List.cons_append, splitToken, splitTokenFrom]
      split
      · exact ⟨[], _, rfl, Nat.zero_le _⟩
      · rw [← splitToken, parts]
        exact ⟨d :: first, others, rfl, Nat.succ_le_succ le⟩

end PyText
