/-
Module: FameZ.Lib.CBuffer
Purpose: Arrays of C with their bounds: stores, copies and the functions on
  strings, which are nothing if they leave the array.
Trusted boundary: none
Main exports: CBuffer.put, copyIn, slice, cstring, strchr, put_append,
  strchr_found, strchr_missing, strchr_of_nul, getElem_of_strchr, split_or_nul
-/
import Mathlib.Data.List.Basic
import Mathlib.Data.List.TakeWhile

namespace CBuffer

/-- `buf[index] = byte`. -/
def put (buf : List UInt8) (index : Nat) (byte : UInt8) :
    Option (List UInt8) :=
  if index < buf.length then some (buf.set index byte) else none

/-- `memcpy(buf, data, length)`. -/
def copyIn (buf data : List UInt8) : Option (List UInt8) :=
  if data.length ≤ buf.length then some (data ++ buf.drop data.length)
  else none

/-- What a copy reads. -/
def slice (buf : List UInt8) (start length : Nat) : Option (List UInt8) :=
  if start + length ≤ buf.length then some ((buf.drop start).take length)
  else none

/-- The string at an index, up to its NUL. -/
def cstring (buf : List UInt8) (start : Nat) : Option (List UInt8) :=
  if 0 ∈ buf.drop start then
    some ((buf.drop start).takeWhile fun byte => decide (byte ≠ 0))
  else none

/-- `strchr(buf, c)`: the index of the character, if it comes before the NUL. -/
def strchr (c : UInt8) : List UInt8 → Option (Option Nat)
  | [] => none
  | byte :: rest =>
      if byte = c then some (some 0)
      else if byte = 0 then some none
      else (strchr c rest).map fun index => index.map (· + 1)

section

variable {before after text data buf : List UInt8} {old byte c : UInt8}

theorem put_append : put (before ++ old :: after) before.length byte =
    some (before ++ byte :: after) := by
  have inside : before.length < (before ++ old :: after).length := by
    rw [List.length_append, List.length_cons]
    omega
  rw [put, if_pos inside, List.set_append_right _ _ (Nat.le_refl _),
    Nat.sub_self]
  rfl

theorem copyIn_of_le (fits : data.length ≤ buf.length) :
    copyIn buf data = some (data ++ buf.drop data.length) := if_pos fits

theorem slice_append :
    slice (before ++ (data ++ after)) before.length data.length =
      some data := by
  have inside : before.length + data.length ≤
      (before ++ (data ++ after)).length := by
    rw [List.length_append, List.length_append]
    omega
  rw [slice, if_pos inside, List.drop_left' rfl, List.take_left' rfl]

/-- The string between an index and the next NUL. -/
theorem cstring_append (nulFree : 0 ∉ text) :
    cstring (before ++ (text ++ 0 :: after)) before.length = some text := by
  have nonzero : ∀ byte ∈ text, decide (byte ≠ 0) = true := by
    intro byte member
    apply decide_eq_true
    rintro rfl
    exact nulFree member
  rw [cstring, List.drop_left' rfl,
    if_pos (List.mem_append_right _ (List.mem_cons_self ..)),
    List.takeWhile_append_of_pos nonzero, List.takeWhile_cons_of_neg (by simp),
    List.append_nil]

theorem strchr_found (first : c ∉ before) (nulFree : 0 ∉ before) :
    strchr c (before ++ c :: after) = some (some before.length) := by
  induction before with
  | nil => exact if_pos rfl
  | cons byte rest inductionHypothesis =>
      rw [List.mem_cons, not_or] at first nulFree
      rw [List.cons_append, strchr, if_neg (Ne.symm first.1),
        if_neg (Ne.symm nulFree.1), inductionHypothesis first.2 nulFree.2]
      rfl

theorem strchr_missing (missing : c ∉ text) (nulFree : 0 ∉ text)
    (notNul : c ≠ 0) : strchr c (text ++ 0 :: after) = some none := by
  induction text with
  | nil => rw [List.nil_append, strchr, if_neg notNul.symm, if_pos rfl]
  | cons byte rest inductionHypothesis =>
      rw [List.mem_cons, not_or] at missing nulFree
      rw [List.cons_append, strchr, if_neg (Ne.symm missing.1),
        if_neg (Ne.symm nulFree.1), inductionHypothesis missing.2 nulFree.2]
      rfl

/-- A search that has a NUL before it stays inside. -/
theorem strchr_of_nul (nul : 0 ∈ buf) : ∃ found, strchr c buf = some found := by
  induction buf with
  | nil => cases nul
  | cons byte rest inductionHypothesis =>
      by_cases same : byte = c
      · exact ⟨some 0, if_pos same⟩
      by_cases ends : byte = 0
      · exact ⟨none, by rw [strchr, if_neg same, if_pos ends]⟩
      have later : 0 ∈ rest := by
        rcases List.mem_cons.mp nul with first | later
        · exact absurd first.symm ends
        · exact later
      obtain ⟨found, search⟩ := inductionHypothesis later
      exact ⟨found.map (· + 1), by
        rw [strchr, if_neg same, if_neg ends, search]; rfl⟩

/-- A character that is found is where it was found. -/
theorem getElem_of_strchr {index : Nat}
    (found : strchr c buf = some (some index)) : buf[index]? = some c := by
  induction buf generalizing index with
  | nil => cases found
  | cons byte rest inductionHypothesis =>
      rw [strchr] at found
      split at found
      · rename_i same
        cases found
        exact congrArg some same
      · split at found
        · cases found
        · cases search : strchr c rest with
          | none =>
              rw [search] at found
              cases found
          | some later =>
              rw [search] at found
              cases later with
              | none => cases found
              | some before =>
                  cases found
                  exact inductionHypothesis search

theorem cstring_of_nul (nul : 0 ∈ buf) : ∃ text, cstring buf 0 = some text :=
  ⟨_, if_pos nul⟩

/-- Text behind which a NUL was put has the character before any NUL, or it
ends in a NUL before the character. -/
theorem split_or_nul (c : UInt8) (text after : List UInt8) :
    (∃ before behind, text = before ++ c :: behind ∧ c ∉ before ∧
        0 ∉ before) ∨
      ∃ before behind, text ++ 0 :: after = before ++ 0 :: behind ∧
        c ∉ before ∧ 0 ∉ before := by
  induction text with
  | nil => exact .inr ⟨[], after, rfl, List.not_mem_nil, List.not_mem_nil⟩
  | cons byte rest inductionHypothesis =>
      by_cases found : byte = c
      · rw [found]
        exact .inl ⟨[], rest, rfl, List.not_mem_nil, List.not_mem_nil⟩
      by_cases nul : byte = 0
      · rw [nul]
        exact .inr ⟨[], rest ++ 0 :: after, rfl, List.not_mem_nil,
          List.not_mem_nil⟩
      have grown : ∀ {before : List UInt8}, c ∉ before → 0 ∉ before →
          c ∉ byte :: before ∧ 0 ∉ byte :: before := by
        intro before missing nulFree
        rw [List.mem_cons, not_or, List.mem_cons, not_or]
        exact ⟨⟨Ne.symm found, missing⟩, ⟨Ne.symm nul, nulFree⟩⟩
      rcases inductionHypothesis with
        ⟨before, behind, split, missing, nulFree⟩ |
        ⟨before, behind, split, missing, nulFree⟩
      · exact .inl ⟨byte :: before, behind, by rw [split]; rfl,
          grown missing nulFree⟩
      · exact .inr ⟨byte :: before, behind, congrArg (List.cons byte) split,
          grown missing nulFree⟩

/-- The first occurrence splits a text in one way. -/
theorem split_unique {other behind : List UInt8}
    (same : before ++ c :: after = other ++ c :: behind) (first : c ∉ before)
    (second : c ∉ other) : before = other ∧ after = behind := by
  induction before generalizing other with
  | nil =>
      cases other with
      | nil => exact ⟨rfl, (List.cons.inj same).2⟩
      | cons byte rest =>
          have head := (List.cons.inj same).1
          rw [head] at second
          exact absurd (List.mem_cons_self ..) second
  | cons byte rest inductionHypothesis =>
      cases other with
      | nil =>
          have head := (List.cons.inj same).1
          rw [head] at first
          exact absurd (List.mem_cons_self ..) first
      | cons next others =>
          obtain ⟨head, tail⟩ := List.cons.inj same
          rw [List.mem_cons, not_or] at first second
          obtain ⟨restSame, behindSame⟩ :=
            inductionHypothesis tail first.2 second.2
          exact ⟨by rw [head, restSame], behindSame⟩

end

end CBuffer
