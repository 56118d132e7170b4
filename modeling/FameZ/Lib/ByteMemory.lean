/-
Module: FameZ.Lib.ByteMemory
Purpose: Byte-addressed memory with little-endian words, and the laws of reads
  after writes.
Trusted boundary: none
Main exports: Memory, write, readBytes, wordBytes, wordValue, readWord,
  writeWord, readWord_writeWord, readWord_write_of_disjoint
-/
import Mathlib.Data.List.Basic
import Mathlib.Tactic.NormNum

/-- A byte for every address. -/
abbrev Memory := Nat → UInt8

namespace Memory

/-- Copy bytes to consecutive addresses. -/
def write (mem : Memory) (addr : Nat) (bytes : List UInt8) : Memory :=
  fun a =>
    if addr ≤ a then (bytes[a - addr]?).getD (mem a) else mem a

/-- The bytes at consecutive addresses. -/
def readBytes (mem : Memory) (addr : Nat) : Nat → List UInt8
  | 0 => []
  | n + 1 => mem addr :: readBytes mem (addr + 1) n

/-- The `n` low bytes of a number, the lowest first. -/
def littleEndian : Nat → Nat → List UInt8
  | 0, _ => []
  | n + 1, value => UInt8.ofNat value :: littleEndian n (value / 256)

/-- The number that bytes denote, the lowest first. -/
def wordValue : List UInt8 → Nat
  | [] => 0
  | byte :: bytes => byte.toNat + 256 * wordValue bytes

/-- A 64-bit word. -/
def wordBytes (value : Nat) : List UInt8 := littleEndian 8 value

/-- A signed 64-bit word, as two's complement. -/
def signedBytes (value : Int) : List UInt8 :=
  wordBytes (value % 2 ^ 64).toNat

def signedValue (bytes : List UInt8) : Int :=
  if wordValue bytes < 2 ^ 63 then wordValue bytes
  else wordValue bytes - 2 ^ 64

def readWord (mem : Memory) (addr : Nat) : Nat :=
  wordValue (mem.readBytes addr 8)

def writeWord (mem : Memory) (addr value : Nat) : Memory :=
  mem.write addr (wordBytes value)

@[simp] theorem length_littleEndian (n value : Nat) :
    (littleEndian n value).length = n := by
  induction n generalizing value with
  | zero => rfl
  | succ n inductionHypothesis => simp [littleEndian, inductionHypothesis]

@[simp] theorem length_wordBytes (value : Nat) :
    (wordBytes value).length = 8 := length_littleEndian 8 value

@[simp] theorem length_readBytes (mem : Memory) (addr n : Nat) :
    (mem.readBytes addr n).length = n := by
  induction n generalizing addr with
  | zero => rfl
  | succ n inductionHypothesis => simp [readBytes, inductionHypothesis]

/-- The bytes of a number denote it, up to their width. -/
theorem wordValue_littleEndian (n value : Nat) :
    wordValue (littleEndian n value) = value % 256 ^ n := by
  induction n generalizing value with
  | zero => simp [littleEndian, wordValue, Nat.mod_one]
  | succ n inductionHypothesis =>
      rw [littleEndian, wordValue, inductionHypothesis, Nat.pow_succ',
        Nat.mod_mul]
      rfl

@[simp] theorem wordValue_wordBytes (value : Nat) :
    wordValue (wordBytes value) = value % 2 ^ 64 := by
  rw [wordBytes, wordValue_littleEndian]
  rfl

@[simp] theorem length_signedBytes (value : Int) :
    (signedBytes value).length = 8 := length_wordBytes _

/-- A signed number reads back if it fits. -/
theorem signedValue_signedBytes {value : Int} (low : -2 ^ 63 ≤ value)
    (high : value < 2 ^ 63) : signedValue (signedBytes value) = value := by
  rw [signedValue, signedBytes, wordValue_wordBytes]
  omega

theorem write_of_lt {mem : Memory} {addr a : Nat} {bytes : List UInt8}
    (before : a < addr) : mem.write addr bytes a = mem a :=
  if_neg (Nat.not_le.mpr before)

theorem write_of_ge {mem : Memory} {addr a : Nat} {bytes : List UInt8}
    (after : addr + bytes.length ≤ a) : mem.write addr bytes a = mem a := by
  have low : addr ≤ a := Nat.le_trans (Nat.le_add_right ..) after
  rw [write, if_pos low, List.getElem?_eq_none (by omega)]
  rfl

theorem write_add {mem : Memory} {addr k : Nat} {bytes : List UInt8}
    (inside : k < bytes.length) :
    mem.write addr bytes (addr + k) = bytes[k] := by
  rw [write, if_pos (Nat.le_add_right ..), Nat.add_sub_cancel_left,
    List.getElem?_eq_getElem inside]
  rfl

@[simp] theorem write_nil (mem : Memory) (addr : Nat) :
    mem.write addr [] = mem := by
  funext a
  rw [write, List.getElem?_nil, Option.getD_none, ite_self]

/-- Bytes in a row may be written in two parts. -/
theorem write_append (mem : Memory) (addr : Nat)
    (first second : List UInt8) :
    mem.write addr (first ++ second) =
      (mem.write addr first).write (addr + first.length) second := by
  funext a
  rcases Nat.lt_or_ge a (addr + first.length) with before | after
  · rw [write_of_lt before]
    rcases Nat.lt_or_ge a addr with outside | inside
    · rw [write_of_lt outside, write_of_lt outside]
    · rw [write, write, if_pos inside, if_pos inside,
        List.getElem?_append_left (by omega)]
  · have inside : addr ≤ a := Nat.le_trans (Nat.le_add_right ..) after
    rw [write, if_pos inside, List.getElem?_append_right (by omega),
      Nat.sub_sub, write, if_pos after, write_of_ge after]

/-- Reads that see the same bytes agree. -/
theorem readBytes_congr {first second : Memory} {addr n : Nat}
    (same : ∀ a, addr ≤ a → a < addr + n → first a = second a) :
    first.readBytes addr n = second.readBytes addr n := by
  induction n generalizing addr with
  | zero => rfl
  | succ n inductionHypothesis =>
      rw [readBytes, readBytes, same addr (Nat.le_refl _) (by omega),
        inductionHypothesis fun a low high => same a (by omega) (by omega)]

/-- A write leaves what lies outside it. -/
theorem readBytes_write_of_disjoint {mem : Memory} {addr start n : Nat}
    {bytes : List UInt8}
    (disjoint : start + n ≤ addr ∨ addr + bytes.length ≤ start) :
    (mem.write addr bytes).readBytes start n = mem.readBytes start n := by
  apply readBytes_congr
  intro a low high
  rcases disjoint with before | after
  · exact write_of_lt (by omega)
  · exact write_of_ge (by omega)

theorem readWord_write_of_disjoint {mem : Memory} {addr start : Nat}
    {bytes : List UInt8}
    (disjoint : start + 8 ≤ addr ∨ addr + bytes.length ≤ start) :
    (mem.write addr bytes).readWord start = mem.readWord start := by
  rw [readWord, readBytes_write_of_disjoint disjoint, ← readWord]

/-- A read of exactly what was written. -/
theorem readBytes_write_self (mem : Memory) (addr : Nat)
    (bytes : List UInt8) :
    (mem.write addr bytes).readBytes addr bytes.length = bytes := by
  induction bytes generalizing addr mem with
  | nil => rfl
  | cons byte rest inductionHypothesis =>
      have head : mem.write addr (byte :: rest) addr = byte := by
        simp [write]
      have tail : (mem.write addr (byte :: rest)).readBytes (addr + 1)
          rest.length = (mem.write (addr + 1) rest).readBytes (addr + 1)
          rest.length := by
        apply readBytes_congr
        intro a low high
        obtain ⟨k, rfl⟩ := Nat.exists_eq_add_of_le low
        have inside : k < rest.length := by omega
        have shifted : k + 1 < (byte :: rest).length :=
          Nat.succ_lt_succ inside
        rw [write_add inside, Nat.add_assoc, Nat.add_comm 1 k,
          write_add shifted]
        rfl
      rw [List.length_cons, readBytes, head, tail, inductionHypothesis]

/-- Bytes in a row may be read in two parts. -/
theorem readBytes_add (mem : Memory) (addr first second : Nat) :
    mem.readBytes addr (first + second) =
      mem.readBytes addr first ++ mem.readBytes (addr + first) second := by
  induction first generalizing addr with
  | zero =>
      rw [Nat.zero_add]
      rfl
  | succ n inductionHypothesis =>
      rw [Nat.succ_add, readBytes, readBytes, inductionHypothesis,
        Nat.add_assoc, Nat.add_comm 1 n, List.cons_append]

/-- A longer read sees what was written, and then what was there. -/
theorem readBytes_write_overlay (mem : Memory) (addr : Nat)
    {bytes : List UInt8} {n : Nat} (short : bytes.length ≤ n) :
    (mem.write addr bytes).readBytes addr n =
      bytes ++ (mem.readBytes addr n).drop bytes.length := by
  obtain ⟨more, rfl⟩ := Nat.exists_eq_add_of_le short
  rw [readBytes_add, readBytes_write_self, readBytes_add mem,
    List.drop_left' (length_readBytes ..),
    readBytes_write_of_disjoint (.inr (Nat.le_refl _))]

theorem readBytes_write_prefix (mem : Memory) (addr : Nat)
    {bytes : List UInt8} {n : Nat} (short : bytes.length ≤ n) :
    ∃ rest, (mem.write addr bytes).readBytes addr n = bytes ++ rest :=
  ⟨_, readBytes_write_overlay mem addr short⟩

/-- A word reads back modulo its width. -/
theorem readWord_writeWord (mem : Memory) (addr value : Nat) :
    (mem.writeWord addr value).readWord addr = value % 2 ^ 64 := by
  have read := readBytes_write_self mem addr (wordBytes value)
  rw [length_wordBytes] at read
  rw [readWord, writeWord, read, wordValue_wordBytes]

theorem readBytes_of_zero {mem : Memory} {addr n : Nat}
    (zero : ∀ k, k < n → mem (addr + k) = 0) :
    mem.readBytes addr n = List.replicate n 0 := by
  induction n generalizing addr with
  | zero => rfl
  | succ n inductionHypothesis =>
      have head : mem addr = 0 := zero 0 (Nat.succ_pos n)
      rw [readBytes, List.replicate_succ, head]
      congr 1
      apply inductionHypothesis
      intro k inside
      rw [Nat.add_assoc, Nat.add_comm 1 k]
      exact zero (k + 1) (Nat.succ_lt_succ inside)

/-- Zero bytes denote zero. -/
theorem readWord_of_zero {mem : Memory} {addr : Nat}
    (zero : ∀ k, k < 8 → mem (addr + k) = 0) : mem.readWord addr = 0 := by
  rw [readWord, readBytes_of_zero zero]
  rfl

end Memory
