/-
Module: FameZ.Kernel.BridgeRead
Purpose: What a read of the bridge device stores in the buffer of its caller,
  and when it stays inside of it.
Trusted boundary: the translation of famez_bridge_read from its wait on;
  copy_to_user stores what is writable and returns the number of bytes left
Main exports: User, copyToUser, famezBridgeRead, Sender, FitsBuffer, Reads,
  fitsBuffer_iff
-/
import FameZ.Kernel.Bridge
import FameZ.Lib.ByteMemory

namespace FameZ.Kernel.BridgeRead

open Memory
open Bridge (addressOf toBytes)
open Scanf (decimal)

/-! ### The copy to user space -/

/-- The memory from the caller's buffer on: its bytes, how many of them can be
written, and the extents that were stored. -/
structure User where
  bytes : Memory
  writable : Nat
  stored : List (Nat × Nat)

/-- `copy_to_user`: the number of bytes that could not be copied. -/
def copyToUser (dest : Nat) (data : List UInt8) (user : User) : Nat × User :=
  let copied := min data.length (user.writable - dest)
  (data.length - copied,
    { user with
      bytes := user.bytes.write dest (data.take copied)
      stored := user.stored ++ [(dest, dest + copied)] })

/-- A number in an `int`. -/
def int (value : Nat) : Int := ((value + 2 ^ 31) % 2 ^ 32 : Nat) - 2 ^ 31

def e2big : Int := -7

def efault : Int := -14

/-- `ret`, if a copy left something. -/
def copyErrno (ret : Int) : Int := if 0 < ret then efault else ret

/-- The characters of `sidcidstr` that the first copy takes; one less than its
size is printed. -/
def sidcidstr (sender : Mailslot) : List UInt8 :=
  (toBytes ((addressOf sender).take 30) ++ [0]).take (addressOf sender).length

/-- `famez_bridge_read` once a sender is there. -/
def famezBridgeRead (sender : Mailslot) (buflen : Nat) (user : User) :
    Int × User :=
  let n := (addressOf sender).length
  if 32 ≤ n ∨ buflen < (sender.buflen + n + (2 ^ 64 - 1)) % 2 ^ 64 then
    (e2big, user)
  else
    match copyToUser 0 (sidcidstr sender) user with
    | (left, user) =>
        if int left ≠ 0 then (copyErrno (int left), user)
        else
          match copyToUser n (sender.buf.take sender.buflen) user with
          | (left, user) =>
              if int left = 0 then (int (sender.buflen + n), user)
              else (copyErrno (int left), user)

/-- A slot with a message, its ids as the interrupt handler computes them.  The
body has the size that adapter_create found in the globals. -/
structure Sender where
  slot : Mailslot
  maxBuflen : Nat
  peer : slot.peerId ≤ 65535
  cid : slot.peerCid = slot.peerId * 100
  sid : slot.peerSid = 27
  short : slot.buflen < maxBuflen
  body : slot.buf.length = maxBuflen
  wide : maxBuflen + 128 ≤ 2 ^ 64

/-- What the reader is to get. -/
def Sender.text (sender : Sender) : List UInt8 :=
  toBytes (addressOf sender.slot) ++ sender.slot.buf.take sender.slot.buflen

/-- A buffer of `buflen` bytes; so many can be written behind it. -/
def caller (bytes : Memory) (buflen behind : Nat) : User :=
  ⟨bytes, buflen + behind, []⟩

/-- The read stays inside the buffer, and it succeeds exactly if the text fits;
then the buffer holds the text and the result is its length. -/
structure FitsBuffer (sender : Sender) (buflen : Nat) (result : Int × User) :
    Prop where
  inside : ∀ extent ∈ result.2.stored, extent.2 ≤ buflen
  returned : result.1 ≤ buflen
  succeeds : 0 ≤ result.1 ↔ sender.text.length ≤ buflen
  copied : 0 ≤ result.1 → result.1 = sender.text.length ∧
    result.2.bytes.readBytes 0 sender.text.length = sender.text

/-! ### The address -/

section

variable (sender : Sender)

/-- Seven digits, two digits, a comma and a colon at most. -/
theorem length_address : (addressOf sender.slot).length ≤ 11 := by
  have cid : (decimal sender.slot.peerCid).length ≤ 7 := by
    rw [decimal, Nat.length_toDigits_le_iff (by decide) (by decide), sender.cid]
    have peer := sender.peer
    omega
  have sid : (decimal sender.slot.peerSid).length ≤ 2 := by
    rw [decimal, Nat.length_toDigits_le_iff (by decide) (by decide), sender.sid]
    decide
  rw [addressOf, List.length_append, List.length_cons, List.length_append,
    List.length_singleton]
  omega

/-- No character is cut off. -/
theorem sidcidstr_eq :
    sidcidstr sender.slot = toBytes (addressOf sender.slot) := by
  have short := length_address sender
  have whole : (addressOf sender.slot).take 30 = addressOf sender.slot :=
    List.take_of_length_le (Nat.le_trans short (by decide))
  have width : (toBytes (addressOf sender.slot)).length =
      (addressOf sender.slot).length := List.length_map _
  rw [sidcidstr, whole, ← width]
  exact List.take_left' rfl

theorem length_text : sender.text.length =
    sender.slot.buflen + (addressOf sender.slot).length := by
  have short := sender.short
  rw [Sender.text, List.length_append, toBytes, List.length_map,
    List.length_take, sender.body, Nat.min_eq_left (Nat.le_of_lt short),
    Nat.add_comm]

/-- The arithmetic of the size check does not wrap. -/
theorem check_eq : (sender.slot.buflen + (addressOf sender.slot).length +
      (2 ^ 64 - 1)) % 2 ^ 64 = sender.text.length - 1 := by
  have short := sender.short
  have wide := sender.wide
  have digits := length_address sender
  have positive : 0 < (addressOf sender.slot).length := by
    rw [addressOf, List.length_append, List.length_cons]
    omega
  rw [length_text]
  omega

end

/-! ### The copies -/

theorem copyToUser_all {dest : Nat} {data : List UInt8} {user : User}
    (room : dest + data.length ≤ user.writable) :
    copyToUser dest data user = (0,
      { user with
        bytes := user.bytes.write dest data
        stored := user.stored ++ [(dest, dest + data.length)] }) := by
  have all : min data.length (user.writable - dest) = data.length :=
    Nat.min_eq_left (by omega)
  rw [copyToUser, all, List.take_length, Nat.sub_self]

/-- One byte does not fit. -/
theorem copyToUser_but_one {dest : Nat} {data : List UInt8} {user : User}
    (room : dest + data.length = user.writable + 1) (some? : data ≠ []) :
    ∃ bytes, copyToUser dest data user = (1,
      { user with
        bytes := bytes
        stored := user.stored ++ [(dest, user.writable)] }) := by
  have positive := List.length_pos_of_ne_nil some?
  have most : min data.length (user.writable - dest) = data.length - 1 := by
    omega
  have end_ : dest + (data.length - 1) = user.writable := by
    omega
  have left : data.length - (data.length - 1) = 1 := by
    omega
  rw [copyToUser, most, end_, left]
  exact ⟨_, rfl⟩

/-- How a read ends. -/
inductive Reads (sender : Sender) (bytes : Memory) (buflen behind : Nat) :
    Int × User → Prop where
  | refused (small : buflen + 1 < sender.text.length) :
      Reads sender bytes buflen behind (e2big, caller bytes buflen behind)
  | faulted {user : User} (small : buflen + 1 = sender.text.length)
      (last : behind = 0)
      (inside : ∀ extent ∈ user.stored, extent.2 ≤ buflen) :
      Reads sender bytes buflen behind (efault, user)
  | copied {user : User} (notSmall : sender.text.length ≤ buflen + 1)
      (room : sender.text.length ≤ buflen + behind)
      (holds : user.bytes.readBytes 0 sender.text.length = sender.text)
      (stored : user.stored =
        [(0, (addressOf sender.slot).length),
          ((addressOf sender.slot).length, sender.text.length)]) :
      Reads sender bytes buflen behind (int sender.text.length, user)

/-- The caller's memory behind the first copy. -/
def addressed (sender : Sender) (bytes : Memory) (buflen behind : Nat) : User :=
  ⟨bytes.write 0 (toBytes (addressOf sender.slot)), buflen + behind,
    [(0, (addressOf sender.slot).length)]⟩

section

variable {sender : Sender} {bytes : Memory} {buflen behind : Nat}

theorem length_address_bytes (sender : Sender) :
    (toBytes (addressOf sender.slot)).length =
      (addressOf sender.slot).length := List.length_map _

theorem length_body (sender : Sender) :
    (sender.slot.buf.take sender.slot.buflen).length =
      sender.slot.buflen := by
  rw [List.length_take, sender.body]
  exact Nat.min_eq_left (Nat.le_of_lt sender.short)

theorem copy_address
    (room : (addressOf sender.slot).length ≤ buflen + behind) :
    copyToUser 0 (toBytes (addressOf sender.slot))
        (caller bytes buflen behind) =
      (0, addressed sender bytes buflen behind) := by
  rw [copyToUser_all (by rw [length_address_bytes, Nat.zero_add]; exact room),
    length_address_bytes, Nat.zero_add]
  rfl

/-- With room for both, the caller gets the text. -/
theorem copy_body (room : sender.text.length ≤ buflen + behind) :
    ∃ user, copyToUser (addressOf sender.slot).length
        (sender.slot.buf.take sender.slot.buflen)
        (addressed sender bytes buflen behind) = (0, user) ∧
      user.bytes.readBytes 0 sender.text.length = sender.text ∧
      user.stored = [(0, (addressOf sender.slot).length),
        ((addressOf sender.slot).length, sender.text.length)] := by
  have total := length_text sender
  have reaches : (addressOf sender.slot).length +
      (sender.slot.buf.take sender.slot.buflen).length ≤
        (addressed sender bytes buflen behind).writable := by
    rw [length_body, Nat.add_comm, ← total]
    exact room
  refine ⟨_, copyToUser_all reaches, ?_, ?_⟩
  · have whole := readBytes_write_self bytes 0 sender.text
    rw [Sender.text, write_append, Nat.zero_add, length_address_bytes] at whole
    exact whole
  · rw [length_body, total, Nat.add_comm sender.slot.buflen]
    rfl

/-- With room for all but one byte, one is left. -/
theorem copy_body_but_one (room : sender.text.length = buflen + behind + 1)
    (first : (addressOf sender.slot).length ≤ buflen + behind) :
    ∃ user, copyToUser (addressOf sender.slot).length
        (sender.slot.buf.take sender.slot.buflen)
        (addressed sender bytes buflen behind) = (1, user) ∧
      user.stored = [(0, (addressOf sender.slot).length),
        ((addressOf sender.slot).length, buflen + behind)] := by
  have total := length_text sender
  have reaches : (addressOf sender.slot).length +
      (sender.slot.buf.take sender.slot.buflen).length =
        (addressed sender bytes buflen behind).writable + 1 := by
    rw [length_body, Nat.add_comm, ← total]
    exact room
  have some? : sender.slot.buf.take sender.slot.buflen ≠ [] := by
    intro empty
    have length := length_body sender
    rw [empty, List.length_nil] at length
    omega
  obtain ⟨stored, copied⟩ := copyToUser_but_one reaches some?
  exact ⟨_, copied, rfl⟩

/-- The address alone can be one byte too long. -/
theorem copy_address_but_one
    (room : (addressOf sender.slot).length = buflen + behind + 1) :
    ∃ user, copyToUser 0 (toBytes (addressOf sender.slot))
        (caller bytes buflen behind) = (1, user) ∧
      user.stored = [(0, buflen + behind)] := by
  have reaches : 0 + (toBytes (addressOf sender.slot)).length =
      (caller bytes buflen behind).writable + 1 := by
    rw [length_address_bytes, Nat.zero_add]
    exact room
  have some? : toBytes (addressOf sender.slot) ≠ [] := by
    intro empty
    rw [empty] at reaches
    cases reaches
  obtain ⟨stored, copied⟩ := copyToUser_but_one reaches some?
  exact ⟨_, copied, rfl⟩

end

theorem famezBridgeRead_reads (sender : Sender) (bytes : Memory)
    (buflen behind : Nat) :
    Reads sender bytes buflen behind
      (famezBridgeRead sender.slot buflen (caller bytes buflen behind)) := by
  have digits := length_address sender
  have total := length_text sender
  unfold famezBridgeRead
  dsimp only
  rw [check_eq, sidcidstr_eq]
  by_cases small : buflen < sender.text.length - 1
  · rw [if_pos (.inr small)]
    exact .refused (by omega)
  rw [if_neg (not_or.mpr ⟨by omega, small⟩)]
  by_cases first : (addressOf sender.slot).length ≤ buflen + behind
  · rw [copy_address first]
    dsimp only
    rw [if_neg (by decide)]
    by_cases room : sender.text.length ≤ buflen + behind
    · obtain ⟨user, copied, holds, stored⟩ :=
        @copy_body sender bytes buflen behind room
      rw [copied]
      dsimp only
      rw [if_pos (by decide), ← total]
      exact .copied (by omega) room holds stored
    · have longer : sender.text.length = buflen + behind + 1 := by omega
      obtain ⟨user, copied, stored⟩ :=
        @copy_body_but_one sender bytes buflen behind longer first
      rw [copied]
      dsimp only
      rw [if_neg (by decide)]
      refine .faulted (by omega) (by omega) ?_
      intro extent member
      rw [stored] at member
      simp only [List.mem_cons, List.not_mem_nil, or_false] at member
      rcases member with rfl | rfl
      · change (addressOf sender.slot).length ≤ buflen
        omega
      · change buflen + behind ≤ buflen
        omega
  · have longer : (addressOf sender.slot).length = buflen + behind + 1 := by
      omega
    obtain ⟨user, copied, stored⟩ :=
      @copy_address_but_one sender bytes buflen behind longer
    rw [copied]
    dsimp only
    rw [if_pos (by decide)]
    refine .faulted (by omega) (by omega) ?_
    intro extent member
    rw [stored] at member
    cases List.mem_singleton.mp member
    change buflen + behind ≤ buflen
    omega

/-- What the read returns as a text is what the caller gets, if there is room
for it. -/
theorem readBytes_of_returned {sender : Sender} {buflen behind : Nat}
    {text : List UInt8} (bytes : Memory)
    (returned : Bridge.famezBridgeRead sender.slot buflen = .ok text)
    (room : text.length ≤ buflen + behind) :
    (famezBridgeRead sender.slot buflen
      (caller bytes buflen behind)).2.bytes.readBytes 0 text.length = text := by
  have same : text = sender.text := Bridge.famezBridgeRead_address returned
  have passed : sender.text.length ≤ buflen + 1 := by
    unfold Bridge.famezBridgeRead at returned
    dsimp only at returned
    split at returned
    · cases returned
    · rename_i passes
      have total := length_text sender
      omega
  have reads := famezBridgeRead_reads sender bytes buflen behind
  generalize famezBridgeRead sender.slot buflen (caller bytes buflen behind) =
    result at reads
  rw [same] at room ⊢
  cases reads with
  | refused small => omega
  | faulted small last inside => omega
  | copied notSmall room holds stored => exact holds

/-- An error, if the text does not fit. -/
theorem FitsBuffer.of_errno {sender : Sender} {buflen : Nat} {ret : Int}
    {user : User} (negative : ret < 0) (long : buflen < sender.text.length)
    (inside : ∀ extent ∈ user.stored, extent.2 ≤ buflen) :
    FitsBuffer sender buflen (ret, user) where
  inside := inside
  returned := Int.le_trans (Int.le_of_lt negative) (Int.natCast_nonneg _)
  succeeds := by
    constructor
    · intro positive
      exact absurd positive (Int.not_le.mpr negative)
    · intro fits
      exact absurd fits (Nat.not_le.mpr long)
  copied positive := absurd positive (Int.not_le.mpr negative)

theorem int_eq_iff {value : Nat} :
    int value = value ↔ value < 2 ^ 31 := by
  rw [int]
  omega

/-- A read stays inside the buffer exactly if the text is not one byte longer
than it, and its length fits the result. -/
theorem fitsBuffer_iff (sender : Sender) (bytes : Memory)
    (buflen behind : Nat) :
    FitsBuffer sender buflen
        (famezBridgeRead sender.slot buflen (caller bytes buflen behind)) ↔
      (sender.text.length ≠ buflen + 1 ∨ behind = 0) ∧
        (sender.text.length ≤ buflen → sender.text.length < 2 ^ 31) := by
  have reads := famezBridgeRead_reads sender bytes buflen behind
  generalize famezBridgeRead sender.slot buflen (caller bytes buflen behind) =
    result at reads
  cases reads with
  | refused small =>
      constructor
      · intro
        exact ⟨.inl (by omega), fun fits => absurd fits (by omega)⟩
      · intro
        exact .of_errno (by decide) (by omega) fun _ member => nomatch member
  | faulted small last inside =>
      constructor
      · intro
        exact ⟨.inr last, fun fits => absurd fits (by omega)⟩
      · intro
        exact .of_errno (by decide) (by omega) inside
  | copied notSmall room holds stored =>
      have total := length_text sender
      constructor
      · intro fitsBuffer
        have fits : sender.text.length ≤ buflen := by
          apply fitsBuffer.inside ((addressOf sender.slot).length,
            sender.text.length)
          rw [stored]
          exact List.mem_cons_of_mem _ (List.mem_cons_self ..)
        have returned := (fitsBuffer.copied (fitsBuffer.succeeds.mpr fits)).1
        exact ⟨.inl (by omega), fun _ => int_eq_iff.mp returned⟩
      · rintro ⟨notLonger, narrow⟩
        have fits : sender.text.length ≤ buflen := by
          rcases notLonger with other | last
          · omega
          · omega
        rw [int_eq_iff.mpr (narrow fits)]
        refine ⟨?_, Int.ofNat_le.mpr fits, ⟨fun _ => fits,
          fun _ => Int.natCast_nonneg _⟩, fun _ => ⟨rfl, holds⟩⟩
        intro extent member
        rw [stored] at member
        simp only [List.mem_cons, List.not_mem_nil, or_false] at member
        rcases member with rfl | rfl
        · change (addressOf sender.slot).length ≤ buflen
          omega
        · exact fits

/-- A message of peer 1; the reader is to get `100,27:hello`. -/
def hello : Sender where
  slot :=
    { buflen := 5
      peerId := 1
      lastResponder := 3
      peerSid := 27
      peerCid := 100
      buf := toBytes "hello".toList ++ List.replicate 379 0 }
  maxBuflen := 384
  peer := by decide
  cid := rfl
  sid := rfl
  short := by decide
  body := by rw [List.length_append, List.length_replicate]; rfl
  wide := by decide

set_option maxRecDepth 2000 in
/-- A buffer of eleven bytes gets twelve. -/
theorem twelfth_byte_stored :
    (famezBridgeRead hello.slot 11 (caller (fun _ => 0) 11 1)).1 = 12 ∧
      (famezBridgeRead hello.slot 11 (caller (fun _ => 0) 11 1)).2.stored =
        [(0, 7), (7, 12)] ∧
      ¬ FitsBuffer hello 11
        (famezBridgeRead hello.slot 11 (caller (fun _ => 0) 11 1)) := by
  refine ⟨by decide, by decide, fun fits => ?_⟩
  exact absurd fits.returned (by decide)

end FameZ.Kernel.BridgeRead
