/-
Module: FameZ.Link.Drivers
Purpose: What the link layer of the kernel driver makes of the messages that a
  Python process posts.
Trusted boundary: none
Main exports: posted, cstring_encode, sscanf_ctlWrite,
  formatInt_eq_decimalInt, famezLinkRequest_of_ctlWrite,
  famezLinkRequest_of_peerAttribute, famezLinkRequest_of_ping,
  famezLinkRequest_ack
-/
import FameZ.Kernel.Link
import FameZ.Link.Messages

namespace FameZ.Link

open PyText
open Scanf (decimal decimal_injective formatInt sscanf sprintf StopsDigits
  isDigit_of_mem_decimal sscanf_literals sscanf_space sscanf_decimal
  sprintf_literals sprintf_decimal skipSpaces_of_not_isSpace)

/-- The mailslot of a peer once `fill` left a text in it. -/
def posted (peerId : Nat) (text : Text) : Kernel.Mailslot where
  buflen := byteLength text
  peerId := peerId
  lastResponder := 0
  peerSid := 0
  peerCid := 0
  buf := encode text ++ [0]

/-- One byte a character, none of them NUL. -/
def Ascii (text : Text) : Prop := ∀ c ∈ text, 0 < c.toNat ∧ c.toNat < 128

instance (text : Text) : Decidable (Ascii text) :=
  List.decidableBAll _ text

theorem ascii_append {first second : Text} (ascii : Ascii first)
    (asciiSecond : Ascii second) : Ascii (first ++ second) := by
  intro c member
  rcases List.mem_append.mp member with inside | inside
  · exact ascii c inside
  · exact asciiSecond c inside

theorem ascii_decimal (n : Nat) : Ascii (decimal n) := by
  intro c member
  have digit := isDigit_of_mem_decimal member
  simp only [Char.isDigit, Bool.and_eq_true, decide_eq_true_eq] at digit
  have low : 48 ≤ c.toNat := digit.1
  have high : c.toNat ≤ 57 := digit.2
  omega

theorem ascii_decimalInt (value : Int) : Ascii (decimalInt value) := by
  cases value with
  | ofNat n => exact ascii_decimal n
  | negSucc n =>
      intro c member
      rcases List.mem_cons.mp member with rfl | inside
      · decide
      · exact ascii_decimal (n + 1) c inside

theorem encode_char {c : Char} (small : c.toNat < 128) :
    String.utf8EncodeChar c = [UInt8.ofNat c.toNat] :=
  if_pos (Nat.le_of_lt_succ small)

theorem byteLength_of_ascii {text : Text} (ascii : Ascii text) :
    byteLength text = text.length := by
  rw [byteLength, encode]
  induction text with
  | nil => rfl
  | cons c rest inductionHypothesis =>
      have small := (ascii c (List.mem_cons_self ..)).2
      have later := inductionHypothesis fun other member =>
        ascii other (List.mem_cons_of_mem _ member)
      rw [List.flatMap_cons, encode_char small, List.length_append, later,
        List.length_singleton, List.length_cons, Nat.add_comm]

/-- The driver reads back what was encoded, up to the NUL. -/
theorem cstring_encode {text : Text} (ascii : Ascii text)
    (rest : List UInt8) : Kernel.cstring (encode text ++ 0 :: rest) = text := by
  induction text with
  | nil => rfl
  | cons c tail inductionHypothesis =>
      obtain ⟨notNul, small⟩ := ascii c (List.mem_cons_self ..)
      have byte : (UInt8.ofNat c.toNat).toNat = c.toNat := by
        rw [UInt8.toNat_ofNat']
        exact Nat.mod_eq_of_lt (by omega)
      have notZero : UInt8.ofNat c.toNat ≠ 0 := by
        intro zero
        rw [zero] at byte
        exact absurd byte (by simp; omega)
      have later := inductionHypothesis fun other member =>
        ascii other (List.mem_cons_of_mem _ member)
      rw [encode, List.flatMap_cons, encode_char small, ← encode,
        Kernel.cstring, List.append_assoc, List.singleton_append,
        List.takeWhile_cons_of_pos (by simpa using notZero), List.map_cons,
        byte, Char.ofNat_toNat, ← Kernel.cstring, later]

theorem cstring_posted (peerId : Nat) {text : Text} (ascii : Ascii text) :
    Kernel.cstring (posted peerId text).buf = text :=
  cstring_encode ascii []

/-! ### The texts -/

/-- The characters of a tracker. -/
def trackerText : Option Int → Text
  | none => []
  | some tracker => trackerToken ++ decimalInt tracker

theorem render_eq_append (msg : Msg) (tracker : Option Int) :
    msg.render tracker = msg.payload ++ trackerText tracker := by
  cases tracker with
  | none => exact (List.append_nil _).symm
  | some value =>
      rw [Msg.render, stamp, trackerText, List.append_assoc]

theorem stopsDigits_cons {c : Char} (rest : Text)
    (digit : c.isDigit = false) : StopsDigits (c :: rest) := by
  intro other tail equal
  rw [← (List.cons.inj equal).1]
  exact digit

/-- No tracker continues a number. -/
theorem stopsDigits_trackerText (tracker : Option Int) :
    StopsDigits (trackerText tracker) := by
  cases tracker with
  | none =>
      intro c rest equal
      cases equal
  | some value =>
      exact stopsDigits_cons ("FZT=".toList ++ decimalInt value) (by decide)

theorem ascii_trackerText (tracker : Option Int) :
    Ascii (trackerText tracker) := by
  cases tracker with
  | none => exact fun c member => by cases member
  | some value =>
      exact ascii_append (by decide) (ascii_decimalInt value)

theorem ascii_ctlWrite (pfmsid pfmcid sid cid : Int) (tag : Nat) :
    Ascii (Msg.ctlWrite pfmsid pfmcid sid cid tag).payload := by
  unfold Msg.payload
  dsimp only
  refine ascii_append (ascii_append (ascii_append (ascii_append (ascii_append
    (ascii_append (ascii_append (ascii_append (ascii_append ?_
      (ascii_decimalInt pfmsid)) ?_) (ascii_decimalInt pfmcid)) ?_)
      (ascii_decimalInt sid)) ?_) (ascii_decimalInt cid)) ?_)
      (ascii_decimal tag) <;> decide

theorem ascii_ack {cClass : Text} (ascii : Ascii cClass) (sid0 cid0 : Int) :
    Ascii (Msg.ack cClass sid0 cid0).payload := by
  unfold Msg.payload
  dsimp only
  refine ascii_append (ascii_append (ascii_append (ascii_append (ascii_append
    ?_ ascii) ?_) (ascii_decimalInt sid0)) ?_) (ascii_decimalInt cid0) <;>
    decide

/-! ### The conversions -/

theorem ofInt_natCast (n : Nat) : UInt32.ofInt n = UInt32.ofNat n :=
  UInt32.toNat_inj.mp (by simp [UInt32.ofInt]; omega)

/-- `%d` reads any integer back, up to its low 32 bits. -/
theorem sscanf_decimalInt (value : Int) (format : Text) {rest : Text}
    (stops : StopsDigits rest) :
    sscanf ('%' :: 'd' :: format) (decimalInt value ++ rest) =
      UInt32.ofInt value :: sscanf format rest := by
  cases value with
  | ofNat n =>
      rw [decimalInt, Int.ofNat_eq_natCast, ofInt_natCast]
      exact sscanf_decimal n format stops
  | negSucc n =>
      have read : UInt32.ofInt (Int.negSucc n) = 0 - UInt32.ofNat (n + 1) := by
        rw [Int.negSucc_eq, UInt32.ofInt_neg, UInt32.zero_sub]
        exact congrArg Neg.neg (ofInt_natCast (n + 1))
      have digits := Scanf.digitsSpan_decimal (n + 1) stops
      have scanned : Scanf.scanInt ('-' :: (decimal (n + 1) ++ rest)) =
          some (0 - UInt32.ofNat (n + 1), rest) := by
        rw [Scanf.scanInt, digits]
        dsimp only
        rw [if_neg (Scanf.decimal_ne_nil _), Scanf.digitsValue_decimal]
      rw [decimalInt, read, List.cons_append, sscanf,
        skipSpaces_of_not_isSpace _ (by decide), scanned]

/-- The five numbers of a CTL-Write, each with its low 32 bits. -/
theorem sscanf_ctlWrite (pfmsid pfmcid sid cid : Int) (tag : Nat)
    {rest : Text} (stops : StopsDigits rest) :
    sscanf Kernel.ctlWrite0SidCid
        ((Msg.ctlWrite pfmsid pfmcid sid cid tag).payload ++ rest) =
      [UInt32.ofInt pfmsid, UInt32.ofInt pfmcid, UInt32.ofInt sid,
        UInt32.ofInt cid, UInt32.ofNat tag] := by
  have format : Kernel.ctlWrite0SidCid =
      "CTL-Write".toList ++ ' ' :: ("Space=0,PFMSID=".toList ++ '%' :: 'd' ::
        (",PFMCID=".toList ++ '%' :: 'd' :: (",SID=".toList ++ '%' :: 'd' ::
        (",CID=".toList ++ '%' :: 'd' :: (",Tag=".toList ++ '%' :: 'd' ::
        []))))) := rfl
  have text : (Msg.ctlWrite pfmsid pfmcid sid cid tag).payload ++ rest =
      "CTL-Write".toList ++ ' ' :: ("Space=0,PFMSID=".toList ++
        (decimalInt pfmsid ++ (",PFMCID=".toList ++ (decimalInt pfmcid ++
        (",SID=".toList ++ (decimalInt sid ++ (",CID=".toList ++
        (decimalInt cid ++ (",Tag=".toList ++
        (decimal tag ++ rest)))))))))) := by
    unfold Msg.payload
    simp only [List.append_assoc]
    rfl
  -- after each number the text goes on with a comma
  have comma : ∀ {literal : Text} (tail : Text),
      literal.head? = some ',' → StopsDigits (literal ++ tail) := by
    intro literal tail starts
    obtain ⟨more, rfl⟩ := List.head?_eq_some_iff.mp starts
    exact stopsDigits_cons (more ++ tail) (by decide)
  have skipped : ∀ tail : Text,
      Scanf.skipSpaces (' ' :: ("Space=0,PFMSID=".toList ++ tail)) =
        "Space=0,PFMSID=".toList ++ tail := fun _ => rfl
  rw [format, text, sscanf_literals _ _ (by decide),
    sscanf_space _ _ (by decide) (by decide), skipped,
    sscanf_literals _ _ (by decide),
    sscanf_decimalInt _ _ (comma _ rfl),
    sscanf_literals _ _ (by decide),
    sscanf_decimalInt _ _ (comma _ rfl),
    sscanf_literals _ _ (by decide),
    sscanf_decimalInt _ _ (comma _ rfl),
    sscanf_literals _ _ (by decide),
    sscanf_decimalInt _ _ (comma _ rfl),
    sscanf_literals _ _ (by decide), sscanf_decimal _ _ stops]
  rfl

/-- The number that `%d` prints of 32 bits. -/
def int32 (value : UInt32) : Int := value.toBitVec.toInt

theorem int32_of_lt {value : UInt32} (small : value.toNat < 2 ^ 31) :
    int32 value = value.toNat :=
  BitVec.toInt_eq_toNat_of_lt (show 2 * value.toNat < 2 ^ 32 by omega)

theorem formatInt_eq_decimalInt (value : UInt32) :
    formatInt value = decimalInt (int32 value) := by
  unfold formatInt
  split
  · rename_i small
    rw [int32_of_lt small]
    rfl
  · rename_i large
    have bound := value.toNat_lt
    have signed : int32 value =
        Int.negSucc (2 ^ 32 - value.toNat - 1) := by
      have whole : value.toBitVec.toNat = value.toNat := rfl
      rw [int32, BitVec.toInt_eq_toNat_cond, whole, if_neg (by omega),
        Int.negSucc_eq]
      omega
    have positive : 2 ^ 32 - value.toNat - 1 + 1 = 2 ^ 32 - value.toNat := by
      omega
    rw [signed, decimalInt, positive]

/-- A number is printed back exactly below `2 ^ 31`. -/
theorem formatInt_ofNat_iff (n : Nat) :
    formatInt (UInt32.ofNat n) = decimal n ↔ n < 2 ^ 31 := by
  have reduced : (UInt32.ofNat n).toNat = n % 2 ^ 32 := UInt32.toNat_ofNat'
  unfold formatInt
  constructor
  · intro same
    split at same
    · rename_i small
      have whole := decimal_injective same
      rwa [whole] at small
    · have sign : '-' ∈ decimal n := same ▸ List.mem_cons_self ..
      exact absurd sign (not_mem_decimal n (by decide))
  · intro small
    have whole : n % 2 ^ 32 = n := Nat.mod_eq_of_lt (by omega)
    rw [reduced, whole, if_pos small]

/-- The acknowledgment prints the low 32 bits of the tag as a signed number. -/
theorem sprintf_standaloneAck (tag : UInt32) :
    sprintf Kernel.standaloneAcknowledgment [tag] =
      "Standalone Acknowledgment Tag=".toList ++ formatInt tag ++
        ",Reason=OK".toList := by
  have format : Kernel.standaloneAcknowledgment =
      "Standalone Acknowledgment Tag=".toList ++
        '%' :: 'd' :: (",Reason=OK".toList ++ []) := rfl
  rw [format, sprintf_literals _ _ (by decide), sprintf_decimal,
    sprintf_literals _ _ (by decide), List.append_assoc]
  rfl

theorem sprintf_linkCtlAckIds (sid0 cid0 : UInt32) :
    sprintf Kernel.linkCtlAckIds [sid0, cid0] =
      ",SID0=".toList ++ formatInt sid0 ++ ",CID0=".toList ++
        formatInt cid0 := by
  have format : Kernel.linkCtlAckIds =
      ",SID0=".toList ++ '%' :: 'd' ::
        (",CID0=".toList ++ '%' :: 'd' :: []) := rfl
  rw [format, sprintf_literals _ _ (by decide), sprintf_decimal,
    sprintf_literals _ _ (by decide), sprintf_decimal]
  simp only [sprintf, List.append_nil, List.append_assoc]

/-- A text that does not start like the other requests. -/
theorem startsWith_cons_of_ne {c d : Char} (rest expected : Text)
    (differ : c ≠ d) :
    Kernel.startsWith (c :: rest) (d :: expected) = false := by
  simp [Kernel.startsWith, differ]

/-! ### The requests -/

/-- The slot as a request leaves it that is answered. -/
def answered (slot : Kernel.Mailslot) : Kernel.Mailslot :=
  { slot with
    buflen := 0
    peerSid := Kernel.famezSidDefault
    peerCid := slot.peerId * 100 % 2 ^ 64 }

/-- The core structure once a driver took a CTL-Write. -/
def configured (core : Kernel.Core) (pfmsid pfmcid sid cid : Int) :
    Kernel.Core :=
  { core with
    pfmsid := UInt32.ofInt pfmsid
    pfmcid := UInt32.ofInt pfmcid
    sid0 := UInt32.ofInt sid
    cid0 := UInt32.ofInt cid
    pmcid := 0 - 1 }

/-- A driver takes the ids and answers with the tag as it read it. -/
theorem famezLinkRequest_of_ctlWrite {slot : Kernel.Mailslot}
    (core : Kernel.Core) {pfmsid pfmcid sid cid : Int} {tag : Nat}
    {tracker : Option Int}
    (text : Kernel.cstring slot.buf =
      (Msg.ctlWrite pfmsid pfmcid sid cid tag).render tracker) :
    Kernel.famezLinkRequest slot core =
      (answered slot, configured core pfmsid pfmcid sid cid,
        some
          { peerId := slot.peerId % 2 ^ 32
            text := "Standalone Acknowledgment Tag=".toList ++
              formatInt (UInt32.ofNat tag) ++ ",Reason=OK".toList }) := by
  have read := sscanf_ctlWrite pfmsid pfmcid sid cid tag
    (stopsDigits_trackerText tracker)
  have notPing : Kernel.startsWith
      ((Msg.ctlWrite pfmsid pfmcid sid cid tag).payload ++
        trackerText tracker) "ping".toList = false :=
    startsWith_cons_of_ne _ _ (by decide)
  have notRequest : Kernel.startsWith
      ((Msg.ctlWrite pfmsid pfmcid sid cid tag).payload ++
        trackerText tracker) Kernel.linkCtlPeerAttribute = false :=
    startsWith_cons_of_ne _ _ (by decide)
  rw [render_eq_append] at text
  unfold Kernel.famezLinkRequest
  dsimp only
  rw [text, notPing, notRequest, read, if_neg (by simp), if_neg (by simp)]
  dsimp only
  rw [sprintf_standaloneAck]
  rfl

/-- A driver names its class and its ids. -/
theorem famezLinkRequest_of_peerAttribute {slot : Kernel.Mailslot}
    (core : Kernel.Core) {tracker : Option Int}
    (text : Kernel.cstring slot.buf = Msg.peerAttribute.render tracker) :
    Kernel.famezLinkRequest slot core =
      (answered slot, core,
        some
          { peerId := slot.peerId % 2 ^ 32
            text := (Msg.ack core.baseCClassStr (int32 core.sid0)
              (int32 core.cid0)).payload }) := by
  have notPing : Kernel.startsWith
      (Msg.peerAttribute.payload ++ trackerText tracker) "ping".toList =
        false :=
    startsWith_cons_of_ne _ _ (by decide)
  have request : Kernel.startsWith
      (Msg.peerAttribute.payload ++ trackerText tracker)
        Kernel.linkCtlPeerAttribute = true := by
    rw [Kernel.startsWith, decide_eq_true_eq]
    exact List.take_left
  have reply : Kernel.linkCtlAck ++ core.baseCClassStr ++
      sprintf Kernel.linkCtlAckIds [core.sid0, core.cid0] =
      (Msg.ack core.baseCClassStr (int32 core.sid0)
        (int32 core.cid0)).payload := by
    rw [sprintf_linkCtlAckIds, formatInt_eq_decimalInt,
      formatInt_eq_decimalInt]
    unfold Msg.payload
    simp only [List.append_assoc]
    rfl
  rw [render_eq_append] at text
  unfold Kernel.famezLinkRequest
  dsimp only
  rw [text, notPing, request, if_neg (by simp), if_pos rfl, reply]
  rfl

/-- A ping is known by its exact length only. -/
theorem famezLinkRequest_of_ping {slot : Kernel.Mailslot}
    (core : Kernel.Core) {rest : Text}
    (text : Kernel.cstring slot.buf = "ping".toList ++ rest)
    (longer : slot.buflen ≠ 4) :
    (Kernel.famezLinkRequest slot core).2.2 = none := by
  have notRequest : Kernel.startsWith ("ping".toList ++ rest)
      Kernel.linkCtlPeerAttribute = false :=
    startsWith_cons_of_ne _ _ (by decide)
  have notWrite : sscanf Kernel.ctlWrite0SidCid ("ping".toList ++ rest) =
      [] := rfl
  unfold Kernel.famezLinkRequest
  dsimp only
  rw [text, notRequest, notWrite, if_neg fun exact => longer exact.1,
    if_neg (by simp)]

theorem famezLinkRequest_ctlWrite (peerId : Nat) (core : Kernel.Core)
    (pfmsid pfmcid sid cid tag : Nat) (tracker : Option Int) :
    (Kernel.famezLinkRequest
        (posted peerId
          ((Msg.ctlWrite pfmsid pfmcid sid cid tag).render tracker))
        core).2 =
      ({ core with
          pfmsid := UInt32.ofNat pfmsid
          pfmcid := UInt32.ofNat pfmcid
          sid0 := UInt32.ofNat sid
          cid0 := UInt32.ofNat cid
          pmcid := 0 - 1 },
        some
          { peerId := peerId % 2 ^ 32
            text := "Standalone Acknowledgment Tag=".toList ++
              formatInt (UInt32.ofNat tag) ++ ",Reason=OK".toList }) := by
  have ascii : Ascii
      ((Msg.ctlWrite pfmsid pfmcid sid cid tag).render tracker) := by
    rw [render_eq_append]
    exact ascii_append (ascii_ctlWrite pfmsid pfmcid sid cid tag)
      (ascii_trackerText tracker)
  rw [famezLinkRequest_of_ctlWrite core (cstring_posted peerId ascii),
    configured, ofInt_natCast, ofInt_natCast, ofInt_natCast, ofInt_natCast]
  rfl

theorem famezLinkRequest_peerAttribute (peerId : Nat) {core : Kernel.Core}
    (sid0 : core.sid0.toNat < 2 ^ 31) (cid0 : core.cid0.toNat < 2 ^ 31)
    (tracker : Option Int) :
    (Kernel.famezLinkRequest
        (posted peerId (Msg.peerAttribute.render tracker)) core).2 =
      (core,
        some
          { peerId := peerId % 2 ^ 32
            text := (Msg.ack core.baseCClassStr core.sid0.toNat
              core.cid0.toNat).payload }) := by
  have ascii : Ascii (Msg.peerAttribute.render tracker) := by
    rw [render_eq_append]
    exact ascii_append (by decide) (ascii_trackerText tracker)
  rw [famezLinkRequest_of_peerAttribute core (cstring_posted peerId ascii),
    int32_of_lt sid0, int32_of_lt cid0]
  rfl

/-- A driver leaves an ACK to its readers. -/
theorem famezLinkRequest_ack (peerId : Nat) (core : Kernel.Core)
    {cClass : Text} (ascii : Ascii cClass) (sid0 cid0 : Int)
    (tracker : Option Int) :
    (Kernel.famezLinkRequest
        (posted peerId ((Msg.ack cClass sid0 cid0).render tracker))
        core).2 = (core, none) := by
  have text := cstring_posted peerId
    (ascii_append (ascii_ack ascii sid0 cid0) (ascii_trackerText tracker))
  have notPing : Kernel.startsWith
      ((Msg.ack cClass sid0 cid0).payload ++ trackerText tracker)
        "ping".toList = false :=
    startsWith_cons_of_ne _ _ (by decide)
  have notRequest : Kernel.startsWith
      ((Msg.ack cClass sid0 cid0).payload ++ trackerText tracker)
        Kernel.linkCtlPeerAttribute = false := rfl
  have notWrite : sscanf Kernel.ctlWrite0SidCid
      ((Msg.ack cClass sid0 cid0).payload ++ trackerText tracker) = [] := rfl
  rw [render_eq_append]
  unfold Kernel.famezLinkRequest
  dsimp only
  rw [text, notPing, notRequest, notWrite, if_neg (by simp),
    if_neg (by simp)]

end FameZ.Link
