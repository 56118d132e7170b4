/-
Module: FameZ.Kernel.Bridge
Purpose: The addresses that the bridge device prints in front of what it reads
  and parses in front of what it writes.
Trusted boundary: the translation of famez_bridge_read and of
  famez_bridge_write, with copies to and from user space that succeed
Main exports: addressOf, famezBridgeRead, famezBridgeWrite, RoundTrips,
  splitAtColon_append, swapped_address_returns, address_never_returns
-/
import FameZ.Kernel.Outgoing
import FameZ.Lib.Kstrto

namespace FameZ.Kernel.Bridge

open Scanf (decimal)
open Outgoing (createOutgoing peerIdOf famezSidCidIsPeerId)

/-- One byte a character. -/
def toBytes (text : List Char) : List UInt8 :=
  text.map fun c => UInt8.ofNat c.toNat

inductive Errno where
  | e2big
  | ebadmsg
  | parse (error : Kstrto.Error)
  | outgoing (errno : Outgoing.Errno)
deriving Repr, DecidableEq

/-! ### Reading -/

/-- `"%llu,%llu:"` of the ids that the interrupt handler computed. -/
def addressOf (sender : Mailslot) : List Char :=
  decimal sender.peerCid ++ ',' :: (decimal sender.peerSid ++ [':'])

/-- `famez_bridge_read` once a sender is there. -/
def famezBridgeRead (sender : Mailslot) (buflen : Nat) :
    Except Errno (List UInt8) :=
  let sidcidstr := addressOf sender
  if 32 ≤ sidcidstr.length ∨ buflen < sender.buflen + sidcidstr.length - 1 then
    .error .e2big
  else .ok (toBytes sidcidstr ++ sender.buf.take sender.buflen)

/-! ### Writing -/

/-- The two halves of `Doorbell`. -/
structure Ringer where
  vector : UInt16
  peer : UInt16
deriving Repr, DecidableEq

/-- What famez_create_outgoing stores and rings once the slot is idle. -/
structure Submission where
  ringer : Ringer
  body : List UInt8
deriving Repr, DecidableEq

/-- The fields of an adapter that a write uses. -/
structure Adapter where
  serverId : Nat
  maxBuflen : Nat
  myId : UInt16

/-- `strchr(wbuf, ':')`: what is before the first colon and behind it, if that
comes before any NUL. -/
def splitAtColon (wbuf : List UInt8) : Option (List UInt8 × List UInt8) :=
  if 58 ∈ wbuf.takeWhile (fun byte => decide (byte ≠ 0)) then
    some (wbuf.takeWhile fun byte => decide (byte ≠ 58),
      (wbuf.dropWhile fun byte => decide (byte ≠ 58)).tail)
  else none

/-- The names of the server. -/
def serverNames : List (List Char) :=
  ["server".toList, "switch".toList, "link".toList, "interface".toList]

instance (name : List Char) : Decidable (name ∈ serverNames) :=
  List.instDecidableMemOfLawfulBEq name serverNames

/-- The CID and the SID that famez_bridge_write makes of the text before the
colon.  What stands before a comma is parsed into the SID. -/
def destination (serverId : Nat) (header : List Char) :
    Except Errno (Int × Int) :=
  if header ∈ serverNames then .ok (serverId, famezSidCidIsPeerId)
  else if ',' ∈ header then
    match Kstrto.kstrtoint (header.takeWhile fun c => decide (c ≠ ',')) with
    | .error error => .error (.parse error)
    | .ok sid =>
        match Kstrto.kstrtoint
          (header.dropWhile fun c => decide (c ≠ ',')).tail with
        | .error error => .error (.parse error)
        | .ok cid => .ok (cid, sid)
  else
    match Kstrto.kstrtoint header with
    | .error error => .error (.parse error)
    | .ok cid => .ok (cid, famezSidCidIsPeerId)

/-- `famez_bridge_write` up to the wait for its own slot. -/
def famezBridgeWrite (adapter : Adapter) (buf : List UInt8) :
    Except Errno Submission :=
  if adapter.maxBuflen - 1 ≤ buf.length then .error .e2big
  else
    match splitAtColon buf with
    | none => .error .ebadmsg
    | some (header, body) =>
        match destination adapter.serverId (cstring header) with
        | .error errno => .error errno
        | .ok (cid, sid) =>
            match createOutgoing adapter.serverId adapter.maxBuflen cid sid
              body.length with
            | .error errno => .error (.outgoing errno)
            | .ok peerId =>
                .ok
                  { ringer :=
                      { vector := adapter.myId
                        peer := UInt16.ofNat peerId }
                    body := body }

/-- A message of the sender is read, and a body written back to the address in
front of it goes to the sender. -/
def RoundTrips (adapter : Adapter) (sender : Mailslot) (body : List UInt8) :
    Prop :=
  famezBridgeWrite adapter (toBytes (addressOf sender) ++ body) =
    .ok
      { ringer :=
          { vector := adapter.myId
            peer := UInt16.ofNat sender.peerId }
        body := body }

/-! ### The text before the colon -/

/-- What C strings of one byte a character can hold. -/
def Plain (text : List Char) : Prop :=
  ∀ c ∈ text, 0 < c.toNat ∧ c.toNat < 128 ∧ c ≠ ':'

theorem toNat_byte {c : Char} (small : c.toNat < 128) :
    (UInt8.ofNat c.toNat).toNat = c.toNat := by
  rw [UInt8.toNat_ofNat']
  exact Nat.mod_eq_of_lt (by omega)

theorem byte_ne {c : Char} (small : c.toNat < 128) {byte : UInt8}
    (differ : c.toNat ≠ byte.toNat) : UInt8.ofNat c.toNat ≠ byte := by
  intro same
  apply differ
  rw [← same, toNat_byte small]

theorem plain_bytes {text : List Char} (plain : Plain text) :
    ∀ byte ∈ toBytes text, byte ≠ 0 ∧ byte ≠ 58 := by
  intro byte member
  obtain ⟨c, among, rfl⟩ := List.mem_map.mp member
  obtain ⟨positive, small, notColon⟩ := plain c among
  refine ⟨byte_ne small ?_, byte_ne small ?_⟩
  · exact Nat.pos_iff_ne_zero.mp positive
  · intro colon
    exact notColon (Char.toNat_inj.mp colon)

theorem cstring_toBytes {text : List Char} (plain : Plain text) :
    cstring (toBytes text) = text := by
  have nonzero : ∀ byte ∈ toBytes text, decide (byte ≠ 0) = true :=
    fun byte member => decide_eq_true (plain_bytes plain byte member).1
  rw [cstring, List.takeWhile_eq_self_iff.mpr nonzero, toBytes, List.map_map]
  conv_rhs => rw [← List.map_id text]
  apply List.map_congr_left
  intro c member
  change Char.ofNat (UInt8.ofNat c.toNat).toNat = c
  rw [toNat_byte (plain c member).2.1, Char.ofNat_toNat]

/-- A header without NUL and colon is split off at the colon. -/
theorem splitAtColon_append {header : List UInt8} (first : 58 ∉ header)
    (noNul : 0 ∉ header) (body : List UInt8) :
    splitAtColon (header ++ 58 :: body) = some (header, body) := by
  have other : ∀ {c : UInt8}, c ∉ header →
      ∀ byte ∈ header, decide (byte ≠ c) = true := by
    intro c missing byte member
    apply decide_eq_true
    rintro rfl
    exact missing member
  have present : 58 ∈ (header ++ 58 :: body).takeWhile
      fun byte => decide (byte ≠ 0) := by
    rw [List.takeWhile_append_of_pos (other noNul)]
    apply List.mem_append_right
    rw [List.takeWhile_cons_of_pos (by decide)]
    exact List.mem_cons_self ..
  rw [splitAtColon, if_pos present,
    List.takeWhile_append_of_pos (other first),
    List.dropWhile_append_of_pos (other first),
    List.takeWhile_cons_of_neg (by decide),
    List.dropWhile_cons_of_neg (by decide), List.append_nil]
  rfl

/-- What is split has a colon in front of any NUL. -/
theorem splitAtColon_eq_some {wbuf header body : List UInt8}
    (split : splitAtColon wbuf = some (header, body)) :
    wbuf = header ++ 58 :: body ∧ 58 ∉ header ∧ 0 ∉ header := by
  have present : 58 ∈ wbuf.takeWhile fun byte => decide (byte ≠ 0) := by
    rw [splitAtColon, Option.ite_none_right_eq_some] at split
    exact split.1
  obtain ⟨before, behind, found, first⟩ := List.eq_append_cons_of_mem present
  have noNul : 0 ∉ before := by
    intro member
    have inside : 0 ∈ wbuf.takeWhile fun byte => decide (byte ≠ 0) := by
      rw [found]
      exact List.mem_append_left _ member
    exact absurd (List.mem_takeWhile_imp inside) (by decide)
  have whole : wbuf = before ++ 58 :: (behind ++
      wbuf.dropWhile fun byte => decide (byte ≠ 0)) := by
    rw [← List.cons_append, ← List.append_assoc, ← found,
      List.takeWhile_append_dropWhile]
  rw [whole, splitAtColon_append first noNul] at split
  cases split
  exact ⟨whole, first, noNul⟩

theorem splitAtColon_plain {text : List Char} (plain : Plain text)
    (body : List UInt8) :
    splitAtColon (toBytes text ++ 58 :: body) = some (toBytes text, body) :=
  splitAtColon_append
    (fun colon => (plain_bytes plain 58 colon).2 rfl)
    (fun nul => (plain_bytes plain 0 nul).1 rfl) body

theorem plain_decimal (n : Nat) : Plain (decimal n) := by
  intro c member
  have digit := Scanf.isDigit_of_mem_decimal member
  simp only [Char.isDigit, Bool.and_eq_true, decide_eq_true_eq] at digit
  have low : 48 ≤ c.toNat := digit.1
  have high : c.toNat ≤ 57 := digit.2
  refine ⟨by omega, by omega, ?_⟩
  rintro rfl
  exact absurd high (by decide)

/-- Two numbers with a comma between them. -/
def pair (first second : Nat) : List Char :=
  decimal first ++ ',' :: decimal second

theorem plain_pair (first second : Nat) : Plain (pair first second) := by
  intro c member
  rcases List.mem_append.mp member with digit | rest
  · exact plain_decimal first c digit
  · rcases List.mem_cons.mp rest with rfl | digit
    · decide
    · exact plain_decimal second c digit

theorem comma_not_mem_decimal (n : Nat) : ',' ∉ decimal n := by
  intro member
  exact absurd (Scanf.isDigit_of_mem_decimal member) (by decide)

/-- The number in front of the comma becomes the SID. -/
theorem destination_pair (serverId first second : Nat) :
    destination serverId (pair first second) =
      if first < 2 ^ 31 ∧ second < 2 ^ 31 then .ok (second, first)
      else .error (.parse .erange) := by
  have comma : ',' ∈ pair first second :=
    List.mem_append_right _ (List.mem_cons_self ..)
  have noName : pair first second ∉ serverNames := by
    intro member
    have plain : ∀ name ∈ serverNames, ',' ∉ name := by decide
    exact plain _ member comma
  have digits : ∀ c ∈ decimal first, decide (c ≠ ',') = true := by
    intro c member
    apply decide_eq_true
    rintro rfl
    exact comma_not_mem_decimal first member
  have before : (pair first second).takeWhile (fun c => decide (c ≠ ',')) =
      decimal first := by
    rw [pair, List.takeWhile_append_of_pos digits,
      List.takeWhile_cons_of_neg (by decide), List.append_nil]
  have after : ((pair first second).dropWhile
      fun c => decide (c ≠ ',')).tail = decimal second := by
    rw [pair, List.dropWhile_append_of_pos digits,
      List.dropWhile_cons_of_neg (by decide)]
    rfl
  rw [destination, if_neg noName, if_pos comma, before, after,
    Kstrto.kstrtoint_decimal, Kstrto.kstrtoint_decimal]
  by_cases firstFits : first < 2 ^ 31
  · by_cases secondFits : second < 2 ^ 31
    · rw [if_pos firstFits, if_pos secondFits,
        if_pos ⟨firstFits, secondFits⟩]
    · rw [if_pos firstFits, if_neg secondFits,
        if_neg fun both => secondFits both.2]
  · have notBoth : ¬ (first < 2 ^ 31 ∧ second < 2 ^ 31) :=
      fun both => firstFits both.1
    rw [if_neg firstFits, if_neg notBoth]

/-- Where a write of two numbers and a body goes. -/
theorem famezBridgeWrite_pair (adapter : Adapter) {first second : Nat}
    {body : List UInt8}
    (fits : (toBytes (pair first second)).length + 1 + body.length <
      adapter.maxBuflen - 1) :
    famezBridgeWrite adapter (toBytes (pair first second) ++ 58 :: body) =
      if first < 2 ^ 31 ∧ second < 2 ^ 31 then
        match createOutgoing adapter.serverId adapter.maxBuflen second first
          body.length with
        | .error errno => .error (.outgoing errno)
        | .ok peerId =>
            .ok
              { ringer :=
                  { vector := adapter.myId
                    peer := UInt16.ofNat peerId }
                body := body }
      else .error (.parse .erange) := by
  have short : ¬ adapter.maxBuflen - 1 ≤
      (toBytes (pair first second) ++ 58 :: body).length := by
    rw [List.length_append, List.length_cons]
    omega
  have plain := plain_pair first second
  rw [famezBridgeWrite, if_neg short, splitAtColon_plain plain]
  dsimp only
  rw [cstring_toBytes plain, destination_pair]
  by_cases small : first < 2 ^ 31 ∧ second < 2 ^ 31
  · rw [if_pos small, if_pos small]
  · rw [if_neg small, if_neg small]

/-! ### Addresses of senders -/

/-- What is read starts with the address of the sender. -/
theorem famezBridgeRead_address {sender : Mailslot} {buflen : Nat}
    {text : List UInt8}
    (returned : famezBridgeRead sender buflen = .ok text) :
    text = toBytes (addressOf sender) ++ sender.buf.take sender.buflen := by
  unfold famezBridgeRead at returned
  dsimp only at returned
  split at returned
  · cases returned
  · cases returned
    rfl

theorem toBytes_address (sender : Mailslot) (body : List UInt8) :
    toBytes (addressOf sender) ++ body =
      toBytes (pair sender.peerCid sender.peerSid) ++ 58 :: body := by
  rw [addressOf, pair, toBytes, toBytes, List.map_append, List.map_append,
    List.append_assoc, List.append_assoc]
  rw [List.map_cons, List.map_cons, List.map_append, List.cons_append,
    List.append_assoc]
  rfl

/-- With the SID in front the same numbers lead back to the sender. -/
theorem swapped_address_returns (adapter : Adapter) {id : Nat}
    {body : List UInt8} (low : 1 ≤ id) (high : id ≤ adapter.serverId)
    (small : id * 100 < 2 ^ 31) (nonempty : body ≠ [])
    (fits : (toBytes (pair 27 (id * 100))).length + 1 + body.length <
      adapter.maxBuflen - 1) :
    famezBridgeWrite adapter (toBytes (pair 27 (id * 100)) ++ 58 :: body) =
      .ok
        { ringer := { vector := adapter.myId, peer := UInt16.ofNat id }
          body := body } := by
  have peer : peerIdOf (id * 100 : Nat) (27 : Nat) = id := by
    have notPeerId : ((27 : Nat) : Int) ≠ famezSidCidIsPeerId := by decide
    rw [peerIdOf, if_neg notPeerId]
    have quotient : ((id * 100 : Nat) : Int).tdiv 100 = id := by
      push_cast
      exact Int.mul_tdiv_cancel _ (by decide)
    rw [quotient]
    omega
  have length : body.length ≠ 0 := fun empty =>
    nonempty (List.length_eq_zero_iff.mp empty)
  have routed : createOutgoing adapter.serverId adapter.maxBuflen
      (id * 100 : Nat) (27 : Nat) body.length = .ok id := by
    rw [createOutgoing, peer, if_neg fun wrong => wrong.1 rfl,
      if_neg (by omega), if_neg (by omega), if_neg length]
  rw [famezBridgeWrite_pair adapter fits, if_pos ⟨by decide, small⟩, routed]

/-- A SID that is neither 27 nor the mark of peer ids leads nowhere. -/
theorem createOutgoing_unreachable {serverId maxBuflen buflen : Nat}
    {cid sid : Int} (other : sid ≠ 27) (noMark : sid ≠ famezSidCidIsPeerId) :
    createOutgoing serverId maxBuflen cid sid buflen =
      .error .enetunreach := if_pos ⟨other, noMark⟩

/-- An address whose CID is no SID is refused. -/
theorem address_refused (adapter : Adapter) {sender : Mailslot}
    (other : sender.peerCid ≠ 27) (body : List UInt8) :
    ∃ errno, famezBridgeWrite adapter (toBytes (addressOf sender) ++ body) =
      .error errno := by
  rw [toBytes_address]
  by_cases fits : (toBytes (pair sender.peerCid sender.peerSid)).length + 1 +
      body.length < adapter.maxBuflen - 1
  · have other : (sender.peerCid : Int) ≠ 27 := by omega
    have noMark : (sender.peerCid : Int) ≠ famezSidCidIsPeerId := by
      rw [famezSidCidIsPeerId]
      omega
    rw [famezBridgeWrite_pair adapter fits,
      createOutgoing_unreachable other noMark]
    split
    · exact ⟨_, rfl⟩
    · exact ⟨_, rfl⟩
  · refine ⟨.e2big, if_pos ?_⟩
    rw [List.length_append, List.length_cons]
    omega

/-- A CID that the interrupt handler computed is no SID: it is a multiple of
four. -/
theorem reply_fails (adapter : Adapter) (slot : Mailslot) (core : Core)
    (body : List UInt8) :
    ∃ errno, famezBridgeWrite adapter
      (toBytes (addressOf (famezLinkRequest slot core).1) ++ body) =
        .error errno := by
  have cid : (famezLinkRequest slot core).1.peerCid =
      slot.peerId * 100 % 2 ^ 64 := by
    rw [famezLinkRequest_slot]
  exact address_refused adapter (by omega) body

/-- No reply to the address of a message reaches its sender. -/
theorem address_never_returns (adapter : Adapter) (slot : Mailslot)
    (core : Core) (body : List UInt8) :
    ¬ RoundTrips adapter (famezLinkRequest slot core).1 body := by
  intro returns
  obtain ⟨errno, fails⟩ := reply_fails adapter slot core body
  rw [RoundTrips, fails] at returns
  cases returns

/-- A slot with a message of the sender `id`. -/
def helloFrom (id : Nat) : Mailslot where
  buflen := 5
  peerId := id
  lastResponder := 3
  peerSid := 0
  peerCid := 0
  buf := toBytes "hello".toList ++ [0]

/-- Adapter 3 of three clients reads `100,27:hello` from the sender 1 and
answers that address. -/
theorem reply_to_one_unreachable :
    famezBridgeRead (famezLinkRequest (helloFrom 1) initialCore).1 384 =
        .ok (toBytes "100,27:hello".toList) ∧
      famezBridgeWrite { serverId := 4, maxBuflen := 384, myId := 3 }
        (toBytes "100,27:hi".toList) = .error (.outgoing .enetunreach) ∧
      ¬ RoundTrips { serverId := 4, maxBuflen := 384, myId := 3 }
        (famezLinkRequest (helloFrom 1) initialCore).1
        (toBytes "hi".toList) := by
  refine ⟨by decide, by decide, ?_⟩
  unfold RoundTrips
  decide

end FameZ.Kernel.Bridge
