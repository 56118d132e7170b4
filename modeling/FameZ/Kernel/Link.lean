/-
Module: FameZ.Kernel.Link
Purpose: Mailslots and the core structure as the kernel driver sees them, and
  the link requests it answers from the interrupt handler.
Trusted boundary: the translation of famez_link.c and of the structures of
  famez.h; strncmp, sscanf and sprintf of the kernel
Main exports: Mailslot, Core, Reply, cstring, famezLinkRequest
-/
import FameZ.Lib.Scanf

namespace FameZ.Kernel

open Scanf

/-- `struct famez_mailslot` without the node name.  The 64-bit fields are
natural numbers below `2 ^ 64`. -/
structure Mailslot where
  buflen : Nat
  peerId : Nat
  lastResponder : Nat
  peerSid : Nat
  peerCid : Nat
  buf : List UInt8
deriving Repr, DecidableEq

/-- The fields of `struct genz_core_structure` that the driver uses.  The
32-bit fields are bit patterns. -/
structure Core where
  baseCClassStr : List Char
  sid0 : UInt32
  cid0 : UInt32
  pmcid : UInt32
  pfmsid : UInt32
  pfmcid : UInt32
deriving Repr, DecidableEq

/-- What `famez_adapter_create` makes of the core structure. -/
def initialCore : Core where
  baseCClassStr := "FAME-Z Adapter".toList
  sid0 := 0
  cid0 := 0
  pmcid := 0
  pfmsid := 0
  pfmcid := 0

/-- `FAMEZ_SID_DEFAULT`. -/
def famezSidDefault : Nat := 27

/-- A call of famez_create_outgoing with `FAMEZ_SID_CID_IS_PEER_ID`: the peer
id it is sent to and its text. -/
structure Reply where
  peerId : Nat
  text : List Char
deriving Repr, DecidableEq

def linkCtlPeerAttribute : List Char := "Link CTL Peer-Attribute".toList

/-- `LINK_CTL_ACK` up to its string conversion. -/
def linkCtlAck : List Char := "Link CTL ACK C-Class=".toList

def linkCtlAckIds : List Char := ",SID0=%d,CID0=%d".toList

def ctlWrite0SidCid : List Char :=
  "CTL-Write Space=0,PFMSID=%d,PFMCID=%d,SID=%d,CID=%d,Tag=%d".toList

def standaloneAcknowledgment : List Char :=
  "Standalone Acknowledgment Tag=%d,Reason=OK".toList

/-- A buffer read as a C string, one character a byte. -/
def cstring (buf : List UInt8) : List Char :=
  (buf.takeWhile fun byte => decide (byte ≠ 0)).map fun byte =>
    Char.ofNat byte.toNat

/-- `!strncmp(text, expected, strlen(expected))`. -/
def startsWith (text expected : List Char) : Bool :=
  text.take expected.length = expected

/-- `int CID` made of a 64-bit peer id, then `uint32_t peer_id` made of it. -/
def replyPeer (slot : Mailslot) : Nat := slot.peerId % 2 ^ 32

/-- `famez_link_request`: the slot and the core structure it leaves, and its
reply.  No reply is `IRQ_NONE`: the message is left to a reader. -/
def famezLinkRequest (slot : Mailslot) (core : Core) :
    Mailslot × Core × Option Reply :=
  let slot := { slot with
    peerSid := famezSidDefault
    peerCid := slot.peerId * 100 % 2 ^ 64 }
  let text := cstring slot.buf
  let emptied := { slot with buflen := 0 }
  if slot.buflen = 4 ∧ startsWith text "ping".toList then
    (emptied, core,
      some { peerId := replyPeer slot, text := "pong".toList })
  else if startsWith text linkCtlPeerAttribute then
    (emptied, core,
      some
        { peerId := replyPeer slot
          text := linkCtlAck ++ core.baseCClassStr ++
            sprintf linkCtlAckIds [core.sid0, core.cid0] })
  else
    match sscanf ctlWrite0SidCid text with
    | [pfmsid, pfmcid, sid, cid, tag] =>
        (emptied,
          { core with
            pfmsid := pfmsid
            pfmcid := pfmcid
            sid0 := sid
            cid0 := cid
            pmcid := 0 - 1 },
          some
            { peerId := replyPeer slot
              text := sprintf standaloneAcknowledgment [tag] })
    | _ => (slot, core, none)

/-- What a link request does to the slot: it always fills in the computed ids,
and it empties the slot exactly when it answers. -/
theorem famezLinkRequest_slot (slot : Mailslot) (core : Core) :
    (famezLinkRequest slot core).1 =
      { slot with
        buflen := if (famezLinkRequest slot core).2.2.isSome then 0
          else slot.buflen
        peerSid := famezSidDefault
        peerCid := slot.peerId * 100 % 2 ^ 64 } := by
  unfold famezLinkRequest
  dsimp only
  split
  · rfl
  · split
    · rfl
    · split <;> rfl

/-- Every answer goes to the peer id of the slot. -/
theorem famezLinkRequest_peerId {slot : Mailslot} {core : Core}
    {reply : Reply} (answers : (famezLinkRequest slot core).2.2 = some reply) :
    reply.peerId = slot.peerId % 2 ^ 32 := by
  unfold famezLinkRequest at answers
  dsimp only at answers
  split at answers
  · cases answers
    rfl
  · split at answers
    · cases answers
      rfl
    · split at answers
      · cases answers
        rfl
      · cases answers

end FameZ.Kernel
