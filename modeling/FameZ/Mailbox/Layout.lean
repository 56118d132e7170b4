/-
Module: FameZ.Mailbox.Layout
Purpose: The mailbox as the bytes that Python and the kernel driver share, and
  every operation of either that writes to it.
Trusted boundary: the translation of famez_mailbox.py and of the accesses of
  famez_adapter.c, famez_IVSHMSG.c and famez_link.c to the mailbox
Main exports: Config, initializeMailbox, fill, retrieve, clearMailslot,
  famezAdapterCreate, famezCreateOutgoing, linkRequest, Label, step
-/
import FameZ.Kernel.Link
import FameZ.Kernel.Outgoing
import FameZ.Lib.ByteMemory
import FameZ.Lib.Transition
import Mathlib.Logic.Function.Basic

namespace FameZ.Layout

open Memory

/-!
Slot `i` starts at `i` times the slot size, and slot 0 holds the globals.
Python uses its own constants for the layout; the driver reads slot size and
buffer offset from the globals and lays `struct famez_mailslot` over a slot.
-/

def mailboxSlotsize : Nat := 512

def mailboxMaxSlots : Nat := 16

def gSlotsizeOff : Nat := 0

def gMsgOffsetOff : Nat := 8

def gNClientsOff : Nat := 16

def gNEventsOff : Nat := 24

def gServerIdOff : Nat := 32

def msNodenameSize : Nat := 32

/-- `MS_MSGLEN_off`, `buflen` of the driver. -/
def msMsglenOff : Nat := 32

def msPeerIdOff : Nat := 40

def msLastResponderOff : Nat := 48

/-- `peer_SID` and `peer_CID` exist in the driver's structure only. -/
def peerSidOff : Nat := 56

def peerCidOff : Nat := 64

/-- `MS_MSG_off`, `offsetof(struct famez_mailslot, buf)`. -/
def msMsgOff : Nat := 128

def msMaxMsglen : Nat := 384

/-- The server's arguments.  More than 14 clients do not fit. -/
structure Config where
  nClients : Nat
  smart : Bool
  fits : nClients ≤ 14

def Config.serverId (config : Config) : Nat := config.nClients + 1

def Config.nEvents (config : Config) : Nat := config.nClients + 2

def slotAddr (i : Nat) : Nat := i * mailboxSlotsize

/-- `_initialize_mailbox` on a file with any contents. -/
def initializeMailbox (config : Config) (old : Memory) : Memory :=
  let mem := old.write 0
    (List.replicate (mailboxMaxSlots * mailboxSlotsize) 0)
  let mem := mem.write 0
    (wordBytes mailboxSlotsize ++ wordBytes msMsgOff ++
      wordBytes config.nClients ++ wordBytes config.nEvents ++
      wordBytes config.serverId)
  let mem := (List.range' 1 (config.nEvents - 1)).foldl
    (fun mem slot => mem.writeWord (slotAddr slot + msPeerIdOff) slot) mem
  mem.write (slotAddr config.serverId)
    ((if config.smart then "Z-switch" else "Z-server").toList.map
      Char.toUInt8)

/-! ### Python -/

def InDomain (config : Config) (id : Nat) : Prop :=
  1 ≤ id ∧ id ≤ config.serverId

instance (config : Config) (id : Nat) : Decidable (InDomain config id) :=
  inferInstanceAs (Decidable (_ ∧ _))

/-- `fill`, after its wait. -/
def fill (config : Config) (senderId : Nat) (msg : List UInt8)
    (mem : Memory) : Memory :=
  if InDomain config senderId ∧ msg.length < msMaxMsglen then
    let mem := mem.writeWord (slotAddr senderId + msMsglenOff) msg.length
    let mem := mem.write (slotAddr senderId + msMsgOff) msg
    mem.write (slotAddr senderId + msMsgOff + msg.length) [0]
  else mem

/-- The store of `retrieve`. -/
def retrieve (config : Config) (peerId : Nat) (clear : Bool)
    (mem : Memory) : Memory :=
  if InDomain config peerId ∧ clear = true then
    mem.writeWord (slotAddr peerId + msMsglenOff) 0
  else mem

/-- `clear_mailslot`.  A name that is too long fails after the zeros. -/
def clearMailslot (config : Config) (id : Nat) (nodename : List UInt8)
    (mem : Memory) : Memory :=
  if InDomain config id then
    let mem := mem.write (slotAddr id) (List.replicate msNodenameSize 0)
    if nodename.length < msNodenameSize then
      mem.write (slotAddr id) nodename
    else mem
  else mem

/-- `_init_mailslot`. -/
def initMailslot (config : Config) (id : Nat) (nodename : List UInt8)
    (mem : Memory) : Memory :=
  clearMailslot config id nodename mem

/-! ### The driver -/

/-- `calculate_mailslot`: the address of a slot. -/
def calculateMailslot (mem : Memory) (slotnum : Nat) : Option Nat :=
  if (slotnum < 1 ∨ mem.readWord gNClientsOff < slotnum) ∧
      slotnum ≠ mem.readWord gServerIdOff then none
  else some (slotnum * mem.readWord gSlotsizeOff)

/-- `max_buflen`. -/
def maxBuflen (mem : Memory) : Nat :=
  mem.readWord gSlotsizeOff - mem.readWord gMsgOffsetOff

/-- The mailbox accesses of `famez_adapter_create`; `nodename` is the host name
and the device number. -/
def famezAdapterCreate (myId : Nat) (nodename : List UInt8)
    (mem : Memory) : Memory :=
  if msMsgOff ≠ mem.readWord gMsgOffsetOff then mem
  else if mem.readWord gSlotsizeOff ≤ mem.readWord gMsgOffsetOff then mem
  else
    match calculateMailslot mem myId with
    | none => mem
    | some mySlot =>
        (mem.write mySlot
          (List.replicate (mem.readWord gSlotsizeOff) 0)).write mySlot
          (nodename.take (msNodenameSize - 2) ++ [0])

/-- The mailslot structure laid over the bytes at an address. -/
def loadSlot (mem : Memory) (addr : Nat) : Kernel.Mailslot where
  buflen := mem.readWord (addr + msMsglenOff)
  peerId := mem.readWord (addr + msPeerIdOff)
  lastResponder := mem.readWord (addr + msLastResponderOff)
  peerSid := mem.readWord (addr + peerSidOff)
  peerCid := mem.readWord (addr + peerCidOff)
  buf := mem.readBytes (addr + msMsgOff) msMaxMsglen

/-- The mailbox accesses of `famez_create_outgoing` by adapter `myId`. -/
def famezCreateOutgoing (myId : Nat) (cid sid : Int) (buf : List UInt8)
    (mem : Memory) : Memory :=
  match calculateMailslot mem myId,
      Kernel.Outgoing.createOutgoing (mem.readWord gServerIdOff)
        (maxBuflen mem) cid sid buf.length with
  | some mySlot, .ok peerId =>
      if mem.readWord (mySlot + msMsglenOff) = 0 then
        let mem := mem.writeWord (mySlot + msMsglenOff) buf.length
        let mem := mem.write (mySlot + msMsgOff + buf.length) [0]
        let mem := mem.writeWord (mySlot + msLastResponderOff) peerId
        mem.write (mySlot + msMsgOff) buf
      else mem
  | _, _ => mem

/-- The mailbox and the core structure of every adapter. -/
structure State where
  mem : Memory
  core : Nat → Kernel.Core

/-- `famez_link_request` by adapter `myId` on the slot at an address, its reply
included. -/
def linkRequest (myId slot : Nat) (s : State) : State :=
  match Kernel.famezLinkRequest (loadSlot s.mem slot) (s.core myId) with
  | (after, core, answer) =>
      let mem := s.mem.writeWord (slot + peerSidOff) after.peerSid
      let mem := mem.writeWord (slot + peerCidOff) after.peerCid
      match answer with
      | none => { s with mem := mem }
      | some reply =>
          let mem := mem.writeWord (slot + msMsglenOff) 0
          { mem := famezCreateOutgoing myId reply.peerId
              Kernel.Outgoing.famezSidCidIsPeerId
              (reply.text.map Char.toUInt8) mem
            core := Function.update s.core myId core }

/-- The store of `famez_release_incoming`. -/
def famezReleaseIncoming (slot : Nat) (mem : Memory) : Memory :=
  mem.writeWord (slot + msMsglenOff) 0

/-! ### Runs -/

/-- One operation of any party. -/
inductive Label where
  | fill (senderId : Nat) (msg : List UInt8)
  | retrieve (peerId : Nat) (clear : Bool)
  | clearMailslot (id : Nat) (nodename : List UInt8)
  | initMailslot (id : Nat) (nodename : List UInt8)
  | adapterCreate (myId : Nat) (nodename : List UInt8)
  | createOutgoing (myId : Nat) (cid sid : Int) (buf : List UInt8)
  | linkRequest (myId slotnum : Nat)
  | releaseIncoming (slotnum : Nat)
deriving Repr, DecidableEq

/-- `all_msix` hands a slot out only after `calculate_mailslot`. -/
def step (config : Config) : Transition.Step State Label := fun s label =>
  match label with
  | .fill senderId msg =>
      some { s with mem := fill config senderId msg s.mem }
  | .retrieve peerId clear =>
      some { s with mem := retrieve config peerId clear s.mem }
  | .clearMailslot id nodename =>
      some { s with mem := clearMailslot config id nodename s.mem }
  | .initMailslot id nodename =>
      some { s with mem := initMailslot config id nodename s.mem }
  | .adapterCreate myId nodename =>
      if 1 ≤ myId ∧ myId ≤ config.nClients then
        some
          { mem := famezAdapterCreate myId nodename s.mem
            core := Function.update s.core myId Kernel.initialCore }
      else none
  | .createOutgoing myId cid sid buf =>
      some { s with mem := famezCreateOutgoing myId cid sid buf s.mem }
  | .linkRequest myId slotnum =>
      (calculateMailslot s.mem slotnum).map fun slot =>
        linkRequest myId slot s
  | .releaseIncoming slotnum =>
      (calculateMailslot s.mem slotnum).map fun slot =>
        { s with mem := famezReleaseIncoming slot s.mem }

end FameZ.Layout
