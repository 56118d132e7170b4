/-
Module: FameZ.Monolithic.Sendmail
Purpose: The configuration of the monolithic driver, its mailslots, and the
  message that one adapter sends.
Trusted boundary: the translation of famez_sendmail, calculate_mailslot and the
  look-up of all_msix; the waits for the slot are over
Main exports: Configuration, Mailslot, Errno, Ringer, fillSlot, famezSendmail,
  calculateMailslot, matchVector
-/
import FameZ.Lib.Kstrto
import FameZ.Lib.Loop
import Mathlib.Data.List.Basic

namespace FameZ.Monolithic

/-- What create_config takes from the globals and famez_MSIX_setup from the
interrupt controller, which hands out distinct interrupts, at most 64. -/
structure Configuration where
  maxMsglen : Nat
  myId : Nat
  nSlots : Nat
  vectors : Nat → Nat
  positive : 0 < maxMsglen
  narrow : nSlots ≤ 64
  distinct : ∀ i j, vectors i = vectors j → i = j

def Configuration.serverId (config : Configuration) : Nat :=
  config.nSlots - 1

/-- `famez_mailslot_t` behind its name. -/
structure Mailslot where
  msglen : Nat
  peerId : Nat
  lastResponder : Nat
  msg : List UInt8
deriving Repr, DecidableEq

/-- A slot as `memset` leaves it. -/
def emptySlot (config : Configuration) : Mailslot where
  msglen := 0
  peerId := 0
  lastResponder := 0
  msg := List.replicate config.maxMsglen 0

inductive Errno where
  | eintr
  | eagain
  | erestartsys
  | e2big
  | efault
  | eio
  | ebadmsg
  | parse (error : Kstrto.Error)
  | ebadslt
  | enodata
deriving Repr, DecidableEq

/-- `ivshmsg_ringer_t`. -/
structure Ringer where
  vector : Nat
  peer : Nat
deriving Repr, DecidableEq

/-- The stores of famez_sendmail into the sender's own slot. -/
def fillSlot (peerId : Nat) (msg : List UInt8) (slot : Mailslot) : Mailslot :=
  { slot with
    msglen := msg.length
    lastResponder := peerId
    msg := msg ++ 0 :: slot.msg.drop (msg.length + 1) }

/-- `famez_sendmail` once its wait is over: a slot that is still busy is stored
into like an idle one.  `msg` is what the pointer leads to. -/
def famezSendmail (config : Configuration) (peerId : Nat) (msg : List UInt8)
    (msglen : Nat) (slot : Mailslot) :
    Except Errno (Nat × Mailslot × Ringer) :=
  if peerId < 1 ∨ config.serverId < peerId then .error .ebadslt
  else if config.maxMsglen ≤ msglen then .error .e2big
  else if msglen = 0 then .error .enodata
  else
    .ok (msglen, fillSlot peerId (msg.take msglen) slot,
      { vector := config.myId, peer := peerId })

/-- `calculate_mailslot`: the index stands for the pointer. -/
def calculateMailslot (config : Configuration) (slotnum : Nat) : Option Nat :=
  if slotnum < 1 ∨ config.nSlots ≤ slotnum then none else some slotnum

/-- The loop over `msix_entries`, whose entry `i` is `i`. -/
def matchVector (config : Configuration) (vector : Nat) : Option Nat :=
  (List.range' 1 (config.nSlots - 1)).find? fun slotnum =>
    vector = config.vectors slotnum

def IsSlot (config : Configuration) (i : Nat) : Prop :=
  1 ≤ i ∧ i < config.nSlots

instance (config : Configuration) (i : Nat) : Decidable (IsSlot config i) :=
  inferInstanceAs (Decidable (_ ∧ _))

/-- The interrupt of a slot finds that slot. -/
theorem matchVector_vectors {config : Configuration} {i : Nat}
    (slot : IsSlot config i) :
    (matchVector config (config.vectors i)).bind (calculateMailslot config) =
      some i := by
  obtain ⟨low, high⟩ := slot
  have inside : i ∈ List.range' 1 (config.nSlots - 1) := by
    rw [List.mem_range'_1]
    omega
  have found : matchVector config (config.vectors i) = some i :=
    Loop.find?_key (config.distinct i) inside
  rw [found, Option.bind_some, calculateMailslot, if_neg (by omega)]

end FameZ.Monolithic
