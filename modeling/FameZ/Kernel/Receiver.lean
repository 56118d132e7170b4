/-
Module: FameZ.Kernel.Receiver
Purpose: One adapter that receives: senders, the interrupt handler and any
  number of concurrent reads.
Trusted boundary: the translation of famez_MSI-X.c, calculate_mailslot,
  famez_await_incoming, famez_release_incoming and famez_bridge_read
Main exports: Adapter, State, allMsix, bridgeRead, famezReleaseIncoming,
  Label, step, Moves, step_moves
-/
import FameZ.Kernel.Link
import FameZ.Lib.Loop
import FameZ.Lib.Transition
import Mathlib.Logic.Function.Basic

namespace FameZ.Kernel

/-!
The handler leaves a message to the readers by pointing `incoming_slot` at the
sender's slot.  The pointer is one word for all senders; a reader samples it
without the lock and comes back to it only to release.
-/

/-- What the adapter knows from the globals and from the interrupt set-up.
`vectors i` is the interrupt of sender `i`; the kernel hands out distinct
ones. -/
structure Adapter where
  myId : Nat
  nClients : Nat
  vectors : Nat → Nat
  distinct : ∀ i j, vectors i = vectors j → i = j

def Adapter.serverId (adapter : Adapter) : Nat := adapter.nClients + 1

def Adapter.nEvents (adapter : Adapter) : Nat := adapter.nClients + 2

/-- `slotsize - buf_offset`. -/
def maxBuflen : Nat := 384

/-- `calculate_mailslot`: the index stands for the pointer. -/
def calculateMailslot (adapter : Adapter) (slotnum : Nat) : Option Nat :=
  if (slotnum < 1 ∨ adapter.nClients < slotnum) ∧ slotnum ≠ adapter.serverId
  then none
  else some slotnum

/-- The loop over `msix_entries`, whose entry `i` is `i`. -/
def matchVector (adapter : Adapter) (vector : Nat) : Option Nat :=
  (List.range' 1 (adapter.nEvents - 1)).find? fun slotnum =>
    vector = adapter.vectors slotnum

/-- One assignment of a slot to `incoming_slot`, numbered in order.  The number
is history. -/
structure Install where
  slot : Nat
  number : Nat
deriving Repr, DecidableEq

/-- Where a sender is in famez_create_outgoing. -/
inductive Sender where
  | idle
  | filled
deriving Repr, DecidableEq

inductive Errno where
  | e2big
  | efault
deriving Repr, DecidableEq

/-- A famez_bridge_read.  `present` is past the test of the pointer, `reading`
holds the pointer, `copied` is about to release and `oops` followed NULL. -/
inductive Reader where
  | idle
  | entered (nonblocking : Bool)
  | waiting
  | present
  | reading (install : Install)
  | copied (install : Install) (result : Except Errno (List UInt8))
  | oops

/-- The pointer a read works with. -/
def Reader.sampled : Reader → Option Install
  | .reading install => some install
  | .copied install _ => some install
  | _ => none

/-- The mailbox, the adapter and its readers.  `pending` is a doorbell whose
interrupt has not been taken, and `stuck` a spinlock whose holder died.
`addressee`, `handled` and `disturbed` are history: the destination of the
message in a slot, that its interrupt was left to the readers, and that since a
read sampled the pointer it was installed or released by others. -/
structure State where
  slot : Nat → Mailslot
  core : Core
  incoming : Option Install
  installs : Nat
  sender : Nat → Sender
  pending : Nat → Bool
  reader : Nat → Reader
  stuck : Bool
  addressee : Nat → Nat
  handled : Nat → Bool
  disturbed : Nat → Bool

/-- After the server made the mailbox and the driver was loaded. -/
def init : State where
  slot := fun i =>
    { buflen := 0, peerId := i, lastResponder := 0, peerSid := 0,
      peerCid := 0, buf := List.replicate maxBuflen 0 }
  core := initialCore
  incoming := none
  installs := 0
  sender := fun _ => .idle
  pending := fun _ => false
  reader := fun _ => .idle
  stuck := false
  addressee := fun _ => 0
  handled := fun _ => false
  disturbed := fun _ => false

def State.setReader (s : State) (r : Nat) (reader : Reader) : State :=
  { s with reader := Function.update s.reader r reader }

@[simp] theorem reader_setReader (s : State) (r : Nat) (reader : Reader) :
    (s.setReader r reader).reader = Function.update s.reader r reader := rfl

/-- The history once every read that holds a pointer is disturbed. -/
def State.disturb (s : State) (r : Nat) : Bool :=
  s.disturbed r || (s.reader r).sampled.isSome

/-! ### The functions of the driver -/

/-- `all_msix`.  The lock is held from the first access to the last. -/
def allMsix (adapter : Adapter) (vector : Nat) (s : State) : State :=
  match (matchVector adapter vector).bind (calculateMailslot adapter) with
  | none => s
  | some i =>
      match famezLinkRequest (s.slot i) s.core with
      | (slot, core, some _) =>
          { s with slot := Function.update s.slot i slot, core := core }
      | (slot, core, none) =>
          { s with
            slot := Function.update s.slot i slot
            core := core
            incoming := some { slot := i, number := s.installs }
            installs := s.installs + 1
            handled := Function.update s.handled i true
            disturbed := s.disturb }

/-- The `"CID,SID:"` of the sender, as `snprintf` leaves it in 31 bytes. -/
def sidcidstr (slot : Mailslot) : List Char :=
  Scanf.decimal slot.peerCid ++ ",".toList ++ Scanf.decimal slot.peerSid ++
    ":".toList

/-- The body of famez_bridge_read between the wait and the release, for a user
buffer of `size` bytes.  `faults` says which copy_to_user fails. -/
def bridgeRead (slot : Mailslot) (size : Nat) (faults : Bool × Bool) :
    Except Errno (List UInt8) :=
  let n := (sidcidstr slot).length
  if 32 ≤ n ∨ size < slot.buflen + n - 1 then .error .e2big
  else if faults.1 then .error .efault
  else if faults.2 then .error .efault
  else
    .ok ((((sidcidstr slot).take 30).map Char.toUInt8 ++ [0]).take n ++
      slot.buf.take slot.buflen)

/-- `famez_release_incoming`.  Releasing nothing follows NULL with the lock
held. -/
def famezReleaseIncoming (s : State) : State :=
  match s.incoming with
  | none => { s with stuck := true }
  | some install =>
      { s with
        slot := Function.update s.slot install.slot
          { s.slot install.slot with buflen := 0 }
        incoming := none
        disturbed := s.disturb }

/-- The stores of famez_create_outgoing into the sender's own slot. -/
def fillSlot (dest : Nat) (msg : List UInt8) (slot : Mailslot) : Mailslot :=
  { slot with
    buflen := msg.length
    lastResponder := dest
    buf := msg ++ 0 :: slot.buf.drop (msg.length + 1) }

/-! ### Runs -/

/-- `fill` and `ring` are the two halves of famez_create_outgoing in a sender,
`elsewhere` is another receiver that empties a slot addressed to it, and `irq`
takes the interrupt of a sender. -/
inductive Label where
  | fill (i dest : Nat) (msg : List UInt8)
  | ring (i : Nat)
  | elsewhere (i : Nat)
  | irq (i : Nat)
  | enter (r : Nat) (nonblocking : Bool)
  | check (r : Nat)
  | wake (r : Nat)
  | signal (r : Nat)
  | sample (r : Nat)
  | copy (r size : Nat) (faults : Bool × Bool)
  | release (r : Nat)
deriving Repr, DecidableEq

def IsSlot (adapter : Adapter) (i : Nat) : Prop :=
  1 ≤ i ∧ i ≤ adapter.serverId

instance (adapter : Adapter) (i : Nat) : Decidable (IsSlot adapter i) :=
  inferInstanceAs (Decidable (_ ∧ _))

def step (adapter : Adapter) : Transition.Step State Label := fun s label =>
  match label with
  | .fill i dest msg =>
      if IsSlot adapter i ∧ s.sender i = .idle ∧ (s.slot i).buflen = 0 ∧
          msg ≠ [] ∧ msg.length < maxBuflen then
        some
          { s with
            slot := Function.update s.slot i (fillSlot dest msg (s.slot i))
            sender := Function.update s.sender i .filled
            addressee := Function.update s.addressee i dest
            handled := Function.update s.handled i false }
      else none
  | .ring i =>
      if s.sender i = .filled then
        some
          { s with
            sender := Function.update s.sender i .idle
            pending := Function.update s.pending i
              (s.pending i || decide (s.addressee i = adapter.myId)) }
      else none
  | .elsewhere i =>
      if s.sender i = .idle ∧ s.addressee i ≠ adapter.myId then
        some
          { s with
            slot := Function.update s.slot i { s.slot i with buflen := 0 } }
      else none
  | .irq i =>
      if s.pending i ∧ ¬ s.stuck then
        some (allMsix adapter (adapter.vectors i)
          { s with pending := Function.update s.pending i false })
      else none
  | .enter r nonblocking =>
      match s.reader r with
      | .idle => some (s.setReader r (.entered nonblocking))
      | _ => none
  | .check r =>
      match s.reader r with
      | .entered nonblocking =>
          some (s.setReader r
            (if s.incoming.isSome then .present
              else if nonblocking then .idle else .waiting))
      | _ => none
  | .wake r =>
      match s.reader r with
      | .waiting =>
          if s.incoming.isSome then some (s.setReader r .present) else none
      | _ => none
  | .signal r =>
      match s.reader r with
      | .waiting => some (s.setReader r .idle)
      | _ => none
  | .sample r =>
      match s.reader r with
      | .present =>
          match s.incoming with
          | none => some (s.setReader r .oops)
          | some install =>
              some
                { s.setReader r (.reading install) with
                  disturbed := Function.update s.disturbed r false }
      | _ => none
  | .copy r size faults =>
      match s.reader r with
      | .reading install =>
          some (s.setReader r
            (.copied install (bridgeRead (s.slot install.slot) size faults)))
      | _ => none
  | .release r =>
      match s.reader r with
      | .copied _ _ =>
          if s.stuck then none
          else some ((famezReleaseIncoming s).setReader r .idle)
      | _ => none

/-- The interrupt of a slot finds that slot. -/
theorem matchVector_vectors {adapter : Adapter} {i : Nat}
    (slot : IsSlot adapter i) :
    (matchVector adapter (adapter.vectors i)).bind
      (calculateMailslot adapter) = some i := by
  have inside : i ∈ List.range' 1 (adapter.nEvents - 1) := by
    rw [List.mem_range'_1]
    obtain ⟨low, high⟩ := slot
    simp only [Adapter.serverId] at high
    simp only [Adapter.nEvents]
    omega
  have found : matchVector adapter (adapter.vectors i) = some i :=
    Loop.find?_key (adapter.distinct i) inside
  have valid : ¬ ((i < 1 ∨ adapter.nClients < i) ∧ i ≠ adapter.serverId) := by
    obtain ⟨low, high⟩ := slot
    simp only [Adapter.serverId] at high ⊢
    omega
  rw [found, Option.bind_some, calculateMailslot, if_neg valid]

/-- What a step can do.  `moved` covers the reader's steps that neither take
nor give up a pointer. -/
inductive Moves (adapter : Adapter) (s : State) : Label → State → Prop where
  | fill {i dest : Nat} {msg : List UInt8} (slot : IsSlot adapter i)
      (idle : s.sender i = .idle) (empty : (s.slot i).buflen = 0)
      (nonempty : msg ≠ []) :
      Moves adapter s (.fill i dest msg)
        { s with
          slot := Function.update s.slot i (fillSlot dest msg (s.slot i))
          sender := Function.update s.sender i .filled
          addressee := Function.update s.addressee i dest
          handled := Function.update s.handled i false }
  | ring {i : Nat} (filled : s.sender i = .filled) :
      Moves adapter s (.ring i)
        { s with
          sender := Function.update s.sender i .idle
          pending := Function.update s.pending i
            (s.pending i || decide (s.addressee i = adapter.myId)) }
  | elsewhere {i : Nat} (idle : s.sender i = .idle)
      (away : s.addressee i ≠ adapter.myId) :
      Moves adapter s (.elsewhere i)
        { s with
          slot := Function.update s.slot i { s.slot i with buflen := 0 } }
  | unmatched {i : Nat} (pending : s.pending i = true)
      (outside : ¬ IsSlot adapter i) :
      Moves adapter s (.irq i)
        { s with pending := Function.update s.pending i false }
  | consumed {i : Nat} (pending : s.pending i = true)
      (inside : IsSlot adapter i) {reply : Reply}
      (answers : (famezLinkRequest (s.slot i) s.core).2.2 = some reply) :
      Moves adapter s (.irq i)
        { s with
          pending := Function.update s.pending i false
          slot := Function.update s.slot i
            (famezLinkRequest (s.slot i) s.core).1
          core := (famezLinkRequest (s.slot i) s.core).2.1 }
  | left {i : Nat} (pending : s.pending i = true)
      (inside : IsSlot adapter i)
      (passes : (famezLinkRequest (s.slot i) s.core).2.2 = none) :
      Moves adapter s (.irq i)
        { s with
          pending := Function.update s.pending i false
          slot := Function.update s.slot i
            (famezLinkRequest (s.slot i) s.core).1
          core := (famezLinkRequest (s.slot i) s.core).2.1
          incoming := some { slot := i, number := s.installs }
          installs := s.installs + 1
          handled := Function.update s.handled i true
          disturbed := s.disturb }
  | moved {label : Label} {r : Nat} {reader : Reader}
      (before : (s.reader r).sampled = none)
      (after : reader.sampled = none)
      (noRelease : ∀ other, label ≠ .release other)
      (noIrq : ∀ i, label ≠ .irq i) :
      Moves adapter s label (s.setReader r reader)
  | sampled {r : Nat} {install : Install} (present : s.reader r = .present)
      (points : s.incoming = some install) :
      Moves adapter s (.sample r)
        { s.setReader r (.reading install) with
          disturbed := Function.update s.disturbed r false }
  | copied {r size : Nat} {faults : Bool × Bool} {install : Install}
      (reading : s.reader r = .reading install) :
      Moves adapter s (.copy r size faults)
        (s.setReader r
          (.copied install (bridgeRead (s.slot install.slot) size faults)))
  | released {r : Nat} {install : Install}
      {result : Except Errno (List UInt8)}
      (holds : s.reader r = .copied install result) (free : s.stuck = false) :
      Moves adapter s (.release r) ((famezReleaseIncoming s).setReader r .idle)

/-- The interrupt of no slot matches no entry. -/
theorem matchVector_none {adapter : Adapter} {i : Nat}
    (outside : ¬ IsSlot adapter i) :
    matchVector adapter (adapter.vectors i) = none := by
  rw [matchVector, List.find?_eq_none]
  intro j member equal
  rw [List.mem_range'_1] at member
  obtain rfl := adapter.distinct i j (of_decide_eq_true equal)
  apply outside
  simp only [Adapter.nEvents] at member
  simp only [IsSlot, Adapter.serverId]
  omega

theorem irq_moves {adapter : Adapter} {s : State} {i : Nat}
    (pending : s.pending i = true) :
    Moves adapter s (.irq i) (allMsix adapter (adapter.vectors i)
      { s with pending := Function.update s.pending i false }) := by
  rw [allMsix]
  by_cases inside : IsSlot adapter i
  · rw [matchVector_vectors inside]
    rcases result : famezLinkRequest (s.slot i) s.core with
      ⟨slot, core, answer⟩
    simp only [result]
    cases answer with
    | none =>
        have moves : Moves adapter s (.irq i) _ :=
          .left pending inside (by rw [result])
        rw [result] at moves
        exact moves
    | some reply =>
        have answers : (famezLinkRequest (s.slot i) s.core).2.2 =
            some reply := by rw [result]
        have moves : Moves adapter s (.irq i) _ :=
          .consumed pending inside answers
        rw [result] at moves
        exact moves
  · rw [matchVector_none inside]
    exact .unmatched pending inside

/-- The inversion of one step. -/
theorem step_moves {adapter : Adapter} {s t : State} {label : Label}
    (taken : step adapter s label = some t) : Moves adapter s label t := by
  cases label with
  | fill i dest msg =>
      simp only [step, Option.ite_none_right_eq_some,
        Option.some.injEq] at taken
      obtain ⟨⟨slot, idle, empty, nonempty, -⟩, rfl⟩ := taken
      exact .fill slot idle empty nonempty
  | ring i =>
      simp only [step, Option.ite_none_right_eq_some,
        Option.some.injEq] at taken
      obtain ⟨filled, rfl⟩ := taken
      exact .ring filled
  | elsewhere i =>
      simp only [step, Option.ite_none_right_eq_some,
        Option.some.injEq] at taken
      obtain ⟨⟨idle, away⟩, rfl⟩ := taken
      exact .elsewhere idle away
  | irq i =>
      simp only [step, Option.ite_none_right_eq_some,
        Option.some.injEq] at taken
      obtain ⟨⟨pending, -⟩, rfl⟩ := taken
      exact irq_moves pending
  | enter r nonblocking =>
      simp only [step] at taken
      split at taken
      · rename_i phase
        cases taken
        exact .moved (by rw [phase]; rfl) rfl nofun nofun
      · cases taken
  | check r =>
      simp only [step] at taken
      split at taken
      · rename_i nonblocking phase
        cases taken
        refine .moved (by rw [phase]; rfl) ?_ nofun nofun
        split
        · rfl
        · split <;> rfl
      · cases taken
  | wake r =>
      simp only [step] at taken
      split at taken
      · rename_i phase
        rw [Option.ite_none_right_eq_some, Option.some.injEq] at taken
        obtain ⟨-, rfl⟩ := taken
        exact .moved (by rw [phase]; rfl) rfl nofun nofun
      · cases taken
  | signal r =>
      simp only [step] at taken
      split at taken
      · rename_i phase
        cases taken
        exact .moved (by rw [phase]; rfl) rfl nofun nofun
      · cases taken
  | sample r =>
      simp only [step] at taken
      split at taken
      · rename_i phase
        split at taken
        · cases taken
          exact .moved (by rw [phase]; rfl) rfl nofun nofun
        · rename_i install points
          cases taken
          exact .sampled phase points
      · cases taken
  | copy r size faults =>
      simp only [step] at taken
      split at taken
      · rename_i install phase
        cases taken
        exact .copied phase
      · cases taken
  | release r =>
      simp only [step] at taken
      split at taken
      · rename_i install result phase
        split at taken
        · cases taken
        · rename_i free
          cases taken
          exact .released phase (by simpa using free)
      · cases taken

end FameZ.Kernel
