/-
Module: FameZ.Kernel.IncomingLock
Purpose: Who holds incoming_slot_lock, on any number of CPUs and for every way
  through all_msix, famez_link_request and famez_release_incoming.
Trusted boundary: the translation of the three functions and of the stores of
  famez_create_outgoing; spin_lock as a test and set that any waiter may win;
  interrupts are off in a handler; a NULL pointer ends the thread
Main exports: Data, Point, exec, program, phase, bracketed,
  incoming_slot_lock_disciplined_iff
-/
import FameZ.Kernel.Outgoing
import FameZ.Kernel.Receiver
import FameZ.Lib.SpinLock

namespace FameZ.Kernel.IncomingLock

open SpinLock (Effect Phase)
open Outgoing (createOutgoing famezSidCidIsPeerId store)

/-- The mailslots, the core structure and `adapter->incoming_slot`. -/
structure Data where
  slot : Nat → Mailslot
  core : Core
  incoming : Option Nat

def Data.setSlot (data : Data) (i : Nat) (slot : Mailslot) : Data :=
  { data with slot := Function.update data.slot i slot }

/-- Where a context is: first `all_msix`, with `famez_link_request` from
`answering` and `famez_create_outgoing` from `outgoing`, then
`famez_release_incoming`. -/
inductive Point where
  | interrupted (vector : Nat)
  | matching (vector : Nat)
  | unmatched
  | matched (i : Nat)
  | answering (request : Mailslot)
  | answered (request : Mailslot)
  | outgoing (reply : Reply)
  | storing (stage : Outgoing.Stage) (call : Outgoing.Call)
  | left
  | waking
  | releasing
  | emptying
  | forgetting
  | released

/-- `famez_create_outgoing` up to its stores.  It stays in its loop while the
slot is busy, and gives up on it. -/
def famezCreateOutgoing (adapter : Adapter) (reply : Reply) (data : Data) :
    Effect Data Point :=
  match createOutgoing adapter.serverId maxBuflen reply.peerId
      famezSidCidIsPeerId reply.text.length with
  | .error _ => .finish data
  | .ok peerId =>
      if (data.slot adapter.myId).buflen = 0 then
        .work data (.storing .sawIdle
          { caller := .linkRequest
            peerId := peerId
            buf := reply.text.map Char.toUInt8 })
      else .finish data

def exec (adapter : Adapter) (data : Data) : Point → Effect Data Point
  | .interrupted vector => .lock (.matching vector)
  | .matching vector =>
      match (matchVector adapter vector).bind (calculateMailslot adapter) with
      | none => .work data .unmatched
      | some i => .work data (.matched i)
  | .unmatched => .unlock none
  | .matched i =>
      match famezLinkRequest (data.slot i) data.core with
      | (slot, _, some _) =>
          .work (data.setSlot i slot) (.answering (data.slot i))
      | (slot, _, none) =>
          .work { data.setSlot i slot with incoming := some i } .left
  | .answering request => .unlock (some (.answered request))
  -- The core structure is written and the reply formatted without the lock.
  | .answered request =>
      match (famezLinkRequest request data.core).2 with
      | (core, some reply) => .work { data with core := core } (.outgoing reply)
      | (core, none) => .finish { data with core := core }
  | .outgoing reply => famezCreateOutgoing adapter reply data
  | .storing stage call =>
      match store stage call (data.slot adapter.myId) with
      | some (next, slot) =>
          .work (data.setSlot adapter.myId slot) (.storing next call)
      | none => .finish data
  | .left => .unlock (some .waking)
  | .waking => .finish data
  | .releasing => .lock .emptying
  | .emptying =>
      match data.incoming with
      | none => .fault
      | some i =>
          .work (data.setSlot i { data.slot i with buflen := 0 }) .forgetting
  | .forgetting => .work { data with incoming := none } .released
  | .released => .unlock none

/-- Any interrupt may arrive, and other parties may write anything to any
slot. -/
def program (adapter : Adapter) :
    SpinLock.Program Data Point Nat (Nat × Mailslot) where
  exec := exec adapter
  call := .releasing
  handler := .interrupted
  outside data event := data.setSlot event.1 event.2

abbrev State := SpinLock.State Data Point

abbrev Label := SpinLock.Label Nat (Nat × Mailslot)

abbrev step (adapter : Adapter) : Transition.Step State Label :=
  SpinLock.step (program adapter)

/-- The loop of famez_create_outgoing. -/
def Waits : Point → Prop
  | .outgoing _ => True
  | _ => False

/-- The pointer that famez_release_incoming follows. -/
def Safe (data : Data) : Point → Prop
  | .emptying => data.incoming ≠ none
  | _ => True

def phase : Point → Phase
  | .interrupted _ => .before
  | .matching _ => .holding
  | .unmatched => .holding
  | .matched _ => .holding
  | .answering _ => .holding
  | .answered _ => .after
  | .outgoing _ => .after
  | .storing _ _ => .after
  | .left => .holding
  | .waking => .after
  | .releasing => .before
  | .emptying => .holding
  | .forgetting => .holding
  | .released => .holding

/-- The steps of the section that are left at most. -/
def rank : Point → Nat
  | .matching _ => 2
  | .matched _ => 1
  | .emptying => 2
  | .forgetting => 1
  | _ => 0

/-- What every step keeps to: the bracket, and the pointer, which only the
holder of the lock writes. -/
def Fits (data : Data) (p : Point) : Effect Data Point → Prop
  | .lock q => phase p = .before ∧ phase q = .holding
  | .unlock q => phase p = .holding ∧ ∀ r, q = some r → phase r = .after
  | .work other q =>
      phase q = phase p ∧ (phase p = .holding → rank q < rank p) ∧
        q ≠ .emptying ∧
        (phase p ≠ .holding → other.incoming = data.incoming)
  | .finish other => phase p = .after ∧ other.incoming = data.incoming
  | .fault => p = .emptying ∧ data.incoming = none

theorem fits_famezCreateOutgoing (adapter : Adapter) (reply : Reply)
    (data : Data) :
    Fits data (.outgoing reply) (famezCreateOutgoing adapter reply data) := by
  unfold famezCreateOutgoing
  split
  · exact ⟨rfl, rfl⟩
  · split
    · exact ⟨rfl, nofun, nofun, fun _ => rfl⟩
    · exact ⟨rfl, rfl⟩

theorem fits (adapter : Adapter) (data : Data) (p : Point) :
    Fits data p (exec adapter data p) := by
  cases p with
  | interrupted vector => exact ⟨rfl, rfl⟩
  | matching vector =>
      rw [exec]
      split
      · exact ⟨rfl, fun _ => Nat.zero_lt_succ 1, nofun, absurd rfl⟩
      · exact ⟨rfl, fun _ => Nat.lt_succ_self 1, nofun, absurd rfl⟩
  | unmatched => exact ⟨rfl, nofun⟩
  | matched i =>
      rw [exec]
      split
      · exact ⟨rfl, fun _ => Nat.lt_succ_self 0, nofun, absurd rfl⟩
      · exact ⟨rfl, fun _ => Nat.lt_succ_self 0, nofun, absurd rfl⟩
  | answering request =>
      refine ⟨rfl, ?_⟩
      intro r after
      cases after
      rfl
  | answered request =>
      rw [exec]
      split
      · exact ⟨rfl, nofun, nofun, fun _ => rfl⟩
      · exact ⟨rfl, rfl⟩
  | outgoing reply => exact fits_famezCreateOutgoing adapter reply data
  | storing stage call =>
      rw [exec]
      split
      · exact ⟨rfl, nofun, nofun, fun _ => rfl⟩
      · exact ⟨rfl, rfl⟩
  | left =>
      refine ⟨rfl, ?_⟩
      intro r after
      cases after
      rfl
  | waking => exact ⟨rfl, rfl⟩
  | releasing => exact ⟨rfl, rfl⟩
  | emptying =>
      rw [exec]
      split
      · rename_i missing
        exact ⟨rfl, missing⟩
      · exact ⟨rfl, fun _ => Nat.lt_succ_self 1, nofun, absurd rfl⟩
  | forgetting => exact ⟨rfl, fun _ => Nat.lt_succ_self 0, nofun, absurd rfl⟩
  | released => exact ⟨rfl, nofun⟩

theorem safe_of_incoming {data other : Data} {p : Point}
    (same : other.incoming = data.incoming) (safe : Safe data p) :
    Safe other p := by
  cases p with
  | emptying =>
      intro missing
      exact safe (same.symm.trans missing)
  | _ => trivial

theorem safe_of_ne {data : Data} {p : Point} (other : p ≠ .emptying) :
    Safe data p := by
  cases p with
  | emptying => exact absurd rfl other
  | _ => trivial

theorem fits_of_exec {adapter : Adapter} {data : Data} {p : Point}
    {effect : Effect Data Point}
    (taken : (program adapter).exec data p = effect) : Fits data p effect :=
  taken ▸ fits adapter data p

/-- Every way through the two functions takes the lock once and gives it back
once. -/
theorem bracketed (adapter : Adapter) :
    SpinLock.Bracketed (program adapter) phase rank Safe where
  call := rfl
  handler _ := rfl
  handlerLocks _ _ := ⟨_, rfl⟩
  lock _ _ _ taken := fits_of_exec taken
  unlock _ _ _ taken := fits_of_exec taken
  work _ _ _ _ taken := ⟨(fits_of_exec taken).1, (fits_of_exec taken).2.1⟩
  finish _ _ _ taken := (fits_of_exec taken).1
  fault data p taken := by
    obtain ⟨rfl, missing⟩ := fits_of_exec taken
    exact ⟨rfl, fun safe => safe missing⟩
  faults data p _ faulty := by
    cases p with
    | emptying =>
        have missing : data.incoming = none := Decidable.not_not.mp faulty
        show exec adapter data .emptying = .fault
        rw [exec, missing]
    | _ => exact absurd trivial faulty
  keeps _ _ _ _ _ taken _ := safe_of_ne (fits_of_exec taken).2.2.1
  spares data p other outside changes r _ safe := by
    rcases changes with taken | ⟨q, taken⟩
    · exact safe_of_incoming (fits_of_exec taken).2 safe
    · exact safe_of_incoming ((fits_of_exec taken).2.2.2 outside) safe
  outside _ _ _ _ safe := safe_of_incoming rfl safe

theorem waits_outside (p : Point) (waits : Waits p) : phase p ≠ .holding := by
  cases p with
  | outgoing reply => exact nofun
  | _ => exact waits.elim

/-! ### Runs -/

/-- No interrupt arrives on a CPU while the call of famez_release_incoming on it
holds the lock, and the call takes the lock only with a slot to release. -/
def Undisturbed (s : State) : Label → Prop
  | .irq cpu _ => s.lock ≠ some (.process cpu)
  | .run cpu => ∀ call, s.calls (s.top cpu) = some call →
      call.point = .releasing → s.lock = none → s.data.incoming ≠ none
  | _ => True

theorem harmless_iff (adapter : Adapter) (s : State) (label : Label) :
    SpinLock.Harmless (program adapter) Safe s label ↔ Undisturbed s label := by
  cases label with
  | call cpu => exact Iff.rfl
  | irq cpu vector => exact Iff.rfl
  | outside event => exact Iff.rfl
  | run cpu =>
      constructor
      · intro harmless call running point free
        exact harmless call .emptying running
          (congrArg (exec adapter s.data) point) free
      · intro undisturbed call next running taken free
        obtain ⟨before, -⟩ := fits_of_exec taken
        cases point : call.point with
        | interrupted vector =>
            rw [point] at taken
            cases taken
            trivial
        | releasing =>
            rw [point] at taken
            cases taken
            exact undisturbed call running point free
        | _ =>
            rw [point] at before
            cases before

/-- The lock is disciplined in every state of a run exactly if no step of it
disturbs a release. -/
theorem incoming_slot_lock_disciplined_iff (adapter : Adapter) (data : Data)
    (trace : List Label) :
    Transition.Always (step adapter)
        (SpinLock.Disciplined (program adapter) Waits) (SpinLock.init data)
        trace ↔
      Transition.Meets (step adapter) Undisturbed (SpinLock.init data)
        trace := by
  rw [SpinLock.disciplined_iff_harmless (bracketed adapter) waits_outside data
    trace]
  constructor
  · exact Transition.Along.mono fun s label _ => (harmless_iff _ s label).mp
  · exact Transition.Along.mono fun s label _ => (harmless_iff _ s label).mpr

def adapter3 : Adapter where
  myId := 3
  nClients := 3
  vectors := id
  distinct _ _ := id

/-- The driver was loaded, and sender 1 left a message. -/
def loaded : Data where
  slot := fun i =>
    { buflen := 2, peerId := i, lastResponder := 0, peerSid := 0, peerCid := 0,
      buf := [104, 105, 0] }
  core := initialCore
  incoming := none

/-- Another interrupt on the CPU that is about to clear the slot. -/
theorem irq_during_release :
    ¬ Transition.Always (step adapter3)
        (SpinLock.Disciplined (program adapter3) Waits) (SpinLock.init loaded)
        ([.irq 0 1, .run 0, .run 0, .run 0, .run 0, .run 0, .call 0, .run 0] ++
          [.irq 0 1]) := by
  intro always
  have disciplined := Transition.along_last always.2 rfl rfl
  exact disciplined.selfSpin 0 _ _ rfl rfl rfl

end FameZ.Kernel.IncomingLock
