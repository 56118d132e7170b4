/-
Module: FameZ.Kernel.Outgoing
Purpose: The writes and the link replies of one adapter, one access to its own
  mailslot at a time.
Trusted boundary: the translation of famez_create_outgoing and of the locking
  and retrying of famez_bridge_write
Main exports: createOutgoing, Call, Phase, State, store, Label, step, Moves,
  step_moves
-/
import FameZ.Kernel.Link
import FameZ.Lib.Transition
import Mathlib.Logic.Function.Basic

namespace FameZ.Kernel.Outgoing

/-!
famez_bridge_write holds a mutex around its call, famez_link_request holds
nothing around its own: it runs in the interrupt handler.  Both check that the
slot is idle and then store into it.
-/

inductive Errno where
  | enetunreach
  | ebadslt
  | e2big
  | enodata
  | erestartsys
  | etimedout
deriving Repr, DecidableEq

/-- `FAMEZ_SID_CID_IS_PEER_ID`. -/
def famezSidCidIsPeerId : Int := -42

/-- `uint32_t peer_id`. -/
def peerIdOf (cid sid : Int) : Nat :=
  ((if sid = famezSidCidIsPeerId then cid else cid.tdiv 100) % 2 ^ 32).toNat

/-- The head of famez_create_outgoing: the peer id, or why there is none. -/
def createOutgoing (serverId maxBuflen : Nat) (cid sid : Int)
    (buflen : Nat) : Except Errno Nat :=
  let peerId := peerIdOf cid sid
  if sid ≠ 27 ∧ sid ≠ famezSidCidIsPeerId then .error .enetunreach
  else if peerId < 1 ∨ serverId < peerId then .error .ebadslt
  else if maxBuflen ≤ buflen then .error .e2big
  else if buflen = 0 then .error .enodata
  else .ok peerId

/-- The two callers. -/
inductive Caller where
  | bridgeWrite
  | linkRequest
deriving Repr, DecidableEq

/-- A call that got past the head. -/
structure Call where
  caller : Caller
  peerId : Nat
  buf : List UInt8
deriving Repr, DecidableEq

/-- The last access a call made. -/
inductive Stage where
  | sawIdle
  | wroteBuflen
  | wroteNul
  | wroteResponder
  | wroteBody
deriving Repr, DecidableEq

/-- `restarts` counts the attempts of a write that timed out.  A call is
`posted` from its doorbell until its peer clears the slot. -/
inductive Phase where
  | unused
  | waiting (call : Call) (restarts : Nat)
  | storing (stage : Stage) (call : Call)
  | posted (call : Call)
  | done (result : Except Errno Nat)

/-- `rung` counts the doorbells a peer has not answered.  `period` and `passes`
are history: the number of the idle period of the slot, and the calls that
passed the idle check with the period they did so in. -/
structure State where
  slot : Mailslot
  wbufMutex : Option Nat
  phase : Nat → Phase
  rung : Nat → Nat
  period : Nat
  passes : List (Nat × Nat)

def init : State where
  slot :=
    { buflen := 0, peerId := 0, lastResponder := 0, peerSid := 0,
      peerCid := 0, buf := List.replicate 384 0 }
  wbufMutex := none
  phase := fun _ => .unused
  rung := fun _ => 0
  period := 0
  passes := []

def State.setPhase (s : State) (c : Nat) (phase : Phase) : State :=
  { s with phase := Function.update s.phase c phase }

@[simp] theorem phase_setPhase (s : State) (c : Nat) (phase : Phase) :
    (s.setPhase c phase).phase = Function.update s.phase c phase := rfl

/-- What the caller makes of a slot that stayed busy. -/
def busyErrno : Caller → Errno
  | .bridgeWrite => .etimedout
  | .linkRequest => .erestartsys

/-- `mutex_unlock` at the end of a write. -/
def unlock (caller : Caller) (mutex : Option Nat) : Option Nat :=
  match caller with
  | .bridgeWrite => none
  | .linkRequest => mutex

/-- The next store into the slot. -/
def store (stage : Stage) (call : Call) (slot : Mailslot) :
    Option (Stage × Mailslot) :=
  match stage with
  | .sawIdle => some (.wroteBuflen, { slot with buflen := call.buf.length })
  | .wroteBuflen =>
      some (.wroteNul, { slot with buf := slot.buf.set call.buf.length 0 })
  | .wroteNul =>
      some (.wroteResponder, { slot with lastResponder := call.peerId })
  | .wroteResponder =>
      some (.wroteBody,
        { slot with buf := call.buf ++ slot.buf.drop call.buf.length })
  | .wroteBody => none

/-- `start` enters with the arguments of the caller, `check` is the idle check
that passes, `timeout` the one that does not, and `clear` is a peer that takes
a message. -/
inductive Label where
  | start (c : Nat) (caller : Caller) (cid sid : Int) (buf : List UInt8)
  | check (c : Nat)
  | timeout (c : Nat)
  | store (c : Nat)
  | ring (c : Nat)
  | clear (peer : Nat)
deriving Repr, DecidableEq

/-- The posted message of a call that went to the peer is taken. -/
def Phase.taken (peer : Nat) : Phase → Phase
  | .posted call =>
      if call.peerId = peer then .done (.ok call.buf.length)
      else .posted call
  | phase => phase

def step (serverId maxBuflen : Nat) : Transition.Step State Label :=
  fun s label =>
  match label with
  | .start c caller cid sid buf =>
      match s.phase c with
      | .unused =>
          if caller = .bridgeWrite ∧ s.wbufMutex ≠ none then none
          else
            match createOutgoing serverId maxBuflen cid sid buf.length with
            | .error errno => some (s.setPhase c (.done (.error errno)))
            | .ok peerId =>
                some
                  { s.setPhase c
                      (.waiting
                        { caller := caller, peerId := peerId, buf := buf }
                        0) with
                    wbufMutex :=
                      if caller = .bridgeWrite then some c else s.wbufMutex }
      | _ => none
  | .check c =>
      match s.phase c with
      | .waiting call _ =>
          if s.slot.buflen = 0 then
            some
              { s.setPhase c (.storing .sawIdle call) with
                passes := s.passes ++ [(c, s.period)] }
          else none
      | _ => none
  | .timeout c =>
      match s.phase c with
      | .waiting call restarts =>
          if s.slot.buflen = 0 then none
          else if call.caller = .bridgeWrite ∧ restarts < 2 then
            some (s.setPhase c (.waiting call (restarts + 1)))
          else
            some
              { s.setPhase c (.done (.error (busyErrno call.caller))) with
                wbufMutex := unlock call.caller s.wbufMutex }
      | _ => none
  | .store c =>
      match s.phase c with
      | .storing stage call =>
          (store stage call s.slot).map fun next =>
            { s.setPhase c (.storing next.1 call) with slot := next.2 }
      | _ => none
  | .ring c =>
      match s.phase c with
      | .storing .wroteBody call =>
          some
            { s.setPhase c (.posted call) with
              rung := Function.update s.rung call.peerId
                (s.rung call.peerId + 1)
              wbufMutex := unlock call.caller s.wbufMutex }
      | _ => none
  | .clear peer =>
      if s.rung peer = 0 then none
      else
        some
          { s with
            slot := { s.slot with buflen := 0 }
            phase := fun c => (s.phase c).taken peer
            rung := Function.update s.rung peer (s.rung peer - 1)
            period :=
              if s.slot.buflen = 0 then s.period else s.period + 1 }

/-- What a step can do. -/
inductive Moves (s : State) : Label → State → Prop where
  | entered {c : Nat} {caller : Caller} {cid sid : Int} {buf : List UInt8}
      {call : Call} {mutex : Option Nat} (fresh : s.phase c = .unused)
      (body : call.buf ≠ []) :
      Moves s (.start c caller cid sid buf)
        { s.setPhase c (.waiting call 0) with wbufMutex := mutex }
  | rejected {c : Nat} {caller : Caller} {cid sid : Int} {buf : List UInt8}
      {errno : Errno} (fresh : s.phase c = .unused) :
      Moves s (.start c caller cid sid buf)
        (s.setPhase c (.done (.error errno)))
  | check {c restarts : Nat} {call : Call}
      (phase : s.phase c = .waiting call restarts)
      (idle : s.slot.buflen = 0) :
      Moves s (.check c)
        { s.setPhase c (.storing .sawIdle call) with
          passes := s.passes ++ [(c, s.period)] }
  | retry {c restarts : Nat} {call : Call}
      (phase : s.phase c = .waiting call restarts) :
      Moves s (.timeout c) (s.setPhase c (.waiting call (restarts + 1)))
  | gaveUp {c restarts : Nat} {call : Call} {mutex : Option Nat}
      (phase : s.phase c = .waiting call restarts) :
      Moves s (.timeout c)
        { s.setPhase c (.done (.error (busyErrno call.caller))) with
          wbufMutex := mutex }
  | store {c : Nat} {stage next : Stage} {call : Call} {slot : Mailslot}
      (phase : s.phase c = .storing stage call)
      (stores : store stage call s.slot = some (next, slot)) :
      Moves s (.store c)
        { s.setPhase c (.storing next call) with slot := slot }
  | ring {c : Nat} {call : Call} {mutex : Option Nat}
      (phase : s.phase c = .storing .wroteBody call) :
      Moves s (.ring c)
        { s.setPhase c (.posted call) with
          rung := Function.update s.rung call.peerId
            (s.rung call.peerId + 1)
          wbufMutex := mutex }
  | clear {peer : Nat} (rung : s.rung peer ≠ 0) :
      Moves s (.clear peer)
        { s with
          slot := { s.slot with buflen := 0 }
          phase := fun c => (s.phase c).taken peer
          rung := Function.update s.rung peer (s.rung peer - 1)
          period := if s.slot.buflen = 0 then s.period else s.period + 1 }

/-- A call that gets past the head has something to send. -/
theorem createOutgoing_nonempty {serverId maxBuflen peerId : Nat}
    {cid sid : Int} {buf : List UInt8}
    (passes : createOutgoing serverId maxBuflen cid sid buf.length =
      .ok peerId) : buf ≠ [] := by
  rintro rfl
  unfold createOutgoing at passes
  dsimp only at passes
  split at passes
  · cases passes
  · split at passes
    · cases passes
    · split at passes
      · cases passes
      · simp at passes

/-- The inversion of one step. -/
theorem step_moves {serverId maxBuflen : Nat} {s t : State} {label : Label}
    (taken : step serverId maxBuflen s label = some t) :
    Moves s label t := by
  cases label with
  | start c caller cid sid buf =>
      simp only [step] at taken
      split at taken
      · rename_i fresh
        split at taken
        · cases taken
        · split at taken
          · cases taken
            exact .rejected fresh
          · rename_i peerId passes
            cases taken
            exact .entered fresh (createOutgoing_nonempty passes)
      · cases taken
  | check c =>
      simp only [step] at taken
      split at taken
      · rename_i phase
        rw [Option.ite_none_right_eq_some, Option.some.injEq] at taken
        obtain ⟨idle, rfl⟩ := taken
        exact .check phase idle
      · cases taken
  | timeout c =>
      simp only [step] at taken
      split at taken
      · rename_i phase
        split at taken
        · cases taken
        · split at taken
          · cases taken
            exact .retry phase
          · cases taken
            exact .gaveUp phase
      · cases taken
  | store c =>
      simp only [step] at taken
      split at taken
      · rename_i phase
        obtain ⟨⟨next, slot⟩, stores, rfl⟩ := Option.map_eq_some_iff.mp taken
        exact .store phase stores
      · cases taken
  | ring c =>
      simp only [step] at taken
      split at taken
      · rename_i phase
        cases taken
        exact .ring phase
      · cases taken
  | clear peer =>
      simp only [step, Option.ite_none_left_eq_some,
        Option.some.injEq] at taken
      obtain ⟨rung, rfl⟩ := taken
      exact .clear rung

end FameZ.Kernel.Outgoing
