/-
Module: FameZ.Monolithic.Readers
Purpose: One configuration of the monolithic driver that receives: senders, the
  interrupts of all of them and any number of reads.
Trusted boundary: the translation of all_msix, famez_await_legible_slot,
  famez_release_legible_slot and bridge_read
Main exports: Handler, Reader, Party, State, isPing, bridgeRead, Label, step,
  Moves, step_moves
-/
import FameZ.Lib.Scanf
import FameZ.Lib.Semaphore
import FameZ.Lib.Transition
import FameZ.Monolithic.Sendmail

namespace FameZ.Monolithic.Readers

/-!
The handler answers a ping itself and leaves every other message to the readers
by pointing `legible_slot` at its slot.  The pointer is behind a semaphore whose
`down` a signal can interrupt: a read then gives up, the handler goes on without
the lock.
-/

/-- Where a sender is in famez_sendmail. -/
inductive Sender where
  | idle
  | filled
deriving Repr, DecidableEq

/-- An all_msix for one vector.  `pinged` is about to answer, `entering` is at
FAMEZ_LOCK, `locked` and `badLock` are past it, `stored` is at FAMEZ_UNLOCK. -/
inductive Handler where
  | idle
  | pinged
  | entering
  | queued
  | locked
  | badLock
  | stored
deriving Repr, DecidableEq

/-- A bridge_read of `size` bytes.  `entering` is at FAMEZ_LOCK, `locked` at the
test of the pointer, `found` past it, `reading` has taken the pointer, and the
last three are in famez_release_legible_slot.  `oops` followed NULL. -/
inductive Reader where
  | unused
  | entering (nonblock : Bool)
  | queued (nonblock : Bool)
  | locked (nonblock : Bool)
  | waiting (nonblock : Bool)
  | found
  | reading (slot : Nat)
  | copied (slot : Nat) (result : Except Errno (List UInt8))
  | cleared (result : Except Errno (List UInt8))
  | forgotten (result : Except Errno (List UInt8))
  | done (result : Except Errno (List UInt8))
  | oops

/-- Who uses the semaphore. -/
inductive Party where
  | handler (i : Nat)
  | reader (r : Nat)
deriving Repr, DecidableEq

/-- The mailbox, the configuration, its handlers and its readers.  `pending` is
a doorbell whose interrupt has not been taken.  `addressee` and `answered` are
history: the destination of the message in a slot, and that the handler answered
it. -/
structure State where
  slot : Nat → Mailslot
  legible : Option Nat
  legibleLock : Semaphore Party
  sender : Nat → Sender
  pending : Nat → Bool
  handler : Nat → Handler
  reader : Nat → Reader
  addressee : Nat → Nat
  answered : Nat → Bool

/-- After the driver was loaded. -/
def init (config : Configuration) : State where
  slot := fun _ => emptySlot config
  legible := none
  legibleLock := Semaphore.init 1
  sender := fun _ => .idle
  pending := fun _ => false
  handler := fun _ => .idle
  reader := fun _ => .unused
  addressee := fun _ => 0
  answered := fun _ => false

def State.setHandler (s : State) (i : Nat) (handler : Handler) : State :=
  { s with handler := Function.update s.handler i handler }

def State.setReader (s : State) (r : Nat) (reader : Reader) : State :=
  { s with reader := Function.update s.reader r reader }

/-! ### The functions of the driver -/

/-- The party has the lock. -/
def State.grant (s : State) : Party → State
  | .handler i =>
      match s.handler i with
      | .queued => s.setHandler i .locked
      | _ => s
  | .reader r =>
      match s.reader r with
      | .queued nonblock => s.setReader r (.locked nonblock)
      | _ => s

/-- FAMEZ_UNLOCK. -/
def State.up (s : State) : State :=
  match s.legibleLock.up with
  | (none, lock) => { s with legibleLock := lock }
  | (some party, lock) => { s.grant party with legibleLock := lock }

/-- `STREQ_N(msg, "ping", 4)` for a message of that length. -/
def isPing (slot : Mailslot) : Prop :=
  slot.msglen = 4 ∧ slot.msg.take 4 = [112, 105, 110, 103]

instance (slot : Mailslot) : Decidable (isPing slot) :=
  inferInstanceAs (Decidable (_ ∧ _))

/-- `all_msix` up to its reply or its lock. -/
def allMsix (config : Configuration) (vector : Nat) (s : State) : State :=
  match (matchVector config vector).bind (calculateMailslot config) with
  | none => s
  | some i =>
      { s.setHandler i (if isPing (s.slot i) then .pinged else .entering) with
        slot := Function.update s.slot i { s.slot i with peerId := i } }

/-- The reply of the handler, which is rung for like any message. -/
def pong (config : Configuration) (i : Nat) (s : State) : State :=
  match famezSendmail config i [112, 111, 110, 103] 4
      (s.slot config.myId) with
  | .error _ => s
  | .ok (_, slot, ringer) =>
      { s with
        slot := Function.update s.slot config.myId slot
        addressee := Function.update s.addressee config.myId ringer.peer
        pending := Function.update s.pending config.myId
          (s.pending config.myId || decide (ringer.peer = config.myId)) }

/-- The sender id and its colon, as `sprintf` leaves them. -/
def senderIdStr (peerId : Nat) : List Char :=
  let digits := Scanf.decimal peerId
  List.replicate (3 - digits.length) '0' ++ digits ++ [':']

def senderIdLen : Nat := 4

/-- The body of bridge_read between the wait and the release, for a user buffer
of `size` bytes.  The sender id is read through the pointer again.  `faults`
says which copy_to_user fails. -/
def bridgeRead (slot pointed : Mailslot) (size : Nat) (faults : Bool × Bool) :
    Except Errno (List UInt8) :=
  if size < slot.msglen + senderIdLen then .error .e2big
  else if faults.1 then .error .efault
  else if faults.2 then .error .efault
  else
    .ok (((senderIdStr pointed.peerId).map Char.toUInt8).take senderIdLen ++
      slot.msg.take slot.msglen)

/-! ### Runs -/

/-- `fill` and `ring` are the two halves of famez_sendmail in a sender whose
wait found its slot empty in time, `elsewhere` is another receiver that empties
a slot addressed to it.  `irq` takes the interrupt of a sender, `answer` is the
reply to a ping.  `lock` is FAMEZ_LOCK up to its wait, and `signal` interrupts a
party that waits.  `clear`, `forget` and `release` are the three statements of
famez_release_legible_slot. -/
inductive Label where
  | fill (i dest : Nat) (msg : List UInt8)
  | ring (i : Nat)
  | elsewhere (i : Nat)
  | irq (i : Nat)
  | answer (i : Nat)
  | store (i : Nat)
  | unlock (i : Nat)
  | lock (party : Party)
  | signal (party : Party)
  | enter (r : Nat) (nonblock : Bool)
  | check (r : Nat)
  | wake (r : Nat)
  | sample (r : Nat)
  | copy (r size : Nat) (faults : Bool × Bool)
  | clear (r : Nat)
  | forget (r : Nat)
  | release (r : Nat)
deriving Repr, DecidableEq

/-- FAMEZ_LOCK of a handler. -/
def lockHandler (s : State) (i : Nat) : State :=
  match s.legibleLock.down with
  | some lock => { s.setHandler i .locked with legibleLock := lock }
  | none =>
      { s.setHandler i .queued with
        legibleLock := s.legibleLock.wait (.handler i) }

/-- FAMEZ_LOCK of a read. -/
def lockReader (s : State) (r : Nat) (nonblock : Bool) : State :=
  match s.legibleLock.down with
  | some lock => { s.setReader r (.locked nonblock) with legibleLock := lock }
  | none =>
      { s.setReader r (.queued nonblock) with
        legibleLock := s.legibleLock.wait (.reader r) }

def step (config : Configuration) : Transition.Step State Label :=
  fun s label =>
  match label with
  | .fill i dest msg =>
      if IsSlot config i ∧ s.sender i = .idle ∧ (s.slot i).msglen = 0 ∧
          msg ≠ [] ∧ msg.length < config.maxMsglen then
        some
          { s with
            slot := Function.update s.slot i (fillSlot dest msg (s.slot i))
            sender := Function.update s.sender i .filled
            addressee := Function.update s.addressee i dest
            answered := Function.update s.answered i false }
      else none
  | .ring i =>
      if s.sender i = .filled then
        some
          { s with
            sender := Function.update s.sender i .idle
            pending := Function.update s.pending i
              (s.pending i || decide (s.addressee i = config.myId)) }
      else none
  | .elsewhere i =>
      if s.sender i = .idle ∧ s.addressee i ≠ config.myId then
        some
          { s with
            slot := Function.update s.slot i { s.slot i with msglen := 0 } }
      else none
  | .irq i =>
      if s.pending i = true ∧ s.handler i = .idle then
        some (allMsix config (config.vectors i)
          { s with pending := Function.update s.pending i false })
      else none
  | .answer i =>
      match s.handler i with
      | .pinged =>
          some
            { (pong config i s).setHandler i .idle with
              answered := Function.update s.answered i true }
      | _ => none
  | .store i =>
      match s.handler i with
      | .locked => some { s.setHandler i .stored with legible := some i }
      | .badLock => some { s.setHandler i .idle with legible := some i }
      | _ => none
  | .unlock i =>
      match s.handler i with
      | .stored => some (s.up.setHandler i .idle)
      | _ => none
  | .lock (.handler i) =>
      match s.handler i with
      | .entering => some (lockHandler s i)
      | _ => none
  | .lock (.reader r) =>
      match s.reader r with
      | .entering nonblock => some (lockReader s r nonblock)
      | _ => none
  | .signal (.handler i) =>
      match s.handler i with
      | .queued =>
          some
            { s.setHandler i .badLock with
              legibleLock := s.legibleLock.interrupt (.handler i) }
      | _ => none
  | .signal (.reader r) =>
      match s.reader r with
      | .queued _ =>
          some
            { s.setReader r (.done (.error .eintr)) with
              legibleLock := s.legibleLock.interrupt (.reader r) }
      | .waiting _ => some (s.setReader r (.done (.error .erestartsys)))
      | _ => none
  | .enter r nonblock =>
      match s.reader r with
      | .unused => some (s.setReader r (.entering nonblock))
      | _ => none
  | .check r =>
      match s.reader r with
      | .locked nonblock =>
          match s.legible with
          | some _ => some (s.setReader r .found)
          | none =>
              some (s.up.setReader r
                (if nonblock = true then .done (.error .eagain)
                  else .waiting nonblock))
      | _ => none
  | .wake r =>
      match s.reader r with
      | .waiting nonblock =>
          if s.legible.isSome = true then
            some (s.setReader r (.entering nonblock))
          else none
      | _ => none
  | .sample r =>
      match s.reader r with
      | .found =>
          match s.legible with
          | some i => some (s.setReader r (.reading i))
          | none => some (s.setReader r .oops)
      | _ => none
  | .copy r size faults =>
      match s.reader r with
      | .reading i =>
          match s.legible with
          | some j =>
              some (s.setReader r
                (.copied i (bridgeRead (s.slot i) (s.slot j) size faults)))
          | none => some (s.setReader r .oops)
      | _ => none
  | .clear r =>
      match s.reader r with
      | .copied _ result =>
          match s.legible with
          | some i =>
              some
                { s.setReader r (.cleared result) with
                  slot := Function.update s.slot i
                    { s.slot i with msglen := 0 } }
          | none => some (s.setReader r .oops)
      | _ => none
  | .forget r =>
      match s.reader r with
      | .cleared result =>
          some { s.setReader r (.forgotten result) with legible := none }
      | _ => none
  | .release r =>
      match s.reader r with
      | .forgotten result => some (s.up.setReader r (.done result))
      | _ => none

/-! ### What a step can do -/

def Handler.use : Handler → Semaphore.Use
  | .queued => .queued
  | .locked => .inside
  | .stored => .inside
  | _ => .away

def Reader.use : Reader → Semaphore.Use
  | .queued _ => .queued
  | .locked _ => .inside
  | .found => .inside
  | .reading _ => .inside
  | .copied _ _ => .inside
  | .cleared _ => .inside
  | .forgotten _ => .inside
  | .oops => .inside
  | _ => .away

def uses (s : State) : Party → Semaphore.Use
  | .handler i => (s.handler i).use
  | .reader r => (s.reader r).use

/-- The handler has taken an interrupt and not yet done with the message what it
will do. -/
def Handler.taken : Handler → Bool
  | .idle => false
  | .stored => false
  | _ => true

/-- What a read has of the pointer: it is past the test, it has taken it from a
slot, or it has emptied the slot and is about to store NULL. -/
inductive Sight where
  | blind
  | found
  | on (slot : Nat)
  | clearing
deriving Repr, DecidableEq

def Reader.sight : Reader → Sight
  | .found => .found
  | .reading i => .on i
  | .copied i _ => .on i
  | .cleared _ => .clearing
  | _ => .blind

/-- The sight that the pointer of a state allows. -/
def Allowed (s : State) (r : Nat) : Sight → Prop
  | .blind => True
  | .found => s.legible.isSome = true
  | .on i => s.legible = some i ∨ (s.reader r).sight = .on i
  | .clearing => False

/-- `turns` are the steps of a read outside the lock, `looks` those that leave
the pointer alone inside it, and `leaves` those that give the lock up. -/
inductive Moves (config : Configuration) (s : State) : Label → State → Prop where
  | fill {i dest : Nat} {msg : List UInt8} (slot : IsSlot config i)
      (idle : s.sender i = .idle) (empty : (s.slot i).msglen = 0)
      (nonempty : msg ≠ []) :
      Moves config s (.fill i dest msg)
        { s with
          slot := Function.update s.slot i (fillSlot dest msg (s.slot i))
          sender := Function.update s.sender i .filled
          addressee := Function.update s.addressee i dest
          answered := Function.update s.answered i false }
  | ring {i : Nat} (filled : s.sender i = .filled) :
      Moves config s (.ring i)
        { s with
          sender := Function.update s.sender i .idle
          pending := Function.update s.pending i
            (s.pending i || decide (s.addressee i = config.myId)) }
  | elsewhere {i : Nat} (idle : s.sender i = .idle)
      (away : s.addressee i ≠ config.myId) :
      Moves config s (.elsewhere i)
        { s with
          slot := Function.update s.slot i { s.slot i with msglen := 0 } }
  | unmatched {i : Nat} {t : State} (pending : s.pending i = true)
      (outside : ¬ IsSlot config i) : Moves config s (.irq i) t
  | irq {i : Nat} {next : Handler} (pending : s.pending i = true)
      (free : s.handler i = .idle) (slot : IsSlot config i)
      (use : next.use = .away) (taken : next.taken = true) :
      Moves config s (.irq i)
        { s.setHandler i next with
          pending := Function.update s.pending i false
          slot := Function.update s.slot i { s.slot i with peerId := i } }
  | answers {i : Nat} (pinged : s.handler i = .pinged) :
      Moves config s (.answer i)
        { (pong config i s).setHandler i .idle with
          answered := Function.update s.answered i true }
  | stores {i : Nat} {next : Handler} (taken : (s.handler i).taken = true)
      (use : next.use = (s.handler i).use) (past : next.taken = false) :
      Moves config s (.store i)
        { s.setHandler i next with legible := some i }
  | unlocks {i : Nat} (stored : s.handler i = .stored) :
      Moves config s (.unlock i) (s.up.setHandler i .idle)
  | locksHandler {i : Nat} (entering : s.handler i = .entering) :
      Moves config s (.lock (.handler i)) (lockHandler s i)
  | locksReader {r : Nat} {nonblock : Bool}
      (entering : s.reader r = .entering nonblock) :
      Moves config s (.lock (.reader r)) (lockReader s r nonblock)
  | signalsHandler {i : Nat} (queued : s.handler i = .queued) :
      Moves config s (.signal (.handler i))
        { s.setHandler i .badLock with
          legibleLock := s.legibleLock.interrupt (.handler i) }
  | signalsReader {r : Nat} {nonblock : Bool}
      (queued : s.reader r = .queued nonblock) :
      Moves config s (.signal (.reader r))
        { s.setReader r (.done (.error .eintr)) with
          legibleLock := s.legibleLock.interrupt (.reader r) }
  | turns {r : Nat} {new : Reader} {label : Label}
      (outside : (s.reader r).use = .away) (stays : new.use = .away)
      (blind : new.sight = .blind) :
      Moves config s label (s.setReader r new)
  | looks {r : Nat} {new : Reader} {label : Label}
      (inside : (s.reader r).use = .inside) (stays : new.use = .inside)
      (before : (s.reader r).sight ≠ .clearing)
      (allowed : Allowed s r new.sight) :
      Moves config s label (s.setReader r new)
  | oops {r : Nat} {t : State} {label : Label} (looking : (s.reader r).sight ≠ .blind)
      (before : (s.reader r).sight ≠ .clearing) (null : s.legible = none) :
      Moves config s label t
  | leaves {r : Nat} {new : Reader} {label : Label}
      (inside : (s.reader r).use = .inside)
      (before : (s.reader r).sight = .blind)
      (outside : new.use = .away) (blind : new.sight = .blind) :
      Moves config s label (s.up.setReader r new)
  | clears {r i j : Nat} {result : Except Errno (List UInt8)}
      (copied : s.reader r = .copied j result) (points : s.legible = some i) :
      Moves config s (.clear r)
        { s.setReader r (.cleared result) with
          slot := Function.update s.slot i { s.slot i with msglen := 0 } }
  | forgets {r : Nat} {result : Except Errno (List UInt8)}
      (cleared : s.reader r = .cleared result) :
      Moves config s (.forget r)
        { s.setReader r (.forgotten result) with legible := none }

theorem moves_irq {config : Configuration} {s : State} {i : Nat}
    (pending : s.pending i = true) (free : s.handler i = .idle) :
    Moves config s (.irq i)
      (allMsix config (config.vectors i)
        { s with pending := Function.update s.pending i false }) := by
  by_cases slot : IsSlot config i
  · simp only [allMsix, matchVector_vectors slot]
    split
    · exact .irq pending free slot rfl rfl
    · exact .irq pending free slot rfl rfl
  · exact .unmatched pending slot

theorem step_moves {config : Configuration} {s t : State} {label : Label}
    (taken : step config s label = some t) : Moves config s label t := by
  cases label with
  | fill i dest msg =>
      simp only [step] at taken
      split at taken
      · rename_i guard
        obtain ⟨slot, idle, empty, nonempty, -⟩ := guard
        cases taken
        exact .fill slot idle empty nonempty
      · cases taken
  | ring i =>
      simp only [step] at taken
      split at taken
      · rename_i filled
        cases taken
        exact .ring filled
      · cases taken
  | elsewhere i =>
      simp only [step] at taken
      split at taken
      · rename_i guard
        cases taken
        exact .elsewhere guard.1 guard.2
      · cases taken
  | irq i =>
      simp only [step] at taken
      split at taken
      · rename_i guard
        cases taken
        exact moves_irq guard.1 guard.2
      · cases taken
  | answer i =>
      simp only [step] at taken
      split at taken
      · rename_i pinged
        cases taken
        exact .answers pinged
      · cases taken
  | store i =>
      simp only [step] at taken
      split at taken
      · rename_i locked
        cases taken
        exact .stores (by rw [locked]; rfl) (by rw [locked]; rfl) rfl
      · rename_i badLock
        cases taken
        exact .stores (by rw [badLock]; rfl) (by rw [badLock]; rfl) rfl
      · cases taken
  | unlock i =>
      simp only [step] at taken
      split at taken
      · rename_i stored
        cases taken
        exact .unlocks stored
      · cases taken
  | lock party =>
      cases party with
      | handler i =>
          simp only [step] at taken
          split at taken
          · rename_i entering
            cases taken
            exact .locksHandler entering
          · cases taken
      | reader r =>
          simp only [step] at taken
          split at taken
          · rename_i entering
            cases taken
            exact .locksReader entering
          · cases taken
  | signal party =>
      cases party with
      | handler i =>
          simp only [step] at taken
          split at taken
          · rename_i queued
            cases taken
            exact .signalsHandler queued
          · cases taken
      | reader r =>
          simp only [step] at taken
          split at taken
          · rename_i queued
            cases taken
            exact .signalsReader queued
          · rename_i waits
            cases taken
            exact .turns (by rw [waits]; rfl) rfl rfl
          · cases taken
  | enter r nonblock =>
      simp only [step] at taken
      split at taken
      · rename_i unused
        cases taken
        exact .turns (by rw [unused]; rfl) rfl rfl
      · cases taken
  | check r =>
      simp only [step] at taken
      split at taken
      · rename_i locked
        split at taken
        · rename_i points
          cases taken
          exact .looks (by rw [locked]; rfl) rfl (by rw [locked]; exact nofun)
            (by simp [Reader.sight, Allowed, points])
        · cases taken
          split
          · exact .leaves (by rw [locked]; rfl) (by rw [locked]; rfl) rfl rfl
          · exact .leaves (by rw [locked]; rfl) (by rw [locked]; rfl) rfl rfl
      · cases taken
  | wake r =>
      simp only [step] at taken
      split at taken
      · rename_i waits
        split at taken
        · cases taken
          exact .turns (by rw [waits]; rfl) rfl rfl
        · cases taken
      · cases taken
  | sample r =>
      simp only [step] at taken
      split at taken
      · rename_i found
        split at taken
        · rename_i points
          cases taken
          exact .looks (by rw [found]; rfl) rfl (by rw [found]; exact nofun)
            (.inl points)
        · rename_i null
          exact .oops (by rw [found]; exact nofun) (by rw [found]; exact nofun)
            null
      · cases taken
  | copy r size faults =>
      simp only [step] at taken
      split at taken
      · rename_i reads
        split at taken
        · cases taken
          exact .looks (by rw [reads]; rfl) rfl (by rw [reads]; exact nofun)
            (.inr (by rw [reads]; rfl))
        · rename_i null
          exact .oops (by rw [reads]; exact nofun) (by rw [reads]; exact nofun)
            null
      · cases taken
  | clear r =>
      simp only [step] at taken
      split at taken
      · rename_i copied
        split at taken
        · rename_i points
          cases taken
          exact .clears copied points
        · rename_i null
          exact .oops (by rw [copied]; exact nofun)
            (by rw [copied]; exact nofun) null
      · cases taken
  | forget r =>
      simp only [step] at taken
      split at taken
      · rename_i cleared
        cases taken
        exact .forgets cleared
      · cases taken
  | release r =>
      simp only [step] at taken
      split at taken
      · rename_i forgotten
        cases taken
        exact .leaves (by rw [forgotten]; rfl) (by rw [forgotten]; rfl) rfl rfl
      · cases taken

end FameZ.Monolithic.Readers
