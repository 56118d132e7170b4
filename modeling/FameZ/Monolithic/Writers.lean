/-
Module: FameZ.Monolithic.Writers
Purpose: Any number of writes to one open file of the monolithic driver, which
  share its write buffer under a semaphore.
Trusted boundary: the translation of bridge_write and of the locks of famez.h
Main exports: Stage, Call, State, Label, step, Moves, step_moves, Contained,
  advance_isSome
-/
import FameZ.Lib.CBuffer
import FameZ.Lib.Semaphore
import FameZ.Lib.Transition
import FameZ.Monolithic.Sendmail

namespace FameZ.Monolithic.Writers

open CBuffer (cstring strchr)

/-!
FAMEZ_LOCK is `down_interruptible`: a signal makes it fail, and bridge_write
then leaves through the same label as a write that holds the lock.
-/

/-- What a write that holds the lock does next; `leaving` is at
`unlock_return`. -/
inductive Stage where
  | copying
  | terminating
  | splitting
  | resolving (msgbody : Nat)
  | sending (msgbody peerId : Nat)
  | leaving (result : Except Errno Nat)

/-- A bridge_write of the bytes of the user.  `interrupted` is at
`unlock_return` with the error of FAMEZ_LOCK. -/
inductive Call where
  | unused
  | locking (buf : List UInt8)
  | interrupted
  | locked (buf : List UInt8) (stage : Stage)
  | done (result : Except Errno Nat)

/-- The write buffer, its lock, the slot of the adapter, the doorbells so far
and the calls.  `downs` and `ups` are history: the successful downs and the ups
of each call. -/
structure State where
  wbuf : List UInt8
  wbufLock : Semaphore Nat
  mySlot : Mailslot
  rung : List Ringer
  call : Nat → Call
  downs : Nat → Nat
  ups : Nat → Nat

/-- After bridge_open. -/
def init (config : Configuration) : State where
  wbuf := List.replicate config.maxMsglen 0
  wbufLock := Semaphore.init 1
  mySlot := emptySlot config
  rung := []
  call := fun _ => .unused
  downs := fun _ => 0
  ups := fun _ => 0

def State.setCall (s : State) (c : Nat) (call : Call) : State :=
  { s with call := Function.update s.call c call }

def State.proceed (s : State) (c : Nat) (buf : List UInt8) (stage : Stage) :
    State :=
  s.setCall c (.locked buf stage)

/-! ### The functions of the driver -/

/-- FAMEZ_LOCK, up to the wait. -/
def State.down (s : State) (c : Nat) (buf : List UInt8) : State :=
  match s.wbufLock.down with
  | some lock =>
      { s.proceed c buf .copying with
        wbufLock := lock
        downs := Function.update s.downs c (s.downs c + 1) }
  | none =>
      { s.setCall c (.locking buf) with wbufLock := s.wbufLock.wait c }

/-- A waiter that the semaphore was handed to. -/
def Call.granted : Call → Call
  | .locking buf => .locked buf .copying
  | call => call

/-- FAMEZ_UNLOCK. -/
def State.up (s : State) (c : Nat) : State :=
  let s := { s with ups := Function.update s.ups c (s.ups c + 1) }
  match s.wbufLock.up with
  | (none, lock) => { s with wbufLock := lock }
  | (some w, lock) =>
      { s.setCall w (s.call w).granted with
        wbufLock := lock
        downs := Function.update s.downs w (s.downs w + 1) }

/-- `copy_from_user` that reaches `copied` bytes, and clears the others. -/
def copyFromUser (wbuf buf : List UInt8) (copied : Nat) : List UInt8 :=
  buf.take copied ++ List.replicate (buf.length - copied) 0 ++
    wbuf.drop buf.length

/-- `buflen -= msgbody - wbuf` in a `size_t`. -/
def bodyLength (buf : List UInt8) (msgbody : Nat) : Nat :=
  (buf.length + 2 ^ 64 - msgbody) % 2 ^ 64

/-- The characters of a string. -/
def chars (text : List UInt8) : List Char :=
  text.map fun byte => Char.ofNat byte.toNat

/-- The destination that the string at the front of the buffer names. -/
def peerIdOf (config : Configuration) (name : List UInt8) :
    Except Errno Nat :=
  if chars name = "server".toList then .ok config.serverId
  else
    match Kstrto.kstrtou16 10 (chars name) with
    | .error error => .error (.parse error)
    | .ok peerId => .ok peerId

/-- What becomes of the result of famez_sendmail. -/
def settle (buflen successlen ret : Nat) : Except Errno Nat :=
  if ret = buflen then .ok successlen else .error .eio

/-- One stage of a write that holds the lock; `none` is an access outside the
buffer, or `leaving`.  `copied` is what copy_from_user reaches. -/
def work (config : Configuration) (s : State) (c : Nat) (buf : List UInt8)
    (copied : Nat) : Stage → Option State
  | .copying =>
      let s := { s with wbuf := copyFromUser s.wbuf buf copied }
      if copied < buf.length then
        some (s.proceed c buf (.leaving (.error .eio)))
      else some (s.proceed c buf .terminating)
  | .terminating => do
      let wbuf ← CBuffer.put s.wbuf buf.length 0
      some { s.proceed c buf .splitting with wbuf := wbuf }
  | .splitting => do
      let colon ← strchr 58 s.wbuf
      match colon with
      | none => some (s.proceed c buf (.leaving (.error .ebadmsg)))
      | some colon => do
          let wbuf ← CBuffer.put s.wbuf colon 0
          some { s.proceed c buf (.resolving (colon + 1)) with wbuf := wbuf }
  | .resolving msgbody => do
      let name ← cstring s.wbuf 0
      match peerIdOf config name with
      | .error errno => some (s.proceed c buf (.leaving (.error errno)))
      | .ok peerId => some (s.proceed c buf (.sending msgbody peerId))
  | .sending msgbody peerId =>
      let buflen := bodyLength buf msgbody
      match famezSendmail config peerId (s.wbuf.drop msgbody) buflen
          s.mySlot with
      | .error errno => some (s.proceed c buf (.leaving (.error errno)))
      | .ok (ret, slot, ringer) =>
          some
            { s.proceed c buf (.leaving (settle buflen buf.length ret)) with
              mySlot := slot
              rung := s.rung ++ [ringer] }
  | .leaving _ => none

/-! ### Runs -/

/-- `start` enters bridge_write, `signal` interrupts its wait for the lock,
`advance` is the next stage of a write that holds it, `unlock` is the end of one
at `unlock_return`, and `clear` is the responder that empties the slot. -/
inductive Label where
  | start (c : Nat) (buf : List UInt8)
  | signal (c : Nat)
  | advance (c copied : Nat)
  | unlock (c : Nat)
  | clear
deriving Repr, DecidableEq

def step (config : Configuration) : Transition.Step State Label :=
  fun s label =>
  match label with
  | .start c buf =>
      match s.call c with
      | .unused =>
          if config.maxMsglen - 1 ≤ buf.length then
            some (s.setCall c (.done (.error .e2big)))
          else some (s.down c buf)
      | _ => none
  | .signal c =>
      match s.call c with
      | .locking _ =>
          some
            { s.setCall c .interrupted with
              wbufLock := s.wbufLock.interrupt c }
      | _ => none
  | .advance c copied =>
      match s.call c with
      | .locked buf stage => work config s c buf copied stage
      | _ => none
  | .unlock c =>
      match s.call c with
      | .locked _ (.leaving result) => some ((s.up c).setCall c (.done result))
      | .interrupted => some ((s.up c).setCall c (.done (.error .eintr)))
      | _ => none
  | .clear =>
      some { s with mySlot := { s.mySlot with msglen := 0 } }

/-- What a step can do.  `strays` is the up of a write that was interrupted. -/
inductive Moves (config : Configuration) (s : State) : Label → State → Prop where
  | refused {c : Nat} {buf : List UInt8} (unused : s.call c = .unused) :
      Moves config s (.start c buf) (s.setCall c (.done (.error .e2big)))
  | locks {c : Nat} {buf : List UInt8} {lock : Semaphore Nat}
      (unused : s.call c = .unused)
      (short : buf.length < config.maxMsglen - 1)
      (got : s.wbufLock.down = some lock) :
      Moves config s (.start c buf)
        { s.proceed c buf .copying with
          wbufLock := lock
          downs := Function.update s.downs c (s.downs c + 1) }
  | queues {c : Nat} {buf : List UInt8} (unused : s.call c = .unused)
      (short : buf.length < config.maxMsglen - 1) :
      Moves config s (.start c buf)
        { s.setCall c (.locking buf) with wbufLock := s.wbufLock.wait c }
  | signalled {c : Nat} {buf : List UInt8} (waits : s.call c = .locking buf) :
      Moves config s (.signal c)
        { s.setCall c .interrupted with wbufLock := s.wbufLock.interrupt c }
  | advances {c copied : Nat} {buf : List UInt8} {stage : Stage} {t : State}
      (holds : s.call c = .locked buf stage)
      (works : work config s c buf copied stage = some t) :
      Moves config s (.advance c copied) t
  | releases {c : Nat} {buf : List UInt8} {result : Except Errno Nat}
      {lock : Semaphore Nat} (leaves : s.call c = .locked buf (.leaving result))
      (raised : s.wbufLock.up = (none, lock)) :
      Moves config s (.unlock c)
        { s.setCall c (.done result) with
          wbufLock := lock
          ups := Function.update s.ups c (s.ups c + 1) }
  | hands {c w : Nat} {buf : List UInt8} {result : Except Errno Nat}
      {lock : Semaphore Nat} (leaves : s.call c = .locked buf (.leaving result))
      (raised : s.wbufLock.up = (some w, lock)) :
      Moves config s (.unlock c)
        { (s.setCall w (s.call w).granted).setCall c (.done result) with
          wbufLock := lock
          downs := Function.update s.downs w (s.downs w + 1)
          ups := Function.update s.ups c (s.ups c + 1) }
  | strays {c : Nat} (interrupted : s.call c = .interrupted) :
      Moves config s (.unlock c)
        ((s.up c).setCall c (.done (.error .eintr)))
  | cleared :
      Moves config s .clear
        { s with mySlot := { s.mySlot with msglen := 0 } }

theorem step_moves {config : Configuration} {s t : State} {label : Label}
    (taken : step config s label = some t) : Moves config s label t := by
  cases label with
  | start c buf =>
      simp only [step] at taken
      split at taken
      · rename_i unused
        split at taken
        · cases taken
          exact .refused unused
        · rename_i short
          cases taken
          cases got : s.wbufLock.down with
          | none =>
              simp only [State.down, got]
              exact .queues unused (Nat.lt_of_not_le short)
          | some lock =>
              simp only [State.down, got]
              exact .locks unused (Nat.lt_of_not_le short) got
      · cases taken
  | signal c =>
      simp only [step] at taken
      split at taken
      · rename_i waits
        cases taken
        exact .signalled waits
      · cases taken
  | advance c copied =>
      simp only [step] at taken
      split at taken
      · rename_i holds
        exact .advances holds taken
      · cases taken
  | unlock c =>
      simp only [step] at taken
      split at taken
      · rename_i leaves
        cases taken
        cases raised : s.wbufLock.up with
        | mk handed lock =>
            cases handed with
            | none =>
                simp only [State.up, raised]
                exact .releases leaves raised
            | some w =>
                simp only [State.up, raised]
                exact .hands leaves raised
      · rename_i interrupted
        cases taken
        exact .strays interrupted
      · cases taken
  | clear =>
      cases taken
      exact .cleared

/-- A stage changes the place of its call, the buffer and the slot. -/
theorem work_frame {config : Configuration} {s t : State} {c copied : Nat}
    {buf : List UInt8} {stage : Stage}
    (works : work config s c buf copied stage = some t) :
    t.wbufLock = s.wbufLock ∧ t.downs = s.downs ∧ t.ups = s.ups ∧
      ∃ next, t.call = Function.update s.call c (.locked buf next) := by
  cases stage with
  | copying =>
      simp only [work] at works
      split at works
      · cases works
        exact ⟨rfl, rfl, rfl, _, rfl⟩
      · cases works
        exact ⟨rfl, rfl, rfl, _, rfl⟩
  | terminating =>
      obtain ⟨wbuf, -, reaches⟩ := Option.bind_eq_some_iff.mp works
      cases reaches
      exact ⟨rfl, rfl, rfl, _, rfl⟩
  | splitting =>
      obtain ⟨colon, -, rest⟩ := Option.bind_eq_some_iff.mp works
      cases colon with
      | none =>
          cases rest
          exact ⟨rfl, rfl, rfl, _, rfl⟩
      | some colon =>
          obtain ⟨wbuf, -, reaches⟩ := Option.bind_eq_some_iff.mp rest
          cases reaches
          exact ⟨rfl, rfl, rfl, _, rfl⟩
  | resolving msgbody =>
      obtain ⟨name, -, rest⟩ := Option.bind_eq_some_iff.mp works
      split at rest
      · cases rest
        exact ⟨rfl, rfl, rfl, _, rfl⟩
      · cases rest
        exact ⟨rfl, rfl, rfl, _, rfl⟩
  | sending msgbody peerId =>
      simp only [work] at works
      split at works
      · cases works
        exact ⟨rfl, rfl, rfl, _, rfl⟩
      · cases works
        exact ⟨rfl, rfl, rfl, _, rfl⟩
  | leaving result => cases works

/-! ### The bounds of the buffer -/

/-- The texts of a write that has passed the length check. -/
def Call.text : Call → Option (List UInt8)
  | .locking buf => some buf
  | .locked buf _ => some buf
  | _ => none

/-- The buffer has its size and ends in a NUL that no write reaches, whoever
shares it. -/
structure Contained (config : Configuration) (s : State) : Prop where
  size : s.wbuf.length = config.maxMsglen
  nul : s.wbuf[config.maxMsglen - 1]? = some 0
  short : ∀ c buf, (s.call c).text = some buf →
    buf.length < config.maxMsglen - 1

namespace Contained

variable {config : Configuration} {s t : State} {label : Label} {c : Nat}

theorem init (config : Configuration) : Contained config (init config) := by
  have positive := config.positive
  refine ⟨List.length_replicate .., ?_, nofun⟩
  exact List.getElem?_replicate_of_lt (by omega)

theorem nul_mem (contained : Contained config s) : 0 ∈ s.wbuf :=
  List.mem_of_getElem? contained.nul

/-- The buffer changes within its size and before its last byte. -/
theorem of_wbuf (contained : Contained config s)
    (size : t.wbuf.length = s.wbuf.length)
    (last : t.wbuf[config.maxMsglen - 1]? = s.wbuf[config.maxMsglen - 1]?)
    (short : ∀ c buf, (t.call c).text = some buf →
      buf.length < config.maxMsglen - 1) : Contained config t :=
  ⟨size.trans contained.size, last.trans contained.nul, short⟩

/-- A write goes on with the text it has. -/
theorem short_update (contained : Contained config s) {new : Call}
    (text : new.text = none ∨ new.text = (s.call c).text) (d : Nat)
    (buf : List UInt8)
    (has : (Function.update s.call c new d).text = some buf) :
    buf.length < config.maxMsglen - 1 := by
  by_cases same : d = c
  · rw [same, Function.update_self] at has
    rcases text with none | kept
    · rw [none] at has
      cases has
    · exact contained.short c buf (kept.symm.trans has)
  · rw [Function.update_of_ne same] at has
    exact contained.short d buf has

theorem text_granted (call : Call) : call.granted.text = call.text := by
  cases call with
  | locking buf => rfl
  | unused => rfl
  | interrupted => rfl
  | locked buf stage => rfl
  | done result => rfl

theorem copied (contained : Contained config s) {buf : List UInt8}
    (short : buf.length < config.maxMsglen - 1) (n : Nat) :
    (copyFromUser s.wbuf buf n).length = s.wbuf.length ∧
      (copyFromUser s.wbuf buf n)[config.maxMsglen - 1]? =
        s.wbuf[config.maxMsglen - 1]? := by
  have size := contained.size
  have front : (buf.take n ++ List.replicate (buf.length - n) 0).length =
      buf.length := by
    rw [List.length_append, List.length_take, List.length_replicate]
    omega
  unfold copyFromUser
  constructor
  · rw [List.length_append, front, List.length_drop]
    omega
  · rw [List.getElem?_append_right (by omega), front, List.getElem?_drop]
    congr 1
    omega

theorem stored {wbuf buf : List UInt8} {index : Nat} {byte : UInt8}
    (inside : CBuffer.put buf index byte = some wbuf) (last : Nat)
    (before : index ≠ last) :
    wbuf.length = buf.length ∧ wbuf[last]? = buf[last]? := by
  unfold CBuffer.put at inside
  split at inside
  · cases inside
    exact ⟨List.length_set .., List.getElem?_set_ne before⟩
  · cases inside

/-- No stage leaves the buffer. -/
theorem work_isSome (contained : Contained config s) {buf : List UInt8}
    {stage : Stage} (holds : s.call c = .locked buf stage) (copied : Nat)
    (before : ∀ result, stage ≠ .leaving result) :
    ∃ t, work config s c buf copied stage = some t := by
  have short : buf.length < config.maxMsglen - 1 :=
    contained.short c buf (by rw [holds]; rfl)
  have size := contained.size
  cases stage with
  | copying =>
      simp only [work]
      split
      · exact ⟨_, rfl⟩
      · exact ⟨_, rfl⟩
  | terminating =>
      have inside : buf.length < s.wbuf.length := by omega
      simp only [work, CBuffer.put, if_pos inside]
      exact ⟨_, rfl⟩
  | splitting =>
      obtain ⟨found, search⟩ :=
        CBuffer.strchr_of_nul (c := 58) contained.nul_mem
      simp only [work, search, Option.bind_eq_bind, Option.bind_some]
      cases found with
      | none => exact ⟨_, rfl⟩
      | some colon =>
          obtain ⟨inside, -⟩ :=
            List.getElem?_eq_some_iff.mp (CBuffer.getElem_of_strchr search)
          simp only [CBuffer.put, if_pos inside, Option.bind_some]
          exact ⟨_, rfl⟩
  | resolving msgbody =>
      obtain ⟨name, reads⟩ := CBuffer.cstring_of_nul contained.nul_mem
      simp only [work, reads, Option.bind_eq_bind, Option.bind_some]
      split
      · exact ⟨_, rfl⟩
      · exact ⟨_, rfl⟩
  | sending msgbody peerId =>
      simp only [work]
      split
      · exact ⟨_, rfl⟩
      · exact ⟨_, rfl⟩
  | leaving result => exact absurd rfl (before result)

theorem work (contained : Contained config s) {buf : List UInt8} {n : Nat}
    {stage : Stage} (holds : s.call c = .locked buf stage)
    (works : work config s c buf n stage = some t) : Contained config t := by
  have short : buf.length < config.maxMsglen - 1 :=
    contained.short c buf (by rw [holds]; rfl)
  have goesOn : ∀ next d text,
      (Function.update s.call c (.locked buf next) d).text = some text →
        text.length < config.maxMsglen - 1 := fun next =>
    contained.short_update (.inr (by rw [holds]; rfl))
  cases stage with
  | copying =>
      obtain ⟨size, last⟩ := contained.copied short n
      simp only [Writers.work] at works
      split at works
      · cases works
        exact contained.of_wbuf size last (goesOn _)
      · cases works
        exact contained.of_wbuf size last (goesOn _)
  | terminating =>
      obtain ⟨wbuf, inside, reaches⟩ := Option.bind_eq_some_iff.mp works
      obtain ⟨size, last⟩ := stored inside (config.maxMsglen - 1) (by omega)
      cases reaches
      exact contained.of_wbuf size last (goesOn _)
  | splitting =>
      obtain ⟨found, search, rest⟩ := Option.bind_eq_some_iff.mp works
      cases found with
      | none =>
          cases rest
          exact contained.of_wbuf rfl rfl (goesOn _)
      | some colon =>
          obtain ⟨wbuf, inside, reaches⟩ := Option.bind_eq_some_iff.mp rest
          have before : colon ≠ config.maxMsglen - 1 := by
            rintro rfl
            have colons := CBuffer.getElem_of_strchr search
            rw [contained.nul] at colons
            exact absurd colons (by decide)
          obtain ⟨size, last⟩ := stored inside _ before
          cases reaches
          exact contained.of_wbuf size last (goesOn _)
  | resolving msgbody =>
      obtain ⟨name, -, rest⟩ := Option.bind_eq_some_iff.mp works
      split at rest
      · cases rest
        exact contained.of_wbuf rfl rfl (goesOn _)
      · cases rest
        exact contained.of_wbuf rfl rfl (goesOn _)
  | sending msgbody peerId =>
      simp only [Writers.work] at works
      split at works
      · cases works
        exact contained.of_wbuf rfl rfl (goesOn _)
      · cases works
        exact contained.of_wbuf rfl rfl (goesOn _)
  | leaving result => cases works

/-- FAMEZ_UNLOCK lets a waiter in with its text. -/
theorem up (contained : Contained config s) (c : Nat) :
    Contained config (s.up c) := by
  cases raised : s.wbufLock.up with
  | mk handed lock =>
      simp only [State.up, raised]
      cases handed with
      | none => exact ⟨contained.size, contained.nul, contained.short⟩
      | some w =>
          exact contained.of_wbuf rfl rfl
            (contained.short_update (.inr (text_granted _)))

theorem enters (contained : Contained config s) {buf : List UInt8}
    {new : Call} (text : new.text = some buf)
    (short : buf.length < config.maxMsglen - 1)
    (wbuf : t.wbuf = s.wbuf) (call : t.call = Function.update s.call c new) :
    Contained config t := by
  apply contained.of_wbuf (by rw [wbuf]) (by rw [wbuf])
  rw [call]
  intro d other has
  by_cases same : d = c
  · rw [same, Function.update_self, text] at has
    cases has
    exact short
  · rw [Function.update_of_ne same] at has
    exact contained.short d other has

theorem step (contained : Contained config s)
    (taken : step config s label = some t) : Contained config t := by
  have closes : ∀ {s : State} {c : Nat} {result : Except Errno Nat},
      Contained config s → Contained config (s.setCall c (.done result)) :=
    fun contained => contained.of_wbuf rfl rfl
      (contained.short_update (.inl rfl))
  cases label with
  | start c buf =>
      simp only [Writers.step] at taken
      split at taken
      · split at taken
        · cases taken
          exact closes contained
        · rename_i short
          cases taken
          have short := Nat.lt_of_not_le short
          unfold State.down
          split
          · exact contained.enters rfl short rfl rfl
          · exact contained.enters rfl short rfl rfl
      · cases taken
  | signal c =>
      simp only [Writers.step] at taken
      split at taken
      · cases taken
        exact contained.of_wbuf rfl rfl (contained.short_update (.inl rfl))
      · cases taken
  | advance c n =>
      simp only [Writers.step] at taken
      split at taken
      · rename_i holds
        exact contained.work holds taken
      · cases taken
  | unlock c =>
      simp only [Writers.step] at taken
      split at taken
      · cases taken
        exact closes (contained.up c)
      · cases taken
        exact closes (contained.up c)
      · cases taken
  | clear =>
      cases taken
      exact ⟨contained.size, contained.nul, contained.short⟩

end Contained

/-- In every run, interrupted writes or not, no write that holds the lock ever
accesses the buffer outside its bounds. -/
theorem advance_isSome {config : Configuration} {trace : List Label}
    {s : State} {c : Nat} {buf : List UInt8} {stage : Stage} (copied : Nat)
    (reached : Transition.run (step config) (init config) trace = some s)
    (holds : s.call c = .locked buf stage)
    (before : ∀ result, stage ≠ .leaving result) :
    ∃ t, step config s (.advance c copied) = some t := by
  have contained : Contained config s := Transition.run_preserves
    (fun _ _ _ contained taken => Contained.step contained taken)
    (Contained.init config) reached
  obtain ⟨t, works⟩ := contained.work_isSome holds copied before
  exact ⟨t, by simp only [step, holds, works]⟩

end FameZ.Monolithic.Writers
