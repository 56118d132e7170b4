/-
Module: FameZ.Mailbox.Handshake
Purpose: Python peers sending through their mailslots and event notifiers, one
  memory access at a time.
Trusted boundary: the translation of famez_mailbox.py, ivshmem_eventfd.py and
  of send_payload, place_and_go, ClientCallback and ServerCallback
Main exports: Send, Mailslot, Phase, State, proceed, Label, step, Moves,
  step_moves
-/
import FameZ.Lib.Transition
import Mathlib.Algebra.Group.Nat.Defs
import Mathlib.Logic.Function.Basic

namespace FameZ.Mailbox

/-!
A Python peer is one thread.  It handles a user command or an event only when
it is idle, and a `fill` that waits for its slot keeps it from everything else.
The accesses of different peers to the mailbox and to the event notifiers
interleave freely.
-/

/-- `MS_MAX_MSGLEN`. -/
def maxMsglen : Nat := 384

/-- The bytes of an ASCII string. -/
def ascii (text : String) : List UInt8 := text.toList.map Char.toUInt8

/-- `_TRACKER_TOKEN`. -/
def trackerToken : List UInt8 := ascii "!FZT="

/-- One call of `send_payload`: the slot `sender` is filled and the notifier
`[dest][sender]` is rung.  `tracker` is the value of the process's counter. -/
structure Send where
  sender : Nat
  dest : Nat
  response : List UInt8
  tracker : Nat
deriving Repr, DecidableEq

/-- The bytes `send_payload` puts into the mailslot. -/
def Send.payload (send : Send) : List UInt8 :=
  send.response ++ trackerToken ++ ascii (toString send.tracker)

theorem Send.payload_ne_nil (send : Send) : send.payload ≠ [] := by
  intro empty
  have token : trackerToken = [] := by
    rw [payload, List.append_eq_nil_iff, List.append_eq_nil_iff] at empty
    exact empty.1.2
  exact absurd token (by decide)

/-- A mailslot.  `sent` and `got` are history: the messages whose length was
written with their destination, and the bytes copied out with the reader. -/
structure Mailslot where
  msglen : Nat
  body : List UInt8
  sent : List (Nat × List UInt8)
  got : List (Nat × List UInt8)
deriving Repr, DecidableEq

/-- How far a `fill` has come.  After `wroteNul` only the notifier is left. -/
inductive FillStage where
  | waiting
  | sawEmpty
  | wroteLength
  | wroteBody
  | wroteNul
deriving Repr, DecidableEq

/-- What a peer's only thread is doing. -/
inductive Phase where
  | idle
  | fill (stage : FillStage) (send : Send) (rest : List Send)
  | fired (source : Nat)
  | gotLength (source msglen : Nat)
  | copied (source : Nat) (msg : List UInt8)
  | handling (source : Nat) (msg : List UInt8)
deriving Repr, DecidableEq

/-- `counter dest source` is the eventfd that `source` rings at `dest`. -/
structure State where
  slot : Nat → Mailslot
  counter : Nat → Nat → Nat
  phase : Nat → Phase

def init : State where
  slot := fun _ =>
    { msglen := 0, body := List.replicate maxMsglen 0, sent := [], got := [] }
  counter := fun _ _ => 0
  phase := fun _ => .idle

def State.setPhase (s : State) (p : Nat) (phase : Phase) : State :=
  { s with phase := Function.update s.phase p phase }

def State.modifySlot (s : State) (i : Nat) (f : Mailslot → Mailslot) :
    State :=
  { s with slot := Function.update s.slot i (f (s.slot i)) }

def State.setCounter (s : State) (dest source value : Nat) : State :=
  { s with
    counter := Function.update s.counter dest
      (Function.update (s.counter dest) source value) }

section Projections

variable (s : State) (p i dest source value : Nat) (phase : Phase)
  (f : Mailslot → Mailslot)

@[simp] theorem slot_setPhase : (s.setPhase p phase).slot = s.slot := rfl

@[simp] theorem counter_setPhase :
    (s.setPhase p phase).counter = s.counter := rfl

@[simp] theorem phase_setPhase :
    (s.setPhase p phase).phase = Function.update s.phase p phase := rfl

@[simp] theorem slot_modifySlot :
    (s.modifySlot i f).slot = Function.update s.slot i (f (s.slot i)) := rfl

@[simp] theorem counter_modifySlot :
    (s.modifySlot i f).counter = s.counter := rfl

@[simp] theorem phase_modifySlot : (s.modifySlot i f).phase = s.phase := rfl

@[simp] theorem slot_setCounter :
    (s.setCounter dest source value).slot = s.slot := rfl

@[simp] theorem counter_setCounter :
    (s.setCounter dest source value).counter =
      Function.update s.counter dest
        (Function.update (s.counter dest) source value) := rfl

@[simp] theorem phase_setCounter :
    (s.setCounter dest source value).phase = s.phase := rfl

end Projections

/-! ### The steps of the code -/

/-- The ids that have a slot and a process: the clients and the server. -/
def IsPeer (serverId p : Nat) : Prop := 1 ≤ p ∧ p ≤ serverId

instance (serverId p : Nat) : Decidable (IsPeer serverId p) :=
  inferInstanceAs (Decidable (_ ∧ _))

/-- Enter the next `fill`.  A failed assertion gives up the remaining sends. -/
def startSends (serverId : Nat) : List Send → Phase
  | [] => .idle
  | send :: rest =>
      if IsPeer serverId send.sender ∧ send.payload.length < maxMsglen then
        .fill .waiting send rest
      else .idle

/-- `place_and_go` for parsed sources and destinations. -/
def placeAndGo (sources dests : List Nat) (msg : List UInt8)
    (tracker : Nat) : List Send :=
  sources.flatMap fun S =>
    dests.map fun D =>
      { sender := S, dest := D, response := msg, tracker := tracker }

/-- An eventfd write that would overflow is refused with EAGAIN. -/
def incr (value : Nat) : Nat :=
  if value + 1 < 2 ^ 64 - 1 then value + 1 else value

/-- `cls.mm[index:index + msglen] = msg`. -/
def writeBody (msg body : List UInt8) : List UInt8 :=
  msg ++ body.drop msg.length

/-- The next access of the thread of `p` to the mailbox or to a notifier.  A
`fill` whose slot is occupied sleeps, and a handler is not an access. -/
def proceed (serverId p : Nat) (s : State) : Option State :=
  match s.phase p with
  | .idle => none
  | .fill .waiting send rest =>
      if (s.slot send.sender).msglen = 0 then
        some (s.setPhase p (.fill .sawEmpty send rest))
      else none
  | .fill .sawEmpty send rest =>
      some ((s.modifySlot send.sender fun slot =>
        { slot with
          msglen := send.payload.length
          sent := slot.sent ++ [(send.dest, send.payload)] }).setPhase p
            (.fill .wroteLength send rest))
  | .fill .wroteLength send rest =>
      some ((s.modifySlot send.sender fun slot =>
        { slot with body := writeBody send.payload slot.body }).setPhase p
          (.fill .wroteBody send rest))
  | .fill .wroteBody send rest =>
      some ((s.modifySlot send.sender fun slot =>
        { slot with body := slot.body.set send.payload.length 0 }).setPhase p
          (.fill .wroteNul send rest))
  | .fill .wroteNul send rest =>
      some ((s.setCounter send.dest send.sender
        (incr (s.counter send.dest send.sender))).setPhase p
          (startSends serverId rest))
  | .fired source =>
      some (s.setPhase p (.gotLength source (s.slot source).msglen))
  | .gotLength source msglen =>
      some ((s.modifySlot source fun slot =>
        { slot with
          got := slot.got ++ [(p, slot.body.take msglen)] }).setPhase p
            (.copied source ((s.slot source).body.take msglen)))
  | .copied source msg =>
      some ((s.modifySlot source fun slot =>
        { slot with msglen := 0 }).setPhase p (.handling source msg))
  | .handling _ _ => none

/-- `command` is a user command or a message the program starts on its own,
`wake` is doRead on a notifier that was rung, `timeout` is a `fill` that waited
for 1.05 s, and `handled` is the end of handle_request, which answers the
requester at most once. -/
inductive Label where
  | command (p : Nat) (sources dests : List Nat) (msg : List UInt8)
      (tracker : Nat)
  | wake (p source : Nat)
  | timeout (p : Nat)
  | proceed (p : Nat)
  | handled (p : Nat) (reply : Option (List UInt8 × Nat))
deriving Repr, DecidableEq

/-- The reply of a handler goes to the requester from the peer's own slot. -/
def replies (p source : Nat) : Option (List UInt8 × Nat) → List Send
  | none => []
  | some (response, tracker) =>
      [{ sender := p, dest := source, response := response,
         tracker := tracker }]

def step (serverId : Nat) : Transition.Step State Label := fun s label =>
  match label with
  | .command p sources dests msg tracker =>
      if IsPeer serverId p ∧ s.phase p = .idle then
        some (s.setPhase p
          (startSends serverId (placeAndGo sources dests msg tracker)))
      else none
  | .wake p source =>
      if IsPeer serverId p ∧ s.phase p = .idle ∧ s.counter p source ≠ 0 then
        some ((s.setCounter p source 0).setPhase p (.fired source))
      else none
  | .timeout p =>
      match s.phase p with
      | .fill .waiting send rest =>
          some (s.setPhase p (.fill .sawEmpty send rest))
      | _ => none
  | .proceed p => proceed serverId p s
  | .handled p reply =>
      match s.phase p with
      | .handling source _ =>
          some (s.setPhase p (startSends serverId (replies p source reply)))
      | _ => none

/-- Everything a step can do, with its guards. -/
inductive Moves (serverId : Nat) (s : State) : Label → State → Prop where
  | command {p : Nat} {sources dests : List Nat} {msg : List UInt8}
      {tracker : Nat} (peer : IsPeer serverId p) (idle : s.phase p = .idle) :
      Moves serverId s (.command p sources dests msg tracker)
        (s.setPhase p
          (startSends serverId (placeAndGo sources dests msg tracker)))
  | wake {p source : Nat} (peer : IsPeer serverId p)
      (idle : s.phase p = .idle) (rung : s.counter p source ≠ 0) :
      Moves serverId s (.wake p source)
        ((s.setCounter p source 0).setPhase p (.fired source))
  | timeout {p : Nat} {send : Send} {rest : List Send}
      (phase : s.phase p = .fill .waiting send rest) :
      Moves serverId s (.timeout p)
        (s.setPhase p (.fill .sawEmpty send rest))
  | see {p : Nat} {send : Send} {rest : List Send}
      (phase : s.phase p = .fill .waiting send rest)
      (empty : (s.slot send.sender).msglen = 0) :
      Moves serverId s (.proceed p)
        (s.setPhase p (.fill .sawEmpty send rest))
  | writeLength {p : Nat} {send : Send} {rest : List Send}
      (phase : s.phase p = .fill .sawEmpty send rest) :
      Moves serverId s (.proceed p)
        ((s.modifySlot send.sender fun slot =>
          { slot with
            msglen := send.payload.length
            sent := slot.sent ++ [(send.dest, send.payload)] }).setPhase p
              (.fill .wroteLength send rest))
  | writeBody {p : Nat} {send : Send} {rest : List Send}
      (phase : s.phase p = .fill .wroteLength send rest) :
      Moves serverId s (.proceed p)
        ((s.modifySlot send.sender fun slot =>
          { slot with body := writeBody send.payload slot.body }).setPhase p
            (.fill .wroteBody send rest))
  | writeNul {p : Nat} {send : Send} {rest : List Send}
      (phase : s.phase p = .fill .wroteBody send rest) :
      Moves serverId s (.proceed p)
        ((s.modifySlot send.sender fun slot =>
          { slot with
            body := slot.body.set send.payload.length 0 }).setPhase p
              (.fill .wroteNul send rest))
  | ring {p : Nat} {send : Send} {rest : List Send}
      (phase : s.phase p = .fill .wroteNul send rest) :
      Moves serverId s (.proceed p)
        ((s.setCounter send.dest send.sender
          (incr (s.counter send.dest send.sender))).setPhase p
            (startSends serverId rest))
  | readLength {p source : Nat} (phase : s.phase p = .fired source) :
      Moves serverId s (.proceed p)
        (s.setPhase p (.gotLength source (s.slot source).msglen))
  | copyBody {p source msglen : Nat}
      (phase : s.phase p = .gotLength source msglen) :
      Moves serverId s (.proceed p)
        ((s.modifySlot source fun slot =>
          { slot with
            got := slot.got ++ [(p, slot.body.take msglen)] }).setPhase p
              (.copied source ((s.slot source).body.take msglen)))
  | clear {p source : Nat} {msg : List UInt8}
      (phase : s.phase p = .copied source msg) :
      Moves serverId s (.proceed p)
        ((s.modifySlot source fun slot =>
          { slot with msglen := 0 }).setPhase p (.handling source msg))
  | handled {p source : Nat} {msg : List UInt8}
      {reply : Option (List UInt8 × Nat)}
      (phase : s.phase p = .handling source msg) :
      Moves serverId s (.handled p reply)
        (s.setPhase p (startSends serverId (replies p source reply)))

theorem proceed_moves {serverId p : Nat} {s t : State}
    (taken : proceed serverId p s = some t) :
    Moves serverId s (.proceed p) t := by
  unfold proceed at taken
  cases phase : s.phase p with
  | idle => simp [phase] at taken
  | handling source msg => simp [phase] at taken
  | fired source =>
      simp only [phase, Option.some.injEq] at taken
      exact taken ▸ .readLength phase
  | gotLength source msglen =>
      simp only [phase, Option.some.injEq] at taken
      exact taken ▸ .copyBody phase
  | copied source msg =>
      simp only [phase, Option.some.injEq] at taken
      exact taken ▸ .clear phase
  | fill stage send rest =>
      cases stage with
      | waiting =>
          simp only [phase, Option.ite_none_right_eq_some,
            Option.some.injEq] at taken
          exact taken.2 ▸ .see phase taken.1
      | sawEmpty =>
          simp only [phase, Option.some.injEq] at taken
          exact taken ▸ .writeLength phase
      | wroteLength =>
          simp only [phase, Option.some.injEq] at taken
          exact taken ▸ .writeBody phase
      | wroteBody =>
          simp only [phase, Option.some.injEq] at taken
          exact taken ▸ .writeNul phase
      | wroteNul =>
          simp only [phase, Option.some.injEq] at taken
          exact taken ▸ .ring phase

/-- The inversion of one step. -/
theorem step_moves {serverId : Nat} {s t : State} {label : Label}
    (taken : step serverId s label = some t) : Moves serverId s label t := by
  cases label with
  | command p sources dests msg tracker =>
      simp only [step, Option.ite_none_right_eq_some,
        Option.some.injEq] at taken
      obtain ⟨⟨peer, idle⟩, rfl⟩ := taken
      exact .command peer idle
  | wake p source =>
      simp only [step, Option.ite_none_right_eq_some,
        Option.some.injEq] at taken
      obtain ⟨⟨peer, idle, rung⟩, rfl⟩ := taken
      exact .wake peer idle rung
  | timeout p =>
      simp only [step] at taken
      split at taken
      · rename_i send rest phase
        cases taken
        exact .timeout phase
      · cases taken
  | proceed p => exact proceed_moves taken
  | handled p reply =>
      simp only [step] at taken
      split at taken
      · rename_i source msg phase
        cases taken
        exact .handled phase
      · cases taken

/-- A new round of sends starts with a wait or not at all. -/
theorem startSends_cases (serverId : Nat) (sends : List Send) :
    startSends serverId sends = .idle ∨
      ∃ send rest, sends = send :: rest ∧ IsPeer serverId send.sender ∧
        startSends serverId sends = .fill .waiting send rest := by
  cases sends with
  | nil => exact Or.inl rfl
  | cons send rest =>
      rw [startSends]
      split
      · rename_i fits
        exact Or.inr ⟨send, rest, rfl, fits.1, rfl⟩
      · exact Or.inl rfl

end FameZ.Mailbox
