/-
Module: FameZ.Link.Callbacks
Purpose: The callbacks of the server and of a Python client on any mail: what
  they raise on, and what that does to the reader of the sender.
Trusted boundary: the translation of retrieve, ServerCallback, ClientCallback
  and doRead; Twisted drops a reader whose doRead raises; printing and logging
  do not raise
Main exports: Mailslot, retrieve, serverCallback, clientCallback, doRead, step,
  Stored, Readable, Unharmed, unharmed_iff_harmless
-/
import FameZ.Lib.Transition
import FameZ.Lib.Utf8
import FameZ.Link.Requests
import FameZ.Mailbox.Layout
import Mathlib.Logic.Function.Basic

namespace FameZ.Link.Callbacks

open PyText

/-! ### Mail -/

/-- A mailslot with any bytes in it and a length that its buffer can hold. -/
structure Mailslot where
  nodename : List UInt8
  msglen : Nat
  buf : List UInt8
  nodenameSize : nodename.length = 32
  bufSize : buf.length = msMaxMsglen
  fits : msglen < msMaxMsglen

/-- The bytes of the node name before its first NUL. -/
def Mailslot.name (slot : Mailslot) : List UInt8 :=
  slot.nodename.takeWhile fun byte => decide (byte ≠ 0)

def Mailslot.message (slot : Mailslot) : List UInt8 :=
  slot.buf.take slot.msglen

def Mailslot.clear (slot : Mailslot) : Mailslot :=
  { slot with msglen := 0, fits := by decide }

/-- `fill`, after its wait and with a NUL behind the message. -/
def Mailslot.fill (slot : Mailslot) (msg : List UInt8) : Mailslot :=
  if short : msg.length < msMaxMsglen then
    { slot with
      msglen := msg.length
      buf := msg ++ 0 :: slot.buf.drop (msg.length + 1)
      bufSize := by simp [slot.bufSize]; omega
      fits := short }
  else slot

/-- `retrieve`: the node name and the message, and the slot it leaves.  The
name is decoded before the length is cleared, the message after that; `none`
is an exception. -/
def retrieve (serverId peerId : Nat) (slot : Mailslot) :
    Option (Text × Text) × Mailslot :=
  if 1 ≤ peerId ∧ peerId ≤ serverId then
    match Utf8.decode slot.name with
    | none => (none, slot)
    | some nodename =>
        ((Utf8.decode slot.message).map fun msg => (nodename, msg),
          slot.clear)
  else (none, slot)

/-- `handle_request`; `none` is an exception out of it. -/
def handle? (si : ServerInvariant) (request : Text) (env : Env) :
    Option Outcome :=
  (requestPayload request).map fun parsed =>
    dispatch si parsed.1 (env.follow parsed.2)

theorem handleRequest_eq_handle? (si : ServerInvariant) (request : Text)
    (env : Env) :
    handleRequest si request env =
      (handle? si request env).getD (false, env) := by
  rw [handleRequest_eq, handle?]
  cases requestPayload request with
  | none => rfl
  | some parsed => rfl

/-! ### The party -/

/-- What does not change: the slot of the server, and `responder.SI`. -/
structure Setting where
  serverId : Nat
  si : ServerInvariant

/-- The server's object for a client. -/
structure Proxy where
  nodename : Text
  responder : Responder
deriving DecidableEq

/-- A process with readers: the server with `SI.clients`, or a client. -/
inductive Party where
  | server (clients : OrderedDict Nat Proxy)
  | client (id : Nat) (self : Responder)

/-- `armed` are the senders whose reader is still with Twisted, `kicked` those
whose eventfd is readable.  `handled` are the requests that reached a handler,
each with its sender. -/
structure State where
  slots : Nat → Mailslot
  armed : Nat → Bool
  kicked : Nat → Bool
  globals : Globals
  party : Party
  handled : List (Nat × Text)

/-- The slot that a party posts from. -/
def Party.id (setting : Setting) : Party → Nat
  | .server _ => setting.serverId
  | .client id _ => id

/-- The server does not answer a sender without a connection. -/
def Party.Knows (id : Nat) : Party → Prop
  | .server clients => clients.get? id ≠ none
  | .client _ _ => True

inductive Exit where
  | returned
  | raised
deriving Repr, DecidableEq

def State.setSlot (s : State) (id : Nat) (slot : Mailslot) : State :=
  { s with slots := Function.update s.slots id slot }

/-- The posts of a handler, in the slot of the party. -/
def State.post (setting : Setting) (s : State) (texts : List Text) : State :=
  s.setSlot (s.party.id setting)
    (texts.foldl (fun slot text => slot.fill (encode text))
      (s.slots (s.party.id setting)))

/-- `handle_request` with a responder; `settle` is the party with that
responder as the handler leaves it. -/
def respond (setting : Setting) (id : Nat) (request : Text) (self : Responder)
    (settle : Responder → Party) (s : State) : Exit × State :=
  match handle? setting.si request
      { globals := s.globals, self := self, sent := [] } with
  | none => (.raised, s)
  | some (_, env) =>
      (.returned,
        State.post setting
          { s with
            globals := env.globals
            party := settle env.self
            handled := s.handled ++ [(id, request)] }
          env.sent)

def serverCallback (setting : Setting) (id : Nat)
    (clients : OrderedDict Nat Proxy) (s : State) : Exit × State :=
  match retrieve setting.serverId id (s.slots id) with
  | (none, slot) => (.raised, s.setSlot id slot)
  | (some (requesterName, request), slot) =>
      let s := s.setSlot id slot
      match clients.get? id with
      | none => (.returned, s)
      | some responder =>
          let responder :=
            if responder.nodename = [] then
              { responder with nodename := requesterName }
            else responder
          respond setting id request responder.responder
            (fun self =>
              .server (clients.set id { responder with responder := self }))
            { s with party := .server (clients.set id responder) }

def clientCallback (setting : Setting) (id me : Nat) (self : Responder)
    (s : State) : Exit × State :=
  match retrieve setting.serverId id (s.slots id) with
  | (none, slot) => (.raised, s.setSlot id slot)
  | (some (_, request), slot) =>
      respond setting id request self (.client me ·) (s.setSlot id slot)

def callback (setting : Setting) (id : Nat) (s : State) : Exit × State :=
  match s.party with
  | .server clients => serverCallback setting id clients s
  | .client me self => clientCallback setting id me self s

/-- `eventobj.reset()`. -/
def State.reset (s : State) (id : Nat) : State :=
  { s with kicked := Function.update s.kicked id false }

/-- `doRead` of a reader whose eventfd fired. -/
def doRead (setting : Setting) (id : Nat) (s : State) : State :=
  match callback setting id (s.reset id) with
  | (.returned, s) => s
  | (.raised, s) => { s with armed := Function.update s.armed id false }

/-! ### Runs -/

/-- A sender leaves mail, an eventfd is written to, the reactor calls a reader,
clients come and go. -/
inductive Label where
  | mail (id : Nat) (slot : Mailslot)
  | kick (id : Nat)
  | doRead (id : Nat)
  | connect (id : Nat) (proxy : Proxy)
  | disconnect (id : Nat)

/-- Slot 0 holds the globals and is nobody's. -/
def step (setting : Setting) : Transition.Step State Label := fun s label =>
  match label with
  | .mail id slot => some (s.setSlot id slot)
  | .kick id => some { s with kicked := Function.update s.kicked id true }
  | .doRead id =>
      if (1 ≤ id ∧ id ≤ setting.serverId) ∧ s.armed id = true ∧
          s.kicked id = true then
        some (doRead setting id s)
      else none
  | .connect id proxy =>
      match s.party with
      | .server clients =>
          some { s with party := .server (clients.set id proxy) }
      | .client _ _ => none
  | .disconnect id =>
      match s.party with
      | .server clients => some { s with party := .server (clients.del id) }
      | .client _ _ => none

/-! ### Mail that does no harm -/

/-- What stands between the first tracker token and the next is a number. -/
def NumberedTracker (request : Text) : Prop :=
  ∀ payload ftz rest, splitToken trackerToken request = payload :: ftz :: rest →
    int? ftz ≠ none

/-- A node name and a request that a party can take apart. -/
def WellFormed (slot : Mailslot) (request : Text) : Prop :=
  Utf8.decode slot.name ≠ none ∧ Utf8.decode slot.message = some request ∧
    NumberedTracker request

/-- The mail of a sender is text, and what a known sender says of the tracker is
a number. -/
def Readable (s : State) (id : Nat) : Prop :=
  Utf8.decode (s.slots id).name ≠ none ∧
    ∃ request, Utf8.decode (s.slots id).message = some request ∧
      (s.party.Knows id → NumberedTracker request)

/-- The next well-formed request of a sender reaches its handler. -/
def StillServed (setting : Setting) (id : Nat) (s : State) : Prop :=
  ∀ slot request, WellFormed slot request →
    ∃ after, Transition.run (step setting) s
        [.mail id slot, .kick id, .doRead id] = some after ∧
      after.handled = s.handled ++ [(id, request)]

/-- The reader of `id` survived the callback, and so did the handshake.  Where a
party wrote to itself its reply is in the slot by then. -/
structure Survived (setting : Setting) (id : Nat) (s t : State) : Prop where
  returned : (callback setting id (s.reset id)).1 = .returned
  cleared : id ≠ s.party.id setting → (t.slots id).msglen = 0
  armed : t.armed id = true
  served : t.party.Knows id → StillServed setting id t

/-- Malformed mail took nobody down. -/
def Unharmed (setting : Setting) (s : State) (label : Label) (t : State) :
    Prop :=
  ∀ id, label = .doRead id → Survived setting id s t

/-- A reader is called on mail that does no harm. -/
def Harmless (s : State) (label : Label) : Prop :=
  ∀ id, label = .doRead id → Readable s id

/-! ### The bytes of a slot -/

open Layout in
/-- A slot lies in the mailbox at its offsets. -/
structure Stored (mem : Memory) (id : Nat) (slot : Mailslot) : Prop where
  nodename : mem.readBytes (slotAddr id) msNodenameSize = slot.nodename
  msglen : mem.readWord (slotAddr id + msMsglenOff) = slot.msglen
  buf : mem.readBytes (slotAddr id + msMsgOff) Layout.msMaxMsglen = slot.buf

/-- The store of `retrieve` clears the slot. -/
theorem Stored.retrieve {config : Layout.Config} {mem : Memory} {id : Nat}
    {slot : Mailslot} (stored : Stored mem id slot)
    (inDomain : Layout.InDomain config id) :
    Stored (Layout.retrieve config id true mem) id slot.clear := by
  rw [Layout.retrieve, if_pos ⟨inDomain, rfl⟩]
  constructor
  · rw [Memory.writeWord, Memory.readBytes_write_of_disjoint]
    · exact stored.nodename
    · exact .inl (Nat.le_refl _)
  · exact Memory.readWord_writeWord ..
  · rw [Memory.writeWord, Memory.readBytes_write_of_disjoint]
    · exact stored.buf
    · right
      rw [Memory.length_wordBytes, Nat.add_assoc]
      exact Nat.add_le_add_left (by decide) _

/-- The stores of `fill` are what it makes of the slot. -/
theorem Stored.fill {config : Layout.Config} {mem : Memory} {id : Nat}
    {slot : Mailslot} (stored : Stored mem id slot)
    (inDomain : Layout.InDomain config id) (msg : List UInt8) :
    Stored (Layout.fill config id msg mem) id (slot.fill msg) := by
  by_cases short : msg.length < msMaxMsglen
  · rw [Layout.fill, if_pos ⟨inDomain, short⟩, Mailslot.fill, dif_pos short]
    dsimp only
    rw [← Memory.write_append]
    constructor
    · rw [Memory.readBytes_write_of_disjoint, Memory.writeWord,
        Memory.readBytes_write_of_disjoint]
      · exact stored.nodename
      · exact .inl (Nat.le_refl _)
      · exact .inl (Nat.add_le_add_left (by decide) _)
    · rw [Memory.readWord_write_of_disjoint, Memory.readWord_writeWord]
      · apply Nat.mod_eq_of_lt
        exact Nat.lt_trans short (by decide)
      · left
        rw [Nat.add_assoc]
        exact Nat.add_le_add_left (by decide) _
    · rw [Memory.readBytes_write_overlay, Memory.writeWord,
        Memory.readBytes_write_of_disjoint]
      · rw [stored.buf, List.length_append, List.append_assoc]
        rfl
      · right
        rw [Memory.length_wordBytes, Nat.add_assoc]
        exact Nat.add_le_add_left (by decide) _
      · rw [List.length_append]
        exact short
  · rw [Layout.fill, if_neg (fun both => short both.2), Mailslot.fill,
      dif_neg short]
    exact stored

/-! ### What a callback does -/

variable {setting : Setting} {id : Nat} {s t : State} {request : Text}

@[simp] theorem slots_setSlot_self (s : State) (id : Nat) (slot : Mailslot) :
    (s.setSlot id slot).slots id = slot := Function.update_self ..

/-- A party posts in its own slot only. -/
theorem slots_post_of_ne (other : id ≠ s.party.id setting)
    (texts : List Text) : (State.post setting s texts).slots id = s.slots id :=
  Function.update_of_ne other ..

theorem requestPayload_ne_none_iff (request : Text) :
    requestPayload request ≠ none ↔ NumberedTracker request := by
  unfold requestPayload NumberedTracker
  have parts := splitTokenFrom_ne_nil trackerToken 0 request
  rw [← splitToken] at parts
  cases split : splitToken trackerToken request with
  | nil => exact absurd split parts
  | cons payload others =>
      cases others with
      | nil =>
          constructor
          · intro _ _ _ _ equal
            cases equal
          · intro _ equal
            cases equal
      | cons ftz rest =>
          dsimp only
          rw [Ne, Option.map_eq_none_iff]
          constructor
          · rintro number _ _ _ equal
            cases equal
            exact number
          · intro numbered
            exact numbered payload ftz rest rfl

theorem handle?_eq_none_iff (si : ServerInvariant) (request : Text)
    (env : Env) :
    handle? si request env = none ↔ ¬ NumberedTracker request := by
  rw [handle?, Option.map_eq_none_iff, ← requestPayload_ne_none_iff, not_not]

theorem retrieve_of_unnamed (unnamed : Utf8.decode (s.slots id).name = none) :
    (retrieve setting.serverId id (s.slots id)).1 = none := by
  rw [retrieve, unnamed]
  split <;> rfl

/-- Once the name is text the slot is cleared, whatever the message is. -/
theorem retrieve_of_named (inDomain : 1 ≤ id ∧ id ≤ setting.serverId)
    {name : Text} (named : Utf8.decode (s.slots id).name = some name) :
    retrieve setting.serverId id (s.slots id) =
      ((Utf8.decode (s.slots id).message).map fun msg => (name, msg),
        (s.slots id).clear) := by
  rw [retrieve, if_pos inDomain, named]

/-- A request that raises leaves the party as it was. -/
theorem respond_of_unnumbered (unnumbered : ¬ NumberedTracker request)
    (self : Responder) (settle : Responder → Party) :
    respond setting id request self settle s = (.raised, s) := by
  rw [respond, (handle?_eq_none_iff ..).mpr unnumbered]

theorem respond_of_numbered (setting : Setting) (id : Nat)
    (numbered : NumberedTracker request) (self : Responder)
    (settle : Responder → Party) (s : State) :
    ∃ env : Env, respond setting id request self settle s =
      (.returned,
        State.post setting
          { s with
            globals := env.globals
            party := settle env.self
            handled := s.handled ++ [(id, request)] }
          env.sent) := by
  cases handled : handle? setting.si request
      { globals := s.globals, self := self, sent := [] } with
  | none => exact absurd numbered ((handle?_eq_none_iff ..).mp handled)
  | some outcome =>
      refine ⟨outcome.2, ?_⟩
      rw [respond, handled]

/-- No answer goes to a sender that left. -/
theorem callback_of_unknown (inDomain : 1 ≤ id ∧ id ≤ setting.serverId)
    (named : Utf8.decode (s.slots id).name ≠ none)
    (decoded : Utf8.decode (s.slots id).message = some request)
    (unknown : ¬ s.party.Knows id) :
    callback setting id s =
      (.returned, s.setSlot id (s.slots id).clear) := by
  obtain ⟨name, named⟩ := Option.ne_none_iff_exists'.mp named
  have taken := retrieve_of_named inDomain named
  rw [decoded] at taken
  unfold callback
  cases party : s.party with
  | client me self =>
      rw [party] at unknown
      exact absurd trivial unknown
  | server clients =>
      rw [party] at unknown
      have gone : clients.get? id = none := Decidable.not_not.mp unknown
      dsimp only
      rw [serverCallback, taken]
      dsimp only [Option.map_some]
      rw [gone]

/-- A well-formed request of a known sender is handled. -/
theorem callback_of_known (inDomain : 1 ≤ id ∧ id ≤ setting.serverId)
    (wellFormed : WellFormed (s.slots id) request)
    (known : s.party.Knows id) :
    ∃ (env : Env) (party : Party), party.Knows id ∧
      party.id setting = s.party.id setting ∧
      callback setting id s =
        (.returned,
          State.post setting
            { s.setSlot id (s.slots id).clear with
              globals := env.globals
              party := party
              handled := s.handled ++ [(id, request)] }
            env.sent) := by
  obtain ⟨named, decoded, numbered⟩ := wellFormed
  obtain ⟨name, named⟩ := Option.ne_none_iff_exists'.mp named
  have taken := retrieve_of_named inDomain named
  rw [decoded] at taken
  unfold callback
  cases party : s.party with
  | client me self =>
      obtain ⟨env, answered⟩ := respond_of_numbered setting id numbered self
        (.client me ·) (s.setSlot id (s.slots id).clear)
      refine ⟨env, .client me env.self, trivial, rfl, ?_⟩
      dsimp only
      rw [clientCallback, taken]
      exact answered
  | server clients =>
      rw [party] at known
      obtain ⟨proxy, found⟩ := Option.ne_none_iff_exists'.mp known
      let responder : Proxy :=
        if proxy.nodename = [] then { proxy with nodename := name } else proxy
      obtain ⟨env, answered⟩ := respond_of_numbered setting id numbered
        responder.responder
        (fun self => .server (clients.set id { responder with responder := self }))
        { s.setSlot id (s.slots id).clear with
          party := .server (clients.set id responder) }
      refine ⟨env, .server (clients.set id { responder with
        responder := env.self }), ?_, rfl, ?_⟩
      · rw [Party.Knows, OrderedDict.get?_set_self]
        exact nofun
      · dsimp only
        rw [serverCallback, taken]
        dsimp only [Option.map_some]
        rw [found]
        exact answered

theorem callback_of_unretrieved
    (failed : (retrieve setting.serverId id (s.slots id)).1 = none) :
    (callback setting id s).1 = .raised := by
  obtain ⟨slot, taken⟩ : ∃ slot,
      retrieve setting.serverId id (s.slots id) = (none, slot) :=
    ⟨_, Prod.ext failed rfl⟩
  unfold callback
  cases s.party with
  | client me self =>
      dsimp only
      rw [clientCallback, taken]
  | server clients =>
      dsimp only
      rw [serverCallback, taken]

theorem callback_of_unnumbered (inDomain : 1 ≤ id ∧ id ≤ setting.serverId)
    (named : Utf8.decode (s.slots id).name ≠ none)
    (decoded : Utf8.decode (s.slots id).message = some request)
    (known : s.party.Knows id) (unnumbered : ¬ NumberedTracker request) :
    (callback setting id s).1 = .raised := by
  obtain ⟨name, named⟩ := Option.ne_none_iff_exists'.mp named
  have taken := retrieve_of_named inDomain named
  rw [decoded] at taken
  unfold callback
  cases party : s.party with
  | client me self =>
      dsimp only
      rw [clientCallback, taken]
      dsimp only [Option.map_some]
      rw [respond_of_unnumbered unnumbered]
  | server clients =>
      rw [party] at known
      obtain ⟨proxy, found⟩ := Option.ne_none_iff_exists'.mp known
      dsimp only
      rw [serverCallback, taken]
      dsimp only [Option.map_some]
      rw [found]
      dsimp only
      rw [respond_of_unnumbered unnumbered]

/-- Everything else raises. -/
theorem callback_of_unreadable (inDomain : 1 ≤ id ∧ id ≤ setting.serverId)
    (unreadable : ¬ Readable s id) : (callback setting id s).1 = .raised := by
  by_cases unnamed : Utf8.decode (s.slots id).name = none
  · exact callback_of_unretrieved (retrieve_of_unnamed unnamed)
  · cases decoded : Utf8.decode (s.slots id).message with
    | none =>
        obtain ⟨name, named⟩ := Option.ne_none_iff_exists'.mp unnamed
        apply callback_of_unretrieved
        rw [retrieve_of_named inDomain named, decoded]
        rfl
    | some request =>
        have numbered : ¬ (s.party.Knows id → NumberedTracker request) :=
          fun numbered => unreadable ⟨unnamed, request, decoded, numbered⟩
        obtain ⟨known, unnumbered⟩ := Classical.not_imp.mp numbered
        exact callback_of_unnumbered inDomain unnamed decoded known unnumbered

/-! ### What it does to the reader -/

/-- A reader that is armed serves every well-formed request. -/
theorem stillServed_of_armed (inDomain : 1 ≤ id ∧ id ≤ setting.serverId)
    (armed : t.armed id = true) (known : t.party.Knows id) :
    StillServed setting id t := by
  intro slot request wellFormed
  let fired : State :=
    { t.setSlot id slot with kicked := Function.update t.kicked id true }
  have mailed : (fired.reset id).slots id = slot := slots_setSlot_self ..
  obtain ⟨env, party, -, -, served⟩ := callback_of_known
    (s := fired.reset id) inDomain (mailed.symm ▸ wellFormed) known
  have enabled : step setting fired (.doRead id) =
      some (doRead setting id fired) := by
    apply if_pos
    exact ⟨inDomain, armed, Function.update_self ..⟩
  refine ⟨doRead setting id fired, ?_, ?_⟩
  · exact congrArg (Option.bind · some) enabled
  · rw [doRead, served]
    rfl

/-- Mail that can be read leaves the reader where it is. -/
theorem survived_of_readable (inDomain : 1 ≤ id ∧ id ≤ setting.serverId)
    (armed : s.armed id = true) (readable : Readable s id) :
    Survived setting id s (doRead setting id s) := by
  obtain ⟨named, request, decoded, numbered⟩ := readable
  by_cases known : s.party.Knows id
  · obtain ⟨env, party, -, same, called⟩ := callback_of_known
      (s := s.reset id) inDomain ⟨named, decoded, numbered known⟩ known
    have stays : (doRead setting id s).armed id = true := by
      rw [doRead, called]
      exact armed
    refine ⟨by rw [called], ?_, stays, stillServed_of_armed inDomain stays⟩
    intro other
    rw [doRead, called]
    dsimp only
    rw [slots_post_of_ne (same.symm ▸ other)]
    exact congrArg Mailslot.msglen (slots_setSlot_self ..)
  · have called := callback_of_unknown (s := s.reset id) inDomain named decoded
      known
    have stays : (doRead setting id s).armed id = true := by
      rw [doRead, called]
      exact armed
    refine ⟨by rw [called], ?_, stays, stillServed_of_armed inDomain stays⟩
    intro _
    rw [doRead, called]
    exact congrArg Mailslot.msglen (slots_setSlot_self ..)

theorem readable_of_survived (inDomain : 1 ≤ id ∧ id ≤ setting.serverId)
    (survived : Survived setting id s t) : Readable s id := by
  by_contra unreadable
  have raised := callback_of_unreadable (s := s.reset id) inDomain unreadable
  rw [survived.returned] at raised
  cases raised

/-- Exactly the mail that can be read takes nobody down, in every run. -/
theorem unharmed_iff_harmless (setting : Setting) (s : State)
    (trace : List Label) :
    Transition.Along (step setting) (Unharmed setting) s trace ↔
      Transition.Meets (step setting) Harmless s trace := by
  have kept : ∀ s label t, True → Harmless s label →
      step setting s label = some t → True ∧ Unharmed setting s label t := by
    intro s label t _ harmless taken
    refine ⟨trivial, ?_⟩
    rintro id rfl
    rw [step] at taken
    split at taken
    · rename_i enabled
      cases taken
      exact survived_of_readable enabled.1 enabled.2.1 (harmless id rfl)
    · cases taken
  have broken : ∀ s label t, True → ¬ Harmless s label →
      step setting s label = some t → ¬ Unharmed setting s label t := by
    intro s label t _ harmful taken unharmed
    apply harmful
    rintro id rfl
    rw [step] at taken
    split at taken
    · rename_i enabled
      exact readable_of_survived enabled.1 (unharmed id rfl)
    · cases taken
  exact Transition.along_iff_meets kept broken trivial

/-- A server with one client, nothing in its slots and every reader armed. -/
def oneClient : State where
  slots := fun _ =>
    { nodename := List.replicate 32 0
      msglen := 0
      buf := List.replicate msMaxMsglen 0
      nodenameSize := List.length_replicate
      bufSize := List.length_replicate
      fits := by decide }
  armed := fun _ => true
  kicked := fun _ => false
  globals := initialGlobals
  party := .server (OrderedDict.empty.set 1
    { nodename := []
      responder :=
        { sid0 := 27, cid0 := 100, linkState := none, peerattrs := .empty } })
  handled := []

def oneClientSetting : Setting where
  serverId := 2
  si :=
    { smart := some true
      isPfm := some true
      serverSid0 := 27
      serverCid0 := 200
      cClass := "Switch".toList }

/-- A ping whose tracker is no number. -/
def malformed : Text := "ping!FZT=x".toList

theorem message_fill (slot : Mailslot) {msg : List UInt8}
    (short : msg.length < msMaxMsglen) : (slot.fill msg).message = msg := by
  rw [Mailslot.fill, dif_pos short]
  exact List.take_left

/-- Its mail is the last that the server takes from that client. -/
theorem malformed_harms :
    ¬ Transition.Along (step oneClientSetting) (Unharmed oneClientSetting)
      oneClient
      [.mail 1 ((oneClient.slots 1).fill (encode malformed)), .kick 1,
        .doRead 1] := by
  intro unharmed
  obtain ⟨-, unharmed⟩ := unharmed _ rfl
  obtain ⟨-, unharmed⟩ := unharmed _ rfl
  have survived := (unharmed _ rfl).1 1 rfl
  obtain ⟨-, request, decoded, numbered⟩ :=
    readable_of_survived (by decide) survived
  have message : Utf8.decode
      ((oneClient.slots 1).fill (encode malformed)).message =
        some malformed := by
    rw [message_fill _ (by decide)]
    exact Utf8.decode_encode malformed
  cases Option.some.inj (message.symm.trans decoded)
  have known : Party.Knows 1 oneClient.party := by
    rw [oneClient, Party.Knows, OrderedDict.get?_set_self]
    exact nofun
  exact numbered known "ping".toList "x".toList [] rfl (by decide)

end FameZ.Link.Callbacks
