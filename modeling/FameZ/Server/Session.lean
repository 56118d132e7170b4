/-
Module: FameZ.Server.Session
Purpose: The connection half of the server: peer ids, event notifiers, the
  messages of connectionMade and connectionLost, and the order of events.
Trusted boundary: the translation of twisted_server.py, ivshmem_sendrecv.py
  and send_payload
Main exports: Args, Proxy, Mail, State, createNewPeerId, sendPayload,
  connectionMade, connectionLost, Event, step, init
-/
import FameZ.Lib.Transition
import FameZ.Lib.OrderedDict
import FameZ.Mailbox.Handshake
import Mathlib.Logic.Function.Basic

namespace FameZ.Server

/-!
A connection is three calls of the reactor: `buildProtocol` constructs the
proxy, which picks its peer id; `connectionMade` runs the ivshmem handshake and
registers the proxy only at its end; `connectionLost` removes it.  The three
are separate events here.  Every `sendmsg` of a run has its own outcome, read
from `net` at the number of calls made before it.
-/

/-- The command-line arguments the connection code reads. -/
structure Args where
  nClients : Nat
  recycle : Bool
  silent : Bool
  smart : Bool
deriving Repr, DecidableEq

/-- The server's own id follows the last client. -/
def Args.serverId (args : Args) : Nat := args.nClients + 1

/-- The dummy slot 0, the clients and the server. -/
def Args.nEvents (args : Args) : Nat := args.nClients + 2

def ivshmemUnusedId : Int := 0

def serverIvshmemProtocolVersion : Int := 0

/-- `default_SID` of a smart server. -/
def defaultSid : Int := 27

/-- The descriptor of the mailbox file, `FAMEZ_MailBox.fd`. -/
def mailboxFd : Nat := 0

/-- One 8-byte message of the ivshmem protocol and its optional descriptor. -/
structure Msg where
  data : Int
  fd : Option Nat
deriving Repr, DecidableEq

/-- A message on its way to the socket of one proxy. -/
structure Send where
  sock : Nat
  msg : Msg
deriving Repr, DecidableEq

/-- How far the reactor has taken a proxy.  The code keeps no such field. -/
inductive Stage where
  | built
  | completed
  | stopped
  | lost
deriving Repr, DecidableEq

/-- A client connection as the server holds it.  `enList` is absent until
connectionMade assigns it.  `stage` and `survivors`, the clients registered
when this one was lost, are history and are read by no modelled function. -/
structure Proxy where
  id : Int
  sid0 : Int
  cid0 : Int
  nodename : String
  enList : Option (List Nat)
  stage : Stage
  survivors : List Nat
deriving Repr, DecidableEq

/-- What messages are made of: `_tracker` of the server's process, the `msglen`
of each mailslot and the counter behind each eventfd. -/
structure Mail where
  tracker : Nat
  msglen : Nat → Nat
  count : Nat → Nat

/-- The server's state.  Proxies and sockets are numbered in build order, and
an event notifier is the number of its eventfd. -/
structure State where
  clients : OrderedDict Int Nat
  recycled : OrderedDict Int Nat
  enList : List Nat
  built : Nat
  proxy : Nat → Proxy
  stream : Nat → List Msg
  sends : Nat
  nextFd : Nat
  closed : List Nat
  slotName : Nat → String
  mail : Mail

/-- Before the first event.  The first proxy's constructor makes the server's
own notifiers unless the server is silent. -/
def init (args : Args) : State where
  clients := .empty
  recycled := .empty
  enList := if args.silent then [] else List.range' 1 args.nEvents
  built := 0
  proxy := fun _ =>
    { id := -1, sid0 := 0, cid0 := 0, nodename := "", enList := none,
      stage := .lost, survivors := [] }
  stream := fun _ => []
  sends := 0
  nextFd := args.nEvents + 1
  closed := []
  slotName := fun slot =>
    if slot = args.serverId then
      if args.smart then "Z-switch" else "Z-server"
    else ""
  mail := { tracker := 0, msglen := fun _ => 0, count := fun _ => 0 }

/-- Update one proxy. -/
def State.modify (s : State) (self : Nat) (f : Proxy → Proxy) : State :=
  { s with proxy := Function.update s.proxy self (f (s.proxy self)) }

/-- The end of connectionMade: `SI.clients[self.id] = self`. -/
def State.register (s : State) (self : Nat) : State :=
  let s := s.modify self fun proxy => { proxy with stage := .completed }
  { s with clients := s.clients.set (s.proxy self).id self }

/-- connectionMade returns before its end. -/
def State.stop (s : State) (self : Nat) : State :=
  s.modify self fun proxy => { proxy with stage := .stopped }

/-! ### Sending -/

/-- One `sendmsg`.  A failed call delivers nothing and returns false. -/
def ivshmemSendOneMsg (net : Nat → Bool) (sock : Nat) (data : Int)
    (fd : Option Nat) (s : State) : Bool × State :=
  if net s.sends then
    (true,
      { s with
        sends := s.sends + 1
        stream := Function.update s.stream sock
          (s.stream sock ++ [{ data := data, fd := fd }]) })
  else (false, { s with sends := s.sends + 1 })

/-- A loop of sends whose results nobody looks at. -/
def sendAll (net : Nat → Bool) (sends : List Send) (s : State) : State :=
  sends.foldl
    (fun s send =>
      (ivshmemSendOneMsg net send.sock send.msg.data send.msg.fd s).2) s

/-- The batch that advertises the notifiers `fds` under `id`. -/
def batch (id : Int) (fds : List Nat) : List Msg :=
  fds.map fun fd => { data := id, fd := some fd }

/-- Address a batch to one socket. -/
def sendTo (sock : Nat) (msgs : List Msg) : List Send :=
  msgs.map fun msg => { sock := sock, msg := msg }

/-- `send_initial_info(False)`: violate the version check, hang up and forget
the id. -/
def refuse (net : Nat → Bool) (self : Nat) (s : State) : State :=
  ((ivshmemSendOneMsg net self (-1) none s).2.modify self fun proxy =>
    { proxy with id := -1 }).stop self

/-- `send_initial_info()`.  Only the first of the three sends is checked. -/
def sendInitialInfo (net : Nat → Bool) (self : Nat) (s : State) :
    Bool × State :=
  match ivshmemSendOneMsg net self serverIvshmemProtocolVersion none s with
  | (false, s) => (false, s)
  | (true, s) =>
      (true,
        sendAll net
          (sendTo self
            [{ data := (s.proxy self).id, fd := none },
              { data := -1, fd := some mailboxFd }]) s)

/-! ### The three calls of a connection -/

/-- The ids `1 .. nClients` that no client holds, in ascending order. -/
def availableIds {ν : Type} (args : Args) (clients : OrderedDict Int ν) :
    List Int :=
  ((List.range (args.nClients + 2)).map Int.ofNat).filter fun id =>
    id ≠ ivshmemUnusedId ∧ id ≠ args.serverId ∧ id ∉ clients.keys

/-- `choice` is what the random source of a smart server yields.  `none` is
the exception of choosing from nothing. -/
def createNewPeerId {ν : Type} (args : Args) (clients : OrderedDict Int ν)
    (choice : Nat) : Option Int :=
  if args.nClients ≤ clients.size then some (-1)
  else
    let available := availableIds args clients
    if args.smart then available[choice % available.length]?
    else if clients.size = 0 then some 1
    else available.head?

/-- The proxy of a new connection once its id is chosen. -/
def newProxy (args : Args) (id : Int) (s : State) : Proxy where
  id := id
  sid0 := if args.smart ∧ id ≠ -1 then defaultSid else 0
  cid0 := if args.smart ∧ id ≠ -1 then id * 100 else 0
  nodename := if id = -1 then "" else s.slotName id.toNat
  enList := none
  stage := .built
  survivors := []

/-- Construct the proxy of a new connection. -/
def buildProtocol (args : Args) (choice : Nat) (s : State) :
    Option State :=
  (createNewPeerId args s.clients choice).map fun id =>
    { s with
      built := s.built + 1
      proxy := Function.update s.proxy s.built (newProxy args id s) }

/-- `ivshmem_event_notifier_list(nEvents)`: fresh eventfds. -/
def createNotifiers (args : Args) (self : Nat) (s : State) : State :=
  let s := s.modify self fun proxy =>
    { proxy with enList := some (List.range' s.nextFd args.nEvents) }
  { s with nextFd := s.nextFd + args.nEvents }

/-- Tell every other client about the new one, unless its notifiers are
recycled and they are taken to know them. -/
def advertiseSelf (self : Nat) (recycled : Bool) (s : State) : List Send :=
  if recycled then []
  else
    s.clients.values.flatMap fun other =>
      sendTo other
        (batch (s.proxy self).id ((s.proxy self).enList.getD []))

/-- Tell the new client about the others, the server and itself. -/
def advertiseOthers (args : Args) (self : Nat) (s : State) : List Send :=
  sendTo self
    ((s.clients.values.flatMap fun other =>
        batch (s.proxy other).id ((s.proxy other).enList.getD [])) ++
      batch args.serverId s.enList ++
      batch (s.proxy self).id ((s.proxy self).enList.getD []))

/-- A payload as it is sent, with the tracker at the end. -/
def stamped (response : List UInt8) (tracker : Nat) : List UInt8 :=
  response ++ Mailbox.trackerToken ++ Mailbox.ascii (toString tracker)

/-- `send_payload` once the notifier is found: the slot is filled, stomping what
is there after the wait, and the notifier is rung.  A payload that is too long
raises before it is written. -/
def Mail.post (mail : Mail) (slot fd : Nat) (response : List UInt8) : Mail :=
  let tracker := mail.tracker + 1
  let payload := stamped response tracker
  if payload.length < Mailbox.maxMsglen then
    { tracker := tracker
      msglen := Function.update mail.msglen slot payload.length
      count := Function.update mail.count fd (Mailbox.incr (mail.count fd)) }
  else { mail with tracker := tracker }

/-- `send_payload` of the server to the client of `self`.  Without the notifier
`responder_EN` raises. -/
def sendPayload (args : Args) (self : Nat) (response : List UInt8)
    (s : State) : State :=
  match ((s.proxy self).enList.getD [])[args.serverId]? with
  | none => s
  | some fd => { s with mail := s.mail.post args.serverId fd response }

/-- What a smart server asks a new client. -/
def peerAttribute : List UInt8 := Mailbox.ascii "Link CTL Peer-Attribute"

/-- The last lines of connectionMade. -/
def greet (args : Args) (self : Nat) (s : State) : State :=
  if args.smart then sendPayload args self peerAttribute s else s

/-- connectionMade from the initial information on, once `self` has its event
notifiers.  A registered client always has its own. -/
def introduce (args : Args) (net : Nat → Bool) (self : Nat)
    (recycled : Bool) (s : State) : State :=
  let info := sendInitialInfo net self s
  let s := info.2
  if info.1 then
    greet args self
      ((sendAll net
        (advertiseSelf self recycled s ++ advertiseOthers args self s)
        s).register self)
  else s.stop self

/-- `notifiersOk` says whether the eventfd calls succeed.  A dead proxy that
never had notifiers makes the attribute access raise. -/
def connectionMade (args : Args) (net : Nat → Bool) (notifiersOk : Bool)
    (self : Nat) (s : State) : State :=
  let id := (s.proxy self).id
  match s.recycled.get? id with
  | some dead =>
      let s := { s with recycled := s.recycled.del (s.proxy dead).id }
      if id = -1 then refuse net self s
      else
        match (s.proxy dead).enList with
        | none => s.stop self
        | some enList =>
            introduce args net self true
              (s.modify self fun proxy => { proxy with enList := enList })
  | none =>
      if id = -1 then refuse net self s
      else if notifiersOk then
        introduce args net self false (createNotifiers args self s)
      else refuse net self s

/-- `clear_mailslot(id)` as the disconnect uses it: empty the node name.  The
range assertion is caught by the caller. -/
def clearMailslot (args : Args) (id : Int) (s : State) : State :=
  if 1 ≤ id ∧ id ≤ args.serverId then
    { s with slotName := Function.update s.slotName id.toNat "" }
  else s

/-- `del SI.clients[self.id]`, if that id is registered. -/
def State.unregister (s : State) (self : Nat) : State :=
  let s := { s with clients := s.clients.del (s.proxy self).id }
  s.modify self fun proxy =>
    { proxy with stage := .lost, survivors := s.clients.values }

/-- The disconnect without recycling: notify the others, close the notifiers
and clear the mailslot.  A proxy without notifiers makes the attribute access
raise; the caller catches it. -/
def dismiss (args : Args) (net : Nat → Bool) (self : Nat) (s : State) :
    State :=
  let id := (s.proxy self).id
  let s := sendAll net
    (s.clients.values.flatMap fun other =>
      sendTo other [{ data := id, fd := none }]) s
  match (s.proxy self).enList with
  | none => s
  | some enList => clearMailslot args id { s with closed := s.closed ++ enList }

/-- Removal is by id.  Recycling keeps the dead proxy and tells nobody. -/
def connectionLost (args : Args) (net : Nat → Bool) (self : Nat)
    (s : State) : State :=
  let s := s.unregister self
  if args.recycle then
    { s with recycled := s.recycled.set (s.proxy self).id self }
  else dismiss args net self s

/-! ### Runs -/

/-- `named` is a client that writes its node name into its mailslot, or empties
it. -/
inductive Event where
  | build (choice : Nat)
  | made (self : Nat) (notifiersOk : Bool)
  | lost (self : Nat)
  | named (self : Nat) (nodename : String)
deriving Repr, DecidableEq

/-- Write the node name of a mailslot. -/
def State.write (s : State) (slot : Nat) (nodename : String) : State :=
  { s with slotName := Function.update s.slotName slot nodename }

/-- The reactor makes a connection once and loses it once, after it was made.
A client knows its slot once connectionMade told it. -/
def step (args : Args) (net : Nat → Bool) :
    Transition.Step State Event := fun s event =>
  match event with
  | .build choice => buildProtocol args choice s
  | .made self notifiersOk =>
      if self < s.built ∧ (s.proxy self).stage = .built then
        some (connectionMade args net notifiersOk self s)
      else none
  | .lost self =>
      if self < s.built ∧
          ((s.proxy self).stage = .completed ∨
            (s.proxy self).stage = .stopped) then
        some (connectionLost args net self s)
      else none
  | .named self nodename =>
      if (s.proxy self).stage = .completed then
        some (s.write (s.proxy self).id.toNat nodename)
      else none

/-! ### What sending leaves alone -/

/-- The state without its sockets and its mail. -/
def State.registry (s : State) : State :=
  { s with
    stream := fun _ => []
    sends := 0
    mail := { tracker := 0, msglen := fun _ => 0, count := fun _ => 0 } }

@[simp] theorem registry_ivshmemSendOneMsg (net : Nat → Bool) (sock : Nat)
    (data : Int) (fd : Option Nat) (s : State) :
    (ivshmemSendOneMsg net sock data fd s).2.registry = s.registry := by
  unfold ivshmemSendOneMsg
  split <;> rfl

@[simp] theorem registry_sendAll (net : Nat → Bool) (sends : List Send)
    (s : State) : (sendAll net sends s).registry = s.registry := by
  induction sends generalizing s with
  | nil => rfl
  | cons send rest inductionHypothesis =>
      rw [sendAll, List.foldl_cons, ← sendAll, inductionHypothesis,
        registry_ivshmemSendOneMsg]

/-- The initial information fails exactly when its first send does. -/
theorem sendInitialInfo_fst (net : Nat → Bool) (self : Nat) (s : State) :
    (sendInitialInfo net self s).1 = net s.sends := by
  unfold sendInitialInfo ivshmemSendOneMsg
  cases net s.sends <;> rfl

@[simp] theorem registry_sendInitialInfo (net : Nat → Bool) (self : Nat)
    (s : State) : (sendInitialInfo net self s).2.registry = s.registry := by
  unfold sendInitialInfo
  have first := registry_ivshmemSendOneMsg net self
    serverIvshmemProtocolVersion none s
  rcases taken : ivshmemSendOneMsg net self
    serverIvshmemProtocolVersion none s with ⟨ok, next⟩
  rw [taken] at first
  cases ok with
  | false => exact first
  | true => exact (registry_sendAll _ _ _).trans first

/-- Sends over the sockets are no mail. -/
@[simp] theorem mail_ivshmemSendOneMsg (net : Nat → Bool) (sock : Nat)
    (data : Int) (fd : Option Nat) (s : State) :
    (ivshmemSendOneMsg net sock data fd s).2.mail = s.mail := by
  unfold ivshmemSendOneMsg
  split <;> rfl

@[simp] theorem mail_sendAll (net : Nat → Bool) (sends : List Send)
    (s : State) : (sendAll net sends s).mail = s.mail := by
  induction sends generalizing s with
  | nil => rfl
  | cons send rest inductionHypothesis =>
      rw [sendAll, List.foldl_cons, ← sendAll, inductionHypothesis,
        mail_ivshmemSendOneMsg]

@[simp] theorem mail_sendInitialInfo (net : Nat → Bool) (self : Nat)
    (s : State) : (sendInitialInfo net self s).2.mail = s.mail := by
  unfold sendInitialInfo
  have first := mail_ivshmemSendOneMsg net self
    serverIvshmemProtocolVersion none s
  rcases taken : ivshmemSendOneMsg net self
    serverIvshmemProtocolVersion none s with ⟨ok, next⟩
  rw [taken] at first
  cases ok with
  | false => exact first
  | true => exact (mail_sendAll _ _ _).trans first

/-- A message to a client is no matter of the registry or the sockets. -/
theorem greet_eq (args : Args) (self : Nat) (s : State) :
    greet args self s = { s with mail := (greet args self s).mail } := by
  unfold greet sendPayload
  split
  · split <;> rfl
  · rfl

@[simp] theorem registry_greet (args : Args) (self : Nat) (s : State) :
    (greet args self s).registry = s.registry := by
  rw [greet_eq]
  rfl

@[simp] theorem stream_greet (args : Args) (self : Nat) (s : State) :
    (greet args self s).stream = s.stream := by
  rw [greet_eq]

theorem clients_of_registry {s t : State} (same : t.registry = s.registry) :
    t.clients = s.clients := by
  change t.registry.clients = s.registry.clients
  rw [same]

theorem proxy_of_registry {s t : State} (same : t.registry = s.registry) :
    t.proxy = s.proxy := by
  change t.registry.proxy = s.registry.proxy
  rw [same]

theorem built_of_registry {s t : State} (same : t.registry = s.registry) :
    t.built = s.built := by
  change t.registry.built = s.registry.built
  rw [same]

theorem recycled_of_registry {s t : State} (same : t.registry = s.registry) :
    t.recycled = s.recycled := by
  change t.registry.recycled = s.registry.recycled
  rw [same]

theorem enList_of_registry {s t : State} (same : t.registry = s.registry) :
    t.enList = s.enList := by
  change t.registry.enList = s.registry.enList
  rw [same]

@[simp] theorem clients_sendAll (net : Nat → Bool) (sends : List Send)
    (s : State) : (sendAll net sends s).clients = s.clients :=
  clients_of_registry (registry_sendAll net sends s)

@[simp] theorem proxy_sendAll (net : Nat → Bool) (sends : List Send)
    (s : State) : (sendAll net sends s).proxy = s.proxy :=
  proxy_of_registry (registry_sendAll net sends s)

@[simp] theorem built_sendAll (net : Nat → Bool) (sends : List Send)
    (s : State) : (sendAll net sends s).built = s.built :=
  built_of_registry (registry_sendAll net sends s)

@[simp] theorem recycled_sendAll (net : Nat → Bool) (sends : List Send)
    (s : State) : (sendAll net sends s).recycled = s.recycled :=
  recycled_of_registry (registry_sendAll net sends s)

@[simp] theorem enList_sendAll (net : Nat → Bool) (sends : List Send)
    (s : State) : (sendAll net sends s).enList = s.enList :=
  enList_of_registry (registry_sendAll net sends s)

/-- Clearing a mailslot writes its name and nothing else. -/
theorem clearMailslot_eq (args : Args) (id : Int) (s : State) :
    clearMailslot args id s =
      { s with slotName := (clearMailslot args id s).slotName } := by
  unfold clearMailslot
  split <;> rfl

end FameZ.Server
