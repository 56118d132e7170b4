/-
Module: FameZ.Link.Network
Purpose: A smart server, any number of clients of both kinds and the messages
  in flight between them, as one step relation.
Trusted boundary: the translation of the constructor of the server's proxies,
  of ServerCallback, ClientCallback and place_and_go, and of the callers of
  famez_link_request
Main exports: Config, Client, Mail, State, serve, receive, connect, Label,
  step, initial
-/
import FameZ.Kernel.Link
import FameZ.Lib.Transition
import FameZ.Link.Drivers
import FameZ.Server.Session

namespace FameZ.Link

open PyText

/-!
A message is in flight from the moment its sender posted it until its receiver
takes it out of the mailslot.  Messages are taken in any order, and one may be
lost: a sender that waited too long stomps the message in its slot, and a
driver gives up its reply when its slot stays busy.
-/

/-- The server's arguments. -/
structure Config where
  nClients : Nat
  recycle : Bool
  fits : nClients ≤ 62

def Config.serverId (config : Config) : Nat := config.nClients + 1

def Config.args (config : Config) : Server.Args :=
  { nClients := config.nClients, recycle := config.recycle, silent := false,
    smart := true }

/-- `ServerInvariant(args)` of a smart server. -/
def Config.serverInvariant (config : Config) : ServerInvariant :=
  { smart := some true
    isPfm := some true
    serverSid0 := Server.defaultSid
    serverCid0 := config.serverId * 100
    cClass := "Switch".toList }

/-- `ServerInvariant()` of a client, which has neither attributes of its own
nor such arguments. -/
def clientInvariant : ServerInvariant :=
  { smart := none
    isPfm := none
    serverSid0 := 0
    serverCid0 := 0
    cClass := "Debugger".toList }

/-- The proxy of a client, once `create_new_peer_id` chose its id. -/
def newProxy (id : Int) : Responder :=
  { sid0 := Server.defaultSid
    cid0 := id * 100
    linkState := none
    peerattrs := dictOf
      [("CID0".toList, "0".toList), ("SID0".toList, "0".toList),
        ("C-Class".toList, "Driverless QEMU".toList)] }

/-- A Python client is a process of its own; a driver is its core structure. -/
inductive Client where
  | python (globals : Globals) (self : Responder)
  | driver (core : Kernel.Core)
deriving DecidableEq

def newPython : Client :=
  .python initialGlobals
    { sid0 := 0, cid0 := 0, linkState := some "up".toList,
      peerattrs := .empty }

def newDriver : Client := .driver Kernel.initialCore

/-- `int32_t`. -/
def signed (value : UInt32) : Int :=
  if value.toNat < 2 ^ 31 then value.toNat else value.toNat - 2 ^ 32

def Client.sid0 : Client → Int
  | .python _ self => self.sid0
  | .driver core => signed core.sid0

def Client.cid0 : Client → Int
  | .python _ self => self.cid0
  | .driver core => signed core.cid0

/-- The client took a CTL-Write: both kinds leave a mark then. -/
def Client.configured : Client → Bool
  | .python _ self => self.linkState = some "configured".toList
  | .driver core => core.pmcid = 0 - 1

inductive Side where
  | server
  | client
deriving Repr, DecidableEq

/-- A message between the server and the client `id`.  `configured` is history:
whether it comes from a client that had taken a CTL-Write. -/
structure Mail where
  side : Side
  id : Nat
  text : Text
  configured : Bool
deriving Repr, DecidableEq

/-- `proxies` is `SI.clients`. -/
structure State where
  globals : Globals
  proxies : OrderedDict Int Responder
  client : Nat → Option Client
  network : List Mail

def initial : State where
  globals := initialGlobals
  proxies := .empty
  client := fun _ => none
  network := []

def toClient (id : Nat) (text : Text) : Mail :=
  { side := .client, id := id, text := text, configured := false }

def toServer (id : Nat) (client : Client) (text : Text) : Mail :=
  { side := .server, id := id, text := text, configured := client.configured }

/-! ### The server -/

/-- `ServerCallback`: a requester that is gone gets no answer. -/
def serve (config : Config) (id : Nat) (text : Text) (s : State) : State :=
  match s.proxies.get? id with
  | none => s
  | some proxy =>
      let env := (handleRequest config.serverInvariant text
        { globals := s.globals, self := proxy, sent := [] }).2
      { s with
        globals := env.globals
        proxies := s.proxies.set id env.self
        network := s.network ++ env.sent.map (toClient id) }

/-- A connection that completes, and the request the server makes then. -/
def connect (config : Config) (choice : Nat) (client : Client) (s : State) :
    Option State :=
  (Server.createNewPeerId config.args s.proxies choice).map fun id =>
    if id = -1 then s
    else
      let env := (sendPayload Msg.peerAttribute.payload none false
        { globals := s.globals, self := newProxy id, sent := [] }).2
      { globals := env.globals
        proxies := s.proxies.set id env.self
        client := Function.update s.client id.toNat (some client)
        network := s.network ++ env.sent.map (toClient id.toNat) }

/-- `connectionLost`.  What is in flight stays there. -/
def disconnect (id : Nat) (s : State) : State :=
  { s with
    proxies := s.proxies.del id
    client := Function.update s.client id none }

/-! ### The clients -/

/-- What a client makes of a message from the server, and its answers. -/
def Client.take (config : Config) (text : Text) :
    Client → Client × List Text
  | .python globals self =>
      let env := (handleRequest clientInvariant text
        { globals := globals, self := self, sent := [] }).2
      (.python env.globals env.self, env.sent)
  | .driver core =>
      match (Kernel.famezLinkRequest (posted config.serverId text) core).2 with
      | (core, reply) =>
          (.driver core,
            (reply.toList.filter fun reply =>
              decide (reply.peerId = config.serverId)).map
              Kernel.Reply.text)

/-- `place_and_go('server', msg)`, or the same request written to the device of
a driver after `server:`. -/
def Client.place (msg : Text) (resetTracker : Bool) :
    Client → Client × List Text
  | .python globals self =>
      let env := (sendPayload msg none resetTracker
        { globals := globals, self := self, sent := [] }).2
      (.python env.globals env.self, env.sent)
  | .driver core =>
      (.driver core,
        if byteLength ("server:".toList ++ msg) < msMaxMsglen - 1 then [msg]
        else [])

/-- The state once a client changed and posted texts. -/
def State.settle (s : State) (id : Nat) (outcome : Client × List Text) :
    State :=
  { s with
    client := Function.update s.client id (some outcome.1)
    network := s.network ++ outcome.2.map (toServer id outcome.1) }

/-- `ClientCallback` of a Python client, the interrupt of a driver. -/
def receive (config : Config) (id : Nat) (text : Text) (s : State) : State :=
  match s.client id with
  | none => s
  | some client => s.settle id (client.take config text)

/-- `famez_register("Bridge", ...)`: the class a driver names from then on. -/
def Client.register : Client → Client
  | .python globals self => .python globals self
  | .driver core => .driver { core with baseCClassStr := "Bridge".toList }

/-! ### Runs -/

/-- `ready` is the first request of a Python client, and the link command of
its user, who may reset the tracker. -/
inductive Label where
  | connect (choice : Nat) (driver : Bool)
  | disconnect (id : Nat)
  | register (id : Nat)
  | rfc (id ttc : Nat)
  | ready (id : Nat) (resetTracker : Bool)
  | deliver (k : Nat)
  | lose (k : Nat)
deriving Repr, DecidableEq

/-- The mail reaches its side. -/
def State.dispatch (config : Config) (mail : Mail) (s : State) : State :=
  match mail.side with
  | .server => serve config mail.id mail.text s
  | .client => receive config mail.id mail.text s

def State.without (s : State) (k : Nat) : State :=
  { s with network := s.network.eraseIdx k }

def step (config : Config) : Transition.Step State Label := fun s label =>
  match label with
  | .connect choice driver =>
      connect config choice (if driver then newDriver else newPython) s
  | .disconnect id =>
      if (s.client id).isSome then some (disconnect id s) else none
  | .register id =>
      (s.client id).map fun client =>
        { s with client := Function.update s.client id (some client.register) }
  | .rfc id ttc =>
      (s.client id).map fun client =>
        s.settle id (client.place (Msg.linkRfc ttc).payload true)
  | .ready id resetTracker =>
      (s.client id).map fun client =>
        s.settle id (client.place Msg.peerAttribute.payload resetTracker)
  | .deliver k =>
      s.network[k]?.map fun mail => (s.without k).dispatch config mail
  | .lose k => if k < s.network.length then some (s.without k) else none

end FameZ.Link
