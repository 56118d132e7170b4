/-
Module: FameZ.Link.Exchange
Purpose: What the server and a client of either kind do with each message of
  the handshake, as equations on the network.
Trusted boundary: none
Main exports: serve_linkRfc, serve_standaloneAck, serve_peerAttribute,
  serve_ack, take_ctlWrite, take_peerAttribute, take_ack, take_driver_ctlWrite,
  take_driver_peerAttribute, take_driver_ack
-/
import FameZ.Link.Network

namespace FameZ.Link

open PyText
open Scanf (decimal formatInt)

/-! ### What the server does with each message -/

section Serve

variable {s : State} {id : Nat} {proxy : Responder}

/-- The handler runs on the proxy with the globals of the server. -/
theorem serve_render (config : Config)
    (live : s.proxies.get? id = some proxy) (msg : Msg) (plain : msg.Plain)
    (tracker : Option Int) :
    ∃ followed : Globals,
      followed.nextTag = s.globals.nextTag ∧
      followed.tagged = s.globals.tagged ∧
      followed.tracker + 1 = s.globals.answerTracker tracker ∧
      ∀ env, (dispatch config.serverInvariant msg.payload
          { globals := followed, self := proxy, sent := [] }).2 = env →
        serve config id (msg.render tracker) s =
          { s with
            globals := env.globals
            proxies := s.proxies.set id env.self
            network := s.network ++ env.sent.map (toClient id) } := by
  obtain ⟨value, next, followed⟩ := follow_eq
    { globals := s.globals, self := proxy, sent := [] } tracker
  refine ⟨{ s.globals with tracker := value }, rfl, rfl, next, ?_⟩
  rintro env rfl
  unfold serve
  rw [live]
  dsimp only
  rw [handleRequest_render _ plain, followed]

/-- A Link RFC is answered under a new tag. -/
theorem serve_linkRfc (config : Config)
    (live : s.proxies.get? id = some proxy) (ttc : Nat)
    (tracker : Option Int) :
    ∃ head, '|' ∉ head ∧
      serve config id ((Msg.linkRfc ttc).render tracker) s =
        { s with
          globals :=
            { nextTag := s.globals.nextTag + 1
              tagged := s.globals.tagged.set (decimal s.globals.nextTag)
                (head ++ '|' :: afterAck)
              tracker := s.globals.answerTracker tracker }
          proxies := s.proxies.set id proxy
          network := s.network ++
            (fitting ((Msg.ctlWrite Server.defaultSid (config.serverId * 100)
              proxy.sid0 proxy.cid0 s.globals.nextTag).render
              (some (s.globals.answerTracker tracker)))).map
              (toClient id) } := by
  obtain ⟨followed, nextTag, tagged, next, result⟩ :=
    serve_render config live (.linkRfc ttc) trivial tracker
  have smart : config.serverInvariant.smart = some true := rfl
  obtain ⟨head, plain, handled⟩ := dispatch_linkRfc smart ttc
    { globals := followed, self := proxy, sent := [] }
  refine ⟨head, plain, ?_⟩
  rw [result _ (by rw [handled, post_msg])]
  simp only [Env.posting, Env.tagging, nextTag, tagged, next,
    Bool.false_eq_true, if_false, List.nil_append]
  rfl

theorem serve_standaloneAck (config : Config)
    (live : s.proxies.get? id = some proxy) {tag : Nat} {head : Text}
    (plain : '|' ∉ head)
    (entry : s.globals.tagged.get? (decimal tag) =
      some (head ++ '|' :: afterAck)) (tracker : Option Int) :
    serve config id ((Msg.standaloneAck tag).render tracker) s =
      { s with
        globals :=
          { nextTag := s.globals.nextTag
            tagged := s.globals.tagged.del (decimal tag)
            tracker := s.globals.answerTracker tracker }
        proxies := s.proxies.set id proxy
        network := s.network ++
          (fitting (Msg.peerAttribute.render
            (some (s.globals.answerTracker tracker)))).map
            (toClient id) } := by
  obtain ⟨followed, nextTag, tagged, next, result⟩ :=
    serve_render config live (.standaloneAck tag) trivial tracker
  have handled := dispatch_standaloneAck config.serverInvariant
    { globals := followed, self := proxy, sent := [] } plain
    (by rw [tagged]; exact entry)
  rw [result _ (by rw [handled, post_msg])]
  simp only [Env.posting, nextTag, tagged, next, Bool.false_eq_true,
    if_false, List.nil_append]

theorem serve_peerAttribute (config : Config)
    (live : s.proxies.get? id = some proxy) (tracker : Option Int) :
    serve config id (Msg.peerAttribute.render tracker) s =
      { s with
        globals :=
          { nextTag := s.globals.nextTag
            tagged := s.globals.tagged
            tracker := s.globals.answerTracker tracker }
        proxies := s.proxies.set id proxy
        network := s.network ++
          (fitting ((Msg.ack "Switch".toList Server.defaultSid
            (config.serverId * 100)).render
            (some (s.globals.answerTracker tracker)))).map
            (toClient id) } := by
  obtain ⟨followed, nextTag, tagged, next, result⟩ :=
    serve_render config live .peerAttribute trivial tracker
  have handled := dispatch_peerAttribute config.serverInvariant
    { globals := followed, self := proxy, sent := [] }
  rw [result _ (by rw [handled, post_msg])]
  simp only [Env.posting, nextTag, tagged, next, Bool.false_eq_true,
    if_false, List.nil_append]
  rfl

theorem serve_ack (config : Config)
    (live : s.proxies.get? id = some proxy) {cClass : Text} {sid0 cid0 : Int}
    (plain : (Msg.ack cClass sid0 cid0).Plain) (tracker : Option Int) :
    ∃ followed attrs, followed.nextTag = s.globals.nextTag ∧
      followed.tagged = s.globals.tagged ∧
      followed.tracker + 1 = s.globals.answerTracker tracker ∧
      serve config id ((Msg.ack cClass sid0 cid0).render tracker) s =
        { s with
          globals := followed
          proxies := s.proxies.set id { proxy with peerattrs := attrs } } ∧
      (Clean cClass → attrs = ackAttrs cClass sid0 cid0) := by
  obtain ⟨followed, nextTag, tagged, next, result⟩ :=
    serve_render config live (.ack cClass sid0 cid0) plain tracker
  obtain ⟨outcome, attrs, handled⟩ := dispatch_ack config.serverInvariant
    cClass sid0 cid0 { globals := followed, self := proxy, sent := [] }
  refine ⟨followed, attrs, nextTag, tagged, next, ?_, fun clean => ?_⟩
  · rw [result _ (by rw [handled])]
    simp
  · rw [dispatch_ack_clean _ clean] at handled
    have same := congrArg (fun both : Outcome => both.2.self.peerattrs) handled
    exact same.symm

end Serve

/-! ### What a client does with each message -/

section Take

variable {config : Config} {globals : Globals} {self : Responder}
  {core : Kernel.Core}

theorem take_render (config : Config) (globals : Globals) (self : Responder)
    (msg : Msg) (plain : msg.Plain) (tracker : Option Int) :
    ∃ followed : Globals,
      followed.tracker + 1 = globals.answerTracker tracker ∧
      followed = { globals with tracker := followed.tracker } ∧
      ∀ env, (dispatch clientInvariant msg.payload
          { globals := followed, self := self, sent := [] }).2 = env →
        Client.take config (msg.render tracker) (.python globals self) =
          (.python env.globals env.self, env.sent) := by
  obtain ⟨value, next, followed⟩ := follow_eq
    { globals := globals, self := self, sent := [] } tracker
  refine ⟨{ globals with tracker := value }, next, rfl, ?_⟩
  rintro env rfl
  rw [Client.take, handleRequest_render _ plain, followed]

/-- A Python client takes the ids and echoes the tag. -/
theorem take_ctlWrite (config : Config) (globals : Globals) {state : Text}
    (linked : self.linkState = some state) (pfmsid pfmcid sid cid : Int)
    (tag : Nat) (tracker : Option Int) :
    Client.take config
        ((Msg.ctlWrite pfmsid pfmcid sid cid tag).render tracker)
        (.python globals self) =
      (.python
          { globals with tracker := globals.answerTracker tracker }
          { self with
            sid0 := sid
            cid0 := cid
            linkState := some "configured".toList },
        fitting ((Msg.standaloneAck tag).render
          (some (globals.answerTracker tracker)))) := by
  obtain ⟨followed, next, same, result⟩ := take_render config globals self
    (.ctlWrite pfmsid pfmcid sid cid tag) trivial tracker
  have handled := dispatch_ctlWrite clientInvariant
    { globals := followed, self := self, sent := [] } linked pfmsid pfmcid
    sid cid tag
  rw [result _ (by rw [handled, post_msg])]
  simp only [Env.posting, Env.configure, next, Bool.false_eq_true, if_false,
    List.nil_append]
  rw [same]

/-- It names its class and its ids. -/
theorem take_peerAttribute (config : Config) (globals : Globals)
    (self : Responder) (tracker : Option Int) :
    Client.take config (Msg.peerAttribute.render tracker)
        (.python globals self) =
      (.python { globals with tracker := globals.answerTracker tracker } self,
        fitting ((Msg.ack "Debugger".toList self.sid0 self.cid0).render
          (some (globals.answerTracker tracker)))) := by
  obtain ⟨followed, next, same, result⟩ := take_render config globals self
    .peerAttribute trivial tracker
  have handled := dispatch_peerAttribute clientInvariant
    { globals := followed, self := self, sent := [] }
  rw [result _ (by rw [handled, post_msg])]
  simp only [Env.posting, next, Bool.false_eq_true, if_false,
    List.nil_append]
  rw [same]
  rfl

/-- It notes the attributes of the switch. -/
theorem take_ack (config : Config) (globals : Globals) (self : Responder)
    {cClass : Text} {sid0 cid0 : Int}
    (plain : (Msg.ack cClass sid0 cid0).Plain) (tracker : Option Int) :
    ∃ followed attrs,
      Client.take config ((Msg.ack cClass sid0 cid0).render tracker)
          (.python globals self) =
        (.python followed { self with peerattrs := attrs }, []) := by
  obtain ⟨followed, next, same, result⟩ := take_render config globals self
    (.ack cClass sid0 cid0) plain tracker
  obtain ⟨outcome, attrs, handled⟩ := dispatch_ack clientInvariant
    cClass sid0 cid0 { globals := followed, self := self, sent := [] }
  exact ⟨followed, attrs, result _ (by rw [handled])⟩

/-- The doorbell of a reply finds the server. -/
theorem serverId_reached (config : Config) :
    config.serverId % 2 ^ 32 = config.serverId := by
  have fits := config.fits
  exact Nat.mod_eq_of_lt (by rw [Config.serverId]; omega)

theorem sent_reply {config : Config} {reply : Kernel.Reply}
    (reached : reply.peerId = config.serverId) :
    ([reply].filter fun reply =>
      decide (reply.peerId = config.serverId)).map Kernel.Reply.text =
      [reply.text] := by
  rw [List.filter_cons_of_pos (by simpa using reached)]
  rfl

theorem take_driver_ctlWrite (config : Config) (core : Kernel.Core)
    (pfmsid pfmcid sid cid tag : Nat) (tracker : Option Int) :
    Client.take config
        ((Msg.ctlWrite pfmsid pfmcid sid cid tag).render tracker)
        (.driver core) =
      (.driver
          { core with
            pfmsid := UInt32.ofNat pfmsid
            pfmcid := UInt32.ofNat pfmcid
            sid0 := UInt32.ofNat sid
            cid0 := UInt32.ofNat cid
            pmcid := 0 - 1 },
        ["Standalone Acknowledgment Tag=".toList ++
          formatInt (UInt32.ofNat tag) ++ ",Reason=OK".toList]) := by
  rw [Client.take, famezLinkRequest_ctlWrite]
  dsimp only [Option.toList_some]
  rw [sent_reply (serverId_reached config)]

theorem take_driver_peerAttribute (config : Config)
    (sid0 : core.sid0.toNat < 2 ^ 31) (cid0 : core.cid0.toNat < 2 ^ 31)
    (tracker : Option Int) :
    Client.take config (Msg.peerAttribute.render tracker) (.driver core) =
      (.driver core,
        [(Msg.ack core.baseCClassStr core.sid0.toNat
          core.cid0.toNat).payload]) := by
  rw [Client.take, famezLinkRequest_peerAttribute _ sid0 cid0]
  dsimp only [Option.toList_some]
  rw [sent_reply (serverId_reached config)]

theorem take_driver_ack (config : Config) (core : Kernel.Core)
    {cClass : Text} (ascii : Ascii cClass) (sid0 cid0 : Int)
    (tracker : Option Int) :
    Client.take config ((Msg.ack cClass sid0 cid0).render tracker)
        (.driver core) = (.driver core, []) := by
  rw [Client.take, famezLinkRequest_ack _ _ ascii]
  rfl

end Take

/-- The core structure once a driver took the CTL-Write of its server. -/
def assignedCore (config : Config) (id : Nat) (core : Kernel.Core) :
    Kernel.Core :=
  { core with
    pfmsid := UInt32.ofNat 27
    pfmcid := UInt32.ofNat (config.serverId * 100)
    sid0 := UInt32.ofNat 27
    cid0 := UInt32.ofNat (id * 100)
    pmcid := 0 - 1 }

/-- The acknowledgment of a driver for a tag as it read it. -/
def driverAck (tag : UInt32) : Text :=
  "Standalone Acknowledgment Tag=".toList ++ formatInt tag ++
    ",Reason=OK".toList

theorem take_assigned (config : Config) (core : Kernel.Core) (id tag : Nat)
    (tracker : Option Int) :
    Client.take config
        ((Msg.ctlWrite Server.defaultSid (config.serverId * 100)
          Server.defaultSid ((id : Int) * 100) tag).render tracker)
        (.driver core) =
      (.driver (assignedCore config id core),
        [driverAck (UInt32.ofNat tag)]) := by
  have message : Msg.ctlWrite Server.defaultSid (config.serverId * 100)
      Server.defaultSid ((id : Int) * 100) tag =
      Msg.ctlWrite (27 : Nat) ((config.serverId * 100 : Nat) : Int)
        (27 : Nat) ((id * 100 : Nat) : Int) tag := by
    push_cast
    rfl
  rw [message, take_driver_ctlWrite]
  rfl

/-- What it prints is the tag of the server, if that is in range. -/
theorem driverAck_of_lt {tag : Nat} (small : tag < 2 ^ 31) :
    driverAck (UInt32.ofNat tag) = (Msg.standaloneAck tag).render none := by
  have read : (UInt32.ofNat tag).toNat = tag := by
    rw [UInt32.toNat_ofNat']
    exact Nat.mod_eq_of_lt (by omega)
  unfold driverAck
  rw [Scanf.formatInt_of_lt (by rw [read]; exact small), read]
  rfl

/-! ### Deliveries -/

section Deliver

variable {config : Config} {s t : State}

/-- What a delivery to a client does. -/
theorem deliver_client {k id : Nat} {text : Text} {configured : Bool}
    {client : Client} (holds : s.client id = some client)
    (found : s.network[k]? = some
      { side := .client, id := id, text := text, configured := configured })
    (taken : step config s (.deliver k) = some t) :
    t = (s.without k).settle id (client.take config text) := by
  obtain ⟨mail, atK, rfl⟩ := Option.map_eq_some_iff.mp taken
  rw [found] at atK
  cases atK
  change receive config id text (s.without k) = _
  have kept : (s.without k).client id = some client := holds
  unfold receive
  rw [kept]

/-- What a delivery to the server does. -/
theorem deliver_server {k id : Nat} {text : Text} {configured : Bool}
    (found : s.network[k]? = some
      { side := .server, id := id, text := text, configured := configured })
    (taken : step config s (.deliver k) = some t) :
    t = serve config id text (s.without k) := by
  obtain ⟨mail, atK, rfl⟩ := Option.map_eq_some_iff.mp taken
  rw [found] at atK
  cases atK
  rfl

end Deliver

end FameZ.Link
