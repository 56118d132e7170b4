/-
Module: FameZ.Link.Invariant
Purpose: What every step in range keeps: the ids at both ends of a connection
  and the messages between them.
Trusted boundary: none
Main exports: InRange, KnownClient, Peers, Inv, Inv.step
-/
import FameZ.Link.Flight
import FameZ.Server.Identity
import Mathlib.Data.List.InsertIdx
import Mathlib.Data.List.Perm.Basic

namespace FameZ.Link

open PyText
open Scanf (decimal)

/-!
The server hands out one id for each proxy and never changes it, and every
number it sends is read back as it was printed.  Tags are counted without a
bound, but a driver reads them as 32-bit signed numbers.
-/

/-- The condition on one step: a driver is never handed a tag that its signed
32-bit conversion changes, and an answer with its tracker fits a mailslot. -/
structure InRange (s : State) (label : Label) : Prop where
  driverTag : ∀ k id pfmsid pfmcid sid cid tag tracker configured core,
    label = .deliver k →
    s.network[k]? = some
      { side := .client, id := id,
        text := (Msg.ctlWrite pfmsid pfmcid sid cid tag).render tracker,
        configured := configured } →
    s.client id = some (.driver core) → tag < 2 ^ 31
  ackFits : ∀ k id pfmsid pfmcid sid cid tag tracker configured globals self,
    label = .deliver k →
    s.network[k]? = some
      { side := .client, id := id,
        text := (Msg.ctlWrite pfmsid pfmcid sid cid tag).render tracker,
        configured := configured } →
    s.client id = some (.python globals self) →
    FitsSlot ((Msg.standaloneAck tag).render
      (some (globals.answerTracker tracker)))
  requestFits : ∀ k id tag tracker configured proxy,
    label = .deliver k →
    s.network[k]? = some
      { side := .server, id := id,
        text := (Msg.standaloneAck tag).render tracker,
        configured := configured } →
    s.proxies.get? id = some proxy →
    FitsSlot (Msg.peerAttribute.render
      (some (s.globals.answerTracker tracker)))

/-! ### The invariant -/

/-- What a client keeps well-formed. -/
def Client.WellFormed : Client → Prop
  | .python _ self => ∃ state, self.linkState = some state
  | .driver core =>
      core.baseCClassStr ∈ clientClasses ∧ core.sid0.toNat < 2 ^ 31 ∧
        core.cid0.toNat < 2 ^ 31

structure KnownClient (config : Config) (id : Nat) (client : Client) :
    Prop where
  low : 1 ≤ id
  high : id ≤ config.nClients
  wellFormed : client.WellFormed
  ids : client.configured = true →
    client.sid0 = Server.defaultSid ∧ client.cid0 = (id : Int) * 100

/-- The two ends of every connection. -/
structure Peers (config : Config) (proxies : OrderedDict Int Responder)
    (client : Nat → Option Client) : Prop where
  proxy : ∀ id proxy, proxies.get? id = some proxy →
    proxy.sid0 = Server.defaultSid ∧ proxy.cid0 = id * 100
  known : ∀ id one, client id = some one → KnownClient config id one
  live : ∀ id : Nat, (client id).isSome = (proxies.get? (id : Int)).isSome

structure Inv (config : Config) (s : State) : Prop where
  peers : Peers config s.proxies s.client
  flight : ∃ items, s.network = items.map Item.mail ∧
    Flight config s.globals items

namespace Peers

variable {config : Config} {proxies : OrderedDict Int Responder}
  {client : Nat → Option Client} {id : Nat}

/-- A request never changes the ids of a proxy. -/
theorem setProxy (peers : Peers config proxies client) {proxy after : Responder}
    (found : proxies.get? id = some proxy) (sid0 : after.sid0 = proxy.sid0)
    (cid0 : after.cid0 = proxy.cid0) :
    Peers config (proxies.set id after) client := by
  refine ⟨fun other otherProxy holds => ?_, peers.known, fun other => ?_⟩
  · rw [OrderedDict.get?_set] at holds
    split at holds
    · rename_i same
      cases holds
      rw [sid0, cid0, same]
      exact peers.proxy id proxy found
    · exact peers.proxy other otherProxy holds
  · rw [peers.live, OrderedDict.get?_set]
    split
    · rename_i same
      rw [same, found]
      rfl
    · rfl

theorem setClient (peers : Peers config proxies client) {old new : Client}
    (found : client id = some old) (known : KnownClient config id new) :
    Peers config proxies (Function.update client id (some new)) := by
  refine ⟨peers.proxy, fun other one holds => ?_, fun other => ?_⟩
  · rw [Function.update_apply] at holds
    split at holds
    · rename_i same
      cases holds
      rw [same]
      exact known
    · exact peers.known other one holds
  · rw [Function.update_apply, ← peers.live]
    split
    · rename_i same
      rw [same, found]
      rfl
    · rfl

/-- A new connection gets an id that nobody holds. -/
theorem connect (peers : Peers config proxies client) {one : Client}
    (known : KnownClient config id one) :
    Peers config (proxies.set id (newProxy id))
      (Function.update client id (some one)) := by
  refine ⟨fun other proxy holds => ?_, fun other which holds => ?_,
    fun other => ?_⟩
  · rw [OrderedDict.get?_set] at holds
    split at holds
    · rename_i same
      cases holds
      rw [same]
      exact ⟨rfl, rfl⟩
    · exact peers.proxy other proxy holds
  · rw [Function.update_apply] at holds
    split at holds
    · rename_i same
      cases holds
      rw [same]
      exact known
    · exact peers.known other which holds
  · rw [Function.update_apply, OrderedDict.get?_set]
    by_cases same : other = id
    · simp [same]
    · rw [if_neg same, if_neg (by exact_mod_cast same)]
      exact peers.live other

theorem disconnect (peers : Peers config proxies client) :
    Peers config (proxies.del id) (Function.update client id none) := by
  refine ⟨fun other proxy holds => ?_, fun other which holds => ?_,
    fun other => ?_⟩
  · rw [OrderedDict.get?_del] at holds
    split at holds
    · cases holds
    · exact peers.proxy other proxy holds
  · rw [Function.update_apply] at holds
    split at holds
    · cases holds
    · exact peers.known other which holds
  · rw [Function.update_apply, OrderedDict.get?_del]
    by_cases same : other = id
    · simp [same]
    · rw [if_neg same, if_neg (by exact_mod_cast same)]
      exact peers.live other

/-- A client exists as long as its proxy. -/
theorem proxy_of_client (peers : Peers config proxies client) {one : Client}
    (found : client id = some one) :
    ∃ proxy, proxies.get? (id : Int) = some proxy := by
  have live := peers.live id
  rw [found] at live
  exact Option.isSome_iff_exists.mp live.symm

theorem client_of_proxy (peers : Peers config proxies client)
    {proxy : Responder} (found : proxies.get? (id : Int) = some proxy) :
    ∃ one, client id = some one := by
  have live := peers.live id
  rw [found] at live
  exact Option.isSome_iff_exists.mp live

end Peers

/-! ### The server's steps -/

section Serve

variable {config : Config} {s : State} {rest : List Item} {item : Item}

/-- What is left in flight and the answer to one message. -/
theorem Inv.of_answer {t : State} (item : Item)
    (peers : Peers config t.proxies t.client)
    (network : t.network = rest.map Item.mail ++ item.posts.map Item.mail)
    (flight : Flight config t.globals (item :: rest)) : Inv config t :=
  ⟨peers, rest ++ item.posts, by rw [network, List.map_append], flight.post⟩

theorem Inv.of_reply {t : State} (item : Item)
    (peers : Peers config t.proxies t.client)
    (network : t.network = rest.map Item.mail ++ [item.mail])
    (flight : Flight config t.globals (item :: rest)) : Inv config t :=
  ⟨peers, rest ++ [item], by rw [network, List.map_append]; rfl,
    flight.perm (List.perm_append_singleton item rest).symm⟩

theorem Inv.of_silence {t : State} (peers : Peers config t.proxies t.client)
    (network : t.network = rest.map Item.mail)
    (flight : Flight config t.globals rest) : Inv config t :=
  ⟨peers, rest, network, flight⟩

/-- Every message that the server may be sent. -/
theorem Inv.serve (peers : Peers config s.proxies s.client)
    (network : s.network = rest.map Item.mail)
    (flight : Flight config s.globals (item :: rest))
    (side : item.side = .server) :
    Inv config (serve config item.id (item.msg.render item.tracker) s) := by
  cases found : s.proxies.get? (item.id : Int) with
  | none =>
      unfold Link.serve
      rw [found]
      exact Inv.of_silence peers network flight.tail
  | some proxy =>
      have honest := flight.honest item (List.mem_cons_self ..)
      rcases item with ⟨itemSide, id, msg, tracker, configured⟩
      have textPlain := honest.plain
      dsimp only at side found honest textPlain ⊢
      rw [side] at honest
      cases honest with
      | @linkRfc id ttc configured =>
          obtain ⟨head, plain, result⟩ := serve_linkRfc config found ttc tracker
          obtain ⟨sid0, cid0⟩ := peers.proxy id proxy found
          rw [result, sid0, cid0]
          refine Inv.of_answer
              { side := .client
                id := id
                msg := .ctlWrite Server.defaultSid (config.serverId * 100)
                  Server.defaultSid ((id : Int) * 100) s.globals.nextTag
                tracker := some (s.globals.answerTracker tracker)
                configured := false }
            (peers.setProxy found rfl rfl) ?_
            (flight.tail.honest_cons .ctlWrite
              (flight.tags.tail.issue plain rfl rfl rfl))
          rw [network, Item.map_mail_posts]
          rfl
      | @standaloneAck id tag configured =>
          obtain ⟨head, plain, entry⟩ :=
            flight.tags.entry _ (List.mem_cons_self ..) tag rfl
          have tags : TagsKept
              { nextTag := s.globals.nextTag
                tagged := s.globals.tagged.del (decimal tag)
                tracker := s.globals.answerTracker tracker } rest :=
            flight.tags.untag rfl rfl rfl
          rw [serve_standaloneAck config found plain entry tracker]
          refine Inv.of_answer
              { side := .client
                id := id
                msg := .peerAttribute
                tracker := some (s.globals.answerTracker tracker)
                configured := false }
            (peers.setProxy found rfl rfl) ?_
            (flight.tail.honest_cons .query (tags.untagged rfl))
          rw [network, Item.map_mail_posts]
          rfl
      | @query _ id configured =>
          have tags : TagsKept
              { nextTag := s.globals.nextTag
                tagged := s.globals.tagged
                tracker := s.globals.answerTracker tracker } rest :=
            flight.tags.tail.of_eq rfl rfl
          rw [serve_peerAttribute config found tracker]
          refine Inv.of_answer
              { side := .client
                id := id
                msg := .ack "Switch".toList Server.defaultSid
                  (config.serverId * 100)
                tracker := some (s.globals.answerTracker tracker)
                configured := false }
            (peers.setProxy found rfl rfl) ?_
            (flight.tail.honest_cons .switch (tags.untagged rfl))
          rw [network, Item.map_mail_posts]
          rfl
      | @answer id cClass sid0 cid0 configured known ids =>
          obtain ⟨followed, attrs, nextTag, tagged, -, result, -⟩ :=
            serve_ack config found textPlain tracker
          rw [result]
          exact Inv.of_silence (peers.setProxy found rfl rfl) network
            ⟨flight.tail.honest, flight.tags.tail.of_eq nextTag tagged⟩

end Serve

/-! ### The steps of a client -/

theorem signed_ofNat {n : Nat} (small : n < 2 ^ 31) :
    signed (UInt32.ofNat n) = n := by
  have value : (UInt32.ofNat n).toNat = n := by
    rw [UInt32.toNat_ofNat']
    exact Nat.mod_eq_of_lt (by omega)
  rw [signed, value, if_pos small]

theorem signed_of_lt {value : UInt32} (small : value.toNat < 2 ^ 31) :
    signed value = value.toNat := if_pos small

theorem KnownClient.assigned {config : Config} {id : Nat} {core : Kernel.Core}
    (known : KnownClient config id (.driver core)) :
    KnownClient config id (.driver (assignedCore config id core)) := by
  have fits := config.fits
  have high := known.high
  have cid0 : (assignedCore config id core).cid0.toNat < 2 ^ 31 := by
    rw [assignedCore, UInt32.toNat_ofNat']
    exact Nat.lt_of_le_of_lt (Nat.mod_le _ _) (by omega)
  have sid0 : (assignedCore config id core).sid0.toNat < 2 ^ 31 := by
    change (UInt32.ofNat 27).toNat < 2 ^ 31
    decide
  refine ⟨known.low, high, ⟨known.wellFormed.1, sid0, cid0⟩, fun _ =>
    ⟨signed_ofNat (by decide), ?_⟩⟩
  exact (signed_ofNat (by omega)).trans (by push_cast; rfl)

section Receive

variable {config : Config} {s : State} {rest : List Item} {id : Nat}

/-- A Python client and a message of the server. -/
theorem Inv.receive_python (peers : Peers config s.proxies s.client)
    (network : s.network = rest.map Item.mail) {msg : Msg}
    {tracker : Option Int} {configured : Bool}
    (flight : Flight config s.globals
      ({ side := .client, id := id, msg := msg, tracker := tracker,
         configured := configured } :: rest))
    {globals : Globals} {self : Responder}
    (found : s.client id = some (.python globals self)) :
    Inv config (s.settle id
      (Client.take config (msg.render tracker) (.python globals self))) := by
  have known := peers.known id _ found
  obtain ⟨state, linked⟩ := known.wellFormed
  have honest := flight.honest _ (List.mem_cons_self ..)
  have plain := honest.plain
  dsimp only at honest plain
  cases honest with
  | @ctlWrite id tag configured =>
      rw [take_ctlWrite config globals linked]
      refine Inv.of_answer
        { side := .server
          id := id
          msg := .standaloneAck tag
          tracker := some (globals.answerTracker tracker)
          configured := true }
        (peers.setClient found ⟨known.low, known.high, ⟨_, rfl⟩,
          fun _ => ⟨rfl, rfl⟩⟩) ?_
        (flight.tail.honest_cons .standaloneAck (flight.tags.passOn rfl))
      rw [State.settle, network, Item.map_mail_posts]
      rfl
  | @query _ id configured =>
      rw [take_peerAttribute]
      refine Inv.of_answer
        { side := .server
          id := id
          msg := .ack "Debugger".toList self.sid0 self.cid0
          tracker := some (globals.answerTracker tracker)
          configured := (Client.python globals self).configured }
        (peers.setClient found ⟨known.low, known.high, ⟨state, linked⟩,
          known.ids⟩) ?_
        (flight.tail.honest_cons (.answer (by decide) known.ids)
          (flight.tags.tail.untagged rfl))
      rw [State.settle, network, Item.map_mail_posts]
      rfl
  | @switch id sid0 cid0 configured =>
      obtain ⟨followed, attrs, result⟩ :=
        take_ack config globals self plain tracker
      rw [result]
      exact Inv.of_silence
        (peers.setClient found ⟨known.low, known.high, ⟨state, linked⟩,
          known.ids⟩)
        (by rw [State.settle, network]; simp) flight.tail

/-- A driver and a message of the server, as long as the tag is in range. -/
theorem Inv.receive_driver (peers : Peers config s.proxies s.client)
    (network : s.network = rest.map Item.mail) {msg : Msg}
    {tracker : Option Int} {configured : Bool}
    (flight : Flight config s.globals
      ({ side := .client, id := id, msg := msg, tracker := tracker,
         configured := configured } :: rest))
    {core : Kernel.Core} (found : s.client id = some (.driver core))
    (inRange : ∀ tag, msg.tag? = some tag → tag < 2 ^ 31) :
    Inv config (s.settle id
      (Client.take config (msg.render tracker) (.driver core))) := by
  have known := peers.known id _ found
  obtain ⟨cClass, sid0, cid0⟩ := known.wellFormed
  have honest := flight.honest _ (List.mem_cons_self ..)
  dsimp only at honest
  cases honest with
  | @ctlWrite id tag configured =>
      rw [take_assigned, driverAck_of_lt (inRange tag rfl)]
      refine Inv.of_reply
        { side := .server
          id := id
          msg := .standaloneAck tag
          tracker := none
          configured := true }
        (peers.setClient found known.assigned) ?_
        (flight.tail.honest_cons .standaloneAck (flight.tags.passOn rfl))
      rw [State.settle, network]
      rfl
  | @query _ id configured =>
      rw [take_driver_peerAttribute config sid0 cid0]
      refine Inv.of_reply
        { side := .server
          id := id
          msg := .ack core.baseCClassStr core.sid0.toNat core.cid0.toNat
          tracker := none
          configured := (Client.driver core).configured }
        (peers.setClient found known) ?_
        (flight.tail.honest_cons (.answer cClass fun marked => ?_)
          (flight.tags.tail.untagged rfl))
      · rw [State.settle, network]
        rfl
      · rw [← signed_of_lt sid0, ← signed_of_lt cid0]
        exact known.ids marked
  | @switch id sid0 cid0 configured =>
      rw [take_driver_ack config core (by decide)]
      exact Inv.of_silence (peers.setClient found known)
        (by rw [State.settle, network]; simp) flight.tail

/-- A request of the user of a client. -/
theorem Inv.place (inv : Inv config s) {client : Client}
    (found : s.client id = some client) {msg : Msg} (resetTracker : Bool)
    (honest : ∀ configured, Honest config .server id msg configured)
    (noTag : msg.tag? = none) :
    Inv config (s.settle id (client.place msg.payload resetTracker)) := by
  obtain ⟨peers, items, network, flight⟩ := inv
  have known := peers.known id client found
  cases client with
  | python globals self =>
      obtain ⟨state, linked⟩ := known.wellFormed
      have outcome : Client.place msg.payload resetTracker
          (.python globals self) =
          (.python
              { globals with
                tracker :=
                  (if resetTracker then 0 else globals.tracker) + 1 } self,
            fitting (msg.render (some
              ((if resetTracker then 0 else globals.tracker) + 1)))) := by
        rw [Client.place, sendPayload, post_msg]
        simp [Env.posting]
      rw [outcome]
      refine Inv.of_answer
        { side := .server
          id := id
          msg := msg
          tracker := some ((if resetTracker then 0 else globals.tracker) + 1)
          configured := (Client.python globals self).configured }
        (peers.setClient found ⟨known.low, known.high, ⟨state, linked⟩,
          known.ids⟩) ?_
        (flight.honest_cons (honest _) (flight.tags.untagged noTag))
      rw [State.settle, network, Item.map_mail_posts]
      rfl
  | driver core =>
      rw [Client.place]
      split
      · refine Inv.of_reply
          { side := .server
            id := id
            msg := msg
            tracker := none
            configured := (Client.driver core).configured }
          (peers.setClient found known) ?_
          (flight.honest_cons (honest _) (flight.tags.untagged noTag))
        rw [State.settle, network]
        rfl
      · exact Inv.of_silence (peers.setClient found known)
          (by rw [State.settle, network]; simp) flight

end Receive

/-! ### Every step -/

section Step

variable {config : Config} {s t : State} {label : Label}

theorem Inv.connect (inv : Inv config s) {choice : Nat} {client : Client}
    (wellFormed : client.WellFormed) (fresh : client.configured = false)
    (taken : connect config choice client s = some t) : Inv config t := by
  obtain ⟨peers, items, network, flight⟩ := inv
  obtain ⟨id, chosen, result⟩ := Option.map_eq_some_iff.mp taken
  split at result
  · rw [← result]
    exact ⟨peers, items, network, flight⟩
  · rename_i room
    rcases Server.createNewPeerId_spec chosen with
      ⟨full, -⟩ | ⟨low, high, -⟩
    · exact False.elim (room full)
    · obtain ⟨n, rfl⟩ := Int.eq_ofNat_of_zero_le (by omega : 0 ≤ id)
      have known : KnownClient config n client :=
        ⟨by omega, by exact_mod_cast high, wellFormed, fun marked => by
          rw [fresh] at marked
          cases marked⟩
      have sent : (sendPayload Msg.peerAttribute.payload none false
          { globals := s.globals, self := newProxy n, sent := [] }).2 =
          { globals :=
              { s.globals with tracker := s.globals.tracker + 1 }
            self := newProxy n
            sent := fitting (Msg.peerAttribute.render
              (some (s.globals.tracker + 1))) } := by
        rw [sendPayload, post_msg]
        simp [Env.posting]
      have tags : TagsKept
          { s.globals with tracker := s.globals.tracker + 1 } items :=
        flight.tags.of_eq rfl rfl
      rw [sent] at result
      rw [← result]
      refine Inv.of_answer
        { side := .client
          id := n
          msg := .peerAttribute
          tracker := some (s.globals.tracker + 1)
          configured := false }
        (peers.connect known) ?_
        (flight.honest_cons .query (tags.untagged rfl))
      rw [network, Item.map_mail_posts]
      rfl

/-- One message is taken out of the network. -/
theorem Inv.pull (inv : Inv config s) {k : Nat} {mail : Mail}
    (found : s.network[k]? = some mail) :
    ∃ item rest, mail = item.mail ∧
      (s.without k).network = rest.map Item.mail ∧
      Flight config s.globals (item :: rest) := by
  obtain ⟨-, items, network, flight⟩ := inv
  rw [network, List.getElem?_map] at found
  obtain ⟨item, at_k, rfl⟩ := Option.map_eq_some_iff.mp found
  obtain ⟨inside, rfl⟩ := List.getElem?_eq_some_iff.mp at_k
  refine ⟨items[k], items.eraseIdx k, rfl, ?_,
    flight.perm (List.getElem_cons_eraseIdx_perm inside).symm⟩
  rw [State.without, network, List.eraseIdx_map]

theorem Inv.lose (inv : Inv config s) (k : Nat) : Inv config (s.without k) := by
  obtain ⟨peers, items, network, flight⟩ := inv
  refine ⟨peers, items.eraseIdx k, ?_,
    flight.sublist (List.eraseIdx_sublist items k)⟩
  rw [State.without, network, List.eraseIdx_map]

/-- A delivery, as long as a driver is handed a tag in range. -/
theorem Inv.deliver (inv : Inv config s) {k : Nat} {mail : Mail}
    (found : s.network[k]? = some mail)
    (inRange : InRange s (.deliver k)) :
    Inv config ((s.without k).dispatch config mail) := by
  obtain ⟨item, rest, rfl, network, flight⟩ := inv.pull found
  have peers : Peers config (s.without k).proxies (s.without k).client :=
    inv.peers
  rcases item with ⟨side, id, msg, tracker, configured⟩
  cases side with
  | server => exact Inv.serve peers network flight rfl
  | client =>
      change Inv config (receive config id (msg.render tracker) (s.without k))
      unfold receive
      split
      · exact Inv.of_silence peers network flight.tail
      · rename_i client holds
        cases client with
        | python globals self =>
            exact Inv.receive_python peers network flight holds
        | driver core =>
            refine Inv.receive_driver peers network flight holds ?_
            intro tag carries
            have honest := flight.honest _ (List.mem_cons_self ..)
            dsimp only at honest
            cases honest with
            | ctlWrite =>
                cases carries
                exact inRange.driverTag k id _ _ _ _ tag tracker configured
                  core rfl found holds
            | _ => cases carries

/-- The invariant along the steps that meet the condition. -/
theorem Inv.step (inv : Inv config s) (inRange : InRange s label)
    (taken : step config s label = some t) : Inv config t := by
  cases label with
  | connect choice driver =>
      refine inv.connect ?_ ?_ taken
      · cases driver with
        | false => exact ⟨_, rfl⟩
        | true => exact ⟨by decide, by decide, by decide⟩
      · cases driver <;> decide
  | disconnect id =>
      simp only [Link.step, Option.ite_none_right_eq_some,
        Option.some.injEq] at taken
      obtain ⟨-, rfl⟩ := taken
      obtain ⟨peers, items, network, flight⟩ := inv
      exact ⟨peers.disconnect, items, network, flight⟩
  | register id =>
      obtain ⟨client, found, rfl⟩ := Option.map_eq_some_iff.mp taken
      obtain ⟨peers, items, network, flight⟩ := inv
      have known := peers.known id client found
      refine ⟨peers.setClient found ⟨known.low, known.high, ?_, ?_⟩, items,
        network, flight⟩
      · cases client with
        | python globals self => exact known.wellFormed
        | driver core =>
            have named : "Bridge".toList ∈ clientClasses := by decide
            exact ⟨named, known.wellFormed.2⟩
      · cases client with
        | python globals self => exact known.ids
        | driver core => exact known.ids
  | rfc id ttc =>
      obtain ⟨client, found, rfl⟩ := Option.map_eq_some_iff.mp taken
      exact inv.place found true (fun _ => .linkRfc) rfl
  | ready id resetTracker =>
      obtain ⟨client, found, rfl⟩ := Option.map_eq_some_iff.mp taken
      exact inv.place found resetTracker (fun _ => .query) rfl
  | deliver k =>
      obtain ⟨mail, found, rfl⟩ := Option.map_eq_some_iff.mp taken
      exact inv.deliver found inRange
  | lose k =>
      simp only [Link.step, Option.ite_none_right_eq_some,
        Option.some.injEq] at taken
      obtain ⟨-, rfl⟩ := taken
      exact inv.lose k

end Step

end FameZ.Link
