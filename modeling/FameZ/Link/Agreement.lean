/-
Module: FameZ.Link.Agreement
Purpose: When every client agrees with its proxy about its ids, every
  acknowledgment frees its tag and every client learns an id of its own.
Trusted boundary: none
Main exports: Agrees, agreement_iff_inRange, last_tag_disagrees
-/
import FameZ.Link.Completion

namespace FameZ.Link

open PyText
open Scanf (decimal formatInt)

/-- What the handshake establishes, read at one step. -/
structure Agrees (s : State) (label : Label) (t : State) : Prop where
  configures : ∀ k id pfmsid pfmcid sid cid tag tracker configured proxy,
    label = .deliver k →
    s.network[k]? = some
      { side := .client, id := id,
        text := (Msg.ctlWrite pfmsid pfmcid sid cid tag).render tracker,
        configured := configured } →
    s.proxies.get? id = some proxy →
    ∃ client answer, t.client id = some client ∧
      client.configured = true ∧ client.sid0 = proxy.sid0 ∧
      client.cid0 = proxy.cid0 ∧
      t.network = s.network.eraseIdx k ++
        [toServer id client ((Msg.standaloneAck tag).render answer)]
  untags : ∀ k id tag tracker configured proxy,
    label = .deliver k →
    s.network[k]? = some
      { side := .server, id := id,
        text := (Msg.standaloneAck tag).render tracker,
        configured := configured } →
    s.proxies.get? id = some proxy →
    (s.globals.tagged.get? (decimal tag)).isSome ∧
      t.globals.tagged = s.globals.tagged.del (decimal tag) ∧
      ∃ request, t.network = s.network.eraseIdx k ++
        [toClient id (Msg.peerAttribute.render (some request))]
  attributes : ∀ k id sid0 cid0 tracker proxy,
    label = .deliver k →
    s.network[k]? = some
      { side := .server, id := id,
        text := (Msg.ack "Debugger".toList sid0 cid0).render tracker,
        configured := true } →
    s.proxies.get? id = some proxy →
    ∃ after, t.proxies.get? id = some after ∧
      after.peerattrs =
        ackAttrs "Debugger".toList proxy.sid0 proxy.cid0
  keeps : ∀ (id : Nat) client proxy, t.client id = some client →
    t.proxies.get? id = some proxy → client.configured = true →
    client.sid0 = proxy.sid0 ∧ client.cid0 = proxy.cid0
  proxiesDiffer : ∀ i j proxy other, i ≠ j →
    t.proxies.get? i = some proxy → t.proxies.get? j = some other →
    proxy.cid0 ≠ other.cid0
  clientsDiffer : ∀ i j client other, i ≠ j →
    t.client i = some client → t.client j = some other →
    client.configured = true → other.configured = true →
    client.cid0 ≠ other.cid0

section Step

variable {config : Config} {s t : State} {label : Label}

/-! ### The handshake agrees -/

/-- A text in flight is the message of a party. -/
theorem Inv.message (inv : Inv config s) {k : Nat} {mail : Mail} {msg : Msg}
    {tracker : Option Int} (found : s.network[k]? = some mail)
    (text : mail.text = msg.render tracker) (plain : msg.Plain) :
    Honest config mail.side mail.id msg mail.configured ∧
      ∀ tag, msg.tag? = some tag → ∃ head, '|' ∉ head ∧
        s.globals.tagged.get? (decimal tag) =
          some (head ++ '|' :: afterAck) := by
  obtain ⟨item, rest, rfl, -, flight⟩ := inv.pull found
  have honest := flight.honest item (List.mem_cons_self ..)
  have same : item.msg = msg := render_injective honest.plain plain text
  refine ⟨same ▸ honest, fun tag carries => ?_⟩
  exact flight.tags.entry item (List.mem_cons_self ..) tag
    (by rw [Item.tag?, same]; exact carries)

/-- The first clause: the client that takes a CTL-Write. -/
theorem Inv.configures (inv : Inv config s) (inRange : InRange s label)
    (taken : Link.step config s label = some t) :
    ∀ k id pfmsid pfmcid sid cid tag tracker configured proxy,
      label = .deliver k →
      s.network[k]? = some
        { side := .client, id := id,
          text := (Msg.ctlWrite pfmsid pfmcid sid cid tag).render tracker,
          configured := configured } →
      s.proxies.get? id = some proxy →
      ∃ client answer, t.client id = some client ∧
        client.configured = true ∧ client.sid0 = proxy.sid0 ∧
        client.cid0 = proxy.cid0 ∧
        t.network = s.network.eraseIdx k ++
          [toServer id client ((Msg.standaloneAck tag).render answer)] := by
  rintro k id pfmsid pfmcid sid cid tag tracker configured proxy rfl found
    live
  obtain ⟨honest, -⟩ := inv.message found rfl trivial
  obtain ⟨sid0, cid0⟩ := inv.peers.proxy id proxy live
  obtain ⟨client, holds⟩ := inv.peers.client_of_proxy live
  have known := inv.peers.known id client holds
  have result := deliver_client holds found taken
  dsimp only at honest
  rw [sid0, cid0]
  cases client with
  | python globals self =>
      obtain ⟨state, linked⟩ := known.wellFormed
      have fits := inRange.ackFits k id pfmsid pfmcid sid cid tag tracker
        configured globals self rfl found holds
      rw [take_ctlWrite config globals linked, fitting_of_fits fits] at result
      cases honest
      subst result
      exact ⟨_, _, Function.update_self .., rfl, rfl, rfl, rfl⟩
  | driver core =>
      have small := inRange.driverTag k id pfmsid pfmcid sid cid tag tracker
        configured core rfl found holds
      cases honest
      rw [take_assigned, driverAck_of_lt small] at result
      subst result
      obtain ⟨sidRead, cidRead⟩ := known.assigned.ids rfl
      exact ⟨_, none, Function.update_self .., rfl, sidRead, cidRead, rfl⟩

/-- The second clause: the server that takes an acknowledgment. -/
theorem Inv.untags (inv : Inv config s) (inRange : InRange s label)
    (taken : Link.step config s label = some t) :
    ∀ k id tag tracker configured proxy,
      label = .deliver k →
      s.network[k]? = some
        { side := .server, id := id,
          text := (Msg.standaloneAck tag).render tracker,
          configured := configured } →
      s.proxies.get? id = some proxy →
      (s.globals.tagged.get? (decimal tag)).isSome ∧
        t.globals.tagged = s.globals.tagged.del (decimal tag) ∧
        ∃ request, t.network = s.network.eraseIdx k ++
          [toClient id (Msg.peerAttribute.render (some request))] := by
  rintro k id tag tracker configured proxy rfl found live
  obtain ⟨-, entries⟩ := inv.message found rfl trivial
  obtain ⟨head, plain, entry⟩ := entries tag rfl
  have fits := inRange.requestFits k id tag tracker configured proxy rfl found
    live
  have kept : (s.without k).proxies.get? (id : Int) = some proxy := live
  have keptEntry : (s.without k).globals.tagged.get? (decimal tag) =
      some (head ++ '|' :: afterAck) := entry
  have result := deliver_server found taken
  rw [serve_standaloneAck config kept plain keptEntry] at result
  subst result
  refine ⟨by rw [entry]; rfl, rfl, s.globals.answerTracker tracker, ?_⟩
  have request : fitting (Msg.peerAttribute.render
      (some ((s.without k).globals.answerTracker tracker))) =
      [Msg.peerAttribute.render
        (some ((s.without k).globals.answerTracker tracker))] :=
    fitting_of_fits fits
  dsimp only
  rw [request]
  rfl

/-- The third clause: the server that takes the attributes. -/
theorem Inv.attributes (inv : Inv config s)
    (taken : Link.step config s label = some t) :
    ∀ k id sid0 cid0 tracker proxy,
      label = .deliver k →
      s.network[k]? = some
        { side := .server, id := id,
          text := (Msg.ack "Debugger".toList sid0 cid0).render tracker,
          configured := true } →
      s.proxies.get? id = some proxy →
      ∃ after, t.proxies.get? id = some after ∧
        after.peerattrs =
          ackAttrs "Debugger".toList proxy.sid0 proxy.cid0 := by
  rintro k id sid0 cid0 tracker proxy rfl found live
  have plain : (Msg.ack "Debugger".toList sid0 cid0).Plain :=
    ⟨by decide, by decide⟩
  obtain ⟨honest, -⟩ := inv.message found rfl plain
  obtain ⟨proxySid0, proxyCid0⟩ := inv.peers.proxy id proxy live
  have kept : (s.without k).proxies.get? (id : Int) = some proxy := live
  obtain ⟨followed, attrs, -, -, -, served, asSent⟩ :=
    serve_ack config kept plain tracker
  have result := deliver_server found taken
  rw [served] at result
  subst result
  refine ⟨_, OrderedDict.get?_set_self _ _ _, ?_⟩
  dsimp only at honest ⊢
  rw [asSent (by decide), proxySid0, proxyCid0]
  cases honest with
  | answer known ids => rw [(ids rfl).1, (ids rfl).2]

theorem Inv.agrees (inv : Inv config s) (inRange : InRange s label)
    (taken : Link.step config s label = some t) : Agrees s label t := by
  have peers := (inv.step inRange taken).peers
  refine ⟨inv.configures inRange taken, inv.untags inRange taken,
    inv.attributes taken, ?_, ?_, ?_⟩
  · intro id client proxy holds live marked
    obtain ⟨sid0, cid0⟩ := (peers.known id client holds).ids marked
    obtain ⟨proxySid0, proxyCid0⟩ := peers.proxy id proxy live
    exact ⟨sid0.trans proxySid0.symm, cid0.trans proxyCid0.symm⟩
  · intro i j proxy other differ live liveOther same
    rw [(peers.proxy i proxy live).2, (peers.proxy j other liveOther).2]
      at same
    omega
  · intro i j client other differ holds holdsOther marked markedOther same
    rw [((peers.known i client holds).ids marked).2,
      ((peers.known j other holdsOther).ids markedOther).2] at same
    omega

/-! ### Out of range it does not -/

theorem formatInt_eq (value : UInt32) :
    formatInt value = decimalInt (signed value) := by
  have bound := value.toNat_lt
  rw [formatInt, signed]
  split
  · rfl
  · have negative : (value.toNat : Int) - 2 ^ 32 =
        Int.negSucc (2 ^ 32 - value.toNat - 1) := by
      omega
    rw [negative, decimalInt]
    congr 2
    omega

/-- A driver echoes the tag of the server only if that is in range. -/
theorem lt_of_driverAck {value : UInt32} {tag : Nat} {answer : Option Int}
    (same : driverAck value = (Msg.standaloneAck tag).render answer) :
    tag < 2 ^ 31 := by
  have absent : ∀ number : Int, ',' ∉
      "Standalone Acknowledgment Tag=".toList ++ decimalInt number :=
    fun number => not_mem_field number (by decide) (by decide) (by decide)
  have first : driverAck value =
      ("Standalone Acknowledgment Tag=".toList ++
        decimalInt (signed value)) ++ ',' :: "Reason=OK".toList := by
    rw [← formatInt_eq]
    rfl
  have second : (Msg.standaloneAck tag).render answer =
      ("Standalone Acknowledgment Tag=".toList ++ decimalInt tag) ++
        ',' :: ("Reason=OK".toList ++ trackerText answer) := by
    rw [render_eq_append]
    unfold Msg.payload
    rw [List.append_assoc]
    rfl
  have parts := congrArg (List.splitOn ',') same
  rw [first, second, List.splitOn_append_cons_self_of_not_mem (absent _),
    List.splitOn_append_cons_self_of_not_mem (absent _)] at parts
  have number := List.append_cancel_left (List.cons.inj parts).1
  have equal := decimalInt_injective number
  have bound := value.toNat_lt
  rw [signed] at equal
  split at equal
  · omega
  · omega

theorem fits_of_fitting {text : Text} {before : List Mail} {mail : Mail}
    {f : Text → Mail}
    (sent : before ++ (fitting text).map f = before ++ [mail]) :
    FitsSlot text := by
  by_contra long
  have nothing : fitting text = [] := if_neg long
  rw [nothing] at sent
  exact absurd (List.append_cancel_left sent) (List.cons_ne_nil _ _).symm

/-- A step that agrees met the condition. -/
theorem Inv.inRange (inv : Inv config s)
    (taken : Link.step config s label = some t) (agrees : Agrees s label t) :
    InRange s label := by
  refine ⟨?_, ?_, ?_⟩
  · rintro k id pfmsid pfmcid sid cid tag tracker configured core rfl found
      holds
    obtain ⟨proxy, live⟩ := inv.peers.proxy_of_client holds
    obtain ⟨honest, -⟩ := inv.message found rfl trivial
    obtain ⟨client, answer, -, -, -, -, posted⟩ := agrees.configures k id
      pfmsid pfmcid sid cid tag tracker configured proxy rfl found live
    have result := deliver_client holds found taken
    dsimp only at honest
    cases honest
    rw [take_assigned] at result
    rw [result] at posted
    have mails := List.append_cancel_left posted
    exact lt_of_driverAck (congrArg Mail.text (List.cons.inj mails).1)
  · rintro k id pfmsid pfmcid sid cid tag tracker configured globals self rfl
      found holds
    obtain ⟨proxy, live⟩ := inv.peers.proxy_of_client holds
    obtain ⟨state, linked⟩ := (inv.peers.known id _ holds).wellFormed
    obtain ⟨client, answer, -, -, -, -, posted⟩ := agrees.configures k id
      pfmsid pfmcid sid cid tag tracker configured proxy rfl found live
    have result := deliver_client holds found taken
    rw [take_ctlWrite config globals linked] at result
    rw [result] at posted
    exact fits_of_fitting posted
  · rintro k id tag tracker configured proxy rfl found live
    obtain ⟨-, entries⟩ := inv.message found rfl trivial
    obtain ⟨head, plain, entry⟩ := entries tag rfl
    have kept : (s.without k).proxies.get? (id : Int) = some proxy := live
    have keptEntry : (s.without k).globals.tagged.get? (decimal tag) =
        some (head ++ '|' :: afterAck) := entry
    obtain ⟨-, -, request, posted⟩ := agrees.untags k id tag tracker
      configured proxy rfl found live
    have result := deliver_server found taken
    rw [serve_standaloneAck config kept plain keptEntry] at result
    rw [result] at posted
    exact fits_of_fitting posted

end Step

/-! ### Whole runs -/

theorem inv_initial (config : Config) : Inv config initial := by
  have peers : Peers config initial.proxies initial.client := by
    refine ⟨fun id proxy holds => ?_, fun id client holds => ?_, fun _ => rfl⟩
    · cases holds
    · cases holds
  have flight : Flight config initial.globals [] :=
    ⟨fun _ member => (by cases member), TagsKept.nil _⟩
  exact ⟨peers, [], rfl, flight⟩

/-- The handshakes of a run agree exactly when each of its steps is in
range. -/
theorem agreement_iff_inRange (config : Config) (trace : List Label) :
    Transition.Along (step config) Agrees initial trace ↔
      Transition.Meets (step config) InRange initial trace := by
  have kept : ∀ s label t, Inv config s → InRange s label →
      step config s label = some t → Inv config t ∧ Agrees s label t :=
    fun _ _ _ inv inRange taken =>
      ⟨inv.step inRange taken, inv.agrees inRange taken⟩
  have broken : ∀ s label t, Inv config s → ¬ InRange s label →
      step config s label = some t → ¬ Agrees s label t :=
    fun _ _ _ inv outOfRange taken agrees =>
      outOfRange (inv.inRange taken agrees)
  exact Transition.along_iff_meets kept broken (inv_initial config)

/-! ### The tag that a driver cannot echo -/

/-- A server with room for one client. -/
def oneClient : Config :=
  { nClients := 1, recycle := false, fits := by decide }

theorem oneClient_asked :
    Reaches oneClient initial [.connect 0 true] (Asked 1 1) := by
  have taken : step oneClient initial (.connect 0 true) = some
      { globals := { initialGlobals with tracker := 1 }
        proxies := initial.proxies.set 1 (newProxy 1)
        client := Function.update initial.client 1 (some newDriver)
        network := [toClient 1 (Msg.peerAttribute.render (some 1))] } := by
    rfl
  have driver : Function.update initial.client 1 (some newDriver) 1 =
      some (.driver Kernel.initialCore) := Function.update_self ..
  have proxy : (initial.proxies.set 1 (newProxy 1)).get? (1 : Nat) =
      some (newProxy 1) := OrderedDict.get?_set_self ..
  refine Reaches.of_step taken ⟨⟨⟨_, proxy, rfl, rfl⟩,
    ⟨_, driver, rfl, by decide, by decide⟩, rfl, rfl⟩, rfl⟩

/-- A driver that is offered a tag of 2^31 or more does not echo it. -/
theorem Offered.disagrees {config : Config} {id tag : Nat} {s : State}
    (offered : Offered config id tag s) (large : 2 ^ 31 ≤ tag) :
    ∃ t, step config s (.deliver 0) = some t ∧
      ¬ Agrees s (.deliver 0) t := by
  obtain ⟨core, holds, -⟩ := offered.linked.driver
  obtain ⟨proxy, live, -⟩ := offered.linked.proxy
  have takes := step_only_client config offered.network holds
  rw [take_assigned] at takes
  refine ⟨_, takes, fun agrees => ?_⟩
  have found : s.network[0]? = some
      { side := .client, id := id,
        text := (Msg.ctlWrite Server.defaultSid (config.serverId * 100)
          Server.defaultSid ((id : Int) * 100) tag).render (some (2 * tag)),
        configured := false } := by
    rw [offered.network]
    rfl
  obtain ⟨client, answer, -, -, -, -, posted⟩ := agrees.configures 0 id _ _ _
    _ tag _ _ proxy rfl found live
  rw [offered.network] at posted
  have same := congrArg Mail.text (List.cons.inj posted).1
  have small := lt_of_driverAck same
  omega

/-- Handshakes without end reach the tag that breaks the agreement. -/
theorem last_tag_disagrees :
    ¬ Transition.Along (step oneClient) Agrees initial
      ((([.connect 0 true] ++ handshakes 1 (2 ^ 31 - 1)) ++
        ([.deliver 0, .deliver 0] ++ [.rfc 1 27, .deliver 0])) ++
        [.deliver 0]) := by
  intro along
  have reaches : Reaches oneClient initial
      (([.connect 0 true] ++ handshakes 1 (2 ^ 31 - 1)) ++
        ([.deliver 0, .deliver 0] ++ [.rfc 1 27, .deliver 0]))
      (Offered oneClient 1 (2 ^ 31)) := by
    apply (oneClient_asked.trans fun t asked =>
      handshakes_complete (by decide) asked (2 ^ 31 - 1) (by omega)).trans
    intro t asked
    have again : Asked 1 (2 ^ 31) t := asked
    exact again.answer.trans fun u idle =>
      idle.offer (by omega) (by decide) (by omega)
  obtain ⟨s, ran, offered⟩ := reaches
  obtain ⟨t, taken, disagrees⟩ := offered.disagrees (Nat.le_refl _)
  exact disagrees (Transition.along_last along ran taken)

end FameZ.Link
