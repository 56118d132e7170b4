/-
Module: FameZ.Link.Completion
Purpose: An undisturbed handshake of a driver runs to its end and leaves
  nothing behind but the next tag.
Trusted boundary: none
Main exports: Reaches, Idle, Offered, Asked, handshake, handshakes_complete
-/
import FameZ.Link.Invariant
import Mathlib.Data.Nat.Digits.Defs

namespace FameZ.Link

open PyText
open Scanf (decimal)

/-! ### Lengths -/

/-- Ten digits are enough for every number of the handshakes below. -/
theorem length_decimalInt {value : Int} (low : 0 ≤ value)
    (high : value < 10 ^ 10) : (decimalInt value).length ≤ 10 := by
  obtain ⟨n, rfl⟩ := Int.eq_ofNat_of_zero_le low
  exact Nat.toDigits_length 10 n 10 (by decide) (by exact_mod_cast high)

theorem length_trackerText {tracker : Int} (low : 0 ≤ tracker)
    (high : tracker < 10 ^ 10) :
    (trackerText (some tracker)).length ≤ 15 := by
  have digits := length_decimalInt low high
  have token : trackerToken.length = 5 := rfl
  rw [trackerText, List.length_append, token]
  omega

theorem fits_ctlWrite {pfmsid pfmcid sid cid tracker : Int} {tag : Nat}
    (numbers : ∀ value ∈ [pfmsid, pfmcid, sid, cid, (tag : Int), tracker],
      0 ≤ value ∧ value < 10 ^ 10) :
    FitsSlot ((Msg.ctlWrite pfmsid pfmcid sid cid tag).render
      (some tracker)) := by
  simp only [List.forall_mem_cons, List.not_mem_nil, false_imp_iff,
    implies_true, and_true] at numbers
  obtain ⟨first, second, third, fourth, fifth, sixth⟩ := numbers
  have ascii := ascii_append (ascii_ctlWrite pfmsid pfmcid sid cid tag)
    (ascii_trackerText (some tracker))
  have last := length_trackerText sixth.1 sixth.2
  have firstDigits := length_decimalInt first.1 first.2
  have secondDigits := length_decimalInt second.1 second.2
  have thirdDigits := length_decimalInt third.1 third.2
  have fourthDigits := length_decimalInt fourth.1 fourth.2
  have fifthDigits : (decimal tag).length ≤ 10 :=
    length_decimalInt fifth.1 fifth.2
  rw [FitsSlot, render_eq_append, byteLength_of_ascii ascii,
    List.length_append, payload_eq_intercalate]
  simp [Msg.items, List.intercalate, msMaxMsglen]
  omega

theorem fits_peerAttribute {tracker : Int} (low : 0 ≤ tracker)
    (high : tracker < 10 ^ 10) :
    FitsSlot (Msg.peerAttribute.render (some tracker)) := by
  have ascii := ascii_append (show Ascii Msg.peerAttribute.payload by decide)
    (ascii_trackerText (some tracker))
  have last := length_trackerText low high
  have payload : Msg.peerAttribute.payload.length = 23 := rfl
  rw [FitsSlot, render_eq_append, byteLength_of_ascii ascii,
    List.length_append, payload, msMaxMsglen]
  omega

/-! ### Stages of a handshake -/

/-- Some state that satisfies the property is where these labels lead. -/
def Reaches (config : Config) (s : State) (labels : List Label)
    (property : State → Prop) : Prop :=
  ∃ t, Transition.run (step config) s labels = some t ∧ property t

theorem Reaches.trans {config : Config} {s : State}
    {first second : List Label} {middle property : State → Prop}
    (reaches : Reaches config s first middle)
    (next : ∀ t, middle t → Reaches config t second property) :
    Reaches config s (first ++ second) property := by
  obtain ⟨t, ran, holds⟩ := reaches
  obtain ⟨u, ranNext, holdsNext⟩ := next t holds
  refine ⟨u, ?_, holdsNext⟩
  rw [Transition.run_append, ran]
  exact ranNext

theorem Reaches.of_step {config : Config} {s t : State} {label : Label}
    {property : State → Prop} (taken : step config s label = some t)
    (holds : property t) : Reaches config s [label] property := by
  refine ⟨t, ?_, holds⟩
  rw [Transition.run_cons, taken]
  rfl

/-- A driver and its proxy, with so many tags used and such a tracker. -/
structure Linked (id nextTag : Nat) (tracker : Int) (s : State) : Prop where
  proxy : ∃ proxy, s.proxies.get? id = some proxy ∧
    proxy.sid0 = Server.defaultSid ∧ proxy.cid0 = (id : Int) * 100
  driver : ∃ core, s.client id = some (.driver core) ∧
    core.baseCClassStr = "FAME-Z Adapter".toList ∧
    core.sid0.toNat < 2 ^ 31 ∧ core.cid0.toNat < 2 ^ 31
  nextTag : s.globals.nextTag = nextTag
  tracker : s.globals.tracker = tracker

/-- The server asked the driver for its attributes. -/
structure Asked (id nextTag : Nat) (s : State) : Prop where
  linked : Linked id nextTag (2 * nextTag - 1) s
  network : s.network =
    [toClient id (Msg.peerAttribute.render (some (2 * nextTag - 1)))]

/-- Nothing is in flight. -/
structure Idle (id nextTag : Nat) (s : State) : Prop where
  linked : Linked id nextTag (2 * nextTag - 1) s
  network : s.network = []

/-- The server answered a Link RFC. -/
structure Offered (config : Config) (id tag : Nat) (s : State) : Prop where
  linked : Linked id (tag + 1) (2 * tag) s
  network : s.network =
    [toClient id
      ((Msg.ctlWrite Server.defaultSid (config.serverId * 100)
        Server.defaultSid ((id : Int) * 100) tag).render
        (some (2 * tag)))]
  entry : ∃ head, '|' ∉ head ∧
    s.globals.tagged.get? (decimal tag) = some (head ++ '|' :: afterAck)

section Stages

variable {config : Config} {id tag : Nat} {s : State}

/-- The one message in flight reaches its client. -/
theorem step_only_client (config : Config) {text : Text} {client : Client}
    (network : s.network = [toClient id text])
    (holds : s.client id = some client) :
    step config s (.deliver 0) =
      some (State.settle { s with network := [] } id
        (client.take config text)) := by
  rw [step, network]
  change some (receive config id text
    { s with network := s.network.eraseIdx 0 }) = _
  rw [network, receive]
  dsimp only [List.eraseIdx]
  rw [holds]

theorem step_only_server (config : Config) {text : Text} {client : Client}
    (network : s.network = [toServer id client text]) :
    step config s (.deliver 0) =
      some (serve config id text { s with network := [] }) := by
  rw [step, network]
  change some (serve config id text
    { s with network := s.network.eraseIdx 0 }) = _
  rw [network]
  rfl

/-- The driver answers, and the server notes what it says. -/
theorem Asked.answer (asked : Asked id tag s) :
    Reaches config s [.deliver 0, .deliver 0] (Idle id tag) := by
  obtain ⟨core, holds, named, sid0, cid0⟩ := asked.linked.driver
  obtain ⟨proxy, live, proxyIds⟩ := asked.linked.proxy
  have plain : (Msg.ack core.baseCClassStr core.sid0.toNat
      core.cid0.toNat).Plain := by
    rw [named]
    exact ⟨by decide, by decide⟩
  have asks := step_only_client config asked.network holds
  rw [take_driver_peerAttribute config sid0 cid0] at asks
  apply Reaches.trans (Reaches.of_step asks rfl)
  intro t same
  subst same
  have answers := step_only_server config
    (s := State.settle { s with network := [] } id (.driver core,
      [(Msg.ack core.baseCClassStr core.sid0.toNat
        core.cid0.toNat).render none])) rfl
  obtain ⟨followed, attrs, nextTag, -, tracker, served, -⟩ :=
    serve_ack config (s := { State.settle { s with network := [] } id
      (.driver core, [(Msg.ack core.baseCClassStr core.sid0.toNat
        core.cid0.toNat).render none]) with network := [] })
      live plain none
  rw [served] at answers
  refine Reaches.of_step answers ⟨⟨⟨_, OrderedDict.get?_set_self .., proxyIds⟩,
    ⟨core, Function.update_self .., named, sid0, cid0⟩, ?_, ?_⟩, rfl⟩
  · exact nextTag.trans asked.linked.nextTag
  · have before := asked.linked.tracker
    have after : followed.tracker + 1 = s.globals.tracker + 1 := tracker
    change followed.tracker = _
    omega

/-- The driver asks for its ids, and the server offers them. -/
theorem Idle.offer (idle : Idle id tag s) (positive : 1 ≤ tag)
    (ids : id ≤ config.nClients) (small : tag ≤ 2 ^ 31) :
    Reaches config s [.rfc id 27, .deliver 0] (Offered config id tag) := by
  obtain ⟨core, holds, driver⟩ := idle.linked.driver
  obtain ⟨proxy, live, proxySid0, proxyCid0⟩ := idle.linked.proxy
  have asks : step config s (.rfc id 27) =
      some (State.settle { s with network := [] } id
        (.driver core, [(Msg.linkRfc 27).render none])) := by
    rw [step, holds]
    change some (s.settle id (.driver core, [(Msg.linkRfc 27).payload])) = _
    rw [State.settle, idle.network]
    rfl
  apply Reaches.trans (Reaches.of_step asks rfl)
  intro t same
  subst same
  have offers := step_only_server config
    (s := State.settle { s with network := [] } id
      (.driver core, [(Msg.linkRfc 27).render none])) rfl
  obtain ⟨head, plain, served⟩ := serve_linkRfc config
    (s := { State.settle { s with network := [] } id
      (.driver core, [(Msg.linkRfc 27).render none]) with network := [] })
    live 27 none
  have tracker : s.globals.answerTracker none = 2 * tag := by
    rw [Globals.answerTracker, idle.linked.tracker]
    omega
  have fits : FitsSlot ((Msg.ctlWrite Server.defaultSid
      (config.serverId * 100) Server.defaultSid ((id : Int) * 100)
      tag).render (some (2 * tag))) := by
    have bound := config.fits
    have server : config.serverId = config.nClients + 1 := rfl
    have sid : Server.defaultSid = 27 := rfl
    apply fits_ctlWrite
    simp only [List.forall_mem_cons, List.not_mem_nil, false_imp_iff,
      implies_true, and_true]
    omega
  rw [served] at offers
  refine Reaches.of_step offers ⟨⟨⟨proxy, OrderedDict.get?_set_self ..,
    proxySid0, proxyCid0⟩, ⟨core, Function.update_self .., driver⟩, ?_, ?_⟩,
    ?_, ⟨head, plain, ?_⟩⟩
  · exact congrArg (· + 1) idle.linked.nextTag
  · exact tracker
  · change [] ++ (fitting ((Msg.ctlWrite Server.defaultSid
      (config.serverId * 100) proxy.sid0 proxy.cid0
      s.globals.nextTag).render (some (s.globals.answerTracker none)))).map
      (toClient id) = _
    rw [proxySid0, proxyCid0, idle.linked.nextTag, tracker,
      fitting_of_fits fits]
    rfl
  · change (s.globals.tagged.set (decimal s.globals.nextTag)
      (head ++ '|' :: afterAck)).get? (decimal tag) = _
    rw [idle.linked.nextTag]
    exact OrderedDict.get?_set_self ..

/-- The driver echoes a tag in range, and the server asks for its
attributes. -/
theorem Offered.acknowledge (offered : Offered config id tag s)
    (ids : id ≤ config.nClients) (small : tag < 2 ^ 31) :
    Reaches config s [.deliver 0, .deliver 0] (Asked id (tag + 1)) := by
  obtain ⟨core, holds, named, -⟩ := offered.linked.driver
  obtain ⟨proxy, live, proxyIds⟩ := offered.linked.proxy
  obtain ⟨head, plain, entry⟩ := offered.entry
  have takes := step_only_client config offered.network holds
  rw [take_assigned, driverAck_of_lt small] at takes
  apply Reaches.trans (Reaches.of_step takes rfl)
  intro t same
  subst same
  have acks := step_only_server config
    (s := State.settle { s with network := [] } id
      (.driver (assignedCore config id core),
        [(Msg.standaloneAck tag).render none])) rfl
  rw [serve_standaloneAck config
    (s := { State.settle { s with network := [] } id
      (.driver (assignedCore config id core),
        [(Msg.standaloneAck tag).render none]) with network := [] })
    live plain entry none] at acks
  have tracker : s.globals.answerTracker none = 2 * (tag + 1 : Nat) - 1 := by
    rw [Globals.answerTracker, offered.linked.tracker]
    omega
  have fits : FitsSlot (Msg.peerAttribute.render
      (some (2 * (tag + 1 : Nat) - 1))) :=
    fits_peerAttribute (by omega) (by omega)
  refine Reaches.of_step acks ⟨⟨⟨proxy, OrderedDict.get?_set_self ..,
    proxyIds⟩, ⟨assignedCore config id core, Function.update_self .., named,
    ?_, ?_⟩, offered.linked.nextTag, tracker⟩, ?_⟩
  · change (UInt32.ofNat 27).toNat < 2 ^ 31
    decide
  · change (UInt32.ofNat (id * 100)).toNat < 2 ^ 31
    have bound := config.fits
    rw [UInt32.toNat_ofNat', Nat.mod_eq_of_lt (by omega)]
    omega
  · change [] ++ (fitting (Msg.peerAttribute.render
      (some (s.globals.answerTracker none)))).map (toClient id) = _
    rw [tracker, fitting_of_fits fits]
    rfl

end Stages

/-! ### Handshakes without an end -/

/-- One undisturbed handshake. -/
def handshake (id : Nat) : List Label :=
  [.deliver 0, .deliver 0] ++ ([.rfc id 27, .deliver 0] ++
    [.deliver 0, .deliver 0])

def handshakes (id : Nat) : Nat → List Label
  | 0 => []
  | n + 1 => handshakes id n ++ handshake id

/-- Every handshake uses one tag. -/
theorem handshakes_complete {config : Config} {id : Nat} {s : State}
    (ids : id ≤ config.nClients) (asked : Asked id 1 s) (n : Nat)
    (small : n < 2 ^ 31) :
    Reaches config s (handshakes id n) (Asked id (n + 1)) := by
  induction n with
  | zero => exact ⟨s, rfl, asked⟩
  | succ n inductionHypothesis =>
      apply (inductionHypothesis (by omega)).trans
      intro t askedAgain
      apply askedAgain.answer.trans
      intro u idle
      apply (idle.offer (by omega) ids (by omega)).trans
      intro v offered
      exact offered.acknowledge ids (by omega)

end FameZ.Link
