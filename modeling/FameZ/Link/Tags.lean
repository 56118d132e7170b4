/-
Module: FameZ.Link.Tags
Purpose: The tags of the server under any requests from any clients: who is
  issued a tag, who retires it and who is sent the request that follows.
Trusted boundary: none
Main exports: Effect, handleRequest_effect, Tags.State, Tags.State.step,
  Ledger, Lawful, Authentic, step_moves, lawful_iff_authentic
-/
import FameZ.Lib.Transition
import FameZ.Link.Messages
import Mathlib.Data.List.Forall2

namespace FameZ.Link

open PyText
open Scanf (decimal)

/-! ### What any request can do to the tags -/

/-- The text is a Peer-Attribute request, which follows an acknowledgment. -/
def asksAttributes (text : Text) : Bool :=
  Msg.peerAttribute.payload.isPrefixOf text

/-- The tag text that a request acknowledges. -/
def acknowledgedTag (payload : Text) : Option Text :=
  match chelsea (fields payload) with
  | (.standaloneAcknowledgment, arg :: _) => (csv2dict arg).get? "Tag".toList
  | _ => none

/-- The handler left the tags alone and asked nobody for attributes. -/
structure Aside (env after : Env) : Prop where
  nextTag : after.globals.nextTag = env.globals.nextTag
  tagged : after.globals.tagged = env.globals.tagged
  sent : ∃ texts, after.sent = env.sent ++ texts ∧
    ∀ text ∈ texts, asksAttributes text = false

/-- What any request does to the tags. -/
inductive Effect (env : Env) (key? : Option Text) (after : Env) : Prop where
  | aside (same : Aside env after)
      (none : ∀ key, key? = some key → env.globals.tagged.get? key = none)
  | issue (head : Text) (plain : '|' ∉ head) (silent : key? = none)
      (nextTag : after.globals.nextTag = env.globals.nextTag + 1)
      (tagged : after.globals.tagged = env.globals.tagged.set
        (decimal env.globals.nextTag) (head ++ '|' :: afterAck))
      (sent : ∃ texts, after.sent = env.sent ++ texts ∧
        ∀ text ∈ texts, asksAttributes text = false)
  | retire (key : Text) (named : key? = some key)
      (outstanding : env.globals.tagged.get? key ≠ Option.none)
      (nextTag : after.globals.nextTag = env.globals.nextTag)
      (tagged : after.globals.tagged = env.globals.tagged.del key)
      (sent : after.sent = env.sent ++ fitting (Msg.peerAttribute.render
        (some (env.globals.tracker + 1))))

theorem Aside.refl (env : Env) : Aside env env :=
  ⟨rfl, rfl, [], (List.append_nil _).symm, fun _ member => (by cases member)⟩

theorem mem_fitting {text other : Text} (member : other ∈ fitting text) :
    other = text := by
  unfold fitting at member
  split at member
  · exact List.mem_singleton.mp member
  · cases member

/-- A response that is no Peer-Attribute request. -/
theorem aside_post {response : Text} (resetTracker : Bool) {env before : Env}
    (aside : Aside before env)
    (other : ∀ tracker, asksAttributes (stamp response tracker) = false) :
    Aside before (post response resetTracker env).2 := by
  obtain ⟨texts, sent, quiet⟩ := aside.sent
  rw [post_eq]
  refine ⟨aside.nextTag, aside.tagged, texts ++ fitting (stamp response
    ((if resetTracker then 0 else env.globals.tracker) + 1)), ?_, ?_⟩
  · dsimp only
    rw [sent, List.append_assoc]
  · intro text member
    rcases List.mem_append.mp member with old | new
    · exact quiet text old
    · rw [mem_fitting new]
      exact other _

/-! ### Handler by handler -/

section Handlers

variable {env : Env}

theorem aside_ping (env : Env) : Aside env (ping env).2 :=
  aside_post false (Aside.refl env) fun _ => rfl

theorem aside_linkCtl (si : ServerInvariant) (args : List Text) (env : Env) :
    Aside env (linkCtl si args env).2 := by
  unfold linkCtl
  split
  · exact aside_post false (Aside.refl env) fun _ => rfl
  · split
    · split
      · exact ⟨rfl, rfl, (Aside.refl env).sent⟩
      · exact Aside.refl env
    · exact Aside.refl env

/-- A CTL-Write that reaches the server may set ids, but tags nothing. -/
theorem aside_ctlWrite (args : List Text) (env : Env) :
    Aside env (ctlWrite args env).2 := by
  have moved : ∀ self, Aside env { env with self := self } := fun _ =>
    ⟨rfl, rfl, (Aside.refl env).sent⟩
  unfold ctlWrite
  split
  · exact Aside.refl env
  · dsimp only
    split
    · exact Aside.refl env
    · split
      · exact Aside.refl env
      · split
        · exact Aside.refl env
        · split
          · exact moved _
          · split
            · exact moved _
            · split
              · exact moved _
              · exact aside_post false (moved _) fun _ => rfl

/-- A Link RFC that is answered issues the next tag. -/
theorem effect_linkRfc (si : ServerInvariant) (args : List Text) (env : Env) :
    Effect env none (linkRfc si args env).2 := by
  have aside : Effect env none env := .aside (Aside.refl env) nofun
  obtain ⟨head, plain, answer⟩ := sendPayload_ctlWrite si env
  have issues : Effect env none (post (Msg.ctlWrite si.serverSid0
      si.serverCid0 env.self.sid0 env.self.cid0
      env.globals.nextTag).payload false (env.tagging head)).2 := by
    rw [post_eq]
    refine .issue head plain rfl rfl rfl ⟨_, rfl, fun text member => ?_⟩
    rw [mem_fitting member]
    rfl
  unfold linkRfc
  split
  · split
    · exact aside
    · split
      · rw [answer]
        exact issues
      · exact aside
  · exact aside

/-- What the table holds under a tag. -/
def Tagged (tagged : Attrs) : Prop :=
  ∀ key entry, tagged.get? key = some entry →
    ∃ head, '|' ∉ head ∧ entry = head ++ '|' :: afterAck

/-- An acknowledgment retires the tag it names, if that is outstanding. -/
theorem effect_standaloneAcknowledgment (args : List Text) {env : Env}
    (tagged : Tagged env.globals.tagged) :
    Effect env
      (match args with
        | [] => none
        | arg :: _ => (csv2dict arg).get? "Tag".toList)
      (standaloneAcknowledgment args env).2 := by
  cases args with
  | nil => exact .aside (Aside.refl env) nofun
  | cons arg rest =>
      dsimp only
      cases named : (csv2dict arg).get? "Tag".toList with
      | none =>
          unfold standaloneAcknowledgment
          dsimp only
          rw [named]
          exact .aside (Aside.refl env) nofun
      | some key =>
          cases found : env.globals.tagged.get? key with
          | none =>
              unfold standaloneAcknowledgment
              dsimp only
              rw [named]
              dsimp only
              rw [found]
              refine .aside (Aside.refl env) fun other same => ?_
              cases same
              exact found
          | some entry =>
              obtain ⟨head, plain, rfl⟩ := tagged key entry found
              rw [standaloneAcknowledgment_of_tagged env rest named plain found,
                post_eq]
              refine .retire key rfl ?_ rfl rfl rfl
              rw [found]
              exact nofun

/-- Every request, whatever its text. -/
theorem dispatch_effect (si : ServerInvariant) (payload : Text) {env : Env}
    (tagged : Tagged env.globals.tagged) :
    Effect env (acknowledgedTag payload) (dispatch si payload env).2 := by
  unfold dispatch acknowledgedTag
  rcases chelsea (fields payload) with ⟨handler, args⟩
  cases handler with
  | unprocessed => exact .aside (Aside.refl env) nofun
  | notCallable => exact .aside (Aside.refl env) nofun
  | ctlWrite => exact .aside (aside_ctlWrite args env) nofun
  | linkCtl => exact .aside (aside_linkCtl si args env) nofun
  | ping => exact .aside (aside_ping env) nofun
  | linkRfc => exact effect_linkRfc si args env
  | standaloneAcknowledgment =>
      have effect := effect_standaloneAcknowledgment args tagged
      cases args with
      | nil => exact effect
      | cons arg rest => exact effect

end Handlers

/-- The tag text that a message acknowledges, if its tracker is a number. -/
def acknowledges (request : Text) : Option Text :=
  (requestPayload request).bind fun parsed => acknowledgedTag parsed.1

def trackerOf (request : Text) : Option Int :=
  (requestPayload request).bind Prod.snd

theorem handleRequest_effect (si : ServerInvariant) (request : Text)
    {env : Env} (tagged : Tagged env.globals.tagged) :
    Effect (env.follow (trackerOf request)) (acknowledges request)
      (handleRequest si request env).2 := by
  rw [handleRequest_eq, trackerOf, acknowledges]
  cases requestPayload request with
  | none => exact .aside (Aside.refl env) nofun
  | some parsed =>
      dsimp only [Option.bind_some]
      apply dispatch_effect
      obtain ⟨tracker, -, followed⟩ := follow_eq env parsed.2
      rw [followed]
      exact tagged

/-! ### The server and its clients -/

namespace Tags

/-- The globals of the server and its proxies.  `issued`, `retired` and
`requested` are history: the tags and the clients they went to, the tags whose
entry was deleted, and the clients that were asked for their attributes. -/
structure State where
  globals : Globals
  proxies : Nat → Option Responder
  issued : List (Nat × Nat)
  retired : List Nat
  requested : List Nat

/-- A message in the mailslot of a client, picked up by the server. -/
structure Request where
  id : Nat
  text : Text
deriving Repr, DecidableEq

namespace State

/-- The server right after it was started, with any clients. -/
def Initial (s : State) : Prop :=
  s.globals.nextTag = 1 ∧ s.globals.tagged = .empty ∧ s.issued = [] ∧
    s.retired = [] ∧ s.requested = []

/-- The tags that have an entry in one table and none in the other. -/
def gone (before after : Globals) : List Nat :=
  (List.range before.nextTag).filter fun tag =>
    (before.tagged.get? (decimal tag)).isSome &&
      (after.tagged.get? (decimal tag)).isNone

/-- What a request of a client leaves. -/
def after (s : State) (id : Nat) (env : Env) : State where
  globals := env.globals
  proxies other := if other = id then some env.self else s.proxies other
  issued := s.issued ++
    (List.range' s.globals.nextTag
      (env.globals.nextTag - s.globals.nextTag)).map (·, id)
  retired := s.retired ++ gone s.globals env.globals
  requested := s.requested ++ (env.sent.filter asksAttributes).map fun _ => id

/-- `ServerCallback`: a client that has gone is passed over. -/
def step (si : ServerInvariant) : Transition.Step State Request :=
  fun s request =>
    match s.proxies request.id with
    | none => some s
    | some self =>
        some (s.after request.id
          (handleRequest si request.text
            { globals := s.globals, self := self, sent := [] }).2)

/-- The tags that a client was issued, as texts. -/
def Owned (s : State) (id : Nat) (key : Text) : Prop :=
  ∃ tag, (tag, id) ∈ s.issued ∧ key = decimal tag

/-- The law of the tags over one request.  `asked` pairs every retired tag with
the one client that was asked for its attributes for it. -/
structure Lawful (s : State) (request : Request) (t : State) : Prop where
  issuedOnce : (t.issued.map Prod.fst).Nodup
  retiredOnce : t.retired.Nodup
  asked : List.Forall₂ (fun tag id => (tag, id) ∈ t.issued) t.retired
    t.requested
  owner : ∀ tag ∈ t.retired, tag ∉ s.retired → (tag, request.id) ∈ s.issued
  others : ∀ key, acknowledges request.text = some key →
    ¬ s.Owned request.id key → t.globals.tagged = s.globals.tagged

/-- An acknowledgment of an outstanding tag comes from the client that the tag
was issued to, under a tracker that leaves room for the answer. -/
def Authentic (s : State) (request : Request) : Prop :=
  ∀ key, s.proxies request.id ≠ none →
    acknowledges request.text = some key →
    s.globals.tagged.get? key ≠ none →
      s.Owned request.id key ∧
        FitsSlot (Msg.peerAttribute.render
          (some (s.globals.answerTracker (trackerOf request.text))))

/-! ### The ledger -/

/-- The table and the history agree, whoever acknowledged what. -/
structure Ledger (s : State) : Prop where
  positive : 1 ≤ s.globals.nextTag
  counting : s.issued.map Prod.fst = List.range' 1 (s.globals.nextTag - 1)
  keys : ∀ key entry, s.globals.tagged.get? key = some entry →
    ∃ tag, tag < s.globals.nextTag ∧ key = decimal tag
  tagged : Tagged s.globals.tagged
  retiredOnce : s.retired.Nodup
  retiredGone : ∀ tag ∈ s.retired, tag < s.globals.nextTag ∧
    s.globals.tagged.get? (decimal tag) = none

/-- The ledger, where only owners acknowledge. -/
structure Sound (s : State) : Prop extends Ledger s where
  asked : List.Forall₂ (fun tag id => (tag, id) ∈ s.issued) s.retired
    s.requested

/-- What one request does to the ledger. -/
inductive Moves (s : State) (request : Request) (t : State) : Prop where
  | aside (nextTag : t.globals.nextTag = s.globals.nextTag)
      (tagged : t.globals.tagged = s.globals.tagged)
      (issued : t.issued = s.issued) (retired : t.retired = s.retired)
      (requested : t.requested = s.requested)
      (unknown : ∀ key, s.proxies request.id ≠ none →
        acknowledges request.text = some key →
          s.globals.tagged.get? key = none)
  | issue (head : Text) (plain : '|' ∉ head)
      (silent : acknowledges request.text = none)
      (nextTag : t.globals.nextTag = s.globals.nextTag + 1)
      (tagged : t.globals.tagged = s.globals.tagged.set
        (decimal s.globals.nextTag) (head ++ '|' :: afterAck))
      (issued : t.issued = s.issued ++ [(s.globals.nextTag, request.id)])
      (retired : t.retired = s.retired)
      (requested : t.requested = s.requested)
  | retire (tag : Nat) (inRange : tag < s.globals.nextTag)
      (present : s.proxies request.id ≠ none)
      (named : acknowledges request.text = some (decimal tag))
      (outstanding : s.globals.tagged.get? (decimal tag) ≠ none)
      (nextTag : t.globals.nextTag = s.globals.nextTag)
      (tagged : t.globals.tagged = s.globals.tagged.del (decimal tag))
      (issued : t.issued = s.issued)
      (retired : t.retired = s.retired ++ [tag])
      (requested : t.requested = s.requested ++
        (fitting (Msg.peerAttribute.render
          (some (s.globals.answerTracker (trackerOf request.text))))).map
            fun _ => request.id)

/-- The key of a request that names no outstanding tag removes nothing. -/
theorem gone_of_kept {before after : Globals}
    (kept : ∀ key entry, before.tagged.get? key = some entry →
      after.tagged.get? key ≠ none) : gone before after = [] := by
  rw [gone, List.filter_eq_nil_iff]
  intro tag _ both
  rw [Bool.and_eq_true, Option.isSome_iff_exists, Option.isNone_iff_eq_none]
    at both
  obtain ⟨⟨entry, found⟩, absent⟩ := both
  exact kept _ entry found absent

/-- Deleting the entry of a tag makes exactly that tag gone. -/
theorem gone_of_del {before after : Globals} {tag : Nat}
    (inRange : tag < before.nextTag)
    (outstanding : before.tagged.get? (decimal tag) ≠ none)
    (deleted : after.tagged = before.tagged.del (decimal tag)) :
    gone before after = [tag] := by
  have only : ∀ other, ((before.tagged.get? (decimal other)).isSome &&
      (after.tagged.get? (decimal other)).isNone) = (other == tag) := by
    intro other
    rw [deleted, OrderedDict.get?_del]
    by_cases same : other = tag
    · subst same
      have found := Option.isSome_iff_ne_none.mpr outstanding
      simp [found]
    · have differ : decimal other ≠ decimal tag := fun equal =>
        same (Scanf.decimal_injective equal)
      rw [if_neg differ]
      cases before.tagged.get? (decimal other) <;> simp [same]
  rw [gone, List.filter_congr fun other _ => only other, List.filter_beq,
    List.count_eq_one_of_mem List.nodup_range (List.mem_range.mpr inRange)]
  rfl

/-- Texts of which none asks for attributes. -/
theorem filter_asksAttributes_of_quiet {texts : List Text}
    (quiet : ∀ text ∈ texts, asksAttributes text = false) :
    ([] ++ texts).filter asksAttributes = [] := by
  rw [List.nil_append, List.filter_eq_nil_iff]
  intro text member asks
  rw [quiet text member] at asks
  cases asks

theorem filter_asksAttributes_fitting (tracker : Option Int) :
    (fitting (Msg.peerAttribute.render tracker)).filter asksAttributes =
      fitting (Msg.peerAttribute.render tracker) := by
  rw [List.filter_eq_self]
  intro text member
  rw [mem_fitting member]
  cases tracker with
  | none => rfl
  | some value => rfl

/-- Every request of every client is one of the three moves. -/
theorem step_moves {si : ServerInvariant} {s t : State} {request : Request}
    (ledger : s.Ledger) (taken : step si s request = some t) :
    Moves s request t := by
  unfold step at taken
  cases proxy : s.proxies request.id with
  | none =>
      rw [proxy] at taken
      cases taken
      exact .aside rfl rfl rfl rfl rfl fun _ present =>
        absurd proxy present
  | some self =>
      rw [proxy] at taken
      cases taken
      have present : s.proxies request.id ≠ none := by
        rw [proxy]
        exact Option.some_ne_none _
      obtain ⟨tracker, answer, followed⟩ :=
        follow_eq ⟨s.globals, self, []⟩ (trackerOf request.text)
      have effect := handleRequest_effect si request.text
        (show Tagged (Env.mk s.globals self []).globals.tagged from
          ledger.tagged)
      rw [followed] at effect
      cases effect with
      | aside same unknown =>
          obtain ⟨texts, sent, quiet⟩ := same.sent
          apply Moves.aside same.nextTag same.tagged
          · simp [after, same.nextTag]
          · rw [after, gone_of_kept, List.append_nil]
            intro key entry found
            rw [same.tagged, found]
            exact Option.some_ne_none _
          · rw [after, sent, filter_asksAttributes_of_quiet quiet]
            exact List.append_nil _
          · exact fun key _ named => unknown key named
      | issue head plain silent nextTag tagged sent =>
          obtain ⟨texts, sent, quiet⟩ := sent
          apply Moves.issue head plain silent nextTag tagged
          · simp [after, nextTag]
          · rw [after, gone_of_kept, List.append_nil]
            intro key entry found
            rw [tagged, OrderedDict.get?_set]
            split
            · exact Option.some_ne_none _
            · dsimp only
              rw [found]
              exact Option.some_ne_none _
          · rw [after, sent, filter_asksAttributes_of_quiet quiet]
            exact List.append_nil _
      | retire key named outstanding nextTag tagged sent =>
          obtain ⟨entry, found⟩ := Option.ne_none_iff_exists'.mp outstanding
          obtain ⟨tag, inRange, rfl⟩ := ledger.keys key entry found
          apply Moves.retire tag inRange present named outstanding nextTag
            tagged
          · simp [after, nextTag]
          · rw [after, gone_of_del inRange outstanding tagged]
          · rw [after, sent, List.nil_append, filter_asksAttributes_fitting,
              answer]

theorem ledger_of_initial {s : State} (initial : s.Initial) : s.Sound := by
  obtain ⟨nextTag, tagged, issued, retired, requested⟩ := initial
  refine ⟨⟨?_, ?_, ?_, ?_, ?_, ?_⟩, ?_⟩
  · exact Nat.le_of_eq nextTag.symm
  · rw [issued, nextTag]
    rfl
  · intro key entry found
    rw [tagged, OrderedDict.get?_empty] at found
    cases found
  · intro key entry found
    rw [tagged, OrderedDict.get?_empty] at found
    cases found
  · rw [retired]
    exact List.nodup_nil
  · rw [retired]
    exact nofun
  · rw [retired, requested]
    exact .nil

/-- The ledger is kept by every request, forged or not. -/
theorem ledger_of_moves {s t : State} {request : Request} (ledger : s.Ledger)
    (moves : Moves s request t) : t.Ledger := by
  cases moves with
  | aside nextTag tagged issued retired requested unknown =>
      constructor
      · rw [nextTag]
        exact ledger.positive
      · rw [issued, nextTag]
        exact ledger.counting
      · rw [tagged, nextTag]
        exact ledger.keys
      · rw [tagged]
        exact ledger.tagged
      · rw [retired]
        exact ledger.retiredOnce
      · rw [retired, nextTag, tagged]
        exact ledger.retiredGone
  | issue head plain silent nextTag tagged issued retired requested =>
      have positive := ledger.positive
      have counted : s.globals.nextTag + 1 - 1 =
          s.globals.nextTag - 1 + 1 := by omega
      constructor
      · rw [nextTag]
        exact Nat.le_add_left _ _
      · have last : 1 + 1 * (s.globals.nextTag - 1) = s.globals.nextTag := by
          omega
        rw [issued, List.map_append, ledger.counting, nextTag, counted,
          List.range'_concat, last]
        rfl
      · intro key entry found
        rw [tagged, OrderedDict.get?_set] at found
        rw [nextTag]
        split at found
        · rename_i same
          exact ⟨_, Nat.lt_succ_self _, same⟩
        · obtain ⟨tag, inRange, same⟩ := ledger.keys key entry found
          exact ⟨tag, Nat.lt_succ_of_lt inRange, same⟩
      · intro key entry found
        rw [tagged, OrderedDict.get?_set] at found
        split at found
        · cases found
          exact ⟨head, plain, rfl⟩
        · exact ledger.tagged key entry found
      · rw [retired]
        exact ledger.retiredOnce
      · intro tag member
        rw [retired] at member
        obtain ⟨inRange, absent⟩ := ledger.retiredGone tag member
        have differ : decimal tag ≠ decimal s.globals.nextTag := fun equal =>
          absurd (Scanf.decimal_injective equal) (Nat.ne_of_lt inRange)
        rw [nextTag, tagged, OrderedDict.get?_set_of_ne _ _ differ]
        exact ⟨Nat.lt_succ_of_lt inRange, absent⟩
  | retire tag inRange present named outstanding nextTag tagged issued retired
      requested =>
      have fresh : tag ∉ s.retired := fun member =>
        outstanding (ledger.retiredGone tag member).2
      constructor
      · rw [nextTag]
        exact ledger.positive
      · rw [issued, nextTag]
        exact ledger.counting
      · intro key entry found
        rw [tagged, OrderedDict.get?_del] at found
        split at found
        · cases found
        · rw [nextTag]
          exact ledger.keys key entry found
      · intro key entry found
        rw [tagged, OrderedDict.get?_del] at found
        split at found
        · cases found
        · exact ledger.tagged key entry found
      · rw [retired]
        exact List.nodup_append.mpr
          ⟨ledger.retiredOnce, List.nodup_singleton tag, by
            intro old member new newMember equal
            rw [List.mem_singleton] at newMember
            exact fresh (newMember ▸ equal ▸ member)⟩
      · intro other member
        rw [retired, List.mem_append, List.mem_singleton] at member
        rw [nextTag, tagged, OrderedDict.get?_del]
        rcases member with old | rfl
        · obtain ⟨oldRange, absent⟩ := ledger.retiredGone other old
          refine ⟨oldRange, ?_⟩
          rw [absent, ite_self]
        · exact ⟨inRange, if_pos rfl⟩

/-- Pairs found in a history are found in a longer one. -/
theorem asked_mono {issued later : List (Nat × Nat)} {retired requested :
    List Nat} (longer : ∀ pair ∈ issued, pair ∈ later)
    (asked : List.Forall₂ (fun tag id => (tag, id) ∈ issued) retired
      requested) :
    List.Forall₂ (fun tag id => (tag, id) ∈ later) retired requested :=
  asked.imp fun _ _ member => longer _ member

/-- Authentic requests keep every retired tag paired with its owner. -/
theorem asked_of_moves {s t : State} {request : Request} (sound : s.Sound)
    (authentic : s.Authentic request) (moves : Moves s request t) :
    List.Forall₂ (fun tag id => (tag, id) ∈ t.issued) t.retired
      t.requested := by
  cases moves with
  | aside nextTag tagged issued retired requested unknown =>
      rw [issued, retired, requested]
      exact sound.asked
  | issue head plain silent nextTag tagged issued retired requested =>
      rw [issued, retired, requested]
      exact asked_mono (fun pair member => List.mem_append_left _ member)
        sound.asked
  | retire tag inRange present named outstanding nextTag tagged issued retired
      requested =>
      obtain ⟨⟨owned, member, same⟩, fits⟩ :=
        authentic _ present named outstanding
      cases Scanf.decimal_injective same
      rw [issued, retired, requested, fitting_of_fits fits]
      exact List.rel_append sound.asked (.cons member .nil)

/-- No tag is issued twice. -/
theorem Ledger.issuedOnce {s : State} (ledger : s.Ledger) :
    (s.issued.map Prod.fst).Nodup := by
  rw [ledger.counting]
  exact List.nodup_range'

theorem lawful_of_authentic {s t : State} {request : Request}
    (sound : s.Sound) (authentic : s.Authentic request)
    (moves : Moves s request t) : t.Sound ∧ Lawful s request t := by
  have ledger := ledger_of_moves sound.toLedger moves
  have asked := asked_of_moves sound authentic moves
  refine ⟨⟨ledger, asked⟩, ledger.issuedOnce, ledger.retiredOnce, asked,
    ?_, ?_⟩
  · intro tag member fresh
    cases moves with
    | aside nextTag tagged issued retired requested unknown =>
        exact absurd (retired ▸ member) fresh
    | issue head plain silent nextTag tagged issued retired requested =>
        exact absurd (retired ▸ member) fresh
    | retire other inRange present named outstanding nextTag tagged issued
        retired requested =>
        rw [retired, List.mem_append, List.mem_singleton] at member
        cases member.resolve_left fresh
        obtain ⟨⟨owned, found, same⟩, -⟩ :=
          authentic _ present named outstanding
        cases Scanf.decimal_injective same
        exact found
  · intro key names foreign
    cases moves with
    | aside nextTag tagged issued retired requested unknown => exact tagged
    | issue head plain silent nextTag tagged issued retired requested =>
        rw [silent] at names
        cases names
    | retire other inRange present named outstanding nextTag tagged issued
        retired requested =>
        rw [named] at names
        cases names
        exact absurd (authentic _ present named outstanding).1 foreign

/-- What is not authentic breaks the law: a forged acknowledgment deletes the
tag of another client, and one whose answer does not fit leaves its client
unasked. -/
theorem not_lawful_of_forged {s t : State} {request : Request}
    (sound : s.Sound) (forged : ¬ s.Authentic request)
    (moves : Moves s request t) : ¬ Lawful s request t := by
  intro lawful
  apply forged
  intro key present names outstanding
  cases moves with
  | aside nextTag tagged issued retired requested unknown =>
      exact absurd (unknown key present names) outstanding
  | issue head plain silent nextTag tagged issued retired requested =>
      rw [silent] at names
      cases names
  | retire tag inRange _ named _ nextTag tagged issued retired requested =>
      rw [named] at names
      cases names
      constructor
      · by_contra foreign
        have kept := lawful.others _ named foreign
        rw [← kept, tagged, OrderedDict.get?_del_self] at outstanding
        exact outstanding rfl
      · by_contra long
        have lengths := lawful.asked.length_eq
        rw [retired, requested, fitting, if_neg long, List.map_nil,
          List.append_nil, List.length_append, sound.asked.length_eq,
          List.length_singleton] at lengths
        omega

theorem acknowledges_linkRfc (ttc : Nat) (tracker : Option Int) :
    acknowledges ((Msg.linkRfc ttc).render tracker) = none := by
  rw [acknowledges,
    requestPayload_render (show (Msg.linkRfc ttc).Plain from trivial),
    Option.bind_some, acknowledgedTag, fields_linkRfc, chelsea_linkRfc]

theorem acknowledges_standaloneAck (tag : Nat) (tracker : Option Int) :
    acknowledges ((Msg.standaloneAck tag).render tracker) =
      some (decimal tag) := by
  rw [acknowledges,
    requestPayload_render (show (Msg.standaloneAck tag).Plain from trivial),
    Option.bind_some, acknowledgedTag, fields_standaloneAck, chelsea_standaloneAck]
  dsimp only
  rw [csv2dict_csv (cleanPairs_standaloneAck tag) (List.cons_ne_nil _ _)]
  simp [dictOf, standaloneAckPairs, OrderedDict.get?_set]

/-- A server that manages issues its next tag to any client that asks. -/
theorem step_linkRfc {si : ServerInvariant} (smart : si.smart = some true)
    (s : State) {id : Nat} (present : s.proxies id ≠ none) (ttc : Nat)
    (tracker : Option Int) :
    ∃ t, step si s ⟨id, (Msg.linkRfc ttc).render tracker⟩ = some t ∧
      t.proxies id ≠ none ∧
      (∀ other, s.proxies other ≠ none → t.proxies other ≠ none) ∧
      t.issued = s.issued ++ [(s.globals.nextTag, id)] ∧
      t.globals.tagged.get? (decimal s.globals.nextTag) ≠ none := by
  obtain ⟨self, proxy⟩ := Option.ne_none_iff_exists'.mp present
  obtain ⟨followTracker, -, followed⟩ :=
    follow_eq ⟨s.globals, self, []⟩ tracker
  have plainRfc : (Msg.linkRfc ttc).Plain := trivial
  obtain ⟨head, plain, answer⟩ := dispatch_linkRfc smart ttc
    (Env.follow ⟨s.globals, self, []⟩ tracker)
  refine ⟨s.after id (handleRequest si ((Msg.linkRfc ttc).render tracker)
    ⟨s.globals, self, []⟩).2, ?_, ?_, ?_, ?_, ?_⟩
  · simp only [step, proxy]
  · simp [after]
  · intro other known
    rw [after]
    dsimp only
    split
    · exact nofun
    · exact known
  · rw [handleRequest_render si plainRfc, answer, post_eq, followed]
    simp [after, Env.tagging]
  · rw [handleRequest_render si plainRfc, answer, post_eq, followed]
    simp [after, Env.tagging]

theorem step_total (si : ServerInvariant) (s : State) (request : Request) :
    ∃ t, step si s request = some t := by
  unfold step
  cases s.proxies request.id with
  | none => exact ⟨_, rfl⟩
  | some self => exact ⟨_, rfl⟩

/-- A manager with two clients that were just accepted. -/
def twoClients : State where
  globals := initialGlobals
  proxies id := if id = 1 ∨ id = 2 then some ⟨27, id, none, .empty⟩ else none
  issued := []
  retired := []
  requested := []

theorem twoClients_initial : twoClients.Initial := ⟨rfl, rfl, rfl, rfl, rfl⟩

def manager : ServerInvariant :=
  { smart := some true, isPfm := some true, serverSid0 := 27, serverCid0 := 0,
    cClass := "Switch".toList }

/-- Client 1 asks for its ids. -/
def asks : Request := ⟨1, (Msg.linkRfc 10).render (some 1)⟩

/-- A client acknowledges tag 1. -/
def acks (id : Nat) : Request := ⟨id, (Msg.standaloneAck 1).render (some 3)⟩

/-- The state once client 1 was issued tag 1. -/
theorem asked_by_one :
    ∃ t, step manager twoClients asks = some t ∧ t.Sound ∧
      t.proxies 1 ≠ none ∧ t.proxies 2 ≠ none ∧ t.issued = [(1, 1)] ∧
      t.globals.tagged.get? (decimal 1) ≠ none := by
  obtain ⟨t, taken, one, others, issued, outstanding⟩ :=
    step_linkRfc (show manager.smart = some true from rfl) twoClients
      (show twoClients.proxies 1 ≠ none from nofun) 10 (some 1)
  have sound := ledger_of_initial twoClients_initial
  have silent : twoClients.Authentic asks := by
    intro key _ names
    rw [asks, acknowledges_linkRfc] at names
    cases names
  exact ⟨t, taken,
    (lawful_of_authentic sound silent (step_moves sound.toLedger taken)).1,
    one, others 2 nofun, issued, outstanding⟩

end State

end Tags

end FameZ.Link
