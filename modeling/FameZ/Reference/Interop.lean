/-
Module: FameZ.Reference.Interop
Purpose: The reference client connected to famez_server.py.
Trusted boundary: none
Main exports: ofFamez, vectorsOf, Knows, reference_client_joins
-/
import FameZ.Reference.Views
import FameZ.Server.PeerView

namespace FameZ.Reference

/-!
The two servers speak one protocol, but famez_server.py numbers its clients
from 1, makes itself a peer and greets before it registers.  The reference
client takes all of that, as long as no notifier is recycled.
-/

/-- A message of famez_server.py as the client reads it. -/
def ofFamez (msg : Server.Msg) : Msg Nat :=
  { index := msg.data, fd := msg.fd }

/-- The vectors that a client has listed under an id. -/
def vectorsOf (peers : List (ClientPeer Nat)) (id : Int) : Option (List Nat) :=
  (peers.find? fun peer => peer.id = id).map ClientPeer.vectors

/-- The client holds its own notifiers, and those of every other live peer, the
server included, under its id, and nothing else. -/
structure Knows (args : Server.Args) (s : Server.State) (client : Nat)
    (c : Client Nat) : Prop where
  shmFd : c.shmFd = some Server.mailboxFd
  id : c.localPeer.id = (s.proxy client).id
  vectors : (s.proxy client).enList = some c.localPeer.vectors
  distinct : (c.peerList.map ClientPeer.id).Nodup
  others : ∀ id, vectorsOf c.peerList id =
    if id = (s.proxy client).id then none else Server.roster args s id

/-! ### Lists of peers -/

theorem vectorsOf_eq_none {peers : List (ClientPeer Nat)} {id : Int} :
    vectorsOf peers id = none ↔ id ∉ peers.map ClientPeer.id := by
  rw [vectorsOf, Option.map_eq_none_iff, List.find?_eq_none, List.mem_map]
  simp

theorem vectorsOf_append {peers : List (ClientPeer Nat)}
    {peer : ClientPeer Nat} (new : peer.id ∉ peers.map ClientPeer.id)
    (id : Int) :
    vectorsOf (peers ++ [peer]) id =
      if id = peer.id then some peer.vectors else vectorsOf peers id := by
  by_cases here : id = peer.id
  · subst here
    rw [if_pos rfl, vectorsOf, find?_last new]
    rfl
  · rw [if_neg here, vectorsOf, List.find?_append,
      List.find?_cons_of_neg (by simpa using Ne.symm here), List.find?_nil,
      Option.or_none]
    rfl

theorem vectorsOf_eraseP {peers : List (ClientPeer Nat)} {gone : Int}
    (distinct : (peers.map ClientPeer.id).Nodup) (id : Int) :
    vectorsOf (peers.eraseP fun peer => peer.id = gone) id =
      if id = gone then none else vectorsOf peers id := by
  induction peers with
  | nil => simp [vectorsOf]
  | cons first rest inductionHypothesis =>
      obtain ⟨fresh, distinct⟩ := List.nodup_cons.mp distinct
      by_cases here : first.id = gone
      · rw [List.eraseP_cons_of_pos (by simpa using here)]
        subst here
        by_cases same : id = first.id
        · rw [if_pos same, vectorsOf_eq_none, same]
          exact fresh
        · rw [if_neg same, vectorsOf, vectorsOf,
            List.find?_cons_of_neg (by simpa using Ne.symm same)]
      · rw [List.eraseP_cons_of_neg (by simpa using here)]
        by_cases same : id = first.id
        · subst same
          rw [if_neg here]
          simp [vectorsOf]
        · have skip : ∀ others, vectorsOf (first :: others) id =
              vectorsOf others id := fun others => by
            rw [vectorsOf, List.find?_cons_of_neg (by simpa using Ne.symm same)]
            rfl
          rw [skip, skip, inductionHypothesis distinct]

/-! ### The newcomer -/

section

open Server (Args Linked Joins Leaves roster)

variable {args : Args} {s t : Server.State}

/-- Whom a newcomer is told about. -/
def listed (args : Args) (s : Server.State) : List (ClientPeer Nat) :=
  s.clients.entries.map (fun entry =>
      { id := entry.1, vectors := (s.proxy entry.2).enList.getD [] }) ++
    if args.silent then []
    else [{ id := args.serverId, vectors := s.enList }]

theorem serverId_not_listed (linked : Linked args s) :
    (args.serverId : Int) ∉ s.clients.entries.map Prod.fst := by
  intro member
  obtain ⟨entry, inside, same⟩ := List.mem_map.mp member
  have holds := OrderedDict.get?_eq_some_iff.mpr inside
  rw [same, Server.serverId_free linked] at holds
  cases holds

theorem listed_ids (args : Args) (s : Server.State) :
    (listed args s).map ClientPeer.id =
      s.clients.entries.map Prod.fst ++
        if args.silent then [] else [(args.serverId : Int)] := by
  rw [listed, List.map_append, List.map_map]
  cases args.silent <;> rfl

theorem listed_distinct (linked : Linked args s) :
    ((listed args s).map ClientPeer.id).Nodup := by
  rw [listed_ids]
  cases args.silent with
  | true => simpa using s.clients.nodup
  | false =>
      refine List.nodup_append.mpr
        ⟨s.clients.nodup, List.nodup_singleton _, ?_⟩
      rintro id held other new rfl
      rw [List.mem_singleton.mp new] at held
      exact serverId_not_listed linked held

theorem listed_full (linked : Linked args s) :
    ∀ peer ∈ listed args s, peer.vectors.length = args.nEvents := by
  intro peer member
  rcases List.mem_append.mp member with client | server
  · obtain ⟨entry, inside, rfl⟩ := List.mem_map.mp client
    obtain ⟨fds, enListEq, full⟩ := Server.notifiers_of_get? linked
      (OrderedDict.get?_eq_some_iff.mpr inside)
    rw [enListEq]
    exact full
  · have full := linked.server
    cases silent : args.silent with
    | true =>
        rw [silent] at server
        cases server
    | false =>
        rw [silent] at server full
        rw [List.mem_singleton.mp server]
        exact full

/-- A newcomer is told the roster. -/
theorem vectorsOf_listed (linked : Linked args s) (id : Int) :
    vectorsOf (listed args s) id = roster args s id := by
  have clients : vectorsOf (s.clients.entries.map fun entry =>
      { id := entry.1, vectors := (s.proxy entry.2).enList.getD [] }) id =
      (s.clients.get? id).bind fun client => (s.proxy client).enList := by
    rw [vectorsOf, List.find?_map, OrderedDict.get?]
    cases found : s.clients.entries.find? fun entry =>
        decide (entry.1 = id) with
    | none =>
        have found : s.clients.entries.find? ((fun peer : ClientPeer Nat =>
            decide (peer.id = id)) ∘ fun entry : Int × Nat =>
              { id := entry.1,
                vectors := (s.proxy entry.2).enList.getD [] }) = none := found
        rw [found]
        rfl
    | some entry =>
        have mapped : s.clients.entries.find? ((fun peer : ClientPeer Nat =>
            decide (peer.id = id)) ∘ fun entry : Int × Nat =>
              { id := entry.1,
                vectors := (s.proxy entry.2).enList.getD [] }) =
            some entry := found
        obtain ⟨fds, enListEq, -⟩ := Server.notifiers_of_get? linked
          (OrderedDict.get?_eq_some_iff.mpr (List.mem_of_find?_eq_some found))
        rw [mapped]
        simp [enListEq]
  rw [listed, roster]
  cases silent : args.silent with
  | true =>
      rw [if_pos rfl, List.append_nil, clients]
      cases s.clients.get? id <;> simp
  | false =>
      rw [if_neg Bool.false_ne_true, vectorsOf_append, clients]
      · by_cases server : id = args.serverId
        · rw [if_pos server, server, Server.serverId_free linked]
          simp
        · rw [if_neg server]
          cases s.clients.get? id <;> simp [server]
      · rw [List.map_map]
        exact serverId_not_listed linked

theorem map_batch (id : Int) (fds : List Nat) :
    (Server.batch id fds).map ofFamez =
      fds.map fun fd => { index := id, fd := some fd } := by
  rw [Server.batch, List.map_map]
  rfl

/-- The messages about the others, as the client reads them. -/
theorem map_others (linked : Linked args s) :
    ((s.clients.values.flatMap fun other =>
        Server.batch (s.proxy other).id ((s.proxy other).enList.getD [])) ++
      Server.batch args.serverId s.enList).map ofFamez =
      (listed args s).flatMap fun peer =>
        peer.vectors.map fun fd => { index := peer.id, fd := some fd } := by
  rw [Server.flatMap_values linked, List.map_append, map_batch,
    List.map_flatMap, listed, List.flatMap_append, List.flatMap_map]
  congr 1
  · exact List.flatMap_congr fun entry _ => map_batch ..
  · have server := linked.server
    cases silent : args.silent with
    | true =>
        rw [silent, if_pos rfl, List.length_eq_zero_iff] at server
        rw [server]
        rfl
    | false => simp

/-- A newcomer reads of the others, of the server and of itself. -/
theorem knows_newcomer (linked : Linked args s)
    (few : args.nEvents ≤ ivshmemClientMaxVectors) {choice : Nat} {id : Int}
    {fds : List Nat} (joins : Joins args choice s t id fds false) :
    ∃ c, follow ((t.stream s.built).map ofFamez) = some c ∧
      Knows args t s.built c := by
  have notServer : id ≠ args.serverId := by
    have high := joins.high
    simp only [Args.serverId]
    omega
  have absent : id ∉ (listed args s).map ClientPeer.id := by
    rw [← vectorsOf_eq_none, vectorsOf_listed linked]
    simp [roster, joins.free, notServer]
  have low := joins.low
  obtain ⟨c, read, shmFd, localPeer, peerList⟩ :=
    @follow_greeting Nat id (by omega) Server.mailboxFd
  obtain ⟨d, others, gains⟩ := run_batches (c := c) (listed_distinct linked)
    (fun peer member same => by
      have same : peer.id = id := by rw [same, localPeer]
      exact absent (same ▸ List.mem_map_of_mem member))
    (by simp [peerList])
    (fun peer member => Server.ne_nil_of_full (listed_full linked peer member))
    (fun peer member => listed_full linked peer member ▸ few)
  obtain ⟨e, own, shm, list, mine⟩ := @run_batch_local _ d fds
    (by
      rw [gains.localPeer, localPeer, joins.full]
      simpa using few)
  rw [gains.localPeer, localPeer] at own mine
  have peers : e.peerList = listed args s := by
    rw [list, gains.peerList, peerList, List.nil_append]
  refine ⟨e, ?_, ?_, ?_, ?_, ?_, fun other => ?_⟩
  · rw [joins.mine, List.map_append, List.map_append, map_others linked,
      map_batch]
    refine (follow_append read _).trans ?_
    rw [Transition.run_append, others, Option.bind_some]
    exact own
  · rw [shm, gains.shmFd, shmFd]
  · rw [mine, joins.idEq]
  · rw [mine, joins.enListEq]
    rfl
  · rw [peers]
    exact listed_distinct linked
  · rw [peers, vectorsOf_listed linked, joins.idEq,
      Server.roster_joins linked joins]
    by_cases same : other = id
    · rw [if_pos same, same, roster, joins.free]
      simp [notServer]
    · rw [if_neg same, Function.update_of_ne same]

/-- A client reads of a newcomer. -/
theorem knows_told (linked : Linked args s)
    (few : args.nEvents ≤ ivshmemClientMaxVectors) {choice : Nat} {id : Int}
    {fds : List Nat} (joins : Joins args choice s t id fds false)
    {client : Nat} (live : client ∈ s.clients.values) {c : Client Nat}
    (read : follow ((s.stream client).map ofFamez) = some c)
    (knows : Knows args s client c) :
    ∃ d, follow ((t.stream client).map ofFamez) = some d ∧
      Knows args t client d := by
  have notServer : id ≠ args.serverId := by
    have high := joins.high
    simp only [Args.serverId]
    omega
  have below := linked.below live
  have old : client ≠ s.built := by omega
  obtain ⟨own, holds⟩ := OrderedDict.mem_values_iff.mp live
  have foreign : id ≠ (s.proxy client).id := by
    rw [(linked.registered.mp holds).2]
    rintro rfl
    rw [joins.free] at holds
    cases holds
  have absent : roster args s id = none := by
    simp [roster, joins.free, notServer]
  have new : id ∉ c.peerList.map ClientPeer.id := by
    rw [← vectorsOf_eq_none, knows.others, if_neg foreign, absent]
  obtain ⟨d, runs, gains⟩ := @run_batch_new _ c id fds
    (by rwa [knows.id]) new (Server.ne_nil_of_full joins.full)
    (joins.full ▸ few)
  refine ⟨d, ?_, ?_, ?_, ?_, ?_, fun other => ?_⟩
  · rw [joins.told client old, if_pos ⟨rfl, live⟩, List.map_append, map_batch,
      follow_append read]
    exact runs
  · rw [gains.shmFd, knows.shmFd]
  · rw [gains.localPeer, knows.id, joins.others client old]
  · rw [gains.localPeer, joins.others client old, knows.vectors]
  · rw [gains.peerList, List.map_append, List.nodup_append]
    refine ⟨knows.distinct, List.nodup_singleton _, ?_⟩
    rintro held inside late alone rfl
    rw [List.mem_singleton.mp alone] at inside
    exact new inside
  · rw [gains.peerList, vectorsOf_append new, joins.others client old,
      Server.roster_joins linked joins, knows.others]
    by_cases same : other = id
    · rw [if_pos same, if_neg (same ▸ foreign), same, Function.update_self]
    · rw [if_neg same, Function.update_of_ne same]

/-- A client reads of one that left. -/
theorem knows_left (linked : Linked args s) (norecycle : args.recycle = false)
    {leaver : Nat} (leaves : Leaves args leaver s t)
    (completed : (s.proxy leaver).stage = .completed) {client : Nat}
    (stays : client ≠ leaver) (before : client ∈ s.clients.values)
    (live : client ∈ t.clients.values)
    {c : Client Nat} (read : follow ((s.stream client).map ofFamez) = some c)
    (knows : Knows args s client c) :
    ∃ d, follow ((t.stream client).map ofFamez) = some d ∧
      Knows args t client d := by
  obtain ⟨own, holds⟩ := OrderedDict.mem_values_iff.mp before
  have gone : s.clients.get? (s.proxy leaver).id = some leaver :=
    linked.registered.mpr ⟨completed, rfl⟩
  have foreign : (s.proxy leaver).id ≠ (s.proxy client).id := by
    intro same
    rw [same, (linked.registered.mp holds).2, holds] at gone
    exact stays (Option.some.inj gone)
  obtain ⟨fds, enListEq, -⟩ := Server.notifiers_of_get? linked gone
  have known : vectorsOf c.peerList (s.proxy leaver).id ≠ none := by
    rw [knows.others, if_neg foreign, roster, gone]
    simp [enListEq]
  have listed : (s.proxy leaver).id ∈ c.peerList.map ClientPeer.id :=
    not_not.mp fun absent => known (vectorsOf_eq_none.mpr absent)
  obtain ⟨peer, inside, same⟩ := List.mem_map.mp listed
  obtain ⟨d, removes, shmFd, localPeer, peerList⟩ := @handle_removal _ c
    peer (by rw [same, knows.id]; exact foreign) inside
  rw [same] at removes peerList
  refine ⟨d, ?_, ?_, ?_, ?_, ?_, fun other => ?_⟩
  · rw [leaves.told client, if_pos ⟨norecycle, live⟩, List.map_append,
      follow_append read]
    change Transition.run handle c
      [{ index := (s.proxy leaver).id, fd := none }] = some d
    rw [Transition.run_cons, removes]
    rfl
  · rw [shmFd, knows.shmFd]
  · rw [localPeer, knows.id, leaves.others client stays]
  · rw [localPeer, leaves.others client stays, knows.vectors]
  · rw [peerList]
    exact knows.distinct.sublist (List.eraseP_sublist.map _)
  · rw [peerList, vectorsOf_eraseP knows.distinct, knows.others,
      leaves.others client stays, Server.roster_leaves linked leaves]
    by_cases isGone : other = (s.proxy leaver).id
    · rw [if_pos isGone, isGone, if_neg foreign, Function.update_self]
    · rw [if_neg isGone, Function.update_of_ne isGone]

/-- A run within capacity, with a reference client on every connection. -/
structure Attended (args : Args) (s : Server.State) : Prop where
  agreed : Server.Agreed args s
  welcome : ∀ self, (s.proxy self).stage ≠ .stopped
  knows : ∀ client ∈ s.clients.values, ∃ c,
    follow ((s.stream client).map ofFamez) = some c ∧ Knows args s client c

theorem Attended.init (args : Args) : Attended args (Server.init args) :=
  ⟨Server.Agreed.init args, nofun, nofun⟩

theorem Attended.step {net : Nat → Bool} {event : Server.Conn}
    (attended : Attended args s) (up : ∀ call, net call = true)
    (norecycle : args.recycle = false)
    (few : args.nEvents ≤ ivshmemClientMaxVectors)
    (within : Server.Within args s event)
    (taken : Server.connStep args net s event = some t) : Attended args t := by
  have agreed := attended.agreed.step up norecycle within taken
  have linked := attended.agreed.linked
  cases event with
  | connect choice notifiersOk =>
      rcases linked.connect_cases up taken with
        refused | ⟨id, fds, known, -, joins⟩
      · obtain ⟨room, notifiers⟩ := within
        rcases refused.reason with full | ⟨failed, -⟩
        · omega
        · rw [failed] at notifiers
          cases notifiers
      · cases known with
        | true =>
            obtain ⟨dead, recycled, -⟩ := joins.reused rfl
            rw [attended.agreed.unrecycled] at recycled
            cases recycled
        | false =>
            refine ⟨agreed, fun self => ?_, fun client live => ?_⟩
            · by_cases new : self = s.built
              · rw [new, joins.stage]
                intro stopped
                cases stopped
              · rw [joins.others self new]
                exact attended.welcome self
            · by_cases new : client = s.built
              · rw [new]
                exact knows_newcomer linked few joins
              · have done := agreed.linked.mem_values.mp live
                rw [Server.Completed, joins.others client new] at done
                have before := linked.mem_values.mpr done
                obtain ⟨c, read, knows⟩ := attended.knows client before
                exact knows_told linked few joins before read knows
  | disconnect leaver =>
      have leaves := linked.disconnect_leaves up taken
      have completed : (s.proxy leaver).stage = .completed := by
        rcases leaves.before with completed | stopped
        · exact completed
        · exact absurd stopped (attended.welcome leaver)
      refine ⟨agreed, fun self => ?_, fun client live => ?_⟩
      · by_cases left : self = leaver
        · rw [left, leaves.gone]
          intro stopped
          cases stopped
        · rw [leaves.others self left]
          exact attended.welcome self
      · have done := agreed.linked.mem_values.mp live
        have stays : client ≠ leaver := by
          rintro rfl
          rw [Server.Completed, leaves.gone] at done
          cases done
        rw [Server.Completed, leaves.others client stays] at done
        have before := linked.mem_values.mpr done
        obtain ⟨c, read, knows⟩ := attended.knows client before
        exact knows_left linked norecycle leaves completed stays before live
          read knows

end

/-- Over every run of famez_server.py without recycling, of connects within
capacity and disconnects in any order in which the sends succeed: a reference
client on any live connection refuses no message, and once it has read them all
it holds the mailbox, its own notifiers, and the notifiers of every other live
client and of a server that is not silent under their ids, and no others. -/
theorem reference_client_joins (args : Server.Args) (net : Nat → Bool)
    (up : ∀ call, net call = true) (norecycle : args.recycle = false)
    (few : args.nEvents ≤ ivshmemClientMaxVectors) {trace : List Server.Conn}
    {s : Server.State}
    (within : Transition.Meets (Server.connStep args net) (Server.Within args)
      (Server.init args) trace)
    (reached : Transition.run (Server.connStep args net) (Server.init args)
      trace = some s) :
    ∀ client ∈ s.clients.values,
      (∀ n, 3 ≤ n →
        (follow (((s.stream client).map ofFamez).take n)).isSome = true) ∧
      ∃ c, follow ((s.stream client).map ofFamez) = some c ∧
        Knows args s client c := by
  have attended : Attended args s :=
    Transition.run_invariant
      (fun _ _ _ attended within taken =>
        attended.step up norecycle few within taken)
      (Attended.init args) within reached
  intro client live
  obtain ⟨c, read, knows⟩ := attended.knows client live
  exact ⟨fun n => follow_take read, c, read, knows⟩

/-- A run that reuses id 1. -/
theorem reference_client_joins_reuse :
    let args : Server.Args :=
      { nClients := 2, recycle := false, silent := false, smart := false }
    ∃ s, Transition.run (Server.connStep args fun _ => true) (Server.init args)
        [.connect 0 true, .connect 0 true, .disconnect 0, .connect 0 true] =
          some s ∧
      ∀ client ∈ s.clients.values,
        (∀ n, 3 ≤ n →
          (follow (((s.stream client).map ofFamez).take n)).isSome = true) ∧
        ∃ c, follow ((s.stream client).map ofFamez) = some c ∧
          Knows args s client c := by
  intro args
  obtain ⟨s, reached⟩ : ∃ s, Transition.run
      (Server.connStep args fun _ => true) (Server.init args)
      [.connect 0 true, .connect 0 true, .disconnect 0, .connect 0 true] =
        some s := Option.isSome_iff_exists.mp (by decide)
  exact ⟨s, reached, reference_client_joins args _ (fun _ => rfl) rfl
    (by decide) (by decide) reached⟩

end FameZ.Reference
