/-
Module: FameZ.Reference.Connections
Purpose: What a new connection and a closed one do to the reference server, and
  what every run keeps.
Trusted boundary: none
Main exports: Refused, Joined, handleNewConn_cases, Left, freePeer_left, Sound,
  sound_run, step_keeps, newConn_admits
-/
import FameZ.Reference.Server
import Mathlib.Data.List.Flatten

namespace FameZ.Reference

/-! ### The search for an id -/

theorem searchPeer_eq_none {peerList : List Peer} {id : Nat} :
    ivshmemServerSearchPeer peerList id = none ↔
      id ∉ peerList.map Peer.id := by
  rw [ivshmemServerSearchPeer, List.find?_eq_none, List.mem_map]
  simp only [decide_eq_true_eq, not_exists, not_and]

/-- The search stops at the first id that nobody holds. -/
theorem unusedId_found {peerList : List Peer} {tries curId id : Nat}
    (small : curId < 2 ^ 16)
    (found : unusedId peerList tries curId = (true, id)) :
    ∃ k, k < tries ∧ id = (curId + k) % 2 ^ 16 ∧ id ∉ peerList.map Peer.id ∧
      ∀ j, j < k → (curId + j) % 2 ^ 16 ∈ peerList.map Peer.id := by
  induction tries generalizing curId with
  | zero => cases found
  | succ tries inductionHypothesis =>
      rw [unusedId] at found
      split at found
      · rename_i free
        cases found
        exact ⟨0, Nat.succ_pos _, (Nat.mod_eq_of_lt small).symm,
          searchPeer_eq_none.mp free, nofun⟩
      · rename_i taken
        obtain ⟨k, early, here, free, before⟩ :=
          inductionHypothesis (Nat.mod_lt _ (by decide)) found
        refine ⟨k + 1, Nat.succ_lt_succ early, ?_, free, fun j least => ?_⟩
        · rw [here, Nat.mod_add_mod, Nat.add_right_comm, Nat.add_assoc]
        · cases j with
          | zero =>
              rw [Nat.add_zero, Nat.mod_eq_of_lt small]
              exact not_not.mp fun absent =>
                taken (searchPeer_eq_none.mpr absent)
          | succ j =>
              have held := before j (Nat.lt_of_succ_lt_succ least)
              rwa [Nat.mod_add_mod, Nat.add_right_comm, Nat.add_assoc] at held

/-- The search fails when every id it tries is held. -/
theorem unusedId_exhausted {peerList : List Peer} {tries curId stop : Nat}
    (small : curId < 2 ^ 16)
    (exhausted : unusedId peerList tries curId = (false, stop)) :
    stop < 2 ^ 16 ∧
      ∀ k, k < tries → (curId + k) % 2 ^ 16 ∈ peerList.map Peer.id := by
  induction tries generalizing curId with
  | zero =>
      cases exhausted
      exact ⟨small, nofun⟩
  | succ tries inductionHypothesis =>
      rw [unusedId] at exhausted
      split at exhausted
      · cases exhausted
      · rename_i taken
        obtain ⟨bound, held⟩ :=
          inductionHypothesis (Nat.mod_lt _ (by decide)) exhausted
        refine ⟨bound, fun k early => ?_⟩
        cases k with
        | zero =>
            rw [Nat.add_zero, Nat.mod_eq_of_lt small]
            exact not_not.mp fun absent =>
              taken (searchPeer_eq_none.mpr absent)
        | succ k =>
            have later := held k (Nat.lt_of_succ_lt_succ early)
            rwa [Nat.mod_add_mod, Nat.add_right_comm, Nat.add_assoc] at later

/-! ### Sending -/

/-- What is sent to one socket. -/
def addressed (sock : Nat) (sends : Sends) : List (Msg Descriptor) :=
  (sends.filter fun send => send.1 = sock).map Prod.snd

/-- A burst reaches a socket whole, or the socket is broken. -/
theorem sendAll_stream {env : Env} {sends : Sends} {w : Wire}
    {sock : Nat} (whole : (sendAll env sends w).broken sock = false) :
    w.broken sock = false ∧
      (sendAll env sends w).stream sock =
        w.stream sock ++ addressed sock sends := by
  induction sends generalizing w with
  | nil => exact ⟨whole, (List.append_nil _).symm⟩
  | cons send rest inductionHypothesis =>
      rw [sendAll, List.foldl_cons, ← sendAll] at whole ⊢
      obtain ⟨before, stream⟩ := inductionHypothesis whole
      rw [stream]
      unfold ivshmemServerSendOneMsg at before ⊢
      by_cases here : send.1 = sock
      · subst here
        cases sent : env.net w.calls with
        | false => simp [sent] at before
        | true =>
            rw [sent, if_pos rfl] at before
            refine ⟨before, ?_⟩
            simp [addressed]
      · cases sent : env.net w.calls with
        | false =>
            rw [sent] at before
            simp only [Bool.false_eq_true, if_false,
              Function.update_of_ne (Ne.symm here)] at before
            exact ⟨before, by simp [addressed, here]⟩
        | true =>
            rw [sent, if_pos rfl] at before
            refine ⟨before, ?_⟩
            simp [addressed, here, Function.update_of_ne (Ne.symm here)]

/-- A burst does not touch the sockets it is not for. -/
theorem sendAll_elsewhere {env : Env} {sends : Sends} {w : Wire}
    {sock : Nat} (away : ∀ send ∈ sends, send.1 ≠ sock) :
    (sendAll env sends w).stream sock = w.stream sock ∧
      (sendAll env sends w).broken sock = w.broken sock := by
  induction sends generalizing w with
  | nil => exact ⟨rfl, rfl⟩
  | cons send rest inductionHypothesis =>
      rw [sendAll, List.foldl_cons, ← sendAll]
      obtain ⟨stream, broken⟩ := inductionHypothesis
        (w := (ivshmemServerSendOneMsg env send.1 send.2 w).2)
        fun other member => away other (List.mem_cons_of_mem _ member)
      have here := (away send (List.mem_cons_self ..)).symm
      rw [stream, broken]
      unfold ivshmemServerSendOneMsg
      split
      · exact ⟨Function.update_of_ne here .., rfl⟩
      · exact ⟨rfl, Function.update_of_ne here ..⟩

/-- The first three messages of a connection. -/
def initialInfo (id : Nat) : List (Msg Descriptor) :=
  [{ index := ivshmemProtocolVersion, fd := none }, { index := id, fd := none },
    { index := -1, fd := some .shm }]

theorem sendInitialInfo_sent {env : Env} {peer : Peer} {w w' : Wire}
    (sent : ivshmemServerSendInitialInfo env peer w = (true, w')) :
    w'.broken = w.broken ∧
      w'.stream = Function.update w.stream peer.sockFd
        (w.stream peer.sockFd ++ initialInfo peer.id) := by
  unfold ivshmemServerSendInitialInfo ivshmemServerSendOneMsg at sent
  cases first : env.net w.calls with
  | false => simp [first] at sent
  | true =>
      cases second : env.net (w.calls + 1) with
      | false => simp [first, second] at sent
      | true =>
          cases third : env.net (w.calls + 1 + 1) with
          | false => simp [first, second, third] at sent
          | true =>
              simp only [first, second, third, if_true, Prod.mk.injEq,
                true_and] at sent
              subst sent
              exact ⟨rfl, by simp [initialInfo]⟩

/-- All three messages are needed, and nothing else is. -/
theorem sendInitialInfo_iff {env : Env} {peer : Peer} {w : Wire} :
    (ivshmemServerSendInitialInfo env peer w).1 = true ↔
      ∀ k, k < 3 → env.net (w.calls + k) = true := by
  have three : (∀ k, k < 3 → env.net (w.calls + k) = true) ↔
      env.net w.calls = true ∧ env.net (w.calls + 1) = true ∧
        env.net (w.calls + 1 + 1) = true := by
    constructor
    · intro every
      exact ⟨every 0 (by omega), every 1 (by omega), every 2 (by omega)⟩
    · rintro ⟨first, second, third⟩ k small
      obtain rfl | rfl | rfl : k = 0 ∨ k = 1 ∨ k = 2 := by omega
      · exact first
      · exact second
      · exact third
  rw [three]
  unfold ivshmemServerSendInitialInfo ivshmemServerSendOneMsg
  cases first : env.net w.calls <;> cases second : env.net (w.calls + 1) <;>
    cases third : env.net (w.calls + 1 + 1) <;> simp [second, third]

theorem sendInitialInfo_elsewhere {env : Env} {peer : Peer} {w : Wire}
    {sock : Nat} (away : sock ≠ peer.sockFd) :
    (ivshmemServerSendInitialInfo env peer w).2.stream sock = w.stream sock ∧
      (ivshmemServerSendInitialInfo env peer w).2.broken sock =
        w.broken sock := by
  unfold ivshmemServerSendInitialInfo ivshmemServerSendOneMsg
  cases first : env.net w.calls <;> cases second : env.net (w.calls + 1) <;>
    cases third : env.net (w.calls + 1 + 1) <;> simp [away, second, third]

/-! ### A new connection -/

/-- What a peer costs. -/
def Peer.handles (peer : Peer) : List Handle :=
  .sock peer.sockFd :: .peer peer.sockFd :: peer.vectors.map .notifier

/-- A connection that fails leaves nothing but spent numbers. -/
structure Refused (s t : State) : Prop where
  running : t.running = s.running
  peerList : t.peerList = s.peerList
  admitted : t.admitted = s.admitted
  curId : s.curId < 2 ^ 16 → t.curId < 2 ^ 16
  conns : s.conns ≤ t.conns
  inits : s.inits ≤ t.inits
  wire : ∀ sock, sock < s.conns ∨ t.conns ≤ sock →
    t.wire.stream sock = s.wire.stream sock ∧
      t.wire.broken sock = s.wire.broken sock
  log : ∃ log, t.log = s.log ++ log ∧ ∀ held, Custody.run held log = some held

/-- A connection that succeeds. -/
structure Joined (env : Env) (peer : Peer) (s t : State) : Prop where
  running : t.running = s.running
  sockFd : peer.sockFd = s.conns
  conns : t.conns = s.conns + 1
  small : peer.id < 2 ^ 16
  free : peer.id ∉ s.peerList.map Peer.id
  next : t.curId = (peer.id + 1) % 2 ^ 16
  vectors : peer.vectors = List.range' s.inits env.nVectors
  inits : s.inits + env.nVectors ≤ t.inits
  peerList : t.peerList = s.peerList ++ [peer]
  admitted : t.admitted = s.admitted ++ [peer]
  wire : ∃ w, ivshmemServerSendInitialInfo env peer s.wire = (true, w) ∧
    t.wire = sendAll env
      (advertiseNew peer s.peerList ++ advertiseOthers peer s.peerList ++
        advertiseSelf peer) w
  log : t.log = s.log ++ peer.handles.map .acquire

/-- What a failed connection gives back, in order. -/
def dropped (newfd : Nat) (vectors : List Nat) : List Handle :=
  vectors.reverse.map .notifier ++ [.sock newfd, .peer newfd]

theorem dropConn_eq (newfd : Nat) (vectors : List Nat) (s : State) :
    dropConn newfd vectors s =
      { s with log := s.log ++ (dropped newfd vectors).map .release } := by
  rw [dropConn, cleanupVectors_eq]
  simp [State.release, dropped]

/-- A log that takes what a peer costs and gives it back in any order. -/
theorem settled_of_perm {peer : Peer} {back : List Handle}
    (same : back.Perm peer.handles) (held : Multiset Handle) :
    Custody.run held
      (peer.handles.map .acquire ++ back.map .release) = some held := by
  rw [Custody.run_append, Custody.run_acquires, Option.bind_some,
    ← Multiset.coe_eq_coe.mpr same, Custody.run_releases]

theorem dropped_perm (peer : Peer) :
    (dropped peer.sockFd peer.vectors).Perm peer.handles := by
  refine List.perm_append_comm.trans ?_
  exact (((List.reverse_perm peer.vectors).map _).cons _).cons _

/-- The notifiers of a connection that fails before its end. -/
theorem introduce_cases {env : Env} {peer : Peer} {s : State} :
    (∃ t, introduce env peer s = (false, t) ∧
      t = { s with
            wire := (ivshmemServerSendInitialInfo env peer s.wire).2
            log := s.log ++
              (dropped peer.sockFd peer.vectors).map .release }) ∨
    ∃ w, ivshmemServerSendInitialInfo env peer s.wire = (true, w) ∧
      introduce env peer s =
        (true,
          { s with
            wire := sendAll env
              (advertiseNew peer s.peerList ++
                advertiseOthers peer s.peerList ++ advertiseSelf peer) w
            peerList := s.peerList ++ [peer]
            admitted := s.admitted ++ [peer] }) := by
  unfold introduce
  cases sent : ivshmemServerSendInitialInfo env peer s.wire with
  | mk ok w =>
      cases ok with
      | false => exact .inl ⟨_, rfl, dropConn_eq ..⟩
      | true => exact .inr ⟨w, rfl, rfl⟩

/-- The connection once its id is found. -/
def State.begun (s : State) (id : Nat) : State :=
  { (({ s with conns := s.conns + 1 }.acquire (.sock s.conns)).acquire
      (.peer s.conns)) with
    curId := (id + 1) % 2 ^ 16 }

/-- The connection once it has notifiers. -/
def State.withPeer (s : State) (peer : Peer) (inits : Nat) : State :=
  { s with
    conns := s.conns + 1
    curId := (peer.id + 1) % 2 ^ 16
    inits := inits
    log := s.log ++ peer.handles.map .acquire }

theorem begun_withPeer {env : Env} {s after : State} {id : Nat} {ok : Bool}
    {vectors : List Nat}
    (made : initVectors env env.nVectors (s.begun id) = (ok, vectors, after)) :
    ∃ inits, s.inits ≤ inits ∧
      after = s.withPeer { sockFd := s.conns, id := id, vectors := vectors }
        inits ∧
      (ok = true → vectors = List.range' s.inits env.nVectors ∧
        s.inits + env.nVectors ≤ inits) := by
  obtain ⟨count, range, -, full, inits, above, same⟩ :=
    initVectors_spec env env.nVectors (s.begun id)
  rw [made] at range full same
  have range : vectors = List.range' s.inits count := range
  have above : s.inits + count ≤ inits := above
  refine ⟨inits, by omega, ?_, fun whole => ?_⟩
  · refine Eq.trans same ?_
    rw [range]
    simp [State.withPeer, State.begun, State.acquire, Peer.handles]
  · rw [← full whole]
    exact ⟨range, above⟩

/-- A failing connection gives back what it took. -/
theorem refused_dropped {s : State} {peer : Peer} {inits : Nat} {w : Wire}
    (above : s.inits ≤ inits)
    (wire : ∀ sock, sock ≠ s.conns →
      w.stream sock = s.wire.stream sock ∧
        w.broken sock = s.wire.broken sock) :
    Refused s
      { s.withPeer peer inits with
        wire := w
        log := (s.withPeer peer inits).log ++
          (dropped peer.sockFd peer.vectors).map .release } := by
  refine ⟨rfl, rfl, rfl, fun _ => Nat.mod_lt _ (by decide), Nat.le_succ _,
    above, fun sock away => wire sock ?_,
    peer.handles.map .acquire ++
      (dropped peer.sockFd peer.vectors).map .release, ?_,
    settled_of_perm (dropped_perm peer)⟩
  · simp only [State.withPeer] at away
    omega
  · exact List.append_assoc ..

/-- A new connection is refused without a trace or joins. -/
theorem handleNewConn_cases (env : Env) (accepted : Bool) (s : State)
    (small : s.curId < 2 ^ 16) :
    (∃ t, ivshmemServerHandleNewConn env accepted s = (false, t) ∧
      Refused s t) ∨
    ∃ peer t, ivshmemServerHandleNewConn env accepted s = (true, t) ∧
      Joined env peer s t := by
  cases accepted with
  | false =>
      refine .inl ⟨s, rfl, rfl, rfl, rfl, id, Nat.le_refl _, Nat.le_refl _,
        fun _ _ => ⟨rfl, rfl⟩, [], (List.append_nil _).symm, fun _ => rfl⟩
  | true =>
      simp only [ivshmemServerHandleNewConn, if_true]
      split
      · rename_i curId exhausted
        obtain ⟨bound, -⟩ := unusedId_exhausted small exhausted
        refine .inl ⟨_, rfl, rfl, rfl, rfl, fun _ => bound, Nat.le_succ _,
          Nat.le_refl _, fun _ _ => ⟨rfl, rfl⟩,
          [.acquire (.sock s.conns), .acquire (.peer s.conns),
            .release (.sock s.conns), .release (.peer s.conns)], ?_, ?_⟩
        · simp [State.acquire, State.release]
        · intro held
          rw [Custody.run_acquire, Custody.run_acquire,
            Custody.run_release_cons_cons, Custody.run_release_cons]
          rfl
      · rename_i id found
        obtain ⟨k, -, here, free, -⟩ := unusedId_found small found
        split
        · rename_i vectors after made
          obtain ⟨inits, above, rfl, -⟩ := begun_withPeer made
          refine .inl ⟨_, rfl, ?_⟩
          rw [dropConn_eq]
          exact refused_dropped above fun _ _ => ⟨rfl, rfl⟩
        · rename_i vectors after made
          obtain ⟨inits, above, rfl, whole⟩ := begun_withPeer made
          obtain ⟨range, above⟩ := whole rfl
          rcases introduce_cases with ⟨t, stops, rfl⟩ | ⟨w, sent, joins⟩
          · refine .inl ⟨_, stops, refused_dropped (by omega) ?_⟩
            exact fun sock away => sendInitialInfo_elsewhere away
          · refine .inr ⟨_, _, joins, rfl, rfl, rfl, ?_, free, rfl, range,
              above, rfl, rfl, ⟨w, sent, rfl⟩, rfl⟩
            change id < _
            rw [here]
            exact Nat.mod_lt _ (by decide)

/-! ### The end of a connection -/

/-- A peer that leaves. -/
structure Left (env : Env) (peer : Peer) (s t : State) : Prop where
  running : t.running = s.running
  admitted : t.admitted = s.admitted
  curId : t.curId = s.curId
  conns : t.conns = s.conns
  inits : t.inits = s.inits
  peerList : t.peerList = s.peerList.erase peer
  wire : t.wire = sendAll env
    ((s.peerList.erase peer).map fun other =>
      (other.sockFd, { index := peer.id, fd := none })) s.wire
  log : ∃ back : List Handle, back.Perm peer.handles ∧
    t.log = s.log ++ back.map .release

theorem freePeer_left (env : Env) (peer : Peer) (s : State) :
    Left env peer s (ivshmemServerFreePeer env peer s) := by
  simp only [ivshmemServerFreePeer, cleanupVectors_eq]
  refine ⟨rfl, rfl, rfl, rfl, rfl, rfl, rfl,
    .sock peer.sockFd :: (peer.vectors.map .notifier ++ [.peer peer.sockFd]),
    ?_, ?_⟩
  · exact (List.perm_append_comm).cons _
  · simp [State.release]

/-! ### What every run keeps -/

/-- The live peers have ids, sockets and notifiers of their own. -/
structure Sound (env : Env) (s : State) : Prop where
  curId : s.curId < 2 ^ 16
  ids : (s.peerList.map Peer.id).Nodup
  small : ∀ peer ∈ s.peerList, peer.id < 2 ^ 16
  socks : (s.peerList.map Peer.sockFd).Nodup
  accepted : ∀ peer ∈ s.peerList, peer.sockFd < s.conns
  full : ∀ peer ∈ s.peerList, peer.vectors.length = env.nVectors
  notifiers : (s.peerList.flatMap Peer.vectors).Nodup
  made : ∀ peer ∈ s.peerList, ∀ vector ∈ peer.vectors, vector < s.inits
  fresh : ∀ sock, s.conns ≤ sock →
    s.wire.stream sock = [] ∧ s.wire.broken sock = false

namespace Sound

variable {env : Env} {s t : State} {peer : Peer}

theorem init (env : Env) : Sound env init :=
  ⟨by decide, .nil, nofun, .nil, nofun, nofun, .nil, nofun,
    fun _ _ => ⟨rfl, rfl⟩⟩

theorem nodup (sound : Sound env s) : s.peerList.Nodup :=
  .of_map _ sound.ids

theorem refused (sound : Sound env s) (refused : Refused s t) :
    Sound env t := by
  refine ⟨refused.curId sound.curId, ?_, ?_, ?_, ?_, ?_, ?_, ?_, ?_⟩
  · rw [refused.peerList]
    exact sound.ids
  · rw [refused.peerList]
    exact sound.small
  · rw [refused.peerList]
    exact sound.socks
  · rw [refused.peerList]
    intro peer member
    exact Nat.lt_of_lt_of_le (sound.accepted peer member) refused.conns
  · rw [refused.peerList]
    exact sound.full
  · rw [refused.peerList]
    exact sound.notifiers
  · rw [refused.peerList]
    intro peer member vector inside
    exact Nat.lt_of_lt_of_le (sound.made peer member vector inside)
      refused.inits
  · intro sock above
    obtain ⟨stream, broken⟩ := refused.wire sock (.inr above)
    rw [stream, broken]
    exact sound.fresh sock (Nat.le_trans refused.conns above)

/-- The bursts of a new connection are for the peers and for itself. -/
theorem addressees (joined : Joined env peer s t) :
    ∀ send ∈ advertiseNew peer s.peerList ++
      advertiseOthers peer s.peerList ++ advertiseSelf peer,
      send.1 = s.conns ∨ ∃ other ∈ s.peerList, send.1 = other.sockFd := by
  intro send member
  simp only [advertiseNew, advertiseOthers, advertiseSelf, sendTo,
    List.mem_append, List.mem_flatMap, List.mem_map] at member
  rcases member with (⟨other, live, -, -, rfl⟩ | ⟨other, live, -, -, rfl⟩) |
    ⟨-, -, rfl⟩
  · exact .inr ⟨other, live, rfl⟩
  · exact .inl joined.sockFd
  · exact .inl joined.sockFd

theorem joined (sound : Sound env s) (joined : Joined env peer s t) :
    Sound env t := by
  have members : ∀ other ∈ t.peerList, other ∈ s.peerList ∨ other = peer := by
    intro other member
    rw [joined.peerList, List.mem_append, List.mem_singleton] at member
    exact member
  refine ⟨?_, ?_, fun other member => ?_, ?_, fun other member => ?_,
    fun other member => ?_, ?_, fun other member vector inside => ?_,
    fun sock above => ?_⟩
  · rw [joined.next]
    exact Nat.mod_lt _ (by decide)
  · rw [joined.peerList, List.map_append, List.nodup_append]
    refine ⟨sound.ids, List.nodup_singleton _, ?_⟩
    rintro id held other new rfl
    rw [List.map_singleton, List.mem_singleton] at new
    exact joined.free (new ▸ held)
  · rcases members other member with old | rfl
    · exact sound.small other old
    · exact joined.small
  · rw [joined.peerList, List.map_append, List.nodup_append]
    refine ⟨sound.socks, List.nodup_singleton _, ?_⟩
    rintro sock held other new rfl
    rw [List.map_singleton, List.mem_singleton, joined.sockFd] at new
    obtain ⟨old, live, rfl⟩ := List.mem_map.mp held
    exact Nat.ne_of_lt (sound.accepted old live) new
  · rw [joined.conns]
    rcases members other member with old | rfl
    · exact Nat.lt_succ_of_lt (sound.accepted other old)
    · rw [joined.sockFd]
      exact Nat.lt_succ_self _
  · rcases members other member with old | rfl
    · exact sound.full other old
    · rw [joined.vectors, List.length_range']
  · rw [joined.peerList, List.flatMap_append, List.nodup_append]
    refine ⟨sound.notifiers, ?_, ?_⟩
    · rw [List.flatMap_singleton, joined.vectors]
      exact List.nodup_range'
    · rintro vector held other new rfl
      rw [List.flatMap_singleton, joined.vectors, List.mem_range'_1] at new
      obtain ⟨old, live, inside⟩ := List.mem_flatMap.mp held
      have := sound.made old live vector inside
      omega
  · rcases members other member with old | rfl
    · have := sound.made other old vector inside
      have := joined.inits
      omega
    · rw [joined.vectors, List.mem_range'_1] at inside
      have := joined.inits
      omega
  · rw [joined.conns] at above
    obtain ⟨w, sent, wire⟩ := joined.wire
    have away : ∀ send ∈ advertiseNew peer s.peerList ++
        advertiseOthers peer s.peerList ++ advertiseSelf peer,
        send.1 ≠ sock := by
      intro send member
      rcases addressees joined send member with new | ⟨other, live, old⟩
      · omega
      · have := sound.accepted other live
        omega
    obtain ⟨stream, broken⟩ := @sendAll_elsewhere env _ w _ away
    obtain ⟨unbroken, first⟩ := sendInitialInfo_sent sent
    obtain ⟨empty, whole⟩ := sound.fresh sock (by omega)
    have other : sock ≠ peer.sockFd := by
      rw [joined.sockFd]
      omega
    rw [wire, stream, broken, unbroken, first, Function.update_of_ne other]
    exact ⟨empty, whole⟩

theorem left (sound : Sound env s) (left : Left env peer s t) :
    Sound env t := by
  have members : ∀ other ∈ s.peerList.erase peer, other ∈ s.peerList :=
    fun other member => List.mem_of_mem_erase member
  have sublist : (s.peerList.erase peer).Sublist s.peerList :=
    List.erase_sublist
  refine ⟨?_, ?_, ?_, ?_, ?_, ?_, ?_, ?_, fun sock above => ?_⟩
  · rw [left.curId]
    exact sound.curId
  · rw [left.peerList]
    exact sound.ids.sublist (sublist.map _)
  · rw [left.peerList]
    exact fun other member => sound.small other (members other member)
  · rw [left.peerList]
    exact sound.socks.sublist (sublist.map _)
  · rw [left.peerList, left.conns]
    exact fun other member => sound.accepted other (members other member)
  · rw [left.peerList]
    exact fun other member => sound.full other (members other member)
  · rw [left.peerList]
    exact sound.notifiers.sublist (sublist.flatMap _)
  · rw [left.peerList, left.inits]
    exact fun other member => sound.made other (members other member)
  · rw [left.conns] at above
    have away : ∀ send ∈ (s.peerList.erase peer).map fun other =>
        (other.sockFd, ({ index := peer.id, fd := none } : Msg Descriptor)),
        send.1 ≠ sock := by
      intro send member
      obtain ⟨other, live, rfl⟩ := List.mem_map.mp member
      have := sound.accepted other (members other live)
      change other.sockFd ≠ sock
      omega
    obtain ⟨stream, broken⟩ :=
      @sendAll_elsewhere env _ s.wire _ away
    rw [left.wire, stream, broken]
    exact sound.fresh sock above

end Sound

/-- What is left once the peers of a list are freed. -/
theorem freePeers_peerList (env : Env) (peers : List Peer) (s : State) :
    (freePeers env peers s).peerList = s.peerList.diff peers := by
  induction peers generalizing s with
  | nil => rfl
  | cons peer rest inductionHypothesis =>
      rw [freePeers, List.foldl_cons, ← freePeers, inductionHypothesis,
        (freePeer_left env peer s).peerList, List.diff_cons]

theorem freePeers_running (env : Env) (peers : List Peer) (s : State) :
    (freePeers env peers s).running = s.running := by
  induction peers generalizing s with
  | nil => rfl
  | cons peer rest inductionHypothesis =>
      rw [freePeers, List.foldl_cons, ← freePeers, inductionHypothesis,
        (freePeer_left env peer s).running]

theorem freePeers_keeps {env : Env} {Keeps : State → Prop}
    (leaves : ∀ s t peer, Keeps s → peer ∈ s.peerList → Left env peer s t →
      Keeps t)
    {peers : List Peer} {s : State} (once : peers.Nodup)
    (live : ∀ peer ∈ peers, peer ∈ s.peerList) (holds : Keeps s) :
    Keeps (freePeers env peers s) := by
  induction peers generalizing s with
  | nil => exact holds
  | cons peer rest inductionHypothesis =>
      obtain ⟨new, once⟩ := List.nodup_cons.mp once
      have left := freePeer_left env peer s
      rw [freePeers, List.foldl_cons, ← freePeers]
      apply inductionHypothesis once
      · intro other member
        rw [left.peerList]
        have different : other ≠ peer := fun same => new (same ▸ member)
        exact (List.mem_erase_of_ne different).mpr
          (live other (List.mem_cons_of_mem _ member))
      · exact leaves s _ peer holds (live peer (List.mem_cons_self ..)) left

/-- The rule for invariants: what refused and new connections, leaving peers
and the close of an empty server keep is kept by every step. -/
theorem step_keeps {env : Env} {Keeps : State → Prop}
    (sound : ∀ s, Keeps s → Sound env s)
    (refuses : ∀ s t, Keeps s → Refused s t → Keeps t)
    (joins : ∀ s t peer, Keeps s → s.running = true → Joined env peer s t →
      Keeps t)
    (leaves : ∀ s t peer, Keeps s → peer ∈ s.peerList → Left env peer s t →
      Keeps t)
    (closes : ∀ s, Keeps s → s.running = true → s.peerList = [] →
      Keeps
        { (s.release .listener).release .shm with running := false })
    {s t : State} {label : Label} (holds : Keeps s)
    (taken : step env s label = some t) : Keeps t := by
  have close : ∀ s, Keeps s → s.running = true →
      Keeps (ivshmemServerClose env s) := by
    intro s holds running
    apply closes
    · exact freePeers_keeps leaves (sound s holds).nodup (fun _ => id) holds
    · rw [freePeers_running, running]
    · rw [freePeers_peerList, List.eq_nil_iff_forall_not_mem]
      intro peer member
      rw [List.Nodup.mem_sdiff_iff (sound s holds).nodup] at member
      exact member.2 member.1
  have conn : ∀ s accept, Keeps s → s.running = true →
      Keeps (ivshmemServerHandleNewConn env accept s).2 ∧
        (ivshmemServerHandleNewConn env accept s).2.running = s.running := by
    intro s accept holds running
    rcases handleNewConn_cases env accept s (sound s holds).curId with
      ⟨t, refused, cases⟩ | ⟨peer, t, joined, cases⟩
    · rw [refused]
      exact ⟨refuses s t holds cases, cases.running⟩
    · rw [joined]
      exact ⟨joins s t peer holds running cases, cases.running⟩
  have handle : ∀ s accept ready, Keeps s → s.running = true →
      Keeps (ivshmemServerHandleFds env accept ready s).2 ∧
        (ivshmemServerHandleFds env accept ready s).2.running =
          s.running := by
    intro s accept ready holds up
    have frees : ∀ s, Keeps s → Keeps (freePeers env
        (s.peerList.filter fun peer => peer.sockFd ∈ ready) s) := by
      intro s holds
      refine freePeers_keeps leaves ((sound s holds).nodup.filter _) ?_ holds
      exact fun peer member => List.mem_of_mem_filter member
    unfold ivshmemServerHandleFds
    cases accept with
    | none => exact ⟨frees s holds, freePeers_running ..⟩
    | some event =>
        obtain ⟨kept, running⟩ := conn s event.accepted holds up
        dsimp only
        split
        · exact ⟨frees _ kept, (freePeers_running ..).trans running⟩
        · exact ⟨kept, running⟩
  cases label with
  | quit =>
      simp only [step, Option.ite_none_right_eq_some,
        Option.some.injEq] at taken
      obtain ⟨running, rfl⟩ := taken
      exact close s holds running
  | poll accept ready =>
      simp only [step, Option.ite_none_right_eq_some,
        Option.some.injEq] at taken
      obtain ⟨⟨running, -⟩, rfl⟩ := taken
      obtain ⟨kept, same⟩ := handle s accept ready holds running
      split
      · exact kept
      · exact close _ kept (same.trans running)

theorem sound_step {env : Env} {s t : State} {label : Label}
    (sound : Sound env s) (taken : step env s label = some t) :
    Sound env t := by
  apply step_keeps (fun _ => id) _ _ _ _ sound taken
  · exact fun _ _ sound refused => sound.refused refused
  · exact fun _ _ _ sound _ joined => sound.joined joined
  · exact fun _ _ _ sound _ left => sound.left left
  · intro s sound _ _
    exact ⟨sound.curId, sound.ids, sound.small, sound.socks, sound.accepted,
      sound.full, sound.notifiers, sound.made, sound.fresh⟩

theorem sound_run {env : Env} {trace : List Label} {s : State}
    (reached : Transition.run (step env) init trace = some s) :
    Sound env s :=
  Transition.run_preserves (fun _ _ _ sound taken => sound_step sound taken)
    (Sound.init env) reached

/-! ### Who is let in -/

/-- The search fails exactly when all the ids it tries are held. -/
theorem unusedId_iff {peerList : List Peer} {tries curId : Nat}
    (small : curId < 2 ^ 16) :
    (unusedId peerList tries curId).1 = true ↔
      ∃ k, k < tries ∧ (curId + k) % 2 ^ 16 ∉ peerList.map Peer.id := by
  cases search : unusedId peerList tries curId with
  | mk ok id =>
      cases ok with
      | false =>
          obtain ⟨-, held⟩ := unusedId_exhausted small search
          simpa using held
      | true =>
          obtain ⟨k, early, rfl, free, -⟩ := unusedId_found small search
          exact iff_of_true rfl ⟨k, early, free⟩

theorem initVectors_iff {env : Env} {count : Nat} {s : State} :
    (initVectors env count s).1 = true ↔
      ∀ k, k < count → env.eventfd (s.inits + k) = true := by
  induction count generalizing s with
  | zero => exact iff_of_true rfl nofun
  | succ count inductionHypothesis =>
      rw [initVectors]
      split
      · rename_i first
        refine inductionHypothesis.trans ?_
        have shift : ∀ k, s.inits + (k + 1) = s.inits + 1 + k := fun k => by
          omega
        constructor
        · intro rest k early
          cases k with
          | zero => exact first
          | succ k =>
              rw [shift]
              exact rest k (Nat.lt_of_succ_lt_succ early)
        · intro every k early
          have later := every (k + 1) (Nat.succ_lt_succ early)
          rwa [shift] at later
      · rename_i first
        refine iff_of_false Bool.false_ne_true fun every => ?_
        exact first (every 0 (Nat.succ_pos _))

/-- Fewer peers than tries leave an id in reach. -/
theorem exists_unused {peerList : List Peer} {curId : Nat}
    (few : peerList.length < gMaxUint16) :
    ∃ k, k < gMaxUint16 ∧ (curId + k) % 2 ^ 16 ∉ peerList.map Peer.id := by
  by_contra every
  push Not at every
  have inside : ((List.range gMaxUint16).map fun k => (curId + k) % 2 ^ 16) ⊆
      peerList.map Peer.id := by
    intro id member
    obtain ⟨k, early, rfl⟩ := List.mem_map.mp member
    exact every k (List.mem_range.mp early)
  have distinct :
      ((List.range gMaxUint16).map fun k => (curId + k) % 2 ^ 16).Nodup := by
    refine List.nodup_range.map_on ?_
    intro j early k late same
    rw [List.mem_range, gMaxUint16] at early late
    omega
  have bound := (List.subperm_of_subset distinct inside).length_le
  rw [List.length_map, List.length_range, List.length_map] at bound
  omega

/-- An id that nobody holds is among those the search tries. -/
def InReach (s : State) : Prop :=
  ∃ k, k < gMaxUint16 ∧ (s.curId + k) % 2 ^ 16 ∉ s.peerList.map Peer.id

theorem introduce_iff {env : Env} {peer : Peer} {s : State} :
    (introduce env peer s).1 = true ↔
      ∀ k, k < 3 → env.net (s.wire.calls + k) = true := by
  rw [← @sendInitialInfo_iff env peer]
  unfold introduce
  cases sent : ivshmemServerSendInitialInfo env peer s.wire with
  | mk ok w => cases ok <;> rfl

/-- An accepted connection fails for want of an id, of a notifier or of its
first three messages, and for nothing else. -/
theorem handleNewConn_iff {env : Env} {s : State} (small : s.curId < 2 ^ 16) :
    (ivshmemServerHandleNewConn env true s).1 = true ↔
      InReach s ∧ (∀ k, k < env.nVectors → env.eventfd (s.inits + k) = true) ∧
        ∀ k, k < 3 → env.net (s.wire.calls + k) = true := by
  rw [InReach, ← unusedId_iff small]
  have vectors : ∀ id, (initVectors env env.nVectors (s.begun id)).1 = true ↔
      ∀ k, k < env.nVectors → env.eventfd (s.inits + k) = true :=
    fun id => initVectors_iff
  simp only [ivshmemServerHandleNewConn, if_true]
  split
  · rename_i curId exhausted
    have exhausted : unusedId s.peerList gMaxUint16 s.curId = (false, curId) :=
      exhausted
    simp [exhausted]
  · rename_i id found
    have found : unusedId s.peerList gMaxUint16 s.curId = (true, id) := found
    rw [found, ← vectors id]
    split
    · rename_i drawn after made
      have made : initVectors env env.nVectors (s.begun id) =
        (false, drawn, after) := made
      simp [made]
    · rename_i drawn after made
      have made : initVectors env env.nVectors (s.begun id) =
        (true, drawn, after) := made
      obtain ⟨inits, -, rfl, -⟩ := begun_withPeer made
      rw [introduce_iff, made]
      exact ⟨fun sends => ⟨rfl, rfl, sends⟩, fun all => all.2.2⟩

/-- The newcomer's id is the first one from `curId` on that nobody holds. -/
def FirstUnused (s : State) (id : Nat) : Prop :=
  ∃ k, k < gMaxUint16 ∧ id = (s.curId + k) % 2 ^ 16 ∧
    id ∉ s.peerList.map Peer.id ∧
    ∀ j, j < k → (s.curId + j) % 2 ^ 16 ∈ s.peerList.map Peer.id

theorem handleNewConn_id {env : Env} {s t : State} (small : s.curId < 2 ^ 16)
    (admitted : ivshmemServerHandleNewConn env true s = (true, t)) :
    ∃ peer, t.peerList = s.peerList ++ [peer] ∧ FirstUnused s peer.id := by
  simp only [ivshmemServerHandleNewConn, if_true] at admitted
  split at admitted
  · cases admitted
  · rename_i id found
    split at admitted
    · cases admitted
    · rename_i vectors after made
      obtain ⟨inits, -, rfl, -⟩ := begun_withPeer made
      rcases introduce_cases with ⟨u, stops, -⟩ | ⟨w, -, joins⟩
      · rw [admitted] at stops
        cases stops
      · rw [admitted] at joins
        cases joins
        exact ⟨_, rfl, unusedId_found small found⟩

/-- What a server owes its clients about ids. -/
structure Admits (env : Env) (s : State) : Prop where
  distinct : (s.peerList.map Peer.id).Nodup
  small : ∀ peer ∈ s.peerList, peer.id < 2 ^ 16
  admitted : (ivshmemServerHandleNewConn env true s).1 = true ↔
    InReach s ∧ (∀ k, k < env.nVectors → env.eventfd (s.inits + k) = true) ∧
      ∀ k, k < 3 → env.net (s.wire.calls + k) = true
  first : ∀ t, ivshmemServerHandleNewConn env true s = (true, t) →
    ∃ peer, t.peerList = s.peerList ++ [peer] ∧ FirstUnused s peer.id
  room : s.peerList.length < gMaxUint16 → InReach s

/-- Over every run of any connections, failures and hang-ups: the live ids are
distinct 16-bit numbers, an accepted connection is let in exactly when its
notifiers and its first three messages succeed and an id in reach is unused,
which it is as long as fewer than 65535 peers live, and it gets the first unused
one. -/
theorem newConn_admits (env : Env) {trace : List Label} {s : State}
    (reached : Transition.run (step env) init trace = some s) :
    Admits env s := by
  have sound := sound_run reached
  exact ⟨sound.ids, sound.small, handleNewConn_iff sound.curId,
    fun t => handleNewConn_id sound.curId, exists_unused⟩

/-- Two connections, the first one hung up on, and a refused third. -/
theorem newConn_admits_two :
    let env : Env :=
      { nVectors := 2, net := fun call => call ≠ 10,
        eventfd := fun init => init ≠ 5 }
    ∃ s, Transition.run (step env) init
        [.poll (some ⟨true, false⟩) [], .poll (some ⟨true, false⟩) [0],
          .poll (some ⟨true, true⟩) []] = some s ∧ Admits env s := by
  intro env
  obtain ⟨s, reached⟩ : ∃ s, Transition.run (step env) init
      [.poll (some ⟨true, false⟩) [], .poll (some ⟨true, false⟩) [0],
        .poll (some ⟨true, true⟩) []] = some s :=
    Option.isSome_iff_exists.mp (by decide)
  exact ⟨s, reached, newConn_admits env reached⟩

end FameZ.Reference
