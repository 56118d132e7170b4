/-
Module: FameZ.Reference.Views
Purpose: The clients of the reference server know each other as the server
  does.
Trusted boundary: none
Main exports: Sees, Agreed, clients_agree
-/
import FameZ.Reference.Client
import FameZ.Reference.Connections

namespace FameZ.Reference

/-!
A burst of descriptors under one id becomes one peer in every client that does
not know the id, and a client never knows an id that is not live.  So the burst
of a newcomer ends as the last entry of every list, and a hang-up removes one.
-/

/-! ### Messages in a row -/

section

variable {δ : Type} {c d : Client δ} {id : Int} {fds : List δ}

/-- The list of peers has grown at its end. -/
structure Gains (c d : Client δ) (more : List (ClientPeer δ)) : Prop where
  shmFd : d.shmFd = c.shmFd
  localPeer : d.localPeer = c.localPeer
  peerList : d.peerList = c.peerList ++ more

theorem addVector_last {before : List (ClientPeer δ)} {vectors : List δ}
    (fd : δ) (new : id ∉ before.map ClientPeer.id) :
    addVector id fd (before ++ [{ id := id, vectors := vectors }]) =
      before ++ [{ id := id, vectors := vectors ++ [fd] }] := by
  induction before with
  | nil => simp [addVector]
  | cons peer rest inductionHypothesis =>
      rw [List.map_cons, List.mem_cons, not_or] at new
      rw [List.cons_append, addVector, if_neg (Ne.symm new.1),
        inductionHypothesis new.2, List.cons_append]

theorem searchPeer_none (foreign : id ≠ c.localPeer.id)
    (new : id ∉ c.peerList.map ClientPeer.id) :
    ivshmemClientSearchPeer c id = none := by
  rw [ivshmemClientSearchPeer, if_neg foreign, Option.map_eq_none_iff,
    List.find?_eq_none]
  intro peer member
  rw [decide_eq_true_eq]
  rintro rfl
  exact new (List.mem_map_of_mem member)

theorem find?_last {before : List (ClientPeer δ)} {peer : ClientPeer δ}
    (new : peer.id ∉ before.map ClientPeer.id) :
    ((before ++ [peer]).find? fun other => other.id = peer.id) =
      some peer := by
  rw [List.find?_append, List.find?_eq_none.mpr]
  · simp
  · intro other member
    rw [decide_eq_true_eq]
    intro same
    exact new (same ▸ List.mem_map_of_mem member)

/-- More vectors of the peer that came last. -/
theorem run_batch_last {before : List (ClientPeer δ)} {vectors : List δ}
    (foreign : id ≠ c.localPeer.id) (new : id ∉ before.map ClientPeer.id)
    (known : c.peerList = before ++ [{ id := id, vectors := vectors }])
    (room : vectors.length + fds.length ≤ ivshmemClientMaxVectors) :
    ∃ d, Transition.run handle c
        (fds.map fun fd => { index := id, fd := some fd }) = some d ∧
      d.shmFd = c.shmFd ∧ d.localPeer = c.localPeer ∧
      d.peerList = before ++ [{ id := id, vectors := vectors ++ fds }] := by
  induction fds generalizing c vectors with
  | nil => exact ⟨c, rfl, rfl, rfl, by rw [List.append_nil, known]⟩
  | cons fd rest inductionHypothesis =>
      have found : ivshmemClientSearchPeer c id =
          some (.listed { id := id, vectors := vectors }) := by
        rw [ivshmemClientSearchPeer, if_neg foreign, known]
        exact congrArg (Option.map Found.listed)
          (@find?_last _ before { id := id, vectors := vectors } new)
      have space : ¬ ivshmemClientMaxVectors ≤ vectors.length := by
        rw [List.length_cons] at room
        omega
      have taken : handle c { index := id, fd := some fd } =
          some { c.acquire (.fd fd) with
            peerList := addVector id fd c.peerList } := by
        have found : ivshmemClientSearchPeer (c.acquire (.fd fd)) id =
          some (.listed { id := id, vectors := vectors }) := found
        simp only [handle, ivshmemClientHandleServerMsg,
          ivshmemClientReadOneMsg_of, newVector, found, if_neg space]
        rfl
      rw [List.map_cons, Transition.run_cons, taken, Option.bind_some]
      obtain ⟨d, runs, shmFd, localPeer, peerList⟩ := @inductionHypothesis
        { c.acquire (.fd fd) with peerList := addVector id fd c.peerList }
        (vectors ++ [fd]) foreign
        (by rw [known]; exact addVector_last fd new)
        (by simp only [List.length_append, List.length_cons,
              List.length_nil] at room ⊢; omega)
      refine ⟨d, runs, shmFd, localPeer, ?_⟩
      rw [peerList, List.append_assoc, List.singleton_append]

/-- A burst under a new id is a new peer. -/
theorem run_batch_new (foreign : id ≠ c.localPeer.id)
    (new : id ∉ c.peerList.map ClientPeer.id) (nonempty : fds ≠ [])
    (room : fds.length ≤ ivshmemClientMaxVectors) :
    ∃ d, Transition.run handle c
        (fds.map fun fd => { index := id, fd := some fd }) = some d ∧
      Gains c d [{ id := id, vectors := fds }] := by
  cases fds with
  | nil => exact absurd rfl nonempty
  | cons fd rest =>
      have taken : handle c { index := id, fd := some fd } =
          some { c.acquire (.fd fd) with
            peerList := c.peerList ++ [{ id := id, vectors := [fd] }] } := by
        have unknown : ivshmemClientSearchPeer (c.acquire (.fd fd)) id = none :=
          searchPeer_none foreign new
        simp only [handle, ivshmemClientHandleServerMsg,
          ivshmemClientReadOneMsg_of, newVector, unknown]
        rfl
      rw [List.map_cons, Transition.run_cons, taken, Option.bind_some]
      rw [List.length_cons] at room
      obtain ⟨d, runs, shmFd, localPeer, peerList⟩ := @run_batch_last δ
        { c.acquire (.fd fd) with
          peerList := c.peerList ++ [{ id := id, vectors := [fd] }] }
        id rest c.peerList [fd] foreign new rfl
        (by rw [List.length_singleton]; omega)
      exact ⟨d, runs, shmFd, localPeer, peerList⟩

/-- Bursts under new and distinct ids are new peers in that order. -/
theorem run_batches {peers : List (ClientPeer δ)}
    (distinct : (peers.map ClientPeer.id).Nodup)
    (foreign : ∀ peer ∈ peers, peer.id ≠ c.localPeer.id)
    (new : ∀ peer ∈ peers, peer.id ∉ c.peerList.map ClientPeer.id)
    (nonempty : ∀ peer ∈ peers, peer.vectors ≠ [])
    (room : ∀ peer ∈ peers, peer.vectors.length ≤ ivshmemClientMaxVectors) :
    ∃ d, Transition.run handle c
        (peers.flatMap fun peer =>
          peer.vectors.map fun fd => { index := peer.id, fd := some fd }) =
            some d ∧
      Gains c d peers := by
  induction peers generalizing c with
  | nil => exact ⟨c, rfl, rfl, rfl, (List.append_nil _).symm⟩
  | cons peer rest inductionHypothesis =>
      obtain ⟨fresh, distinct⟩ := List.nodup_cons.mp distinct
      have here := List.mem_cons_self (a := peer) (l := rest)
      obtain ⟨d, first, shmFd, localPeer, peerList⟩ :=
        run_batch_new (foreign peer here) (new peer here) (nonempty peer here)
          (room peer here)
      have later : ∀ other ∈ rest, other ∈ peer :: rest :=
        fun other member => List.mem_cons_of_mem _ member
      obtain ⟨e, second, gains⟩ := @inductionHypothesis d distinct
        (fun other member => by
          rw [localPeer]
          exact foreign other (later other member))
        (fun other member => by
          rw [peerList, List.map_append, List.mem_append, not_or]
          refine ⟨new other (later other member), ?_⟩
          rw [List.map_singleton, List.mem_singleton]
          rintro same
          exact fresh (same ▸ List.mem_map_of_mem member))
        (fun other member => nonempty other (later other member))
        (fun other member => room other (later other member))
      refine ⟨e, ?_, gains.shmFd.trans shmFd, gains.localPeer.trans localPeer,
        ?_⟩
      · rw [List.flatMap_cons, Transition.run_append, first, Option.bind_some,
          second]
      · rw [gains.peerList, peerList, List.append_assoc,
          List.singleton_append]

/-- A burst under the client's own id is its own vectors. -/
theorem run_batch_local
    (room : c.localPeer.vectors.length + fds.length ≤
      ivshmemClientMaxVectors) :
    ∃ d, Transition.run handle c
        (fds.map fun fd => { index := c.localPeer.id, fd := some fd }) =
          some d ∧
      d.shmFd = c.shmFd ∧ d.peerList = c.peerList ∧
      d.localPeer =
        { c.localPeer with vectors := c.localPeer.vectors ++ fds } := by
  induction fds generalizing c with
  | nil => exact ⟨c, rfl, rfl, rfl, by rw [List.append_nil]⟩
  | cons fd rest inductionHypothesis =>
      rw [List.length_cons] at room
      have space : ¬ ivshmemClientMaxVectors ≤ c.localPeer.vectors.length := by
        omega
      have taken : handle c { index := c.localPeer.id, fd := some fd } =
          some { c.acquire (.fd fd) with
            localPeer :=
              { c.localPeer with vectors := c.localPeer.vectors ++ [fd] } } := by
        have own : ivshmemClientSearchPeer (c.acquire (.fd fd))
            c.localPeer.id = some .localPeer := if_pos rfl
        have space : ¬ ivshmemClientMaxVectors ≤
          (c.acquire (.fd fd)).localPeer.vectors.length := space
        simp only [handle, ivshmemClientHandleServerMsg,
          ivshmemClientReadOneMsg_of, newVector, own, if_neg space]
        rfl
      rw [List.map_cons, Transition.run_cons, taken, Option.bind_some]
      obtain ⟨d, runs, shmFd, peerList, localPeer⟩ := @inductionHypothesis
        { c.acquire (.fd fd) with
          localPeer :=
            { c.localPeer with vectors := c.localPeer.vectors ++ [fd] } }
        (by simp only [List.length_append, List.length_cons,
              List.length_nil]; omega)
      refine ⟨d, runs, shmFd, peerList, ?_⟩
      rw [localPeer]
      simp

/-- A message without a descriptor removes the peer that it names. -/
theorem handle_removal {peer : ClientPeer δ}
    (foreign : peer.id ≠ c.localPeer.id) (known : peer ∈ c.peerList) :
    ∃ d, handle c { index := peer.id, fd := none } = some d ∧
      d.shmFd = c.shmFd ∧ d.localPeer = c.localPeer ∧
      d.peerList = c.peerList.eraseP fun other => other.id = peer.id := by
  have found : ∃ other, ivshmemClientSearchPeer c peer.id =
      some (.listed other) ∧ other.id = peer.id := by
    rw [ivshmemClientSearchPeer, if_neg foreign]
    cases search : c.peerList.find? fun other => other.id = peer.id with
    | none =>
        have missing := List.find?_eq_none.mp search peer known
        exact absurd (decide_eq_true rfl) missing
    | some other =>
        have same := List.find?_some search
        exact ⟨other, rfl, by simpa using same⟩
  obtain ⟨other, found, same⟩ := found
  refine ⟨ivshmemClientFreePeer other c, ?_, rfl, rfl, ?_⟩
  · simp only [handle, ivshmemClientHandleServerMsg, ivshmemClientReadOneMsg_of,
      deletePeer, found]
  · simp only [ivshmemClientFreePeer, Client.closeAll, same]

/-- A client that goes on reading. -/
theorem follow_append {stream : List (Msg δ)} (read : follow stream = some c)
    (more : List (Msg δ)) :
    follow (stream ++ more) = Transition.run handle c more := by
  unfold follow at read
  split at read
  · rename_i first second third rest
    split at read
    · rename_i connected dialed
      simp only [List.cons_append, follow, dialed]
      rw [Transition.run_append, read, Option.bind_some]
    · cases read
  · cases read

/-- A client that was greeted. -/
theorem follow_greeting (natural : 0 ≤ id) (shm : δ) :
    ∃ c : Client δ,
      follow [{ index := ivshmemProtocolVersion, fd := none },
        { index := id, fd := none }, { index := -1, fd := some shm }] =
          some c ∧
      c.shmFd = some shm ∧ c.localPeer = { id := id, vectors := [] } ∧
        c.peerList = [] := by
  refine ⟨
    { shmFd := some shm
      peerList := []
      localPeer := { id := id, vectors := [] }
      log := [.acquire .sock, .acquire (.fd shm)] }, ?_, rfl, rfl, rfl⟩
  have accepted : ¬ id < 0 := Int.not_lt.mpr natural
  simp [accepted, follow, ivshmemClientConnect, connectId, connectShm,
    ivshmemClientReadOneMsg_of, ivshmemProtocolVersion, ivshmemClientInit,
    Client.acquire]

/-- Nothing was refused on the way. -/
theorem follow_take {stream : List (Msg δ)} (read : follow stream = some c)
    {n : Nat} (three : 3 ≤ n) : (follow (stream.take n)).isSome = true := by
  obtain ⟨n, rfl⟩ := Nat.exists_eq_add_of_le' three
  unfold follow at read
  split at read
  · rename_i first second third rest
    split at read
    · rename_i connected dialed
      rw [← List.take_append_drop n rest, Transition.run_append] at read
      obtain ⟨middle, runs, -⟩ := Option.bind_eq_some_iff.mp read
      simp only [List.take_succ_cons, follow, dialed, runs, Option.isSome_some]
    · cases read
  · cases read

end

/-! ### What is sent to one socket -/

theorem addressed_append (sock : Nat) (first second : Sends) :
    addressed sock (first ++ second) =
      addressed sock first ++ addressed sock second := by
  rw [addressed, List.filter_append, List.map_append, addressed, addressed]

theorem addressed_sendTo (sock : Nat) (msgs : List (Msg Descriptor)) :
    addressed sock (sendTo sock msgs) = msgs := by
  have all : (sendTo sock msgs).filter (fun send => send.1 = sock) =
      sendTo sock msgs := List.filter_eq_self.mpr (by simp [sendTo])
  rw [addressed, all, sendTo, List.map_map]
  exact List.map_id msgs

theorem addressed_elsewhere {sock : Nat} {sends : Sends}
    (away : ∀ send ∈ sends, send.1 ≠ sock) : addressed sock sends = [] := by
  rw [addressed, List.map_eq_nil_iff, List.filter_eq_nil_iff]
  simpa using away

/-- One message or burst for each peer. -/
theorem addressed_peers {peers : List Peer} {peer : Peer} {sends : Peer → Sends}
    (own : ∀ other, ∀ send ∈ sends other, send.1 = other.sockFd)
    (distinct : (peers.map Peer.sockFd).Nodup) (live : peer ∈ peers) :
    addressed peer.sockFd (peers.flatMap sends) =
      addressed peer.sockFd (sends peer) := by
  induction peers with
  | nil => cases live
  | cons other rest inductionHypothesis =>
      obtain ⟨fresh, distinct⟩ := List.nodup_cons.mp distinct
      rw [List.flatMap_cons, addressed_append]
      by_cases here : other = peer
      · subst here
        rw [@addressed_elsewhere _ (rest.flatMap sends), List.append_nil]
        intro send member same
        obtain ⟨late, inside, sent⟩ := List.mem_flatMap.mp member
        rw [own late send sent] at same
        exact fresh (same ▸ List.mem_map_of_mem inside)
      · have inside : peer ∈ rest := by
          rcases List.mem_cons.mp live with same | inside
          · exact absurd same.symm here
          · exact inside
        rw [@addressed_elsewhere _ (sends other), List.nil_append,
          inductionHypothesis distinct inside]
        intro send sent same
        rw [own other send sent] at same
        exact fresh (same ▸ List.mem_map_of_mem inside)

/-! ### The clients -/

/-- A peer as the others know it. -/
def seen (peer : Peer) : ClientPeer Descriptor :=
  { id := peer.id, vectors := peer.vectors.map .wfd }

/-- What the client of a live peer knows: the memory, its own vectors, and all
the other live peers in the server's order. -/
structure Sees (s : State) (peer : Peer) (c : Client Descriptor) : Prop where
  shmFd : c.shmFd = some .shm
  localPeer : c.localPeer = { id := peer.id, vectors := peer.vectors.map .rfd }
  peerList : c.peerList = (s.peerList.erase peer).map seen

/-- Every client that no message was lost to sees what it should. -/
structure Agreed (env : Env) (s : State) : Prop where
  sound : Sound env s
  sees : ∀ peer ∈ s.peerList, s.wire.broken peer.sockFd = false →
    ∃ c, follow (s.wire.stream peer.sockFd) = some c ∧ Sees s peer c

namespace Agreed

variable {env : Env} {s t : State} {peer : Peer}

theorem init (env : Env) : Agreed env init := ⟨Sound.init env, nofun⟩

theorem map_seen_ids (peers : List Peer) :
    (peers.map seen).map ClientPeer.id =
      peers.map fun peer => (peer.id : Int) := by
  rw [List.map_map]
  rfl

theorem mem_ids {peers : List Peer} {id : Nat} :
    (id : Int) ∈ (peers.map seen).map ClientPeer.id ↔
      id ∈ peers.map Peer.id := by
  rw [map_seen_ids, List.mem_map, List.mem_map]
  exact exists_congr fun peer => and_congr_right fun _ => Int.ofNat_inj

theorem refused (agreed : Agreed env s) (refused : Refused s t) :
    Agreed env t := by
  refine ⟨agreed.sound.refused refused, fun peer live whole => ?_⟩
  rw [refused.peerList] at live
  have below := agreed.sound.accepted peer live
  obtain ⟨stream, broken⟩ := refused.wire peer.sockFd (.inl below)
  rw [broken] at whole
  obtain ⟨c, read, sees⟩ := agreed.sees peer live whole
  rw [stream]
  exact ⟨c, read, sees.shmFd, sees.localPeer,
    by rw [refused.peerList]; exact sees.peerList⟩

/-- What a burst for the peers adds to the stream of one. -/
theorem addressed_new (sound : Sound env s) (joined : Joined env peer s t)
    {other : Peer} (live : other ∈ s.peerList) :
    addressed other.sockFd (advertiseNew peer s.peerList ++
      advertiseOthers peer s.peerList ++ advertiseSelf peer) =
        batch peer.id (peer.vectors.map .wfd) := by
  have below := sound.accepted other live
  have different : peer.sockFd ≠ other.sockFd := by
    rw [joined.sockFd]
    exact Nat.ne_of_gt below
  have first : addressed other.sockFd (advertiseNew peer s.peerList) =
      batch peer.id (peer.vectors.map .wfd) := by
    rw [advertiseNew, addressed_peers _ sound.socks live, addressed_sendTo]
    intro dest send member
    obtain ⟨msg, -, rfl⟩ := List.mem_map.mp member
    rfl
  rw [addressed_append, addressed_append, first,
    @addressed_elsewhere _ (advertiseOthers peer s.peerList),
    @addressed_elsewhere _ (advertiseSelf peer), List.append_nil,
    List.append_nil]
  · intro send member
    obtain ⟨msg, -, rfl⟩ := List.mem_map.mp member
    exact different
  · intro send member
    obtain ⟨dest, -, inside⟩ := List.mem_flatMap.mp member
    obtain ⟨msg, -, rfl⟩ := List.mem_map.mp inside
    exact different

/-- What the bursts of a connection add to its own stream. -/
theorem addressed_own (sound : Sound env s) (joined : Joined env peer s t) :
    addressed peer.sockFd (advertiseNew peer s.peerList ++
      advertiseOthers peer s.peerList ++ advertiseSelf peer) =
        (s.peerList.flatMap fun other =>
          batch other.id (other.vectors.map .wfd)) ++
          batch peer.id (peer.vectors.map .rfd) := by
  have others : addressed peer.sockFd (advertiseOthers peer s.peerList) =
      s.peerList.flatMap fun other =>
        batch other.id (other.vectors.map .wfd) := by
    have whole : advertiseOthers peer s.peerList = sendTo peer.sockFd
        (s.peerList.flatMap fun other =>
          batch other.id (other.vectors.map .wfd)) := by
      rw [advertiseOthers, sendTo, List.map_flatMap]
      refine List.flatMap_congr fun other live => ?_
      rw [joined.vectors, List.length_range', ← sound.full other live,
        List.take_length, sendTo]
    rw [whole, addressed_sendTo]
  rw [addressed_append, addressed_append, others, advertiseSelf,
    addressed_sendTo, addressed_elsewhere, List.nil_append]
  intro send member
  obtain ⟨dest, live, inside⟩ := List.mem_flatMap.mp member
  obtain ⟨msg, -, rfl⟩ := List.mem_map.mp inside
  change dest.sockFd ≠ peer.sockFd
  rw [joined.sockFd]
  exact Nat.ne_of_lt (sound.accepted dest live)

theorem follow_initialInfo (id : Nat) :
    ∃ c, follow (initialInfo id) = some c ∧ c.shmFd = some Descriptor.shm ∧
      c.localPeer = { id := id, vectors := [] } ∧ c.peerList = [] :=
  follow_greeting (Int.natCast_nonneg id) Descriptor.shm

theorem seen_distinct (sound : Sound env s) :
    ((s.peerList.map seen).map ClientPeer.id).Nodup := by
  rw [map_seen_ids]
  have distinct := sound.ids.map (f := fun id : Nat => (id : Int))
    fun _ _ same => Int.ofNat_inj.mp same
  rwa [List.map_map] at distinct

variable (lower : 0 < env.nVectors)
  (upper : env.nVectors ≤ ivshmemClientMaxVectors)

include lower in
theorem seen_nonempty (sound : Sound env s) {known : ClientPeer Descriptor}
    (member : known ∈ s.peerList.map seen) : known.vectors ≠ [] := by
  obtain ⟨other, live, rfl⟩ := List.mem_map.mp member
  rw [← List.length_pos_iff, seen, List.length_map, sound.full other live]
  exact lower

include upper in
theorem seen_room (sound : Sound env s) {known : ClientPeer Descriptor}
    (member : known ∈ s.peerList.map seen) :
    known.vectors.length ≤ ivshmemClientMaxVectors := by
  obtain ⟨other, live, rfl⟩ := List.mem_map.mp member
  rw [seen, List.length_map, sound.full other live]
  exact upper

include lower upper in
/-- The newcomer reads of the others and of itself. -/
theorem joined_own (sound : Sound env s) (joined : Joined env peer s t)
    (whole : t.wire.broken peer.sockFd = false) :
    ∃ c, follow (t.wire.stream peer.sockFd) = some c ∧ Sees t peer c := by
  obtain ⟨w, sent, wire⟩ := joined.wire
  obtain ⟨broken, first⟩ := sendInitialInfo_sent sent
  rw [wire] at whole ⊢
  obtain ⟨-, stream⟩ := sendAll_stream whole
  obtain ⟨c, read, shmFd, localPeer, peerList⟩ := follow_initialInfo peer.id
  obtain ⟨d, others, gains⟩ := run_batches (c := c)
    (seen_distinct sound)
    (by
      intro other member
      obtain ⟨live, inside, rfl⟩ := List.mem_map.mp member
      rw [localPeer]
      intro same
      exact joined.free (Int.ofNat_inj.mp same ▸ List.mem_map_of_mem inside))
    (by simp [peerList])
    (fun _ => seen_nonempty lower sound) (fun _ => seen_room upper sound)
  have others : Transition.run handle c
      (s.peerList.flatMap fun other =>
        batch other.id (other.vectors.map .wfd)) = some d := by
    rw [List.flatMap_map] at others
    exact others
  obtain ⟨e, own, shm, list, localEq⟩ := @run_batch_local _ d
    (peer.vectors.map Descriptor.rfd)
    (by
      rw [gains.localPeer, localPeer, List.length_map, joined.vectors,
        List.length_range']
      simpa using upper)
  rw [gains.localPeer, localPeer] at own localEq
  refine ⟨e, ?_, ?_, ?_, ?_⟩
  · rw [stream, addressed_own sound joined, first, Function.update_self,
      joined.sockFd, (sound.fresh _ (Nat.le_refl _)).1, List.nil_append]
    rw [follow_append read, Transition.run_append, others, Option.bind_some]
    exact own
  · rw [shm, gains.shmFd, shmFd]
  · rw [localEq, List.nil_append]
  · have new : peer ∉ s.peerList := fun member =>
      joined.free (List.mem_map_of_mem member)
    rw [list, gains.peerList, peerList, joined.peerList,
      List.erase_append_right _ new, List.erase_cons_head, List.append_nil,
      List.nil_append]

include lower upper in
/-- A client reads of a newcomer. -/
theorem joined_other (agreed : Agreed env s) (joined : Joined env peer s t)
    {other : Peer} (live : other ∈ s.peerList)
    (whole : t.wire.broken other.sockFd = false) :
    ∃ c, follow (t.wire.stream other.sockFd) = some c ∧ Sees t other c := by
  have sound := agreed.sound
  obtain ⟨w, sent, wire⟩ := joined.wire
  obtain ⟨broken, first⟩ := sendInitialInfo_sent sent
  have different : other.sockFd ≠ peer.sockFd := by
    rw [joined.sockFd]
    exact Nat.ne_of_lt (sound.accepted other live)
  rw [wire] at whole ⊢
  obtain ⟨before, stream⟩ := sendAll_stream whole
  rw [broken] at before
  obtain ⟨c, read, sees⟩ := agreed.sees other live before
  obtain ⟨d, runs, gains⟩ := @run_batch_new _ c peer.id
    (peer.vectors.map Descriptor.wfd)
    (by
      rw [sees.localPeer]
      intro same
      exact joined.free (Int.ofNat_inj.mp same ▸ List.mem_map_of_mem live))
    (by
      rw [sees.peerList, mem_ids]
      intro held
      obtain ⟨holder, inside, same⟩ := List.mem_map.mp held
      exact joined.free
        (same ▸ List.mem_map_of_mem (List.mem_of_mem_erase inside)))
    (by
      rw [← List.length_pos_iff, List.length_map, joined.vectors,
        List.length_range']
      exact lower)
    (by
      rw [List.length_map, joined.vectors, List.length_range']
      exact upper)
  refine ⟨d, ?_, ?_, ?_, ?_⟩
  · rw [stream, addressed_new sound joined live, first,
      Function.update_of_ne different]
    exact (follow_append read _).trans runs
  · rw [gains.shmFd, sees.shmFd]
  · rw [gains.localPeer, sees.localPeer]
  · rw [gains.peerList, sees.peerList, joined.peerList,
      List.erase_append_left _ live, List.map_append]
    rfl

include lower upper in
theorem joined (agreed : Agreed env s) (joined : Joined env peer s t) :
    Agreed env t := by
  refine ⟨agreed.sound.joined joined, fun other live whole => ?_⟩
  rw [joined.peerList, List.mem_append, List.mem_singleton] at live
  rcases live with old | rfl
  · exact agreed.joined_other lower upper joined old whole
  · exact joined_own lower upper agreed.sound joined whole

/-- Removal by id removes the peer, where ids are distinct. -/
theorem eraseP_seen {peers : List Peer} (distinct : (peers.map Peer.id).Nodup)
    (live : peer ∈ peers) :
    ((peers.map seen).eraseP fun other => other.id = (seen peer).id) =
      (peers.erase peer).map seen := by
  induction peers with
  | nil => cases live
  | cons first rest inductionHypothesis =>
      obtain ⟨fresh, distinct⟩ := List.nodup_cons.mp distinct
      by_cases here : first = peer
      · subst here
        simp
      · have inside : peer ∈ rest := by
          rcases List.mem_cons.mp live with same | inside
          · exact absurd same.symm here
          · exact inside
        have other : ¬ (seen first).id = (seen peer).id := fun same =>
          fresh (Int.ofNat_inj.mp same ▸ List.mem_map_of_mem inside)
        rw [List.map_cons, List.eraseP_cons_of_neg (by simpa using other),
          inductionHypothesis distinct inside, List.erase_cons_tail,
          List.map_cons]
        simpa using here

/-- A client reads of a peer that left. -/
theorem left (agreed : Agreed env s) (gone : peer ∈ s.peerList)
    (left : Left env peer s t) : Agreed env t := by
  have sound := agreed.sound
  refine ⟨sound.left left, fun other live whole => ?_⟩
  rw [left.peerList] at live
  have before : other ∈ s.peerList := List.mem_of_mem_erase live
  have different : peer ≠ other := by
    rintro rfl
    exact (List.Nodup.not_mem_erase sound.nodup) live
  rw [left.wire] at whole ⊢
  obtain ⟨unbroken, stream⟩ := sendAll_stream whole
  obtain ⟨c, read, sees⟩ := agreed.sees other before unbroken
  have told : addressed other.sockFd
      ((s.peerList.erase peer).map fun dest =>
        (dest.sockFd, ({ index := peer.id, fd := none } : Msg Descriptor))) =
      [{ index := peer.id, fd := none }] := by
    rw [List.map_eq_flatMap, addressed_peers _ _ live]
    · simp [addressed]
    · intro dest send member
      rw [List.mem_singleton.mp member]
    · exact sound.socks.sublist (List.erase_sublist.map _)
  have known : seen peer ∈ c.peerList := by
    rw [sees.peerList]
    exact List.mem_map_of_mem ((List.mem_erase_of_ne different).mpr gone)
  obtain ⟨d, removes, shmFd, localPeer, peerList⟩ := @handle_removal _ c
    (seen peer)
    (by
      rw [sees.localPeer]
      intro same
      exact different (List.inj_on_of_nodup_map sound.ids gone before
        (Int.ofNat_inj.mp same)))
    known
  refine ⟨d, ?_, ?_, ?_, ?_⟩
  · rw [stream, told]
    have removes : handle c { index := peer.id, fd := none } = some d := removes
    rw [follow_append read, Transition.run_cons, removes]
    rfl
  · rw [shmFd, sees.shmFd]
  · rw [localPeer, sees.localPeer]
  · have own : ((s.peerList.erase other).map Peer.id).Nodup :=
      sound.ids.sublist (List.erase_sublist.map Peer.id)
    rw [peerList, sees.peerList, left.peerList, List.erase_comm,
      eraseP_seen own ((List.mem_erase_of_ne different).mpr gone)]

include lower upper in
theorem step {label : Label} (agreed : Agreed env s)
    (taken : step env s label = some t) : Agreed env t := by
  apply step_keeps (fun _ agreed => agreed.sound) _ _ _ _ agreed taken
  · exact fun _ _ agreed refused => agreed.refused refused
  · exact fun _ _ _ agreed _ joined => agreed.joined lower upper joined
  · exact fun _ _ _ agreed live left => agreed.left live left
  · intro s agreed _ empty
    obtain ⟨curId, ids, small, socks, accepted, full, notifiers, made, fresh⟩ :=
      agreed.sound
    refine ⟨⟨curId, ids, small, socks, accepted, full, notifiers, made, fresh⟩,
      fun peer live => ?_⟩
    have live : peer ∈ s.peerList := live
    rw [empty] at live
    cases live

end Agreed

/-- Over every run of any connections, failures and hang-ups: the client of
every live peer that no message was lost to refuses no message that it reads,
and once it has read them all it has its own vectors and knows the other live
peers, in the server's order, each with a descriptor of every vector. -/
theorem clients_agree (env : Env) (lower : 0 < env.nVectors)
    (upper : env.nVectors ≤ ivshmemServerMaxVectors) {trace : List Label}
    {s : State} (reached : Transition.run (step env) init trace = some s) :
    ∀ peer ∈ s.peerList, s.wire.broken peer.sockFd = false →
      (∀ n, 3 ≤ n →
        (follow ((s.wire.stream peer.sockFd).take n)).isSome = true) ∧
      ∃ c, follow (s.wire.stream peer.sockFd) = some c ∧ Sees s peer c := by
  have agreed : Agreed env s :=
    Transition.run_preserves
      (fun _ _ _ agreed taken => agreed.step lower upper taken)
      (Agreed.init env) reached
  intro peer live whole
  obtain ⟨c, read, sees⟩ := agreed.sees peer live whole
  exact ⟨fun n => follow_take read, c, read, sees⟩

/-- Three connections, a hang-up of the second and a message lost to the
third. -/
theorem clients_agree_three :
    let env : Env :=
      { nVectors := 2, net := fun call => call ≠ 24, eventfd := fun _ => true }
    ∃ s, Transition.run (step env) init
        [.poll (some ⟨true, false⟩) [], .poll (some ⟨true, false⟩) [],
          .poll (some ⟨true, false⟩) [1]] = some s ∧
      ∀ peer ∈ s.peerList, s.wire.broken peer.sockFd = false →
        (∀ n, 3 ≤ n →
          (follow ((s.wire.stream peer.sockFd).take n)).isSome = true) ∧
        ∃ c, follow (s.wire.stream peer.sockFd) = some c ∧ Sees s peer c := by
  intro env
  obtain ⟨s, reached⟩ : ∃ s, Transition.run (step env) init
      [.poll (some ⟨true, false⟩) [], .poll (some ⟨true, false⟩) [],
        .poll (some ⟨true, false⟩) [1]] = some s :=
    Option.isSome_iff_exists.mp (by decide)
  exact ⟨s, reached, clients_agree env (by decide) (by decide) reached⟩

end FameZ.Reference
