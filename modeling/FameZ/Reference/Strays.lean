/-
Module: FameZ.Reference.Strays
Purpose: What a client of the reference server can ring when messages to it
  were lost.
Trusted boundary: none
Main exports: Genuine, Recorded, Trusts, doorbell_never_strays
-/
import FameZ.Reference.Views
import Mathlib.Data.List.Pairwise

namespace FameZ.Reference

/-!
Every message names the peer whose notifier it carries.  A client that misses
some may number the vectors wrongly and may keep a peer that is gone; it still
files each descriptor under the id of the peer that it was made for.  So with
any number of messages lost a ring may arrive at another vector or at a peer
that is gone, but never at a peer of another id.
-/

/-- A message to `p` that carries a descriptor: one of its own to be rung by, or
one of another peer's to ring, under that peer's id. -/
def Genuine (admitted : List Peer) (p : Peer) (msg : Msg Descriptor) : Prop :=
  ∀ fd, msg.fd = some fd →
    (msg.index = p.id ∧ ∃ vector ∈ p.vectors, fd = .rfd vector) ∨
      ∃ q ∈ admitted, q.id ≠ p.id ∧ msg.index = q.id ∧
        ∃ vector ∈ q.vectors, fd = .wfd vector

/-! ### The server -/

/-- A burst reaches a socket in part. -/
theorem sendAll_sublist (env : Env) (sends : Sends) (w : Wire) (sock : Nat) :
    ∃ kept, (sendAll env sends w).stream sock = w.stream sock ++ kept ∧
      kept.Sublist (addressed sock sends) := by
  induction sends generalizing w with
  | nil => exact ⟨[], (List.append_nil _).symm, .refl _⟩
  | cons send rest inductionHypothesis =>
      rw [sendAll, List.foldl_cons, ← sendAll]
      obtain ⟨kept, stream, part⟩ := inductionHypothesis
        (ivshmemServerSendOneMsg env send.1 send.2 w).2
      rw [stream]
      have whole : addressed sock (send :: rest) =
          (if send.1 = sock then [send.2] else []) ++ addressed sock rest := by
        by_cases here : send.1 = sock <;> simp [addressed, here]
      rw [whole]
      unfold ivshmemServerSendOneMsg
      split
      · by_cases here : send.1 = sock
        · subst here
          refine ⟨send.2 :: kept, ?_, ?_⟩
          · simp
          · simpa using part
        · refine ⟨kept, ?_, ?_⟩
          · simp [Function.update_of_ne (Ne.symm here)]
          · simpa [here] using part
      · exact ⟨kept, rfl, part.trans (List.sublist_append_right ..)⟩

/-- The history of a run: the streams of all peers that were ever admitted. -/
structure Recorded (env : Env) (s : State) : Prop where
  sound : Sound env s
  live : ∀ p ∈ s.peerList, p ∈ s.admitted
  accepted : ∀ p ∈ s.admitted, p.sockFd < s.conns
  socks : (s.admitted.map Peer.sockFd).Nodup
  notifiers : (s.admitted.flatMap Peer.vectors).Nodup
  made : ∀ p ∈ s.admitted, ∀ vector ∈ p.vectors, vector < s.inits
  stream : ∀ p ∈ s.admitted, ∃ rest,
    s.wire.stream p.sockFd = initialInfo p.id ++ rest ∧
      ∀ msg ∈ rest, Genuine s.admitted p msg

theorem Genuine.mono {first second : List Peer} {p : Peer}
    {msg : Msg Descriptor} (genuine : Genuine first p msg)
    (more : ∀ q ∈ first, q ∈ second) : Genuine second p msg := by
  intro fd carries
  rcases genuine fd carries with own | ⟨q, member, others⟩
  · exact .inl own
  · exact .inr ⟨q, more q member, others⟩

namespace Recorded

variable {env : Env} {s t : State} {p : Peer}

theorem init (env : Env) : Recorded env init :=
  ⟨Sound.init env, nofun, nofun, .nil, .nil, nofun, nofun⟩

theorem refused (recorded : Recorded env s) (refused : Refused s t) :
    Recorded env t := by
  refine ⟨recorded.sound.refused refused, ?_, ?_, ?_, ?_, ?_, ?_⟩
  · rw [refused.peerList, refused.admitted]
    exact recorded.live
  · rw [refused.admitted]
    exact fun p member =>
      Nat.lt_of_lt_of_le (recorded.accepted p member) refused.conns
  · rw [refused.admitted]
    exact recorded.socks
  · rw [refused.admitted]
    exact recorded.notifiers
  · rw [refused.admitted]
    exact fun p member vector inside =>
      Nat.lt_of_lt_of_le (recorded.made p member vector inside) refused.inits
  · rw [refused.admitted]
    intro p member
    rw [(refused.wire p.sockFd (.inl (recorded.accepted p member))).1]
    exact recorded.stream p member

/-- The sockets of everyone that was ever admitted, the newcomer included. -/
theorem socks_joined (recorded : Recorded env s) (joined : Joined env p s t) :
    (t.admitted.map Peer.sockFd).Nodup := by
  rw [joined.admitted, List.map_append, List.nodup_append]
  refine ⟨recorded.socks, List.nodup_singleton _, ?_⟩
  rintro sock old other new rfl
  rw [List.map_singleton, List.mem_singleton, joined.sockFd] at new
  obtain ⟨q, member, rfl⟩ := List.mem_map.mp old
  exact Nat.ne_of_lt (recorded.accepted q member) new

/-- The bursts of a new connection are genuine. -/
theorem genuine_joined (recorded : Recorded env s) (joined : Joined env p s t)
    {q : Peer} (member : q ∈ t.admitted) {msg : Msg Descriptor}
    (sent : msg ∈ addressed q.sockFd (advertiseNew p s.peerList ++
      advertiseOthers p s.peerList ++ advertiseSelf p)) :
    Genuine t.admitted q msg := by
  have socks := recorded.socks_joined joined
  have new : p ∈ t.admitted := by
    rw [joined.admitted]
    exact List.mem_append_right _ (List.mem_singleton_self p)
  have old : ∀ r ∈ s.peerList, r ∈ t.admitted := fun r live => by
    rw [joined.admitted]
    exact List.mem_append_left _ (recorded.live r live)
  have apart : ∀ r ∈ s.peerList, r.id ≠ p.id := fun r live same =>
    joined.free (same ▸ List.mem_map_of_mem live)
  simp only [addressed, advertiseNew, advertiseOthers, advertiseSelf, sendTo,
    batch, List.mem_map, List.mem_filter, List.mem_append, List.mem_flatMap,
    decide_eq_true_eq] at sent
  obtain ⟨⟨dest, msg⟩, ⟨which, here⟩, rfl⟩ := sent
  have here : dest = q.sockFd := here
  rcases which with (⟨r, live, _, ⟨fd, ⟨vector, own, rfl⟩, rfl⟩, same⟩ |
      ⟨r, live, _, ⟨fd, ⟨vector, own, rfl⟩, rfl⟩, same⟩) |
    ⟨_, ⟨fd, ⟨vector, own, rfl⟩, rfl⟩, same⟩
  · cases same
    have receiver : r = q :=
      List.inj_on_of_nodup_map socks (old r live) member here
    subst receiver
    rintro fd carries
    cases carries
    exact .inr ⟨p, new, (apart r live).symm, rfl, vector, own, rfl⟩
  · cases same
    have receiver : p = q := List.inj_on_of_nodup_map socks new member here
    subst receiver
    rintro fd carries
    cases carries
    exact .inr ⟨r, old r live, apart r live, rfl, vector,
      List.mem_of_mem_take own, rfl⟩
  · cases same
    have receiver : p = q := List.inj_on_of_nodup_map socks new member here
    subst receiver
    rintro fd carries
    cases carries
    exact .inl ⟨rfl, vector, own, rfl⟩

theorem joined (recorded : Recorded env s) (joined : Joined env p s t) :
    Recorded env t := by
  have members : ∀ q ∈ t.admitted, q ∈ s.admitted ∨ q = p := by
    intro q member
    rw [joined.admitted, List.mem_append, List.mem_singleton] at member
    exact member
  refine ⟨recorded.sound.joined joined, fun q live => ?_, fun q member => ?_,
    recorded.socks_joined joined, ?_, fun q member vector inside => ?_,
    fun q member => ?_⟩
  · rw [joined.peerList, List.mem_append] at live
    rw [joined.admitted, List.mem_append]
    exact live.imp_left (recorded.live q)
  · rw [joined.conns]
    rcases members q member with old | rfl
    · exact Nat.lt_succ_of_lt (recorded.accepted q old)
    · rw [joined.sockFd]
      exact Nat.lt_succ_self _
  · rw [joined.admitted, List.flatMap_append, List.nodup_append]
    refine ⟨recorded.notifiers, ?_, ?_⟩
    · rw [List.flatMap_singleton, joined.vectors]
      exact List.nodup_range'
    · rintro vector held other new rfl
      rw [List.flatMap_singleton, joined.vectors, List.mem_range'_1] at new
      obtain ⟨old, earlier, inside⟩ := List.mem_flatMap.mp held
      have := recorded.made old earlier vector inside
      omega
  · have := joined.inits
    rcases members q member with old | rfl
    · have := recorded.made q old vector inside
      omega
    · rw [joined.vectors, List.mem_range'_1] at inside
      omega
  · obtain ⟨w, sent, wire⟩ := joined.wire
    obtain ⟨-, first⟩ := sendInitialInfo_sent sent
    obtain ⟨kept, stream, part⟩ := sendAll_sublist env
      (advertiseNew p s.peerList ++ advertiseOthers p s.peerList ++
        advertiseSelf p) w q.sockFd
    have genuine : ∀ msg ∈ kept, Genuine t.admitted q msg :=
      fun msg inside =>
        recorded.genuine_joined joined member (part.subset inside)
    rw [wire, stream, first]
    rcases members q member with old | rfl
    · have different : q.sockFd ≠ p.sockFd := by
        rw [joined.sockFd]
        exact Nat.ne_of_lt (recorded.accepted q old)
      obtain ⟨rest, before, earlier⟩ := recorded.stream q old
      rw [Function.update_of_ne different, before]
      refine ⟨rest ++ kept, List.append_assoc .., fun msg inside => ?_⟩
      rcases List.mem_append.mp inside with late | new
      · refine (earlier msg late).mono fun r held => ?_
        rw [joined.admitted]
        exact List.mem_append_left _ held
      · exact genuine msg new
    · rw [Function.update_self, joined.sockFd,
        (recorded.sound.fresh _ (Nat.le_refl _)).1, List.nil_append]
      exact ⟨kept, rfl, genuine⟩

theorem left (recorded : Recorded env s) (left : Left env p s t) :
    Recorded env t := by
  refine ⟨recorded.sound.left left, ?_, ?_, ?_, ?_, ?_, ?_⟩
  · rw [left.peerList, left.admitted]
    exact fun q live => recorded.live q (List.mem_of_mem_erase live)
  · rw [left.admitted, left.conns]
    exact recorded.accepted
  · rw [left.admitted]
    exact recorded.socks
  · rw [left.admitted]
    exact recorded.notifiers
  · rw [left.admitted, left.inits]
    exact recorded.made
  · rw [left.admitted, left.wire]
    intro q member
    obtain ⟨rest, before, earlier⟩ := recorded.stream q member
    obtain ⟨kept, stream, part⟩ := sendAll_sublist env
      ((s.peerList.erase p).map fun other =>
        (other.sockFd, { index := p.id, fd := none })) s.wire q.sockFd
    rw [stream, before]
    refine ⟨rest ++ kept, List.append_assoc .., fun msg inside => ?_⟩
    rcases List.mem_append.mp inside with late | new
    · exact earlier msg late
    · intro fd carries
      have removal := part.subset new
      simp only [addressed, List.mem_map, List.mem_filter] at removal
      obtain ⟨send, ⟨⟨other, -, rfl⟩, -⟩, rfl⟩ := removal
      cases carries

theorem step {label : Label} (recorded : Recorded env s)
    (taken : step env s label = some t) : Recorded env t := by
  apply step_keeps (fun _ recorded => recorded.sound) _ _ _ _ recorded taken
  · exact fun _ _ recorded refused => recorded.refused refused
  · exact fun _ _ _ recorded _ joined => recorded.joined joined
  · exact fun _ _ _ recorded _ left => recorded.left left
  · intro s recorded _ _
    obtain ⟨curId, ids, small, socks, accepted, full, notifiers, made, fresh⟩ :=
      recorded.sound
    exact ⟨⟨curId, ids, small, socks, accepted, full, notifiers, made, fresh⟩,
      recorded.live, recorded.accepted, recorded.socks, recorded.notifiers,
      recorded.made, recorded.stream⟩

end Recorded

/-! ### The client -/

/-- The descriptors of a client are filed under the ids of those they were made
for. -/
structure Trusts (admitted : List Peer) (p : Peer) (c : Client Descriptor) :
    Prop where
  id : c.localPeer.id = p.id
  own : ∀ fd ∈ c.localPeer.vectors, ∃ vector ∈ p.vectors, fd = .rfd vector
  others : ∀ known ∈ c.peerList, known.id ≠ p.id ∧
    ∀ fd ∈ known.vectors, ∃ q ∈ admitted, (q.id : Int) = known.id ∧
      ∃ vector ∈ q.vectors, fd = .wfd vector

theorem mem_addVector {δ : Type} {id : Int} {fd : δ}
    {peers : List (ClientPeer δ)} {known : ClientPeer δ}
    (member : known ∈ addVector id fd peers) :
    known ∈ peers ∨ ∃ before ∈ peers, before.id = id ∧
      known = { before with vectors := before.vectors ++ [fd] } := by
  induction peers with
  | nil => cases member
  | cons peer rest inductionHypothesis =>
      rw [addVector] at member
      split at member
      · rename_i here
        rcases List.mem_cons.mp member with same | later
        · exact .inr ⟨peer, List.mem_cons_self .., here, same⟩
        · exact .inl (List.mem_cons_of_mem _ later)
      · rcases List.mem_cons.mp member with same | later
        · exact .inl (same ▸ List.mem_cons_self ..)
        · rcases inductionHypothesis later with old | ⟨before, inside, grown⟩
          · exact .inl (List.mem_cons_of_mem _ old)
          · exact .inr ⟨before, List.mem_cons_of_mem _ inside, grown⟩

namespace Trusts

variable {admitted : List Peer} {p : Peer} {c d : Client Descriptor}

/-- A descriptor of another peer is filed under its id. -/
theorem newVector (trusts : Trusts admitted p c) {msg : Msg Descriptor}
    {fd : Descriptor} (genuine : Genuine admitted p msg)
    (carries : msg.fd = some fd)
    (taken : newVector msg.index fd c = (true, d)) : Trusts admitted p d := by
  have sorted := genuine fd carries
  unfold FameZ.Reference.newVector at taken
  by_cases mine : msg.index = c.localPeer.id
  · have own : ∃ vector ∈ p.vectors, fd = .rfd vector := by
      rcases sorted with ⟨-, own⟩ | ⟨q, -, apart, index, -⟩
      · exact own
      · rw [index, trusts.id] at mine
        exact absurd (Int.ofNat_inj.mp mine) apart
    rw [ivshmemClientSearchPeer, if_pos mine] at taken
    dsimp only at taken
    split at taken
    · cases taken
    · cases taken
      refine ⟨trusts.id, fun held member => ?_, trusts.others⟩
      rcases List.mem_append.mp member with old | new
      · exact trusts.own held old
      · rw [List.mem_singleton.mp new]
        exact own
  · have foreign : msg.index ≠ p.id := trusts.id ▸ mine
    have other : ∃ q ∈ admitted, (q.id : Int) = msg.index ∧
        ∃ vector ∈ q.vectors, fd = .wfd vector := by
      rcases sorted with ⟨index, -⟩ | ⟨q, member, -, index, made⟩
      · exact absurd index foreign
      · exact ⟨q, member, index.symm, made⟩
    rw [ivshmemClientSearchPeer, if_neg mine] at taken
    cases search : c.peerList.find? fun known => known.id = msg.index with
    | none =>
        rw [search] at taken
        cases taken
        refine ⟨trusts.id, trusts.own, fun known member => ?_⟩
        rcases List.mem_append.mp member with old | new
        · exact trusts.others known old
        · rw [List.mem_singleton.mp new]
          refine ⟨foreign, fun held inside => ?_⟩
          rw [List.mem_singleton.mp inside]
          exact other
    | some peer =>
        rw [search] at taken
        dsimp only [Option.map_some] at taken
        split at taken
        · cases taken
        · cases taken
          refine ⟨trusts.id, trusts.own, fun known member => ?_⟩
          rcases mem_addVector member with old | ⟨before, old, index, rfl⟩
          · exact trusts.others known old
          · obtain ⟨apart, earlier⟩ := trusts.others before old
            refine ⟨apart, fun held inside => ?_⟩
            rcases List.mem_append.mp inside with late | new
            · exact earlier held late
            · rw [List.mem_singleton.mp new]
              exact index ▸ other

theorem step (trusts : Trusts admitted p c) {msg : Msg Descriptor}
    (genuine : Genuine admitted p msg) (taken : handle c msg = some d) :
    Trusts admitted p d := by
  simp only [handle, ivshmemClientHandleServerMsg,
    ivshmemClientReadOneMsg_of] at taken
  cases carried : msg.fd with
  | none =>
      rw [carried] at taken
      simp only [deletePeer] at taken
      cases search : ivshmemClientSearchPeer c msg.index with
      | none =>
          rw [search] at taken
          cases taken
      | some found =>
          rw [search] at taken
          cases found with
          | localPeer => cases taken
          | listed peer =>
              cases taken
              exact ⟨trusts.id, trusts.own, fun known member =>
                trusts.others known (List.mem_of_mem_eraseP member)⟩
  | some fd =>
      rw [carried] at taken
      dsimp only at taken
      have before : Trusts admitted p (c.acquire (.fd fd)) :=
        ⟨trusts.id, trusts.own, trusts.others⟩
      split at taken
      · rename_i after accepted
        cases taken
        exact before.newVector genuine carried accepted
      · cases taken

theorem run {msgs : List (Msg Descriptor)} (trusts : Trusts admitted p c)
    (genuine : ∀ msg ∈ msgs, Genuine admitted p msg)
    (taken : Transition.run handle c msgs = some d) :
    Trusts admitted p d := by
  induction msgs generalizing c with
  | nil =>
      cases taken
      exact trusts
  | cons msg rest inductionHypothesis =>
      rw [Transition.run_cons] at taken
      obtain ⟨e, first, later⟩ := Option.bind_eq_some_iff.mp taken
      exact inductionHypothesis
        (trusts.step (genuine msg (List.mem_cons_self ..)) first)
        (fun other member => genuine other (List.mem_cons_of_mem _ member))
        later

/-- A client that has read some of its stream. -/
theorem of_follow {rest : List (Msg Descriptor)} {n : Nat}
    (genuine : ∀ msg ∈ rest, Genuine admitted p msg)
    (read : follow ((initialInfo p.id ++ rest).take n) = some c) :
    Trusts admitted p c := by
  by_cases three : 3 ≤ n
  · obtain ⟨m, rfl⟩ := Nat.exists_eq_add_of_le three
    obtain ⟨first, begun, -, own, none⟩ := Agreed.follow_initialInfo p.id
    have split : (initialInfo p.id ++ rest).take (3 + m) =
        initialInfo p.id ++ rest.take m := by
      rw [List.take_append, List.take_of_length_le (Nat.le_add_right 3 m)]
      exact congrArg (fun k => _ ++ rest.take k) (Nat.add_sub_cancel_left 3 m)
    rw [split, follow_append begun] at read
    refine Trusts.run ⟨by rw [own], by rw [own]; exact nofun,
      by rw [none]; exact nofun⟩ (fun msg member => ?_) read
    exact genuine msg (List.mem_of_mem_take member)
  · obtain rfl | rfl | rfl : n = 0 ∨ n = 1 ∨ n = 2 := by omega
    all_goals cases read

end Trusts

/-- A notifier is of one peer only, in all of history. -/
theorem Recorded.maker {env : Env} {s : State} (recorded : Recorded env s)
    {q r : Peer} (one : q ∈ s.admitted) (other : r ∈ s.admitted)
    {vector : Nat} (own : vector ∈ q.vectors) (shared : vector ∈ r.vectors) :
    r = q := by
  by_contra different
  have apart := (List.nodup_flatMap.mp recorded.notifiers).2
  have : Std.Symm (Function.onFun List.Disjoint Peer.vectors) :=
    ⟨fun _ _ disjoint _ one two => disjoint two one⟩
  exact apart.forall one other (Ne.symm different) own shared

/-- Over every run of any connections, failures, lost messages and hang-ups,
and for every client however much of its stream it has read: it is rung by
notifiers that were made for it, and a ring of a peer that it knows goes to a
notifier that was made for a peer admitted under that id, never its own, and for
nobody else. -/
theorem doorbell_never_strays (env : Env) {trace : List Label} {s : State}
    (reached : Transition.run (step env) init trace = some s) :
    ∀ p ∈ s.admitted, ∀ n c,
      follow ((s.wire.stream p.sockFd).take n) = some c →
        (∀ fd ∈ c.localPeer.vectors, ∃ vector ∈ p.vectors,
          fd = .rfd vector) ∧
        ∀ known ∈ c.peerList, known.id ≠ p.id ∧
          ∀ writes vector,
            ∀ fd ∈ (ivshmemClientNotify writes known vector).2,
              ∃ q ∈ s.admitted, (q.id : Int) = known.id ∧
                ∃ number ∈ q.vectors, fd = .wfd number ∧
                  ∀ r ∈ s.admitted, number ∈ r.vectors → r = q := by
  have recorded : Recorded env s :=
    Transition.run_preserves
      (fun _ _ _ recorded taken => recorded.step taken)
      (Recorded.init env) reached
  intro p member n c read
  obtain ⟨rest, stream, genuine⟩ := recorded.stream p member
  rw [stream] at read
  have trusts := Trusts.of_follow genuine read
  refine ⟨trusts.own, fun known listed => ?_⟩
  obtain ⟨apart, filed⟩ := trusts.others known listed
  refine ⟨apart, fun writes vector fd kicked => ?_⟩
  have held : fd ∈ known.vectors := by
    unfold ivshmemClientNotify at kicked
    split at kicked
    · cases kicked
    · rename_i found
      split at kicked
      · rw [List.mem_singleton.mp kicked]
        exact List.mem_of_getElem? found
      · cases kicked
  obtain ⟨q, was, id, number, own, rfl⟩ := filed fd held
  exact ⟨q, was, id, number, own, rfl, fun r other shared =>
    recorded.maker was other own shared⟩

/-- The first of two vectors of the second peer is lost to the first. -/
theorem doorbell_never_strays_lost :
    let env : Env :=
      { nVectors := 2, net := fun call => call ≠ 8, eventfd := fun _ => true }
    ∃ s, Transition.run (step env) init
        [.poll (some ⟨true, false⟩) [], .poll (some ⟨true, false⟩) []] =
          some s ∧
      ∀ p ∈ s.admitted, ∀ n c,
        follow ((s.wire.stream p.sockFd).take n) = some c →
          (∀ fd ∈ c.localPeer.vectors, ∃ vector ∈ p.vectors,
            fd = .rfd vector) ∧
          ∀ known ∈ c.peerList, known.id ≠ p.id ∧
            ∀ writes vector,
              ∀ fd ∈ (ivshmemClientNotify writes known vector).2,
                ∃ q ∈ s.admitted, (q.id : Int) = known.id ∧
                  ∃ number ∈ q.vectors, fd = .wfd number ∧
                    ∀ r ∈ s.admitted, number ∈ r.vectors → r = q := by
  intro env
  obtain ⟨s, reached⟩ : ∃ s, Transition.run (step env) init
      [.poll (some ⟨true, false⟩) [], .poll (some ⟨true, false⟩) []] =
        some s :=
    Option.isSome_iff_exists.mp (by decide)
  exact ⟨s, reached, doorbell_never_strays env reached⟩

end FameZ.Reference
