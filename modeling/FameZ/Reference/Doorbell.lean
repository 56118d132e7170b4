/-
Module: FameZ.Reference.Doorbell
Purpose: Whom the clients of the reference server ring.
Trusted boundary: none
Main exports: rung, reports, reports_notify, reports_broadcast, Arrives,
  rings_arrive
-/
import FameZ.Reference.Views
import Mathlib.Data.List.Pairwise

namespace FameZ.Reference

/-!
A client rings a peer by a descriptor that it was sent under that peer's id.
With all messages read and none lost the rings arrive where they are meant to.
-/

/-- What reads as rung after some writes. -/
def rung (kicked : List Descriptor) : Descriptor → Bool
  | .rfd vector => decide (.wfd vector ∈ kicked)
  | _ => false

/-- What a client reports when these were written to. -/
def reports (kicked : List Descriptor) (c : Client Descriptor) :
    Bool × List Nat :=
  ivshmemClientHandleEvent (rung kicked) (fun _ => true) c

/-! ### Reports -/

/-- The vectors that are ready are reported in order. -/
theorem handleEvents_eq (ready : Descriptor → Bool) (fds : List Descriptor)
    (i : Nat) :
    handleEvents ready (fun _ => true) fds i =
      (true, (List.range' i fds.length).filter fun vector =>
        (fds[vector - i]?.map ready).getD false) := by
  induction fds generalizing i with
  | nil => rfl
  | cons fd rest inductionHypothesis =>
      have later : (List.range' (i + 1) rest.length).filter
          (fun vector => ((fd :: rest)[vector - i]?.map ready).getD false) =
          (List.range' (i + 1) rest.length).filter fun vector =>
            (rest[vector - (i + 1)]?.map ready).getD false := by
        refine List.filter_congr fun vector member => ?_
        obtain ⟨low, -⟩ := List.mem_range'_1.mp member
        obtain ⟨k, rfl⟩ := Nat.exists_eq_add_of_le low
        rw [show i + 1 + k - i = k + 1 by omega, List.getElem?_cons_succ,
          Nat.add_sub_cancel_left]
      rw [handleEvents, inductionHypothesis, List.length_cons,
        List.range'_succ, List.filter_cons, later, Nat.sub_self,
        List.getElem?_cons_zero]
      cases rings : ready fd <;> simp [rings]

/-- The client of a peer reports its vectors that were rung. -/
theorem reports_eq {s : State} {peer : Peer} {c : Client Descriptor}
    (sees : Sees s peer c) (kicked : List Descriptor) :
    reports kicked c =
      (true, (List.range peer.vectors.length).filter fun vector =>
        (peer.vectors[vector]?.map fun number =>
          decide (.wfd number ∈ kicked)).getD false) := by
  rw [reports, ivshmemClientHandleEvent, sees.localPeer, handleEvents_eq,
    List.length_map, ← List.range_eq_range']
  refine congrArg _ (List.filter_congr fun vector _ => ?_)
  rw [Nat.sub_zero, List.getElem?_map]
  cases peer.vectors[vector]? <;> rfl

/-- Nothing is reported of what others were rung for. -/
theorem reports_none {s : State} {peer : Peer} {c : Client Descriptor}
    (sees : Sees s peer c) {kicked : List Descriptor}
    (others : ∀ vector ∈ peer.vectors, .wfd vector ∉ kicked) :
    reports kicked c = (true, []) := by
  rw [reports_eq sees]
  refine congrArg _ (List.filter_eq_nil_iff.mpr fun vector _ => ?_)
  cases held : peer.vectors[vector]? with
  | none => simp
  | some number => simpa using others number (List.mem_of_getElem? held)

/-! ### Rings -/

theorem notify_eq (peer : ClientPeer Descriptor) (vector : Nat) :
    ivshmemClientNotify (fun _ => true) peer vector =
      (peer.vectors[vector]?.isSome, peer.vectors[vector]?.toList) := by
  rw [ivshmemClientNotify]
  cases peer.vectors[vector]? <;> rfl

/-- A loop that goes on after failures. -/
theorem foldl_collect {α β : Type} (f : α → Bool × List β) (l : List α)
    (ok : Bool) (kicked : List β) :
    l.foldl (fun done x => (done.1 && (f x).1, done.2 ++ (f x).2))
        (ok, kicked) =
      (ok && l.all fun x => (f x).1, kicked ++ l.flatMap fun x => (f x).2) := by
  induction l generalizing ok kicked with
  | nil => simp
  | cons x rest inductionHypothesis =>
      rw [List.foldl_cons, inductionHypothesis]
      simp [Bool.and_assoc]

theorem flatMap_getElem? {α : Type} (l : List α) :
    ((List.range l.length).flatMap fun i => l[i]?.toList) = l := by
  induction l with
  | nil => rfl
  | cons x rest inductionHypothesis =>
      rw [List.length_cons, List.range_succ_eq_map, List.flatMap_cons,
        List.flatMap_map]
      simpa using inductionHypothesis

theorem notifyAllVects_eq (peer : ClientPeer Descriptor) :
    ivshmemClientNotifyAllVects (fun _ => true) peer =
      (true, peer.vectors) := by
  have all : (List.range peer.vectors.length).all
      (fun vector => peer.vectors[vector]?.isSome) = true := by
    rw [List.all_eq_true]
    intro vector member
    simpa using member
  simp only [ivshmemClientNotifyAllVects, notify_eq]
  rw [foldl_collect (fun vector =>
    (peer.vectors[vector]?.isSome, peer.vectors[vector]?.toList)), all,
    flatMap_getElem?]
  rfl

theorem notifyBroadcast_eq (c : Client Descriptor) :
    ivshmemClientNotifyBroadcast (fun _ => true) c =
      (true, c.peerList.flatMap ClientPeer.vectors) := by
  simp only [ivshmemClientNotifyBroadcast, notifyAllVects_eq]
  refine (foldl_collect (fun peer : ClientPeer Descriptor =>
    (true, peer.vectors)) c.peerList true []).trans ?_
  simp

/-! ### With nothing lost -/

section

variable {env : Env} {s : State} {p q r : Peer} {c e : Client Descriptor}

/-- A notifier is of one live peer only. -/
theorem notifier_apart (sound : Sound env s) (live : q ∈ s.peerList)
    (other : r ∈ s.peerList) (different : r ≠ q) {number : Nat}
    (own : number ∈ q.vectors) : number ∉ r.vectors := by
  intro shared
  have apart := (List.nodup_flatMap.mp sound.notifiers).2
  have : Std.Symm (Function.onFun List.Disjoint Peer.vectors) :=
    ⟨fun _ _ disjoint _ one two => disjoint two one⟩
  exact apart.forall live other (Ne.symm different) own shared

/-- The search by id finds the peer, where ids are distinct. -/
theorem find?_seen {peers : List Peer} (distinct : (peers.map Peer.id).Nodup)
    (live : q ∈ peers) :
    ((peers.map seen).find? fun other => other.id = (q.id : Int)) =
      some (seen q) := by
  induction peers with
  | nil => cases live
  | cons first rest inductionHypothesis =>
      obtain ⟨fresh, distinct⟩ := List.nodup_cons.mp distinct
      by_cases here : first = q
      · subst here
        simp [seen]
      · have inside : q ∈ rest := by
          rcases List.mem_cons.mp live with same | inside
          · exact absurd same.symm here
          · exact inside
        have other : ¬ (seen first).id = (q.id : Int) := fun same =>
          fresh (Int.ofNat_inj.mp same ▸ List.mem_map_of_mem inside)
        rw [List.map_cons, List.find?_cons_of_neg (by simpa using other),
          inductionHypothesis distinct inside]

/-- The client finds the other live peers by their ids. -/
theorem searchPeer_live (sound : Sound env s) (sees : Sees s p c)
    (own : p ∈ s.peerList) (live : q ∈ s.peerList) (different : q ≠ p) :
    ivshmemClientSearchPeer c q.id = some (.listed (seen q)) := by
  have foreign : (q.id : Int) ≠ c.localPeer.id := by
    rw [sees.localPeer]
    intro same
    exact different (List.inj_on_of_nodup_map sound.ids live own
      (Int.ofNat_inj.mp same))
  have inside : q ∈ s.peerList.erase p :=
    (List.mem_erase_of_ne different).mpr live
  have distinct : ((s.peerList.erase p).map Peer.id).Nodup :=
    sound.ids.sublist (List.erase_sublist.map Peer.id)
  rw [ivshmemClientSearchPeer, if_neg foreign, sees.peerList,
    find?_seen distinct inside]
  rfl

theorem filter_range_eq {n i : Nat} (inside : i < n) :
    ((List.range n).filter fun j => j = i) = [i] := by
  rw [List.filter_eq, List.count_eq_one_of_mem List.nodup_range
    (List.mem_range.mpr inside)]
  rfl

/-- The ring of one vector, as a peer reports it. -/
theorem reports_notify (sound : Sound env s) (live : q ∈ s.peerList)
    (other : r ∈ s.peerList) (sees : Sees s r e) (vector : Nat) :
    reports (ivshmemClientNotify (fun _ => true) (seen q) vector).2 e =
      (true, if r = q ∧ vector < env.nVectors then [vector] else []) := by
  have full := sound.full q live
  rw [notify_eq, seen, List.getElem?_map]
  by_cases inside : vector < env.nVectors
  · obtain ⟨held, here⟩ : ∃ held, q.vectors[vector]? = some held :=
      ⟨_, List.getElem?_eq_getElem (full ▸ inside)⟩
    rw [here]
    by_cases same : r = q
    · subst same
      rw [reports_eq sees, if_pos ⟨rfl, inside⟩, full,
        ← filter_range_eq inside]
      have distinct : r.vectors.Nodup :=
        (List.nodup_flatMap.mp sound.notifiers).1 r live
      refine congrArg _ (List.filter_congr fun i member => ?_)
      have below : i < r.vectors.length := full ▸ List.mem_range.mp member
      obtain ⟨number, there⟩ : ∃ number, r.vectors[i]? = some number :=
        ⟨_, List.getElem?_eq_getElem below⟩
      have same : number = held ↔ i = vector := by
        rw [← List.getElem?_inj below distinct, here, there, Option.some.injEq]
      rw [there]
      simp [same]
    · rw [if_neg fun both => same both.1]
      apply reports_none sees
      intro number own shared
      have drawn : number = held := by simpa using shared
      exact notifier_apart sound live other same
        (List.mem_of_getElem? here) (drawn ▸ own)
  · have none : q.vectors[vector]? = none :=
      List.getElem?_eq_none (by omega)
    rw [if_neg fun both => inside both.2, none]
    apply reports_none sees
    simp

/-- What a broadcast writes to. -/
theorem mem_broadcast (sees : Sees s p c) {number : Nat} :
    .wfd number ∈ (ivshmemClientNotifyBroadcast (fun _ => true) c).2 ↔
      ∃ q ∈ s.peerList.erase p, number ∈ q.vectors := by
  rw [notifyBroadcast_eq, sees.peerList, List.flatMap_map, List.mem_flatMap]
  simp [seen]

/-- A broadcast as a peer reports it. -/
theorem reports_broadcast (sound : Sound env s) (sees : Sees s p c)
    (own : p ∈ s.peerList) (live : r ∈ s.peerList) (heard : Sees s r e) :
    reports (ivshmemClientNotifyBroadcast (fun _ => true) c).2 e =
      (true, if r = p then [] else List.range env.nVectors) := by
  by_cases same : r = p
  · subst same
    rw [if_pos rfl]
    apply reports_none heard
    intro number mine shared
    obtain ⟨q, other, inside⟩ := (mem_broadcast sees).mp shared
    have different : q ≠ r := by
      rintro rfl
      exact List.Nodup.not_mem_erase sound.nodup other
    exact notifier_apart sound live (List.mem_of_mem_erase other) different
      mine inside
  · rw [if_neg same, reports_eq heard, sound.full r live]
    refine congrArg _ (List.filter_eq_self.mpr fun i member => ?_)
    have below : i < r.vectors.length :=
      (sound.full r live).symm ▸ List.mem_range.mp member
    obtain ⟨number, there⟩ : ∃ number, r.vectors[i]? = some number :=
      ⟨_, List.getElem?_eq_getElem below⟩
    rw [there]
    have kicked := (mem_broadcast sees).mpr
      ⟨r, (List.mem_erase_of_ne same).mpr live, List.mem_of_getElem? there⟩
    simpa using kicked

/-- A broadcast writes to everything once. -/
theorem nodup_broadcast (sound : Sound env s) (sees : Sees s p c) :
    (ivshmemClientNotifyBroadcast (fun _ => true) c).2.Nodup := by
  have distinct : ((s.peerList.erase p).flatMap Peer.vectors).Nodup :=
    sound.notifiers.sublist (List.erase_sublist.flatMap _)
  have kicked := distinct.map (f := Descriptor.wfd)
    fun _ _ same => Descriptor.wfd.inj same
  rw [notifyBroadcast_eq, sees.peerList, List.flatMap_map]
  rwa [List.map_flatMap] at kicked

end

/-- Where the rings of the client of `p` are heard. -/
structure Arrives (env : Env) (s : State) (p : Peer) (c : Client Descriptor) :
    Prop where
  known : ∀ q ∈ s.peerList, q ≠ p → ∃ entry,
    ivshmemClientSearchPeer c q.id = some (.listed entry) ∧
      ∀ vector, ∀ r ∈ s.peerList, s.wire.broken r.sockFd = false →
        ∀ e, follow (s.wire.stream r.sockFd) = some e →
          reports (ivshmemClientNotify (fun _ => true) entry vector).2 e =
            (true, if r = q ∧ vector < env.nVectors then [vector] else [])
  broadcast : ∀ r ∈ s.peerList, s.wire.broken r.sockFd = false →
    ∀ e, follow (s.wire.stream r.sockFd) = some e →
      reports (ivshmemClientNotifyBroadcast (fun _ => true) c).2 e =
        (true, if r = p then [] else List.range env.nVectors)
  once : (ivshmemClientNotifyBroadcast (fun _ => true) c).2.Nodup

/-- Over every run of any connections, failures and hang-ups, for the clients
of live peers that no message was lost to and that have read them all: a client
finds every other live peer, its ring of one vector is reported as that vector
by that peer and by nobody else, and its broadcast is reported by all the others
on every vector, by itself on none, and rings nothing twice. -/
theorem rings_arrive (env : Env) (lower : 0 < env.nVectors)
    (upper : env.nVectors ≤ ivshmemServerMaxVectors) {trace : List Label}
    {s : State} (reached : Transition.run (step env) init trace = some s) :
    ∀ p ∈ s.peerList, s.wire.broken p.sockFd = false →
      ∀ c, follow (s.wire.stream p.sockFd) = some c → Arrives env s p c := by
  have agreed : Agreed env s :=
    Transition.run_preserves
      (fun _ _ _ agreed taken => agreed.step lower upper taken)
      (Agreed.init env) reached
  have sound := agreed.sound
  have sees : ∀ r ∈ s.peerList, s.wire.broken r.sockFd = false →
      ∀ e, follow (s.wire.stream r.sockFd) = some e → Sees s r e := by
    intro r live whole e read
    obtain ⟨e', again, sees⟩ := agreed.sees r live whole
    rw [read] at again
    cases again
    exact sees
  intro p own whole c read
  have mine := sees p own whole c read
  refine ⟨fun q live different => ⟨seen q, ?_, ?_⟩, ?_, ?_⟩
  · exact searchPeer_live sound mine own live different
  · intro vector r other heard e follows
    exact reports_notify sound live other (sees r other heard e follows) vector
  · intro r other heard e follows
    exact reports_broadcast sound mine own other (sees r other heard e follows)
  · exact nodup_broadcast sound mine

/-- Two peers with two vectors each. -/
theorem rings_arrive_two :
    let env : Env :=
      { nVectors := 2, net := fun _ => true, eventfd := fun _ => true }
    ∃ s, Transition.run (step env) init
        [.poll (some ⟨true, false⟩) [], .poll (some ⟨true, false⟩) []] =
          some s ∧
      ∀ p ∈ s.peerList, s.wire.broken p.sockFd = false →
        ∀ c, follow (s.wire.stream p.sockFd) = some c →
          Arrives env s p c := by
  intro env
  obtain ⟨s, reached⟩ : ∃ s, Transition.run (step env) init
      [.poll (some ⟨true, false⟩) [], .poll (some ⟨true, false⟩) []] =
        some s :=
    Option.isSome_iff_exists.mp (by decide)
  exact ⟨s, reached, rings_arrive env (by decide) (by decide) reached⟩

end FameZ.Reference
