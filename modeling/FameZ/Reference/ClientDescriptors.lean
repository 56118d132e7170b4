/-
Module: FameZ.Reference.ClientDescriptors
Purpose: What the reference client closes of what it is sent, by any server.
Trusted boundary: the loops of ivshmem_client_poll_events and of main.c
Main exports: drain, Attempt, attempt, attemptLeft, Kept, client_gives_back
-/
import FameZ.Reference.Client

namespace FameZ.Reference

/-!
The client closes its descriptors peer by peer.  What it misses is never filed:
the descriptors of a control message that does not carry exactly one, those of a
message that is cut short, and the one of a message on which it gives up, unless
that came in the place of the shared memory.
-/

section

variable {δ : Type}

/-- Messages are handled until one is refused and `errno` is not EINTR. -/
def drain : List (Recv δ × Bool) → Client δ → Client δ
  | [], c => c
  | (recv, eintr) :: rest, c =>
      let done := ivshmemClientHandleServerMsg recv c
      if done.1 ∨ eintr then drain rest done.2 else done.2

/-- One connection to a server, and what it sends. -/
structure Attempt (δ : Type) where
  dial : Dial
  first : Recv δ
  second : Recv δ
  third : Recv δ
  msgs : List (Recv δ × Bool)

/-- One pass of the loop in main.c. -/
def attempt (a : Attempt δ) (c : Client δ) : Client δ :=
  let done := ivshmemClientConnect a.dial a.first a.second a.third c
  if done.1 then ivshmemClientClose (drain a.msgs done.2) else done.2

/-! ### What is left over -/

/-- The descriptors that came with a call. -/
def Recv.fds : Recv δ → List δ
  | .got _ fds => fds
  | .short _ fds => fds
  | .failed _ => []

/-- Those that `ivshmem_client_read_one_msg` does not hand on. -/
def Recv.missed : Recv δ → List δ
  | .got _ fds => if (cmsgFd fds).isSome then [] else fds
  | recv => recv.fds

/-- The call did not fail. -/
def Recv.Sound : Recv δ → Prop
  | .failed _ => False
  | _ => True

/-- A message without a descriptor, as far as the client can see. -/
def Recv.bare (ok : Int → Bool) : Recv δ → Bool
  | .got index fds => ok index && (cmsgFd fds).isNone
  | _ => false

/-- Of the first three messages, as far as they are read. -/
def connectLeft (dial : Dial) (first second third : Recv δ) : List δ :=
  if dial.socket ∧ dial.path ∧ dial.connect then
    first.fds ++
      if first.bare (· = ivshmemProtocolVersion) then
        second.fds ++ if second.bare (0 ≤ ·) then third.missed else []
      else []
  else []

/-- Of the messages that follow. -/
def drainLeft : List (Recv δ × Bool) → Client δ → List δ
  | [], _ => []
  | (recv, eintr) :: rest, c =>
      let done := ivshmemClientHandleServerMsg recv c
      if done.1 then recv.missed ++ drainLeft rest done.2
      else recv.fds ++ if eintr then drainLeft rest done.2 else []

def attemptLeft (a : Attempt δ) (c : Client δ) : List δ :=
  let done := ivshmemClientConnect a.dial a.first a.second a.third c
  connectLeft a.dial a.first a.second a.third ++
    if done.1 then drainLeft a.msgs done.2 else []

theorem openAll_eq (c : Client δ) (fds : List δ) :
    c.openAll fds =
      { c with log := c.log ++ fds.map (.acquire ∘ ClientHandle.fd) } := by
  induction fds generalizing c with
  | nil => simp [Client.openAll]
  | cons fd rest inductionHypothesis =>
      change (c.acquire (.fd fd)).openAll rest = _
      rw [inductionHypothesis]
      simp [Client.acquire]

theorem cmsgFd_eq_some {fds : List δ} {fd : δ} :
    cmsgFd fds = some fd ↔ fds = [fd] := by
  unfold cmsgFd
  split <;> simp_all

/-! ### Peers -/

theorem find?_perm {α : Type} {p : α → Bool} {l : List α} {a : α}
    (found : l.find? p = some a) : l.Perm (a :: l.eraseP p) := by
  induction l with
  | nil => cases found
  | cons b rest inductionHypothesis =>
      cases here : p b with
      | true =>
          rw [List.find?_cons_of_pos here] at found
          cases found
          rw [List.eraseP_cons_of_pos here]
      | false =>
          rw [List.find?_cons_of_neg (by simp [here])] at found
          rw [List.eraseP_cons_of_neg (by simp [here])]
          exact ((inductionHypothesis found).cons b).trans (.swap ..)

theorem addVector_perm {id : Int} {fd : δ} {peers : List (ClientPeer δ)}
    {peer : ClientPeer δ}
    (found : (peers.find? fun other => other.id = id) = some peer) :
    ((addVector id fd peers).flatMap ClientPeer.vectors).Perm
      (fd :: peers.flatMap ClientPeer.vectors) := by
  induction peers with
  | nil => cases found
  | cons first rest inductionHypothesis =>
      rw [addVector]
      split
      · rw [List.flatMap_cons, List.flatMap_cons, List.append_assoc]
        exact List.perm_middle
      · rename_i here
        rw [List.find?_cons_of_neg (by simpa using here)] at found
        rw [List.flatMap_cons, List.flatMap_cons]
        exact ((inductionHypothesis found).append_left _).trans
          List.perm_middle

/-- The search finds the local peer, the first listed one of the id, or
none. -/
theorem searchPeer_listed {c : Client δ} {id : Int} {peer : ClientPeer δ}
    (found : ivshmemClientSearchPeer c id = some (.listed peer)) :
    (c.peerList.find? fun other => other.id = id) = some peer ∧
      peer.id = id := by
  unfold ivshmemClientSearchPeer at found
  split at found
  · cases found
  · obtain ⟨other, search, same⟩ := Option.map_eq_some_iff.mp found
    cases same
    have here := List.find?_some search
    exact ⟨search, by simpa using here⟩

/-- The descriptors that a client has filed. -/
def Client.filed (c : Client δ) : List δ :=
  c.shmFd.toList ++ c.localPeer.vectors ++
    c.peerList.flatMap ClientPeer.vectors

end

section

variable {δ : Type} [DecidableEq δ] {c d : Client δ}
  {m : Multiset (ClientHandle δ)}

/-- Descriptors that are open in the client. -/
def opened (fds : List δ) : Multiset (ClientHandle δ) :=
  (fds.map ClientHandle.fd : List (ClientHandle δ))

/-- What the log of a client leaves open. -/
def Holds (c : Client δ) (m : Multiset (ClientHandle δ)) : Prop :=
  Custody.run 0 c.log = some m

omit [DecidableEq δ] in
theorem opened_append (first second : List δ) :
    opened (first ++ second) = opened first + opened second := by
  rw [opened, List.map_append, ← Multiset.coe_add]
  rfl

theorem Holds.acquire (holds : Holds c m) (handle : ClientHandle δ) :
    Holds (c.acquire handle) (handle ::ₘ m) := by
  rw [Holds, Client.acquire, Custody.run_append, holds]
  rfl

theorem Holds.release {handle : ClientHandle δ}
    (holds : Holds c (handle ::ₘ m)) : Holds (c.release handle) m := by
  rw [Holds, Client.release, Custody.run_append, holds, Option.bind_some,
    Custody.run_release_cons]
  rfl

theorem Holds.closeAll {fds : List δ}
    (holds : Holds c (opened fds + m)) : Holds (c.closeAll fds) m := by
  rw [Holds, Client.closeAll, Custody.run_append, holds, Option.bind_some,
    ← List.map_map, opened, Custody.run_releases]

/-- The client has open what it has filed, its socket, and what is left over. -/
def Kept (left : List δ) (c : Client δ) : Prop :=
  Holds c (.sock ::ₘ opened (c.filed ++ left))

theorem Holds.of_perm {fds others : List δ}
    (holds : Holds c (.sock ::ₘ opened fds)) (same : fds.Perm others) :
    Holds c (.sock ::ₘ opened others) := by
  rw [opened, ← Multiset.coe_eq_coe.mpr (same.map ClientHandle.fd)]
  exact holds

/-! ### Messages -/

omit [DecidableEq δ] in
/-- A vector is filed or the message is refused. -/
theorem newVector_filed {id : Int} {fd : δ} {ok : Bool}
    (taken : newVector id fd c = (ok, d)) :
    d.log = c.log ∧
      d.filed.Perm (if ok then fd :: c.filed else c.filed) := by
  unfold newVector at taken
  split at taken
  · cases taken
    refine ⟨rfl, ?_⟩
    simp only [Client.filed, if_true, List.flatMap_append,
      List.flatMap_singleton]
    rw [← List.append_assoc]
    exact List.perm_append_singleton ..
  · split at taken
    · cases taken
      exact ⟨rfl, .refl _⟩
    · cases taken
      refine ⟨rfl, ?_⟩
      simp only [Client.filed, if_true, List.append_assoc,
        List.singleton_append]
      exact (List.perm_middle.append_left _).trans List.perm_middle
  · rename_i peer found
    split at taken
    · cases taken
      exact ⟨rfl, .refl _⟩
    · cases taken
      refine ⟨rfl, ?_⟩
      obtain ⟨search, -⟩ := searchPeer_listed found
      simp only [Client.filed, if_true]
      exact ((addVector_perm search).append_left _).trans List.perm_middle

/-- A peer that is freed takes its descriptors along. -/
theorem Kept.freePeer {left : List δ} {peer : ClientPeer δ}
    (kept : Kept left c)
    (found : (c.peerList.find? fun other => other.id = peer.id) =
      some peer) : Kept left (ivshmemClientFreePeer peer c) := by
  have out := (find?_perm found).flatMap_right ClientPeer.vectors
  rw [List.flatMap_cons] at out
  apply Holds.closeAll
  have split : (c.filed ++ left).Perm (peer.vectors ++
      ((ivshmemClientFreePeer peer c).filed ++ left)) := by
    rw [← List.append_assoc]
    refine List.Perm.append_right _ ?_
    refine (out.append_left _).trans ?_
    exact List.perm_append_comm_assoc ..
  have moved := Holds.of_perm kept split
  rwa [opened_append, ← Multiset.add_cons] at moved

/-- What comes with a message is open before it is looked at. -/
theorem Holds.openAll (holds : Holds c m) (fds : List δ) :
    Holds (c.openAll fds) (opened fds + m) := by
  rw [Holds, openAll_eq, Custody.run_append, holds, Option.bind_some,
    ← List.map_map, Custody.run_acquires]
  rfl

theorem Kept.openAll {left : List δ} (kept : Kept left c) (fds : List δ) :
    Kept (fds ++ left) (c.openAll fds) := by
  have grown := Holds.openAll kept fds
  have same : (c.openAll fds).filed = c.filed := by rw [openAll_eq]; rfl
  rw [Multiset.add_cons, ← opened_append] at grown
  rw [Kept, same]
  exact grown.of_perm (List.perm_append_comm_assoc ..)

theorem Kept.deletePeer {left : List δ} {id : Int} {ok : Bool}
    (kept : Kept left c) (taken : deletePeer id c = (ok, d)) :
    Kept left d := by
  unfold FameZ.Reference.deletePeer at taken
  split at taken
  · cases taken
    exact kept
  · cases taken
    exact kept
  · rename_i peer found
    cases taken
    obtain ⟨first, same⟩ := searchPeer_listed found
    exact kept.freePeer (by rw [same]; exact first)

/-- The vector is one of those left over until then. -/
theorem Kept.newVector {left : List δ} {id : Int} {fd : δ} {ok : Bool}
    (kept : Kept (fd :: left) c) (taken : newVector id fd c = (ok, d)) :
    Kept (if ok then left else fd :: left) d := by
  obtain ⟨log, filed⟩ := newVector_filed taken
  have same : Holds d (.sock ::ₘ opened (c.filed ++ fd :: left)) := by
    rw [Holds, log]
    exact kept
  refine same.of_perm ?_
  cases ok with
  | true =>
      refine List.perm_middle.trans ?_
      exact filed.symm.append_right left
  | false => exact filed.symm.append_right _

/-- A message that is refused leaves all of its descriptors over. -/
theorem Kept.message {left : List δ} {recv : Recv δ} {ok : Bool}
    (kept : Kept left c) (sound : recv.Sound)
    (taken : ivshmemClientHandleServerMsg recv c = (ok, d)) :
    Kept ((if ok then recv.missed else recv.fds) ++ left) d := by
  cases recv with
  | failed => exact sound.elim
  | short index fds =>
      cases taken
      exact kept.openAll fds
  | got index fds =>
      have read := kept.openAll fds
      simp only [ivshmemClientHandleServerMsg,
        ivshmemClientReadOneMsg] at taken
      cases lone : cmsgFd fds with
      | none =>
          rw [lone] at taken
          simpa [Recv.missed, Recv.fds, lone] using read.deletePeer taken
      | some fd =>
          rw [lone] at taken
          obtain rfl := cmsgFd_eq_some.mp lone
          have whole : Kept (fd :: left) _ := read
          have after := whole.newVector taken
          cases ok <;>
            simpa [Recv.missed, Recv.fds, lone] using after

/-- All the messages of a connection. -/
theorem Kept.drain {msgs : List (Recv δ × Bool)} {left : List δ}
    (kept : Kept left c) (sound : ∀ msg ∈ msgs, msg.1.Sound) :
    Kept (drainLeft msgs c ++ left) (drain msgs c) := by
  induction msgs generalizing c left with
  | nil => exact kept
  | cons msg rest inductionHypothesis =>
      obtain ⟨recv, eintr⟩ := msg
      have later : ∀ msg ∈ rest, msg.1.Sound := fun msg member =>
        sound msg (List.mem_cons_of_mem _ member)
      rw [FameZ.Reference.drain, drainLeft]
      rcases taken : ivshmemClientHandleServerMsg recv c with ⟨ok, d⟩
      have next := kept.message (sound _ (List.mem_cons_self ..)) taken
      have whole := inductionHypothesis next later
      cases ok with
      | true =>
          refine Holds.of_perm whole (List.Perm.append_left _ ?_)
          simpa using List.perm_append_comm_assoc ..
      | false =>
          cases eintr with
          | false => simpa using next
          | true =>
              refine Holds.of_perm whole (List.Perm.append_left _ ?_)
              simpa using List.perm_append_comm_assoc ..

/-! ### The end of a connection -/

/-- A client that is not connected. -/
structure Closed (c : Client δ) : Prop where
  shmFd : c.shmFd = none
  vectors : c.localPeer.vectors = []
  peerList : c.peerList = []

theorem Kept.freeAll {left : List δ} (kept : Kept left c) :
    ∃ d, c.peerList.foldl (fun c peer => ivshmemClientFreePeer peer c) c = d ∧
      Kept left d ∧ d.shmFd = c.shmFd ∧ d.localPeer = c.localPeer ∧
        d.peerList = [] := by
  generalize peers : c.peerList = list
  induction list generalizing c with
  | nil => exact ⟨c, rfl, kept, rfl, rfl, peers⟩
  | cons peer rest inductionHypothesis =>
      have freed : Kept left (ivshmemClientFreePeer peer c) :=
        kept.freePeer (by rw [peers]; simp)
      obtain ⟨d, folds, after, shmFd, localPeer, empty⟩ :=
        inductionHypothesis freed (by
          simp only [ivshmemClientFreePeer, Client.closeAll, peers]
          simp)
      exact ⟨d, folds, after, shmFd, localPeer, empty⟩

theorem Kept.close {left : List δ} (kept : Kept left c) :
    Closed (ivshmemClientClose c) ∧
      Holds (ivshmemClientClose c) (opened left) := by
  obtain ⟨d, folds, after, -, -, empty⟩ := kept.freeAll
  have closes : ivshmemClientClose c =
      { (((d.closeAll d.shmFd.toList).release .sock).closeAll
          d.localPeer.vectors) with
        shmFd := none
        localPeer := { id := -1, vectors := [] } } := by
    rw [← folds]
    rfl
  have order : Holds d (opened d.shmFd.toList +
      .sock ::ₘ (opened d.localPeer.vectors + opened left)) := by
    rw [Multiset.add_cons, ← opened_append, ← opened_append]
    refine Holds.of_perm after ?_
    rw [Client.filed, empty, List.flatMap_nil, List.append_nil,
      List.append_assoc]
  rw [closes]
  exact ⟨⟨rfl, rfl, empty⟩, order.closeAll.release.closeAll⟩

/-- How connecting ends: what it leaves over is open beside the connection, if
there is one. -/
def Ends (left : List δ) (ok : Bool) (d : Client δ) : Prop :=
  if ok then Kept left d else Closed d ∧ Holds d (opened left)

theorem Ends.of_perm {left others : List δ} {ok : Bool} (ends : Ends left ok d)
    (same : left.Perm others) : Ends others ok d := by
  cases ok with
  | true => exact Holds.of_perm ends (same.append_left _)
  | false =>
      refine ⟨ends.1, ?_⟩
      rw [opened, ← Multiset.coe_eq_coe.mpr (same.map ClientHandle.fd)]
      exact ends.2

/-- Hanging up, with some descriptors left over. -/
theorem hangUp {left : List δ} (closed : Closed c)
    (holds : Holds c (.sock ::ₘ opened left)) :
    Ends left false (c.release .sock) :=
  ⟨⟨closed.shmFd, closed.vectors, closed.peerList⟩, holds.release⟩

/-- A read of a client that is not connected yet. -/
theorem read_closed {left : List δ} (closed : Closed c)
    (holds : Holds c (.sock ::ₘ opened left)) (fds : List δ) :
    Closed (c.openAll fds) ∧
      Holds (c.openAll fds) (.sock ::ₘ opened (fds ++ left)) := by
  constructor
  · rw [openAll_eq]
    exact ⟨closed.shmFd, closed.vectors, closed.peerList⟩
  · have grown := holds.openAll fds
    rwa [Multiset.add_cons, ← opened_append] at grown

/-- The third message is closed if it is refused. -/
theorem connectShm_ends {third : Recv δ} {left : List δ} {ok : Bool}
    (closed : Closed c) (holds : Holds c (.sock ::ₘ opened left))
    (sound : third.Sound) (taken : connectShm third c = (ok, d)) :
    Ends (third.missed ++ left) ok d := by
  cases third with
  | failed => exact sound.elim
  | short index fds =>
      obtain ⟨closed, held⟩ := read_closed closed holds fds
      cases taken
      exact hangUp closed held
  | got index fds =>
      obtain ⟨closed, held⟩ := read_closed closed holds fds
      simp only [connectShm, ivshmemClientReadOneMsg] at taken
      cases lone : cmsgFd fds with
      | none =>
          rw [lone] at taken
          cases taken
          rw [Recv.missed, lone]
          exact hangUp closed held
      | some fd =>
          obtain rfl := cmsgFd_eq_some.mp lone
          rw [lone] at taken
          dsimp only at taken
          rw [Recv.missed, lone, Option.isSome_some, if_pos rfl,
            List.nil_append]
          generalize c.openAll [fd] = e at *
          have held : Holds e (.fd fd ::ₘ .sock ::ₘ opened left) := by
            rw [Multiset.cons_swap]
            exact held
          by_cases shm : index = -1
          · rw [if_neg (not_not.mpr shm)] at taken
            cases taken
            have filed : Client.filed { e with shmFd := some fd } = [fd] := by
              simp [Client.filed, closed.vectors, closed.peerList]
            rw [Multiset.cons_swap] at held
            rw [Ends, if_pos rfl, Kept, filed]
            exact held
          · rw [if_pos shm] at taken
            cases taken
            have fdClosed : Closed (e.release (.fd fd)) :=
              ⟨closed.shmFd, closed.vectors, closed.peerList⟩
            exact hangUp fdClosed held.release

/-- The second message is not. -/
theorem connectId_ends {second third : Recv δ} {left : List δ} {ok : Bool}
    (closed : Closed c) (holds : Holds c (.sock ::ₘ opened left))
    (sound₂ : second.Sound) (sound₃ : third.Sound)
    (taken : connectId second third c = (ok, d)) :
    Ends ((second.fds ++
      if second.bare (0 ≤ ·) then third.missed else []) ++ left) ok d := by
  cases second with
  | failed => exact sound₂.elim
  | short index fds =>
      obtain ⟨closed, held⟩ := read_closed closed holds fds
      have mine : Closed { c.openAll fds with
          localPeer := { (c.openAll fds).localPeer with id := index } } :=
        ⟨closed.shmFd, closed.vectors, closed.peerList⟩
      cases taken
      simpa [Recv.fds, Recv.bare] using hangUp mine held
  | got index fds =>
      obtain ⟨closed, held⟩ := read_closed closed holds fds
      simp only [connectId, ivshmemClientReadOneMsg] at taken
      generalize c.openAll fds = e at *
      have mine : Closed
          { e with localPeer := { e.localPeer with id := index } } :=
        ⟨closed.shmFd, closed.vectors, closed.peerList⟩
      by_cases refused : index < 0 ∨ (cmsgFd fds).isSome = true
      · have bare : (Recv.got index fds).bare (0 ≤ ·) = false := by
          cases lone : cmsgFd fds <;> simp_all [Recv.bare]
        rw [if_pos refused] at taken
        cases taken
        simpa [Recv.fds, bare] using hangUp mine held
      · have bare : (Recv.got index fds).bare (0 ≤ ·) = true := by
          cases lone : cmsgFd fds <;> simp_all [Recv.bare]
        rw [if_neg refused] at taken
        rw [bare, if_pos rfl, Recv.fds, List.append_assoc]
        exact (connectShm_ends mine held sound₃ taken).of_perm
          (List.perm_append_comm_assoc ..)

/-- A connection that fails leaves the client as it was but for what it
misses. -/
theorem connect_ends {a : Attempt δ} {left : List δ} {ok : Bool}
    (closed : Closed c) (holds : Holds c (opened left))
    (first : a.first.Sound) (second : a.second.Sound) (third : a.third.Sound)
    (taken : ivshmemClientConnect a.dial a.first a.second a.third c =
      (ok, d)) :
    Ends (connectLeft a.dial a.first a.second a.third ++ left) ok d := by
  obtain ⟨dial, one, two, three, msgs⟩ := a
  dsimp only at *
  unfold ivshmemClientConnect at taken
  by_cases socket : dial.socket = true
  swap
  · rw [if_pos socket] at taken
    cases taken
    simpa [connectLeft, socket, Ends] using And.intro closed holds
  rw [if_neg (not_not.mpr socket)] at taken
  have dialed : Closed (c.acquire .sock) :=
    ⟨closed.shmFd, closed.vectors, closed.peerList⟩
  have held := holds.acquire .sock
  by_cases up : dial.path = true ∧ dial.connect = true
  swap
  · rw [if_pos (by tauto)] at taken
    cases taken
    simpa [connectLeft, up] using hangUp dialed held
  rw [if_neg (by tauto)] at taken
  rw [connectLeft, if_pos ⟨socket, up⟩]
  cases one with
  | failed => exact first.elim
  | short index fds =>
      obtain ⟨closed, held⟩ := read_closed dialed held fds
      cases taken
      simpa [Recv.fds, Recv.bare] using hangUp closed held
  | got index fds =>
      obtain ⟨closed, held⟩ := read_closed dialed held fds
      simp only [ivshmemClientReadOneMsg] at taken
      by_cases refused :
          index ≠ ivshmemProtocolVersion ∨ (cmsgFd fds).isSome = true
      · have bare : (Recv.got index fds).bare
            (· = ivshmemProtocolVersion) = false := by
          cases lone : cmsgFd fds <;> simp_all [Recv.bare]
        rw [if_pos refused] at taken
        cases taken
        simpa [Recv.fds, bare] using hangUp closed held
      · have bare : (Recv.got index fds).bare
            (· = ivshmemProtocolVersion) = true := by
          cases lone : cmsgFd fds <;> simp_all [Recv.bare]
        rw [if_neg refused] at taken
        rw [bare, if_pos rfl, Recv.fds, List.append_assoc]
        exact (connectId_ends closed held second third taken).of_perm
          (List.perm_append_comm_assoc ..)

/-- One connection. -/
theorem attempt_kept {a : Attempt δ} {left : List δ} (closed : Closed c)
    (holds : Holds c (opened left))
    (first : a.first.Sound) (second : a.second.Sound) (third : a.third.Sound)
    (msgs : ∀ msg ∈ a.msgs, msg.1.Sound) :
    Closed (attempt a c) ∧
      Holds (attempt a c) (opened (attemptLeft a c ++ left)) := by
  rcases taken : ivshmemClientConnect a.dial a.first a.second a.third c with
    ⟨ok, d⟩
  have connected := connect_ends closed holds first second third taken
  cases ok with
  | false => simpa [attempt, attemptLeft, taken, Ends] using connected
  | true =>
      have kept : Ends _ false _ := (Kept.drain connected msgs).close
      have order := List.perm_append_comm_assoc (drainLeft a.msgs d)
        (connectLeft a.dial a.first a.second a.third) left
      simpa [attempt, attemptLeft, taken, Ends] using kept.of_perm order

/-- The outcomes of a connection are all messages or ends of file. -/
structure Attempt.Sound (a : Attempt δ) : Prop where
  first : a.first.Sound
  second : a.second.Sound
  third : a.third.Sound
  msgs : ∀ msg ∈ a.msgs, msg.1.Sound

/-- What a row of connections leaves over. -/
def attemptsLeft : List (Attempt δ) → Client δ → List δ
  | [], _ => []
  | a :: rest, c => attemptsLeft rest (attempt a c) ++ attemptLeft a c

theorem attempts_kept {attempts : List (Attempt δ)} {left : List δ}
    (closed : Closed c) (holds : Holds c (opened left))
    (sound : ∀ a ∈ attempts, a.Sound) :
    Closed (attempts.foldl (fun c a => attempt a c) c) ∧
      Holds (attempts.foldl (fun c a => attempt a c) c)
        (opened (attemptsLeft attempts c ++ left)) := by
  induction attempts generalizing c left with
  | nil => exact ⟨closed, holds⟩
  | cons a rest inductionHypothesis =>
      have here := sound a (List.mem_cons_self ..)
      obtain ⟨closed, holds⟩ := attempt_kept closed holds here.first
        here.second here.third here.msgs
      have later := inductionHypothesis closed holds fun other member =>
        sound other (List.mem_cons_of_mem _ member)
      rw [List.foldl_cons, attemptsLeft, List.append_assoc]
      exact later

end

/-- Over any number of connections to any servers that send anything: the client
never closes what it does not hold, and after each connection it has closed its
socket and every descriptor that it was sent but those of a first or second
message, of a message that it refused later, and of one that was cut short or
carried several. -/
theorem client_gives_back {δ : Type} [DecidableEq δ]
    (attempts : List (Attempt δ)) (sound : ∀ a ∈ attempts, a.Sound) :
    Custody.run 0
        (attempts.foldl (fun c a => attempt a c) ivshmemClientInit).log =
      some ((attemptsLeft attempts ivshmemClientInit).map ClientHandle.fd :
        List (ClientHandle δ)) := by
  have init : Closed (ivshmemClientInit : Client δ) := ⟨rfl, rfl, rfl⟩
  have holds : Holds (ivshmemClientInit : Client δ) (opened []) := rfl
  have kept := (attempts_kept init holds sound).2
  rwa [List.append_nil] at kept

/-- A server of another version that sends a descriptor along, and a server
with one peer that goes with a farewell of two. -/
theorem client_gives_back_two :
    let attempts : List (Attempt Descriptor) :=
      [{ dial := ⟨true, true, true⟩
         first := .got 7 [.shm]
         second := .short 0 [], third := .short 0 [], msgs := [] },
       { dial := ⟨true, true, true⟩
         first := .got 0 []
         second := .got 5 []
         third := .got (-1) [.shm]
         msgs :=
          [(.got 3 [.wfd 0], false),
            (.got 5 [.rfd 1], false),
            (.got 3 [.wfd 2, .wfd 4], false),
            (.short 3 [.wfd 6], false)] }]
    Custody.run 0
        (attempts.foldl (fun c a => attempt a c) ivshmemClientInit).log =
      some ((attemptsLeft attempts ivshmemClientInit).map ClientHandle.fd :
        List (ClientHandle Descriptor)) := by
  intro attempts
  refine client_gives_back attempts fun a member => ?_
  simp only [attempts, List.mem_cons, List.not_mem_nil, or_false] at member
  rcases member with rfl | rfl
  · exact ⟨trivial, trivial, trivial, nofun⟩
  · exact ⟨trivial, trivial, trivial, by simp [Recv.Sound]⟩

end FameZ.Reference
