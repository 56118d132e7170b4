/-
Module: FameZ.Reference.Server
Purpose: The reference ivshmem server: connections, peer ids, event notifiers,
  and the messages it sends, every failing path included.
Trusted boundary: the translation of ivshmem-server.c and of its main loop
Main exports: Descriptor, Msg, Peer, Env, State,
  ivshmemServerHandleNewConn, ivshmemServerFreePeer, ivshmemServerHandleFds,
  ivshmemServerClose, Label, step, init
-/
import FameZ.Lib.Custody
import Mathlib.Algebra.Group.Nat.Defs
import Mathlib.Data.List.Nodup
import Mathlib.Logic.Function.Basic

namespace FameZ.Reference

/-!
The server answers every event by a burst of messages: to the newcomer, to the
peers about the newcomer, or to the peers about one that left.  The results of
the bursts are not looked at; only the newcomer's first three messages are.
Sockets, peers and notifiers are numbered in the order of their making, and
every `sendmsg` and every `event_notifier_init` of a run has its own outcome.
-/

/-- An open file that a message can carry.  What is written to a notifier's
`wfd` is read from its `rfd`. -/
inductive Descriptor where
  | shm
  | wfd (notifier : Nat)
  | rfd (notifier : Nat)
deriving Repr, DecidableEq

/-- One message of the protocol, with an open file of whatever kind. -/
structure Msg (δ : Type) where
  index : Int
  fd : Option δ
deriving Repr, DecidableEq

/-- Messages, each for a socket. -/
abbrev Sends := List (Nat × Msg Descriptor)

/-- `IvshmemServerPeer`; `vectors_count` is the length of `vectors`. -/
structure Peer where
  sockFd : Nat
  id : Nat
  vectors : List Nat
deriving Repr, DecidableEq

/-- What the server has to give back. -/
inductive Handle where
  | listener
  | shm
  | sock (conn : Nat)
  | peer (conn : Nat)
  | notifier (number : Nat)
deriving Repr, DecidableEq

/-- `nVectors` is the server's argument; `net` and `eventfd` are the outcomes of
the calls of a run. -/
structure Env where
  nVectors : Nat
  net : Nat → Bool
  eventfd : Nat → Bool

/-- The sockets.  `broken` is history: a message to the socket was lost. -/
structure Wire where
  calls : Nat
  stream : Nat → List (Msg Descriptor)
  broken : Nat → Bool

/-- The server.  `curId` is a `uint16_t`.  `conns` and `inits` number what is
accepted and made.  `admitted` is history: every peer that ever joined. -/
structure State where
  curId : Nat
  peerList : List Peer
  conns : Nat
  inits : Nat
  wire : Wire
  log : List (Custody.Event Handle)
  running : Bool
  admitted : List Peer

def ivshmemProtocolVersion : Int := 0

def gMaxUint16 : Nat := 65535

def ivshmemServerMaxVectors : Nat := 64

/-- After ivshmem_server_start. -/
def init : State where
  curId := 0
  peerList := []
  conns := 0
  inits := 0
  wire := { calls := 0, stream := fun _ => [], broken := fun _ => false }
  log := [.acquire .shm, .acquire .listener]
  running := true
  admitted := []

def State.acquire (s : State) (handle : Handle) : State :=
  { s with log := s.log ++ [.acquire handle] }

def State.release (s : State) (handle : Handle) : State :=
  { s with log := s.log ++ [.release handle] }

/-! ### Sending -/

/-- `ivshmem_server_send_one_msg`. -/
def ivshmemServerSendOneMsg (env : Env) (sock : Nat) (msg : Msg Descriptor)
    (w : Wire) : Bool × Wire :=
  if env.net w.calls then
    (true,
      { w with
        calls := w.calls + 1
        stream := Function.update w.stream sock (w.stream sock ++ [msg]) })
  else
    (false,
      { w with
        calls := w.calls + 1
        broken := Function.update w.broken sock true })

/-- A loop of sends whose results nobody looks at. -/
def sendAll (env : Env) (sends : Sends) (w : Wire) : Wire :=
  sends.foldl (fun w send => (ivshmemServerSendOneMsg env send.1 send.2 w).2) w

/-- One message for each descriptor. -/
def batch (id : Nat) (fds : List Descriptor) : List (Msg Descriptor) :=
  fds.map fun fd => { index := id, fd := some fd }

def sendTo (sock : Nat) (msgs : List (Msg Descriptor)) : Sends :=
  msgs.map fun msg => (sock, msg)

/-- `ivshmem_server_send_initial_info`: stop at the first failure. -/
def ivshmemServerSendInitialInfo (env : Env) (peer : Peer) (w : Wire) :
    Bool × Wire :=
  match ivshmemServerSendOneMsg env peer.sockFd
      { index := ivshmemProtocolVersion, fd := none } w with
  | (false, w) => (false, w)
  | (true, w) =>
      match ivshmemServerSendOneMsg env peer.sockFd
          { index := peer.id, fd := none } w with
      | (false, w) => (false, w)
      | (true, w) =>
          ivshmemServerSendOneMsg env peer.sockFd
            { index := -1, fd := some .shm } w

/-! ### A new connection -/

/-- `ivshmem_server_search_peer`. -/
def ivshmemServerSearchPeer (peerList : List Peer) (id : Nat) : Option Peer :=
  peerList.find? fun peer => peer.id = id

/-- The search for an unused id, `tries` steps from `curId` on: whether one was
found, and where it stopped. -/
def unusedId (peerList : List Peer) : (tries curId : Nat) → Bool × Nat
  | 0, curId => (false, curId)
  | tries + 1, curId =>
      if ivshmemServerSearchPeer peerList curId = none then (true, curId)
      else unusedId peerList tries ((curId + 1) % 2 ^ 16)

/-- `event_notifier_init` in a loop: whether all went well, and the notifiers
made so far. -/
def initVectors (env : Env) : Nat → State → Bool × List Nat × State
  | 0, s => (true, [], s)
  | count + 1, s =>
      if env.eventfd s.inits then
        let (ok, vectors, t) := initVectors env count
          ({ s with inits := s.inits + 1 }.acquire (.notifier s.inits))
        (ok, s.inits :: vectors, t)
      else (false, [], { s with inits := s.inits + 1 })

/-- `event_notifier_cleanup` in a loop. -/
def cleanupVectors (vectors : List Nat) (s : State) : State :=
  vectors.foldl (fun s vector => s.release (.notifier vector)) s

/-- The label `fail`: the vectors made so far are cleaned up from the last. -/
def dropConn (newfd : Nat) (vectors : List Nat) (s : State) : State :=
  ((cleanupVectors vectors.reverse s).release (.sock newfd)).release
    (.peer newfd)

/-- What the others learn of a new peer. -/
def advertiseNew (peer : Peer) (others : List Peer) : Sends :=
  others.flatMap fun other =>
    sendTo other.sockFd (batch peer.id (peer.vectors.map .wfd))

/-- What a new peer learns of the others. -/
def advertiseOthers (peer : Peer) (others : List Peer) : Sends :=
  others.flatMap fun other =>
    sendTo peer.sockFd
      (batch other.id ((other.vectors.take peer.vectors.length).map .wfd))

def advertiseSelf (peer : Peer) : Sends :=
  sendTo peer.sockFd (batch peer.id (peer.vectors.map .rfd))

/-- The end of a new connection whose notifiers are made. -/
def introduce (env : Env) (peer : Peer) (s : State) : Bool × State :=
  match ivshmemServerSendInitialInfo env peer s.wire with
  | (false, w) =>
      (false, dropConn peer.sockFd peer.vectors { s with wire := w })
  | (true, w) =>
      (true,
        { s with
          wire := sendAll env
            (advertiseNew peer s.peerList ++ advertiseOthers peer s.peerList ++
              advertiseSelf peer) w
          peerList := s.peerList ++ [peer]
          admitted := s.admitted ++ [peer] })

/-- `ivshmem_server_handle_new_conn`; `accepted` is the outcome of `accept`. -/
def ivshmemServerHandleNewConn (env : Env) (accepted : Bool) (s : State) :
    Bool × State :=
  if accepted then
    let newfd := s.conns
    let s := ({ s with conns := newfd + 1 }.acquire (.sock newfd)).acquire
      (.peer newfd)
    match unusedId s.peerList gMaxUint16 s.curId with
    | (false, curId) =>
        (false,
          ({ s with curId := curId }.release (.sock newfd)).release
            (.peer newfd))
    | (true, id) =>
        match initVectors env env.nVectors
            { s with curId := (id + 1) % 2 ^ 16 } with
        | (false, vectors, s) => (false, dropConn newfd vectors s)
        | (true, vectors, s) =>
            introduce env { sockFd := newfd, id := id, vectors := vectors } s
  else (false, s)

/-! ### The end of a connection -/

/-- `ivshmem_server_free_peer`. -/
def ivshmemServerFreePeer (env : Env) (peer : Peer) (s : State) : State :=
  let s := s.release (.sock peer.sockFd)
  let s := { s with peerList := s.peerList.erase peer }
  let s :=
    { s with
      wire := sendAll env
        (s.peerList.map fun other =>
          (other.sockFd, { index := peer.id, fd := none })) s.wire }
  (cleanupVectors peer.vectors s).release (.peer peer.sockFd)

/-- `ivshmem_server_free_peer` in a loop that is safe against removal. -/
def freePeers (env : Env) (peers : List Peer) (s : State) : State :=
  peers.foldl (fun s peer => ivshmemServerFreePeer env peer s) s

/-- The sockets of ivshmem_server_get_fds, the listening one apart. -/
def ivshmemServerGetFds (s : State) : List Nat := s.peerList.map Peer.sockFd

/-- An event on the listening socket: the outcome of `accept`, and whether
`errno` is EINTR when the connection fails. -/
structure Accept where
  accepted : Bool
  eintr : Bool
deriving Repr, DecidableEq

/-- `ivshmem_server_handle_fds`.  Anything that a peer sends ends it. -/
def ivshmemServerHandleFds (env : Env) (accept : Option Accept)
    (ready : List Nat) (s : State) : Bool × State :=
  let conn :=
    match accept with
    | none => (true, s)
    | some event =>
        let done := ivshmemServerHandleNewConn env event.accepted s
        (done.1 || event.eintr, done.2)
  if conn.1 then
    (true,
      freePeers env (conn.2.peerList.filter fun peer => peer.sockFd ∈ ready)
        conn.2)
  else conn

/-- `ivshmem_server_close`. -/
def ivshmemServerClose (env : Env) (s : State) : State :=
  { ((freePeers env s.peerList s).release .listener).release .shm with
    running := false }

/-! ### Runs -/

/-- One round of ivshmem_server_poll_events, or the end of the loop by a signal
or a failed `select`. -/
inductive Label where
  | poll (accept : Option Accept) (ready : List Nat)
  | quit
deriving Repr, DecidableEq

/-- `select` reports sockets that it was given, and a failed round ends in
ivshmem_server_close. -/
def step (env : Env) : Transition.Step State Label := fun s label =>
  match label with
  | .poll accept ready =>
      if s.running ∧ ∀ fd ∈ ready, fd ∈ ivshmemServerGetFds s then
        let (ok, t) := ivshmemServerHandleFds env accept ready s
        some (if ok then t else ivshmemServerClose env t)
      else none
  | .quit => if s.running then some (ivshmemServerClose env s) else none

/-! ### What the parts leave alone -/

theorem cleanupVectors_eq (vectors : List Nat) (s : State) :
    cleanupVectors vectors s =
      { s with
        log := s.log ++ vectors.map (.release ∘ Handle.notifier) } := by
  induction vectors generalizing s with
  | nil => simp [cleanupVectors]
  | cons vector rest inductionHypothesis =>
      rw [cleanupVectors, List.foldl_cons, ← cleanupVectors,
        inductionHypothesis]
      simp [State.release]

/-- Every notifier of a loop is new. -/
theorem initVectors_spec (env : Env) (count : Nat) (s : State) :
    ∃ made, (initVectors env count s).2.1 = List.range' s.inits made ∧
      made ≤ count ∧
      ((initVectors env count s).1 = true → made = count) ∧
      ∃ inits, s.inits + made ≤ inits ∧
        (initVectors env count s).2.2 =
          { s with
            inits := inits
            log := s.log ++
              (List.range' s.inits made).map (.acquire ∘ .notifier) } := by
  induction count generalizing s with
  | zero => exact ⟨0, rfl, Nat.le_refl _, fun _ => rfl, s.inits, Nat.le_refl _,
      by simp [initVectors]⟩
  | succ count inductionHypothesis =>
      rw [initVectors]
      split
      · obtain ⟨made, vectors, bound, full, inits, above, after⟩ :=
          inductionHypothesis
            ({ s with inits := s.inits + 1 }.acquire (.notifier s.inits))
        refine ⟨made + 1, ?_, Nat.succ_le_succ bound, fun ok => ?_, inits, ?_,
          ?_⟩
        · rw [List.range'_succ]
          exact congrArg (s.inits :: ·) vectors
        · exact congrArg (· + 1) (full ok)
        · simp only [State.acquire] at above
          omega
        · rw [List.range'_succ]
          simpa [State.acquire] using after
      · exact ⟨0, rfl, Nat.zero_le _, nofun, s.inits + 1, Nat.le_succ _,
          by simp⟩

end FameZ.Reference
