/-
Module: FameZ.Reference.Client
Purpose: The reference ivshmem client: what it makes of the server's messages,
  what it rings, and what it closes.
Trusted boundary: the translation of ivshmem-client.c
Main exports: Recv, ClientPeer, Client, ivshmemClientConnect,
  ivshmemClientHandleServerMsg, ivshmemClientClose, ivshmemClientNotify,
  ivshmemClientNotifyBroadcast, ivshmemClientHandleEvent, follow
-/
import FameZ.Reference.Server

namespace FameZ.Reference

/-!
The client keeps a list of peers with the descriptors of their vectors, in the
order in which they came.  It has no notion of a complete list: a message with
a descriptor adds a vector, and one without removes a peer.
-/

variable {δ : Type}

/-- What `recvmsg` does, with the descriptors of its control message, which the
call opens in the client.  `short` is fewer than eight bytes, end of file
included.  The result of a failed call is compared as an unsigned number and
passes for a message, which is whatever the buffers hold. -/
inductive Recv (δ : Type) where
  | got (index : Int) (fds : List δ)
  | short (index : Int) (fds : List δ)
  | failed (left : Msg δ)
deriving Repr, DecidableEq

/-- A message as the servers send it. -/
def Recv.of (msg : Msg δ) : Recv δ :=
  .got msg.index msg.fd.toList

/-- `IvshmemClientPeer`; `vectors_count` is the length of `vectors`. -/
structure ClientPeer (δ : Type) where
  id : Int
  vectors : List δ
deriving Repr, DecidableEq

/-- What a client has to close. -/
inductive ClientHandle (δ : Type) where
  | sock
  | fd (descriptor : δ)
deriving Repr, DecidableEq

/-- `IvshmemClient`; `localPeer` is `local`. -/
structure Client (δ : Type) where
  shmFd : Option δ
  peerList : List (ClientPeer δ)
  localPeer : ClientPeer δ
  log : List (Custody.Event (ClientHandle δ))
deriving Repr, DecidableEq

def ivshmemClientMaxVectors : Nat := 64

/-- `ivshmem_client_init`. -/
def ivshmemClientInit : Client δ where
  shmFd := none
  peerList := []
  localPeer := { id := -1, vectors := [] }
  log := []

def Client.acquire (c : Client δ) (handle : ClientHandle δ) : Client δ :=
  { c with log := c.log ++ [.acquire handle] }

def Client.release (c : Client δ) (handle : ClientHandle δ) : Client δ :=
  { c with log := c.log ++ [.release handle] }

def Client.openAll (c : Client δ) (fds : List δ) : Client δ :=
  fds.foldl (fun c fd => c.acquire (.fd fd)) c

/-- `close` in a loop. -/
def Client.closeAll (c : Client δ) (fds : List δ) : Client δ :=
  { c with log := c.log ++ fds.map (.release ∘ ClientHandle.fd) }

/-! ### Messages -/

/-- The loop over the control messages passes over one that has not the length
of a single descriptor.  The buffer has room for two. -/
def cmsgFd : List δ → Option δ
  | [fd] => some fd
  | _ => none

/-- `ivshmem_client_read_one_msg`. -/
def ivshmemClientReadOneMsg (recv : Recv δ) (c : Client δ) :
    Option (Msg δ) × Client δ :=
  match recv with
  | .got index fds =>
      (some { index := index, fd := cmsgFd fds }, c.openAll fds)
  | .short _ fds => (none, c.openAll fds)
  | .failed left => (some left, c)

theorem ivshmemClientReadOneMsg_of (msg : Msg δ) (c : Client δ) :
    ivshmemClientReadOneMsg (.of msg) c =
      (some msg,
        match msg.fd with
        | none => c
        | some fd => c.acquire (.fd fd)) := by
  obtain ⟨index, fd⟩ := msg
  cases fd <;> rfl

inductive Found (δ : Type) where
  | localPeer
  | listed (peer : ClientPeer δ)

/-- `ivshmem_client_search_peer`. -/
def ivshmemClientSearchPeer (c : Client δ) (id : Int) : Option (Found δ) :=
  if id = c.localPeer.id then some .localPeer
  else (c.peerList.find? fun peer => peer.id = id).map .listed

/-- Append a vector to the first peer of that id. -/
def addVector (id : Int) (fd : δ) : List (ClientPeer δ) → List (ClientPeer δ)
  | [] => []
  | peer :: rest =>
      if peer.id = id then
        { peer with vectors := peer.vectors ++ [fd] } :: rest
      else peer :: addVector id fd rest

/-- `ivshmem_client_free_peer`. -/
def ivshmemClientFreePeer (peer : ClientPeer δ) (c : Client δ) : Client δ :=
  { c with
    peerList := c.peerList.eraseP fun other => other.id = peer.id
    }.closeAll peer.vectors

/-- The part of ivshmem_client_handle_server_msg for a peer that is gone. -/
def deletePeer (id : Int) (c : Client δ) : Bool × Client δ :=
  match ivshmemClientSearchPeer c id with
  | none => (false, c)
  | some .localPeer => (false, c)
  | some (.listed peer) => (true, ivshmemClientFreePeer peer c)

/-- The part of ivshmem_client_handle_server_msg for a new vector. -/
def newVector (id : Int) (fd : δ) (c : Client δ) : Bool × Client δ :=
  match ivshmemClientSearchPeer c id with
  | none =>
      (true, { c with
        peerList := c.peerList ++ [{ id := id, vectors := [fd] }] })
  | some .localPeer =>
      if ivshmemClientMaxVectors ≤ c.localPeer.vectors.length then (false, c)
      else
        (true, { c with
          localPeer :=
            { c.localPeer with vectors := c.localPeer.vectors ++ [fd] } })
  | some (.listed peer) =>
      if ivshmemClientMaxVectors ≤ peer.vectors.length then (false, c)
      else (true, { c with peerList := addVector id fd c.peerList })

/-- `ivshmem_client_handle_server_msg`. -/
def ivshmemClientHandleServerMsg (recv : Recv δ) (c : Client δ) :
    Bool × Client δ :=
  match ivshmemClientReadOneMsg recv c with
  | (none, c) => (false, c)
  | (some msg, c) =>
      match msg.fd with
      | none => deletePeer msg.index c
      | some fd => newVector msg.index fd c

/-! ### The connection -/

/-- The system calls of ivshmem_client_connect before the first message. -/
structure Dial where
  socket : Bool
  path : Bool
  connect : Bool
deriving Repr, DecidableEq

/-- The third message of ivshmem_client_connect, the shared memory.  `fd` is
still -1 when it cannot be read. -/
def connectShm (third : Recv δ) (c : Client δ) : Bool × Client δ :=
  match ivshmemClientReadOneMsg third c with
  | (none, c) => (false, c.release .sock)
  | (some shm, c) =>
      match shm.fd with
      | none => (false, c.release .sock)
      | some fd =>
          if shm.index ≠ -1 then (false, (c.release (.fd fd)).release .sock)
          else (true, { c with shmFd := some fd })

/-- The second message, which is read into the client. -/
def connectId (second third : Recv δ) (c : Client δ) : Bool × Client δ :=
  match ivshmemClientReadOneMsg second c with
  | (none, c) =>
      let index :=
        match second with
        | .short index _ => index
        | _ => c.localPeer.id
      (false,
        { c with localPeer := { c.localPeer with id := index } }.release .sock)
  | (some own, c) =>
      let c := { c with localPeer := { c.localPeer with id := own.index } }
      if own.index < 0 ∨ own.fd.isSome then (false, c.release .sock)
      else connectShm third c

/-- `ivshmem_client_connect`.  What came with a first or second message that is
refused is not closed. -/
def ivshmemClientConnect (dial : Dial) (first second third : Recv δ)
    (c : Client δ) : Bool × Client δ :=
  if ¬ dial.socket then (false, c)
  else
    let c := c.acquire .sock
    if ¬ dial.path ∨ ¬ dial.connect then (false, c.release .sock)
    else
      match ivshmemClientReadOneMsg first c with
      | (none, c) => (false, c.release .sock)
      | (some version, c) =>
          if version.index ≠ ivshmemProtocolVersion ∨ version.fd.isSome then
            (false, c.release .sock)
          else connectId second third c

/-- `ivshmem_client_close`. -/
def ivshmemClientClose (c : Client δ) : Client δ :=
  let c := c.peerList.foldl (fun c peer => ivshmemClientFreePeer peer c) c
  let c := (c.closeAll c.shmFd.toList).release .sock
  { c.closeAll c.localPeer.vectors with
    shmFd := none
    localPeer := { id := -1, vectors := [] } }

/-! ### Doorbells -/

/-- `ivshmem_client_notify`: the result, and what was written to. -/
def ivshmemClientNotify (writes : δ → Bool) (peer : ClientPeer δ)
    (vector : Nat) : Bool × List δ :=
  match peer.vectors[vector]? with
  | none => (false, [])
  | some fd => if writes fd then (true, [fd]) else (false, [])

/-- `ivshmem_client_notify_all_vects`: a failure does not stop it. -/
def ivshmemClientNotifyAllVects (writes : δ → Bool) (peer : ClientPeer δ) :
    Bool × List δ :=
  (List.range peer.vectors.length).foldl
    (fun done vector =>
      let (ok, kicked) := ivshmemClientNotify writes peer vector
      (done.1 && ok, done.2 ++ kicked))
    (true, [])

/-- `ivshmem_client_notify_broadcast`. -/
def ivshmemClientNotifyBroadcast (writes : δ → Bool) (c : Client δ) :
    Bool × List δ :=
  c.peerList.foldl
    (fun done peer =>
      let (ok, kicked) := ivshmemClientNotifyAllVects writes peer
      (done.1 && ok, done.2 ++ kicked))
    (true, [])

/-- `ivshmem_client_handle_event`: the vectors that are reported, up to the
first that cannot be read. -/
def handleEvents (ready reads : δ → Bool) : List δ → Nat → Bool × List Nat
  | [], _ => (true, [])
  | fd :: rest, i =>
      if ¬ ready fd then handleEvents ready reads rest (i + 1)
      else if ¬ reads fd then (false, [])
      else
        let (ok, reported) := handleEvents ready reads rest (i + 1)
        (ok, i :: reported)

def ivshmemClientHandleEvent (ready reads : δ → Bool) (c : Client δ) :
    Bool × List Nat :=
  handleEvents ready reads c.localPeer.vectors 0

/-! ### A client on a stream -/

/-- A message that is not refused. -/
def handle : Transition.Step (Client δ) (Msg δ) := fun c msg =>
  match ivshmemClientHandleServerMsg (.of msg) c with
  | (true, c) => some c
  | (false, _) => none

/-- A new client that has read a stream and refused nothing. -/
def follow : List (Msg δ) → Option (Client δ)
  | first :: second :: third :: rest =>
      match ivshmemClientConnect { socket := true, path := true, connect := true }
          (.of first) (.of second) (.of third) ivshmemClientInit with
      | (true, c) => Transition.run handle c rest
      | (false, _) => none
  | _ => none

end FameZ.Reference
