/-
Module: FameZ.Console.Reading
Purpose: A Python client over every run of the server's messages and typed
  lines, and what its mail says about the peers announced so far.
Trusted boundary: the stream of the server, one call of dataReceived a message
Main exports: Reading, Legit, Sends, sends_of_wellFormed, Knows, step,
  knows_of_reached, mail_is_rung
-/
import FameZ.Console.Commands
import FameZ.Lib.Transition
import FameZ.Lib.Utf8

namespace FameZ.Console

open PyText (Text)
open Client (Message Table)

/-! ### What the stream has said -/

/-- What follows from the messages so far: the peers whose batches are
complete and that did not leave, and the batch that is under way. -/
structure Reading where
  greeted : Bool
  peers : Table
  arriving : Option (Int × List Nat)
  joined : Bool

namespace Reading

def start : Reading where
  greeted := false
  peers := .empty
  arriving := none
  joined := false

/-- The descriptors of the batch under way. -/
def fds (r : Reading) : List Nat := (r.arriving.map Prod.snd).getD []

/-- The next message, to a client with this id.  Its own batch is the last one
before it joins. -/
def read (nClients : Nat) (own : Int) (r : Reading) (message : Message) :
    Reading :=
  if r.greeted = false then { r with greeted := true }
  else
    match message.data, message.fd with
    | [id], some fd =>
        if (r.fds ++ [fd]).length < nClients + 2 then
          { r with arriving := some (id, r.fds ++ [fd]) }
        else
          { r with
            peers := r.peers.set id (r.fds ++ [fd])
            arriving := none
            joined := r.joined || decide (id = own) }
    | [id], none => { r with peers := r.peers.del id }
    | _, _ => r

def after (nClients : Nat) (own : Int) (messages : List Message) : Reading :=
  messages.foldl (read nClients own) start

/-- Every id that the client was told of. -/
def announced (r : Reading) : Table :=
  match r.arriving with
  | none => r.peers
  | some (id, fds) => r.peers.set id fds

end Reading

/-- The messages a server may send next.  Batches are not mixed, and nobody
leaves before the client has joined. -/
def Legit (nClients : Nat) (own : Int) (r : Reading) (message : Message) :
    Prop :=
  if r.greeted = false then
    1 ≤ own ∧ own ≤ nClients ∧
      ∃ fd, 0 < fd ∧ message = { data := [0, own, -1], fd := some fd }
  else
    match message.data, message.fd with
    | [id], some _ =>
        match r.arriving with
        | some (current, _) => id = current
        | none =>
            1 ≤ id ∧ id ≤ nClients + 1 ∧ (r.joined = true → id ≠ own)
    | [id], none =>
        r.joined = true ∧ r.arriving = none ∧ 1 ≤ id ∧ id ≠ own
    | _, _ => False

def Sends (nClients : Nat) (own : Int) : Reading → List Message → Prop
  | _, [] => True
  | r, message :: rest =>
      Legit nClients own r message ∧
        Sends nClients own (r.read nClients own message) rest

/-! ### Streams -/

section

variable {nClients : Nat} {own : Int}

theorem sends_append {r : Reading} {first second : List Message} :
    Sends nClients own r (first ++ second) ↔
      Sends nClients own r first ∧
        Sends nClients own (first.foldl (Reading.read nClients own) r)
          second := by
  induction first generalizing r with
  | nil => simp [Sends]
  | cons message rest inductionHypothesis =>
      rw [List.cons_append, Sends, Sends, inductionHypothesis, and_assoc]
      rfl

/-- A reading between two batches. -/
def between (peers : Table) (joined : Bool) : Reading where
  greeted := true
  peers := peers
  arriving := none
  joined := joined

/-- A batch under way. -/
def underWay (peers : Table) (joined : Bool) (id : Int) (fds : List Nat) :
    Reading where
  greeted := true
  peers := peers
  arriving := if fds = [] then none else some (id, fds)
  joined := joined

theorem fds_underWay (peers : Table) (joined : Bool) (id : Int)
    (fds : List Nat) : (underWay peers joined id fds).fds = fds := by
  unfold underWay Reading.fds
  by_cases empty : fds = []
  · simp [empty]
  · simp [empty]

/-- The rest of a batch. -/
theorem sends_rest {peers : Table} {joined : Bool} {id : Int} (low : 1 ≤ id)
    (high : id ≤ nClients + 1) (other : joined = true → id ≠ own)
    {before rest : List Nat} (more : rest ≠ [])
    (full : (before ++ rest).length = nClients + 2) :
    Sends nClients own (underWay peers joined id before)
        (Client.batchMessages id rest) ∧
      (Client.batchMessages id rest).foldl (Reading.read nClients own)
          (underWay peers joined id before) =
        between (peers.set id (before ++ rest))
          (joined || decide (id = own)) := by
  induction rest generalizing before with
  | nil => exact absurd rfl more
  | cons fd rest inductionHypothesis =>
      have legit : Legit nClients own (underWay peers joined id before)
          { data := [id], fd := some fd } := by
        unfold Legit underWay
        by_cases empty : before = []
        · simpa [empty] using ⟨low, high, other⟩
        · simp [empty]
      rw [Client.batchMessages, List.map_cons, ← Client.batchMessages, Sends,
        List.foldl_cons]
      by_cases last : rest = []
      · subst last
        have done : (underWay peers joined id before).read nClients own
            { data := [id], fd := some fd } =
              between (peers.set id (before ++ [fd]))
                (joined || decide (id = own)) := by
          rw [Reading.read, if_neg (by simp [underWay])]
          dsimp only
          rw [fds_underWay, if_neg (by omega)]
          rfl
        rw [done]
        exact ⟨⟨legit, trivial⟩, rfl⟩
      · have short : (before ++ [fd]).length < nClients + 2 := by
          have size := List.length_pos_iff.mpr last
          rw [List.length_append, List.length_cons] at full
          rw [List.length_append, List.length_singleton]
          omega
        have onward : (underWay peers joined id before).read nClients own
            { data := [id], fd := some fd } =
              underWay peers joined id (before ++ [fd]) := by
          rw [Reading.read, if_neg (by simp [underWay])]
          dsimp only
          rw [fds_underWay, if_pos short]
          simp [underWay]
        rw [onward]
        obtain ⟨sends, read⟩ := @inductionHypothesis (before ++ [fd]) last
          (by rwa [List.append_assoc])
        rw [List.append_assoc] at read
        exact ⟨⟨legit, sends⟩, read⟩

theorem sends_batch {peers : Table} {joined : Bool} {id : Int}
    (low : 1 ≤ id) (high : id ≤ nClients + 1)
    (other : joined = true → id ≠ own) {fds : List Nat}
    (full : fds.length = nClients + 2) :
    Sends nClients own (between peers joined)
        (Client.batchMessages id fds) ∧
      (Client.batchMessages id fds).foldl (Reading.read nClients own)
          (between peers joined) =
        between (peers.set id fds) (joined || decide (id = own)) := by
  have more : fds ≠ [] := by
    rintro rfl
    cases full
  exact @sends_rest nClients own peers joined id low high other [] fds more
    full

/-- What is known of a list of items that starts between two batches. -/
def Follows (nClients : Nat) (own : Int) (peers : Table) (joined : Bool)
    (items : List Client.Item) (after : Reading) : Prop :=
  Sends nClients own (between peers joined) (Client.messagesOf items) ∧
    (Client.messagesOf items).foldl (Reading.read nClients own)
      (between peers joined) = after

theorem Follows.cons {peers next : Table} {joined joins : Bool}
    {item : Client.Item} {rest : List Client.Item} {after : Reading}
    (first : Sends nClients own (between peers joined) item.messages ∧
      item.messages.foldl (Reading.read nClients own)
        (between peers joined) = between next joins)
    (later : Follows nClients own next joins rest after) :
    Follows nClients own peers joined (item :: rest) after := by
  obtain ⟨sends, read⟩ := first
  rw [Follows, Client.messagesOf, List.flatMap_cons, sends_append,
    List.foldl_append, read]
  exact ⟨⟨sends, later.1⟩, later.2⟩

/-- The batches of the first pass, and what comes after them. -/
theorem follows_batches {entries : List (Int × List Nat)}
    (others : ∀ entry ∈ entries, 1 ≤ entry.1 ∧ entry.1 ≤ nClients + 1 ∧
      entry.1 ≠ own ∧ entry.2.length = nClients + 2)
    {peers : Table} {rest : List Client.Item} {after : Reading}
    (later : Follows nClients own
      ((Client.batches entries).foldl Client.Item.apply peers) false rest
      after) :
    Follows nClients own peers false (Client.batches entries ++ rest)
      after := by
  induction entries generalizing peers with
  | nil => exact later
  | cons entry more inductionHypothesis =>
      rw [List.forall_mem_cons] at others
      obtain ⟨low, high, other, full⟩ := others.1
      have batch := @sends_batch nClients own peers false entry.1 low high
        (fun joined => absurd joined Bool.false_ne_true) entry.2 full
      rw [decide_eq_false other, Bool.or_false] at batch
      exact .cons batch (inductionHypothesis others.2 later)

/-- Whatever happens once the client has joined. -/
theorem follows_later {items : List Client.Item} {peers : Table}
    (later : Client.Later nClients own peers items) :
    Follows nClients own peers true items
      (between (items.foldl Client.Item.apply peers) true) := by
  induction items generalizing peers with
  | nil => exact ⟨trivial, rfl⟩
  | cons item rest inductionHypothesis =>
      cases item with
      | batch id fds =>
          obtain ⟨low, high, other, full, later⟩ := later
          exact .cons (@sends_batch nClients own peers true id low high
            (fun _ => other) fds full) (inductionHypothesis later)
      | notice id =>
          obtain ⟨low, other, -, later⟩ := later
          refine .cons ⟨⟨?_, trivial⟩, rfl⟩ (inductionHypothesis later)
          simpa [Legit, between] using ⟨low, other⟩

/-- A well-formed stream is one that a server may send, to its end and so to
any point before. -/
theorem sends_of_wellFormed {stream : Client.Stream}
    (wellFormed : Client.WellFormed nClients stream) :
    Sends nClients stream.own .start (stream.messages stream.items) ∧
      Reading.after nClients stream.own (stream.messages stream.items) =
        between (Client.reference stream.items) true := by
  have greeting : Legit nClients stream.own .start stream.initialInfo :=
    ⟨wellFormed.low, wellFormed.high, stream.mailboxFd, wellFormed.mailbox,
      rfl⟩
  have notBefore : stream.own ≤ nClients + 1 := by
    have high := wellFormed.high
    omega
  have others : ∀ entry ∈ stream.others.entries, 1 ≤ entry.1 ∧
      entry.1 ≤ nClients + 1 ∧ entry.1 ≠ stream.own ∧
        entry.2.length = nClients + 2 := fun entry member =>
    wellFormed.others entry.1 entry.2
      (OrderedDict.get?_eq_some_iff.mpr member)
  have joins := @sends_batch nClients stream.own
    ((Client.batches stream.others.entries).foldl Client.Item.apply .empty)
    false stream.own wellFormed.low notBefore
    (fun joined => absurd joined Bool.false_ne_true) stream.ownFds
    wellFormed.ownFds
  rw [decide_eq_true rfl, Bool.or_true] at joins
  have firstPass : Client.reference stream.firstPass =
      ((Client.batches stream.others.entries).foldl Client.Item.apply
        .empty).set stream.own stream.ownFds := by
    rw [Client.reference, Client.Stream.firstPass, List.foldl_append]
    rfl
  have ends : Client.reference stream.items =
      stream.later.foldl Client.Item.apply
        (Client.reference stream.firstPass) := List.foldl_append
  have whole : Follows nClients stream.own .empty false
      (stream.firstPass ++ stream.later)
      (between (Client.reference stream.items) true) := by
    rw [Client.Stream.firstPass, List.append_assoc, ends]
    refine follows_batches others (.cons joins ?_)
    rw [← firstPass]
    exact follows_later wellFormed.later
  exact ⟨⟨greeting, whole.1⟩, whole.2⟩

/-! ### What the client knows -/

/-- The batch under way is of an id that is not known yet. -/
structure Arriving (nClients : Nat) (own : Int) (r : Reading) (id : Int)
    (fds : List Nat) : Prop where
  range : 1 ≤ id ∧ id ≤ nClients + 1
  notEmpty : fds ≠ []
  short : fds.length < nClients + 2
  new : r.peers.get? id = none
  other : r.joined = true → id ≠ own

/-- A client that was told its id, between any two messages. -/
structure Told (nClients : Nat) (own : Int) (r : Reading)
    (c : Client.State) : Prop extends Client.Ready nClients own c where
  greeted : r.greeted = true
  range : 1 ≤ own ∧ own ≤ nClients
  firstpass : c.firstpass = !r.joined
  id2fdList : c.id2fdList = r.announced
  id2enList : c.id2enList = if r.joined = true then r.peers else .empty
  peers : ∀ id fds, r.peers.get? id = some fds →
    (1 ≤ id ∧ id ≤ nClients + 1) ∧ fds.length = nClients + 2
  arriving : ∀ id fds, r.arriving = some (id, fds) →
    Arriving nClients own r id fds
  own : r.joined = true ↔ r.peers.get? own ≠ none

/-- A client agrees with what the stream has said. -/
inductive Knows (nClients : Nat) (own : Int) :
    Reading → Client.State → Prop where
  | fresh {c : Client.State} (id : c.id = none) (firstpass : c.firstpass = true)
      (id2fdList : c.id2fdList = .empty) (id2enList : c.id2enList = .empty) :
      Knows nClients own .start c
  | told {r : Reading} {c : Client.State} (told : Told nClients own r c) :
      Knows nClients own r c

variable {names : Int → Option Text} {r : Reading} {c d : Client.State}

/-- The initial information. -/
theorem Knows.greet {message : Message}
    (id : c.id = none) (firstpass : c.firstpass = true)
    (id2fdList : c.id2fdList = .empty) (id2enList : c.id2enList = .empty)
    (legit : Legit nClients own .start message)
    (received : Client.dataReceived nClients names message c = .ok d) :
    Knows nClients own (Reading.start.read nClients own message) d := by
  obtain ⟨low, high, fd, mailbox, rfl⟩ := legit
  rw [Client.dataReceived, if_pos ⟨id, firstpass⟩,
    Client.retrieveInitialInfo_eq low (by omega) mailbox] at received
  cases received
  refine .told ⟨⟨rfl, rfl, rfl⟩, rfl, ⟨low, high⟩, firstpass, id2fdList,
    id2enList, ?_, ?_, ?_⟩
  · intro id fds found
    cases found
  · intro id fds arriving
    cases arriving
  · simp [Reading.start, Reading.read, OrderedDict.get?, OrderedDict.empty]

/-- The descriptors that the client holds of the batch that goes on. -/
theorem Told.held (told : Told nClients own r c) {id : Int} {fd : Nat}
    (legit : Legit nClients own r { data := [id], fd := some fd })
    (received : Client.dataReceived nClients names
      { data := [id], fd := some fd } c = .ok d) :
    c.held id = r.fds ∧ r.fds.length < nClients + 2 ∧
      r.peers.get? id = none ∧ (1 ≤ id ∧ id ≤ nClients + 1) ∧
        (r.joined = true → id ≠ own) ∧
          r.announced.set id (r.fds ++ [fd]) =
            r.peers.set id (r.fds ++ [fd]) := by
  rw [Legit, if_neg (by simp [told.greeted])] at legit
  dsimp only at legit
  cases way : r.arriving with
  | some batch =>
      obtain ⟨current, fds⟩ := batch
      rw [way] at legit
      dsimp only at legit
      subst legit
      have arriving := told.arriving id fds way
      have list : r.announced = r.peers.set id fds := by
        rw [Reading.announced, way]
      have so : r.fds = fds := by
        rw [Reading.fds, way]
        rfl
      refine ⟨?_, ?_, arriving.new, arriving.range, arriving.other, ?_⟩
      · rw [Client.State.held, told.id2fdList, list, OrderedDict.get?_set,
          if_pos rfl, so]
        rfl
      · rw [so]
        exact arriving.short
      · rw [list, OrderedDict.set_set]
  | none =>
      rw [way] at legit
      obtain ⟨low, high, other⟩ := legit
      have list : r.announced = r.peers := by
        rw [Reading.announced, way]
      have so : r.fds = [] := by
        rw [Reading.fds, way]
        rfl
      have new : r.peers.get? id = none := by
        -- the batch of a peer that is known raises
        cases found : r.peers.get? id with
        | none => rfl
        | some fds =>
            rw [Client.dataReceived_full told.toReady (by omega)
              (by rw [told.id2fdList, list, found])
              (told.peers id fds found).2] at received
            cases received
      refine ⟨?_, ?_, new, ⟨low, high⟩, other, by rw [list]⟩
      · rw [so]
        exact Client.held_of_none (by rw [told.id2fdList, list, new])
      · rw [so, List.length_nil]
        omega

/-- A batch that is not complete yet. -/
theorem Told.waits (told : Told nClients own r c) {id : Int} {fd : Nat}
    (legit : Legit nClients own r { data := [id], fd := some fd })
    (received : Client.dataReceived nClients names
      { data := [id], fd := some fd } c = .ok d)
    (short : (r.fds ++ [fd]).length < nClients + 2) :
    Told nClients own
      (r.read nClients own { data := [id], fd := some fd }) d := by
  obtain ⟨held, room, new, range, other, list⟩ := told.held legit received
  have read : r.read nClients own { data := [id], fd := some fd } =
      { r with arriving := some (id, r.fds ++ [fd]) } := by
    rw [Reading.read, if_neg (by simp [told.greeted])]
    exact if_pos short
  rw [Client.dataReceived_fd told.toReady (by omega) (by rwa [held]), held,
    if_pos (.inr (by simpa using short))] at received
  cases received
  rw [read]
  refine ⟨told.toReady.holding id _, told.greeted, told.range, told.firstpass,
    ?_, told.id2enList, told.peers, ?_, told.own⟩
  · rw [Client.State.holding, told.id2fdList, list]
    rfl
  · intro current fds way
    cases way
    exact ⟨range, by simp, short, new, other⟩

/-- A complete batch. -/
theorem Told.completes (told : Told nClients own r c) {id : Int}
    {fds : List Nat} (range : 1 ≤ id ∧ id ≤ nClients + 1)
    (full : fds.length = nClients + 2) {joined : Bool}
    (joins : joined = (r.joined || decide (id = own)))
    (ready : Client.Ready nClients own d) (firstpass : d.firstpass = !joined)
    (id2fdList : d.id2fdList = r.peers.set id fds)
    (id2enList : d.id2enList =
      if joined = true then r.peers.set id fds else .empty) :
    Told nClients own
      { r with peers := r.peers.set id fds, arriving := none, joined := joined }
      d := by
  refine ⟨ready, told.greeted, told.range, firstpass, id2fdList, id2enList, ?_,
    ?_, ?_⟩
  · intro other others found
    dsimp only at found
    rw [OrderedDict.get?_set] at found
    split at found
    · rename_i same
      cases found
      exact ⟨same ▸ range, full⟩
    · exact told.peers other others found
  · intro other others way
    cases way
  · dsimp only
    rw [joins, Bool.or_eq_true, decide_eq_true_eq, told.own,
      OrderedDict.get?_set]
    by_cases same : own = id
    · simp [same]
    · simp [same, Ne.symm same]

/-- The message that completes a batch. -/
theorem Told.fills (told : Told nClients own r c) {id : Int} {fd : Nat}
    (legit : Legit nClients own r { data := [id], fd := some fd })
    (received : Client.dataReceived nClients names
      { data := [id], fd := some fd } c = .ok d)
    (full : ¬ (r.fds ++ [fd]).length < nClients + 2) :
    Told nClients own
      (r.read nClients own { data := [id], fd := some fd }) d := by
  obtain ⟨held, room, new, range, other, list⟩ := told.held legit received
  have read : r.read nClients own { data := [id], fd := some fd } =
      { r with
        peers := r.peers.set id (r.fds ++ [fd])
        arriving := none
        joined := r.joined || decide (id = own) } := by
    rw [Reading.read, if_neg (by simp [told.greeted])]
    exact if_neg full
  have size : (r.fds ++ [fd]).length = nClients + 2 := by
    rw [List.length_append, List.length_singleton] at full ⊢
    omega
  have stored : (c.holding id (r.fds ++ [fd])).id2fdList =
      r.peers.set id (r.fds ++ [fd]) := by
    rw [Client.State.holding, told.id2fdList, list]
  have ready := told.toReady.holding id (r.fds ++ [fd])
  rw [Client.dataReceived_fd told.toReady (by omega) (by rwa [held]),
    held] at received
  rw [read]
  by_cases waits : c.firstpass = true ∧ own ≠ id
  · -- another peer, before the client has joined
    rw [if_pos (.inl waits)] at received
    cases received
    have outside : r.joined = false := by
      rw [told.firstpass, Bool.not_eq_true'] at waits
      exact waits.1
    have still : (r.joined || decide (id = own)) = false := by
      rw [outside, decide_eq_false (Ne.symm waits.2), Bool.or_false]
    refine told.completes range size rfl ready ?_ stored ?_
    · rw [still]
      exact waits.1
    · rw [still]
      have empty := told.id2enList
      rw [outside] at empty
      exact empty
  · rw [if_neg (by
      rintro (first | short)
      · exact waits first
      · rw [List.length_append, List.length_singleton] at size
        omega), Client.finish] at received
    dsimp only at received
    rw [stored] at received
    by_cases joined : r.joined = true
    · have closed : (c.holding id (r.fds ++ [fd])).firstpass = false := by
        rw [Client.State.holding, told.firstpass, joined]
        rfl
      have notifiers : (c.holding id (r.fds ++ [fd])).id2enList = r.peers := by
        rw [Client.State.holding, told.id2enList, if_pos joined]
      rw [if_neg (by simp [closed]), notifiers,
        Client.buildNotifiers_set _ new] at received
      cases received
      have still : (r.joined || decide (id = own)) = true := by
        rw [joined, Bool.true_or]
      refine told.completes range size rfl
        ⟨ready.id, ready.nEvents, ready.serverId⟩ ?_ rfl ?_
      · rw [still]
        exact closed
      · rw [still]
        rfl
    · have outside : r.joined = false := Bool.eq_false_of_not_eq_true joined
      have first : c.firstpass = true := by
        rw [told.firstpass, outside]
        rfl
      have same : own = id := by
        by_contra other
        exact waits ⟨first, other⟩
      have empty : (c.holding id (r.fds ++ [fd])).id2enList = .empty := by
        rw [Client.State.holding, told.id2enList, outside]
        rfl
      have joins : (r.joined || decide (id = own)) = true := by
        rw [same, decide_eq_true rfl, Bool.or_true]
      rw [if_pos (show (c.holding id (r.fds ++ [fd])).firstpass = true from
        first), empty] at received
      cases named : Client.getNodenames names
          (r.peers.set id (r.fds ++ [fd])) with
      | none =>
          rw [named] at received
          cases received
      | some read =>
          rw [named] at received
          cases received
          refine told.completes range size rfl
            ⟨ready.id, ready.nEvents, ready.serverId⟩ ?_ rfl ?_
          · rw [joins]
            rfl
          · rw [joins]
            exact Client.buildNotifiers_of_prefix List.nil_prefix

/-- A notice. -/
theorem Told.leaves (told : Told nClients own r c) {id : Int}
    (legit : Legit nClients own r { data := [id], fd := none })
    (received : Client.dataReceived nClients names
      { data := [id], fd := none } c = .ok d) :
    Told nClients own (r.read nClients own { data := [id], fd := none })
      d := by
  rw [Legit, if_neg (by simp [told.greeted])] at legit
  obtain ⟨joined, still, low, other⟩ := legit
  have read : r.read nClients own { data := [id], fd := none } =
      { r with peers := r.peers.del id } := by
    rw [Reading.read, if_neg (by simp [told.greeted])]
  have list : c.id2fdList = r.peers := by
    rw [told.id2fdList, Reading.announced, still]
  have notifiers : c.id2enList = r.peers := by
    rw [told.id2enList, if_pos joined]
  rw [Client.dataReceived_lone told.toReady (by omega),
    Client.disconnect] at received
  rw [read]
  cases named : c.id2nodename with
  | none =>
      rw [named] at received
      cases received
  | some id2nodename =>
      rw [named] at received
      dsimp only at received
      cases listed : id2nodename.get? id with
      | none =>
          rw [listed] at received
          cases received
      | some name =>
          rw [listed] at received
          cases received
          refine ⟨⟨told.id, told.nEvents, told.serverId⟩, told.greeted,
            told.range, told.firstpass, ?_, ?_, ?_, ?_, ?_⟩
          · rw [Reading.announced]
            dsimp only
            rw [still, list]
          · dsimp only
            rw [if_pos joined, notifiers]
          · intro peer fds found
            dsimp only at found
            rw [OrderedDict.get?_del] at found
            split at found
            · cases found
            · exact told.peers peer fds found
          · intro peer fds way
            rw [still] at way
            cases way
          · dsimp only
            rw [told.own, OrderedDict.get?_del_of_ne _ other.symm]

/-- Every message that a server may send and that the client does not raise
on. -/
theorem Knows.message {message : Message} (knows : Knows nClients own r c)
    (legit : Legit nClients own r message)
    (received : Client.dataReceived nClients names message c = .ok d) :
    Knows nClients own (r.read nClients own message) d := by
  cases knows with
  | fresh id firstpass id2fdList id2enList =>
      exact .greet id firstpass id2fdList id2enList legit received
  | told told =>
      obtain ⟨data, fd⟩ := message
      match data, fd with
      | [id], some fd =>
          by_cases short : (r.fds ++ [fd]).length < nClients + 2
          · exact .told (told.waits legit received short)
          · exact .told (told.fills legit received short)
      | [id], none => exact .told (told.leaves legit received)
      | [], _ => simp [Legit, told.greeted] at legit
      | _ :: _ :: _, _ => simp [Legit, told.greeted] at legit

theorem Told.renamed (told : Told nClients own r c)
    (renamed : Renamed c d) : Told nClients own r d := by
  obtain ⟨read, rfl⟩ := renamed
  exact ⟨⟨told.id, told.nEvents, told.serverId⟩, told.greeted, told.range,
    told.firstpass, told.id2fdList, told.id2enList, told.peers, told.arriving,
    told.own⟩

theorem Knows.renamed (knows : Knows nClients own r c)
    (renamed : Renamed c d) : Knows nClients own r d := by
  cases knows with
  | fresh id firstpass id2fdList id2enList =>
      obtain ⟨read, rfl⟩ := renamed
      exact .fresh id firstpass id2fdList id2enList
  | told told => exact .told (told.renamed renamed)

/-- A notifier of the client is the descriptor that was announced. -/
theorem Knows.notifier (knows : Knows nClients own r c) {id : Int}
    {fds : List Nat} (found : c.id2enList.get? id = some fds) :
    c.id = some own ∧ r.joined = true ∧ r.peers.get? id = some fds := by
  cases knows with
  | fresh id firstpass id2fdList id2enList =>
      rw [id2enList] at found
      cases found
  | told told =>
      have notifiers := told.id2enList
      by_cases joined : r.joined = true
      · rw [if_pos joined] at notifiers
        exact ⟨told.id, joined, notifiers ▸ found⟩
      · rw [if_neg joined] at notifiers
        rw [notifiers] at found
        cases found

/-! ### Runs -/

/-- A message of the server or a typed line, and the names that the mailbox
holds then. -/
inductive Label where
  | message (message : Message) (names : Int → Option Text)
  | line (line : List UInt8) (names : Int → Option Text)

/-- A call of dataReceived with its `place_and_go`.  An exception ends the
connection. -/
def receiveMessage (nClients : Nat) (names : Int → Option Text)
    (message : Message) (p : Process) : Option Process :=
  match Client.dataReceived nClients names message p.client with
  | .error _ => none
  | .ok c =>
      if p.client.firstpass = true ∧ c.firstpass = false then
        match placeAndGo nClients names "server".toList
            "Link CTL Peer-Attribute".toList none false
            { p with client := c } with
        | (.error _, _) => none
        | (.ok (), p) => some p
      else some { p with client := c }

/-- A call of lineReceived.  Bytes that cannot be decoded raise, and the
reactor drops the console. -/
def receiveLine (nClients : Nat) (names : Int → Option Text)
    (line : List UInt8) (p : Process) : Process :=
  match Utf8.decode line with
  | none => p.emit [.closeConsole]
  | some line => lineReceived nClients names line p

def step (nClients : Nat) : Transition.Step Process Label := fun p label =>
  match label with
  | .message message names =>
      if .loseConnection ∈ p.effects then none
      else receiveMessage nClients names message p
  | .line line names =>
      if .closeConsole ∈ p.effects then none
      else some (receiveLine nClients names line p)

def fresh : Process where
  client := Client.initial
  tracker := 0
  effects := []

/-- The messages of a run. -/
def heard (trace : List Label) : List Message :=
  trace.filterMap fun label =>
    match label with
    | .message message _ => some message
    | .line _ _ => none

/-- A typed line that takes the slot of somebody else. -/
def Label.Spoofs : Label → Prop
  | .message .. => False
  | .line bytes _ =>
      ∃ text, Utf8.decode bytes = some text ∧ Console.Spoofs (command text)

theorem heard_append (first second : List Label) :
    heard (first ++ second) = heard first ++ heard second :=
  List.filterMap_append

variable {p q : Process} {label : Label}

/-- The mail of a step, by the tables after it. -/
def Mails (nClients : Nat) (spoofs : Prop) (p q : Process) : Prop :=
  ∃ postings : List Posting,
    q.mail = p.mail ++ postings.flatMap Posting.effects ∧
      ∀ posting ∈ postings, ∃ route,
        Allows nClients q.client.id2enList route posting ∧
          (¬ spoofs → route.2 = q.client.id)

theorem Obeys.mails {spoofs : Prop} (obeys : Obeys nClients spoofs p q) :
    Mails nClients spoofs p q := by
  obtain ⟨client, routes, ⟨postings, mail, allows⟩, sources⟩ := obeys
  refine ⟨postings, mail, fun posting member => ?_⟩
  obtain ⟨route, among, allowed⟩ := allows posting member
  refine ⟨route, by rwa [client.id2enList], fun honest => ?_⟩
  rw [client.id]
  exact sources honest route among

theorem receiveLine_obeys (names : Int → Option Text) (line : List UInt8) :
    Obeys nClients (Label.Spoofs (.line line names)) p
      (receiveLine nClients names line p) := by
  unfold receiveLine
  cases decoded : Utf8.decode line with
  | none => exact Obeys.report (.silent (.refl _) rfl) rfl
  | some text =>
      obtain ⟨client, routes, posts, sources⟩ :=
        @lineReceived_obeys nClients names p text
      exact ⟨client, routes, posts, fun honest =>
        sources fun spoof => honest ⟨text, decoded, spoof⟩⟩

theorem receiveMessage_obeys {message : Message}
    (received : receiveMessage nClients names message p = some q) :
    ∃ c, Client.dataReceived nClients names message p.client = .ok c ∧
      Obeys nClients False { p with client := c } q := by
  unfold receiveMessage at received
  cases data : Client.dataReceived nClients names message p.client with
  | error raised =>
      rw [data] at received
      cases received
  | ok c =>
      refine ⟨c, rfl, ?_⟩
      rw [data] at received
      dsimp only at received
      split at received
      · have obeys := @placeAndGo_honest nClients names False
          { p with client := c } "server".toList
          "Link CTL Peer-Attribute".toList false
        cases placed : placeAndGo nClients names "server".toList
            "Link CTL Peer-Attribute".toList none false
            { p with client := c } with
        | mk result after =>
            rw [placed] at received obeys
            cases result with
            | error raised => cases received
            | ok _ =>
                cases received
                exact obeys
      · cases received
        exact .silent (.refl _) rfl

theorem step_mails (stepped : step nClients p label = some q) :
    Mails nClients label.Spoofs p q := by
  cases label with
  | message message names =>
      rw [step] at stepped
      split at stepped
      · cases stepped
      · obtain ⟨c, -, obeys⟩ := receiveMessage_obeys stepped
        exact @Obeys.mails _ { p with client := c } _ _ obeys
  | line line names =>
      rw [step] at stepped
      split at stepped
      · cases stepped
      · cases stepped
        exact (receiveLine_obeys names line).mails

/-- One step on a client that agrees with the stream. -/
theorem step_knows (knows : Knows nClients own r p.client)
    (sends : Sends nClients own r (heard [label]))
    (stepped : step nClients p label = some q) :
    Knows nClients own
      ((heard [label]).foldl (Reading.read nClients own) r) q.client := by
  cases label with
  | message message names =>
      rw [step] at stepped
      split at stepped
      · cases stepped
      · obtain ⟨c, received, obeys⟩ := receiveMessage_obeys stepped
        exact (knows.message sends.1 received).renamed obeys.client
  | line line names =>
      rw [step] at stepped
      split at stepped
      · cases stepped
      · cases stepped
        exact knows.renamed (receiveLine_obeys names line).client

/-- Every client agrees with what it has heard. -/
theorem knows_of_reached {trace : List Label}
    (sends : Sends nClients own .start (heard trace))
    (reached : Transition.run (step nClients) fresh trace = some p) :
    Knows nClients own (.after nClients own (heard trace)) p.client := by
  have whole : ∀ trace r p, Knows nClients own r p.client →
      Sends nClients own r (heard trace) →
      ∀ q, Transition.run (step nClients) p trace = some q →
        Knows nClients own
          ((heard trace).foldl (Reading.read nClients own) r) q.client := by
    intro trace
    induction trace with
    | nil =>
        intro r p knows _ q reached
        cases reached
        exact knows
    | cons label rest inductionHypothesis =>
        intro r p knows sends q reached
        rw [show label :: rest = [label] ++ rest from rfl, heard_append,
          sends_append] at sends
        rw [show label :: rest = [label] ++ rest from rfl, heard_append,
          List.foldl_append]
        rw [Transition.run_cons] at reached
        obtain ⟨next, stepped, later⟩ := Option.bind_eq_some_iff.mp reached
        exact inductionHypothesis _ next (step_knows knows sends.1 stepped)
          sends.2 q later
  exact whole trace .start fresh (.fresh rfl rfl rfl rfl) sends p reached

/-- Whatever the server sends and whatever is typed, in any order: every message
that a client puts into a mailslot is followed by one ring, of the notifier that
the server announced, for that slot, of a peer that is there; it fits, and the
slot is its own unless the line asked for another one. -/
theorem mail_is_rung {trace : List Label}
    (sends : Sends nClients own .start (heard (trace ++ [label])))
    (reached : Transition.run (step nClients) fresh trace = some p)
    (stepped : step nClients p label = some q) :
    ∃ postings : List Posting,
      q.mail = p.mail ++ postings.flatMap Posting.effects ∧
        ∀ posting ∈ postings,
          (1 ≤ posting.sender ∧ posting.sender ≤ nClients + 1) ∧
            (label.Spoofs ∨ posting.sender = own) ∧
              Link.FitsSlot posting.text ∧
                ∃ peer fds,
                  (Reading.after nClients own
                    (heard (trace ++ [label]))).peers.get? peer = some fds ∧
                  fds[posting.sender.toNat]? = some posting.fd := by
  have both : Transition.run (step nClients) fresh (trace ++ [label]) =
      some q := by
    rw [Transition.run_append, reached, Option.bind_some,
      Transition.run_cons, stepped]
    rfl
  have knows := knows_of_reached sends both
  obtain ⟨postings, mail, allows⟩ := step_mails stepped
  refine ⟨postings, mail, fun posting member => ?_⟩
  obtain ⟨route, allowed, honest⟩ := allows posting member
  obtain ⟨fds, found, at?⟩ := allowed.notifier
  obtain ⟨id, joined, announced⟩ := knows.notifier found
  have low := allowed.slot.1
  refine ⟨allowed.slot, ?_, allowed.fits, route.1, fds, announced, ?_⟩
  · by_cases spoof : label.Spoofs
    · exact .inl spoof
    · have source : route.2 = some own := (honest spoof).trans id
      rw [allowed.source, Option.some.injEq] at source
      exact .inr source
  · rwa [index?, if_pos (by omega)] at at?

end

def hostNames (id : Int) : Option Text :=
  some (if id = 2 then "Z-server".toList else nodenameOf id)

/-- The stream of a server for one client, until that has joined. -/
def onlyClient : List Label :=
  [.message { data := [0, 1, -1], fd := some 9 } hostNames,
    .message { data := [2], fd := some 10 } hostNames,
    .message { data := [2], fd := some 11 } hostNames,
    .message { data := [2], fd := some 12 } hostNames,
    .message { data := [1], fd := some 20 } hostNames,
    .message { data := [1], fd := some 21 } hostNames,
    .message { data := [1], fd := some 22 } hostNames]

/-- What such a server sends: its own batch and that of the client. -/
def alone : Client.Stream where
  own := 1
  mailboxFd := 9
  others := OrderedDict.empty.set 2 [10, 11, 12]
  ownFds := [20, 21, 22]
  later := []

theorem wellFormed_alone : Client.WellFormed 1 alone := by
  refine ⟨by decide, by decide, by decide, fun id fds found => ?_, rfl, trivial⟩
  rw [alone, OrderedDict.get?_set] at found
  split at found
  · rename_i same
    cases found
    rw [same]
    decide
  · cases found

theorem sends_onlyClient : Sends 1 1 .start (heard onlyClient) :=
  (sends_of_wellFormed wellFormed_alone).1

/-- A client that has announced itself says hi to the server. -/
theorem mail_is_rung_hi :
    let hi : Label := .line (Utf8.encode "send Z-server hi".toList) hostNames
    ∃ p q, Transition.run (step 1) fresh onlyClient = some p ∧
      step 1 p hi = some q ∧
      ∃ postings : List Posting,
        q.mail = p.mail ++ postings.flatMap Posting.effects ∧
          ∀ posting ∈ postings,
            (1 ≤ posting.sender ∧ posting.sender ≤ (1 : Nat) + 1) ∧
              (hi.Spoofs ∨ posting.sender = 1) ∧
                Link.FitsSlot posting.text ∧
                  ∃ peer fds,
                    (Reading.after 1 1
                      (heard (onlyClient ++ [hi]))).peers.get? peer =
                        some fds ∧
                    fds[posting.sender.toNat]? = some posting.fd := by
  intro hi
  obtain ⟨p, reached⟩ : ∃ p, Transition.run (step 1) fresh onlyClient =
      some p := Option.isSome_iff_exists.mp (by decide +kernel)
  have both : (Transition.run (step 1) fresh (onlyClient ++ [hi])).isSome =
      true := by decide +kernel
  rw [Transition.run_append, reached, Option.bind_some,
    Transition.run_cons] at both
  cases stepped : step 1 p hi with
  | none => simp [stepped] at both
  | some q =>
      refine ⟨p, q, reached, stepped, mail_is_rung ?_ reached stepped⟩
      rw [heard_append]
      exact sends_onlyClient

end FameZ.Console
