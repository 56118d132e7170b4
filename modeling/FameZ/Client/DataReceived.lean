/-
Module: FameZ.Client.DataReceived
Purpose: The tables of a Python client and what one message of the server's
  stream does to them.
Trusted boundary: the translation of dataReceived, retrieve_initial_info and
  get_nodenames of twisted_client.py
Main exports: Message, State, dataReceived, receive, Ready, dataReceived_fd,
  receive_waits, receive_finishes
-/
import FameZ.Lib.OrderedDict
import FameZ.Lib.PyText
import Mathlib.Data.List.Sort

namespace FameZ.Client

open PyText (Text)

/-!
The transport hands over one descriptor, if there is one, and then the data
that came with it.  The node names are read from the mailbox once, at the end
of the first pass; `names` is what the mailbox holds then.
-/

/-- The data of one call, in quadwords, and its descriptor. -/
structure Message where
  data : List Int
  fd : Option Nat
deriving Repr, DecidableEq

/-- The exceptions that leave dataReceived. -/
inductive Raised where
  | assertionError
  | attributeError
  | keyError
  | nameError
  | typeError
  | retrieveFailed
deriving Repr, DecidableEq

/-- The client.  Its notifiers are the descriptors they are built from;
`id2nodename` and `prevthis` do not exist at first. -/
structure State where
  id : Option Int
  firstpass : Bool
  nEvents : Nat
  serverId : Int
  prevthis : Option Int
  id2fdList : OrderedDict Int (List Nat)
  id2enList : OrderedDict Int (List Nat)
  id2nodename : Option (OrderedDict Int Text)

def initial : State where
  id := none
  firstpass := true
  nEvents := 0
  serverId := 0
  prevthis := none
  id2fdList := .empty
  id2enList := .empty
  id2nodename := none

abbrev Outcome := Except Raised State

/-- `retrieve_initial_info`; the other parameters come from the mailbox of a
server with `nClients`.  The text of its second assertion misspells `minusone`,
and the mailbox compares a missing descriptor with 0. -/
def retrieveInitialInfo (nClients : Nat) (message : Message) (c : State) :
    Outcome :=
  match message.data with
  | [version, id, minusone] =>
      if version ≠ 0 then .error .assertionError
      else if minusone ≠ -1 then .error .nameError
      else if id < 1 then .error .assertionError
      else
        match message.fd with
        | none => .error .typeError
        | some mailboxFd =>
            if 0 < mailboxFd ∧ id ≤ nClients + 1 then
              .ok { c with
                id := some id
                nEvents := nClients + 2
                serverId := nClients + 1 }
            else .error .assertionError
  | _ => .error .assertionError

/-- `get_nodenames`; `none` is a name that `retrieve` raises on. -/
def getNodenames (names : Int → Option Text)
    (id2fdList : OrderedDict Int (List Nat)) :
    Option (OrderedDict Int Text) :=
  (id2fdList.keys.insertionSort (· ≤ ·)).foldlM
    (fun id2nodename id => (names id).map (id2nodename.set id)) .empty

/-- An id that has no notifiers yet gets them. -/
def buildMissing (id2enList : OrderedDict Int (List Nat))
    (entry : Int × List Nat) : OrderedDict Int (List Nat) :=
  match id2enList.get? entry.1 with
  | none => id2enList.set entry.1 entry.2
  | some _ => id2enList

def buildNotifiers (id2fdList id2enList : OrderedDict Int (List Nat)) :
    OrderedDict Int (List Nat) :=
  id2fdList.entries.foldl buildMissing id2enList

/-- A single peer id is a disconnect notification. -/
def disconnect (this : Int) (c : State) : Outcome :=
  match c.id2nodename with
  | none => .error .attributeError
  | some id2nodename =>
      match id2nodename.get? this with
      | none => .error .keyError
      | some _ =>
          .ok { c with
            id2enList := c.id2enList.del this
            id2nodename := some (id2nodename.del this)
            id2fdList := c.id2fdList.del this }

/-- Append the descriptor to the list of its id, or start the list anew. -/
def storeFd (this : Int) (fd : Nat) (c : State) : Except Raised (List Nat) :=
  match c.id2fdList.get? this with
  | none => .ok [fd]
  | some fds =>
      if c.serverId < fds.length then .error .assertionError
      else if fds.length = c.nEvents then
        if c.id = some this then .error .assertionError
        else .ok [fd]
      else .ok (fds ++ [fd])

/-- The housekeeping after a complete batch.  `place_and_go` reads the names
a second time and catches what it raises itself. -/
def finish (names : Int → Option Text) (c : State) : Outcome :=
  let c := { c with id2enList := buildNotifiers c.id2fdList c.id2enList }
  if c.firstpass then
    match getNodenames names c.id2fdList with
    | none => .error .retrieveFailed
    | some id2nodename =>
        .ok { c with id2nodename := some id2nodename, firstpass := false }
  else .ok c

/-- A peer id with a descriptor. -/
def receiveFd (names : Int → Option Text) (this : Int) (fd : Nat)
    (c : State) : Outcome :=
  -- the corner case of a server id that the mailbox did not tell
  match (if c.id = some this ∧ c.serverId = 0 then c.prevthis
      else some c.serverId) with
  | none => .error .attributeError
  | some serverId =>
      let c := { c with serverId := serverId, prevthis := some this }
      match storeFd this fd c with
      | .error raised => .error raised
      | .ok fds =>
          let c := { c with id2fdList := c.id2fdList.set this fds }
          if (c.firstpass = true ∧ c.id ≠ some this) ∨
              fds.length < c.nEvents then .ok c
          else finish names c

def dataReceived (nClients : Nat) (names : Int → Option Text)
    (message : Message) (c : State) : Outcome :=
  if c.id = none ∧ c.firstpass = true then
    retrieveInitialInfo nClients message c
  else
    match message.data with
    | [this] =>
        if this < 0 then .error .assertionError
        else
          match message.fd with
          | none => disconnect this c
          | some fd => receiveFd names this fd c
    | _ => .error .assertionError

/-- One call a message, until one raises. -/
def receive (nClients : Nat) (names : Int → Option Text)
    (messages : List Message) (c : State) : Outcome :=
  messages.foldlM (fun c message => dataReceived nClients names message c) c

section

variable {nClients : Nat} {names : Int → Option Text}

/-- The three quadwords of a server with that many clients. -/
theorem retrieveInitialInfo_eq {id : Int} {mailboxFd : Nat} (low : 1 ≤ id)
    (high : id ≤ nClients + 1) (mailbox : 0 < mailboxFd) (c : State) :
    retrieveInitialInfo nClients
        { data := [0, id, -1], fd := some mailboxFd } c =
      .ok { c with
        id := some id
        nEvents := nClients + 2
        serverId := nClients + 1 } := by
  unfold retrieveInitialInfo
  dsimp only
  rw [if_neg (by simp), if_neg (by simp), if_neg (by omega),
    if_pos ⟨mailbox, high⟩]

theorem receive_cons (message : Message) (rest : List Message) (c : State) :
    receive nClients names (message :: rest) c =
      (dataReceived nClients names message c).bind
        (receive nClients names rest) := rfl

theorem receive_append (first second : List Message) (c : State) :
    receive nClients names (first ++ second) c =
      (receive nClients names first c).bind
        (receive nClients names second) :=
  List.foldlM_append

/-- A client that was told its id. -/
structure Ready (nClients : Nat) (own : Int) (c : State) : Prop where
  id : c.id = some own
  nEvents : c.nEvents = nClients + 2
  serverId : c.serverId = nClients + 1

/-- The messages of a batch. -/
def batchMessages (this : Int) (fds : List Nat) : List Message :=
  fds.map fun fd => { data := [this], fd := some fd }

/-- The client once it holds some descriptors of an id. -/
def State.holding (c : State) (this : Int) (fds : List Nat) : State :=
  { c with prevthis := some this, id2fdList := c.id2fdList.set this fds }

/-- The descriptors of an id so far. -/
def State.held (c : State) (this : Int) : List Nat :=
  (c.id2fdList.get? this).getD []

@[simp] theorem State.held_holding (c : State) (this : Int)
    (fds : List Nat) : (c.holding this fds).held this = fds := by
  simp [State.held, State.holding]

theorem State.holding_holding (c : State) (this : Int)
    (first second : List Nat) :
    (c.holding this first).holding this second = c.holding this second := by
  simp [State.holding, OrderedDict.set_set]

theorem Ready.holding {own : Int} {c : State} (ready : Ready nClients own c)
    (this : Int) (fds : List Nat) :
    Ready nClients own (c.holding this fds) :=
  ⟨ready.id, ready.nEvents, ready.serverId⟩

/-- A descriptor of an incomplete list is appended; what follows depends on
whether that completes it. -/
theorem dataReceived_fd {own : Int} {c : State}
    (ready : Ready nClients own c) {this : Int} (notNegative : 0 ≤ this)
    (room : (c.held this).length < nClients + 2) (fd : Nat) :
    dataReceived nClients names { data := [this], fd := some fd } c =
      if (c.firstpass = true ∧ own ≠ this) ∨
          (c.held this).length + 1 < nClients + 2 then
        .ok (c.holding this (c.held this ++ [fd]))
      else finish names (c.holding this (c.held this ++ [fd])) := by
  have known : c.serverId ≠ 0 := by
    rw [ready.serverId]
    omega
  have stored : storeFd this fd
      { c with serverId := c.serverId, prevthis := some this } =
        .ok (c.held this ++ [fd]) := by
    unfold storeFd State.held
    unfold State.held at room
    dsimp only
    cases list : c.id2fdList.get? this with
    | none => rfl
    | some fds =>
        rw [list, Option.getD_some] at room
        dsimp only
        rw [ready.serverId, ready.nEvents, if_neg (by omega),
          if_neg (by omega)]
        rfl
  rw [dataReceived, if_neg (by simp [ready.id])]
  dsimp only
  rw [if_neg (by omega), receiveFd, if_neg (by simp [known])]
  dsimp only
  rw [stored]
  have waits : (c.firstpass = true ∧ c.id ≠ some this ∨
        (c.held this ++ [fd]).length < c.nEvents) ↔
      (c.firstpass = true ∧ own ≠ this ∨
        (c.held this).length + 1 < nClients + 2) := by
    rw [ready.nEvents, ready.id, List.length_append, List.length_singleton,
      ne_eq, Option.some.injEq]
  exact if_congr waits rfl rfl

/-! ### A batch -/

/-- The messages of a batch that does not complete it, or of a batch of
another peer in the first pass, are only stored. -/
theorem receive_waits {own : Int} {this : Int} (notNegative : 0 ≤ this)
    {fds : List Nat} (notEmpty : fds ≠ []) {c : State}
    (ready : Ready nClients own c)
    (waits : (c.held this).length + fds.length < nClients + 2 ∨
      c.firstpass = true ∧ own ≠ this ∧
        (c.held this).length + fds.length ≤ nClients + 2) :
    receive nClients names (batchMessages this fds) c =
      .ok (c.holding this (c.held this ++ fds)) := by
  induction fds generalizing c with
  | nil => exact absurd rfl notEmpty
  | cons fd rest inductionHypothesis =>
      rw [List.length_cons] at waits
      have first : dataReceived nClients names
          { data := [this], fd := some fd } c =
            .ok (c.holding this (c.held this ++ [fd])) := by
        rw [dataReceived_fd ready notNegative (by omega), if_pos]
        rcases waits with short | ⟨firstpass, other, -⟩
        · exact .inr (by omega)
        · exact .inl ⟨firstpass, other⟩
      rw [batchMessages, List.map_cons, receive_cons, first]
      change receive nClients names (batchMessages this rest) _ = _
      by_cases last : rest = []
      · rw [last]
        rfl
      · rw [inductionHypothesis last (ready.holding this _) (by
          rw [State.held_holding, List.length_append, List.length_singleton]
          rcases waits with short | ⟨firstpass, other, short⟩
          · exact .inl (by omega)
          · exact .inr ⟨firstpass, other, by omega⟩),
          State.held_holding, State.holding_holding, List.append_assoc]
        rfl

/-- The last message of a batch that completes it. -/
theorem receive_finishes {own : Int} {this : Int} (notNegative : 0 ≤ this)
    {fds : List Nat} (full : fds.length = nClients + 2) {c : State}
    (ready : Ready nClients own c) (new : c.held this = [])
    (last : c.firstpass = false ∨ own = this) :
    receive nClients names (batchMessages this fds) c =
      finish names (c.holding this fds) := by
  obtain ⟨before, fd, rfl⟩ : ∃ before fd, fds = before ++ [fd] := by
    have notEmpty : fds ≠ [] := by
      rintro rfl
      cases full
    exact ⟨_, _, (List.dropLast_append_getLast notEmpty).symm⟩
  rw [List.length_append, List.length_singleton] at full
  have notEmpty : before ≠ [] := by
    rintro rfl
    rw [List.length_nil] at full
    omega
  have waited : receive nClients names (batchMessages this before) c =
      .ok (c.holding this (c.held this ++ before)) := by
    apply receive_waits notNegative notEmpty ready
    rw [new, List.length_nil]
    exact .inl (by omega)
  rw [new, List.nil_append] at waited
  rw [batchMessages, List.map_append, receive_append, ← batchMessages, waited]
  change (dataReceived nClients names { data := [this], fd := some fd }
    (c.holding this before)).bind _ = _
  rw [dataReceived_fd (ready.holding this before) notNegative (by
    rw [State.held_holding]
    omega), if_neg, State.held_holding, State.holding_holding]
  · cases finish names (c.holding this (before ++ [fd])) with
    | error raised => rfl
    | ok final => rfl
  · rw [State.held_holding]
    rintro (⟨firstpass, other⟩ | short)
    · rcases last with steady | same
      · rw [State.holding, steady] at firstpass
        cases firstpass
      · exact other same
    · omega

/-- A list that is complete already trips the assertion on its length: the
branch for a reconnecting client is never reached. -/
theorem dataReceived_full {own : Int} {c : State}
    (ready : Ready nClients own c) {this : Int} (notNegative : 0 ≤ this)
    {fds : List Nat} (list : c.id2fdList.get? this = some fds)
    (full : fds.length = nClients + 2) (fd : Nat) :
    dataReceived nClients names { data := [this], fd := some fd } c =
      .error .assertionError := by
  have known : c.serverId ≠ 0 := by
    rw [ready.serverId]
    omega
  have refused : storeFd this fd
      { c with serverId := c.serverId, prevthis := some this } =
        .error .assertionError := by
    unfold storeFd
    dsimp only
    rw [list]
    dsimp only
    rw [ready.serverId, full, if_pos (by omega)]
  rw [dataReceived, if_neg (by simp [ready.id])]
  dsimp only
  rw [if_neg (by omega), receiveFd, if_neg (by simp [known])]
  dsimp only
  rw [refused]

/-- A disconnect notice. -/
theorem dataReceived_lone {own : Int} {c : State}
    (ready : Ready nClients own c) {this : Int} (notNegative : 0 ≤ this) :
    dataReceived nClients names { data := [this], fd := none } c =
      disconnect this c := by
  rw [dataReceived, if_neg (by simp [ready.id])]
  dsimp only
  rw [if_neg (by omega)]

end

/-! ### The housekeeping -/

/-- Names are found exactly if none of them raises. -/
theorem foldlM_names (names : Int → Option Text) (ids : List Int)
    (dict : OrderedDict Int Text) :
    (∃ found, ids.foldlM
        (fun dict id => (names id).map (dict.set id)) dict = some found) ↔
      ∀ id ∈ ids, names id ≠ none := by
  induction ids generalizing dict with
  | nil => exact ⟨fun _ _ member => (by cases member), fun _ => ⟨dict, rfl⟩⟩
  | cons id rest inductionHypothesis =>
      rw [List.foldlM_cons, List.forall_mem_cons]
      cases name : names id with
      | none =>
          constructor
          · rintro ⟨found, raised⟩
            cases raised
          · intro all
            exact absurd rfl all.1
      | some text =>
          rw [Option.map_some, Option.bind_eq_bind, Option.bind_some,
            inductionHypothesis]
          simp

theorem get?_foldlM_names {names : Int → Option Text} {ids : List Int}
    {dict found : OrderedDict Int Text}
    (read : ids.foldlM
      (fun dict id => (names id).map (dict.set id)) dict = some found)
    (id : Int) :
    found.get? id ≠ none ↔ id ∈ ids ∨ dict.get? id ≠ none := by
  induction ids generalizing dict with
  | nil =>
      cases read
      simp
  | cons first rest inductionHypothesis =>
      rw [List.foldlM_cons] at read
      cases name : names first with
      | none =>
          rw [name] at read
          cases read
      | some text =>
          rw [name, Option.map_some, Option.bind_eq_bind,
            Option.bind_some] at read
          rw [inductionHypothesis read, OrderedDict.get?_set, List.mem_cons]
          by_cases same : id = first <;> simp [same]

theorem getNodenames_isSome_iff (names : Int → Option Text)
    (id2fdList : OrderedDict Int (List Nat)) :
    (∃ found, getNodenames names id2fdList = some found) ↔
      ∀ id ∈ id2fdList.keys, names id ≠ none := by
  rw [getNodenames, foldlM_names]
  constructor
  · exact fun all id member => all id ((List.mem_insertionSort _).mpr member)
  · exact fun all id member => all id ((List.mem_insertionSort _).mp member)

theorem get?_getNodenames {names : Int → Option Text}
    {id2fdList : OrderedDict Int (List Nat)}
    {found : OrderedDict Int Text}
    (read : getNodenames names id2fdList = some found) (id : Int) :
    found.get? id ≠ none ↔ id ∈ id2fdList.keys := by
  rw [get?_foldlM_names read, List.mem_insertionSort]
  simp

/-- Notifiers that exist are left alone. -/
theorem foldl_known {dict : OrderedDict Int (List Nat)}
    {entries : List (Int × List Nat)}
    (known : ∀ entry ∈ entries, dict.get? entry.1 ≠ none) :
    entries.foldl buildMissing dict = dict := by
  induction entries with
  | nil => rfl
  | cons entry rest inductionHypothesis =>
      have here := known entry (List.mem_cons_self ..)
      obtain ⟨fds, found⟩ := Option.ne_none_iff_exists'.mp here
      rw [List.foldl_cons, buildMissing, found]
      exact inductionHypothesis fun other member =>
        known other (List.mem_cons_of_mem _ member)

/-- Those that do not are added in order. -/
theorem entries_foldl_new {entries : List (Int × List Nat)}
    {dict : OrderedDict Int (List Nat)}
    (nodup : ((dict.entries ++ entries).map Prod.fst).Nodup) :
    (entries.foldl buildMissing dict).entries = dict.entries ++ entries := by
  induction entries generalizing dict with
  | nil => exact (List.append_nil _).symm
  | cons entry rest inductionHypothesis =>
      have absent : dict.get? entry.1 = none := by
        rw [OrderedDict.get?_eq_none_iff]
        intro member
        rw [List.map_append, List.nodup_append] at nodup
        exact nodup.2.2 _ member _ (List.mem_cons_self ..) rfl
      have added := OrderedDict.entries_set_of_get?_none entry.2 absent
      rw [List.foldl_cons, buildMissing, absent]
      dsimp only
      rw [inductionHypothesis (by
        rwa [added, List.append_assoc, List.singleton_append]), added,
        List.append_assoc, List.singleton_append]

/-- Notifiers of the first ids become notifiers of all of them. -/
theorem buildNotifiers_of_prefix
    {id2fdList id2enList : OrderedDict Int (List Nat)}
    (shorter : id2enList.entries <+: id2fdList.entries) :
    buildNotifiers id2fdList id2enList = id2fdList := by
  obtain ⟨more, whole⟩ := shorter
  have kept : id2enList.entries.foldl buildMissing id2enList =
      id2enList := by
    apply foldl_known
    intro entry member
    rw [OrderedDict.get?_eq_some_iff.mpr member]
    exact nofun
  apply OrderedDict.ext
  rw [buildNotifiers, ← whole, List.foldl_append, kept]
  apply entries_foldl_new
  rw [whole]
  exact id2fdList.nodup

end FameZ.Client
