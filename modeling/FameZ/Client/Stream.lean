/-
Module: FameZ.Client.Stream
Purpose: The tables of a Python client over every stream that a server may
  send, and exactly which of these streams it follows.
Trusted boundary: none
Main exports: Item, Stream, WellFormed, reference, Follows, Orderly,
  follows_iff_orderly
-/
import FameZ.Client.DataReceived

namespace FameZ.Client

open PyText (Text)

/-! ### Streams -/

abbrev Table := OrderedDict Int (List Nat)

/-- A complete batch, or a disconnect notice. -/
inductive Item where
  | batch (id : Int) (fds : List Nat)
  | notice (id : Int)
deriving Repr, DecidableEq

def Item.messages : Item → List Message
  | .batch id fds => batchMessages id fds
  | .notice id => [{ data := [id], fd := none }]

def messagesOf (items : List Item) : List Message :=
  items.flatMap Item.messages

/-- A full batch sets the descriptors of its id, a notice deletes the id. -/
def Item.apply (table : Table) : Item → Table
  | .batch id fds => table.set id fds
  | .notice id => table.del id

def reference (items : List Item) : Table := items.foldl Item.apply .empty

/-- What a server sends one client: the initial information, the batches of
the peers that are there and of the server, the client's own batch, and then
whatever happens to the other peers. -/
structure Stream where
  own : Int
  mailboxFd : Nat
  others : Table
  ownFds : List Nat
  later : List Item

/-- One batch an entry. -/
def batches (entries : List (Int × List Nat)) : List Item :=
  entries.map fun entry => .batch entry.1 entry.2

namespace Stream

variable (stream : Stream)

def initialInfo : Message :=
  { data := [0, stream.own, -1], fd := some stream.mailboxFd }

def firstPass : List Item :=
  batches stream.others.entries ++ [.batch stream.own stream.ownFds]

def items : List Item := stream.firstPass ++ stream.later

/-- The messages up to and including some items. -/
def messages (items : List Item) : List Message :=
  stream.initialInfo :: messagesOf items

end Stream

/-- Full batches of other peers, and notices for those that are known. -/
def Later (nClients : Nat) (own : Int) : Table → List Item → Prop
  | _, [] => True
  | table, .batch id fds :: rest =>
      1 ≤ id ∧ id ≤ nClients + 1 ∧ id ≠ own ∧ fds.length = nClients + 2 ∧
        Later nClients own (table.set id fds) rest
  | table, .notice id :: rest =>
      1 ≤ id ∧ id ≠ own ∧ table.get? id ≠ none ∧
        Later nClients own (table.del id) rest

structure WellFormed (nClients : Nat) (stream : Stream) : Prop where
  low : 1 ≤ stream.own
  high : stream.own ≤ nClients
  mailbox : 0 < stream.mailboxFd
  others : ∀ id fds, stream.others.get? id = some fds →
    1 ≤ id ∧ id ≤ nClients + 1 ∧ id ≠ stream.own ∧
      fds.length = nClients + 2
  ownFds : stream.ownFds.length = nClients + 2
  later : Later nClients stream.own (reference stream.firstPass) stream.later

/-- The client follows: no call raises, the first pass ends with the last
message of the client's own batch, the descriptors are those of the reference,
and from the end of the first pass on there are notifiers for exactly these.
Before that there are none. -/
structure Follows (nClients : Nat) (names : Int → Option Text)
    (stream : Stream) : Prop where
  neverRaises : ∃ c,
    receive nClients names (stream.messages stream.items) initial = .ok c
  firstpass : ∀ before after,
    before ++ after = stream.messages stream.items →
    ∀ c, receive nClients names before initial = .ok c →
      (c.firstpass = false ↔
        (stream.messages stream.firstPass).length ≤ before.length)
  tables : ∀ items, items <+: stream.items →
    ∀ c, receive nClients names (stream.messages items) initial = .ok c →
      c.id2fdList = reference items ∧
        c.id2enList =
          if stream.firstPass.length ≤ items.length then reference items
          else .empty

/-- Later batches are for ids that are not known, and notices for peers that
the first pass listed and that did not leave before. -/
def Expected : Table → List Int → List Item → Prop
  | _, _, [] => True
  | table, listed, .batch id fds :: rest =>
      table.get? id = none ∧ Expected (table.set id fds) listed rest
  | table, listed, .notice id :: rest =>
      id ∈ listed ∧
        Expected (table.del id) (listed.filter fun other => other ≠ id) rest

structure Orderly (names : Int → Option Text) (stream : Stream) : Prop where
  named : ∀ id ∈ (reference stream.firstPass).keys, names id ≠ none
  later : Expected (reference stream.firstPass)
    (reference stream.firstPass).keys stream.later

/-! ### The first pass -/

section

variable {nClients : Nat} {names : Int → Option Text} {own : Int}

/-- The client while it collects the batches of the first pass. -/
structure Collecting (nClients : Nat) (own : Int) (table : Table)
    (c : State) : Prop extends Ready nClients own c where
  firstpass : c.firstpass = true
  id2fdList : c.id2fdList = table
  id2enList : c.id2enList = .empty

/-- The client after the first pass.  `listed` are the peers it knows a name
of. -/
structure Steady (nClients : Nat) (own : Int) (table : Table)
    (listed : List Int) (c : State) : Prop extends Ready nClients own c where
  firstpass : c.firstpass = false
  id2fdList : c.id2fdList = table
  id2enList : c.id2enList = table
  full : ∀ id fds, table.get? id = some fds → fds.length = nClients + 2
  named : ∃ id2nodename, c.id2nodename = some id2nodename ∧
    ∀ id, id2nodename.get? id ≠ none ↔ id ∈ listed

/-- The client once it was told its id. -/
def told (nClients : Nat) (own : Int) : State :=
  { initial with
    id := some own
    nEvents := nClients + 2
    serverId := nClients + 1 }

theorem receive_initialInfo {stream : Stream}
    (wellFormed : WellFormed nClients stream) :
    receive nClients names (stream.messages []) initial =
        .ok (told nClients stream.own) ∧
      Collecting nClients stream.own .empty (told nClients stream.own) := by
  have first : dataReceived nClients names stream.initialInfo initial =
      .ok (told nClients stream.own) := by
    have low := wellFormed.low
    have high := wellFormed.high
    have mailbox := wellFormed.mailbox
    rw [dataReceived, if_pos ⟨rfl, rfl⟩, Stream.initialInfo,
      retrieveInitialInfo_eq low (by omega) mailbox]
    rfl
  refine ⟨?_, ⟨rfl, rfl, rfl⟩, rfl, rfl, rfl⟩
  rw [Stream.messages, receive_cons, first]
  rfl

theorem held_of_none {c : State} {id : Int}
    (absent : c.id2fdList.get? id = none) : c.held id = [] := by
  rw [State.held, absent]
  rfl

/-- The batch of another peer is stored. -/
theorem collect_batch {table : Table} {c : State}
    (collecting : Collecting nClients own table c) {id : Int}
    (notNegative : 0 ≤ id) (other : id ≠ own) {fds : List Nat}
    (full : fds.length = nClients + 2) (new : table.get? id = none) :
    ∃ after, receive nClients names (batchMessages id fds) c = .ok after ∧
      Collecting nClients own (table.set id fds) after := by
  have notEmpty : fds ≠ [] := by
    rintro rfl
    cases full
  have absent : c.held id = [] :=
    held_of_none (by rw [collecting.id2fdList, new])
  refine ⟨c.holding id fds, ?_, ⟨collecting.toReady.holding id fds,
    collecting.firstpass, ?_, collecting.id2enList⟩⟩
  · rw [receive_waits notNegative notEmpty collecting.toReady, absent]
    · rfl
    · rw [absent, List.length_nil]
      exact .inr ⟨collecting.firstpass, Ne.symm other, by omega⟩
  · rw [State.holding, collecting.id2fdList]

/-- So are the batches of any number of them. -/
theorem collect_batches {entries : List (Int × List Nat)} {table : Table}
    {c : State} (collecting : Collecting nClients own table c)
    (nodup : ((table.entries ++ entries).map Prod.fst).Nodup)
    (others : ∀ entry ∈ entries, 0 ≤ entry.1 ∧ entry.1 ≠ own ∧
      entry.2.length = nClients + 2) :
    ∃ after, receive nClients names (messagesOf (batches entries)) c =
        .ok after ∧
      Collecting nClients own ((batches entries).foldl Item.apply table)
        after := by
  induction entries generalizing table c with
  | nil => exact ⟨c, rfl, collecting⟩
  | cons entry rest inductionHypothesis =>
      obtain ⟨notNegative, other, full⟩ := others entry (List.mem_cons_self ..)
      have new : table.get? entry.1 = none := by
        rw [OrderedDict.get?_eq_none_iff]
        intro member
        rw [List.map_append, List.nodup_append] at nodup
        exact nodup.2.2 _ member _ (List.mem_cons_self ..) rfl
      obtain ⟨middle, stored, collected⟩ : ∃ middle,
          receive nClients names (batchMessages entry.1 entry.2) c =
            .ok middle ∧
          Collecting nClients own (table.set entry.1 entry.2) middle :=
        collect_batch collecting notNegative other full new
      obtain ⟨after, received, done⟩ := inductionHypothesis collected
        (by rwa [OrderedDict.entries_set_of_get?_none entry.2 new,
          List.append_assoc, List.singleton_append])
        (fun other member => others other (List.mem_cons_of_mem _ member))
      refine ⟨after, ?_, done⟩
      rw [batches, List.map_cons, messagesOf, List.flatMap_cons,
        receive_append]
      change (receive nClients names (batchMessages entry.1 entry.2) c).bind
        _ = _
      rw [stored]
      exact received

/-- A complete list and no other one more. -/
theorem full_set {table : Table}
    (full : ∀ id fds, table.get? id = some fds → fds.length = nClients + 2)
    {this : Int} {fds : List Nat} (complete : fds.length = nClients + 2) :
    ∀ id others, (table.set this fds).get? id = some others →
      others.length = nClients + 2 := by
  intro id others found
  rw [OrderedDict.get?_set] at found
  split at found
  · cases found
    exact complete
  · exact full id others found

/-- The housekeeping brings the notifiers up to date. -/
theorem buildNotifiers_set {table : Table} {this : Int} (fds : List Nat)
    (new : table.get? this = none) :
    buildNotifiers (table.set this fds) table = table.set this fds := by
  apply buildNotifiers_of_prefix
  rw [OrderedDict.entries_set_of_get?_none fds new]
  exact List.prefix_append _ _

/-- The client's own batch ends the first pass if every name can be read. -/
theorem own_batch {table : Table} {c : State}
    (collecting : Collecting nClients own table c) (notNegative : 0 ≤ own)
    {fds : List Nat} (complete : fds.length = nClients + 2)
    (new : table.get? own = none)
    (full : ∀ id fds, table.get? id = some fds → fds.length = nClients + 2) :
    (∀ id ∈ (table.set own fds).keys, names id ≠ none) ∧
        (∃ after, receive nClients names (batchMessages own fds) c =
            .ok after ∧
          Steady nClients own (table.set own fds) (table.set own fds).keys
            after) ∨
      ¬ (∀ id ∈ (table.set own fds).keys, names id ≠ none) ∧
        receive nClients names (batchMessages own fds) c =
          .error .retrieveFailed := by
  have absent : c.held own = [] :=
    held_of_none (by rw [collecting.id2fdList, new])
  have finishes : receive nClients names (batchMessages own fds) c =
      finish names (c.holding own fds) :=
    receive_finishes notNegative complete collecting.toReady absent (.inr rfl)
  have list : (c.holding own fds).id2fdList = table.set own fds := by
    rw [State.holding, collecting.id2fdList]
  have built : buildNotifiers (table.set own fds) .empty =
      table.set own fds := buildNotifiers_of_prefix (List.nil_prefix)
  rw [finishes, finish]
  dsimp only
  rw [if_pos (show (c.holding own fds).firstpass = true from
    collecting.firstpass), list]
  cases read : getNodenames names (table.set own fds) with
  | some found =>
      refine .inl ⟨(getNodenames_isSome_iff names _).mp ⟨found, read⟩, _, rfl,
        ⟨collecting.id, collecting.nEvents, collecting.serverId⟩, rfl, rfl, ?_,
        full_set full complete, found, rfl, get?_getNodenames read⟩
      dsimp only
      rw [show (c.holding own fds).id2enList = .empty from
        collecting.id2enList, built]
  | none =>
      refine .inr ⟨fun named => ?_, rfl⟩
      obtain ⟨found, some?⟩ := (getNodenames_isSome_iff names _).mpr named
      rw [read] at some?
      cases some?

/-! ### After the first pass -/

variable {table : Table} {listed : List Int} {c : State}

/-- The batch of an id that is not known is followed. -/
theorem steady_batch (steady : Steady nClients own table listed c) {id : Int}
    (notNegative : 0 ≤ id) {fds : List Nat}
    (complete : fds.length = nClients + 2) (new : table.get? id = none) :
    ∃ after, receive nClients names (batchMessages id fds) c = .ok after ∧
      Steady nClients own (table.set id fds) listed after := by
  have absent : c.held id = [] :=
    held_of_none (by rw [steady.id2fdList, new])
  have finishes : receive nClients names (batchMessages id fds) c =
      finish names (c.holding id fds) :=
    receive_finishes notNegative complete steady.toReady absent
      (.inl steady.firstpass)
  have list : (c.holding id fds).id2fdList = table.set id fds := by
    rw [State.holding, steady.id2fdList]
  have notifiers : (c.holding id fds).id2enList = table := steady.id2enList
  have closed : (c.holding id fds).firstpass = false := steady.firstpass
  rw [finishes, finish]
  dsimp only
  rw [if_neg (by rw [closed]; exact Bool.false_ne_true)]
  refine ⟨_, rfl, ⟨steady.id, steady.nEvents, steady.serverId⟩, closed, list,
    ?_, full_set steady.full complete, steady.named⟩
  dsimp only
  rw [list, notifiers, buildNotifiers_set fds new]

/-- The batch of an id that is known raises with its first message. -/
theorem steady_batch_known (steady : Steady nClients own table listed c)
    {id : Int} (notNegative : 0 ≤ id) {fds : List Nat}
    (complete : fds.length = nClients + 2) (known : table.get? id ≠ none) :
    receive nClients names (batchMessages id fds) c =
      .error .assertionError := by
  obtain ⟨held, found⟩ := Option.ne_none_iff_exists'.mp known
  cases fds with
  | nil => cases complete
  | cons fd rest =>
      rw [batchMessages, List.map_cons, receive_cons,
        dataReceived_full steady.toReady notNegative
          (by rw [steady.id2fdList, found]) (steady.full id held found)]
      rfl

/-- The client without a peer. -/
def State.without (c : State) (id : Int)
    (id2nodename : OrderedDict Int Text) : State :=
  { c with
    id2enList := c.id2enList.del id
    id2nodename := some (id2nodename.del id)
    id2fdList := c.id2fdList.del id }

/-- The notice of a peer with a name is followed. -/
theorem steady_notice (steady : Steady nClients own table listed c) {id : Int}
    (notNegative : 0 ≤ id) (named : id ∈ listed) :
    ∃ after, receive nClients names [{ data := [id], fd := none }] c =
        .ok after ∧
      Steady nClients own (table.del id)
        (listed.filter fun other => other ≠ id) after := by
  obtain ⟨id2nodename, holds, names?⟩ := steady.named
  obtain ⟨name, found⟩ := Option.ne_none_iff_exists'.mp
    ((names? id).mpr named)
  have left : dataReceived nClients names { data := [id], fd := none } c =
      .ok (c.without id id2nodename) := by
    rw [dataReceived_lone steady.toReady notNegative, disconnect, holds]
    dsimp only
    rw [found]
    rfl
  refine ⟨c.without id id2nodename, ?_,
    ⟨steady.id, steady.nEvents, steady.serverId⟩,
    steady.firstpass, ?_, ?_, ?_, id2nodename.del id, rfl, ?_⟩
  · rw [receive_cons, left]
    rfl
  · rw [State.without, steady.id2fdList]
  · rw [State.without, steady.id2enList]
  · intro other fds remains
    rw [OrderedDict.get?_del] at remains
    split at remains
    · cases remains
    · exact steady.full other fds remains
  · intro other
    rw [OrderedDict.get?_del, List.mem_filter]
    by_cases same : other = id
    · simp [same]
    · rw [if_neg same, names? other]
      simp [same]

/-- The notice of a peer without one raises. -/
theorem steady_notice_unnamed (steady : Steady nClients own table listed c)
    {id : Int} (notNegative : 0 ≤ id) (unnamed : id ∉ listed) :
    receive nClients names [{ data := [id], fd := none }] c =
      .error .keyError := by
  obtain ⟨id2nodename, holds, names?⟩ := steady.named
  have absent : id2nodename.get? id = none := by
    by_contra present
    exact unnamed ((names? id).mp present)
  rw [receive_cons, dataReceived_lone steady.toReady notNegative, disconnect,
    holds]
  dsimp only
  rw [absent]
  rfl

/-- Every sequence of later items, on a client that is steady. -/
theorem receive_later (names : Int → Option Text) {items : List Item}
    {table : Table}
    {listed : List Int} {c : State}
    (steady : Steady nClients own table listed c)
    (later : Later nClients own table items) :
    Expected table listed items ∧
        (∃ after listed, receive nClients names (messagesOf items) c =
            .ok after ∧
          Steady nClients own (items.foldl Item.apply table) listed after) ∨
      ¬ Expected table listed items ∧
        ∃ raised, receive nClients names (messagesOf items) c =
          .error raised := by
  induction items generalizing table listed c with
  | nil => exact .inl ⟨trivial, c, listed, rfl, steady⟩
  | cons item rest inductionHypothesis =>
      have parts : receive nClients names (messagesOf (item :: rest)) c =
          (receive nClients names item.messages c).bind
            (receive nClients names (messagesOf rest)) := by
        rw [messagesOf, List.flatMap_cons, receive_append]
        rfl
      rw [parts]
      cases item with
      | batch id fds =>
          obtain ⟨low, high, other, complete, remaining⟩ := later
          by_cases new : table.get? id = none
          · obtain ⟨middle, received, steady⟩ : ∃ middle,
                receive nClients names (batchMessages id fds) c =
                  .ok middle ∧
                Steady nClients own (table.set id fds) listed middle :=
              steady_batch steady (by omega) complete new
            rw [Item.messages, received]
            rcases inductionHypothesis steady remaining with
              ⟨expected, follows⟩ | ⟨unexpected, raises⟩
            · exact .inl ⟨⟨new, expected⟩, follows⟩
            · exact .inr ⟨fun expected => unexpected expected.2, raises⟩
          · refine .inr ⟨fun expected => new expected.1,
              .assertionError, ?_⟩
            rw [Item.messages,
              steady_batch_known steady (by omega) complete new]
            rfl
      | notice id =>
          obtain ⟨low, other, known, remaining⟩ := later
          by_cases named : id ∈ listed
          · obtain ⟨middle, received, steady⟩ : ∃ middle,
                receive nClients names [{ data := [id], fd := none }] c =
                  .ok middle ∧
                Steady nClients own (table.del id)
                  (listed.filter fun other => other ≠ id) middle :=
              steady_notice steady (by omega) named
            rw [Item.messages, received]
            rcases inductionHypothesis steady remaining with
              ⟨expected, follows⟩ | ⟨unexpected, raises⟩
            · exact .inl ⟨⟨named, expected⟩, follows⟩
            · exact .inr ⟨fun expected => unexpected expected.2, raises⟩
          · refine .inr ⟨fun expected => named expected.1, .keyError, ?_⟩
            rw [Item.messages, steady_notice_unnamed steady (by omega) named]
            rfl

/-! ### The first pass never starts again -/

theorem firstpass_finish {c after : State}
    (done : finish names c = .ok after) : after.firstpass = false := by
  unfold finish at done
  dsimp only at done
  split at done
  · split at done
    · cases done
    · cases done
      rfl
  · rename_i steady
    cases done
    exact Bool.eq_false_iff.mpr steady

theorem firstpass_receiveFd {this : Int} {fd : Nat} {c after : State}
    (steady : c.firstpass = false)
    (received : receiveFd names this fd c = .ok after) :
    after.firstpass = false := by
  unfold receiveFd at received
  split at received
  · cases received
  · dsimp only at received
    split at received
    · cases received
    · split at received
      · cases received
        exact steady
      · exact firstpass_finish received

theorem firstpass_dataReceived {message : Message} {c after : State}
    (steady : c.firstpass = false)
    (received : dataReceived nClients names message c = .ok after) :
    after.firstpass = false := by
  unfold dataReceived at received
  split at received
  · rename_i fresh
    rw [steady] at fresh
    cases fresh.2
  · split at received
    · split at received
      · cases received
      · split at received
        · unfold disconnect at received
          split at received
          · cases received
          · split at received
            · cases received
            · cases received
              exact steady
        · exact firstpass_receiveFd steady received
    · cases received

theorem firstpass_receive {messages : List Message} {c after : State}
    (steady : c.firstpass = false)
    (received : receive nClients names messages c = .ok after) :
    after.firstpass = false := by
  induction messages generalizing c with
  | nil =>
      cases received
      exact steady
  | cons message rest inductionHypothesis =>
      rw [receive_cons] at received
      cases one : dataReceived nClients names message c with
      | error raised =>
          rw [one] at received
          cases received
      | ok middle =>
          rw [one] at received
          exact inductionHypothesis (firstpass_dataReceived steady one)
            received

end

/-! ### Whole streams -/

theorem entries_foldl_batches {entries : List (Int × List Nat)}
    {table : Table} (nodup : ((table.entries ++ entries).map Prod.fst).Nodup) :
    ((batches entries).foldl Item.apply table).entries =
      table.entries ++ entries := by
  induction entries generalizing table with
  | nil => exact (List.append_nil _).symm
  | cons entry rest inductionHypothesis =>
      have absent : table.get? entry.1 = none := by
        rw [OrderedDict.get?_eq_none_iff]
        intro member
        rw [List.map_append, List.nodup_append] at nodup
        exact nodup.2.2 _ member _ (List.mem_cons_self ..) rfl
      have added := OrderedDict.entries_set_of_get?_none entry.2 absent
      rw [batches, List.map_cons, List.foldl_cons, Item.apply, ← batches,
        inductionHypothesis (by
          rwa [added, List.append_assoc, List.singleton_append]), added,
        List.append_assoc, List.singleton_append]

section

variable {nClients : Nat} {names : Int → Option Text} {stream : Stream}

theorem reference_others (stream : Stream) :
    reference (batches stream.others.entries) = stream.others := by
  have nodup : (((OrderedDict.empty : Table).entries ++
      stream.others.entries).map Prod.fst).Nodup := stream.others.nodup
  exact OrderedDict.ext (entries_foldl_batches nodup)

theorem reference_append (first second : List Item) :
    reference (first ++ second) =
      second.foldl Item.apply (reference first) := List.foldl_append

theorem reference_firstPass (stream : Stream) :
    reference stream.firstPass = stream.others.set stream.own stream.ownFds := by
  rw [Stream.firstPass, reference_append, reference_others]
  rfl

theorem messages_append (stream : Stream) (first second : List Item) :
    stream.messages (first ++ second) =
      stream.messages first ++ messagesOf second := by
  rw [Stream.messages, messagesOf, List.flatMap_append]
  rfl

/-- Some of the batches of the other peers. -/
theorem receive_others (wellFormed : WellFormed nClients stream)
    {entries : List (Int × List Nat)}
    (some? : entries <+: stream.others.entries) :
    ∃ c, receive nClients names (stream.messages (batches entries))
        initial = .ok c ∧
      Collecting nClients stream.own (reference (batches entries)) c := by
  obtain ⟨start, collecting⟩ : receive nClients names (stream.messages [])
      initial = _ ∧ _ := receive_initialInfo wellFormed
  have nodup : (((OrderedDict.empty : Table).entries ++ entries).map
      Prod.fst).Nodup :=
    stream.others.nodup.sublist (some?.sublist.map Prod.fst)
  obtain ⟨after, received, done⟩ : ∃ after, receive nClients names
        (messagesOf (batches entries)) (told nClients stream.own) =
          .ok after ∧
      Collecting nClients stream.own (reference (batches entries))
        after := by
    apply collect_batches collecting nodup
    intro entry member
    obtain ⟨low, -, other, full⟩ := wellFormed.others entry.1 entry.2
      (OrderedDict.get?_eq_some_iff.mpr (some?.subset member))
    exact ⟨by omega, other, full⟩
  refine ⟨after, ?_, done⟩
  have split := messages_append stream [] (batches entries)
  rw [List.nil_append] at split
  rw [split, receive_append, start]
  exact received

theorem own_new (wellFormed : WellFormed nClients stream) :
    stream.others.get? stream.own = none := by
  cases found : stream.others.get? stream.own with
  | none => rfl
  | some fds => exact absurd rfl (wellFormed.others _ fds found).2.2.1

/-- Before the last message of its own batch the client still collects. -/
theorem receive_almost (wellFormed : WellFormed nClients stream) :
    ∃ before last c, stream.messages stream.firstPass = before ++ [last] ∧
      receive nClients names before initial = .ok c ∧
      c.firstpass = true := by
  obtain ⟨c, received, collecting⟩ : ∃ c, receive nClients names _ initial =
      .ok c ∧ _ := receive_others wellFormed (List.prefix_refl _)
  obtain ⟨fds, fd, ownFds⟩ : ∃ fds fd, stream.ownFds = fds ++ [fd] := by
    have notEmpty : stream.ownFds ≠ [] := by
      intro empty
      have full := wellFormed.ownFds
      rw [empty] at full
      cases full
    exact ⟨_, _, (List.dropLast_append_getLast notEmpty).symm⟩
  have full := wellFormed.ownFds
  rw [ownFds, List.length_append, List.length_singleton] at full
  have notEmpty : fds ≠ [] := by
    rintro rfl
    rw [List.length_nil] at full
    omega
  have absent : c.held stream.own = [] := by
    apply held_of_none
    rw [collecting.id2fdList, reference_others]
    exact own_new wellFormed
  have low := wellFormed.low
  have waited : receive nClients names (batchMessages stream.own fds) c =
      .ok (c.holding stream.own (c.held stream.own ++ fds)) := by
    apply receive_waits (by omega) notEmpty collecting.toReady
    rw [absent, List.length_nil]
    exact .inl (by omega)
  refine ⟨stream.messages (batches stream.others.entries) ++
    batchMessages stream.own fds, { data := [stream.own], fd := some fd },
    c.holding stream.own (c.held stream.own ++ fds), ?_, ?_,
    collecting.firstpass⟩
  · rw [Stream.firstPass, messages_append, ownFds, List.append_assoc]
    simp [messagesOf, Item.messages, batchMessages]
  · rw [receive_append, received]
    exact waited

/-- The whole first pass. -/
theorem receive_firstPass (wellFormed : WellFormed nClients stream) :
    (∀ id ∈ (reference stream.firstPass).keys, names id ≠ none) ∧
        (∃ c, receive nClients names (stream.messages stream.firstPass)
            initial = .ok c ∧
          Steady nClients stream.own (reference stream.firstPass)
            (reference stream.firstPass).keys c) ∨
      ¬ (∀ id ∈ (reference stream.firstPass).keys, names id ≠ none) ∧
        receive nClients names (stream.messages stream.firstPass) initial =
          .error .retrieveFailed := by
  obtain ⟨c, received, collecting⟩ : ∃ c, receive nClients names _ initial =
      .ok c ∧ _ := receive_others wellFormed (List.prefix_refl _)
  rw [reference_others] at collecting
  have low := wellFormed.low
  have parts : receive nClients names (stream.messages stream.firstPass)
      initial =
      receive nClients names (batchMessages stream.own stream.ownFds) c := by
    rw [Stream.firstPass, messages_append, receive_append, received,
      messagesOf, List.flatMap_singleton]
    rfl
  rw [parts, reference_firstPass]
  exact own_batch collecting (by omega) wellFormed.ownFds
    (own_new wellFormed) fun id fds found =>
      (wellFormed.others id fds found).2.2.2

theorem later_of_append {own : Int} {first second : List Item}
    {table : Table} (later : Later nClients own table (first ++ second)) :
    Later nClients own table first := by
  induction first generalizing table with
  | nil => trivial
  | cons item rest inductionHypothesis =>
      cases item with
      | batch id fds =>
          obtain ⟨low, high, other, complete, remaining⟩ := later
          exact ⟨low, high, other, complete, inductionHypothesis remaining⟩
      | notice id =>
          obtain ⟨low, other, known, remaining⟩ := later
          exact ⟨low, other, known, inductionHypothesis remaining⟩

theorem expected_of_append {first second : List Item} {table : Table}
    {listed : List Int} (expected : Expected table listed (first ++ second)) :
    Expected table listed first := by
  induction first generalizing table listed with
  | nil => trivial
  | cons item rest inductionHypothesis =>
      cases item with
      | batch id fds =>
          exact ⟨expected.1, inductionHypothesis expected.2⟩
      | notice id => exact ⟨expected.1, inductionHypothesis expected.2⟩

/-- An orderly stream up to any of its later items. -/
theorem receive_orderly (wellFormed : WellFormed nClients stream)
    (orderly : Orderly names stream) {items : List Item}
    (some? : items <+: stream.later) :
    ∃ c listed, receive nClients names
        (stream.messages (stream.firstPass ++ items)) initial = .ok c ∧
      Steady nClients stream.own (reference (stream.firstPass ++ items))
        listed c := by
  obtain ⟨rest, whole⟩ := some?
  rcases receive_firstPass wellFormed with
    ⟨-, c, received, steady⟩ | ⟨unnamed, -⟩
  · rcases receive_later names steady
      (later_of_append (whole ▸ wellFormed.later)) with
      ⟨-, after, listed, follows, steady⟩ | ⟨unexpected, -⟩
    · refine ⟨after, listed, ?_, ?_⟩
      · rw [messages_append, receive_append, received]
        exact follows
      · rw [reference_append]
        exact steady
    · exact absurd (expected_of_append (whole ▸ orderly.later)) unexpected
  · exact absurd orderly.named unnamed

/-- A stream that is received without an exception is orderly. -/
theorem orderly_of_received (wellFormed : WellFormed nClients stream)
    {c : State}
    (received : receive nClients names (stream.messages stream.items)
      initial = .ok c) : Orderly names stream := by
  rw [Stream.items, messages_append, receive_append] at received
  rcases receive_firstPass wellFormed with
    ⟨named, middle, first, steady⟩ | ⟨-, raises⟩
  · rw [first] at received
    rcases receive_later names steady wellFormed.later with
      ⟨expected, -⟩ | ⟨-, raised, raises⟩
    · exact ⟨named, expected⟩
    · change receive nClients names (messagesOf stream.later) middle = _
        at received
      rw [raises] at received
      cases received
  · rw [raises] at received
    cases received

/-- The first pass ends where it should. -/
theorem firstpass_of_orderly (wellFormed : WellFormed nClients stream)
    (orderly : Orderly names stream) {before after : List Message}
    (split : before ++ after = stream.messages stream.items) {c : State}
    (received : receive nClients names before initial = .ok c) :
    c.firstpass = false ↔
      (stream.messages stream.firstPass).length ≤ before.length := by
  obtain ⟨almost, last, open?, almostEq, reached, collecting⟩ :
      ∃ almost last open?, stream.messages stream.firstPass =
        almost ++ [last] ∧
      receive nClients names almost initial = .ok open? ∧
        open?.firstpass = true := receive_almost wellFormed
  have whole : before ++ after =
      stream.messages stream.firstPass ++ messagesOf stream.later := by
    rw [split, Stream.items, messages_append]
  constructor
  · intro done
    by_contra short
    have within : almost <+: before ++ after := by
      rw [whole, almostEq, List.append_assoc]
      exact List.prefix_append _ _
    have shorter : before <+: almost := by
      apply List.prefix_of_prefix_length_le (List.prefix_append _ _) within
      rw [almostEq, List.length_append, List.length_singleton] at short
      omega
    obtain ⟨rest, restEq⟩ := shorter
    rw [← restEq, receive_append, received] at reached
    have still := firstpass_receive done reached
    rw [collecting] at still
    cases still
  · intro long
    have within : stream.messages stream.firstPass <+: before ++ after := by
      rw [whole]
      exact List.prefix_append _ _
    have longer : stream.messages stream.firstPass <+: before :=
      List.prefix_of_prefix_length_le within (List.prefix_append _ _) long
    obtain ⟨rest, restEq⟩ := longer
    rcases receive_firstPass wellFormed with
      ⟨-, middle, first, steady⟩ | ⟨unnamed, -⟩
    · rw [← restEq, receive_append, first] at received
      exact firstpass_receive steady.firstpass received
    · exact absurd orderly.named unnamed

/-- The tables are those of the reference after every item. -/
theorem tables_of_orderly (wellFormed : WellFormed nClients stream)
    (orderly : Orderly names stream) {items : List Item}
    (some? : items <+: stream.items) {c : State}
    (received : receive nClients names (stream.messages items) initial =
      .ok c) :
    c.id2fdList = reference items ∧
      c.id2enList = if stream.firstPass.length ≤ items.length then
        reference items else .empty := by
  by_cases long : stream.firstPass.length ≤ items.length
  · obtain ⟨later, rfl⟩ : stream.firstPass <+: items :=
      List.prefix_of_prefix_length_le (List.prefix_append _ _) some? long
    have within : later <+: stream.later :=
      (List.prefix_append_right_inj _).mp some?
    obtain ⟨after, listed, reached, steady⟩ : ∃ after listed,
        receive nClients names
          (stream.messages (stream.firstPass ++ later)) initial = .ok after ∧
        Steady nClients stream.own (reference (stream.firstPass ++ later))
          listed after := receive_orderly wellFormed orderly within
    rw [reached] at received
    cases received
    rw [if_pos long]
    exact ⟨steady.id2fdList, steady.id2enList⟩
  · have within : items <+: batches stream.others.entries := by
      apply List.prefix_of_prefix_length_le some?
      · rw [Stream.items, Stream.firstPass, List.append_assoc]
        exact List.prefix_append _ _
      · rw [Stream.firstPass, List.length_append,
          List.length_singleton] at long
        omega
    rw [List.prefix_iff_eq_take, batches, ← List.map_take,
      ← batches] at within
    obtain ⟨after, reached, collecting⟩ : ∃ after, receive nClients names _
        initial = .ok after ∧ _ :=
      receive_others wellFormed (List.take_prefix items.length _)
    rw [← within] at reached collecting
    rw [reached] at received
    cases received
    rw [if_neg long]
    exact ⟨collecting.id2fdList, collecting.id2enList⟩

/-- A client follows a stream exactly if the stream is orderly. -/
theorem follows_iff_orderly (wellFormed : WellFormed nClients stream)
    (names : Int → Option Text) :
    Follows nClients names stream ↔ Orderly names stream := by
  constructor
  · intro follows
    obtain ⟨c, received⟩ := follows.neverRaises
    exact orderly_of_received wellFormed received
  · intro orderly
    constructor
    · obtain ⟨c, listed, received, -⟩ := receive_orderly wellFormed orderly
        (List.prefix_refl _)
      exact ⟨c, received⟩
    · intro before after split c received
      exact firstpass_of_orderly wellFormed orderly split received
    · intro items some? c received
      exact tables_of_orderly wellFormed orderly some? received

end

/-! ### A peer that joins late -/

/-- Client 1 of a server for two clients; client 2 joins later. -/
def lateJoiner (later : List Item) : Stream where
  own := 1
  mailboxFd := 9
  others := OrderedDict.set .empty 3 [10, 11, 12, 13]
  ownFds := [20, 21, 22, 23]
  later := .batch 2 [30, 31, 32, 33] :: later

def nodeNames (id : Int) : Option Text :=
  if id = 3 then some "Z-server".toList else some "z01".toList

theorem lateJoiner_others (later : List Item) :
    ∀ id fds, (lateJoiner later).others.get? id = some fds →
      1 ≤ id ∧ id ≤ 2 + 1 ∧ id ≠ 1 ∧ fds.length = 2 + 2 := by
  intro id fds found
  rw [lateJoiner, OrderedDict.get?_set] at found
  split at found
  · rename_i same
    cases found
    rw [same]
    decide
  · cases found

/-- A late joiner has no node name, so its notice raises; and as long as the
first pass lasts there are descriptors without notifiers. -/
theorem late_joiner_notice_raises :
    WellFormed 2 (lateJoiner [.notice 2]) ∧
      receive 2 nodeNames
          ((lateJoiner [.notice 2]).messages (lateJoiner [.notice 2]).items)
          initial = .error .keyError ∧
      ∃ c, receive 2 nodeNames
          ((lateJoiner [.notice 2]).messages
            (batches (lateJoiner [.notice 2]).others.entries)) initial =
          .ok c ∧
        c.id2enList ≠ c.id2fdList := by
  refine ⟨⟨by decide, by decide, by decide, lateJoiner_others _, rfl, ?_⟩,
    rfl, _, rfl, by decide⟩
  exact ⟨by decide, by decide, by decide, rfl, by decide, by decide, by decide,
    trivial⟩

/-- The late joiner itself is followed. -/
theorem late_joiner_followed : Follows 2 nodeNames (lateJoiner []) := by
  have wellFormed : WellFormed 2 (lateJoiner []) :=
    ⟨by decide, by decide, by decide, lateJoiner_others _, rfl,
      by decide, by decide, by decide, rfl, trivial⟩
  exact (follows_iff_orderly wellFormed nodeNames).mpr
    ⟨by decide, by decide, trivial⟩

end FameZ.Client
