/-
Module: FameZ.Client.Segments
Purpose: The client on the byte stream of the server, however the transport
  cuts and joins it, and for which cuts it ends as with one call a message.
Trusted boundary: the translation of ivshmem_send_one_msg, of
  fileDescriptorReceived and of the unpacking in dataReceived; the transport
  hands over the descriptors of a call before its data
Main exports: Cell, Message.wire, Connection, deliver, Unaffected,
  unaffected_iff
-/
import FameZ.Client.Stream
import FameZ.Lib.ByteMemory

namespace FameZ.Client

open Memory
open PyText (Text)

/-! ### The wire -/

/-- A byte on the socket, with the descriptor that is handed over once the byte
is read. -/
abbrev Cell := UInt8 × Option Nat

/-- `ivshmem_send_one_msg`: the descriptor goes with the first byte. -/
def ivshmemSendOneMsg (data : Int) (fd : Option Nat) : List Cell :=
  match signedBytes data with
  | [] => []
  | byte :: rest => (byte, fd) :: rest.map fun byte => (byte, none)

/-- Quadwords in a row, of which the last brings the descriptor. -/
def sendQuadwords : List Int → Option Nat → List Cell
  | [], _ => []
  | [word], fd => ivshmemSendOneMsg word fd
  | word :: next :: rest, fd =>
      ivshmemSendOneMsg word none ++ sendQuadwords (next :: rest) fd

def Message.wire (message : Message) : List Cell :=
  sendQuadwords message.data message.fd

/-- What the server puts on the socket. -/
def Stream.wire (stream : Stream) : List Cell :=
  (stream.messages stream.items).flatMap Message.wire

/-! ### The calls of the transport -/

/-- The client and its `_latest_fd`. -/
structure Connection where
  state : State
  latestFd : Option Nat

/-- `fileDescriptorReceived`. -/
def fileDescriptorReceived (c : Connection) (latestFd : Nat) :
    Except Raised Connection :=
  match c.latestFd with
  | some _ => .error .assertionError
  | none => .ok { c with latestFd := some latestFd }

/-- `struct.unpack` of signed quadwords. -/
def unpackQuadwords : Nat → List UInt8 → List Int
  | 0, _ => []
  | n + 1, data => signedValue (data.take 8) :: unpackQuadwords n (data.drop 8)

/-- How many quadwords a call must bring. -/
def expected (c : State) : Nat :=
  if c.id = none ∧ c.firstpass = true then 3 else 1

/-- `dataReceived` on bytes.  Both of its branches assert a length, unpack, and
take the descriptor that came before. -/
def bytesReceived (nClients : Nat) (names : Int → Option Text)
    (data : List UInt8) (c : Connection) : Except Raised Connection :=
  if data.length = 8 * expected c.state then
    (dataReceived nClients names
      { data := unpackQuadwords (expected c.state) data
        fd := c.latestFd } c.state).map fun state => ⟨state, none⟩
  else .error .assertionError

/-- One delivery: the descriptors that come with its bytes, then the bytes. -/
def deliverChunk (nClients : Nat) (names : Int → Option Text) (c : Connection)
    (chunk : List Cell) : Except Raised Connection :=
  ((chunk.filterMap Prod.snd).foldlM fileDescriptorReceived c).bind
    (bytesReceived nClients names (chunk.map Prod.fst))

def deliver (nClients : Nat) (names : Int → Option Text)
    (chunks : List (List Cell)) (c : Connection) : Except Raised Connection :=
  chunks.foldlM (deliverChunk nClients names) c

/-- No call raises, and the client ends as it does if every message arrives
alone. -/
def Unaffected (nClients : Nat) (names : Int → Option Text) (stream : Stream)
    (chunks : List (List Cell)) : Prop :=
  ∃ c alone, deliver nClients names chunks ⟨initial, none⟩ = .ok c ∧
    receive nClients names (stream.messages stream.items) initial =
      .ok alone ∧
    c.state.id = alone.id ∧ c.state.id2fdList = alone.id2fdList ∧
      c.state.id2enList = alone.id2enList

/-! ### A message on the wire -/

/-- The words that `struct.pack` takes. -/
def Packs (message : Message) : Prop :=
  message.data ≠ [] ∧ ∀ word ∈ message.data, -2 ^ 63 ≤ word ∧ word < 2 ^ 63

theorem ivshmemSendOneMsg_eq (data : Int) (fd : Option Nat) :
    ∃ byte rest, signedBytes data = byte :: rest ∧
      ivshmemSendOneMsg data fd =
        (byte, fd) :: rest.map fun byte => (byte, none) := by
  cases bytes : signedBytes data with
  | nil =>
      have width := length_signedBytes data
      rw [bytes] at width
      cases width
  | cons byte rest =>
      rw [ivshmemSendOneMsg, bytes]
      exact ⟨byte, rest, rfl, rfl⟩

theorem map_fst_ivshmemSendOneMsg (data : Int) (fd : Option Nat) :
    (ivshmemSendOneMsg data fd).map Prod.fst = signedBytes data := by
  obtain ⟨byte, rest, bytes, sent⟩ := ivshmemSendOneMsg_eq data fd
  rw [sent, bytes, List.map_cons, List.map_map]
  congr 1
  exact List.map_id rest

theorem filterMap_snd_ivshmemSendOneMsg (data : Int) (fd : Option Nat) :
    (ivshmemSendOneMsg data fd).filterMap Prod.snd = fd.toList := by
  obtain ⟨byte, rest, bytes, sent⟩ := ivshmemSendOneMsg_eq data fd
  have without : (rest.map fun byte => ((byte, none) : Cell)).filterMap
      Prod.snd = [] := by
    rw [List.filterMap_eq_nil_iff]
    intro cell member
    obtain ⟨byte, -, rfl⟩ := List.mem_map.mp member
    rfl
  rw [sent]
  cases fd with
  | none => rw [List.filterMap_cons_none rfl, without, Option.toList_none]
  | some fd =>
      have first : Prod.snd ((byte, some fd) : Cell) = some fd := rfl
      rw [List.filterMap_cons_some first, without, Option.toList_some]

theorem map_fst_sendQuadwords (words : List Int) (fd : Option Nat) :
    (sendQuadwords words fd).map Prod.fst = words.flatMap signedBytes := by
  induction words with
  | nil => rfl
  | cons word rest inductionHypothesis =>
      cases rest with
      | nil =>
          rw [sendQuadwords, map_fst_ivshmemSendOneMsg, List.flatMap_singleton]
      | cons next rest =>
          rw [sendQuadwords, List.map_append, map_fst_ivshmemSendOneMsg,
            inductionHypothesis]
          rfl

/-- The descriptor comes once. -/
theorem filterMap_snd_sendQuadwords {words : List Int} (some? : words ≠ [])
    (fd : Option Nat) :
    (sendQuadwords words fd).filterMap Prod.snd = fd.toList := by
  induction words with
  | nil => exact absurd rfl some?
  | cons word rest inductionHypothesis =>
      cases rest with
      | nil => rw [sendQuadwords, filterMap_snd_ivshmemSendOneMsg]
      | cons next rest =>
          rw [sendQuadwords, List.filterMap_append,
            filterMap_snd_ivshmemSendOneMsg,
            inductionHypothesis (List.cons_ne_nil _ _), Option.toList_none,
            List.nil_append]

theorem unpackQuadwords_flatMap {words : List Int}
    (fit : ∀ word ∈ words, -2 ^ 63 ≤ word ∧ word < 2 ^ 63) :
    unpackQuadwords words.length (words.flatMap signedBytes) = words := by
  induction words with
  | nil => rfl
  | cons word rest inductionHypothesis =>
      obtain ⟨low, high⟩ := fit word (List.mem_cons_self ..)
      rw [List.flatMap_cons, List.length_cons, unpackQuadwords,
        List.take_left' (length_signedBytes word),
        List.drop_left' (length_signedBytes word),
        signedValue_signedBytes low high, inductionHypothesis]
      intro other member
      exact fit other (List.mem_cons_of_mem _ member)

theorem length_wire (message : Message) :
    message.wire.length = 8 * message.data.length := by
  rw [← List.length_map Prod.fst, Message.wire, map_fst_sendQuadwords]
  induction message.data with
  | nil => rfl
  | cons word rest inductionHypothesis =>
      rw [List.flatMap_cons, List.length_append, length_signedBytes,
        inductionHypothesis, List.length_cons]
      omega

/-! ### One call -/

section

variable {nClients : Nat} {names : Int → Option Text}

/-- A delivery of exactly one message is that message. -/
theorem deliverChunk_wire {message : Message} {s : State}
    (packs : Packs message) (width : message.data.length = expected s) :
    deliverChunk nClients names ⟨s, none⟩ message.wire =
      (dataReceived nClients names message s).map fun state =>
        ⟨state, none⟩ := by
  have handed : (message.wire.filterMap Prod.snd).foldlM
      fileDescriptorReceived ⟨s, none⟩ =
        (.ok ⟨s, message.fd⟩ : Except Raised Connection) := by
    rw [Message.wire, filterMap_snd_sendQuadwords packs.1]
    cases message.fd with
    | none => rfl
    | some fd => rfl
  have bytes : message.wire.map Prod.fst =
      message.data.flatMap signedBytes := map_fst_sendQuadwords ..
  have long : (message.wire.map Prod.fst).length = 8 * expected s := by
    rw [List.length_map, length_wire, width]
  rw [deliverChunk, handed]
  change bytesReceived nClients names (message.wire.map Prod.fst)
    ⟨s, message.fd⟩ = _
  rw [bytesReceived, if_pos long, bytes, ← width,
    unpackQuadwords_flatMap packs.2]

/-- The descriptors of a call change nothing else. -/
theorem state_of_foldlM {fds : List Nat} {c after : Connection}
    (handed : fds.foldlM fileDescriptorReceived c = .ok after) :
    after.state = c.state := by
  induction fds generalizing c with
  | nil =>
      cases handed
      rfl
  | cons fd rest inductionHypothesis =>
      obtain ⟨s, latestFd⟩ := c
      cases latestFd with
      | none =>
          have remaining : rest.foldlM fileDescriptorReceived ⟨s, some fd⟩ =
            .ok after := handed
          have same := inductionHypothesis remaining
          exact same
      | some pending => cases handed

/-- Any other number of bytes raises. -/
theorem length_of_deliverChunk {chunk : List Cell} {c after : Connection}
    (delivered : deliverChunk nClients names c chunk = .ok after) :
    chunk.length = 8 * expected c.state := by
  rw [deliverChunk] at delivered
  cases handed : (chunk.filterMap Prod.snd).foldlM fileDescriptorReceived c with
  | error raised =>
      rw [handed] at delivered
      cases delivered
  | ok middle =>
      rw [handed] at delivered
      change bytesReceived nClients names (chunk.map Prod.fst) middle = _
        at delivered
      rw [bytesReceived, state_of_foldlM handed, List.length_map] at delivered
      by_cases exact_ : chunk.length = 8 * expected c.state
      · exact exact_
      · rw [if_neg exact_] at delivered
        cases delivered

/-! ### All calls -/

theorem id_finish {c after : State} (done : finish names c = .ok after) :
    after.id = c.id := by
  unfold finish at done
  dsimp only at done
  split at done
  · split at done
    · cases done
    · cases done
      rfl
  · cases done
    rfl

theorem id_receiveFd {this : Int} {fd : Nat} {c after : State}
    (received : receiveFd names this fd c = .ok after) :
    after.id = c.id := by
  unfold receiveFd at received
  split at received
  · cases received
  · dsimp only at received
    split at received
    · cases received
    · split at received
      · cases received
        rfl
      · have same := id_finish received
        exact same

theorem id_disconnect {this : Int} {c after : State}
    (received : disconnect this c = .ok after) : after.id = c.id := by
  unfold disconnect at received
  split at received
  · cases received
  · split at received
    · cases received
    · cases received
      rfl

theorem id_dataReceived {message : Message} {c after : State}
    (told : c.id ≠ none)
    (received : dataReceived nClients names message c = .ok after) :
    after.id = c.id := by
  unfold dataReceived at received
  split at received
  · rename_i fresh
    exact absurd fresh.1 told
  · split at received
    · split at received
      · cases received
      · split at received
        · exact id_disconnect received
        · exact id_receiveFd received
    · cases received

/-- What the first call takes from its message. -/
theorem retrieveInitialInfo_ok {message : Message} {c after : State}
    (received : retrieveInitialInfo nClients message c = .ok after) :
    ∃ id, after =
      { c with
        id := some id
        nEvents := nClients + 2
        serverId := nClients + 1 } := by
  unfold retrieveInitialInfo at received
  split at received
  swap
  · cases received
  rename_i version id minusone data
  cases mailbox : message.fd with
  | none =>
      simp only [mailbox] at received
      split_ifs at received
  | some mailboxFd =>
      simp only [mailbox] at received
      split_ifs at received
      cases received
      exact ⟨id, rfl⟩

theorem id_retrieveInitialInfo {message : Message} {c after : State}
    (received : retrieveInitialInfo nClients message c = .ok after) :
    after.id ≠ none := by
  obtain ⟨id, rfl⟩ := retrieveInitialInfo_ok received
  exact nofun

theorem expected_of_told {c : State} (told : c.id ≠ none) : expected c = 1 :=
  if_neg fun fresh => told fresh.1

/-- Only the first call brings the initial information. -/
theorem expected_dataReceived {message : Message} {c after : State}
    (received : dataReceived nClients names message c = .ok after) :
    expected after = 1 := by
  by_cases told : c.id = none
  · cases firstpass : c.firstpass with
    | true =>
        rw [dataReceived, if_pos ⟨told, firstpass⟩] at received
        exact expected_of_told (id_retrieveInitialInfo received)
    | false =>
        have steady := firstpass_dataReceived firstpass received
        apply if_neg
        rw [steady]
        exact fun fresh => Bool.noConfusion fresh.2
  · apply expected_of_told
    rw [id_dataReceived told received]
    exact told

theorem expected_pos (c : State) : 0 < expected c := by
  unfold expected
  split
  · exact Nat.succ_pos 2
  · exact Nat.succ_pos 0

/-- Every message has the length that is expected when its turn comes. -/
def Sized : Nat → List Message → Prop
  | _, [] => True
  | width, message :: rest => message.data.length = width ∧ Sized 1 rest

/-- One call a message is the reception of the messages. -/
theorem deliver_wire {messages : List Message} {s : State}
    (packs : ∀ message ∈ messages, Packs message)
    (sized : Sized (expected s) messages) :
    deliver nClients names (messages.map Message.wire) ⟨s, none⟩ =
      (receive nClients names messages s).map fun state => ⟨state, none⟩ := by
  induction messages generalizing s with
  | nil => rfl
  | cons message rest inductionHypothesis =>
      obtain ⟨width, remaining⟩ := sized
      rw [List.map_cons, deliver, List.foldlM_cons,
        deliverChunk_wire (packs message (List.mem_cons_self ..)) width,
        receive_cons]
      cases one : dataReceived nClients names message s with
      | error raised => rfl
      | ok middle =>
          rw [← expected_dataReceived one] at remaining
          exact inductionHypothesis (fun other member =>
            packs other (List.mem_cons_of_mem _ member)) remaining

/-- And no other cut gets through. -/
theorem cut_of_deliver {messages : List Message} {chunks : List (List Cell)}
    {s : State} {c : Connection}
    (packs : ∀ message ∈ messages, Packs message)
    (sized : Sized (expected s) messages)
    (cut : chunks.flatten = messages.flatMap Message.wire)
    (delivered : deliver nClients names chunks ⟨s, none⟩ = .ok c) :
    chunks = messages.map Message.wire := by
  induction chunks generalizing messages s with
  | nil =>
      cases messages with
      | nil => rfl
      | cons message rest =>
          have some? := (packs message (List.mem_cons_self ..)).1
          have length := congrArg List.length cut
          rw [List.flatMap_cons, List.length_append, length_wire] at length
          have positive := List.length_pos_of_ne_nil some?
          rw [List.flatten_nil, List.length_nil] at length
          omega
  | cons chunk others inductionHypothesis =>
      rw [deliver, List.foldlM_cons] at delivered
      cases one : deliverChunk nClients names ⟨s, none⟩ chunk with
      | error raised =>
          rw [one] at delivered
          cases delivered
      | ok middle =>
          rw [one] at delivered
          have long := length_of_deliverChunk one
          cases messages with
          | nil =>
              have empty := congrArg List.length cut
              rw [List.flatten_cons, List.length_append, long,
                List.flatMap_nil, List.length_nil] at empty
              have positive := expected_pos s
              dsimp only at empty
              omega
          | cons message rest =>
              obtain ⟨width, remaining⟩ := sized
              have same : chunk.length = message.wire.length := by
                rw [long, length_wire, width]
              rw [List.flatten_cons, List.flatMap_cons] at cut
              obtain ⟨rfl, cutRest⟩ := List.append_inj cut same
              rw [deliverChunk_wire (packs message (List.mem_cons_self ..))
                width] at one
              cases received : dataReceived nClients names message s with
              | error raised =>
                  rw [received] at one
                  cases one
              | ok after =>
                  rw [received] at one
                  cases one
                  rw [← expected_dataReceived received] at remaining
                  rw [List.map_cons, inductionHypothesis (fun other member =>
                    packs other (List.mem_cons_of_mem _ member)) remaining
                    cutRest delivered]

/-! ### The messages of a well-formed stream -/

variable {stream : Stream}

/-- The id that an item is about. -/
def Item.subject : Item → Int
  | .batch id _ => id
  | .notice id => id

theorem data_of_mem {message : Message} {items : List Item}
    (member : message ∈ messagesOf items) :
    ∃ item ∈ items, message.data = [item.subject] := by
  obtain ⟨item, inside, sent⟩ := List.mem_flatMap.mp member
  refine ⟨item, inside, ?_⟩
  cases item with
  | batch id fds =>
      obtain ⟨fd, -, rfl⟩ := List.mem_map.mp sent
      rfl
  | notice id =>
      cases List.mem_singleton.mp sent
      rfl

theorem sized_of_forall {messages : List Message}
    (single : ∀ message ∈ messages, message.data.length = 1) :
    Sized 1 messages := by
  induction messages with
  | nil => trivial
  | cons message rest inductionHypothesis =>
      exact ⟨single message (List.mem_cons_self ..),
        inductionHypothesis fun other member =>
          single other (List.mem_cons_of_mem _ member)⟩

theorem sized_messages (items : List Item) :
    Sized (expected initial) (stream.messages items) := by
  refine ⟨rfl, sized_of_forall fun message member => ?_⟩
  obtain ⟨item, -, data⟩ := data_of_mem member
  rw [data]
  rfl

theorem subject_later {own : Int} {items : List Item} {table : Table}
    (known : ∀ id, table.get? id ≠ none → id ≤ nClients + 1)
    (later : Later nClients own table items) :
    ∀ item ∈ items, 1 ≤ item.subject ∧ item.subject ≤ nClients + 1 := by
  induction items generalizing table with
  | nil => exact fun _ member => nomatch member
  | cons item rest inductionHypothesis =>
      rw [List.forall_mem_cons]
      cases item with
      | batch id fds =>
          obtain ⟨low, high, -, -, remaining⟩ := later
          refine ⟨⟨low, high⟩, inductionHypothesis ?_ remaining⟩
          intro other found
          rw [OrderedDict.get?_set] at found
          by_cases same : other = id
          · rw [same]
            exact high
          · rw [if_neg same] at found
            exact known other found
      | notice id =>
          obtain ⟨low, -, listed, remaining⟩ := later
          refine ⟨⟨low, known id listed⟩, inductionHypothesis ?_ remaining⟩
          intro other found
          rw [OrderedDict.get?_del] at found
          by_cases same : other = id
          · rw [if_pos same] at found
            exact absurd rfl found
          · rw [if_neg same] at found
            exact known other found

theorem subject_firstPass (wellFormed : WellFormed nClients stream) :
    ∀ item ∈ stream.firstPass,
      1 ≤ item.subject ∧ item.subject ≤ nClients + 1 := by
  intro item member
  rcases List.mem_append.mp member with other | own
  · obtain ⟨⟨id, fds⟩, entry, rfl⟩ := List.mem_map.mp other
    obtain ⟨low, high, -⟩ := wellFormed.others id fds
      (OrderedDict.get?_eq_some_iff.mpr entry)
    exact ⟨low, high⟩
  · cases List.mem_singleton.mp own
    have low := wellFormed.low
    have high := wellFormed.high
    exact ⟨low, Int.le_add_one high⟩

/-- The ids that the first pass lists are those of its items. -/
theorem known_firstPass (wellFormed : WellFormed nClients stream) (id : Int)
    (found : (reference stream.firstPass).get? id ≠ none) :
    id ≤ nClients + 1 := by
  rw [reference_firstPass, OrderedDict.get?_set] at found
  by_cases own : id = stream.own
  · rw [own]
    exact Int.le_add_one wellFormed.high
  · rw [if_neg own] at found
    obtain ⟨fds, entry⟩ := Option.ne_none_iff_exists'.mp found
    exact (wellFormed.others id fds entry).2.1

/-- The ids of a well-formed stream fit a quadword. -/
theorem packs_messages (narrow : nClients + 1 < 2 ^ 63)
    (wellFormed : WellFormed nClients stream) :
    ∀ message ∈ stream.messages stream.items, Packs message := by
  intro message member
  rcases List.mem_cons.mp member with first | other
  · rw [first]
    have low := wellFormed.low
    have high := wellFormed.high
    refine ⟨List.cons_ne_nil _ _, fun word inside => ?_⟩
    simp only [Stream.initialInfo, List.mem_cons, List.not_mem_nil,
      or_false] at inside
    omega
  · obtain ⟨item, inside, data⟩ := data_of_mem other
    have bounds : 1 ≤ item.subject ∧ item.subject ≤ nClients + 1 := by
      rcases List.mem_append.mp inside with early | late
      · exact subject_firstPass wellFormed item early
      · exact subject_later (known_firstPass wellFormed) wellFormed.later item
          late
    rw [Packs, data]
    refine ⟨List.cons_ne_nil _ _, fun word same => ?_⟩
    rw [List.mem_singleton.mp same]
    omega

/-- A client is unaffected by the transport exactly if it follows the stream
at all and every call brings exactly one message. -/
theorem unaffected_iff (narrow : nClients + 1 < 2 ^ 63)
    (wellFormed : WellFormed nClients stream)
    (names : Int → Option Text) (chunks : List (List Cell))
    (cut : chunks.flatten = stream.wire) :
    Unaffected nClients names stream chunks ↔
      Orderly names stream ∧
        chunks = (stream.messages stream.items).map Message.wire := by
  have packs := packs_messages narrow wellFormed
  have sized : Sized (expected initial) (stream.messages stream.items) :=
    sized_messages stream.items
  constructor
  · rintro ⟨c, alone, delivered, received, -⟩
    exact ⟨orderly_of_received wellFormed received,
      cut_of_deliver packs sized cut delivered⟩
  · rintro ⟨orderly, rfl⟩
    obtain ⟨alone, listed, received, -⟩ := receive_orderly wellFormed orderly
      (List.prefix_refl _)
    refine ⟨⟨alone, none⟩, alone, ?_, received, rfl, rfl, rfl⟩
    rw [deliver_wire packs sized, Stream.items, received]
    rfl

end

/-! ### Two peers that leave together -/

/-- Client 1 of a server for three clients; clients 2 and 3 leave. -/
def twoLeave : Stream where
  own := 1
  mailboxFd := 9
  others :=
    ((OrderedDict.set .empty 2 [10, 11, 12, 13, 14]).set 3
      [20, 21, 22, 23, 24]).set 4 [30, 31, 32, 33, 34]
  ownFds := [40, 41, 42, 43, 44]
  later := [.notice 2, .notice 3]

/-- Every message alone, but for the two notices. -/
def noticesJoined : List (List Cell) :=
  (twoLeave.messages twoLeave.firstPass).map Message.wire ++
    [({ data := [2], fd := none } : Message).wire ++
      ({ data := [3], fd := none } : Message).wire]

theorem twoLeave_others :
    ∀ id fds, twoLeave.others.get? id = some fds →
      1 ≤ id ∧ id ≤ 3 + 1 ∧ id ≠ 1 ∧ fds.length = 3 + 2 := by
  intro id fds found
  have entry := OrderedDict.get?_eq_some_iff.mp found
  have cases_ : ∀ entry ∈ twoLeave.others.entries,
      1 ≤ entry.1 ∧ entry.1 ≤ 3 + 1 ∧ entry.1 ≠ 1 ∧
        entry.2.length = 3 + 2 := by
    decide
  exact cases_ (id, fds) entry

theorem wellFormed_twoLeave : WellFormed 3 twoLeave :=
  ⟨by decide, by decide, by decide, twoLeave_others, rfl,
    by decide, by decide, by decide, by decide, by decide, by decide, trivial⟩

theorem orderly_twoLeave : Orderly nodeNames twoLeave :=
  ⟨by decide, by decide, by decide, trivial⟩

/-- With one call a message the client is unaffected. -/
theorem twoLeave_alone_unaffected :
    Unaffected 3 nodeNames twoLeave
      ((twoLeave.messages twoLeave.items).map Message.wire) :=
  (unaffected_iff (by decide) wellFormed_twoLeave nodeNames _
    (List.flatMap_def).symm).mpr ⟨orderly_twoLeave, rfl⟩

/-- One call with both notices raises. -/
theorem joined_notices_raise :
    WellFormed 3 twoLeave ∧ Orderly nodeNames twoLeave ∧
      noticesJoined.flatten = twoLeave.wire ∧
      ¬ Unaffected 3 nodeNames twoLeave noticesJoined := by
  refine ⟨wellFormed_twoLeave, orderly_twoLeave, by decide +kernel, ?_⟩
  rintro ⟨c, alone, delivered, -⟩
  have raises : deliver 3 nodeNames noticesJoined ⟨initial, none⟩ =
      .error .assertionError := rfl
  rw [raises] at delivered
  cases delivered

end FameZ.Client
