/-
Module: FameZ.Mailbox.Table
Purpose: The bytes of the mailbox behave as a table of node names and pending
  messages, under any operations of Python in any order.
Trusted boundary: the translation of fill, retrieve and clear_mailslot
Main exports: Message, fill, retrieve, clearMailslot, Op, Entry, Table, Holds,
  Confined, Refined, table_refined
-/
import FameZ.Mailbox.Initialize

namespace FameZ.Mapped

open Memory Mmap Layout

/-! ### The operations -/

/-- A message of Python: `str` or `bytes`. -/
inductive Message where
  | str (text : List Char)
  | bytes (data : List UInt8)
deriving Repr, DecidableEq

/-- The bytes of a message, a `str` encoded. -/
def Message.encoded : Message → List UInt8
  | .str text => Utf8.encode text
  | .bytes data => data

/-- `data.decode()`. -/
def decode (data : List UInt8) : Access (List Char) :=
  match Utf8.decode data with
  | some text => pure text
  | none => throw .unicodeDecodeError

/-- `struct.unpack('32sQ', data)`. -/
def unpackHeader (data : List UInt8) : Access (List UInt8 × Nat) :=
  if data.length = 40 then
    pure (data.take 32, wordValue (data.drop 32))
  else throw .structError

/-- `struct.unpack('%ds' % msglen, data)`. -/
def unpackS (msglen : Nat) (data : List UInt8) : Access (List UInt8) :=
  if data.length = msglen then pure data else throw .structError

/-- The loop of `fill`: the clock is read before the stop as often as `polls`
says, and then the message is stomped. -/
def awaitEmpty (index : Nat) : Nat → Access Unit
  | 0 => pure ()
  | polls + 1 => do
      let data ← getSlice index (index + 8)
      let msglen ← unpackQ data
      if msglen ≠ 0 then awaitEmpty index polls else pure ()

def fill (serverId senderId : Nat) (msg : Message) (polls : Nat) :
    Access Unit := do
  check (1 ≤ senderId ∧ senderId ≤ serverId)
  let msg := msg.encoded
  let msglen := msg.length
  check (msglen < msMaxMsglen)
  let index := slotAddr senderId + msMsglenOff
  awaitEmpty index polls
  setSlice index (index + 8) (wordBytes msglen)
  let index := slotAddr senderId + msMsgOff
  setSlice index (index + msglen) msg
  setItem (index + msglen) 0

/-- The handshake of `retrieve`. -/
def clearMsglen (peerId : Nat) (clear : Bool) : Access Unit :=
  if clear = true then
    let index := slotAddr peerId + msMsglenOff
    setSlice index (index + 8) (wordBytes 0)
  else pure ()

/-- The form in which `retrieve` returns a message. -/
def returned (asbytes : Bool) (msg : List UInt8) : Access Message :=
  if asbytes = true then pure (.bytes msg)
  else do
    let msg ← decode msg
    pure (.str msg)

def retrieve (serverId peerId : Nat) (asbytes clear : Bool) :
    Access (List Char × Message) := do
  check (1 ≤ peerId ∧ peerId ≤ serverId)
  let index := slotAddr peerId
  let data ← getSlice index (index + 40)
  let header ← unpackHeader data
  let nodename ← decode (header.1.takeWhile fun byte => decide (byte ≠ 0))
  let msglen := header.2
  let index := index + msMsgOff
  let data ← getSlice index (index + msglen)
  let msg ← unpackS msglen data
  clearMsglen peerId clear
  let msg ← returned asbytes (msg.take msglen)
  pure (nodename, msg)

/-- `clear_mailslot`.  No name and an empty one are the same. -/
def clearMailslot (serverId id : Nat) (nodenamebytes : Option (List UInt8)) :
    Access Unit := do
  check (1 ≤ id ∧ id ≤ serverId)
  let index := slotAddr id
  let zeros := List.replicate msNodenameSize 0
  setSlice index (index + zeros.length) zeros
  match nodenamebytes with
  | some (byte :: rest) => do
      let name := byte :: rest
      check (name.length < msNodenameSize)
      setSlice index (index + name.length) name
  | _ => pure ()

/-! ### Calls and answers -/

/-- An id that the operations accept. -/
abbrev Slot (config : Config) := { id : Nat // InDomain config id }

/-- A message that `fill` accepts. -/
structure Accepted where
  message : Message
  short : message.encoded.length < msMaxMsglen

/-- A name that fits a slot. -/
structure Nodename where
  bytes : List UInt8
  text : List Char
  utf8 : Utf8.decode bytes = some text
  nulFree : ∀ byte ∈ bytes, byte ≠ 0
  short : bytes.length < msNodenameSize

inductive Op (config : Config) where
  | fill (sender : Slot config) (msg : Accepted) (polls : Nat)
  | retrieve (peer : Slot config) (asbytes clear : Bool)
  | clearMailslot (id : Slot config) (name : Option Nodename)

/-- The slot of a call. -/
def Op.slot {config : Config} : Op config → Slot config
  | .fill sender _ _ => sender
  | .retrieve peer _ _ => peer
  | .clearMailslot id _ => id

/-- What a call returns. -/
inductive Reply where
  | none
  | mail (nodename : List Char) (msg : Message)
deriving Repr, DecidableEq

def execute {config : Config} : Op config → Access Reply
  | .fill sender msg polls => do
      fill config.serverId sender msg.message polls
      pure .none
  | .retrieve peer asbytes clear => do
      let mail ← retrieve config.serverId peer asbytes clear
      pure (.mail mail.1 mail.2)
  | .clearMailslot id name => do
      clearMailslot config.serverId id (name.map Nodename.bytes)
      pure .none

/-! ### The table -/

/-- What a slot is for: the name of its owner, and the message that waits. -/
structure Entry where
  nodename : List Char
  pending : Message
deriving Repr, DecidableEq

abbrev Table (config : Config) := Slot config → Entry

/-- A message is given back as it was filled, unless it is asked for in the
other form. -/
def Message.given : Message → Bool → Except PyError Message
  | .str text, false => .ok (.str text)
  | .bytes data, true => .ok (.bytes data)
  | .str text, true => .ok (.bytes (Utf8.encode text))
  | .bytes data, false =>
      match Utf8.decode data with
      | some text => .ok (.str text)
      | none => .error .unicodeDecodeError

/-- A call looks at the entry of its slot and replaces it. -/
def Op.onEntry {config : Config} :
    Op config → Entry → Except PyError Reply × Entry
  | .fill _ msg _, entry => (.ok .none, { entry with pending := msg.message })
  | .retrieve _ asbytes clear, entry =>
      ((entry.pending.given asbytes).map (Reply.mail entry.nodename),
        if clear = true then { entry with pending := .bytes [] } else entry)
  | .clearMailslot _ name, entry =>
      (.ok .none, { entry with nodename := name.elim [] Nodename.text })

def Table.apply {config : Config} (table : Table config) (op : Op config) :
    Except PyError Reply × Table config :=
  ((op.onEntry (table op.slot)).1,
    Function.update table op.slot (op.onEntry (table op.slot)).2)

/-! ### One slot -/

/-- The bytes of a slot hold an entry. -/
structure Holds (mem : Memory) (i : Nat) (entry : Entry) : Prop where
  name : Utf8.decode (nodename mem i) = some entry.nodename
  msglen : mem.readWord (slotAddr i + msMsglenOff) =
    entry.pending.encoded.length
  body : mem.readBytes (slotAddr i + msMsgOff) entry.pending.encoded.length =
    entry.pending.encoded
  short : entry.pending.encoded.length < msMaxMsglen

/-- Only slot `i` is touched, and its peer id not changed. -/
structure Confined (i : Nat) (before after : Memory)
    (extents : List (Nat × Nat)) : Prop where
  others : ∀ a, a < slotAddr i ∨ slotAddr (i + 1) ≤ a → after a = before a
  peerId : after.readWord (slotAddr i + msPeerIdOff) =
    before.readWord (slotAddr i + msPeerIdOff)
  inside : ∀ extent ∈ extents,
    slotAddr i ≤ extent.1 ∧ extent.2 ≤ slotAddr (i + 1)

namespace Confined

variable {i off len : Nat} {mem before after last : Memory}
  {extents more : List (Nat × Nat)} {bytes : List UInt8}

theorem refl (i : Nat) (mem : Memory) : Confined i mem mem [] where
  others _ _ := rfl
  peerId := rfl
  inside _ member := by cases member

theorem trans (first : Confined i before after extents)
    (second : Confined i after last more) :
    Confined i before last (extents ++ more) where
  others a outside := (second.others a outside).trans (first.others a outside)
  peerId := second.peerId.trans first.peerId
  inside extent member := by
    rcases List.mem_append.mp member with early | late
    · exact first.inside extent early
    · exact second.inside extent late

/-- An access inside the slot. -/
theorem extent (small : off + len ≤ mailboxSlotsize) :
    ∀ extent ∈ [(slotAddr i + off, slotAddr i + off + len)],
      slotAddr i ≤ extent.1 ∧ extent.2 ≤ slotAddr (i + 1) := by
  intro extent member
  cases List.mem_singleton.mp member
  rw [slotAddr_succ]
  rw [mailboxSlotsize] at small
  exact ⟨Nat.le_add_right .., by omega⟩

theorem read (small : off + len ≤ mailboxSlotsize) :
    Confined i mem mem [(slotAddr i + off, slotAddr i + off + len)] where
  others _ _ := rfl
  peerId := rfl
  inside := extent small

theorem write (small : off + bytes.length ≤ mailboxSlotsize)
    (field : off + bytes.length ≤ msPeerIdOff ∨ msLastResponderOff ≤ off) :
    Confined i mem (mem.write (slotAddr i + off) bytes)
      [(slotAddr i + off, slotAddr i + off + bytes.length)] where
  others a outside := by
    rw [slotAddr_succ] at outside
    rw [mailboxSlotsize] at small
    rcases outside with before | behind
    · exact write_of_lt (by omega)
    · exact write_of_ge (by omega)
  peerId := by
    apply readWord_write_of_disjoint
    rw [msPeerIdOff, msLastResponderOff] at field
    rw [msPeerIdOff]
    omega
  inside := extent small

end Confined

/-- A program that runs inside slot `i`. -/
def Performs {α : Type} (i : Nat) (program : Access α) (size : Nat)
    (before : Memory) (outcome : Except PyError α) (after : Memory) : Prop :=
  ∃ extents, Runs program size before outcome after extents ∧
    Confined i before after extents

namespace Performs

variable {α β : Type} {i size : Nat} {mem before after last : Memory}
  {program : Access α} {next : α → Access β} {value : α}
  {outcome : Except PyError β} {result : Except PyError α} {bytes : List UInt8}

theorem bind (first : Performs i program size before (.ok value) after)
    (second : Performs i (next value) size after outcome last) :
    Performs i (program >>= next) size before outcome last := by
  obtain ⟨_, runs, confined⟩ := first
  obtain ⟨_, continues, stays⟩ := second
  exact ⟨_, runs.bind continues, confined.trans stays⟩

theorem bind_pure {f : α → β}
    (first : Performs i program size before result after) :
    Performs i (program >>= fun value => Pure.pure (f value)) size before
      (result.map f) after := by
  obtain ⟨_, runs, confined⟩ := first
  exact ⟨_, runs.bind_pure, confined⟩

/-- A step that makes no access. -/
theorem of_runs (runs : Runs program size mem result mem []) :
    Performs i program size mem result mem :=
  ⟨_, runs, Confined.refl i mem⟩

section

variable {start stop off len : Nat} (room : slotAddr (i + 1) ≤ size)

include room

theorem getSlice (begins : start = slotAddr i + off)
    (small : off + len ≤ mailboxSlotsize) :
    Performs i (Mmap.getSlice start (start + len)) size mem
      (.ok (mem.readBytes start len)) mem := by
  rw [begins]
  have inside : slotAddr i + off + len ≤ size := by
    rw [slotAddr_succ] at room
    rw [mailboxSlotsize] at small
    omega
  have runs := @Runs.getSlice size _ _ mem
    (Nat.le_add_right (slotAddr i + off) len) inside
  rw [Nat.add_sub_cancel_left] at runs
  exact ⟨_, runs, Confined.read small⟩

theorem setSlice (begins : start = slotAddr i + off)
    (filled : stop = start + bytes.length)
    (small : off + bytes.length ≤ mailboxSlotsize)
    (field : off + bytes.length ≤ msPeerIdOff ∨ msLastResponderOff ≤ off) :
    Performs i (Mmap.setSlice start stop bytes) size mem (.ok ())
      (mem.write start bytes) := by
  rw [begins] at filled ⊢
  have inside : stop ≤ size := by
    rw [slotAddr_succ] at room
    rw [mailboxSlotsize] at small
    omega
  rw [filled] at inside ⊢
  exact ⟨_, Runs.setSlice rfl inside, Confined.write small field⟩

/-- A word other than the peer id. -/
theorem setWord {word : Nat} (begins : start = slotAddr i + off)
    (small : off + 8 ≤ mailboxSlotsize)
    (field : off + 8 ≤ msPeerIdOff ∨ msLastResponderOff ≤ off) :
    Performs i (Mmap.setSlice start (start + 8) (wordBytes word)) size mem
      (.ok ()) (mem.writeWord start word) := by
  rw [← length_wordBytes word] at small field
  apply Performs.setSlice room begins _ small field
  rw [length_wordBytes]

theorem setItem {byte : UInt8} (begins : start = slotAddr i + off)
    (small : off < mailboxSlotsize)
    (field : off < msPeerIdOff ∨ msLastResponderOff ≤ off) :
    Performs i (Mmap.setItem start byte) size mem (.ok ())
      (mem.write start [byte]) := by
  rw [begins]
  have inside : slotAddr i + off < size := by
    rw [slotAddr_succ] at room
    rw [mailboxSlotsize] at small
    omega
  exact ⟨_, Runs.setItem inside, Confined.write small field⟩

end

end Performs

/-! ### The operations, one by one -/

theorem Nodename.short_elim (name : Option Nodename) :
    (name.elim [] Nodename.bytes).length < msNodenameSize := by
  cases name with
  | none => decide
  | some name => exact name.short

/-- A message comes back in the form it is asked for. -/
theorem runs_returned (msg : Message) (asbytes : Bool) (size : Nat)
    (mem : Memory) :
    Runs (returned asbytes msg.encoded) size mem (msg.given asbytes) mem
      [] := by
  cases asbytes with
  | true =>
      cases msg with
      | str text => exact Runs.pure _
      | bytes data => exact Runs.pure _
  | false =>
      cases msg with
      | str text =>
          rw [returned, Message.encoded, decode, Utf8.decode_encode]
          exact Runs.pure _
      | bytes data =>
          rw [returned, Message.encoded, decode, Message.given]
          cases Utf8.decode data with
          | none => exact Runs.throw _
          | some text => exact Runs.pure _

section

variable {config : Config} {i size polls : Nat} {mem : Memory}
  (inDomain : InDomain config i) (room : slotAddr (i + 1) ≤ size)

include room

theorem performs_awaitEmpty :
    Performs i (awaitEmpty (slotAddr i + msMsglenOff) polls) size mem (.ok ())
      mem := by
  induction polls with
  | zero => exact .of_runs (Runs.pure ())
  | succ polls inductionHypothesis =>
      apply (Performs.getSlice room rfl (by decide)).bind
      apply Performs.bind
      · exact .of_runs (Runs.unpackQ (length_readBytes ..))
      · by_cases waiting : wordValue
            (mem.readBytes (slotAddr i + msMsglenOff) 8) ≠ 0
        · rw [if_pos waiting]
          exact inductionHypothesis
        · rw [if_neg waiting]
          exact .of_runs (Runs.pure ())

include inDomain

theorem performs_fill {msg : Message}
    (short : msg.encoded.length < msMaxMsglen) :
    Performs i (fill config.serverId i msg polls) size mem (.ok ())
      (Layout.fill config i msg.encoded mem) := by
  rw [Layout.fill, if_pos ⟨inDomain, short⟩]
  rw [msMaxMsglen] at short
  apply (Performs.of_runs (Runs.check inDomain)).bind
  apply (Performs.of_runs (Runs.check short)).bind
  apply (performs_awaitEmpty room).bind
  apply (Performs.setWord room rfl (by decide) (.inl (by decide))).bind
  apply Performs.bind
  · apply Performs.setSlice room rfl rfl
    · rw [msMsgOff, mailboxSlotsize]
      omega
    · exact .inr (by decide)
  · apply Performs.setItem room (Nat.add_assoc ..)
    · rw [msMsgOff, mailboxSlotsize]
      omega
    · rw [msMsgOff, msLastResponderOff]
      omega

theorem performs_clearMsglen {clear : Bool} :
    Performs i (clearMsglen i clear) size mem (.ok ())
      (Layout.retrieve config i clear mem) := by
  cases clear with
  | true =>
      rw [Layout.retrieve, if_pos ⟨inDomain, rfl⟩]
      exact Performs.setWord room rfl (by decide) (.inl (by decide))
  | false =>
      rw [Layout.retrieve, if_neg fun both => Bool.noConfusion both.2]
      exact .of_runs (Runs.pure ())

theorem performs_retrieve {entry : Entry} {asbytes clear : Bool}
    (holds : Holds mem i entry) :
    Performs i (retrieve config.serverId i asbytes clear) size mem
      ((entry.pending.given asbytes).map (Prod.mk entry.nodename))
      (Layout.retrieve config i clear mem) := by
  have short := holds.short
  rw [msMaxMsglen] at short
  have name : (mem.readBytes (slotAddr i) 40).take 32 =
      mem.readBytes (slotAddr i) 32 := by
    rw [readBytes_add mem _ 32 8, List.take_left' (length_readBytes ..)]
  have msglen : wordValue ((mem.readBytes (slotAddr i) 40).drop 32) =
      entry.pending.encoded.length := by
    rw [readBytes_add mem _ 32 8, List.drop_left' (length_readBytes ..)]
    exact holds.msglen
  have header : Runs (unpackHeader (mem.readBytes (slotAddr i) 40)) size mem
      (.ok (mem.readBytes (slotAddr i) 32, entry.pending.encoded.length)) mem
      [] := by
    rw [unpackHeader, if_pos (length_readBytes ..), name, msglen]
    exact Runs.pure _
  have decoded : Runs (decode (nodename mem i)) size mem
      (.ok entry.nodename) mem [] := by
    rw [decode, holds.name]
    exact Runs.pure _
  have unpacked : Runs (unpackS entry.pending.encoded.length
      entry.pending.encoded) size mem (.ok entry.pending.encoded) mem [] := by
    rw [unpackS, if_pos rfl]
    exact Runs.pure _
  have given : ∀ mem, Runs (returned asbytes
      (entry.pending.encoded.take entry.pending.encoded.length)) size mem
      (entry.pending.given asbytes) mem [] := by
    intro mem
    rw [List.take_length]
    exact runs_returned _ _ _ _
  apply (Performs.of_runs (Runs.check inDomain)).bind
  apply (Performs.getSlice room (Nat.add_zero _).symm (by decide)).bind
  apply (Performs.of_runs header).bind
  apply (Performs.of_runs decoded).bind
  apply Performs.bind
  · apply Performs.getSlice room rfl
    rw [msMsgOff, mailboxSlotsize]
    omega
  · dsimp only
    rw [holds.body]
    apply (Performs.of_runs unpacked).bind
    apply (performs_clearMsglen inDomain room).bind
    exact (Performs.of_runs (given _)).bind_pure

theorem performs_clearMailslot (name : Option Nodename) :
    Performs i (clearMailslot config.serverId i (name.map Nodename.bytes)) size
      mem (.ok ())
      (Layout.clearMailslot config i (name.elim [] Nodename.bytes) mem) := by
  have short := Nodename.short_elim name
  rw [Layout.clearMailslot, if_pos inDomain, if_pos short]
  apply (Performs.of_runs (Runs.check inDomain)).bind
  apply Performs.bind
  · exact Performs.setSlice room (Nat.add_zero _).symm rfl (by decide)
      (.inl (by decide))
  · cases name with
    | none =>
        rw [Option.elim_none, write_nil]
        exact .of_runs (Runs.pure ())
    | some name =>
        obtain ⟨bytes, text, utf8, nulFree, fits⟩ := name
        cases bytes with
        | nil =>
            rw [Option.elim_some, write_nil]
            exact .of_runs (Runs.pure ())
        | cons byte rest =>
            apply (Performs.of_runs (Runs.check fits)).bind
            rw [msNodenameSize] at fits
            apply Performs.setSlice room (Nat.add_zero _).symm rfl
            · rw [Nat.zero_add, mailboxSlotsize]
              omega
            · rw [Nat.zero_add, msPeerIdOff]
              omega

end

/-! ### The entry of a slot -/

namespace Holds

variable {config : Config} {i : Nat} {mem : Memory} {entry : Entry}

/-- The name is at the front of the slot. -/
theorem nodename_write {off : Nat} {bytes : List UInt8}
    (behind : msNodenameSize ≤ off) :
    nodename (mem.write (slotAddr i + off) bytes) i = nodename mem i := by
  rw [nodename, nodename, readBytes_write_of_disjoint]
  exact .inl (Nat.add_le_add_left behind _)

theorem fill {msg : Message} (holds : Holds mem i entry)
    (inDomain : InDomain config i)
    (short : msg.encoded.length < msMaxMsglen) :
    Holds (Layout.fill config i msg.encoded mem) i
      { entry with pending := msg } := by
  rw [Layout.fill, if_pos ⟨inDomain, short⟩]
  have width : msg.encoded.length < 2 ^ 64 :=
    Nat.lt_trans short (by decide)
  refine ⟨?_, ?_, ?_, short⟩
  · rw [Nat.add_assoc, nodename_write (Nat.le_add_right_of_le (by decide)),
      nodename_write (by decide), writeWord, nodename_write (by decide)]
    exact holds.name
  · rw [readWord_write_of_disjoint, readWord_write_of_disjoint,
      readWord_writeWord, Nat.mod_eq_of_lt width]
    · left
      rw [msMsglenOff, msMsgOff]
      omega
    · left
      rw [msMsglenOff, msMsgOff]
      omega
  · rw [readBytes_write_of_disjoint (.inl (Nat.le_refl _))]
    exact readBytes_write_self ..

theorem retrieve {clear : Bool} (holds : Holds mem i entry)
    (inDomain : InDomain config i) :
    Holds (Layout.retrieve config i clear mem) i
      (if clear = true then { entry with pending := .bytes [] }
        else entry) := by
  cases clear with
  | false =>
      rw [Layout.retrieve, if_neg fun both => Bool.noConfusion both.2]
      exact holds
  | true =>
      rw [Layout.retrieve, if_pos ⟨inDomain, rfl⟩, if_pos rfl]
      refine ⟨?_, ?_, rfl, Nat.zero_lt_succ _⟩
      · rw [writeWord, nodename_write (by decide)]
        exact holds.name
      · rw [readWord_writeWord]
        rfl

theorem clearMailslot (holds : Holds mem i entry)
    (inDomain : InDomain config i) (name : Option Nodename) :
    Holds (Layout.clearMailslot config i (name.elim [] Nodename.bytes) mem) i
      { entry with nodename := name.elim [] Nodename.text } := by
  have short := Nodename.short_elim name
  have nulFree : ∀ byte ∈ name.elim [] Nodename.bytes, byte ≠ 0 := by
    cases name with
    | none => exact fun _ member => nomatch member
    | some name => exact name.nulFree
  have utf8 : Utf8.decode (name.elim [] Nodename.bytes) =
      some (name.elim [] Nodename.text) := by
    cases name with
    | none => decide
    | some name => exact name.utf8
  rw [Layout.clearMailslot, if_pos inDomain, if_pos short]
  generalize name.elim [] Nodename.bytes = bytes at short nulFree utf8
  have zeros : (List.replicate msNodenameSize (0 : UInt8)).length =
      msNodenameSize := List.length_replicate
  generalize cleared : mem.write (slotAddr i)
    (List.replicate msNodenameSize 0) = blank
  -- what lies behind the name is read through both writes
  have kept : ∀ off n, msNodenameSize ≤ off →
      (blank.write (slotAddr i) bytes).readBytes (slotAddr i + off) n =
        mem.readBytes (slotAddr i + off) n := by
    intro off n behind
    rw [readBytes_write_of_disjoint (.inr (by omega)), ← cleared,
      readBytes_write_of_disjoint (.inr (by omega))]
  have nul : blank.write (slotAddr i) bytes (slotAddr i + bytes.length) = 0 := by
    rw [write_of_ge (Nat.le_refl _), ← cleared,
      write_add (by rw [zeros]; exact short), List.getElem_replicate]
  refine ⟨?_, ?_, ?_, holds.short⟩
  · rw [(nodename_eq_iff (readBytes_write_self ..) nulFree short).mpr nul]
    exact utf8
  · rw [readWord, kept _ _ (by decide)]
    exact holds.msglen
  · rw [kept _ _ (by decide)]
    exact holds.body

end Holds

/-! ### All slots, over whole runs -/

/-- The mapping and the table that it stands for. -/
structure State (config : Config) where
  mm : Mmap
  table : Table config

/-- The mapping stands for the table. -/
structure Represents {config : Config} (s : State config) : Prop where
  room : slotAddr (config.serverId + 1) ≤ s.mm.size
  holds : ∀ i : Slot config, Holds s.mm.bytes i (s.table i)

/-- One call, on the mapping and on the table. -/
def step (config : Config) : Transition.Step (State config) (Op config) :=
  fun s op => some ⟨(execute op s.mm).2, (s.table.apply op).2⟩

/-- What the table says of one call holds of the bytes. -/
structure Refined {config : Config} (s : State config) (op : Op config)
    (next : State config) : Prop where
  answer : (execute op s.mm).1 = (s.table.apply op).1
  others : ∀ a, a < slotAddr op.slot ∨ slotAddr (op.slot + 1) ≤ a →
    next.mm.bytes a = s.mm.bytes a
  peerIds : ∀ j, next.mm.bytes.readWord (slotAddr j + msPeerIdOff) =
    s.mm.bytes.readWord (slotAddr j + msPeerIdOff)
  inside : ∃ extents, next.mm.touched = s.mm.touched ++ extents ∧
    ∀ extent ∈ extents,
      slotAddr op.slot ≤ extent.1 ∧ extent.2 ≤ slotAddr (op.slot + 1)

section

variable {config : Config} {i size : Nat} {mem after : Memory}
  {extents : List (Nat × Nat)} {entry : Entry}

/-- One call on the slot that it is about. -/
theorem performs_execute (op : Op config)
    (room : slotAddr (op.slot + 1) ≤ size) (holds : Holds mem op.slot entry) :
    ∃ after, Performs op.slot (execute op) size mem (op.onEntry entry).1 after ∧
      Holds after op.slot (op.onEntry entry).2 := by
  cases op with
  | fill sender msg polls =>
      refine ⟨_, ?_, holds.fill sender.2 msg.short⟩
      exact (performs_fill sender.2 room msg.short).bind_pure
  | retrieve peer asbytes clear =>
      refine ⟨_, ?_, holds.retrieve peer.2⟩
      have performs : Performs peer.1 (execute (.retrieve peer asbytes clear))
          size mem
          (((entry.pending.given asbytes).map (Prod.mk entry.nodename)).map
            fun mail => .mail mail.1 mail.2)
          (Layout.retrieve config peer clear mem) :=
        (performs_retrieve peer.2 room holds).bind_pure
      have same : ((entry.pending.given asbytes).map
            (Prod.mk entry.nodename)).map (fun mail => .mail mail.1 mail.2) =
          (entry.pending.given asbytes).map (Reply.mail entry.nodename) := by
        cases entry.pending.given asbytes with
        | error error => rfl
        | ok msg => rfl
      rw [same] at performs
      exact performs
  | clearMailslot id name =>
      refine ⟨_, ?_, holds.clearMailslot id.2 name⟩
      exact (performs_clearMailslot id.2 room name).bind_pure

/-- What happens in one slot does not show in another. -/
theorem Holds.confined {j : Nat} (holds : Holds mem j entry)
    (confined : Confined i mem after extents) (other : j ≠ i) :
    Holds after j entry := by
  have same : ∀ off n, off + n ≤ mailboxSlotsize →
      after.readBytes (slotAddr j + off) n =
        mem.readBytes (slotAddr j + off) n := by
    intro off n small
    apply readBytes_congr
    intro a reached upto
    apply confined.others
    rw [slotAddr_succ]
    rw [mailboxSlotsize] at small
    rcases Nat.lt_or_gt_of_ne other with before | behind
    · have le := slotAddr_mono (Nat.succ_le_of_lt before)
      rw [slotAddr_succ] at le
      omega
    · have le := slotAddr_mono (Nat.succ_le_of_lt behind)
      rw [slotAddr_succ] at le
      omega
  have short := holds.short
  refine ⟨?_, ?_, ?_, short⟩
  · have front := same 0 msNodenameSize (by decide)
    rw [Nat.add_zero] at front
    rw [nodename, front]
    exact holds.name
  · rw [readWord, same _ _ (by decide)]
    exact holds.msglen
  · rw [same]
    · exact holds.body
    · rw [msMaxMsglen] at short
      rw [msMsgOff, mailboxSlotsize]
      omega

/-- No peer id changes, whichever slot it belongs to. -/
theorem Confined.peerIds (confined : Confined i mem after extents) (j : Nat) :
    after.readWord (slotAddr j + msPeerIdOff) =
      mem.readWord (slotAddr j + msPeerIdOff) := by
  by_cases same : j = i
  · rw [same]
    exact confined.peerId
  · rw [readWord, readWord]
    congr 1
    apply readBytes_congr
    intro a reached upto
    apply confined.others
    simp only [slotAddr, mailboxSlotsize, msPeerIdOff] at reached upto ⊢
    omega

end

/-- One call keeps the representation and gives the answer of the table. -/
theorem step_refined {config : Config} {s t : State config} {op : Op config}
    (represents : Represents s) (taken : step config s op = some t) :
    Represents t ∧ Refined s op t := by
  have room : slotAddr (op.slot + 1) ≤ s.mm.size :=
    Nat.le_trans (slotAddr_mono (Nat.succ_le_succ op.slot.2.2)) represents.room
  obtain ⟨after, ⟨extents, runs, confined⟩, holds⟩ :=
    performs_execute op room (represents.holds op.slot)
  have result : execute op s.mm = ((op.onEntry (s.table op.slot)).1,
      ⟨s.mm.size, after, s.mm.touched ++ extents⟩) := runs s.mm.touched
  have moved : t = ⟨⟨s.mm.size, after, s.mm.touched ++ extents⟩,
      Function.update s.table op.slot (op.onEntry (s.table op.slot)).2⟩ := by
    rw [← Option.some.inj taken, result]
    rfl
  subst moved
  refine ⟨⟨represents.room, fun i => ?_⟩, ⟨?_, confined.others,
    confined.peerIds, extents, rfl, confined.inside⟩⟩
  · change Holds after i (Function.update s.table op.slot _ i)
    by_cases same : i = op.slot
    · rw [same, Function.update_self]
      exact holds
    · rw [Function.update_of_ne same]
      exact (represents.holds i).confined confined
        fun equal => same (Subtype.ext equal)
  · rw [result]
    rfl

/-- The arguments of a server that a file of any size has room for. -/
def ofConfig (config : Config) : Args := ⟨config.nClients, config.smart⟩

/-- Behind the initialisation only the server has a name, and nothing waits. -/
def initial (config : Config) (file : File) : State config where
  mm := file.prepared (ofConfig config)
  table i :=
    { nodename :=
        if i.1 = config.serverId then (ofConfig config).hostname else []
      pending := .bytes [] }

theorem represents_initial (config : Config) (file : File) :
    Represents (initial config file) := by
  have inside : slotAddr ((ofConfig config).serverId + 1) ≤ file.size := by
    apply Nat.le_trans (slotAddr_mono _) file.large
    exact Nat.succ_le_succ (Nat.succ_le_succ config.fits)
  have wide : (ofConfig config).nEvents < 2 ^ 64 :=
    Nat.lt_of_le_of_lt (Nat.succ_le_succ (Nat.succ_le_succ config.fits))
      (by decide)
  have complete : Complete (ofConfig config) file := by
    apply (complete_iff_blank wide inside).mpr
    intro i low high
    apply blank_cleared
    exact Nat.lt_succ_of_le
      (Nat.le_trans high (Nat.succ_le_succ config.fits))
  have size : (file.prepared (ofConfig config)).size = file.size := by
    obtain ⟨touched, runs⟩ := initializeMailbox_eq inside
    rw [File.prepared, runs]
  refine ⟨?_, fun i => ?_⟩
  · rw [← size] at inside
    exact inside
  · have fresh := complete.slots i i.2.1 i.2.2
    refine ⟨?_, fresh.msglen, rfl, Nat.zero_lt_succ _⟩
    have name := fresh.name
    change nodename (initial config file).mm.bytes i = _ at name
    rw [name]
    by_cases server : i.1 = (ofConfig config).serverId
    · rw [if_pos server, Utf8.decode_encode]
      exact congrArg some (if_pos server).symm
    · rw [if_neg server]
      exact congrArg some (if_neg server).symm

/-- The bytes of the mailbox behave as the table: every call gives the table's
answer and stays within its slot. -/
theorem table_refined (config : Config) (file : File)
    (ops : List (Op config)) :
    Transition.Along (step config) Refined (initial config file) ops := by
  have kept : ∀ s op t, Represents s → True → step config s op = some t →
      Represents t ∧ Refined s op t :=
    fun _ _ _ represents _ taken => step_refined represents taken
  apply Transition.along_of_invariant kept (represents_initial config file)
  exact Transition.meets_of_forall fun _ _ => trivial

end FameZ.Mapped
