/-
Module: FameZ.Mailbox.Initialize
Purpose: The initialisation of a mailbox file of any size and contents, and for
  which command lines and files it is complete.
Trusted boundary: the translation of FAMEZ_MailBox.__init__ and
  _initialize_mailbox, of parse_cmdline and of struct famez_globals
Main exports: Args, Admitted, File, initializeMailbox, initialized, Blank,
  Complete, complete_iff
-/
import FameZ.Lib.Mmap
import FameZ.Lib.Utf8
import FameZ.Mailbox.SlotIdentity

namespace FameZ.Mapped

open Memory Mmap Layout

/-! ### The command line and the file -/

/-- What the mailbox needs of the server's arguments. -/
structure Args where
  nClients : Nat
  smart : Bool
deriving Repr, DecidableEq

def Args.serverId (args : Args) : Nat := args.nClients + 1

def Args.nEvents (args : Args) : Nat := args.nClients + 2

/-- The arguments that parse_cmdline lets through. -/
structure Admitted extends Args where
  low : 1 ≤ nClients
  high : nClients ≤ 62

/-- `parse_cmdline`, on the arguments that decide about the mailbox. -/
def parseCmdline (nClients : Int) (silent smart : Bool) :
    Except PyError Admitted :=
  if inRange : 1 ≤ nClients ∧ nClients ≤ 62 then
    if silent = true ∧ smart = true then .error .assertionError
    else .ok
      { nClients := nClients.toNat
        smart := smart
        low := by omega
        high := by omega }
  else .error .assertionError

/-- Every admitted argument comes from a command line. -/
theorem exists_parseCmdline (args : Admitted) :
    parseCmdline args.nClients false args.smart = .ok args := by
  obtain ⟨⟨nClients, smart⟩, low, high⟩ := args
  have inRange : (1 : Int) ≤ nClients ∧ (nClients : Int) ≤ 62 := by
    dsimp only at low high
    omega
  rw [parseCmdline, dif_pos inRange, if_neg (by simp)]
  rfl

def filesize : Nat := mailboxMaxSlots * mailboxSlotsize

/-- A mailbox file; a smaller one is refused. -/
structure File where
  size : Nat
  bytes : Memory
  large : filesize ≤ size

/-- The file of `__init__`: a new one, or the one at the path. -/
def openMailbox : Option (Nat × Memory) → Except PyError File
  | none => .ok ⟨filesize, fun _ => 0, Nat.le_refl _⟩
  | some (size, bytes) =>
      if large : filesize ≤ size then .ok ⟨size, bytes, large⟩
      else .error .assertionError

/-- `mmap.mmap(fd, 0)`. -/
def File.mmap (file : File) : Mmap := ⟨file.size, file.bytes, []⟩

/-! ### Initialisation -/

/-- The name of the server. -/
def Args.hostname (args : Args) : List Char :=
  if args.smart then "Z-switch".toList else "Z-server".toList

def Args.globals (args : Args) : List UInt8 :=
  wordBytes mailboxSlotsize ++ wordBytes msMsgOff ++
    wordBytes args.nClients ++ wordBytes args.nEvents ++
    wordBytes args.serverId

/-- `_initialize_mailbox`. -/
def initializeMailbox (args : Args) : Access Unit := do
  let data := List.replicate filesize 0
  setSlice 0 data.length data
  let data := args.globals
  setSlice 0 data.length data
  (List.range' 1 (args.nEvents - 1)).forM fun slot => do
    let index := slotAddr slot + msPeerIdOff
    let packedPeer := wordBytes slot
    setSlice index (index + packedPeer.length) packedPeer
  let data := Utf8.encode args.hostname
  let index := slotAddr args.serverId
  setSlice index (index + data.length) data

/-- The words of the globals that `_init_mailslot` reads. -/
def initMailslotGlobals : Access (Nat × Nat × Nat) := do
  let data ← getSlice gNClientsOff (gNClientsOff + 24)
  let nClients ← unpackQ (data.take 8)
  let nEvents ← unpackQ ((data.drop 8).take 8)
  let serverId ← unpackQ (data.drop 16)
  pure (nClients, nEvents, serverId)

/-- `struct famez_globals`. -/
structure Globals where
  slotsize : Nat
  bufOffset : Nat
  nClients : Nat
  nEvents : Nat
  serverId : Nat
deriving Repr, DecidableEq

def loadGlobals (mem : Memory) : Globals where
  slotsize := mem.readWord 0
  bufOffset := mem.readWord 8
  nClients := mem.readWord 16
  nEvents := mem.readWord 24
  serverId := mem.readWord 32

/-- The node name of a slot, a C string. -/
def nodename (mem : Memory) (slot : Nat) : List UInt8 :=
  (mem.readBytes (slotAddr slot) msNodenameSize).takeWhile fun byte =>
    decide (byte ≠ 0)

/-- A slot of a file of `size` bytes that was just initialised. -/
structure Fresh (args : Args) (size : Nat) (mem : Memory) (i : Nat) :
    Prop where
  inside : slotAddr (i + 1) ≤ size
  msglen : mem.readWord (slotAddr i + msMsglenOff) = 0
  peerId : mem.readWord (slotAddr i + msPeerIdOff) = i
  body : mem.readBytes (slotAddr i + msMsgOff) msMaxMsglen =
    List.replicate msMaxMsglen 0
  name : nodename mem i =
    if i = args.serverId then Utf8.encode args.hostname else []

/-- The mapping of a file behind `_initialize_mailbox`. -/
def File.prepared (file : File) (args : Args) : Mmap :=
  (initializeMailbox args file.mmap).2

/-- Initialisation succeeds, both languages read the globals they need, and
every slot is fresh. -/
structure Complete (args : Args) (file : File) : Prop where
  succeeds : (initializeMailbox args file.mmap).1 = .ok ()
  client : (initMailslotGlobals (file.prepared args)).1 =
    .ok (args.nClients, args.nClients + 2, args.nClients + 1)
  driver : loadGlobals (file.prepared args).bytes =
    ⟨512, 128, args.nClients, args.nClients + 2, args.nClients + 1⟩
  slots : ∀ i, 1 ≤ i → i ≤ args.serverId →
    Fresh args file.size (file.prepared args).bytes i

/-- What a slot that is not cleared must hold already.  Its name starts with a
NUL, the one of the server goes on with a NUL. -/
structure Blank (args : Args) (old : Memory) (i : Nat) : Prop where
  msglen : old.readWord (slotAddr i + msMsglenOff) = 0
  body : old.readBytes (slotAddr i + msMsgOff) msMaxMsglen =
    List.replicate msMaxMsglen 0
  name : old (slotAddr i + if i = args.serverId then 8 else 0) = 0

/-! ### What is stored -/

/-- The bytes behind `_initialize_mailbox`. -/
def initialized (args : Args) (old : Memory) : Memory :=
  let mem := (old.write 0 (List.replicate filesize 0)).write 0 args.globals
  let mem := (List.range' 1 (args.nEvents - 1)).foldl
    (fun mem slot => mem.writeWord (slotAddr slot + msPeerIdOff) slot) mem
  mem.write (slotAddr args.serverId) (Utf8.encode args.hostname)

theorem length_hostname (args : Args) :
    (Utf8.encode args.hostname).length = 8 := by
  rw [Args.hostname]
  cases args.smart <;> decide

theorem length_globals (args : Args) : args.globals.length = 40 := by
  simp only [Args.globals, List.length_append, length_wordBytes]

theorem slotAddr_succ (i : Nat) : slotAddr (i + 1) = slotAddr i + 512 :=
  Nat.succ_mul i mailboxSlotsize

theorem slotAddr_mono {i j : Nat} (le : i ≤ j) : slotAddr i ≤ slotAddr j :=
  Nat.mul_le_mul_right _ le

/-- The mailbox is initialised if the last slot lies inside the file. -/
theorem runs_initializeMailbox {args : Args} {size : Nat} (old : Memory)
    (large : filesize ≤ size) (inside : slotAddr (args.serverId + 1) ≤ size) :
    ∃ extents, Runs (initializeMailbox args) size old (.ok ())
      (initialized args old) extents := by
  have zeros : (List.replicate filesize (0 : UInt8)).length = filesize :=
    List.length_replicate
  rw [slotAddr_succ] at inside
  unfold initializeMailbox initialized
  dsimp only
  generalize List.replicate filesize (0 : UInt8) = data at zeros
  have clears : ∀ mem, Runs (setSlice 0 data.length data) size mem (.ok ())
      (mem.write 0 data) [(0, data.length)] :=
    fun _ => Runs.setSlice (Nat.zero_add _).symm
      ((Nat.le_of_eq zeros).trans large)
  have globals : ∀ mem, Runs (setSlice 0 args.globals.length args.globals)
      size mem (.ok ()) (mem.write 0 args.globals)
      [(0, args.globals.length)] := by
    intro mem
    apply Runs.setSlice (Nat.zero_add _).symm
    rw [length_globals]
    exact Nat.le_trans (by decide) large
  have turn : ∀ slot ∈ List.range' 1 (args.nEvents - 1), ∀ mem,
      Runs (setSlice (slotAddr slot + msPeerIdOff)
          (slotAddr slot + msPeerIdOff + (wordBytes slot).length)
          (wordBytes slot)) size mem (.ok ())
        (mem.writeWord (slotAddr slot + msPeerIdOff) slot)
        [(slotAddr slot + msPeerIdOff,
          slotAddr slot + msPeerIdOff + (wordBytes slot).length)] := by
    intro slot member mem
    apply Runs.setSlice rfl
    have last : slot ≤ args.serverId := by
      rw [List.mem_range'_1, Args.nEvents] at member
      rw [Args.serverId]
      omega
    have before := slotAddr_mono last
    rw [length_wordBytes, msPeerIdOff]
    omega
  have reaches : slotAddr args.serverId +
      (Utf8.encode args.hostname).length ≤ size := by
    rw [length_hostname]
    omega
  exact ⟨_, (clears old).bind ((globals _).bind
    ((Runs.forM _ turn).bind (Runs.setSlice rfl reaches)))⟩

/-- Writing the peer ids touches no other byte. -/
theorem foldl_peerIds_apply {a : Nat} (slots : List Nat) (mem : Memory)
    (apart : ∀ slot ∈ slots, a < slotAddr slot + msPeerIdOff ∨
      slotAddr slot + msPeerIdOff + 8 ≤ a) :
    slots.foldl (fun mem slot =>
      mem.writeWord (slotAddr slot + msPeerIdOff) slot) mem a = mem a := by
  induction slots generalizing mem with
  | nil => rfl
  | cons slot rest inductionHypothesis =>
      rw [List.foldl_cons, inductionHypothesis _ fun other member =>
        apart other (List.mem_cons_of_mem _ member)]
      rcases apart slot (List.mem_cons_self ..) with before | behind
      · exact write_of_lt before
      · apply write_of_ge
        rwa [length_wordBytes]

section

variable {args : Args} {old : Memory} {i off : Nat}

/-- Behind the clearing, a slot changes in its peer id and in the name of the
server only. -/
theorem initialized_apply (low : 1 ≤ i) (small : off < mailboxSlotsize)
    (field : off < msPeerIdOff ∨ msLastResponderOff ≤ off)
    (other : i = args.serverId → 8 ≤ off) :
    initialized args old (slotAddr i + off) =
      old.write 0 (List.replicate filesize 0) (slotAddr i + off) := by
  unfold initialized
  generalize old.write 0 _ = cleared
  have name : ∀ mem : Memory,
      mem.write (slotAddr args.serverId) (Utf8.encode args.hostname)
        (slotAddr i + off) = mem (slotAddr i + off) := by
    intro mem
    rw [mailboxSlotsize] at small
    rcases Nat.lt_trichotomy i args.serverId with before | same | behind
    · apply write_of_lt
      have le := slotAddr_mono (Nat.succ_le_of_lt before)
      rw [slotAddr_succ] at le
      omega
    · apply write_of_ge
      rw [length_hostname, ← same]
      exact Nat.add_le_add_left (other same) _
    · apply write_of_ge
      have le := slotAddr_mono (Nat.succ_le_of_lt behind)
      rw [slotAddr_succ] at le
      rw [length_hostname]
      omega
  rw [name, foldl_peerIds_apply]
  · apply write_of_ge
    rw [length_globals]
    have le := slotAddr_mono low
    simp only [slotAddr, mailboxSlotsize] at le ⊢
    omega
  · intro slot member
    simp only [slotAddr, mailboxSlotsize, msPeerIdOff, msLastResponderOff]
      at small field ⊢
    omega

/-- The slots of the required size are cleared. -/
theorem cleared_apply (few : i < mailboxMaxSlots)
    (small : off < mailboxSlotsize) :
    old.write 0 (List.replicate filesize 0) (slotAddr i + off) = 0 := by
  have inside : slotAddr i + off <
      (List.replicate filesize (0 : UInt8)).length := by
    rw [List.length_replicate, filesize]
    simp only [slotAddr, mailboxSlotsize, mailboxMaxSlots] at few small ⊢
    omega
  have byte := @write_add old 0 _ _ inside
  rw [Nat.zero_add] at byte
  rw [byte, List.getElem_replicate]

/-- The others are left as they were. -/
theorem stale_apply (many : mailboxMaxSlots ≤ i) :
    old.write 0 (List.replicate filesize 0) (slotAddr i + off) =
      old (slotAddr i + off) := by
  apply write_of_ge
  rw [List.length_replicate, filesize]
  have le := slotAddr_mono many
  rw [slotAddr] at le
  omega

/-! ### What is read -/

/-- A name that is present is the name of the slot if a NUL follows. -/
theorem nodename_eq_iff {mem : Memory} {name : List UInt8}
    (present : mem.readBytes (slotAddr i) name.length = name)
    (nulFree : ∀ byte ∈ name, byte ≠ 0) (short : name.length < msNodenameSize) :
    nodename mem i = name ↔ mem (slotAddr i + name.length) = 0 := by
  obtain ⟨more, size⟩ := Nat.exists_eq_add_of_lt short
  rw [nodename, size, Nat.add_assoc, readBytes_add, present,
    List.takeWhile_append_of_pos fun byte member =>
      decide_eq_true (nulFree byte member), readBytes, List.takeWhile_cons]
  by_cases nul : mem (slotAddr i + name.length) = 0
  · simp [nul]
  · simp [nul]

theorem hostname_nulFree (args : Args) :
    ∀ byte ∈ Utf8.encode args.hostname, byte ≠ 0 := by
  have all : (Utf8.encode args.hostname).all
      (fun byte => decide (byte ≠ 0)) = true := by
    rw [Args.hostname]
    cases args.smart <;> decide
  intro byte member
  exact of_decide_eq_true (List.all_eq_true.mp all byte member)

/-- The slot reads as blank exactly if it was blank after the clearing. -/
theorem fresh_iff {size : Nat} (wide : args.serverId < 2 ^ 64)
    (low : 1 ≤ i) (high : i ≤ args.serverId)
    (inside : slotAddr (args.serverId + 1) ≤ size) :
    Fresh args size (initialized args old) i ↔
      Blank args (old.write 0 (List.replicate filesize 0)) i := by
  have same : ∀ {off n}, (i = args.serverId → 8 ≤ off) →
      off + n ≤ mailboxSlotsize →
      (off + n ≤ msPeerIdOff ∨ msLastResponderOff ≤ off) →
      (initialized args old).readBytes (slotAddr i + off) n =
        (old.write 0 (List.replicate filesize 0)).readBytes
          (slotAddr i + off) n := by
    intro off n other small field
    apply readBytes_congr
    intro a reached upto
    obtain ⟨k, rfl⟩ := Nat.exists_eq_add_of_le reached
    rw [Nat.add_assoc]
    apply initialized_apply low
    · omega
    · omega
    · intro last
      exact Nat.le_add_right_of_le (other last)
  have msglen : (initialized args old).readWord (slotAddr i + msMsglenOff) =
      (old.write 0 (List.replicate filesize 0)).readWord
        (slotAddr i + msMsglenOff) := by
    rw [readWord, readWord, same (fun _ => by decide) (by decide)
      (.inl (by decide))]
  have body := @same msMsgOff msMaxMsglen (fun _ => by decide) (by decide)
    (.inr (by decide))
  have peerId : (initialized args old).readWord (slotAddr i + msPeerIdOff) =
      i := by
    have member : i ∈ List.range' 1 (args.nEvents - 1) := by
      rw [List.mem_range'_1]
      rw [Args.serverId] at high
      rw [Args.nEvents]
      omega
    unfold initialized
    rw [readWord_write_of_disjoint]
    · exact Intact.readWord_foldl_peerId _ _ member
        (Nat.lt_of_le_of_lt high wide)
    · rw [length_hostname]
      simp only [slotAddr, mailboxSlotsize, msPeerIdOff]
      omega
  have name : nodename (initialized args old) i =
        (if i = args.serverId then Utf8.encode args.hostname else []) ↔
      old.write 0 (List.replicate filesize 0)
        (slotAddr i + if i = args.serverId then 8 else 0) = 0 := by
    by_cases last : i = args.serverId
    · rw [if_pos last, if_pos last, nodename_eq_iff _ (hostname_nulFree args),
        length_hostname, initialized_apply low (by decide) (.inl (by decide))]
      · intro
        exact Nat.le_refl 8
      · rw [length_hostname]
        decide
      · rw [last]
        exact readBytes_write_self ..
    · rw [if_neg last, if_neg last, nodename_eq_iff rfl _ (by decide),
        ← initialized_apply low (by decide) (.inl (by decide))]
      · rfl
      · intro wrong
        exact absurd wrong last
      · intro byte member
        cases member
  constructor
  · intro fresh
    exact ⟨msglen ▸ fresh.msglen, body ▸ fresh.body, name.mp fresh.name⟩
  · intro blank
    exact ⟨Nat.le_trans (slotAddr_mono (Nat.succ_le_succ high)) inside,
      msglen.trans blank.msglen, peerId, body.trans blank.body,
      name.mpr blank.name⟩

/-- The globals lie before every slot. -/
theorem loadGlobals_initialized (wide : args.nEvents < 2 ^ 64) :
    loadGlobals (initialized args old) =
      ⟨mailboxSlotsize, msMsgOff, args.nClients, args.nEvents,
        args.serverId⟩ := by
  have kept : ∀ addr, addr + 8 ≤ mailboxSlotsize →
      (initialized args old).readWord addr =
        ((old.write 0 (List.replicate filesize 0)).write 0
          args.globals).readWord addr := by
    intro addr small
    unfold initialized
    rw [readWord_write_of_disjoint, Intact.readWord_foldl_peerIds]
    · intro slot member
      have first := (List.mem_range'_1.mp member).1
      simp only [slotAddr, mailboxSlotsize] at small ⊢
      omega
    · simp only [slotAddr, mailboxSlotsize, Args.serverId] at small ⊢
      omega
  obtain ⟨slotsize, msgOffset, nClients, nEvents, serverId⟩ :=
    Intact.readWord_globals (old.write 0 (List.replicate filesize 0))
      mailboxSlotsize msMsgOff args.nClients args.nEvents args.serverId
  have less : args.nClients < args.nEvents ∧ args.serverId < args.nEvents := by
    rw [Args.nEvents, Args.serverId]
    omega
  rw [Nat.mod_eq_of_lt (less.1.trans wide)] at nClients
  rw [Nat.mod_eq_of_lt wide] at nEvents
  rw [Nat.mod_eq_of_lt (less.2.trans wide)] at serverId
  have first := (kept gSlotsizeOff (by decide)).trans slotsize
  have second := (kept gMsgOffsetOff (by decide)).trans msgOffset
  have third := (kept gNClientsOff (by decide)).trans nClients
  have fourth := (kept gNEventsOff (by decide)).trans nEvents
  have fifth := (kept gServerIdOff (by decide)).trans serverId
  simp only [gSlotsizeOff, gMsgOffsetOff, gNClientsOff, gNEventsOff,
    gServerIdOff] at first second third fourth fifth
  rw [loadGlobals, first, second, third, fourth, fifth]
  rfl

/-- Python reads three of the words that the driver loads. -/
theorem initMailslotGlobals_fst {m : Mmap} (large : filesize ≤ m.size) :
    (initMailslotGlobals m).1 = .ok ((loadGlobals m.bytes).nClients,
      (loadGlobals m.bytes).nEvents, (loadGlobals m.bytes).serverId) := by
  have parts : m.bytes.readBytes 16 24 = m.bytes.readBytes 16 8 ++
      (m.bytes.readBytes 24 8 ++ m.bytes.readBytes 32 8) := by
    rw [← readBytes_add m.bytes 24 8 8, ← readBytes_add m.bytes 16 8 16]
  have first : (m.bytes.readBytes 16 24).take 8 = m.bytes.readBytes 16 8 := by
    rw [parts, List.take_left' (length_readBytes ..)]
  have rest : (m.bytes.readBytes 16 24).drop 8 =
      m.bytes.readBytes 24 8 ++ m.bytes.readBytes 32 8 := by
    rw [parts, List.drop_left' (length_readBytes ..)]
  have second : ((m.bytes.readBytes 16 24).drop 8).take 8 =
      m.bytes.readBytes 24 8 := by
    rw [rest, List.take_left' (length_readBytes ..)]
  have third : (m.bytes.readBytes 16 24).drop 16 =
      m.bytes.readBytes 32 8 := by
    rw [← List.drop_drop (i := 8) (j := 8), rest,
      List.drop_left' (length_readBytes ..)]
  have reads : Runs (getSlice gNClientsOff (gNClientsOff + 24)) m.size m.bytes
      (.ok (m.bytes.readBytes 16 24)) m.bytes
      [(gNClientsOff, gNClientsOff + 24)] :=
    Runs.getSlice (Nat.le_add_right ..) (Nat.le_trans (by decide) large)
  have word : ∀ addr, Runs (unpackQ (m.bytes.readBytes addr 8)) m.size m.bytes
      (.ok (m.bytes.readWord addr)) m.bytes [] :=
    fun _ => Runs.unpackQ (length_readBytes ..)
  have unpacks : Runs (do
        let nClients ← unpackQ ((m.bytes.readBytes 16 24).take 8)
        let nEvents ← unpackQ (((m.bytes.readBytes 16 24).drop 8).take 8)
        let serverId ← unpackQ ((m.bytes.readBytes 16 24).drop 16)
        pure (nClients, nEvents, serverId)) m.size m.bytes
      (.ok (m.bytes.readWord 16, m.bytes.readWord 24, m.bytes.readWord 32))
      m.bytes [] := by
    rw [first, second, third]
    exact (word 16).bind ((word 24).bind ((word 32).bind (Runs.pure _)))
  exact congrArg Prod.fst (reads.bind unpacks m.touched)

end

/-! ### Completeness -/

section

variable {args : Args} {file : File}

/-- With room for all slots, initialisation comes down to what is stored. -/
theorem initializeMailbox_eq
    (inside : slotAddr (args.serverId + 1) ≤ file.size) :
    ∃ touched, initializeMailbox args file.mmap =
      (.ok (), ⟨file.size, initialized args file.bytes, touched⟩) := by
  obtain ⟨extents, runs⟩ :=
    runs_initializeMailbox file.bytes file.large inside
  exact ⟨[] ++ extents, runs []⟩

/-- With room for all slots, completeness is that they are blank after the
clearing. -/
theorem complete_iff_blank (wide : args.nEvents < 2 ^ 64)
    (inside : slotAddr (args.serverId + 1) ≤ file.size) :
    Complete args file ↔ ∀ i, 1 ≤ i → i ≤ args.serverId →
      Blank args (file.bytes.write 0 (List.replicate filesize 0)) i := by
  have narrow : args.serverId < 2 ^ 64 :=
    Nat.lt_trans (Nat.lt_succ_self _) wide
  obtain ⟨touched, runs⟩ := initializeMailbox_eq inside
  have result : file.prepared args =
      ⟨file.size, initialized args file.bytes, touched⟩ := by
    rw [File.prepared, runs]
  have globals := @loadGlobals_initialized args file.bytes wide
  constructor
  · intro complete i low high
    have fresh := complete.slots i low high
    rw [result] at fresh
    exact (fresh_iff narrow low high inside).mp fresh
  · intro blank
    refine ⟨congrArg Prod.fst runs, ?_, ?_, fun i low high => ?_⟩
    · rw [result, initMailslotGlobals_fst file.large, globals]
      rfl
    · rw [result, globals]
      rfl
    · rw [result]
      exact (fresh_iff narrow low high inside).mpr (blank i low high)

/-- A slot of the required size is blank after the clearing. -/
theorem blank_cleared {i : Nat} (few : i < mailboxMaxSlots) :
    Blank args (file.bytes.write 0 (List.replicate filesize 0)) i := by
  refine ⟨readWord_of_zero fun k inside => ?_,
    readBytes_of_zero fun k inside => ?_, ?_⟩
  · rw [Nat.add_assoc]
    apply cleared_apply few
    rw [msMsglenOff, mailboxSlotsize]
    omega
  · rw [Nat.add_assoc]
    apply cleared_apply few
    rw [msMaxMsglen] at inside
    rw [msMsgOff, mailboxSlotsize]
    omega
  · apply cleared_apply few
    by_cases last : i = args.serverId
    · rw [if_pos last]
      decide
    · rw [if_neg last]
      decide

/-- Any other slot is blank if it was. -/
theorem blank_stale {i : Nat} (many : mailboxMaxSlots ≤ i) :
    Blank args (file.bytes.write 0 (List.replicate filesize 0)) i ↔
      Blank args file.bytes i := by
  have same : ∀ off n,
      (file.bytes.write 0 (List.replicate filesize 0)).readBytes
        (slotAddr i + off) n = file.bytes.readBytes (slotAddr i + off) n := by
    intro off n
    apply readBytes_congr
    intro a reached upto
    obtain ⟨k, rfl⟩ := Nat.exists_eq_add_of_le reached
    rw [Nat.add_assoc]
    exact stale_apply many
  constructor
  · rintro ⟨msglen, body, name⟩
    rw [readWord, same] at msglen
    rw [same] at body
    rw [stale_apply many] at name
    exact ⟨msglen, body, name⟩
  · rintro ⟨msglen, body, name⟩
    rw [readWord, ← same] at msglen
    rw [← same] at body
    rw [← @stale_apply file.bytes i _ many] at name
    exact ⟨msglen, body, name⟩

end

/-- Initialisation is complete exactly if there are at most 14 clients, or the
file has room for all slots and those that are not cleared are blank. -/
theorem complete_iff (args : Admitted) (file : File) :
    Complete args.toArgs file ↔
      args.nClients ≤ 14 ∨
        (slotAddr (args.serverId + 1) ≤ file.size ∧
          ∀ i, mailboxMaxSlots ≤ i → i ≤ args.serverId →
            Blank args.toArgs file.bytes i) := by
  have high := args.high
  have wide : args.nEvents < 2 ^ 64 := by
    rw [Args.nEvents]
    omega
  constructor
  · intro complete
    have last := complete.slots args.serverId (Nat.succ_pos _) (Nat.le_refl _)
    have blank := (complete_iff_blank wide last.inside).mp complete
    refine .inr ⟨last.inside, fun i many inside => ?_⟩
    exact (blank_stale many).mp
      (blank i (Nat.le_trans (by decide) many) inside)
  · intro fits
    have inside : slotAddr (args.serverId + 1) ≤ file.size := by
      rcases fits with few | ⟨inside, -⟩
      · apply Nat.le_trans (slotAddr_mono _) file.large
        exact Nat.succ_le_succ (Nat.succ_le_succ few)
      · exact inside
    apply (complete_iff_blank wide inside).mpr
    intro i low upto
    by_cases cleared : i < mailboxMaxSlots
    · exact blank_cleared cleared
    · have many := Nat.le_of_not_lt cleared
      rcases fits with few | ⟨-, blank⟩
      · rw [Args.serverId] at upto
        rw [mailboxMaxSlots] at many
        omega
      · exact (blank_stale many).mpr (blank i many upto)

/-- One client more than the help of the option allows. -/
def fifteenClients : Admitted where
  nClients := 15
  smart := true
  low := by decide
  high := by decide

/-- A new file has no room for the last slot. -/
theorem fifteen_clients_raise :
    openMailbox none = .ok ⟨filesize, fun _ => 0, Nat.le_refl _⟩ ∧
      (initializeMailbox fifteenClients.toArgs
        ⟨filesize, fun _ => 0, []⟩).1 = .error .indexError ∧
      ¬ Complete fifteenClients.toArgs
        ⟨filesize, fun _ => 0, Nat.le_refl _⟩ := by
  refine ⟨rfl, by decide +kernel, fun complete => ?_⟩
  have last := (complete.slots 16 (by decide) (by decide)).inside
  exact absurd last (by decide)

end FameZ.Mapped
