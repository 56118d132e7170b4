/-
Module: FameZ.Mailbox.SlotIdentity
Purpose: When every mailslot keeps the peer id that the server wrote into it.
Trusted boundary: none
Main exports: KeepsIdentity, Identified, Intact, identified_iff_no_create
-/
import FameZ.Mailbox.Layout

namespace FameZ.Layout

open Memory

/-!
The server writes the peer id of a slot once.  Every operation of either
language leaves that word alone, but for the driver's own start: it clears its
slot as a whole.
-/

/-- The slot names its owner, so that a receiving driver answers the owner and
computes its CID. -/
structure KeepsIdentity (mem : Memory) (i : Nat) : Prop where
  peerId : mem.readWord (slotAddr i + msPeerIdOff) = i
  reply : ∀ core reply,
    (Kernel.famezLinkRequest (loadSlot mem (slotAddr i)) core).2.2 =
        some reply → reply.peerId = i
  peerCid : ∀ core,
    (Kernel.famezLinkRequest (loadSlot mem (slotAddr i)) core).1.peerCid =
      i * 100

/-- Every slot does. -/
def Identified (config : Config) (s : State) : Prop :=
  ∀ i, 1 ≤ i → i ≤ config.serverId → KeepsIdentity s.mem i

/-- The condition on one event: no driver starts. -/
def NoCreate : Label → Prop
  | .adapterCreate _ _ => False
  | _ => True

instance (label : Label) : Decidable (NoCreate label) := by
  cases label <;> unfold NoCreate <;> infer_instance

/-- The words nobody may change after the mailbox was made. -/
structure Intact (config : Config) (mem : Memory) : Prop where
  slotsize : mem.readWord gSlotsizeOff = mailboxSlotsize
  msgOffset : mem.readWord gMsgOffsetOff = msMsgOff
  nClients : mem.readWord gNClientsOff = config.nClients
  serverId : mem.readWord gServerIdOff = config.serverId
  peerId : ∀ i, 1 ≤ i → i ≤ config.serverId →
    mem.readWord (slotAddr i + msPeerIdOff) = i

/-- A stretch of bytes of one slot that leaves out its peer id. -/
def Spares (addr len : Nat) : Prop :=
  ∃ i off, 1 ≤ i ∧ addr = slotAddr i + off ∧
    (off + len ≤ msPeerIdOff ∨
      msLastResponderOff ≤ off ∧ off + len ≤ mailboxSlotsize)

namespace Intact

variable {config : Config} {mem : Memory} {s t : State} {label : Label}

/-- The identity follows from the words. -/
theorem keepsIdentity (intact : Intact config mem) {i : Nat} (low : 1 ≤ i)
    (high : i ≤ config.serverId) : KeepsIdentity mem i := by
  have peerId := intact.peerId i low high
  have small : i ≤ 15 := by
    have fits := config.fits
    simp only [Config.serverId] at high
    omega
  have loaded : (loadSlot mem (slotAddr i)).peerId = i := peerId
  refine ⟨peerId, fun core reply answers => ?_, fun core => ?_⟩
  · rw [Kernel.famezLinkRequest_peerId answers, loaded]
    exact Nat.mod_eq_of_lt (by omega)
  · rw [Kernel.famezLinkRequest_slot, loaded]
    exact Nat.mod_eq_of_lt (by omega)

/-- A write to a slot that spares its peer id. -/
theorem write (intact : Intact config mem) {addr : Nat} {bytes : List UInt8}
    (spares : Spares addr bytes.length) :
    Intact config (mem.write addr bytes) := by
  obtain ⟨i, off, low, rfl, fields⟩ := spares
  simp only [slotAddr, mailboxSlotsize, msPeerIdOff, msLastResponderOff]
    at fields ⊢
  have kept : ∀ start, start + 8 ≤ 512 →
      (mem.write (i * 512 + off) bytes).readWord start =
        mem.readWord start := by
    intro start small
    exact readWord_write_of_disjoint (Or.inl (by omega))
  refine ⟨?_, ?_, ?_, ?_, fun j first last => ?_⟩
  · rw [kept _ (by decide)]
    exact intact.slotsize
  · rw [kept _ (by decide)]
    exact intact.msgOffset
  · rw [kept _ (by decide)]
    exact intact.nClients
  · rw [kept _ (by decide)]
    exact intact.serverId
  · rw [readWord_write_of_disjoint]
    · exact intact.peerId j first last
    · simp only [slotAddr, mailboxSlotsize, msPeerIdOff]
      rcases Nat.lt_trichotomy j i with before | rfl | after
      · left
        omega
      · omega
      · right
        omega

theorem writeWord (intact : Intact config mem) {addr value : Nat}
    (spares : Spares addr 8) : Intact config (mem.writeWord addr value) :=
  intact.write (by rwa [length_wordBytes])

/-- A word of a slot other than its peer id. -/
theorem spares_field {i off : Nat} (low : 1 ≤ i)
    (field : off + 8 ≤ msPeerIdOff ∨
      msLastResponderOff ≤ off ∧ off + 8 ≤ mailboxSlotsize) :
    Spares (slotAddr i + off) 8 := ⟨i, off, low, rfl, field⟩

/-- Part of the message buffer of a slot. -/
theorem spares_msg {i skip len : Nat} (low : 1 ≤ i)
    (short : skip + len ≤ msMaxMsglen) :
    Spares (slotAddr i + msMsgOff + skip) len := by
  refine ⟨i, msMsgOff + skip, low, by rw [Nat.add_assoc], Or.inr ?_⟩
  simp only [msMsgOff, msMaxMsglen, msLastResponderOff, mailboxSlotsize]
    at short ⊢
  omega

theorem spares_body {i len : Nat} (low : 1 ≤ i)
    (short : len < msMaxMsglen) : Spares (slotAddr i + msMsgOff) len := by
  have spares : Spares (slotAddr i + msMsgOff + 0) len := spares_msg low
    (by rw [Nat.zero_add]; exact Nat.le_of_lt short)
  rwa [Nat.add_zero] at spares

/-- The terminating NUL. -/
theorem spares_nul {i len : Nat} (low : 1 ≤ i) (short : len < msMaxMsglen) :
    Spares (slotAddr i + msMsgOff + len) [(0 : UInt8)].length :=
  spares_msg low short

theorem spares_nodename {i len : Nat} (low : 1 ≤ i)
    (short : len ≤ msNodenameSize) : Spares (slotAddr i) len := by
  refine ⟨i, 0, low, (Nat.add_zero _).symm, Or.inl ?_⟩
  simp only [msNodenameSize, msPeerIdOff] at short ⊢
  omega

/-! ### Python -/

theorem fill (intact : Intact config mem) (senderId : Nat)
    (msg : List UInt8) : Intact config (fill config senderId msg mem) := by
  unfold Layout.fill
  split
  · rename_i valid
    obtain ⟨⟨low, -⟩, short⟩ := valid
    apply Intact.write
    · apply Intact.write
      · exact intact.writeWord (spares_field low (Or.inl (by decide)))
      · exact spares_body low short
    · exact spares_nul low short
  · exact intact

theorem retrieve (intact : Intact config mem) (peerId : Nat)
    (clear : Bool) : Intact config (retrieve config peerId clear mem) := by
  unfold Layout.retrieve
  split
  · rename_i valid
    exact intact.writeWord (spares_field valid.1.1 (Or.inl (by decide)))
  · exact intact

theorem clearMailslot (intact : Intact config mem) (id : Nat)
    (nodename : List UInt8) :
    Intact config (clearMailslot config id nodename mem) := by
  unfold Layout.clearMailslot
  split
  · rename_i valid
    have zeroed : Intact config (mem.write (slotAddr id)
        (List.replicate msNodenameSize 0)) := by
      apply intact.write
      rw [List.length_replicate]
      exact spares_nodename valid.1 (Nat.le_refl _)
    dsimp only
    split
    · rename_i short
      exact zeroed.write (spares_nodename valid.1 (Nat.le_of_lt short))
    · exact zeroed
  · exact intact

/-! ### The driver -/

/-- The driver computes the address Python uses. -/
theorem calculateMailslot_eq (intact : Intact config mem) {i addr : Nat}
    (found : calculateMailslot mem i = some addr) :
    1 ≤ i ∧ i ≤ config.serverId ∧ addr = slotAddr i := by
  unfold calculateMailslot at found
  rw [intact.slotsize, intact.nClients, intact.serverId] at found
  split at found
  · cases found
  · rename_i valid
    simp only [Config.serverId] at valid ⊢
    cases found
    exact ⟨by omega, by omega, rfl⟩

theorem famezCreateOutgoing (intact : Intact config mem) (myId : Nat)
    (cid sid : Int) (buf : List UInt8) :
    Intact config (famezCreateOutgoing myId cid sid buf mem) := by
  unfold Layout.famezCreateOutgoing
  split
  · rename_i mySlot peerId found passes
    obtain ⟨low, -, rfl⟩ := intact.calculateMailslot_eq found
    have short : buf.length < msMaxMsglen := by
      unfold Kernel.Outgoing.createOutgoing at passes
      rw [maxBuflen, intact.slotsize, intact.msgOffset] at passes
      dsimp only at passes
      split at passes
      · cases passes
      · split at passes
        · cases passes
        · split at passes
          · cases passes
          · rename_i short
            exact Nat.not_le.mp short
    split
    · apply Intact.write
      · apply Intact.writeWord
        · apply Intact.write
          · exact intact.writeWord (spares_field low (Or.inl (by decide)))
          · exact spares_nul low short
        · exact spares_field low (Or.inr (by decide))
      · exact spares_body low short
    · exact intact
  · exact intact

theorem linkRequest (intact : Intact config s.mem) (myId : Nat) {i : Nat}
    (low : 1 ≤ i) :
    Intact config (linkRequest myId (slotAddr i) s).mem := by
  unfold Layout.linkRequest
  rcases Kernel.famezLinkRequest (loadSlot s.mem (slotAddr i)) (s.core myId)
    with ⟨after, core, answer⟩
  have computed : Intact config ((s.mem.writeWord
      (slotAddr i + peerSidOff) after.peerSid).writeWord
      (slotAddr i + peerCidOff) after.peerCid) := by
    apply Intact.writeWord
    · exact intact.writeWord (spares_field low (Or.inr (by decide)))
    · exact spares_field low (Or.inr (by decide))
  cases answer with
  | none => exact computed
  | some reply =>
      apply Intact.famezCreateOutgoing
      exact computed.writeWord (spares_field low (Or.inl (by decide)))

theorem famezReleaseIncoming (intact : Intact config mem) {i : Nat}
    (low : 1 ≤ i) :
    Intact config (famezReleaseIncoming (slotAddr i) mem) :=
  intact.writeWord (spares_field low (Or.inl (by decide)))

/-- Every operation but the driver's start. -/
theorem step (intact : Intact config s.mem) (noCreate : NoCreate label)
    (taken : step config s label = some t) : Intact config t.mem := by
  cases label with
  | fill senderId msg =>
      cases taken
      exact intact.fill senderId msg
  | retrieve peerId clear =>
      cases taken
      exact intact.retrieve peerId clear
  | clearMailslot id nodename =>
      cases taken
      exact intact.clearMailslot id nodename
  | initMailslot id nodename =>
      cases taken
      exact intact.clearMailslot id nodename
  | adapterCreate myId nodename => exact False.elim noCreate
  | createOutgoing myId cid sid buf =>
      cases taken
      exact intact.famezCreateOutgoing myId cid sid buf
  | linkRequest myId slotnum =>
      obtain ⟨slot, found, rfl⟩ := Option.map_eq_some_iff.mp taken
      obtain ⟨low, -, rfl⟩ := intact.calculateMailslot_eq found
      exact intact.linkRequest myId low
  | releaseIncoming slotnum =>
      obtain ⟨slot, found, rfl⟩ := Option.map_eq_some_iff.mp taken
      obtain ⟨low, -, rfl⟩ := intact.calculateMailslot_eq found
      exact intact.famezReleaseIncoming low

/-- The driver's start clears the peer id of its own slot. -/
theorem peerId_of_create (intact : Intact config mem) {myId : Nat}
    (low : 1 ≤ myId) (high : myId ≤ config.nClients)
    (nodename : List UInt8) :
    (famezAdapterCreate myId nodename mem).readWord
      (slotAddr myId + msPeerIdOff) = 0 := by
  have found : calculateMailslot mem myId = some (slotAddr myId) := by
    unfold calculateMailslot
    rw [intact.slotsize, intact.nClients]
    rw [if_neg (by omega)]
    rfl
  unfold famezAdapterCreate
  rw [found, intact.slotsize, intact.msgOffset, if_neg (by decide),
    if_neg (by decide)]
  dsimp only
  rw [readWord_write_of_disjoint]
  · apply readWord_of_zero
    intro k inside
    have within : msPeerIdOff + k <
        (List.replicate mailboxSlotsize (0 : UInt8)).length := by
      rw [List.length_replicate]
      simp only [msPeerIdOff, mailboxSlotsize]
      omega
    rw [Nat.add_assoc, write_add within]
    simp
  · right
    simp only [List.length_append, List.length_take, List.length_singleton,
      msNodenameSize, msPeerIdOff]
    omega

/-- What a start of a driver does to the mailbox. -/
theorem adapterCreate_mem {myId : Nat} {nodename : List UInt8}
    (taken : Layout.step config s (.adapterCreate myId nodename) = some t) :
    (1 ≤ myId ∧ myId ≤ config.nClients) ∧
      t.mem = famezAdapterCreate myId nodename s.mem := by
  unfold Layout.step at taken
  dsimp only at taken
  split at taken
  · rename_i valid
    -- the unifier must not look into the cleared slot
    generalize famezAdapterCreate myId nodename s.mem = mem at taken ⊢
    cases taken
    exact ⟨valid, rfl⟩
  · cases taken

/-- The driver of a client starts whatever the mailbox holds. -/
theorem adapterCreate_taken {myId : Nat}
    (valid : 1 ≤ myId ∧ myId ≤ config.nClients) (nodename : List UInt8) :
    ∃ t, Layout.step config s (.adapterCreate myId nodename) = some t := by
  unfold Layout.step
  dsimp only
  rw [if_pos valid]
  generalize famezAdapterCreate myId nodename s.mem = mem
  exact ⟨_, rfl⟩

/-- From then on a receiver answers peer 0. -/
theorem step_broken (intact : Intact config s.mem)
    (creates : ¬ NoCreate label)
    (taken : Layout.step config s label = some t) :
    ¬ Identified config t := by
  intro identified
  cases label with
  | adapterCreate myId nodename =>
      obtain ⟨⟨low, high⟩, changed⟩ := adapterCreate_mem taken
      have kept := (identified myId low (Nat.le_succ_of_le high)).peerId
      rw [changed, intact.peerId_of_create low high nodename] at kept
      omega
  | _ => exact creates trivial

/-! ### The start of a run -/

/-- Writing the peer ids of other slots changes no other word. -/
theorem readWord_foldl_peerIds {addr : Nat} (slots : List Nat)
    (mem : Memory)
    (apart : ∀ slot ∈ slots, addr + 8 ≤ slotAddr slot + msPeerIdOff ∨
      slotAddr slot + msPeerIdOff + 8 ≤ addr) :
    (slots.foldl (fun mem slot =>
      mem.writeWord (slotAddr slot + msPeerIdOff) slot) mem).readWord addr =
      mem.readWord addr := by
  induction slots generalizing mem with
  | nil => rfl
  | cons slot rest inductionHypothesis =>
      rw [List.foldl_cons, inductionHypothesis _ fun other member =>
        apart other (List.mem_cons_of_mem _ member)]
      apply readWord_write_of_disjoint
      rw [length_wordBytes]
      exact apart slot (List.mem_cons_self ..)

theorem readWord_foldl_peerId {i : Nat} (slots : List Nat) (mem : Memory)
    (member : i ∈ slots) (small : i < 2 ^ 64) :
    (slots.foldl (fun mem slot =>
      mem.writeWord (slotAddr slot + msPeerIdOff) slot) mem).readWord
      (slotAddr i + msPeerIdOff) = i := by
  induction slots generalizing mem with
  | nil => cases member
  | cons slot rest inductionHypothesis =>
      rw [List.foldl_cons]
      by_cases later : i ∈ rest
      · exact inductionHypothesis _ later
      · have here : i = slot := by
          rcases List.mem_cons.mp member with same | inside
          · exact same
          · exact False.elim (later inside)
        subst here
        rw [readWord_foldl_peerIds, readWord_writeWord,
          Nat.mod_eq_of_lt small]
        intro other inside
        have differ : other ≠ i := fun same => later (same ▸ inside)
        simp only [slotAddr, mailboxSlotsize, msPeerIdOff]
        omega

/-- The globals in the order of their addresses. -/
theorem readWord_globals (mem : Memory)
    (slotsize offset clients events server : Nat) :
    let globals := mem.write 0 (wordBytes slotsize ++ wordBytes offset ++
      wordBytes clients ++ wordBytes events ++ wordBytes server)
    globals.readWord gSlotsizeOff = slotsize % 2 ^ 64 ∧
      globals.readWord gMsgOffsetOff = offset % 2 ^ 64 ∧
      globals.readWord gNClientsOff = clients % 2 ^ 64 ∧
      globals.readWord gNEventsOff = events % 2 ^ 64 ∧
      globals.readWord gServerIdOff = server % 2 ^ 64 := by
  intro globals
  have parts : globals =
      ((((mem.writeWord 0 slotsize).writeWord 8 offset).writeWord 16
        clients).writeWord 24 events).writeWord 32 server := by
    simp only [globals, write_append, Memory.writeWord, List.length_append,
      length_wordBytes, Nat.zero_add, Nat.reduceAdd]
  -- a later word does not reach an earlier one
  have later : ∀ (m : Memory) (start addr value : Nat), start + 8 ≤ addr →
      (m.writeWord addr value).readWord start = m.readWord start :=
    fun m start addr value before =>
      readWord_write_of_disjoint (Or.inl before)
  rw [parts, gSlotsizeOff, gMsgOffsetOff, gNClientsOff, gNEventsOff,
    gServerIdOff]
  refine ⟨?_, ?_, ?_, ?_, ?_⟩
  · rw [later _ _ _ _ (by decide), later _ _ _ _ (by decide),
      later _ _ _ _ (by decide), later _ _ _ _ (by decide),
      readWord_writeWord]
  · rw [later _ _ _ _ (by decide), later _ _ _ _ (by decide),
      later _ _ _ _ (by decide), readWord_writeWord]
  · rw [later _ _ _ _ (by decide), later _ _ _ _ (by decide),
      readWord_writeWord]
  · rw [later _ _ _ _ (by decide), readWord_writeWord]
  · rw [readWord_writeWord]

/-- The server's start establishes the words. -/
theorem initializeMailbox (config : Config) (old : Memory) :
    Intact config (initializeMailbox config old) := by
  have fits := config.fits
  unfold Layout.initializeMailbox
  dsimp only
  generalize old.write 0 _ = zeroed
  apply Intact.write
  · obtain ⟨slotsize, msgOffset, nClients, -, serverId⟩ :=
      readWord_globals zeroed mailboxSlotsize msMsgOff config.nClients
        config.nEvents config.serverId
    -- every slot lies behind the globals
    have apart : ∀ addr, addr + 8 ≤ mailboxSlotsize →
        ∀ slot ∈ List.range' 1 (config.nEvents - 1),
          addr + 8 ≤ slotAddr slot + msPeerIdOff ∨
            slotAddr slot + msPeerIdOff + 8 ≤ addr := by
      intro addr small slot member
      have low := (List.mem_range'_1.mp member).1
      simp only [slotAddr, mailboxSlotsize] at small ⊢
      omega
    refine ⟨?_, ?_, ?_, ?_, fun i low high => ?_⟩
    · rw [readWord_foldl_peerIds _ _ (apart _ (by decide)), slotsize]
      rfl
    · rw [readWord_foldl_peerIds _ _ (apart _ (by decide)), msgOffset]
      rfl
    · rw [readWord_foldl_peerIds _ _ (apart _ (by decide)), nClients]
      exact Nat.mod_eq_of_lt (by omega)
    · rw [readWord_foldl_peerIds _ _ (apart _ (by decide)), serverId]
      exact Nat.mod_eq_of_lt (by rw [Config.serverId]; omega)
    · have member : i ∈ List.range' 1 (config.nEvents - 1) := by
        rw [List.mem_range'_1]
        rw [Config.serverId] at high
        rw [Config.nEvents]
        omega
      apply readWord_foldl_peerId _ _ member
      rw [Config.serverId] at high
      omega
  · rw [List.length_map]
    apply spares_nodename (Nat.succ_le_succ (Nat.zero_le _))
    cases config.smart <;> decide

end Intact

/-! ### Whole runs -/

/-- The mailbox as the server leaves it, before any driver has started. -/
def initial (config : Config) (old : Memory) : State :=
  ⟨initializeMailbox config old, fun _ => Kernel.initialCore⟩

theorem intact_initial (config : Config) (old : Memory) :
    Intact config (initial config old).mem :=
  Intact.initializeMailbox config old

/-- Every slot names its owner throughout a run exactly when no driver starts
in it. -/
theorem identified_iff_no_create (config : Config) (old : Memory)
    (trace : List Label) :
    Transition.Always (step config) (Identified config) (initial config old)
        trace ↔
      Transition.Meets (step config) (fun _ label => NoCreate label)
        (initial config old) trace := by
  have kept : ∀ s label t, Intact config s.mem → NoCreate label →
      step config s label = some t → Intact config t.mem :=
    fun _ _ _ intact noCreate taken => intact.step noCreate taken
  have good : ∀ s : State, Intact config s.mem → Identified config s :=
    fun _ intact _ low high => intact.keepsIdentity low high
  have broken : ∀ s label t, Intact config s.mem → ¬ NoCreate label →
      step config s label = some t → ¬ Identified config t :=
    fun _ _ _ intact creates taken => intact.step_broken creates taken
  exact Transition.always_iff_meets kept good broken
    (intact_initial config old)

theorem two_fit : 2 ≤ 14 := by decide

def twoClients : Config := ⟨2, true, two_fit⟩

/-- The driver of the first of two clients starts. -/
theorem identity_lost_by_create :
    ¬ Transition.Always (step twoClients) (Identified twoClients)
      (initial twoClients fun _ => 0)
      [.adapterCreate 1 ("node01.01".toList.map Char.toUInt8)] := by
  intro always
  obtain ⟨t, taken⟩ := @Intact.adapterCreate_taken twoClients
    (initial twoClients fun _ => 0) 1 (by decide)
    ("node01.01".toList.map Char.toUInt8)
  have intact := intact_initial twoClients fun _ => 0
  have creates : ¬ NoCreate (.adapterCreate 1
      ("node01.01".toList.map Char.toUInt8)) := fun impossible => impossible
  exact intact.step_broken creates taken (always.2 t taken).1

end FameZ.Layout
