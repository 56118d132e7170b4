/-
Module: FameZ.Mailbox.Crossing
Purpose: A message between the two languages: posted by a Python client or by a
  write to a bridge device, it is what a Python peer retrieves and what a read
  of a bridge device returns, whatever the others do in between.
Trusted boundary: none
Main exports: Field, Edits, Globals, Touches, owner, Waiting, Addressed, Apart,
  Posts, posts_of_sends, Arrives, mail_crosses
-/
import FameZ.Kernel.BridgeWrite
import FameZ.Kernel.ReadsInOrder
import FameZ.Mailbox.SlotIdentity
import FameZ.Mailbox.Table

namespace FameZ.Layout

open Memory
open Kernel (LinkRequest famezSidDefault)
open Kernel.Bridge (toBytes pair)
open Kernel.BridgeRead (User caller famezBridgeRead)

/-!
Everybody writes to the mailbox, but each operation writes to few fields of few
slots.  Which ones says what it leaves alone.
-/

/-- The parts of a slot that are written on their own. -/
inductive Field where
  | nodename
  | msglen
  | peerId
  | lastResponder
  | ids
  | msg
deriving Repr, DecidableEq

def Field.offset : Field → Nat
  | .nodename => 0
  | .msglen => msMsglenOff
  | .peerId => msPeerIdOff
  | .lastResponder => msLastResponderOff
  | .ids => peerSidOff
  | .msg => msMsgOff

def Field.width : Field → Nat
  | .nodename => msNodenameSize
  | .msglen | .peerId | .lastResponder => 8
  | .ids => 16
  | .msg => msMaxMsglen

/-- A row of writes to fields that `may` be written. -/
inductive Edits (may : Nat → Field → Prop) : Memory → Memory → Prop where
  | none (mem : Memory) : Edits may mem mem
  | write {mem after : Memory} {j skip : Nat} {field : Field}
      {bytes : List UInt8} (edits : Edits may mem after) (low : 1 ≤ j)
      (allowed : may j field) (inside : skip + bytes.length ≤ field.width) :
      Edits may mem (after.write (slotAddr j + field.offset + skip) bytes)
  | clear {mem after : Memory} {j : Nat} (edits : Edits may mem after)
      (low : 1 ≤ j) (allowed : ∀ field, may j field) :
      Edits may mem
        (after.write (slotAddr j) (List.replicate mailboxSlotsize 0))

variable {config : Config} {mem after : Memory} {i j : Nat}
  {may : Nat → Field → Prop}

theorem Field.inside (field : Field) :
    field.offset + field.width ≤ mailboxSlotsize := by
  cases field <;> decide

theorem Field.apart {first second : Field} (differ : first ≠ second) :
    first.offset + first.width ≤ second.offset ∨
      second.offset + second.width ≤ first.offset := by
  cases first <;> cases second <;>
    first | exact absurd rfl differ | decide

namespace Edits

theorem trans {last : Memory} (first : Edits may mem after)
    (second : Edits may after last) : Edits may mem last := by
  induction second with
  | none => exact first
  | write _ low allowed inside inductionHypothesis =>
      exact .write inductionHypothesis low allowed inside
  | clear _ low allowed inductionHypothesis =>
      exact .clear inductionHypothesis low allowed

theorem mono {more : Nat → Field → Prop} (edits : Edits may mem after)
    (weaken : ∀ j field, may j field → more j field) :
    Edits more mem after := by
  induction edits with
  | none => exact .none _
  | write _ low allowed inside inductionHypothesis =>
      exact .write inductionHypothesis low (weaken _ _ allowed) inside
  | clear _ low allowed inductionHypothesis =>
      exact .clear inductionHypothesis low fun field =>
        weaken _ _ (allowed field)

/-- From the start of a field. -/
theorem front {field : Field} {bytes : List UInt8}
    (edits : Edits may mem after) (low : 1 ≤ j) (allowed : may j field)
    (inside : bytes.length ≤ field.width) :
    Edits may mem (after.write (slotAddr j + field.offset) bytes) := by
  have whole := edits.write low allowed
    (show 0 + bytes.length ≤ field.width by omega)
  rwa [Nat.add_zero] at whole

theorem word {value : Nat} (field : Field) (edits : Edits may mem after)
    (low : 1 ≤ j) (allowed : may j field) (wide : 8 ≤ field.width) :
    Edits may mem (after.writeWord (slotAddr j + field.offset) value) :=
  edits.front low allowed (by rwa [length_wordBytes])

theorem name {bytes : List UInt8} (edits : Edits may mem after)
    (low : 1 ≤ j) (allowed : may j .nodename)
    (short : bytes.length ≤ msNodenameSize) :
    Edits may mem (after.write (slotAddr j) bytes) := by
  have whole := edits.front low allowed short
  rwa [Field.offset, Nat.add_zero] at whole

/-- A field that may not be written is kept. -/
theorem readBytes {skip n : Nat} {field : Field}
    (edits : Edits may mem after) (kept : ¬ may i field)
    (inside : skip + n ≤ field.width) :
    after.readBytes (slotAddr i + field.offset + skip) n =
      mem.readBytes (slotAddr i + field.offset + skip) n := by
  have short := field.inside
  induction edits with
  | none => rfl
  | @write _ j start other bytes _ low allowed fits inductionHypothesis =>
      rw [← inductionHypothesis]
      apply readBytes_write_of_disjoint
      have narrow := other.inside
      by_cases same : j = i
      · have differ : other ≠ field := by
          rintro rfl
          exact kept (same ▸ allowed)
        have apart := Field.apart differ
        subst same
        omega
      · simp only [slotAddr, mailboxSlotsize] at short narrow ⊢
        omega
  | @clear _ j _ low allowed inductionHypothesis =>
      rw [← inductionHypothesis]
      apply readBytes_write_of_disjoint
      have differ : j ≠ i := fun same => kept (same ▸ allowed field)
      rw [List.length_replicate]
      simp only [slotAddr, mailboxSlotsize] at short ⊢
      omega

theorem readWord {field : Field} (edits : Edits may mem after)
    (kept : ¬ may i field) (wide : 8 ≤ field.width) :
    after.readWord (slotAddr i + field.offset) =
      mem.readWord (slotAddr i + field.offset) := by
  have bytes := @readBytes mem after i may 0 8 field edits kept
    (by rwa [Nat.zero_add])
  rw [Nat.add_zero] at bytes
  rw [Memory.readWord, Memory.readWord, bytes]

/-- No slot reaches the globals. -/
theorem readGlobal {start : Nat} (edits : Edits may mem after)
    (small : start + 8 ≤ mailboxSlotsize) :
    after.readWord start = mem.readWord start := by
  induction edits with
  | none => rfl
  | @write _ j skip field bytes _ low _ _ inductionHypothesis =>
      rw [← inductionHypothesis]
      apply readWord_write_of_disjoint (.inl ?_)
      simp only [slotAddr, mailboxSlotsize] at small ⊢
      omega
  | @clear _ j _ low _ inductionHypothesis =>
      rw [← inductionHypothesis]
      apply readWord_write_of_disjoint (.inl ?_)
      simp only [slotAddr, mailboxSlotsize] at small ⊢
      omega

end Edits

/-! ### The globals -/

/-- The globals that the driver goes by. -/
structure Globals (config : Config) (mem : Memory) : Prop where
  slotsize : mem.readWord gSlotsizeOff = mailboxSlotsize
  msgOffset : mem.readWord gMsgOffsetOff = msMsgOff
  nClients : mem.readWord gNClientsOff = config.nClients
  serverId : mem.readWord gServerIdOff = config.serverId

namespace Globals

theorem of_intact (intact : Intact config mem) : Globals config mem :=
  ⟨intact.slotsize, intact.msgOffset, intact.nClients, intact.serverId⟩

theorem edits (globals : Globals config mem) (edits : Edits may mem after) :
    Globals config after :=
  ⟨(edits.readGlobal (by decide)).trans globals.slotsize,
    (edits.readGlobal (by decide)).trans globals.msgOffset,
    (edits.readGlobal (by decide)).trans globals.nClients,
    (edits.readGlobal (by decide)).trans globals.serverId⟩

/-- The driver finds the slots of the clients and of the server. -/
theorem calculateMailslot_eq (globals : Globals config mem) (j : Nat) :
    calculateMailslot mem j =
      if InDomain config j then some (slotAddr j) else none := by
  unfold calculateMailslot
  rw [globals.slotsize, globals.nClients, globals.serverId]
  by_cases valid : InDomain config j
  · obtain ⟨low, high⟩ := valid
    rw [if_pos (show InDomain config j from ⟨low, high⟩), if_neg]
    · rfl
    · rw [Config.serverId] at high ⊢
      omega
  · rw [if_neg valid, if_pos]
    simp only [InDomain, Config.serverId] at valid ⊢
    omega

theorem found (globals : Globals config mem) {slot : Nat}
    (found : calculateMailslot mem j = some slot) :
    InDomain config j ∧ slot = slotAddr j := by
  rw [globals.calculateMailslot_eq] at found
  split at found
  · rename_i valid
    exact ⟨valid, (Option.some.inj found).symm⟩
  · cases found

end Globals

/-! ### What each operation writes -/

theorem edits_fill (msg : List UInt8)
    (may_msglen : InDomain config j → may j .msglen)
    (may_msg : InDomain config j → may j .msg) :
    Edits may mem (fill config j msg mem) := by
  unfold fill
  split
  · rename_i valid
    obtain ⟨valid, short⟩ := valid
    have counted : Edits may mem
        (mem.writeWord (slotAddr j + msMsglenOff) msg.length) :=
      (Edits.none mem).word .msglen valid.1 (may_msglen valid) (by decide)
    have copied := counted.front valid.1 (may_msg valid)
      (show msg.length ≤ Field.msg.width from Nat.le_of_lt short)
    exact copied.write valid.1 (may_msg valid)
      (show msg.length + [(0 : UInt8)].length ≤ Field.msg.width from short)
  · exact .none mem

theorem edits_retrieve {clear : Bool}
    (may_msglen : clear = true → may j .msglen) :
    Edits may mem (retrieve config j clear mem) := by
  unfold retrieve
  split
  · rename_i valid
    exact (Edits.none mem).word .msglen valid.1.1 (may_msglen valid.2)
      (by decide)
  · exact .none mem

theorem edits_clearMailslot (nodename : List UInt8)
    (may_nodename : may j .nodename) :
    Edits may mem (clearMailslot config j nodename mem) := by
  unfold clearMailslot
  split
  · rename_i valid
    have zeroed : Edits may mem
        (mem.write (slotAddr j) (List.replicate msNodenameSize 0)) := by
      apply (Edits.none mem).name valid.1 may_nodename
      rw [List.length_replicate]
    dsimp only
    split
    · rename_i short
      exact zeroed.name valid.1 may_nodename (Nat.le_of_lt short)
    · exact zeroed
  · exact .none mem

/-- The driver's start clears its slot as a whole. -/
theorem edits_adapterCreate (globals : Globals config mem)
    (nodename : List UInt8) (may_all : ∀ field, may j field) :
    Edits may mem (famezAdapterCreate j nodename mem) := by
  unfold famezAdapterCreate
  rw [globals.slotsize, globals.msgOffset, if_neg (by decide),
    if_neg (by decide)]
  split
  · exact .none mem
  · rename_i slot found
    obtain ⟨valid, rfl⟩ := globals.found found
    have cleared := (Edits.none mem).clear valid.1 may_all
    apply cleared.name valid.1 (may_all .nodename)
    rw [List.length_append, List.length_take, List.length_singleton,
      msNodenameSize]
    omega

/-- A message from slot `j` is allowed, or the slot is busy and stays so. -/
def MayPost (may : Nat → Field → Prop) (mem : Memory) (j : Nat) : Prop :=
  may j .msglen ∧ may j .lastResponder ∧ may j .msg ∨
    ¬ may j .msglen ∧ mem.readWord (slotAddr j + msMsglenOff) ≠ 0

theorem MayPost.edits (mayPost : MayPost may mem j)
    (edits : Edits may mem after) : MayPost may after j := by
  rcases mayPost with allowed | ⟨kept, busy⟩
  · exact .inl allowed
  · refine .inr ⟨kept, ?_⟩
    have same := edits.readWord kept (by decide)
    rw [Field.offset] at same
    rw [same]
    exact busy

theorem edits_createOutgoing (globals : Globals config mem) {cid sid : Int}
    {buf : List UInt8} (mayPost : InDomain config j → MayPost may mem j) :
    Edits may mem (famezCreateOutgoing j cid sid buf mem) := by
  unfold famezCreateOutgoing
  split
  · rename_i slot peerId found passes
    obtain ⟨valid, rfl⟩ := globals.found found
    have short : buf.length < msMaxMsglen := by
      have room :=
        (Kernel.BridgeWrite.createOutgoing_ok_iff.mp passes).2.2.2.1
      rwa [maxBuflen, globals.slotsize, globals.msgOffset] at room
    split
    · rename_i idle
      rcases mayPost valid with ⟨may_msglen, may_last, may_msg⟩ | ⟨-, busy⟩
      · have counted : Edits may mem
            (mem.writeWord (slotAddr j + msMsglenOff) buf.length) :=
          (Edits.none mem).word .msglen valid.1 may_msglen (by decide)
        have ended := counted.write valid.1 may_msg
          (show buf.length + [(0 : UInt8)].length ≤ Field.msg.width from
            short)
        have named := @Edits.word _ _ _ _ peerId .lastResponder ended valid.1
          may_last (by decide)
        exact named.front valid.1 may_msg (Nat.le_of_lt short)
      · exact absurd idle busy
    · exact .none mem
  · exact .none mem

/-- The ids that the driver computes for slot `j`. -/
def address (j : Nat) (mem : Memory) : Memory :=
  (mem.writeWord (slotAddr j + peerSidOff) famezSidDefault).writeWord
    (slotAddr j + peerCidOff)
    (mem.readWord (slotAddr j + msPeerIdOff) * 100 % 2 ^ 64)

theorem edits_address (low : 1 ≤ j) (allowed : may j .ids) :
    Edits may mem (address j mem) := by
  have first : Edits may mem
      (mem.writeWord (slotAddr j + peerSidOff) famezSidDefault) :=
    (Edits.none mem).word .ids low allowed (by decide)
  have inside : 8 + (wordBytes (mem.readWord (slotAddr j + msPeerIdOff) *
      100 % 2 ^ 64)).length ≤ Field.ids.width := by
    rw [length_wordBytes]
    decide
  have second := first.write low allowed inside
  have place : slotAddr j + Field.ids.offset + 8 = slotAddr j + peerCidOff :=
    Nat.add_assoc ..
  rw [place] at second
  exact second

section

variable {s t : State} {myId : Nat}

/-- A message that is no request only gets its ids. -/
theorem linkRequest_unanswered
    (unanswered : (Kernel.famezLinkRequest (loadSlot s.mem (slotAddr j))
      (s.core myId)).2.2 = none) :
    (linkRequest myId (slotAddr j) s).mem = address j s.mem := by
  have filled := Kernel.famezLinkRequest_slot (loadSlot s.mem (slotAddr j))
    (s.core myId)
  unfold linkRequest
  rcases result : Kernel.famezLinkRequest (loadSlot s.mem (slotAddr j))
    (s.core myId) with ⟨slot, core, answer⟩
  rw [result] at filled unanswered
  dsimp only at filled unanswered
  rw [filled, unanswered]
  rfl

/-- A request is answered from the slot of the driver. -/
theorem linkRequest_answered {reply : Kernel.Reply}
    (answers : (Kernel.famezLinkRequest (loadSlot s.mem (slotAddr j))
      (s.core myId)).2.2 = some reply) :
    (linkRequest myId (slotAddr j) s).mem =
      famezCreateOutgoing myId reply.peerId
        Kernel.Outgoing.famezSidCidIsPeerId (reply.text.map Char.toUInt8)
        ((address j s.mem).writeWord (slotAddr j + msMsglenOff) 0) := by
  have filled := Kernel.famezLinkRequest_slot (loadSlot s.mem (slotAddr j))
    (s.core myId)
  unfold linkRequest
  rcases result : Kernel.famezLinkRequest (loadSlot s.mem (slotAddr j))
    (s.core myId) with ⟨slot, core, answer⟩
  rw [result] at filled answers
  dsimp only at filled answers
  rw [filled, answers]
  rfl

theorem edits_linkRequest (globals : Globals config s.mem) (low : 1 ≤ j)
    (may_ids : may j .ids)
    (answered : (Kernel.famezLinkRequest (loadSlot s.mem (slotAddr j))
      (s.core myId)).2.2 ≠ none → may j .msglen)
    (mayPost : InDomain config myId → MayPost may s.mem myId) :
    Edits may s.mem (linkRequest myId (slotAddr j) s).mem := by
  have addressed := @edits_address s.mem j may low may_ids
  cases answer : (Kernel.famezLinkRequest (loadSlot s.mem (slotAddr j))
    (s.core myId)).2.2 with
  | none =>
      rw [linkRequest_unanswered answer]
      exact addressed
  | some reply =>
      rw [linkRequest_answered answer]
      have allowed := answered (by rw [answer]; exact Option.some_ne_none _)
      have emptied := @Edits.word s.mem _ j may 0 .msglen addressed low
        allowed (by decide)
      apply emptied.trans
      apply edits_createOutgoing (globals.edits emptied)
      intro valid
      exact (mayPost valid).edits emptied

end

/-! ### Who a slot belongs to -/

/-- A driver starts in slot `i`. -/
def starts (i : Nat) : Label → Bool
  | .adapterCreate myId _ => decide (myId = i)
  | _ => false

/-- The peer id in slot `i` behind a run: a driver that started has cleared
it. -/
def owner (i : Nat) (trace : List Label) : Nat :=
  if trace.any (starts i) then 0 else i

/-- The fields that a message changes. -/
def Field.Posted (field : Field) : Prop :=
  field = .msglen ∨ field = .lastResponder ∨ field = .msg

/-- The fields that an operation may change at most. -/
def Touches : Label → Nat → Field → Prop
  | .fill senderId _, j, field => j = senderId ∧ field.Posted
  | .retrieve peerId clear, j, field =>
      j = peerId ∧ clear = true ∧ field = .msglen
  | .clearMailslot id _, j, field | .initMailslot id _, j, field =>
      j = id ∧ field = .nodename
  | .adapterCreate myId _, j, _ => j = myId
  | .createOutgoing myId _ _ _, j, field => j = myId ∧ field.Posted
  | .linkRequest myId slotnum, j, field =>
      j = slotnum ∧ (field = .ids ∨ field = .msglen) ∨ j = myId ∧ field.Posted
  | .releaseIncoming slotnum, j, field => j = slotnum ∧ field = .msglen

section

variable {s t : State} {label : Label}

theorem edits_step (globals : Globals config s.mem)
    (taken : step config s label = some t) :
    Edits (Touches label) s.mem t.mem := by
  cases label with
  | fill senderId msg =>
      cases taken
      exact edits_fill msg (fun _ => ⟨rfl, .inl rfl⟩)
        (fun _ => ⟨rfl, .inr (.inr rfl)⟩)
  | retrieve peerId clear =>
      cases taken
      exact edits_retrieve fun clears => ⟨rfl, clears, rfl⟩
  | clearMailslot id nodename =>
      cases taken
      exact edits_clearMailslot nodename ⟨rfl, rfl⟩
  | initMailslot id nodename =>
      cases taken
      exact edits_clearMailslot nodename ⟨rfl, rfl⟩
  | adapterCreate myId nodename =>
      rw [(Intact.adapterCreate_mem taken).2]
      exact edits_adapterCreate globals nodename fun _ => rfl
  | createOutgoing myId cid sid buf =>
      cases taken
      exact edits_createOutgoing globals fun _ =>
        .inl ⟨⟨rfl, .inl rfl⟩, ⟨rfl, .inr (.inl rfl)⟩, ⟨rfl, .inr (.inr rfl)⟩⟩
  | linkRequest myId slotnum =>
      obtain ⟨slot, found, rfl⟩ := Option.map_eq_some_iff.mp taken
      obtain ⟨valid, rfl⟩ := globals.found found
      exact edits_linkRequest globals valid.1 (.inl ⟨rfl, .inl rfl⟩)
        (fun _ => .inl ⟨rfl, .inr rfl⟩) fun _ =>
          .inl ⟨.inr ⟨rfl, .inl rfl⟩, .inr ⟨rfl, .inr (.inl rfl)⟩,
            .inr ⟨rfl, .inr (.inr rfl)⟩⟩
  | releaseIncoming slotnum =>
      obtain ⟨slot, found, rfl⟩ := Option.map_eq_some_iff.mp taken
      obtain ⟨valid, rfl⟩ := globals.found found
      exact (Edits.none _).word .msglen valid.1 ⟨rfl, rfl⟩ (by decide)

/-- The interrupt handler finds every slot. -/
theorem linkRequest_taken (globals : Globals config s.mem)
    (valid : InDomain config j) (myId : Nat) :
    step config s (.linkRequest myId j) =
      some (linkRequest myId (slotAddr j) s) := by
  have found : calculateMailslot s.mem j = some (slotAddr j) := by
    rw [globals.calculateMailslot_eq, if_pos valid]
  rw [step, found]
  rfl

/-- Nothing but the start of a driver changes a peer id. -/
theorem touches_peerId (touches : Touches label i .peerId) :
    starts i label = true := by
  cases label with
  | adapterCreate myId nodename => exact decide_eq_true touches.symm
  | _ => simp [Touches, Field.Posted] at touches

/-- The start of a driver clears its slot behind the node name. -/
theorem readWord_adapterCreate (globals : Globals config mem)
    (valid : InDomain config i) (nodename : List UInt8) (off : Nat)
    (low : msNodenameSize ≤ off) (high : off + 8 ≤ mailboxSlotsize) :
    (famezAdapterCreate i nodename mem).readWord (slotAddr i + off) = 0 := by
  have found : calculateMailslot mem i = some (slotAddr i) := by
    rw [globals.calculateMailslot_eq, if_pos valid]
  unfold famezAdapterCreate
  rw [found, globals.slotsize, globals.msgOffset, if_neg (by decide),
    if_neg (by decide)]
  dsimp only
  rw [readWord_write_of_disjoint]
  · apply readWord_of_zero
    intro k inside
    have within : off + k <
        (List.replicate mailboxSlotsize (0 : UInt8)).length := by
      rw [List.length_replicate]
      omega
    rw [Nat.add_assoc, write_add within, List.getElem_replicate]
  · right
    simp only [List.length_append, List.length_take, List.length_singleton,
      msNodenameSize] at low ⊢
    omega

theorem peerId_step (globals : Globals config s.mem)
    (valid : InDomain config i) (taken : step config s label = some t) :
    t.mem.readWord (slotAddr i + msPeerIdOff) =
      if starts i label = true then 0
      else s.mem.readWord (slotAddr i + msPeerIdOff) := by
  split
  · rename_i started
    cases label with
    | adapterCreate myId nodename =>
        cases of_decide_eq_true started
        rw [(Intact.adapterCreate_mem taken).2]
        exact readWord_adapterCreate globals valid nodename msPeerIdOff
          (by decide) (by decide)
    | _ => cases started
  · rename_i other
    have untouched : ¬ Touches label i .peerId := fun touches =>
      other (touches_peerId touches)
    have wide : 8 ≤ Field.width .peerId := by decide
    have same := (edits_step globals taken).readWord untouched wide
    exact same

/-- Any run keeps the globals, and the peer ids but for the starts. -/
theorem peerId_run {trace : List Label} (globals : Globals config s.mem)
    (valid : InDomain config i)
    (reached : Transition.run (step config) s trace = some t) :
    Globals config t.mem ∧
      t.mem.readWord (slotAddr i + msPeerIdOff) =
        if trace.any (starts i) = true then 0
        else s.mem.readWord (slotAddr i + msPeerIdOff) := by
  induction trace generalizing s with
  | nil =>
      cases reached
      exact ⟨globals, rfl⟩
  | cons label rest inductionHypothesis =>
      rw [Transition.run_cons] at reached
      cases taken : step config s label with
      | none => simp [taken] at reached
      | some next =>
          rw [taken, Option.bind_some] at reached
          obtain ⟨kept, peerId⟩ := inductionHypothesis
            (globals.edits (edits_step globals taken)) reached
          refine ⟨kept, ?_⟩
          rw [peerId, peerId_step globals valid taken, List.any_cons]
          cases starts i label with
          | true => simp
          | false => simp

/-- The owner of a slot in a run from the server's start. -/
theorem owner_run {old : Memory} {trace : List Label}
    (valid : InDomain config i)
    (reached : Transition.run (step config) (initial config old) trace =
      some t) :
    Globals config t.mem ∧
      t.mem.readWord (slotAddr i + msPeerIdOff) = owner i trace := by
  have intact := intact_initial config old
  obtain ⟨globals, peerId⟩ :=
    peerId_run (Globals.of_intact intact) valid reached
  rw [intact.peerId i valid.1 valid.2] at peerId
  exact ⟨globals, peerId⟩

end

/-! ### What is waiting -/

/-- A message waits in slot `i`, a NUL behind it. -/
structure Waiting (i : Nat) (msg : List UInt8) (mem : Memory) : Prop where
  msglen : mem.readWord (slotAddr i + msMsglenOff) = msg.length
  body : mem.readBytes (slotAddr i + msMsgOff) (msg.length + 1) = msg ++ [0]
  nonempty : msg ≠ []
  short : msg.length < msMaxMsglen

/-- The ids in slot `i` are those of its owner. -/
structure Addressed (i : Nat) (mem : Memory) : Prop where
  sid : mem.readWord (slotAddr i + peerSidOff) = famezSidDefault
  cid : mem.readWord (slotAddr i + peerCidOff) =
    mem.readWord (slotAddr i + msPeerIdOff) * 100 % 2 ^ 64

section

variable {msg : List UInt8}

theorem Waiting.edits (waiting : Waiting i msg mem)
    (edits : Edits may mem after) (may_msglen : ¬ may i .msglen)
    (may_msg : ¬ may i .msg) : Waiting i msg after where
  msglen := (edits.readWord may_msglen (by decide)).trans waiting.msglen
  body := by
    have kept := @Edits.readBytes mem after i may 0 (msg.length + 1) .msg
      edits may_msg (by rw [Nat.zero_add]; exact waiting.short)
    rw [Nat.add_zero] at kept
    exact kept.trans waiting.body
  nonempty := waiting.nonempty
  short := waiting.short

theorem Addressed.edits (addressed : Addressed i mem)
    (edits : Edits may mem after) (may_peerId : ¬ may i .peerId)
    (may_ids : ¬ may i .ids) : Addressed i after where
  sid := (edits.readWord may_ids (by decide)).trans addressed.sid
  cid := by
    have kept := @Edits.readBytes mem after i may 8 8 .ids edits may_ids
      (by decide)
    have place : slotAddr i + Field.ids.offset + 8 = slotAddr i + peerCidOff :=
      Nat.add_assoc ..
    rw [place] at kept
    have owner := edits.readWord may_peerId (by decide)
    rw [Field.offset] at owner
    rw [owner, ← addressed.cid, Memory.readWord, Memory.readWord, kept]

theorem addressed_address (low : 1 ≤ i) (mem : Memory) :
    Addressed i (address i mem) where
  sid := by
    have before : slotAddr i + peerSidOff + 8 ≤ slotAddr i + peerCidOff := by
      simp only [peerSidOff, peerCidOff]
      omega
    have kept : (address i mem).readWord (slotAddr i + peerSidOff) =
        (mem.writeWord (slotAddr i + peerSidOff) famezSidDefault).readWord
          (slotAddr i + peerSidOff) :=
      readWord_write_of_disjoint (.inl before)
    rw [kept, readWord_writeWord]
    rfl
  cid := by
    have edits := @edits_address mem i (fun _ field => field = .ids) low rfl
    have owner := @Edits.readWord _ _ i _ .peerId edits (by simp) (by decide)
    rw [Field.offset] at owner
    rw [owner, address, readWord_writeWord, Nat.mod_mod]

theorem Waiting.terminated (waiting : Waiting i msg mem) :
    (loadSlot mem (slotAddr i)).Terminated ∧
      (loadSlot mem (slotAddr i)).message = msg := by
  have short := waiting.short
  obtain ⟨rest, split⟩ : ∃ rest,
      (loadSlot mem (slotAddr i)).buf = msg ++ 0 :: rest := by
    have whole : msg.length + 1 + (msMaxMsglen - (msg.length + 1)) =
        msMaxMsglen := by omega
    have parts := readBytes_add mem (slotAddr i + msMsgOff) (msg.length + 1)
      (msMaxMsglen - (msg.length + 1))
    rw [whole, waiting.body, List.append_assoc] at parts
    exact ⟨_, parts⟩
  have message : (loadSlot mem (slotAddr i)).message = msg := by
    rw [Kernel.Mailslot.message, split]
    exact List.take_left' waiting.msglen.symm
  refine ⟨⟨⟨rest, ?_⟩, ?_⟩, message⟩
  · rw [message]
    exact split
  · rw [message]
    exact waiting.msglen.symm

/-- The driver leaves a message that is no request to its readers. -/
theorem Waiting.unanswered (waiting : Waiting i msg mem)
    (plain : ¬ LinkRequest msg) (core : Kernel.Core) :
    (Kernel.famezLinkRequest (loadSlot mem (slotAddr i)) core).2.2 = none := by
  obtain ⟨terminated, message⟩ := waiting.terminated
  rw [← Option.not_isSome_iff_eq_none,
    Kernel.isSome_famezLinkRequest terminated core, message]
  exact plain

end

/-! ### While a message waits -/

/-- Nobody else posts in slot `i`, empties it or starts a driver in it. -/
def Apart (i : Nat) : Label → Prop
  | .fill senderId _ => senderId ≠ i
  | .retrieve peerId clear => peerId ≠ i ∨ clear = false
  | .adapterCreate myId _ => myId ≠ i
  | .releaseIncoming slotnum => slotnum ≠ i
  | .clearMailslot _ _ | .initMailslot _ _ | .createOutgoing _ _ _ _
  | .linkRequest _ _ => True

instance (i : Nat) : (label : Label) → Decidable (Apart i label)
  | .fill senderId _ => inferInstanceAs (Decidable (senderId ≠ i))
  | .retrieve peerId clear =>
      inferInstanceAs (Decidable (peerId ≠ i ∨ clear = false))
  | .adapterCreate myId _ => inferInstanceAs (Decidable (myId ≠ i))
  | .releaseIncoming slotnum => inferInstanceAs (Decidable (slotnum ≠ i))
  | .clearMailslot _ _ | .initMailslot _ _ | .createOutgoing _ _ _ _
  | .linkRequest _ _ => .isTrue trivial

/-- The interrupt handler of a driver looks at slot `i`. -/
def interrupts (i : Nat) : Label → Bool
  | .linkRequest _ slotnum => decide (slotnum = i)
  | _ => false

/-- In slot `i` only the node name changes, and the ids in an interrupt. -/
def Quiet (i : Nat) (label : Label) (j : Nat) (field : Field) : Prop :=
  j = i → field = .nodename ∨ field = .ids ∧ interrupts i label = true

section

variable {s t : State} {label : Label} {msg : List UInt8} {trace : List Label}

/-- A busy slot refuses its own driver. -/
theorem Waiting.mayPost (waiting : Waiting i msg mem) (myId : Nat) :
    MayPost (Quiet i label) mem myId := by
  by_cases mine : myId = i
  · subst mine
    refine .inr ⟨?_, ?_⟩
    · simp [Quiet]
    · rw [waiting.msglen]
      exact fun empty => waiting.nonempty (List.eq_nil_of_length_eq_zero empty)
  · exact .inl ⟨fun same => absurd same mine, fun same => absurd same mine,
      fun same => absurd same mine⟩

theorem edits_apart (globals : Globals config s.mem)
    (waiting : Waiting i msg s.mem) (plain : ¬ LinkRequest msg)
    (apart : Apart i label) (taken : step config s label = some t) :
    Edits (Quiet i label) s.mem t.mem := by
  have touched := edits_step globals taken
  cases label with
  | fill senderId other =>
      refine touched.mono fun j field touches same => ?_
      exact absurd (touches.1.symm.trans same) apart
  | retrieve peerId clear =>
      refine touched.mono fun j field touches same => ?_
      rcases apart with other | keeps
      · exact absurd (touches.1.symm.trans same) other
      · rw [keeps] at touches
        exact absurd touches.2.1 Bool.false_ne_true
  | clearMailslot id nodename =>
      exact touched.mono fun j field touches _ => .inl touches.2
  | initMailslot id nodename =>
      exact touched.mono fun j field touches _ => .inl touches.2
  | adapterCreate myId nodename =>
      refine touched.mono fun j field touches same => ?_
      exact absurd (Eq.symm touches |>.trans same) apart
  | createOutgoing myId cid sid buf =>
      cases taken
      exact edits_createOutgoing globals fun _ => waiting.mayPost myId
  | linkRequest myId slotnum =>
      obtain ⟨slot, found, rfl⟩ := Option.map_eq_some_iff.mp taken
      obtain ⟨valid, rfl⟩ := globals.found found
      apply edits_linkRequest globals valid.1
      · exact fun same => .inr ⟨rfl, decide_eq_true same⟩
      · intro answered same
        subst same
        exact absurd (waiting.unanswered plain _) answered
      · exact fun _ => waiting.mayPost myId
  | releaseIncoming slotnum =>
      refine touched.mono fun j field touches same => ?_
      exact absurd (touches.1.symm.trans same) apart

/-- The message, its owner, and the ids once a driver has looked. -/
theorem waiting_step (globals : Globals config s.mem)
    (waiting : Waiting i msg s.mem) (plain : ¬ LinkRequest msg)
    (apart : Apart i label) (taken : step config s label = some t) :
    Waiting i msg t.mem ∧
      t.mem.readWord (slotAddr i + msPeerIdOff) =
        s.mem.readWord (slotAddr i + msPeerIdOff) ∧
      (Addressed i s.mem ∨ interrupts i label = true →
        Addressed i t.mem) := by
  have edits := edits_apart globals waiting plain apart taken
  have kept : ∀ field, field ≠ .nodename → field ≠ .ids →
      ¬ Quiet i label i field := fun field noName noIds may =>
    (may rfl).elim noName fun ids => noIds ids.1
  have keptMsglen := kept .msglen (by simp) (by simp)
  have keptMsg := kept .msg (by simp) (by simp)
  have keptPeerId := kept .peerId (by simp) (by simp)
  have wide : 8 ≤ Field.width .peerId := by decide
  have same := edits.readWord keptPeerId wide
  refine ⟨waiting.edits edits keptMsglen keptMsg, same, fun addressed => ?_⟩
  by_cases looked : interrupts i label = true
  · cases label with
    | linkRequest myId slotnum =>
        cases of_decide_eq_true looked
        obtain ⟨slot, found, rfl⟩ := Option.map_eq_some_iff.mp taken
        obtain ⟨valid, rfl⟩ := globals.found found
        rw [linkRequest_unanswered (waiting.unanswered plain _)]
        exact addressed_address valid.1 s.mem
    | _ => cases looked
  · have unlooked : ¬ Quiet i label i .ids := fun may =>
      (may rfl).elim (by simp) fun ids => looked ids.2
    exact (addressed.resolve_right looked).edits edits keptPeerId unlooked

theorem waiting_run (globals : Globals config s.mem)
    (waiting : Waiting i msg s.mem) (plain : ¬ LinkRequest msg)
    (apart : ∀ label ∈ trace, Apart i label)
    (reached : Transition.run (step config) s trace = some t) :
    Waiting i msg t.mem ∧
      t.mem.readWord (slotAddr i + msPeerIdOff) =
        s.mem.readWord (slotAddr i + msPeerIdOff) ∧
      (Addressed i s.mem ∨ trace.any (interrupts i) = true →
        Addressed i t.mem) := by
  induction trace generalizing s with
  | nil =>
      cases reached
      exact ⟨waiting, rfl, fun addressed =>
        addressed.resolve_right Bool.false_ne_true⟩
  | cons label rest inductionHypothesis =>
      rw [Transition.run_cons] at reached
      cases taken : step config s label with
      | none => simp [taken] at reached
      | some next =>
          rw [taken, Option.bind_some] at reached
          obtain ⟨waits, owner, addresses⟩ := waiting_step globals waiting
            plain (apart label (List.mem_cons_self ..)) taken
          obtain ⟨still, same, later⟩ := inductionHypothesis
            (globals.edits (edits_step globals taken)) waits
            (fun other member => apart other (List.mem_cons_of_mem _ member))
            reached
          refine ⟨still, same.trans owner, fun addressed => later ?_⟩
          rw [List.any_cons, Bool.or_eq_true, ← or_assoc] at addressed
          exact addressed.imp_left addresses

end

/-! ### Posting -/

/-- A message is posted in slot `i`: by a Python client, or by a write of a
header and the message to a bridge device, whose stores go to the slot. -/
inductive Posts (config : Config) (i : Nat) (msg : List UInt8) (s : State) :
    State → Prop where
  | client (nonempty : msg ≠ []) (short : msg.length < msMaxMsglen) :
      Posts config i msg s { s with mem := fill config i msg s.mem }
  | bridge {device : Kernel.BridgeWrite.Device}
      {waits : Kernel.BridgeWrite.Waits} {header : List UInt8} {ret : Int}
      {written : Kernel.BridgeWrite.State} {mem : Memory}
      (mapped : device.state.slot = loadSlot s.mem (slotAddr i))
      (first : 58 ∉ header) (noNul : 0 ∉ header)
      (write : Kernel.BridgeWrite.famezBridgeWrite device.adapter waits
        (header ++ 58 :: msg) device.state = some (ret, written))
      (sent : 0 ≤ ret)
      (stored : loadSlot mem (slotAddr i) = written.slot)
      (others : ∀ a, a < slotAddr i ∨ slotAddr (i + 1) ≤ a →
        mem a = s.mem a) :
      Posts config i msg s { s with mem := mem }

section

variable {s t : State} {msg : List UInt8}

theorem waiting_fill (valid : InDomain config i) (nonempty : msg ≠ [])
    (short : msg.length < msMaxMsglen) :
    Waiting i msg (fill config i msg mem) := by
  have width : msg.length < 2 ^ 64 := Nat.lt_trans short (by decide)
  refine ⟨?_, ?_, nonempty, short⟩
  · rw [fill, if_pos ⟨valid, short⟩, readWord_write_of_disjoint,
      readWord_write_of_disjoint, readWord_writeWord, Nat.mod_eq_of_lt width]
    · left
      rw [msMsglenOff, msMsgOff]
      omega
    · left
      rw [msMsglenOff, msMsgOff]
      omega
  · have whole := readBytes_write_self
      (mem.writeWord (slotAddr i + msMsglenOff) msg.length)
      (slotAddr i + msMsgOff) (msg ++ [0])
    rw [write_append, List.length_append, List.length_singleton] at whole
    rw [fill, if_pos ⟨valid, short⟩]
    exact whole

/-- A write that is sent fits the slot and leaves the message in it. -/
theorem delivers_of_write {device : Kernel.BridgeWrite.Device}
    {waits : Kernel.BridgeWrite.Waits} {header : List UInt8} {ret : Int}
    {written : Kernel.BridgeWrite.State} (first : 58 ∉ header)
    (noNul : 0 ∉ header)
    (write : Kernel.BridgeWrite.famezBridgeWrite device.adapter waits
      (header ++ 58 :: msg) device.state = some (ret, written))
    (sent : 0 ≤ ret) :
    msg ≠ [] ∧ msg.length < device.adapter.maxBuflen ∧
      ∃ peer, Kernel.BridgeWrite.Delivers device.state.slot written.slot msg
        peer := by
  by_cases short :
      (header ++ 58 :: msg).length < device.adapter.maxBuflen - 1
  · have splits : Kernel.BridgeWrite.Splits (header ++ 58 :: msg) header msg :=
      ⟨rfl, first, noNul⟩
    obtain ⟨result, returns, outcome⟩ :=
      @Kernel.BridgeWrite.written_of_splits device waits _ header msg short
        splits
    rw [write] at returns
    cases returns
    cases outcome with
    | @sent _ _ _ peer sends delivers rings =>
        obtain ⟨rfl, rfl⟩ := splits.unique sends.splits
        refine ⟨sends.nonempty, ?_, peer, delivers⟩
        rw [List.length_append, List.length_cons] at short
        omega
    | failed fails negative slot rung => omega
  · rw [Kernel.BridgeWrite.famezBridgeWrite, if_pos (Nat.not_lt.mp short)]
      at write
    cases write
    exact absurd sent (by decide)

/-- The stores of a write to a bridge device whose slot becomes `slot`. -/
def storeSlot (i : Nat) (slot : Kernel.Mailslot) (mem : Memory) : Memory :=
  ((mem.writeWord (slotAddr i + msMsglenOff) slot.buflen).writeWord
    (slotAddr i + msLastResponderOff) slot.lastResponder).write
      (slotAddr i + msMsgOff) slot.buf

theorem loadSlot_storeSlot {slot : Kernel.Mailslot}
    (size : slot.buf.length = msMaxMsglen) (short : slot.buflen < 2 ^ 64)
    (narrow : slot.lastResponder < 2 ^ 64)
    (peerId : slot.peerId = mem.readWord (slotAddr i + msPeerIdOff))
    (peerSid : slot.peerSid = mem.readWord (slotAddr i + peerSidOff))
    (peerCid : slot.peerCid = mem.readWord (slotAddr i + peerCidOff)) :
    loadSlot (storeSlot i slot mem) (slotAddr i) = slot := by
  have below : ∀ off, off + 8 ≤ msMsgOff →
      (storeSlot i slot mem).readWord (slotAddr i + off) =
        ((mem.writeWord (slotAddr i + msMsglenOff) slot.buflen).writeWord
          (slotAddr i + msLastResponderOff) slot.lastResponder).readWord
            (slotAddr i + off) :=
    fun off low => readWord_write_of_disjoint (.inl (by omega))
  have kept : ∀ off, off + 8 ≤ msMsgOff →
      (off + 8 ≤ msMsglenOff ∨ msMsglenOff + 8 ≤ off) →
      (off + 8 ≤ msLastResponderOff ∨ msLastResponderOff + 8 ≤ off) →
      (storeSlot i slot mem).readWord (slotAddr i + off) =
        mem.readWord (slotAddr i + off) := by
    intro off low length responder
    rw [below off low, writeWord, readWord_write_of_disjoint, writeWord,
      readWord_write_of_disjoint]
    · rw [length_wordBytes]
      omega
    · rw [length_wordBytes]
      omega
  have buflen : (storeSlot i slot mem).readWord (slotAddr i + msMsglenOff) =
      slot.buflen := by
    rw [below _ (by decide), writeWord, readWord_write_of_disjoint,
      readWord_writeWord, Nat.mod_eq_of_lt short]
    left
    rw [msMsglenOff, msLastResponderOff]
    omega
  have lastResponder : (storeSlot i slot mem).readWord
      (slotAddr i + msLastResponderOff) = slot.lastResponder := by
    rw [below _ (by decide), readWord_writeWord, Nat.mod_eq_of_lt narrow]
  have buf : (storeSlot i slot mem).readBytes (slotAddr i + msMsgOff)
      msMaxMsglen = slot.buf := by
    rw [← size]
    exact readBytes_write_self ..
  rw [loadSlot, buflen, lastResponder, buf,
    kept msPeerIdOff (by decide) (by decide) (by decide),
    kept peerSidOff (by decide) (by decide) (by decide),
    kept peerCidOff (by decide) (by decide) (by decide), ← peerId, ← peerSid,
    ← peerCid]

theorem storeSlot_outside {slot : Kernel.Mailslot} {a : Nat}
    (size : slot.buf.length = msMaxMsglen)
    (outside : a < slotAddr i ∨ slotAddr (i + 1) ≤ a) :
    storeSlot i slot mem a = mem a := by
  have next : slotAddr (i + 1) = slotAddr i + mailboxSlotsize :=
    Nat.succ_mul i mailboxSlotsize
  rw [next] at outside
  have length := length_wordBytes slot.buflen
  have responder := length_wordBytes slot.lastResponder
  simp only [mailboxSlotsize, msMaxMsglen] at outside size
  unfold storeSlot writeWord
  simp only [msMsgOff, msMsglenOff, msLastResponderOff]
  rcases outside with before | after
  · rw [write_of_lt, write_of_lt, write_of_lt]
    all_goals omega
  · rw [write_of_ge, write_of_ge, write_of_ge]
    all_goals omega

/-- Every write that sends, to a bridge device whose slot is slot `i`, posts its
message there. -/
theorem posts_of_sends {device : Kernel.BridgeWrite.Device}
    {waits : Kernel.BridgeWrite.Waits} {header : List UInt8} {peer : Nat}
    (mapped : device.state.slot = loadSlot s.mem (slotAddr i))
    (sends : Kernel.BridgeWrite.Sends device waits (header ++ 58 :: msg)
      header msg peer) : ∃ t, Posts config i msg s t := by
  obtain ⟨⟨ret, written⟩, write, outcome⟩ :=
    Kernel.BridgeWrite.famezBridgeWrite_written device waits
      (header ++ 58 :: msg)
  cases outcome with
  | failed fails negative slot rung =>
      exact absurd sends (fails header msg peer)
  | @sent _ otherHeader otherBody otherPeer other delivers rings =>
      obtain ⟨-, rfl⟩ := sends.splits.unique other.splits
      have narrow := device.adapter.narrow
      have high := other.high
      have short := other.short
      rw [List.length_append, List.length_cons] at short
      have room : device.state.slot.buf.length = msMaxMsglen := by
        rw [mapped]
        exact length_readBytes ..
      have full : device.adapter.maxBuflen = msMaxMsglen :=
        device.slotSize.symm.trans room
      have size : written.slot.buf.length = msMaxMsglen := by
        obtain ⟨inside, -⟩ := List.getElem?_eq_some_iff.mp delivers.nul
        have behind := congrArg List.length delivers.behind
        rw [List.length_drop, List.length_drop] at behind
        omega
      have small : msMaxMsglen < 2 ^ 64 := by decide
      refine ⟨_, .bridge mapped sends.first sends.noNul write
        (Int.natCast_nonneg _) (loadSlot_storeSlot size ?_ ?_ ?_ ?_ ?_)
        fun a outside => storeSlot_outside size outside⟩
      · rw [delivers.buflen]
        omega
      · rw [delivers.lastResponder]
        omega
      · rw [delivers.others.1, mapped, loadSlot]
      · rw [delivers.others.2.1, mapped, loadSlot]
      · rw [delivers.others.2.2, mapped, loadSlot]

/-- Whoever posts, the message then waits, and nothing else that counts has
changed. -/
theorem Posts.waiting (posts : Posts config i msg s t)
    (globals : Globals config s.mem) (valid : InDomain config i) :
    Globals config t.mem ∧ Waiting i msg t.mem ∧
      t.mem.readWord (slotAddr i + msPeerIdOff) =
        s.mem.readWord (slotAddr i + msPeerIdOff) := by
  cases posts with
  | client nonempty short =>
      have edits := @edits_fill config s.mem i
        (fun _ field => field = .msglen ∨ field = .msg) msg
        (fun _ => .inl rfl) (fun _ => .inr rfl)
      exact ⟨globals.edits edits, waiting_fill valid nonempty short,
        @Edits.readWord _ _ i _ .peerId edits (by simp) (by decide)⟩
  | @bridge device waits header ret written mem mapped first noNul write sent
      stored others =>
      obtain ⟨nonempty, short, peer, delivers⟩ :=
        delivers_of_write first noNul write sent
      have size : device.adapter.maxBuflen = msMaxMsglen := by
        rw [← device.slotSize, mapped]
        exact length_readBytes ..
      rw [size] at short
      have low : mailboxSlotsize ≤ slotAddr i :=
        Nat.le_mul_of_pos_left _ valid.1
      have kept : ∀ start, start + 8 ≤ mailboxSlotsize →
          mem.readWord start = s.mem.readWord start := by
        intro start small
        exact congrArg wordValue (readBytes_congr fun a _ high =>
          others a (.inl (by omega)))
      have msglen := delivers.buflen
      have held := delivers.held
      have nul := delivers.nul
      have owner := delivers.others.1
      rw [← stored] at msglen held nul owner
      rw [mapped] at owner
      have parts := readBytes_add mem (slotAddr i + msMsgOff)
        (msg.length + 1) (msMaxMsglen - (msg.length + 1))
      rw [show msg.length + 1 + (msMaxMsglen - (msg.length + 1)) =
        msMaxMsglen by omega] at parts
      have body : mem.readBytes (slotAddr i + msMsgOff) (msg.length + 1) =
          msg ++ [0] := by
        have prefix_ : mem.readBytes (slotAddr i + msMsgOff)
            (msg.length + 1) =
              (loadSlot mem (slotAddr i)).buf.take (msg.length + 1) := by
          rw [loadSlot, parts, List.take_left' (length_readBytes ..)]
        rw [prefix_, List.take_add_one, held, nul]
        rfl
      refine ⟨⟨?_, ?_, ?_, ?_⟩, ⟨msglen, body, nonempty, short⟩, owner⟩
      · exact (kept _ (by decide)).trans globals.slotsize
      · exact (kept _ (by decide)).trans globals.msgOffset
      · exact (kept _ (by decide)).trans globals.nClients
      · exact (kept _ (by decide)).trans globals.serverId

end

/-! ### Arriving -/

/-- What a bridge device shows of a message from `peer`: the CID and the SID of
the sender, and the message. -/
def shown (peer : Nat) (msg : List UInt8) : List UInt8 :=
  toBytes (pair (peer * 100) famezSidDefault) ++ 58 :: msg

/-- The message in slot `i` reaches every reader: a Python peer retrieves it,
and a driver that has looked at the slot shows it to a user. -/
structure Arrives (config : Config) (i peer : Nat) (msg : List UInt8)
    (later : List Label) (mem : Memory) : Prop where
  client : ∀ size name, slotAddr (i + 1) ≤ size →
    Utf8.decode (Mapped.nodename mem i) = some name → ∀ asbytes clear,
      Mapped.Performs i (Mapped.retrieve config.serverId i asbytes clear) size
        mem (((Mapped.Message.bytes msg).given asbytes).map (Prod.mk name))
        (retrieve config i clear mem)
  bridge : (∃ myId, .linkRequest myId i ∈ later) →
    ∀ bytes buflen behind, (shown peer msg).length ≤ buflen →
      ∃ user : User, famezBridgeRead (loadSlot mem (slotAddr i)) buflen
          (caller bytes buflen behind) =
            (((shown peer msg).length : Int), user) ∧
        user.bytes.readBytes 0 (shown peer msg).length = shown peer msg

section

variable {msg : List UInt8} {peer : Nat}

theorem Waiting.message (waiting : Waiting i msg mem) :
    mem.readBytes (slotAddr i + msMsgOff) msg.length = msg := by
  have body := waiting.body
  rw [readBytes_add] at body
  exact List.append_inj_left body (length_readBytes ..)

theorem Waiting.retrieved (waiting : Waiting i msg mem)
    (valid : InDomain config i) {size : Nat} {name : List Char}
    (room : slotAddr (i + 1) ≤ size)
    (named : Utf8.decode (Mapped.nodename mem i) = some name)
    (asbytes clear : Bool) :
    Mapped.Performs i (Mapped.retrieve config.serverId i asbytes clear) size
      mem (((Mapped.Message.bytes msg).given asbytes).map (Prod.mk name))
      (retrieve config i clear mem) := by
  have holds : Mapped.Holds mem i ⟨name, .bytes msg⟩ :=
    ⟨named, waiting.msglen, waiting.message, waiting.short⟩
  exact Mapped.performs_retrieve valid room holds

/-- A slot with a message and its ids is one that a bridge device can read. -/
theorem Waiting.sender (waiting : Waiting i msg mem)
    (addressed : Addressed i mem)
    (owner : mem.readWord (slotAddr i + msPeerIdOff) = peer)
    (narrow : peer ≤ 65535) :
    ∃ sender : Kernel.BridgeRead.Sender,
      sender.slot = loadSlot mem (slotAddr i) ∧
      sender.text = shown peer msg := by
  have message := waiting.terminated.2
  have cid : (loadSlot mem (slotAddr i)).peerCid = peer * 100 := by
    have computed := addressed.cid
    rw [owner, Nat.mod_eq_of_lt (by omega)] at computed
    exact computed
  refine
    ⟨{ slot := loadSlot mem (slotAddr i)
       maxBuflen := msMaxMsglen
       peer := owner.trans_le narrow
       cid := cid.trans (congrArg (fun id => id * 100) owner.symm)
       sid := addressed.sid
       short := waiting.msglen.trans_lt waiting.short
       body := length_readBytes ..
       wide := by decide }, rfl, ?_⟩
  rw [Kernel.BridgeRead.Sender.text, Kernel.Bridge.toBytes_address, shown]
  have sid : (loadSlot mem (slotAddr i)).peerSid = famezSidDefault :=
    addressed.sid
  dsimp only
  rw [Kernel.Mailslot.message] at message
  rw [cid, sid, message]

theorem Waiting.reads (waiting : Waiting i msg mem)
    (addressed : Addressed i mem)
    (owner : mem.readWord (slotAddr i + msPeerIdOff) = peer)
    (narrow : peer ≤ 65535) (bytes : Memory) {buflen : Nat} (behind : Nat)
    (fits : (shown peer msg).length ≤ buflen) :
    ∃ user : User, famezBridgeRead (loadSlot mem (slotAddr i)) buflen
        (caller bytes buflen behind) =
          (((shown peer msg).length : Int), user) ∧
      user.bytes.readBytes 0 (shown peer msg).length = shown peer msg := by
  obtain ⟨sender, slot, text⟩ := waiting.sender addressed owner narrow
  have reads := Kernel.BridgeRead.famezBridgeRead_reads sender bytes buflen
    behind
  have digits := Kernel.BridgeRead.length_address sender
  have total := Kernel.BridgeRead.length_text sender
  have short := waiting.short
  have msglen : sender.slot.buflen = msg.length := by
    rw [slot]
    exact waiting.msglen
  rw [← slot, ← text]
  rw [← text] at fits
  generalize famezBridgeRead sender.slot buflen
    (caller bytes buflen behind) = result at reads
  cases reads with
  | refused small => omega
  | faulted small last inside => omega
  | @copied user notSmall room holds stored =>
      have small : sender.text.length < 2 ^ 31 := by
        rw [msMaxMsglen] at short
        omega
      exact ⟨user, by rw [Kernel.BridgeWrite.int_of_lt small], holds⟩

end

/-- Behind any run from the server's start, a message that is posted and is no
request to a driver reaches every reader behind any run in which nobody else
posts in its slot, empties it or starts a driver in it. -/
theorem mail_crosses (config : Config) (old : Memory) {i : Nat}
    {msg : List UInt8} {before later : List Label} {s t u : State}
    (valid : InDomain config i)
    (reached : Transition.run (step config) (initial config old) before =
      some s)
    (posts : Posts config i msg s t) (plain : ¬ LinkRequest msg)
    (apart : ∀ label ∈ later, Apart i label)
    (continues : Transition.run (step config) t later = some u) :
    Arrives config i (owner i before) msg later u.mem := by
  obtain ⟨globals, peerId⟩ := owner_run valid reached
  obtain ⟨kept, posted, same⟩ := posts.waiting globals valid
  obtain ⟨waiting, still, addresses⟩ :=
    waiting_run kept posted plain apart continues
  have named : u.mem.readWord (slotAddr i + msPeerIdOff) = owner i before :=
    (still.trans same).trans peerId
  have narrow : owner i before ≤ 65535 := by
    have fits := config.fits
    have high := valid.2
    rw [Config.serverId] at high
    unfold owner
    split <;> omega
  refine ⟨fun size name room decoded asbytes clear =>
    waiting.retrieved valid room decoded asbytes clear, ?_⟩
  rintro ⟨myId, looked⟩ bytes buflen behind fits
  have addressed := addresses (.inr
    (List.any_eq_true.mpr ⟨_, looked, decide_eq_true rfl⟩))
  exact waiting.reads addressed named narrow bytes behind fits

def helloAll : List UInt8 := "hello".toList.map Char.toUInt8

/-- The bridge device of an adapter whose slot is slot `i`. -/
def deviceAt (adapter : Kernel.BridgeWrite.Adapter)
    (size : adapter.maxBuflen = msMaxMsglen) (i : Nat) (mem : Memory) :
    Kernel.BridgeWrite.Device where
  adapter := adapter
  state :=
    { slot := loadSlot mem (slotAddr i)
      wbuf := List.replicate adapter.maxBuflen 0
      rung := [] }
  wbufSize := List.length_replicate
  slotSize := (length_readBytes ..).trans size.symm

/-- The adapter of the second of two clients. -/
def secondAdapter : Kernel.BridgeWrite.Adapter where
  serverId := 3
  maxBuflen := msMaxMsglen
  myId := 2
  positive := by decide
  allocated := by decide
  narrow := by decide

/-- The driver of client 2 has started, and `1:hello` is written to its bridge
device. -/
theorem posts_of_second {s : State}
    (created : step twoClients (initial twoClients fun _ => 0)
      (.adapterCreate 2 []) = some s) :
    ∃ t, Posts twoClients 2 helloAll s t := by
  have started := Globals.of_intact (intact_initial twoClients fun _ => 0)
  have idle : s.mem.readWord (slotAddr 2 + msMsglenOff) = 0 := by
    have valid : InDomain twoClients 2 := by decide
    have cleared := readWord_adapterCreate started valid [] msMsglenOff
      (by decide) (by decide)
    rwa [← (Intact.adapterCreate_mem created).2] at cleared
  have sends : Kernel.BridgeWrite.Sends (deviceAt secondAdapter rfl 2 s.mem)
      ⟨[], [], []⟩ ([49] ++ 58 :: helloAll) [49] helloAll 1 :=
    { short :=
        show ([49] ++ 58 :: helloAll).length < msMaxMsglen - 1 by decide
      split := rfl
      first := by decide
      noNul := by decide
      resolves := .peerId (by decide) (by decide) (by decide)
      low := Nat.le_refl 1
      high := show 1 ≤ 3 by decide
      nonempty := by decide
      idle := .inl idle }
  have mapped : (deviceAt secondAdapter rfl 2 s.mem).state.slot =
      loadSlot s.mem (slotAddr 2) := rfl
  exact posts_of_sends mapped sends

/-- Of two clients the first is a Python one and posts, or both have a driver
and the second posts. -/
theorem mail_crosses_hello :
    (∃ u, Transition.run (step twoClients) (initial twoClients fun _ => 0)
        [.fill 1 helloAll, .linkRequest 2 1] = some u ∧
      Arrives twoClients 1 1 helloAll [.linkRequest 2 1] u.mem) ∧
    ∃ s t u, Transition.run (step twoClients)
        (initial twoClients fun _ => 0) [.adapterCreate 2 []] = some s ∧
      Posts twoClients 2 helloAll s t ∧
      Transition.run (step twoClients) t [.linkRequest 1 2] = some u ∧
      Arrives twoClients 2 0 helloAll [.linkRequest 1 2] u.mem := by
  have started := Globals.of_intact (intact_initial twoClients fun _ => 0)
  have plain : ¬ LinkRequest helloAll := by decide
  -- the interrupt behind a post
  have looks : ∀ {s t : State} {i : Nat} (myId : Nat),
      Posts twoClients i helloAll s t → Globals twoClients s.mem →
      InDomain twoClients i →
      Transition.run (step twoClients) t [.linkRequest myId i] =
        some (linkRequest myId (slotAddr i) t) := by
    intro s t i myId posts globals valid
    rw [Transition.run_cons,
      linkRequest_taken (posts.waiting globals valid).1 valid myId]
    rfl
  constructor
  · have valid : InDomain twoClients 1 := by decide
    obtain ⟨t, filled, posts⟩ : ∃ t,
        step twoClients (initial twoClients fun _ => 0) (.fill 1 helloAll) =
          some t ∧
        Posts twoClients 1 helloAll (initial twoClients fun _ => 0) t :=
      ⟨_, rfl, .client (by decide) (by decide)⟩
    have continues := looks 2 posts started valid
    refine ⟨linkRequest 2 (slotAddr 1) t, ?_, ?_⟩
    · rw [Transition.run_cons, filled, Option.bind_some]
      exact continues
    · have apart : ∀ label ∈ [Label.linkRequest 2 1], Apart 1 label := by
        decide
      have none : Transition.run (step twoClients)
          (initial twoClients fun _ => 0) [] =
            some (initial twoClients fun _ => 0) := Transition.run_nil _ _
      have mine : owner 1 [] = 1 := rfl
      have arrives := mail_crosses twoClients (fun _ => 0) valid none posts
        plain apart continues
      rwa [mine] at arrives
  · have valid : InDomain twoClients 2 := by decide
    obtain ⟨s, created⟩ : ∃ s, step twoClients
        (initial twoClients fun _ => 0) (.adapterCreate 2 []) = some s :=
      Intact.adapterCreate_taken (by decide) []
    have reached : Transition.run (step twoClients)
        (initial twoClients fun _ => 0) [.adapterCreate 2 []] = some s := by
      rw [Transition.run_cons, created]
      rfl
    obtain ⟨t, posts⟩ := posts_of_second created
    have continues := looks 1 posts (owner_run valid reached).1 valid
    have apart : ∀ label ∈ [Label.linkRequest 1 2], Apart 2 label := by
      decide
    have cleared : owner 2 [.adapterCreate 2 []] = 0 := rfl
    have arrives := mail_crosses twoClients (fun _ => 0) valid reached posts
      plain apart continues
    rw [cleared] at arrives
    exact ⟨s, t, _, reached, posts, continues, arrives⟩

end FameZ.Layout
