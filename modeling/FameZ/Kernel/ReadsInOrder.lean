/-
Module: FameZ.Kernel.ReadsInOrder
Purpose: The reads of one adapter return what was sent to it, every message
  once and each sender's messages in order.
Trusted boundary: none
Main exports: LinkRequest, Outcome, Can, shows, Careful, Faithful,
  reads_in_order
-/
import FameZ.Kernel.Orphans
import FameZ.Kernel.Release
import FameZ.Lib.Postbox
import FameZ.Lib.Simulation

namespace FameZ.Kernel

open Scanf (sscanf)

/-!
A sender's slot is a box for one message.  `fill` posts into it, and it is
emptied by the driver, which answers link requests in the interrupt, or by a
read.
-/

/-! ### What a receiver makes of a message -/

/-- The message in a busy slot. -/
def Mailslot.message (slot : Mailslot) : List UInt8 :=
  slot.buf.take slot.buflen

/-- The driver answers the message by itself, as famez_link_request decides on
its length and its text. -/
def LinkRequest (msg : List UInt8) : Prop :=
  msg.length = 4 ∧ startsWith (cstring msg) "ping".toList = true ∨
    startsWith (cstring msg) linkCtlPeerAttribute = true ∨
      (sscanf ctlWrite0SidCid (cstring msg)).length = 5

instance (msg : List UInt8) : Decidable (LinkRequest msg) :=
  inferInstanceAs (Decidable (_ ∨ _ ∨ _))

/-- What becomes of a message: the driver answers it, or a read returns it or
an error in its place. -/
inductive Outcome where
  | answered (reply : Reply)
  | returned (result : Except Errno (List UInt8))

/-- What a read puts before a message of sender `i`. -/
def readAddress (i : Nat) : List UInt8 :=
  (Scanf.decimal (i * 100 % 2 ^ 64) ++ ",".toList ++
    Scanf.decimal famezSidDefault ++ ":".toList).map Char.toUInt8

/-- What may become of a message of sender `i`. -/
def Can (i : Nat) (msg : List UInt8) : Outcome → Prop
  | .answered reply => LinkRequest msg ∧ reply.peerId = i % 2 ^ 32
  | .returned (.ok bytes) => ¬ LinkRequest msg ∧ bytes = readAddress i ++ msg
  | .returned (.error _) => ¬ LinkRequest msg

/-- What a step shows: a message for this adapter in a slot, an answer of the
driver, and the result of a read at its release. -/
def shows (adapter : Adapter) (s : State) :
    Label → List (Postbox.Event Nat (List UInt8) Outcome)
  | .fill i dest msg => if dest = adapter.myId then [.post i msg] else []
  | .irq i =>
      match (famezLinkRequest (s.slot i) s.core).2.2 with
      | some reply => [.collect i (.answered reply)]
      | none => []
  | .release r =>
      match s.reader r with
      | .copied install result => [.collect install.slot (.returned result)]
      | _ => []
  | _ => []

/-- The condition on one event: an interrupt that is left to the readers finds
the pointer free, and a release the pointer its read sampled. -/
def Careful (s : State) (label : Label) : Prop :=
  Spaced s label ∧ Undisturbed s label

instance (s : State) : (label : Label) → Decidable (Undisturbed s label)
  | .release r => inferInstanceAs (Decidable (s.disturbed r = false))
  | .fill .. | .ring .. | .elsewhere .. | .irq .. | .enter .. | .check ..
  | .wake .. | .signal .. | .sample .. | .copy .. => .isTrue trivial

instance (s : State) (label : Label) : Decidable (Careful s label) :=
  inferInstanceAs (Decidable (_ ∧ _))

/-- The message for this adapter in a slot. -/
def waiting (adapter : Adapter) (s : State) (i : Nat) : Option (List UInt8) :=
  if s.addressee i = adapter.myId ∧ (s.slot i).buflen ≠ 0 then
    some (s.slot i).message
  else none

/-! ### The text of a message -/

/-- A slot as `fill` leaves it: a NUL ends the message. -/
structure Mailslot.Terminated (slot : Mailslot) : Prop where
  ends : ∃ rest, slot.buf = slot.message ++ 0 :: rest
  length : slot.message.length = slot.buflen

theorem message_fillSlot (dest : Nat) (msg : List UInt8) (slot : Mailslot) :
    (fillSlot dest msg slot).message = msg := List.take_left' rfl

theorem cstring_terminated (msg rest : List UInt8) :
    cstring (msg ++ 0 :: rest) = cstring msg := by
  rw [cstring, cstring]
  congr 1
  induction msg with
  | nil => rfl
  | cons byte msg inductionHypothesis =>
      rw [List.cons_append, List.takeWhile_cons, List.takeWhile_cons,
        inductionHypothesis]

theorem five_fields {α : Type} : ∀ {fields : List α}, fields.length = 5 →
    ∃ a b c d e, fields = [a, b, c, d, e]
  | [a, b, c, d, e], _ => ⟨a, b, c, d, e, rfl⟩

/-- Whether the driver answers depends on the message alone. -/
theorem isSome_famezLinkRequest {slot : Mailslot}
    (terminated : slot.Terminated) (core : Core) :
    (famezLinkRequest slot core).2.2.isSome = true ↔
      LinkRequest slot.message := by
  obtain ⟨⟨rest, ends⟩, length⟩ := terminated
  have text : cstring slot.buf = cstring slot.message :=
    (congrArg cstring ends).trans (cstring_terminated _ rest)
  rw [LinkRequest, length, ← text]
  unfold famezLinkRequest
  dsimp only
  split
  · rename_i ping
    exact iff_of_true rfl (.inl ping)
  · rename_i noPing
    split
    · rename_i ask
      exact iff_of_true rfl (.inr (.inl ask))
    · rename_i noAsk
      split
      · rename_i fields
        exact iff_of_true rfl (.inr (.inr (by rw [fields]; rfl)))
      · rename_i noFields
        refine iff_of_false Bool.false_ne_true ?_
        rintro (ping | ask | five)
        · exact noPing ping
        · exact noAsk ask
        · obtain ⟨a, b, c, d, e, fields⟩ := five_fields five
          exact noFields a b c d e fields

/-- What a read makes of a slot that the interrupt left to it. -/
theorem can_bridgeRead {slot : Mailslot} {i : Nat}
    (plain : ¬ LinkRequest slot.message) (sid : slot.peerSid = famezSidDefault)
    (cid : slot.peerCid = i * 100 % 2 ^ 64) (size : Nat)
    (faults : Bool × Bool) :
    Can i slot.message (.returned (bridgeRead slot size faults)) := by
  have text : (sidcidstr slot).map Char.toUInt8 = readAddress i := by
    rw [sidcidstr, sid, cid, readAddress]
  have digits : (Scanf.decimal slot.peerCid).length ≤ 20 := by
    rw [Scanf.decimal, Nat.length_toDigits_le_iff (by decide) (by decide), cid]
    exact Nat.lt_of_lt_of_le (Nat.mod_lt _ (by decide)) (by decide)
  have short : (sidcidstr slot).length ≤ 24 := by
    have width : (Scanf.decimal slot.peerSid).length = 2 := by
      rw [sid]
      rfl
    simp only [sidcidstr, List.length_append, width]
    change _ + 1 + 2 + 1 ≤ 24
    omega
  unfold bridgeRead
  dsimp only
  split
  · exact plain
  · split
    · exact plain
    · split
      · exact plain
      · refine ⟨plain, ?_⟩
        have whole : (sidcidstr slot).take 30 = sidcidstr slot :=
          List.take_of_length_le (Nat.le_trans short (by decide))
        rw [whole, List.take_left' (List.length_map _), text]
        rfl

/-! ### The invariant -/

/-- A run of careful events: an undisturbed read has the message of the slot its
pointer is on. -/
structure Faithful (adapter : Adapter) (s : State) : Prop where
  kept : Kept adapter s
  tracked : Tracked s
  named : ∀ i, (s.slot i).peerId = i
  terminated : ∀ i, (s.slot i).buflen ≠ 0 → (s.slot i).Terminated
  announced : ∀ i, s.handled i = true → (s.slot i).buflen ≠ 0 →
    ¬ LinkRequest (s.slot i).message ∧
      (s.slot i).peerSid = famezSidDefault ∧
      (s.slot i).peerCid = i * 100 % 2 ^ 64
  copied : ∀ r install result, s.reader r = .copied install result →
    s.disturbed r = false →
      Can install.slot (s.slot install.slot).message (.returned result)

namespace Faithful

variable {adapter : Adapter} {s t : State} {label : Label}

theorem init (adapter : Adapter) : Faithful adapter init := by
  refine ⟨Kept.init adapter, Tracked.init, fun _ => rfl, ?_, nofun, nofun⟩
  intro i busy
  exact absurd rfl busy

/-- The slot under an undisturbed read holds a message for this adapter that the
interrupt left to the readers. -/
theorem held (faithful : Faithful adapter s) {r : Nat} {install : Install}
    (sampled : (s.reader r).sampled = some install)
    (quiet : s.disturbed r = false) :
    s.incoming = some install ∧ (s.slot install.slot).buflen ≠ 0 ∧
      s.handled install.slot = true ∧
      s.addressee install.slot = adapter.myId := by
  have points := faithful.tracked.own r install sampled quiet
  obtain ⟨busy, handled⟩ := faithful.kept.busy install points
  exact ⟨points, busy, handled, faithful.kept.ours _ handled⟩

/-- A step that leaves the slots alone. -/
theorem of_same (faithful : Faithful adapter s) (kept : Kept adapter t)
    (tracked : Tracked t) (slot : t.slot = s.slot)
    (handled : t.handled = s.handled)
    (copied : ∀ r install result, t.reader r = .copied install result →
      t.disturbed r = false →
        Can install.slot (s.slot install.slot).message (.returned result)) :
    Faithful adapter t := by
  refine ⟨kept, tracked, ?_, ?_, ?_, ?_⟩
  · rw [slot]
    exact faithful.named
  · rw [slot]
    exact faithful.terminated
  · rw [slot, handled]
    exact faithful.announced
  · rw [slot]
    exact copied

/-- A step that changes a slot that no undisturbed read is on. -/
theorem of_slot (faithful : Faithful adapter s) {i : Nat} {new : Mailslot}
    (kept : Kept adapter t) (tracked : Tracked t)
    (slot : t.slot = Function.update s.slot i new) (named : new.peerId = i)
    (terminated : new.buflen ≠ 0 → new.Terminated)
    (handled : ∀ j, j ≠ i → t.handled j = s.handled j)
    (announced : t.handled i = true → new.buflen ≠ 0 →
      ¬ LinkRequest new.message ∧ new.peerSid = famezSidDefault ∧
        new.peerCid = i * 100 % 2 ^ 64)
    (copied : ∀ r install result, t.reader r = .copied install result →
      t.disturbed r = false → install.slot ≠ i ∧
        s.reader r = .copied install result ∧ s.disturbed r = false) :
    Faithful adapter t := by
  refine ⟨kept, tracked, fun j => ?_, fun j => ?_, fun j => ?_, ?_⟩
  · rw [slot]
    by_cases same : j = i
    · rw [same, Function.update_self, named]
    · rw [Function.update_of_ne same]
      exact faithful.named j
  · rw [slot]
    by_cases same : j = i
    · rw [same, Function.update_self]
      exact terminated
    · rw [Function.update_of_ne same]
      exact faithful.terminated j
  · rw [slot]
    by_cases same : j = i
    · rw [same, Function.update_self]
      exact announced
    · rw [Function.update_of_ne same, handled j same]
      exact faithful.announced j
  · intro r install result copies quiet
    obtain ⟨other, before, calm⟩ := copied r install result copies quiet
    rw [slot, Function.update_of_ne other]
    exact faithful.copied r install result before calm

/-- A slot that is not for the readers is under no undisturbed read. -/
theorem copied_elsewhere (faithful : Faithful adapter s) {i r : Nat}
    {install : Install} {result : Except Errno (List UInt8)}
    (copies : s.reader r = .copied install result)
    (quiet : s.disturbed r = false)
    (free : (s.slot i).buflen = 0 ∨ s.handled i = false ∨
      s.addressee i ≠ adapter.myId) :
    install.slot ≠ i ∧ s.reader r = .copied install result ∧
      s.disturbed r = false := by
  obtain ⟨-, busy, handled, ours⟩ :=
    faithful.held (by rw [copies]; rfl) quiet
  refine ⟨?_, copies, quiet⟩
  rintro rfl
  rcases free with empty | fresh | away
  · exact busy empty
  · rw [handled] at fresh
    cases fresh
  · exact away ours

theorem fill (faithful : Faithful adapter s) {i dest : Nat} {msg : List UInt8}
    (kept : Kept adapter t) (tracked : Tracked t)
    (empty : (s.slot i).buflen = 0)
    (filled : t =
      { s with
        slot := Function.update s.slot i (fillSlot dest msg (s.slot i))
        sender := Function.update s.sender i .filled
        addressee := Function.update s.addressee i dest
        handled := Function.update s.handled i false }) :
    Faithful adapter t := by
  subst filled
  apply faithful.of_slot kept tracked rfl
  · exact faithful.named i
  · exact fun _ => ⟨⟨_, by rw [message_fillSlot]; rfl⟩, by
      rw [message_fillSlot]; rfl⟩
  · exact fun j other => Function.update_of_ne other ..
  · intro handled
    simp at handled
  · intro r install result copies quiet
    exact faithful.copied_elsewhere copies quiet (.inl empty)

/-- A step that empties a slot which is under no undisturbed read. -/
theorem empties (faithful : Faithful adapter s) {i : Nat} {new : Mailslot}
    (kept : Kept adapter t) (tracked : Tracked t)
    (slot : t.slot = Function.update s.slot i new) (empty : new.buflen = 0)
    (named : new.peerId = (s.slot i).peerId) (handled : t.handled = s.handled)
    (copied : ∀ r install result, t.reader r = .copied install result →
      t.disturbed r = false → install.slot ≠ i ∧
        s.reader r = .copied install result ∧ s.disturbed r = false) :
    Faithful adapter t := by
  apply faithful.of_slot kept tracked slot
  · rw [named, faithful.named]
  · exact fun busy => absurd empty busy
  · exact fun j _ => congrFun handled j
  · exact fun _ busy => absurd empty busy
  · exact copied

/-- No undisturbed read survives an interrupt or a release. -/
theorem disturbs {r : Nat} {install : Install}
    {result : Except Errno (List UInt8)}
    (copies : s.reader r = .copied install result)
    (quiet : s.disturb r = false) : False := by
  have sampled : (s.reader r).sampled = some install := by
    rw [copies]
    rfl
  rw [Tracked.disturb_of_sampled sampled] at quiet
  cases quiet

theorem left (faithful : Faithful adapter s) {i : Nat}
    (kept : Kept adapter t) (tracked : Tracked t)
    (pending : s.pending i = true)
    (passes : (famezLinkRequest (s.slot i) s.core).2.2 = none)
    (slot : t.slot = Function.update s.slot i
      (famezLinkRequest (s.slot i) s.core).1)
    (handled : t.handled = Function.update s.handled i true)
    (reader : t.reader = s.reader) (disturbed : t.disturbed = s.disturb) :
    Faithful adapter t := by
  have busy := (faithful.kept.rung i pending).2.1
  have terminated := faithful.terminated i busy
  have plain : ¬ LinkRequest (s.slot i).message := by
    rw [← isSome_famezLinkRequest terminated s.core, passes]
    exact Bool.false_ne_true
  have same : (famezLinkRequest (s.slot i) s.core).1 =
      { s.slot i with
        peerSid := famezSidDefault
        peerCid := (s.slot i).peerId * 100 % 2 ^ 64 } := by
    rw [famezLinkRequest_slot, passes]
    rfl
  apply faithful.of_slot kept tracked slot
  · rw [same]
    exact faithful.named i
  · rw [same]
    exact fun _ => ⟨terminated.ends, terminated.length⟩
  · intro j other
    rw [handled, Function.update_of_ne other]
  · rw [same]
    exact fun _ _ => ⟨plain, rfl, by rw [faithful.named]⟩
  · intro r install result copies quiet
    rw [reader] at copies
    rw [disturbed] at quiet
    exact (disturbs copies quiet).elim

/-- A release empties the slot at the pointer and disturbs the other reads. -/
theorem released (faithful : Faithful adapter s) {r : Nat}
    {install : Install} (kept : Kept adapter t) (tracked : Tracked t)
    (points : s.incoming = some install)
    (releases : t = (famezReleaseIncoming s).setReader r .idle) :
    Faithful adapter t := by
  subst releases
  apply @empties _ _ _ faithful install.slot
    { s.slot install.slot with buflen := 0 } kept tracked
  · simp only [famezReleaseIncoming, points]
    rfl
  · rfl
  · rfl
  · simp only [famezReleaseIncoming, points]
    rfl
  · intro q other result copies quiet
    simp only [famezReleaseIncoming, points] at copies quiet
    have copies : Function.update s.reader r .idle q =
      .copied other result := copies
    have quiet : s.disturb q = false := quiet
    by_cases same : q = r
    · rw [same, Function.update_self] at copies
      cases copies
    · rw [Function.update_of_ne same] at copies
      exact (disturbs copies quiet).elim

/-- A step of one read that copies nothing. -/
theorem reader (faithful : Faithful adapter s) {r : Nat} {new : Reader}
    (kept : Kept adapter t) (tracked : Tracked t) (slot : t.slot = s.slot)
    (handled : t.handled = s.handled)
    (reader : t.reader = Function.update s.reader r new)
    (disturbed : ∀ q, q ≠ r → t.disturbed q = s.disturbed q)
    (copied : ∀ install result, new = .copied install result →
      t.disturbed r = false →
        Can install.slot (s.slot install.slot).message (.returned result)) :
    Faithful adapter t := by
  apply faithful.of_same kept tracked slot handled
  intro q install result copies quiet
  rw [reader] at copies
  by_cases same : q = r
  · rw [same, Function.update_self] at copies
    exact copied install result copies (same ▸ quiet)
  · rw [Function.update_of_ne same] at copies
    rw [disturbed q same] at quiet
    exact faithful.copied q install result copies quiet

/-- A careful event keeps every undisturbed read faithful. -/
theorem step (faithful : Faithful adapter s) (careful : Careful s label)
    (moves : Moves adapter s label t) : Faithful adapter t := by
  have kept := faithful.kept.step careful.1 moves
  have tracked := faithful.tracked.step moves
  cases moves with
  | fill slot idle empty nonempty => exact faithful.fill kept tracked empty rfl
  | ring filled =>
      exact faithful.of_same kept tracked rfl rfl faithful.copied
  | elsewhere idle away =>
      apply faithful.empties kept tracked rfl rfl rfl rfl
      intro r install result copies quiet
      exact faithful.copied_elsewhere copies quiet (.inr (.inr away))
  | unmatched pending outside =>
      exact absurd (faithful.kept.rung _ pending).1 outside
  | consumed pending inside answers =>
      apply faithful.empties kept tracked rfl
      · rw [famezLinkRequest_slot, answers]
        rfl
      · rw [famezLinkRequest_slot]
      · rfl
      · intro r install result copies quiet
        exact faithful.copied_elsewhere copies quiet
          (.inr (.inl (faithful.kept.rung _ pending).2.2.2.1))
  | left pending inside passes =>
      exact faithful.left kept tracked pending passes rfl rfl rfl rfl
  | moved before after =>
      apply faithful.reader kept tracked rfl rfl rfl (fun _ _ => rfl)
      rintro install result rfl
      cases after
  | sampled present points =>
      apply faithful.reader kept tracked rfl rfl rfl
      · exact fun q other => Function.update_of_ne other ..
      · exact nofun
  | copied reading =>
      apply faithful.reader kept tracked rfl rfl rfl (fun _ _ => rfl)
      rintro other result same quiet
      cases same
      obtain ⟨-, busy, handled, -⟩ :=
        faithful.held (by rw [reading]; rfl) quiet
      obtain ⟨plain, sid, cid⟩ := faithful.announced _ handled busy
      exact can_bridgeRead plain sid cid ..
  | released holds free =>
      have points := faithful.tracked.own _ _ (by rw [holds]; rfl) careful.2
      exact faithful.released kept tracked points rfl

end Faithful

/-! ### Slots as boxes -/

section

variable {adapter : Adapter} {s t : State} {label : Label}

theorem waiting_congr (slot : t.slot = s.slot)
    (addressee : t.addressee = s.addressee) :
    waiting adapter t = waiting adapter s := by
  funext i
  rw [waiting, waiting, slot, addressee]

theorem waiting_of_empty {i : Nat} (empty : (s.slot i).buflen = 0) :
    waiting adapter s i = none :=
  if_neg fun busy => busy.2 empty

/-- A step on one slot changes its box alone. -/
theorem waiting_slot {i : Nat} {new : Mailslot}
    (slot : t.slot = Function.update s.slot i new)
    (addressee : ∀ j, j ≠ i → t.addressee j = s.addressee j) :
    waiting adapter t =
      Function.update (waiting adapter s) i (waiting adapter t i) := by
  funext j
  by_cases same : j = i
  · rw [same, Function.update_self]
  · rw [Function.update_of_ne same, waiting, waiting, slot,
      Function.update_of_ne same, addressee j same]

theorem waiting_emptied {i : Nat} {new : Mailslot}
    (slot : t.slot = Function.update s.slot i new) (empty : new.buflen = 0)
    (addressee : t.addressee = s.addressee) :
    waiting adapter t = Function.update (waiting adapter s) i none := by
  rw [waiting_slot slot fun j _ => congrFun addressee j, waiting_of_empty]
  rw [slot, Function.update_self, empty]

theorem waiting_filled {i dest : Nat} {msg : List UInt8} (nonempty : msg ≠ [])
    (slot : t.slot = Function.update s.slot i (fillSlot dest msg (s.slot i)))
    (addressee : t.addressee = Function.update s.addressee i dest) :
    waiting adapter t = Function.update (waiting adapter s) i
      (if dest = adapter.myId then some msg else none) := by
  have busy : (fillSlot dest msg (s.slot i)).buflen ≠ 0 := fun none =>
    nonempty (List.length_eq_zero_iff.mp none)
  rw [waiting_slot slot fun j other => by
    rw [addressee, Function.update_of_ne other]]
  congr 1
  rw [waiting, slot, addressee, Function.update_self, Function.update_self,
    message_fillSlot]
  by_cases ours : dest = adapter.myId
  · rw [if_pos ⟨ours, busy⟩, if_pos ours]
  · rw [if_neg fun waits => ours waits.1, if_neg ours]

/-- A message that the interrupt leaves to the readers stays where it is. -/
theorem waiting_left {i : Nat}
    (passes : (famezLinkRequest (s.slot i) s.core).2.2 = none)
    (slot : t.slot = Function.update s.slot i
      (famezLinkRequest (s.slot i) s.core).1)
    (addressee : t.addressee = s.addressee) :
    waiting adapter t = waiting adapter s := by
  have same : waiting adapter t i = waiting adapter s i := by
    rw [waiting, waiting, slot, addressee, Function.update_self,
      famezLinkRequest_slot, passes]
    rfl
  rw [waiting_slot slot fun j _ => congrFun addressee j, same,
    Function.update_eq_self]

/-- The steps that show nothing leave the boxes alone. -/
theorem waiting_silent (moves : Moves adapter s label t)
    (noFill : ∀ i dest msg, label ≠ .fill i dest msg)
    (noIrq : ∀ i, label ≠ .irq i) (noRelease : ∀ r, label ≠ .release r) :
    waiting adapter t = waiting adapter s := by
  cases moves with
  | fill => exact (noFill _ _ _ rfl).elim
  | unmatched => exact (noIrq _ rfl).elim
  | consumed => exact (noIrq _ rfl).elim
  | left => exact (noIrq _ rfl).elim
  | released => exact (noRelease _ rfl).elim
  | ring => exact waiting_congr rfl rfl
  | moved => exact waiting_congr rfl rfl
  | sampled => exact waiting_congr rfl rfl
  | copied => exact waiting_congr rfl rfl
  | elsewhere idle away =>
      rename_i i
      have none : waiting adapter s i = none := if_neg fun busy => away busy.1
      rw [← Function.update_eq_self i (waiting adapter s), none]
      apply @waiting_emptied _ _ _ i { s.slot i with buflen := 0 } <;> rfl

/-! ### What a step shows -/

/-- A `fill` posts its message, if it is for this adapter. -/
theorem shows_fill {i dest : Nat} {msg : List UInt8}
    (taken : step adapter s (.fill i dest msg) = some t) :
    Transition.run (Postbox.step Can) (waiting adapter s)
      (shows adapter s (.fill i dest msg)) = some (waiting adapter t) := by
  simp only [step] at taken
  split at taken
  · rename_i guard
    obtain ⟨-, -, empty, nonempty, -⟩ := guard
    cases taken
    have before : waiting adapter s i = none := waiting_of_empty empty
    refine Eq.trans ?_ (congrArg some
      (@waiting_filled _ s _ i dest msg nonempty ?_ ?_).symm)
    · by_cases ours : dest = adapter.myId
      · simp only [shows, if_pos ours]
        rw [Transition.run_cons, Postbox.step_post before]
        rfl
      · simp only [shows, if_neg ours]
        rw [← before, Function.update_eq_self]
        rfl
    · rfl
    · rfl
  · cases taken

/-- The answer of the driver collects the message. -/
theorem shows_irq (faithful : Faithful adapter s) {i : Nat}
    (moves : Moves adapter s (.irq i) t) :
    Transition.run (Postbox.step Can) (waiting adapter s)
      (shows adapter s (.irq i)) = some (waiting adapter t) := by
  cases moves with
  | unmatched pending outside =>
      exact absurd (faithful.kept.rung _ pending).1 outside
  | moved before after noRelease noIrq => exact (noIrq i rfl).elim
  | consumed pending inside answers =>
      rename_i reply
      obtain ⟨-, busy, -, -, ours⟩ := faithful.kept.rung i pending
      have request : LinkRequest (s.slot i).message := by
        rw [← isSome_famezLinkRequest (faithful.terminated i busy) s.core,
          answers]
        rfl
      have peer : reply.peerId = i % 2 ^ 32 := by
        rw [famezLinkRequest_peerId answers, faithful.named]
      have holds : waiting adapter s i = some (s.slot i).message :=
        if_pos ⟨ours, busy⟩
      have emptied : (famezLinkRequest (s.slot i) s.core).1.buflen = 0 := by
        rw [famezLinkRequest_slot, answers]
        rfl
      have fits : Can i (s.slot i).message (.answered reply) := ⟨request, peer⟩
      refine Eq.trans ?_ (congrArg some
        (@waiting_emptied _ s _ i _ ?_ emptied ?_).symm)
      · simp only [shows, answers]
        rw [Transition.run_cons, Postbox.step_collect holds fits]
        rfl
      · rfl
      · rfl
  | left pending inside passes =>
      refine Eq.trans ?_ (congrArg some
        (@waiting_left _ s _ i passes ?_ ?_).symm)
      · simp only [shows, passes]
        rfl
      · rfl
      · rfl

/-- The release of a read collects the message that it read. -/
theorem shows_release (faithful : Faithful adapter s) {r : Nat}
    (quiet : s.disturbed r = false)
    (moves : Moves adapter s (.release r) t) :
    Transition.run (Postbox.step Can) (waiting adapter s)
      (shows adapter s (.release r)) = some (waiting adapter t) := by
  cases moves with
  | moved before after noRelease => exact (noRelease r rfl).elim
  | released holds free =>
      rename_i install result
      obtain ⟨points, busy, -, ours⟩ :=
        faithful.held (by rw [holds]; rfl) quiet
      have contents : waiting adapter s install.slot =
          some (s.slot install.slot).message := if_pos ⟨ours, busy⟩
      have fits := faithful.copied r install result holds quiet
      have emptied : waiting adapter
          ((famezReleaseIncoming s).setReader r .idle) =
          Function.update (waiting adapter s) install.slot none := by
        apply @waiting_emptied _ _ _ _ { s.slot install.slot with buflen := 0 }
        · simp only [famezReleaseIncoming, points]
          rfl
        · rfl
        · simp only [famezReleaseIncoming, points]
          rfl
      rw [emptied]
      simp only [shows, holds]
      rw [Transition.run_cons, Postbox.step_collect contents fits]
      rfl

/-- A careful run shows as a run of boxes. -/
theorem simulates : Transition.Simulates (step adapter) (Postbox.step Can)
    Careful (shows adapter)
    fun s boxes => Faithful adapter s ∧ boxes = waiting adapter s := by
  intro s label t boxes related careful taken
  obtain ⟨faithful, rfl⟩ := related
  have moves := step_moves taken
  refine ⟨waiting adapter t, ?_, faithful.step careful moves, rfl⟩
  cases label with
  | fill => exact shows_fill taken
  | irq => exact shows_irq faithful moves
  | release => exact shows_release faithful careful.2 moves
  | _ =>
      refine congrArg some (waiting_silent moves ?_ ?_ ?_).symm <;>
        (intros; simp)

end

/-- What senders, driver and reads show of a run from the start. -/
def events (adapter : Adapter) (trace : List Label) :
    List (Postbox.Event Nat (List UInt8) Outcome) :=
  Transition.observe (step adapter) (shows adapter) init trace

/-- Over every run of any senders and any reads on one adapter whose interrupts
find the pointer free and whose releases find their own: the messages of each
sender are answered, returned or lost to a read that fails, once each and in
order, whole and under the sender's address, and at most the last one is still
in its slot. -/
theorem reads_in_order (adapter : Adapter) {trace : List Label} {s : State}
    (careful : Transition.Meets (step adapter) Careful init trace)
    (reached : Transition.run (step adapter) init trace = some s) (i : Nat) :
    ∃ taken, Postbox.posted i (events adapter trace) =
        taken ++ (waiting adapter s i).toList ∧
      List.Forall₂ (Can i) taken
        (Postbox.collected i (events adapter trace)) := by
  obtain ⟨boxes, runs, -, rfl⟩ := simulates.observed
    ⟨Faithful.init adapter, rfl⟩ careful reached
  have empty : waiting adapter init i = none := waiting_of_empty rfl
  have inOrder := Postbox.in_order runs i
  rwa [empty] at inOrder

/-- Senders 1 and 2 in turn, each read before the other rings, and a second
message of sender 1 on its way. -/
theorem reads_in_order_two_senders :
    let adapter : Adapter :=
      { myId := 3, nClients := 3, vectors := id,
        distinct := fun _ _ same => same }
    let trace : List Label :=
      [.fill 1 3 [104, 105], .fill 2 3 [112, 105, 110, 103], .ring 2, .ring 1,
        .irq 1, .irq 2, .enter 0 false, .check 0, .sample 0,
        .copy 0 64 (false, false), .release 0, .fill 1 3 [121, 111]]
    ∃ s, Transition.run (step adapter) init trace = some s ∧
      ∃ taken, Postbox.posted 1 (events adapter trace) =
          taken ++ (waiting adapter s 1).toList ∧
        List.Forall₂ (Can 1) taken
          (Postbox.collected 1 (events adapter trace)) := by
  intro adapter trace
  obtain ⟨s, reached⟩ : ∃ s, Transition.run (step adapter) init trace =
      some s := Option.isSome_iff_exists.mp (by decide)
  exact ⟨s, reached, reads_in_order adapter (by decide) reached 1⟩

end FameZ.Kernel
