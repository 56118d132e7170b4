/-
Module: FameZ.Monolithic.ReadsInOrder
Purpose: What the reads of the monolithic driver return of the messages that
  were sent to it, over a whole run.
Trusted boundary: none
Main exports: Can, shows, Faithful, simulates, reads_return_in_order
-/
import FameZ.Lib.Postbox
import FameZ.Lib.Simulation
import FameZ.Monolithic.LegibleSlot

namespace FameZ.Monolithic.Readers

/-!
In this driver no message is for the handler but a ping, and a read empties the
slot in the middle of its release, while it still has the lock.
-/

/-- The message in a busy slot. -/
def message (slot : Mailslot) : List UInt8 := slot.msg.take slot.msglen

/-- What a read may return of a message of sender `i`. -/
def Can (i : Nat) (msg : List UInt8) : Except Errno (List UInt8) → Prop
  | .ok bytes =>
      bytes = ((senderIdStr i).map Char.toUInt8).take senderIdLen ++ msg
  | .error errno => errno = .e2big ∨ errno = .efault

/-- What a step shows: a message for this adapter in a slot, and the result of
the read that empties the slot. -/
def shows (config : Configuration) (s : State) :
    Label → List (Postbox.Event Nat (List UInt8) (Except Errno (List UInt8)))
  | .fill i dest msg => if dest = config.myId then [.post i msg] else []
  | .clear r =>
      match s.reader r, s.legible with
      | .copied _ result, some i => [.collect i result]
      | _, _ => []
  | _ => []

/-- The message for this adapter in a slot. -/
def waiting (config : Configuration) (s : State) (i : Nat) :
    Option (List UInt8) :=
  if s.addressee i = config.myId ∧ (s.slot i).msglen ≠ 0 then
    some (message (s.slot i))
  else none

theorem message_fillSlot (dest : Nat) (msg : List UInt8) (slot : Mailslot) :
    message (fillSlot dest msg slot) = msg := List.take_left' rfl

/-- What a read makes of a slot whose interrupt has been taken. -/
theorem can_bridgeRead {slot : Mailslot} {i : Nat} (named : slot.peerId = i)
    (size : Nat) (faults : Bool × Bool) :
    Can i (message slot) (bridgeRead slot slot size faults) := by
  unfold bridgeRead
  split
  · exact .inl rfl
  · split
    · exact .inr rfl
    · split
      · exact .inr rfl
      · rw [Can, named, message]

/-! ### Where a read gets its result -/

/-- What a read has copied out, from which slot. -/
def Reader.copy : Reader → Option (Nat × Except Errno (List UInt8))
  | .copied i result => some (i, result)
  | _ => none

section

variable {config : Configuration} {s t : State} {label : Label} {q r i : Nat}
  {copy : Nat × Except Errno (List UInt8)}

theorem setReader_copy {new : Reader} (nothing : new.copy = none)
    (copied : ((s.setReader q new).reader r).copy = some copy) :
    (s.reader r).copy = some copy := by
  have copied : (Function.update s.reader q new r).copy = some copy := copied
  by_cases same : r = q
  · rw [same, Function.update_self, nothing] at copied
    cases copied
  · rwa [Function.update_of_ne same] at copied

theorem up_copy (copied : (s.up.reader r).copy = some copy) :
    (s.reader r).copy = some copy := by
  unfold State.up at copied
  split at copied
  · exact copied
  · rename_i party lock raised
    have copied : ((s.grant party).reader r).copy = some copy := copied
    unfold State.grant at copied
    split at copied
    · split at copied <;> exact copied
    · split at copied
      · exact setReader_copy rfl copied
      · exact copied

theorem lockReader_copy {nonblock : Bool}
    (copied : ((lockReader s q nonblock).reader r).copy = some copy) :
    (s.reader r).copy = some copy := by
  unfold lockReader at copied
  split at copied
  · exact @setReader_copy s q r copy (.locked nonblock) rfl copied
  · exact @setReader_copy s q r copy (.queued nonblock) rfl copied

theorem lockHandler_reader (s : State) (i : Nat) :
    (lockHandler s i).reader = s.reader := by
  unfold lockHandler
  split <;> rfl

theorem allMsix_reader (vector : Nat) (s : State) :
    (allMsix config vector s).reader = s.reader := by
  unfold allMsix
  split <;> rfl

/-- A read gets its result in its copy_to_user alone, from the slot it took and
through the pointer as it is. -/
theorem copy_of_step (spared : Spared s label)
    (taken : step config s label = some t)
    (copied : (t.reader r).copy = some copy) :
    (s.reader r).copy = some copy ∨
      ∃ size faults j, s.reader r = .reading copy.1 ∧ s.legible = some j ∧
        copy.2 = bridgeRead (s.slot copy.1) (s.slot j) size faults := by
  cases label with
  | answer => exact False.elim spared
  | copy q size faults =>
      simp only [step] at taken
      split at taken
      · rename_i i reading
        split at taken
        · rename_i j points
          cases taken
          by_cases same : r = q
          · subst same
            have copied : (Function.update s.reader r
                (.copied i (bridgeRead (s.slot i) (s.slot j) size faults))
                  r).copy = some copy := copied
            rw [Function.update_self] at copied
            cases copied
            exact .inr ⟨size, faults, j, reading, points, rfl⟩
          · have copied : (Function.update s.reader q
                (.copied i (bridgeRead (s.slot i) (s.slot j) size faults))
                  r).copy = some copy := copied
            rw [Function.update_of_ne same] at copied
            exact .inl copied
        · cases taken
          exact .inl (setReader_copy rfl copied)
      · cases taken
  | fill =>
      simp only [step] at taken
      split at taken
      · cases taken
        exact .inl copied
      · cases taken
  | ring =>
      simp only [step] at taken
      split at taken
      · cases taken
        exact .inl copied
      · cases taken
  | elsewhere =>
      simp only [step] at taken
      split at taken
      · cases taken
        exact .inl copied
      · cases taken
  | irq =>
      simp only [step] at taken
      split at taken
      · cases taken
        rw [allMsix_reader] at copied
        exact .inl copied
      · cases taken
  | store =>
      simp only [step] at taken
      split at taken
      · cases taken
        exact .inl copied
      · cases taken
        exact .inl copied
      · cases taken
  | unlock =>
      simp only [step] at taken
      split at taken
      · cases taken
        exact .inl (up_copy copied)
      · cases taken
  | lock party =>
      cases party with
      | handler =>
          simp only [step] at taken
          split at taken
          · cases taken
            rw [lockHandler_reader] at copied
            exact .inl copied
          · cases taken
      | reader =>
          simp only [step] at taken
          split at taken
          · cases taken
            exact .inl (lockReader_copy copied)
          · cases taken
  | signal party =>
      cases party with
      | handler =>
          simp only [step] at taken
          split at taken
          · cases taken
            exact .inl copied
          · cases taken
      | reader q =>
          simp only [step] at taken
          split at taken
          · cases taken
            exact .inl (@setReader_copy s q _ _ _ rfl copied)
          · cases taken
            exact .inl (setReader_copy rfl copied)
          · cases taken
  | enter =>
      simp only [step] at taken
      split at taken
      · cases taken
        exact .inl (setReader_copy rfl copied)
      · cases taken
  | check =>
      simp only [step] at taken
      split at taken
      · split at taken
        · cases taken
          exact .inl (setReader_copy rfl copied)
        · cases taken
          refine .inl (up_copy (setReader_copy ?_ copied))
          split <;> rfl
      · cases taken
  | wake =>
      simp only [step] at taken
      split at taken
      · split at taken
        · cases taken
          exact .inl (setReader_copy rfl copied)
        · cases taken
      · cases taken
  | sample =>
      simp only [step] at taken
      split at taken
      · split at taken
        · cases taken
          exact .inl (setReader_copy rfl copied)
        · cases taken
          exact .inl (setReader_copy rfl copied)
      · cases taken
  | clear q =>
      simp only [step] at taken
      split at taken
      · split at taken
        · cases taken
          exact .inl (@setReader_copy s q _ _ _ rfl copied)
        · cases taken
          exact .inl (setReader_copy rfl copied)
      · cases taken
  | forget q =>
      simp only [step] at taken
      split at taken
      · cases taken
        exact .inl (@setReader_copy s q _ _ _ rfl copied)
      · cases taken
  | release =>
      simp only [step] at taken
      split at taken
      · cases taken
        exact .inl (up_copy (setReader_copy rfl copied))
      · cases taken

end

/-! ### The invariant -/

/-- A run of spared events: a slot whose interrupt has been taken names its
sender, and a read has the message of the slot that it copied from. -/
structure Faithful (config : Configuration) (s : State) : Prop where
  kept : Kept config s
  named : ∀ i, Due config s i → (s.slot i).peerId = i
  copied : ∀ r copy, (s.reader r).copy = some copy →
    Can copy.1 (message (s.slot copy.1)) copy.2

theorem sight_of_copy {reader : Reader}
    {copy : Nat × Except Errno (List UInt8)} (copied : reader.copy = some copy) :
    reader.sight = .on copy.1 := by
  unfold Reader.copy at copied
  split at copied
  · cases copied
    rfl
  · cases copied

namespace Kept

variable {config : Configuration} {s t : State} {label : Label} {r i : Nat}

/-- The slot under a read is the one at the pointer and holds a message for this
adapter. -/
theorem held (kept : Kept config s) (on : (s.reader r).sight = .on i) :
    s.legible = some i ∧ Due config s i := by
  have points : s.legible = some i := by
    have sees := kept.sees r
    rwa [on] at sees
  refine ⟨points, ?_⟩
  rcases kept.live i points with ⟨due, -⟩ | ⟨q, clearing⟩
  · exact due
  · have same := kept.alone (sees_of_clearing clearing)
      (inside_of_sight (sees_of_on on))
    rw [same, on] at clearing
    cases clearing

/-- Nobody writes the message under a read before it empties the slot itself. -/
theorem message_held (kept : Kept config s) (spared : Spared s label)
    (moves : Moves config s label t) (on : (s.reader r).sight = .on i)
    (stays : (t.reader r).sight ≠ .clearing) :
    message (t.slot i) = message (s.slot i) := by
  obtain ⟨points, due⟩ := kept.held on
  cases moves with
  | fill slot idle empty nonempty =>
      rename_i j dest msg
      have other : i ≠ j := fun same => due.busy (same ▸ empty)
      exact congrArg message (Function.update_of_ne other ..)
  | elsewhere idle away =>
      rename_i j
      have other : i ≠ j := fun same => away (same ▸ due.ours)
      exact congrArg message (Function.update_of_ne other ..)
  | unmatched pending outside =>
      exact absurd (kept.pending _ pending).1 outside
  | irq pending free slot use taken =>
      rename_i j next
      by_cases same : i = j
      · rw [same]
        change message (Function.update s.slot j _ j) = _
        rw [Function.update_self]
        rfl
      · exact congrArg message (Function.update_of_ne same ..)
  | answers pinged => exact False.elim spared
  | clears copied other =>
      rename_i q j k result
      -- The read that empties the slot has the lock, so it is this one.
      have looks : (s.reader q).sight ≠ .blind := by
        rw [copied]
        exact nofun
      have same := kept.alone looks (inside_of_sight (sees_of_on on))
      subst same
      refine absurd ?_ stays
      change (Function.update s.reader q (.cleared result) q).sight = .clearing
      rw [Function.update_self]
      rfl
  | oops looking before null =>
      exact absurd null (kept.not_oops looking before)
  | unlocks stored => exact congrArg message (congrFun (same_up s).slot i)
  | leaves inside before outside blind =>
      exact congrArg message (congrFun (same_up s).slot i)
  | locksHandler entering =>
      unfold lockHandler
      split <;> rfl
  | locksReader entering =>
      unfold lockReader
      split <;> rfl
  | _ => rfl

end Kept

namespace Faithful

variable {config : Configuration} {s t : State} {label : Label} {i : Nat}

theorem init (config : Configuration) : Faithful config (init config) :=
  ⟨Kept.init config, fun _ due => absurd rfl due.busy, nofun⟩

/-- A step at one slot. -/
theorem named_at (faithful : Faithful config s) {j : Nat}
    (due : Due config t j) (slot : ∀ j, j ≠ i → t.slot j = s.slot j)
    (addressee : ∀ j, j ≠ i → t.addressee j = s.addressee j)
    (sender : ∀ j, j ≠ i → t.sender j = s.sender j)
    (pending : ∀ j, j ≠ i → t.pending j = s.pending j)
    (here : Due config t i → (t.slot i).peerId = i) :
    (t.slot j).peerId = j := by
  by_cases same : j = i
  · subst same
    exact here due
  · rw [slot j same]
    apply faithful.named
    exact (Kept.due_congr (by rw [slot j same]) (addressee j same)
      (sender j same) (pending j same)).mp due

theorem named_same (faithful : Faithful config s) {j : Nat}
    (due : Due config t j) (slot : t.slot = s.slot)
    (addressee : t.addressee = s.addressee) (sender : t.sender = s.sender)
    (pending : t.pending = s.pending) : (t.slot j).peerId = j := by
  rw [slot]
  apply faithful.named
  exact (Kept.due_congr (by rw [slot]) (by rw [addressee]) (by rw [sender])
    (by rw [pending])).mp due

/-- After an interrupt the slot has the id of its sender. -/
theorem named_step (faithful : Faithful config s) (spared : Spared s label)
    (moves : Moves config s label t) (j : Nat) (due : Due config t j) :
    (t.slot j).peerId = j := by
  cases moves with
  | fill slot idle empty nonempty =>
      rename_i i dest msg
      refine @named_at _ _ _ i faithful _ due ?_ ?_ ?_ ?_ fun dueI => ?_
      · exact fun _ other => Function.update_of_ne other ..
      · exact fun _ other => Function.update_of_ne other ..
      · exact fun _ other => Function.update_of_ne other ..
      · exact fun _ _ => rfl
      · have rung := dueI.rung
        simp at rung
  | ring filled =>
      rename_i i
      refine @named_at _ _ _ i faithful _ due ?_ ?_ ?_ ?_ fun dueI => ?_
      · exact fun _ _ => rfl
      · exact fun _ _ => rfl
      · exact fun _ other => Function.update_of_ne other ..
      · exact fun _ other => Function.update_of_ne other ..
      · have silent := dueI.acknowledged
        have ours : s.addressee i = config.myId := dueI.ours
        simp [ours] at silent
  | elsewhere idle away =>
      rename_i i
      refine @named_at _ _ _ i faithful _ due ?_ ?_ ?_ ?_ fun dueI => ?_
      · exact fun _ other => Function.update_of_ne other ..
      · exact fun _ _ => rfl
      · exact fun _ _ => rfl
      · exact fun _ _ => rfl
      · exact absurd dueI.ours away
  | unmatched pending outside =>
      exact absurd (faithful.kept.pending _ pending).1 outside
  | irq pending free slot use taken =>
      rename_i i next
      refine @named_at _ _ _ i faithful _ due ?_ ?_ ?_ ?_ fun _ => ?_
      · exact fun _ other => Function.update_of_ne other ..
      · exact fun _ _ => rfl
      · exact fun _ _ => rfl
      · exact fun _ other => Function.update_of_ne other ..
      · simp
  | answers pinged => exact False.elim spared
  | clears copied points =>
      rename_i r i k result
      refine @named_at _ _ _ i faithful _ due ?_ ?_ ?_ ?_ fun dueI => ?_
      · exact fun _ other => Function.update_of_ne other ..
      · exact fun _ _ => rfl
      · exact fun _ _ => rfl
      · exact fun _ _ => rfl
      · have busy := dueI.busy
        simp at busy
  | oops looking before null =>
      exact absurd null (faithful.kept.not_oops looking before)
  | unlocks stored =>
      have same := same_up s
      exact faithful.named_same due same.slot same.addressee same.sender
        same.pending
  | leaves inside before outside blind =>
      have same := same_up s
      exact faithful.named_same due same.slot same.addressee same.sender
        same.pending
  | locksHandler entering =>
      unfold lockHandler at due ⊢
      split at due
      · exact faithful.named_same due rfl rfl rfl rfl
      · exact faithful.named_same due rfl rfl rfl rfl
  | locksReader entering =>
      unfold lockReader at due ⊢
      split at due
      · exact faithful.named_same due rfl rfl rfl rfl
      · exact faithful.named_same due rfl rfl rfl rfl
  | _ => exact faithful.named_same due rfl rfl rfl rfl

/-- A spared event keeps every read faithful. -/
theorem step (faithful : Faithful config s) (spared : Spared s label)
    (taken : step config s label = some t) : Faithful config t := by
  have moves := step_moves taken
  refine ⟨faithful.kept.step spared moves, faithful.named_step spared moves,
    fun r copy copied => ?_⟩
  have stays : (t.reader r).sight ≠ .clearing := by
    rw [sight_of_copy copied]
    exact nofun
  rcases copy_of_step spared taken copied with
    before | ⟨size, faults, j, reading, points, result⟩
  · rw [faithful.kept.message_held spared moves (sight_of_copy before) stays]
    exact faithful.copied r copy before
  · have on : (s.reader r).sight = .on copy.1 := by
      rw [reading]
      rfl
    obtain ⟨own, due⟩ := faithful.kept.held on
    rw [points] at own
    cases own
    rw [faithful.kept.message_held spared moves on stays, result]
    exact can_bridgeRead (faithful.named _ due) size faults

end Faithful

/-! ### Slots as boxes -/

section

variable {config : Configuration} {s t : State} {label : Label} {i : Nat}

theorem waiting_congr
    (slot : ∀ i, (t.slot i).msglen = (s.slot i).msglen ∧
      message (t.slot i) = message (s.slot i))
    (addressee : t.addressee = s.addressee) :
    waiting config t = waiting config s := by
  funext i
  rw [waiting, waiting, addressee, (slot i).1, (slot i).2]

theorem waiting_same (slot : t.slot = s.slot)
    (addressee : t.addressee = s.addressee) :
    waiting config t = waiting config s :=
  waiting_congr (fun _ => by rw [slot]; exact ⟨rfl, rfl⟩) addressee

theorem waiting_of_empty (empty : (s.slot i).msglen = 0) :
    waiting config s i = none :=
  if_neg fun busy => busy.2 empty

/-- A step on one slot changes its box alone. -/
theorem waiting_slot {new : Mailslot}
    (slot : t.slot = Function.update s.slot i new)
    (addressee : ∀ j, j ≠ i → t.addressee j = s.addressee j) :
    waiting config t =
      Function.update (waiting config s) i (waiting config t i) := by
  funext j
  by_cases same : j = i
  · rw [same, Function.update_self]
  · rw [Function.update_of_ne same, waiting, waiting, slot,
      Function.update_of_ne same, addressee j same]

theorem waiting_emptied {new : Mailslot}
    (slot : t.slot = Function.update s.slot i new) (empty : new.msglen = 0)
    (addressee : t.addressee = s.addressee) :
    waiting config t = Function.update (waiting config s) i none := by
  rw [waiting_slot slot fun j _ => congrFun addressee j, waiting_of_empty]
  rw [slot, Function.update_self, empty]

theorem waiting_filled {dest : Nat} {msg : List UInt8} (nonempty : msg ≠ [])
    (slot : t.slot = Function.update s.slot i (fillSlot dest msg (s.slot i)))
    (addressee : t.addressee = Function.update s.addressee i dest) :
    waiting config t = Function.update (waiting config s) i
      (if dest = config.myId then some msg else none) := by
  have busy : (fillSlot dest msg (s.slot i)).msglen ≠ 0 := fun none =>
    nonempty (List.length_eq_zero_iff.mp none)
  rw [waiting_slot slot fun j other => by
    rw [addressee, Function.update_of_ne other]]
  congr 1
  rw [waiting, slot, addressee, Function.update_self, Function.update_self,
    message_fillSlot]
  by_cases ours : dest = config.myId
  · rw [if_pos ⟨ours, busy⟩, if_pos ours]
  · rw [if_neg fun waits => ours waits.1, if_neg ours]

/-- The steps that show nothing leave the boxes alone. -/
theorem waiting_silent (kept : Kept config s) (spared : Spared s label)
    (moves : Moves config s label t)
    (noFill : ∀ i dest msg, label ≠ .fill i dest msg)
    (noClear : ∀ r, label ≠ .clear r) : waiting config t = waiting config s := by
  cases moves with
  | fill => exact (noFill _ _ _ rfl).elim
  | clears => exact (noClear _ rfl).elim
  | answers pinged => exact False.elim spared
  | unmatched pending outside =>
      exact absurd (kept.pending _ pending).1 outside
  | oops looking before null =>
      exact absurd null (kept.not_oops looking before)
  | elsewhere idle away =>
      rename_i i
      have none : waiting config s i = none := if_neg fun busy => away busy.1
      rw [← Function.update_eq_self i (waiting config s), none]
      exact @waiting_emptied _ _ _ i { s.slot i with msglen := 0 } rfl rfl rfl
  | irq pending free slot use taken =>
      rename_i i next
      refine waiting_congr (fun j => ?_) rfl
      change (Function.update s.slot i { s.slot i with peerId := i } j).msglen =
          _ ∧ message (Function.update s.slot i _ j) = _
      by_cases same : j = i
      · rw [same, Function.update_self]
        exact ⟨rfl, rfl⟩
      · rw [Function.update_of_ne same]
        exact ⟨rfl, rfl⟩
  | unlocks stored =>
      have same := same_up s
      exact waiting_same same.slot same.addressee
  | leaves inside before outside blind =>
      have same := same_up s
      exact waiting_same same.slot same.addressee
  | locksHandler entering =>
      unfold lockHandler
      split <;> exact waiting_same rfl rfl
  | locksReader entering =>
      unfold lockReader
      split <;> exact waiting_same rfl rfl
  | _ => exact waiting_same rfl rfl

/-- A `fill` posts its message, if it is for this adapter. -/
theorem shows_fill {dest : Nat} {msg : List UInt8}
    (taken : step config s (.fill i dest msg) = some t) :
    Transition.run (Postbox.step Can) (waiting config s)
      (shows config s (.fill i dest msg)) = some (waiting config t) := by
  simp only [step] at taken
  split at taken
  · rename_i guard
    obtain ⟨-, -, empty, nonempty, -⟩ := guard
    cases taken
    have before : waiting config s i = none := waiting_of_empty empty
    refine Eq.trans ?_ (congrArg some
      (@waiting_filled _ s _ i dest msg nonempty ?_ ?_).symm)
    · by_cases ours : dest = config.myId
      · simp only [shows, if_pos ours]
        rw [Transition.run_cons, Postbox.step_post before]
        rfl
      · simp only [shows, if_neg ours]
        rw [← before, Function.update_eq_self]
        rfl
    · rfl
    · rfl
  · cases taken

/-- The read that empties a slot collects its message. -/
theorem shows_clear (faithful : Faithful config s) {r : Nat}
    (taken : step config s (.clear r) = some t) :
    Transition.run (Postbox.step Can) (waiting config s)
      (shows config s (.clear r)) = some (waiting config t) := by
  simp only [step] at taken
  split at taken
  · rename_i i result copied
    have on : (s.reader r).sight = .on i := by
      rw [copied]
      rfl
    obtain ⟨points, due⟩ := faithful.kept.held on
    simp only [points] at taken
    cases taken
    have contents : waiting config s i = some (message (s.slot i)) :=
      if_pos ⟨due.ours, due.busy⟩
    have fits : Can i (message (s.slot i)) result :=
      faithful.copied r (i, result) (by rw [copied]; rfl)
    refine Eq.trans ?_ (congrArg some (@waiting_emptied _ s _ i
      { s.slot i with msglen := 0 } ?_ ?_ ?_).symm)
    · simp only [shows, copied, points]
      rw [Transition.run_cons, Postbox.step_collect contents fits]
      rfl
    · rfl
    · rfl
    · rfl
  · cases taken

/-- A spared run shows as a run of boxes. -/
theorem simulates (config : Configuration) :
    Transition.Simulates (step config) (Postbox.step Can) Spared (shows config)
      fun s boxes => Faithful config s ∧ boxes = waiting config s := by
  intro s label t boxes related spared taken
  obtain ⟨faithful, rfl⟩ := related
  refine ⟨waiting config t, ?_, faithful.step spared taken, rfl⟩
  cases label with
  | fill => exact shows_fill taken
  | clear => exact shows_clear faithful taken
  | _ =>
      refine congrArg some (waiting_silent faithful.kept spared
        (step_moves taken) ?_ ?_).symm <;> (intros; simp)

end

/-- What senders and reads show of a run from the start. -/
def events (config : Configuration) (trace : List Label) :
    List (Postbox.Event Nat (List UInt8) (Except Errno (List UInt8))) :=
  Transition.observe (step config) (shows config) (init config) trace

/-- Over every run of any senders, their interrupts and any reads on one
configuration whose events are spared: the messages of each sender are returned
once each and in order, whole and behind the sender's id, or are lost to a read
that fails, and at most the last one is still in its slot. -/
theorem reads_return_in_order (config : Configuration) {trace : List Label}
    {s : State}
    (spared : Transition.Meets (step config) Spared (init config) trace)
    (reached : Transition.run (step config) (init config) trace = some s)
    (i : Nat) :
    ∃ taken, Postbox.posted i (events config trace) =
        taken ++ (waiting config s i).toList ∧
      List.Forall₂ (Can i) taken
        (Postbox.collected i (events config trace)) := by
  obtain ⟨boxes, runs, -, rfl⟩ := (simulates config).observed
    ⟨Faithful.init config, rfl⟩ spared reached
  have empty : waiting config (init config) i = none := waiting_of_empty rfl
  have inOrder := Postbox.in_order runs i
  rwa [empty] at inOrder

/-- Two messages of sender 1, the first one read before it sends the second, and
one of sender 2 that waits behind them. -/
theorem reads_return_in_order_turns :
    let trace : List Label :=
      [.fill 1 3 [104, 105], .ring 1, .irq 1, .lock (.handler 1), .store 1,
        .unlock 1, .enter 0 false, .lock (.reader 0), .check 0, .sample 0,
        .copy 0 64 (false, false), .fill 2 3 [104, 111], .ring 2, .clear 0,
        .forget 0, .fill 1 3 [121, 111], .release 0, .irq 2]
    ∃ s, Transition.run (step third) (init third) trace = some s ∧
      ∃ taken, Postbox.posted 1 (events third trace) =
          taken ++ (waiting third s 1).toList ∧
        List.Forall₂ (Can 1) taken
          (Postbox.collected 1 (events third trace)) := by
  intro trace
  obtain ⟨s, reached⟩ : ∃ s, Transition.run (step third) (init third) trace =
      some s := Option.isSome_iff_exists.mp (by decide)
  exact ⟨s, reached, reads_return_in_order third (by decide) reached 1⟩

end FameZ.Monolithic.Readers
