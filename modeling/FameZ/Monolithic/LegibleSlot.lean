/-
Module: FameZ.Monolithic.LegibleSlot
Purpose: When every message that the handler of the monolithic driver is done
  with can be reached by a read or has been emptied.
Trusted boundary: none
Main exports: Handled, Accounted, Spared, Due, Kept, accounted_of_spared
-/
import FameZ.Monolithic.Readers

namespace FameZ.Monolithic.Readers

open Semaphore (Use Mutex)

/-- The message in a slot was rung for here, and its interrupt has been handled
to the end. -/
structure Handled (config : Configuration) (s : State) (i : Nat) : Prop where
  ours : s.addressee i = config.myId
  rung : s.sender i = .idle
  acknowledged : s.pending i = false
  returned : s.handler i = .idle

/-- A busy slot whose interrupt has been handled is the one that the pointer is
on, or a read has it; and a slot whose message the handler answered is empty. -/
structure Accounted (config : Configuration) (s : State) : Prop where
  legible : ∀ i, (s.slot i).msglen ≠ 0 → Handled config s i →
    s.legible = some i ∨ ∃ r, (s.reader r).sight = .on i
  consumed : ∀ i, s.answered i = true → (s.slot i).msglen = 0

/-- The condition on one event: the handler answers no ping, and where it stores
the pointer it finds NULL. -/
def Spared (s : State) : Label → Prop
  | .answer _ => False
  | .store _ => s.legible = none
  | _ => True

instance (s : State) (label : Label) : Decidable (Spared s label) := by
  cases label <;> unfold Spared <;> infer_instance

/-! ### The users of the lock -/

theorem uses_setHandler (s : State) (i : Nat) (new : Handler) :
    uses (s.setHandler i new) =
      Function.update (uses s) (.handler i) new.use := by
  funext party
  cases party with
  | handler j =>
      by_cases same : j = i
      · rw [same, Function.update_self]
        exact congrArg Handler.use (Function.update_self ..)
      · have other : Party.handler j ≠ .handler i := by
          rintro ⟨⟩
          exact same rfl
        rw [Function.update_of_ne other]
        exact congrArg Handler.use (Function.update_of_ne same ..)
  | reader r =>
      have other : Party.reader r ≠ .handler i := nofun
      rw [Function.update_of_ne other]
      rfl

theorem uses_setReader (s : State) (r : Nat) (new : Reader) :
    uses (s.setReader r new) =
      Function.update (uses s) (.reader r) new.use := by
  funext party
  cases party with
  | reader q =>
      by_cases same : q = r
      · rw [same, Function.update_self]
        exact congrArg Reader.use (Function.update_self ..)
      · have other : Party.reader q ≠ .reader r := by
          rintro ⟨⟩
          exact same rfl
        rw [Function.update_of_ne other]
        exact congrArg Reader.use (Function.update_of_ne same ..)
  | handler i =>
      have other : Party.handler i ≠ .reader r := nofun
      rw [Function.update_of_ne other]
      rfl

/-- A read that has something of the pointer holds the lock. -/
theorem inside_of_sight {reader : Reader} (sees : reader.sight ≠ .blind) :
    reader.use = .inside := by
  cases reader with
  | found => rfl
  | reading i => rfl
  | copied i result => rfl
  | cleared result => rfl
  | unused => exact absurd rfl sees
  | entering nonblock => exact absurd rfl sees
  | queued nonblock => exact absurd rfl sees
  | locked nonblock => exact absurd rfl sees
  | waiting nonblock => exact absurd rfl sees
  | forgotten result => exact absurd rfl sees
  | done result => exact absurd rfl sees
  | oops => exact absurd rfl sees

theorem sees_of_on {reader : Reader} {i : Nat} (on : reader.sight = .on i) :
    reader.sight ≠ .blind := by
  rw [on]
  exact nofun

theorem sees_of_clearing {reader : Reader}
    (clearing : reader.sight = .clearing) : reader.sight ≠ .blind := by
  rw [clearing]
  exact nofun

theorem handler_queued {handler : Handler} (queued : handler.use = .queued) :
    handler = .queued := by
  cases handler with
  | queued => rfl
  | idle => cases queued
  | pinged => cases queued
  | entering => cases queued
  | locked => cases queued
  | badLock => cases queued
  | stored => cases queued

theorem reader_queued {reader : Reader} (queued : reader.use = .queued) :
    ∃ nonblock, reader = .queued nonblock := by
  cases reader with
  | queued nonblock => exact ⟨nonblock, rfl⟩
  | unused => cases queued
  | entering nonblock => cases queued
  | locked nonblock => cases queued
  | waiting nonblock => cases queued
  | found => cases queued
  | reading i => cases queued
  | copied i result => cases queued
  | cleared result => cases queued
  | forgotten result => cases queued
  | done result => cases queued
  | oops => cases queued

/-- What the lock traffic leaves as it is. -/
structure Same (s t : State) : Prop where
  slot : t.slot = s.slot
  legible : t.legible = s.legible
  sender : t.sender = s.sender
  pending : t.pending = s.pending
  addressee : t.addressee = s.addressee
  answered : t.answered = s.answered
  taken : ∀ i, (t.handler i).taken = (s.handler i).taken
  sight : ∀ r, (t.reader r).sight = (s.reader r).sight

theorem same_setHandler {s : State} {i : Nat} {new : Handler}
    (taken : new.taken = (s.handler i).taken) :
    Same s (s.setHandler i new) := by
  refine ⟨rfl, rfl, rfl, rfl, rfl, rfl, fun j => ?_, fun _ => rfl⟩
  change (Function.update s.handler i new j).taken = _
  by_cases same : j = i
  · rw [same, Function.update_self, taken]
  · rw [Function.update_of_ne same]

theorem same_setReader {s : State} {r : Nat} {new : Reader}
    (sight : new.sight = (s.reader r).sight) : Same s (s.setReader r new) := by
  refine ⟨rfl, rfl, rfl, rfl, rfl, rfl, fun _ => rfl, fun q => ?_⟩
  change (Function.update s.reader r new q).sight = _
  by_cases same : q = r
  · rw [same, Function.update_self, sight]
  · rw [Function.update_of_ne same]

theorem Same.trans {s t u : State} (first : Same s t) (second : Same t u) :
    Same s u where
  slot := second.slot.trans first.slot
  legible := second.legible.trans first.legible
  sender := second.sender.trans first.sender
  pending := second.pending.trans first.pending
  addressee := second.addressee.trans first.addressee
  answered := second.answered.trans first.answered
  taken i := (second.taken i).trans (first.taken i)
  sight r := (second.sight r).trans (first.sight r)

theorem same_lock {s t : State} (same : Same s t) (lock : Semaphore Party) :
    Same s { t with legibleLock := lock } :=
  same.trans ⟨rfl, rfl, rfl, rfl, rfl, rfl, fun _ => rfl, fun _ => rfl⟩

theorem Same.refl (s : State) : Same s s :=
  ⟨rfl, rfl, rfl, rfl, rfl, rfl, fun _ => rfl, fun _ => rfl⟩

theorem same_grant (s : State) (party : Party) : Same s (s.grant party) := by
  cases party with
  | handler i =>
      simp only [State.grant]
      split
      · rename_i waits
        exact same_setHandler (by rw [waits]; rfl)
      · exact .refl s
  | reader r =>
      simp only [State.grant]
      split
      · rename_i waits
        exact same_setReader (by rw [waits]; rfl)
      · exact .refl s

theorem same_up (s : State) : Same s s.up := by
  unfold State.up
  split
  · exact same_lock (.refl s) _
  · exact same_lock (same_grant s _) _

/-- A party that waits gets the lock. -/
theorem uses_grant {s : State} {party : Party}
    (queued : uses s party = .queued) :
    uses (s.grant party) = Function.update (uses s) party .inside := by
  cases party with
  | handler i =>
      have waits : s.handler i = .queued := handler_queued queued
      simp only [State.grant, waits]
      exact uses_setHandler ..
  | reader r =>
      obtain ⟨nonblock, waits⟩ := reader_queued queued
      simp only [State.grant, waits]
      exact uses_setReader ..

/-- The up of a party that has the lock. -/
theorem mutex_up {s : State} {party : Party}
    (mutex : Mutex s.legibleLock (uses s))
    (inside : uses s party = .inside) :
    Mutex s.up.legibleLock (Function.update (uses s.up) party .away) := by
  cases raised : s.legibleLock.up with
  | mk handed lock =>
      cases handed with
      | none =>
          simp only [State.up, raised]
          exact mutex.acts (.release inside raised)
      | some w =>
          have queued : uses s w = .queued := by
            apply mutex.waits
            rw [(Semaphore.up_eq_some raised).2]
            exact List.mem_cons_self ..
          have other : w ≠ party := by
            rintro rfl
            exact nomatch inside.symm.trans queued
          simp only [State.up, raised]
          change Mutex lock (Function.update (uses (s.grant w)) party .away)
          rw [uses_grant queued, Function.update_comm other]
          exact mutex.acts (.hand inside raised)

/-- A step that leaves a handler where it is at the lock. -/
theorem mutex_setHandler {s : State} {i : Nat} {new : Handler}
    (mutex : Mutex s.legibleLock (uses s))
    (place : (s.handler i).use = new.use) :
    Mutex s.legibleLock (uses (s.setHandler i new)) := by
  have place : uses s (.handler i) = new.use := place
  rw [uses_setHandler, ← place, Function.update_eq_self]
  exact mutex

/-- A step that leaves a read where it is at the lock. -/
theorem mutex_setReader {s : State} {r : Nat} {new : Reader}
    (mutex : Mutex s.legibleLock (uses s))
    (place : (s.reader r).use = new.use) :
    Mutex s.legibleLock (uses (s.setReader r new)) := by
  have place : uses s (.reader r) = new.use := place
  rw [uses_setReader, ← place, Function.update_eq_self]
  exact mutex

/-! ### The invariant -/

/-- The message in a slot is here and its interrupt has been taken. -/
structure Due (config : Configuration) (s : State) (i : Nat) : Prop where
  busy : (s.slot i).msglen ≠ 0
  ours : s.addressee i = config.myId
  rung : s.sender i = .idle
  acknowledged : s.pending i = false

/-- What the pointer is while a read has something of it. -/
def Sees (legible : Option Nat) : Sight → Prop
  | .blind => True
  | .found => legible.isSome = true
  | .on i => legible = some i
  | .clearing => legible.isSome = true

/-- A run whose events are spared: the pointer is on the one message that the
handler has left to the readers, unless a read has emptied its slot and is about
to store NULL. -/
structure Kept (config : Configuration) (s : State) : Prop where
  mutex : Mutex s.legibleLock (uses s)
  left : ∀ i, Due config s i → (s.handler i).taken = false →
    s.legible = some i ∧ ∀ r, (s.reader r).sight ≠ .clearing
  live : ∀ i, s.legible = some i →
    (Due config s i ∧ (s.handler i).taken = false) ∨
      ∃ r, (s.reader r).sight = .clearing
  taken : ∀ i, (s.handler i).taken = true → Due config s i
  pending : ∀ i, s.pending i = true → IsSlot config i ∧
    (s.slot i).msglen ≠ 0 ∧ s.sender i = .idle ∧ s.addressee i = config.myId
  filled : ∀ i, s.sender i = .filled →
    IsSlot config i ∧ (s.slot i).msglen ≠ 0 ∧ s.pending i = false
  sees : ∀ r, Sees s.legible (s.reader r).sight
  unanswered : ∀ i, s.answered i = false

namespace Kept

variable {config : Configuration} {s t : State} {label : Label}

theorem init (config : Configuration) : Kept config (init config) := by
  refine ⟨?_, ?_, nofun, nofun, nofun, nofun, fun _ => trivial, fun _ => rfl⟩
  · have away : uses (Readers.init config) = fun _ => .away := by
      funext party
      cases party with
      | handler i => rfl
      | reader r => rfl
    rw [away]
    exact Semaphore.mutex_init
  · intro i due
    exact absurd rfl due.busy

theorem accounted (kept : Kept config s) : Accounted config s := by
  refine ⟨fun i busy handled => .inl ?_, fun i answered => ?_⟩
  · have due : Due config s i :=
      ⟨busy, handled.ours, handled.rung, handled.acknowledged⟩
    have past : (s.handler i).taken = false := by
      rw [handled.returned]
      rfl
    exact (kept.left i due past).1
  · rw [kept.unanswered i] at answered
    cases answered

theorem due_congr {i : Nat} (slot : (t.slot i).msglen = (s.slot i).msglen)
    (addressee : t.addressee i = s.addressee i)
    (sender : t.sender i = s.sender i) (pending : t.pending i = s.pending i) :
    Due config t i ↔ Due config s i := by
  constructor
  · rintro ⟨busy, ours, rung, acknowledged⟩
    exact ⟨slot ▸ busy, addressee ▸ ours, sender ▸ rung,
      pending ▸ acknowledged⟩
  · rintro ⟨busy, ours, rung, acknowledged⟩
    exact ⟨slot ▸ busy, addressee ▸ ours, sender ▸ rung,
      pending ▸ acknowledged⟩

/-- The lock traffic. -/
theorem of_same (kept : Kept config s) (same : Same s t)
    (mutex : Mutex t.legibleLock (uses t)) : Kept config t := by
  have due : ∀ i, Due config t i ↔ Due config s i := fun i =>
    due_congr (by rw [same.slot]) (by rw [same.addressee])
      (by rw [same.sender]) (by rw [same.pending])
  refine ⟨mutex, ?_, ?_, ?_, ?_, ?_, ?_, ?_⟩
  · simp only [due, same.taken, same.legible, same.sight]
    exact kept.left
  · simp only [due, same.taken, same.legible, same.sight]
    exact kept.live
  · simp only [due, same.taken]
    exact kept.taken
  · rw [same.pending, same.slot, same.sender, same.addressee]
    exact kept.pending
  · rw [same.sender, same.slot, same.pending]
    exact kept.filled
  · simp only [same.legible, same.sight]
    exact kept.sees
  · rw [same.answered]
    exact kept.unanswered

/-! #### The steps of the lock -/

theorem unlocks (kept : Kept config s) {i : Nat}
    (stored : s.handler i = .stored) :
    Kept config (s.up.setHandler i .idle) := by
  have inside : uses s (.handler i) = .inside := congrArg Handler.use stored
  have same := same_up s
  have mutex := mutex_up kept.mutex inside
  have taken : Handler.idle.taken = (s.up.handler i).taken := by
    rw [same.taken, stored]
    rfl
  apply kept.of_same (same.trans (same_setHandler taken))
  rw [uses_setHandler]
  exact mutex

theorem leaves (kept : Kept config s) {r : Nat} {new : Reader}
    (inside : (s.reader r).use = .inside) (before : (s.reader r).sight = .blind)
    (outside : new.use = .away) (blind : new.sight = .blind) :
    Kept config (s.up.setReader r new) := by
  have inside : uses s (.reader r) = .inside := inside
  have same := same_up s
  have mutex := mutex_up kept.mutex inside
  have sight : new.sight = (s.up.reader r).sight := by
    rw [same.sight, before, blind]
  apply kept.of_same (same.trans (same_setReader sight))
  rw [uses_setReader, outside]
  exact mutex

/-- A handler moves to another place at the lock. -/
theorem placesHandler (kept : Kept config s) {i : Nat} {new : Handler}
    {lock : Semaphore Party} (taken : new.taken = (s.handler i).taken)
    (acts : Semaphore.Acts s.legibleLock (uses s) lock
      (Function.update (uses s) (.handler i) new.use)) :
    Kept config { s.setHandler i new with legibleLock := lock } := by
  apply kept.of_same (same_lock (same_setHandler taken) lock)
  change Mutex lock (uses (s.setHandler i new))
  rw [uses_setHandler]
  exact kept.mutex.acts acts

/-- A read moves to another place at the lock. -/
theorem placesReader (kept : Kept config s) {r : Nat} {new : Reader}
    {lock : Semaphore Party} (sight : new.sight = (s.reader r).sight)
    (acts : Semaphore.Acts s.legibleLock (uses s) lock
      (Function.update (uses s) (.reader r) new.use)) :
    Kept config { s.setReader r new with legibleLock := lock } := by
  apply kept.of_same (same_lock (same_setReader sight) lock)
  change Mutex lock (uses (s.setReader r new))
  rw [uses_setReader]
  exact kept.mutex.acts acts

theorem locksHandler (kept : Kept config s) {i : Nat}
    (entering : s.handler i = .entering) : Kept config (lockHandler s i) := by
  have away : uses s (.handler i) = .away := congrArg Handler.use entering
  unfold lockHandler
  split
  · rename_i lock got
    exact kept.placesHandler (by rw [entering]; rfl) (.take away got)
  · exact kept.placesHandler (by rw [entering]; rfl) (.queue away)

theorem locksReader (kept : Kept config s) {r : Nat} {nonblock : Bool}
    (entering : s.reader r = .entering nonblock) :
    Kept config (lockReader s r nonblock) := by
  have away : uses s (.reader r) = .away := congrArg Reader.use entering
  unfold lockReader
  split
  · rename_i lock got
    exact kept.placesReader (by rw [entering]; rfl) (.take away got)
  · exact kept.placesReader (by rw [entering]; rfl) (.queue away)

theorem signalsHandler (kept : Kept config s) {i : Nat}
    (queued : s.handler i = .queued) :
    Kept config
      { s.setHandler i .badLock with
        legibleLock := s.legibleLock.interrupt (.handler i) } := by
  have waits : uses s (.handler i) = .queued := congrArg Handler.use queued
  exact kept.placesHandler (by rw [queued]; rfl) (.interrupt waits)

theorem signalsReader (kept : Kept config s) {r : Nat} {nonblock : Bool}
    (queued : s.reader r = .queued nonblock) :
    Kept config
      { s.setReader r (.done (.error .eintr)) with
        legibleLock := s.legibleLock.interrupt (.reader r) } := by
  have waits : uses s (.reader r) = .queued := congrArg Reader.use queued
  exact kept.placesReader (by rw [queued]; rfl) (.interrupt waits)

theorem turns (kept : Kept config s) {r : Nat} {new : Reader}
    (outside : (s.reader r).use = .away) (stays : new.use = .away)
    (blind : new.sight = .blind) : Kept config (s.setReader r new) := by
  have before : (s.reader r).sight = .blind := by
    by_contra sees
    exact nomatch outside.symm.trans (inside_of_sight sees)
  apply kept.of_same (same_setReader (blind.trans before.symm))
  exact mutex_setReader kept.mutex (outside.trans stays.symm)

/-! #### The steps of the senders and of the interrupts -/

/-- The two states differ in what concerns slot `i`, and not in the pointer or
the reads. -/
structure Elsewhere (s t : State) (i : Nat) : Prop where
  slot : ∀ j, j ≠ i → t.slot j = s.slot j
  addressee : ∀ j, j ≠ i → t.addressee j = s.addressee j
  sender : ∀ j, j ≠ i → t.sender j = s.sender j
  pending : ∀ j, j ≠ i → t.pending j = s.pending j
  handler : ∀ j, j ≠ i → t.handler j = s.handler j
  legible : t.legible = s.legible
  reader : t.reader = s.reader

/-- A slot whose message is not due changes; it may become due with a handler
that has taken it. -/
theorem at_slot (kept : Kept config s) {i : Nat} (rest : Elsewhere s t i)
    (before : ¬ Due config s i)
    (after : Due config t i ↔ (t.handler i).taken = true)
    (pending : t.pending i = true → IsSlot config i ∧
      (t.slot i).msglen ≠ 0 ∧ t.sender i = .idle ∧
        t.addressee i = config.myId)
    (filled : t.sender i = .filled →
      IsSlot config i ∧ (t.slot i).msglen ≠ 0 ∧ t.pending i = false)
    (unanswered : ∀ j, t.answered j = false)
    (mutex : Mutex t.legibleLock (uses t)) : Kept config t := by
  have due : ∀ j, j ≠ i → (Due config t j ↔ Due config s j) :=
    fun j other => due_congr (by rw [rest.slot j other])
      (rest.addressee j other) (rest.sender j other) (rest.pending j other)
  refine ⟨mutex, fun j dueJ past => ?_, fun j points => ?_, fun j took => ?_,
    fun j waits => ?_, fun j full => ?_, ?_, unanswered⟩
  · by_cases same : j = i
    · subst same
      rw [after.mp dueJ] at past
      cases past
    · rw [rest.handler j same] at past
      rw [rest.legible, rest.reader]
      exact kept.left j ((due j same).mp dueJ) past
  · rw [rest.legible] at points
    rw [rest.reader]
    rcases kept.live j points with ⟨dueJ, past⟩ | clearing
    · have other : j ≠ i := by
        rintro rfl
        exact before dueJ
      rw [rest.handler j other]
      exact .inl ⟨(due j other).mpr dueJ, past⟩
    · exact .inr clearing
  · by_cases same : j = i
    · subst same
      exact after.mpr took
    · rw [rest.handler j same] at took
      exact (due j same).mpr (kept.taken j took)
  · by_cases same : j = i
    · subst same
      exact pending waits
    · rw [rest.pending j same] at waits
      rw [rest.slot j same, rest.sender j same, rest.addressee j same]
      exact kept.pending j waits
  · by_cases same : j = i
    · subst same
      exact filled full
    · rw [rest.sender j same] at full
      rw [rest.slot j same, rest.pending j same]
      exact kept.filled j full
  · rw [rest.legible, rest.reader]
    exact kept.sees

/-- A handler has not taken a message that is not due. -/
theorem not_taken (kept : Kept config s) {i : Nat}
    (before : ¬ Due config s i) : (s.handler i).taken = false := by
  rw [Bool.eq_false_iff]
  exact fun took => before (kept.taken i took)

theorem fill (kept : Kept config s) {i dest : Nat} {msg : List UInt8}
    (slot : IsSlot config i) (empty : (s.slot i).msglen = 0)
    (nonempty : msg ≠ []) :
    Kept config
      { s with
        slot := Function.update s.slot i (fillSlot dest msg (s.slot i))
        sender := Function.update s.sender i .filled
        addressee := Function.update s.addressee i dest
        answered := Function.update s.answered i false } := by
  have before : ¬ Due config s i := fun due => due.busy empty
  have quiet : s.pending i = false := by
    rw [Bool.eq_false_iff]
    exact fun waits => (kept.pending i waits).2.1 empty
  have length : msg.length ≠ 0 := fun none =>
    nonempty (List.length_eq_zero_iff.mp none)
  apply kept.at_slot (i := i)
  · exact ⟨fun _ other => Function.update_of_ne other ..,
      fun _ other => Function.update_of_ne other ..,
      fun _ other => Function.update_of_ne other .., fun _ _ => rfl,
      fun _ _ => rfl, rfl, rfl⟩
  · exact before
  · refine iff_of_false (fun due => ?_) ?_
    · have rung := due.rung
      simp at rung
    · simp only [kept.not_taken before]
      exact nofun
  · intro waits
    have waits : s.pending i = true := waits
    rw [quiet] at waits
    cases waits
  · intro _
    simp only [Function.update_self, fillSlot]
    exact ⟨slot, length, quiet⟩
  · intro j
    by_cases same : j = i
    · simp [same]
    · simp only [Function.update_of_ne same]
      exact kept.unanswered j
  · exact kept.mutex

theorem ring (kept : Kept config s) {i : Nat}
    (full : s.sender i = .filled) :
    Kept config
      { s with
        sender := Function.update s.sender i .idle
        pending := Function.update s.pending i
          (s.pending i || decide (s.addressee i = config.myId)) } := by
  obtain ⟨slot, busy, quiet⟩ := kept.filled i full
  have before : ¬ Due config s i := fun due =>
    nomatch full.symm.trans due.rung
  apply kept.at_slot (i := i)
  · exact ⟨fun _ _ => rfl, fun _ _ => rfl,
      fun _ other => Function.update_of_ne other ..,
      fun _ other => Function.update_of_ne other .., fun _ _ => rfl, rfl, rfl⟩
  · exact before
  · refine iff_of_false (fun due => ?_) ?_
    · have silent := due.acknowledged
      simp [quiet] at silent
      exact silent due.ours
    · simp only [kept.not_taken before]
      exact nofun
  · intro waits
    simp only [Function.update_self, quiet, Bool.false_or,
      decide_eq_true_eq] at waits ⊢
    exact ⟨slot, busy, trivial, waits⟩
  · intro full
    simp at full
  · exact kept.unanswered
  · exact kept.mutex

theorem elsewhere (kept : Kept config s) {i : Nat}
    (idle : s.sender i = .idle) (away : s.addressee i ≠ config.myId) :
    Kept config
      { s with
        slot := Function.update s.slot i { s.slot i with msglen := 0 } } := by
  have before : ¬ Due config s i := fun due => away due.ours
  apply kept.at_slot (i := i)
  · exact ⟨fun _ other => Function.update_of_ne other .., fun _ _ => rfl,
      fun _ _ => rfl, fun _ _ => rfl, fun _ _ => rfl, rfl, rfl⟩
  · exact before
  · refine iff_of_false (fun due => away due.ours) ?_
    simp only [kept.not_taken before]
    exact nofun
  · intro waits
    exact absurd (kept.pending i waits).2.2.2 away
  · intro full
    exact nomatch idle.symm.trans full
  · exact kept.unanswered
  · exact kept.mutex

theorem irq (kept : Kept config s) {i : Nat} {next : Handler}
    (waits : s.pending i = true) (free : s.handler i = .idle)
    (use : next.use = .away) (taken : next.taken = true) :
    Kept config
      { s.setHandler i next with
        pending := Function.update s.pending i false
        slot := Function.update s.slot i { s.slot i with peerId := i } } := by
  obtain ⟨slot, busy, idle, ours⟩ := kept.pending i waits
  have before : ¬ Due config s i := fun due =>
    nomatch waits.symm.trans due.acknowledged
  apply kept.at_slot (i := i)
  · exact ⟨fun _ other => Function.update_of_ne other .., fun _ _ => rfl,
      fun _ _ => rfl, fun _ other => Function.update_of_ne other ..,
      fun _ other => Function.update_of_ne other .., rfl, rfl⟩
  · exact before
  · refine iff_of_true ?_ ?_
    · refine ⟨?_, ours, idle, Function.update_self ..⟩
      simp only [Function.update_self]
      exact busy
    · simp only [State.setHandler, Function.update_self]
      exact taken
  · intro still
    simp at still
  · intro full
    exact nomatch idle.symm.trans full
  · exact kept.unanswered
  · have away : (s.handler i).use = next.use :=
      (congrArg Handler.use free).trans use.symm
    exact mutex_setHandler kept.mutex away

/-! #### The steps on the pointer -/

/-- A read that is about to store NULL has emptied the slot at the pointer. -/
theorem some_of_clearing (kept : Kept config s) {r : Nat}
    (clearing : (s.reader r).sight = .clearing) :
    ∃ i, s.legible = some i := by
  have sees := kept.sees r
  rw [clearing] at sees
  exact Option.isSome_iff_exists.mp sees

/-- One read at a time has something of the pointer. -/
theorem alone (kept : Kept config s) {q r : Nat}
    (first : (s.reader q).sight ≠ .blind)
    (second : (s.reader r).use = .inside) : q = r := by
  have first : uses s (.reader q) = .inside := inside_of_sight first
  have second : uses s (.reader r) = .inside := second
  exact Party.reader.inj (kept.mutex.exclusive first second)

theorem looks (kept : Kept config s) {r : Nat} {new : Reader}
    (inside : (s.reader r).use = .inside) (stays : new.use = .inside)
    (before : (s.reader r).sight ≠ .clearing)
    (allowed : Allowed s r new.sight) : Kept config (s.setReader r new) := by
  have notClearing : new.sight ≠ .clearing := by
    intro clearing
    rw [clearing] at allowed
    exact allowed
  have sees : Sees s.legible new.sight := by
    have held := kept.sees r
    cases sight : new.sight with
    | blind => trivial
    | found =>
        rw [sight] at allowed
        exact allowed
    | on i =>
        rw [sight] at allowed
        rcases allowed with points | on
        · exact points
        · rw [on] at held
          exact held
    | clearing => exact absurd sight notClearing
  have clearing : ∀ q, (Function.update s.reader r new q).sight = .clearing ↔
      (s.reader q).sight = .clearing := by
    intro q
    by_cases same : q = r
    · rw [same, Function.update_self]
      exact iff_of_false notClearing before
    · rw [Function.update_of_ne same]
  have same : ∀ i, Due config (s.setReader r new) i ↔ Due config s i :=
    fun i => due_congr rfl rfl rfl rfl
  refine ⟨?_, ?_, ?_, fun i took => (same i).mpr (kept.taken i took),
    kept.pending, kept.filled, ?_, kept.unanswered⟩
  · exact mutex_setReader kept.mutex (inside.trans stays.symm)
  · intro i due past
    obtain ⟨points, quiet⟩ := kept.left i ((same i).mp due) past
    exact ⟨points, fun q clear => quiet q ((clearing q).mp clear)⟩
  · intro i points
    rcases kept.live i points with ⟨due, past⟩ | ⟨q, clear⟩
    · exact .inl ⟨(same i).mpr due, past⟩
    · exact .inr ⟨q, (clearing q).mpr clear⟩
  · intro q
    change Sees s.legible (Function.update s.reader r new q).sight
    by_cases same : q = r
    · rw [same, Function.update_self]
      exact sees
    · rw [Function.update_of_ne same]
      exact kept.sees q

/-- The pointer is not NULL under a read that looks at it. -/
theorem not_oops (kept : Kept config s) {r : Nat}
    (looking : (s.reader r).sight ≠ .blind)
    (before : (s.reader r).sight ≠ .clearing) : s.legible ≠ none := by
  intro null
  have sees := kept.sees r
  rw [null] at sees
  cases sight : (s.reader r).sight with
  | blind => exact looking sight
  | clearing => exact before sight
  | found =>
      rw [sight] at sees
      cases sees
  | on i =>
      rw [sight] at sees
      cases sees

/-- The handler leaves a message to the readers. -/
theorem stores (kept : Kept config s) {i : Nat} {next : Handler}
    (took : (s.handler i).taken = true) (use : next.use = (s.handler i).use)
    (past : next.taken = false) (free : s.legible = none) :
    Kept config { s.setHandler i next with legible := some i } := by
  have quiet : ∀ r, (s.reader r).sight ≠ .clearing := by
    intro r clearing
    obtain ⟨j, points⟩ := kept.some_of_clearing clearing
    exact nomatch free.symm.trans points
  have blind : ∀ r, (s.reader r).sight = .blind := by
    intro r
    by_contra looking
    exact kept.not_oops looking (quiet r) free
  have handler : ∀ j, j ≠ i →
      Function.update s.handler i next j = s.handler j := fun j other =>
    Function.update_of_ne other ..
  have due : ∀ j, Due config { s.setHandler i next with legible := some i } j ↔
      Due config s j := fun j => due_congr rfl rfl rfl rfl
  refine ⟨?_, fun j dueJ pastJ => ?_, fun j points => ?_, fun j tookJ => ?_,
    kept.pending, kept.filled, fun r => ?_, kept.unanswered⟩
  · exact mutex_setHandler kept.mutex use.symm
  · by_cases same : j = i
    · rw [same]
      exact ⟨rfl, quiet⟩
    · have pastJ : (Function.update s.handler i next j).taken = false := pastJ
      rw [handler j same] at pastJ
      have points := (kept.left j ((due j).mp dueJ) pastJ).1
      exact nomatch free.symm.trans points
  · cases points
    refine .inl ⟨(due i).mpr (kept.taken i took), ?_⟩
    change (Function.update s.handler i next i).taken = false
    rw [Function.update_self]
    exact past
  · have tookJ : (Function.update s.handler i next j).taken = true := tookJ
    by_cases same : j = i
    · rw [same, Function.update_self, past] at tookJ
      cases tookJ
    · rw [handler j same] at tookJ
      exact (due j).mpr (kept.taken j tookJ)
  · change Sees (some i) (s.reader r).sight
    rw [blind r]
    trivial

/-- A read empties the slot at the pointer, which is the one it read. -/
theorem clears (kept : Kept config s) {r i j : Nat}
    {result : Except Errno (List UInt8)}
    (copied : s.reader r = .copied j result) (points : s.legible = some i) :
    Kept config
      { s.setReader r (.cleared result) with
        slot := Function.update s.slot i { s.slot i with msglen := 0 } } := by
  have looking : (s.reader r).sight ≠ .blind := by
    rw [copied]
    exact nofun
  have inside : uses s (.reader r) = .inside := inside_of_sight looking
  -- Nobody else is about to store NULL, so the slot holds a message.
  have settled : Due config s i ∧ (s.handler i).taken = false := by
    rcases kept.live i points with due | ⟨q, clearing⟩
    · exact due
    · have same := kept.alone (sees_of_clearing clearing) inside
      rw [same, copied] at clearing
      cases clearing
  obtain ⟨due, past⟩ := settled
  have others : ∀ k, k ≠ i →
      Function.update s.slot i { s.slot i with msglen := 0 } k = s.slot k :=
    fun k other => Function.update_of_ne other ..
  have same : ∀ k, k ≠ i → (Due config
      { s.setReader r (.cleared result) with
        slot := Function.update s.slot i { s.slot i with msglen := 0 } } k ↔
      Due config s k) := fun k other =>
    due_congr (congrArg Mailslot.msglen (others k other)) rfl rfl rfl
  refine ⟨?_, fun k dueK pastK => ?_, fun k _ => ?_, fun k took => ?_,
    fun k waits => ?_, fun k full => ?_, fun q => ?_, kept.unanswered⟩
  · exact mutex_setReader kept.mutex inside
  · by_cases here : k = i
    · subst here
      have busy := dueK.busy
      simp at busy
    · have there := (kept.left k ((same k here).mp dueK) pastK).1
      rw [points] at there
      exact absurd (Option.some.inj there).symm here
  · refine .inr ⟨r, ?_⟩
    change (Function.update s.reader r (.cleared result) r).sight = .clearing
    rw [Function.update_self]
    rfl
  · have other : k ≠ i := by
      rintro rfl
      exact nomatch past.symm.trans took
    exact (same k other).mpr (kept.taken k took)
  · have other : k ≠ i := by
      rintro rfl
      exact nomatch due.acknowledged.symm.trans waits
    simp only [others k other]
    exact kept.pending k waits
  · have other : k ≠ i := by
      rintro rfl
      exact nomatch due.rung.symm.trans full
    simp only [others k other]
    exact kept.filled k full
  · change Sees s.legible (Function.update s.reader r (.cleared result) q).sight
    by_cases here : q = r
    · rw [here, Function.update_self, points]
      rfl
    · rw [Function.update_of_ne here]
      exact kept.sees q

/-- A read stores NULL over the pointer to the slot it emptied. -/
theorem forgets (kept : Kept config s) {r : Nat}
    {result : Except Errno (List UInt8)}
    (cleared : s.reader r = .cleared result) :
    Kept config { s.setReader r (.forgotten result) with legible := none } := by
  have clearing : (s.reader r).sight = .clearing := by
    rw [cleared]
    rfl
  have inside : uses s (.reader r) = .inside :=
    inside_of_sight (sees_of_clearing clearing)
  have due : ∀ i, Due config
      { s.setReader r (.forgotten result) with legible := none } i ↔
      Due config s i := fun i => due_congr rfl rfl rfl rfl
  refine ⟨?_, fun i dueI past => ?_, nofun,
    fun i took => (due i).mpr (kept.taken i took), kept.pending,
    kept.filled, fun q => ?_, kept.unanswered⟩
  · exact mutex_setReader kept.mutex inside
  · exact absurd clearing ((kept.left i ((due i).mp dueI) past).2 r)
  · change Sees none (Function.update s.reader r (.forgotten result) q).sight
    by_cases same : q = r
    · rw [same, Function.update_self]
      trivial
    · rw [Function.update_of_ne same]
      have blind : (s.reader q).sight = .blind := by
        by_contra looking
        exact same (kept.alone looking inside)
      rw [blind]
      trivial

/-- A spared event keeps every message accounted for. -/
theorem step (kept : Kept config s) (spared : Spared s label)
    (moves : Moves config s label t) : Kept config t := by
  cases moves with
  | fill slot idle empty nonempty => exact kept.fill slot empty nonempty
  | ring filled => exact kept.ring filled
  | elsewhere idle away => exact kept.elsewhere idle away
  | unmatched pending outside =>
      exact absurd (kept.pending _ pending).1 outside
  | irq pending free slot use taken => exact kept.irq pending free use taken
  | answers pinged => exact False.elim spared
  | stores taken use past => exact kept.stores taken use past spared
  | unlocks stored => exact kept.unlocks stored
  | locksHandler entering => exact kept.locksHandler entering
  | locksReader entering => exact kept.locksReader entering
  | signalsHandler queued => exact kept.signalsHandler queued
  | signalsReader queued => exact kept.signalsReader queued
  | turns outside stays blind => exact kept.turns outside stays blind
  | looks inside stays before allowed =>
      exact kept.looks inside stays before allowed
  | oops looking before null => exact absurd null (kept.not_oops looking before)
  | leaves inside before outside blind =>
      exact kept.leaves inside before outside blind
  | clears copied points => exact kept.clears copied points
  | forgets cleared => exact kept.forgets cleared

end Kept

/-- Over every run of any senders, their interrupts and any reads on one
configuration whose events are spared: in every state reached each message that
the handler is done with is within reach of a read, or its slot is empty. -/
theorem accounted_of_spared (config : Configuration) (trace : List Label)
    (spared : Transition.Meets (step config) Spared (init config) trace) :
    Transition.Always (step config) (Accounted config) (init config) trace :=
  ⟨(Kept.init config).accounted,
    Transition.along_of_invariant
      (fun _ _ _ kept spared taken =>
        have next := Kept.step kept spared (step_moves taken)
        ⟨next, next.accounted⟩)
      (Kept.init config) spared⟩

/-- Client 3 of three and the server. -/
def third : Configuration where
  maxMsglen := 384
  myId := 3
  nSlots := 5
  vectors := id
  positive := by decide
  narrow := by decide
  distinct := fun _ _ same => same

/-- A message is read before the next sender's interrupt stores the pointer. -/
theorem accounted_in_turn :
    Transition.Always (step third) (Accounted third) (init third)
      [.fill 1 3 [104, 105], .ring 1, .irq 1, .lock (.handler 1), .store 1,
        .unlock 1, .enter 0 false, .lock (.reader 0), .check 0, .sample 0,
        .copy 0 64 (false, false), .fill 2 3 [104, 111], .ring 2, .clear 0,
        .forget 0, .release 0, .irq 2, .lock (.handler 2), .store 2] :=
  accounted_of_spared third _ (by decide)

/-- The handler answers a ping, and the slot of the ping stays busy. -/
theorem ping_stays_busy :
    ¬ Transition.Always (step third) (Accounted third) (init third)
      [.fill 1 3 [112, 105, 110, 103], .ring 1, .irq 1, .answer 1] := by
  intro always
  have accounted := Transition.always_run always rfl
  rcases accounted.legible 1 (by decide) ⟨rfl, rfl, rfl, rfl⟩ with
    points | ⟨r, on⟩
  · exact absurd points (by decide)
  · exact nomatch on

end FameZ.Monolithic.Readers
