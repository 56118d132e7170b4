/-
Module: FameZ.Kernel.Orphans
Purpose: When a message that the interrupt handler left to the readers stays
  within their reach.
Trusted boundary: none
Main exports: WithinReach, Spaced, Kept, reach_iff_spaced
-/
import FameZ.Kernel.Receiver

namespace FameZ.Kernel

/-!
The busy flag of a message is in its sender's slot, the way to it is the one
pointer of the adapter.  An interrupt that overwrites the pointer leaves the
earlier slot busy with nobody to empty it.
-/

/-- Every message that was handled and is still in its slot can be reached:
the readers' pointer is on it or its interrupt is pending again. -/
def WithinReach (s : State) : Prop :=
  ∀ i, (s.slot i).buflen ≠ 0 → s.handled i = true →
    s.incoming.map Install.slot = some i ∨ s.pending i = true

/-- The condition on one event: an interrupt that is left to the readers finds
the pointer free. -/
def Spaced (s : State) : Label → Prop
  | .irq i =>
      (famezLinkRequest (s.slot i) s.core).2.2 = none → s.incoming = none
  | _ => True

instance (s : State) (label : Label) : Decidable (Spaced s label) := by
  cases label <;> unfold Spaced <;> infer_instance

/-- The messages of a run whose interrupts are all spaced. -/
structure Kept (adapter : Adapter) (s : State) : Prop where
  busy : ∀ install, s.incoming = some install →
    (s.slot install.slot).buflen ≠ 0 ∧ s.handled install.slot = true
  reach : ∀ i, (s.slot i).buflen ≠ 0 → s.handled i = true →
    s.incoming.map Install.slot = some i
  rung : ∀ i, s.pending i = true →
    IsSlot adapter i ∧ (s.slot i).buflen ≠ 0 ∧ s.sender i = .idle ∧
      s.handled i = false ∧ s.addressee i = adapter.myId
  written : ∀ i, s.sender i = .filled →
    IsSlot adapter i ∧ (s.slot i).buflen ≠ 0 ∧ s.handled i = false ∧
      s.pending i = false
  ours : ∀ i, s.handled i = true → s.addressee i = adapter.myId

namespace Kept

variable {adapter : Adapter} {s t : State} {label : Label}

theorem init (adapter : Adapter) : Kept adapter init := by
  refine ⟨nofun, ?_, nofun, nofun, nofun⟩
  intro i busy
  exact False.elim (busy rfl)

theorem withinReach (kept : Kept adapter s) : WithinReach s :=
  fun i busy handled => Or.inl (kept.reach i busy handled)

/-- The readers' own steps do not show. -/
theorem of_same (kept : Kept adapter s) (slot : t.slot = s.slot)
    (incoming : t.incoming = s.incoming) (handled : t.handled = s.handled)
    (pending : t.pending = s.pending) (sender : t.sender = s.sender)
    (addressee : t.addressee = s.addressee) : Kept adapter t := by
  refine ⟨?_, ?_, ?_, ?_, ?_⟩
  · rw [slot, incoming, handled]
    exact kept.busy
  · rw [slot, incoming, handled]
    exact kept.reach
  · rw [slot, pending, handled, sender, addressee]
    exact kept.rung
  · rw [slot, pending, handled, sender]
    exact kept.written
  · rw [handled, addressee]
    exact kept.ours

theorem fill (kept : Kept adapter s) {i dest : Nat} {msg : List UInt8}
    (slot : IsSlot adapter i) (empty : (s.slot i).buflen = 0)
    (nonempty : msg ≠ []) :
    Kept adapter
      { s with
        slot := Function.update s.slot i (fillSlot dest msg (s.slot i))
        sender := Function.update s.sender i .filled
        addressee := Function.update s.addressee i dest
        handled := Function.update s.handled i false } := by
  have length : msg.length ≠ 0 := fun none =>
    nonempty (List.length_eq_zero_iff.mp none)
  have quiet : s.pending i = false := by
    rw [Bool.eq_false_iff]
    intro pending
    exact (kept.rung i pending).2.1 empty
  refine ⟨fun install points => ?_, fun j busy handled => ?_,
    fun j pending => ?_, fun j filled => ?_, fun j handled => ?_⟩
  · have before := kept.busy install points
    have other : install.slot ≠ i := fun same => before.1 (same ▸ empty)
    simp only [Function.update_of_ne other]
    exact before
  · by_cases same : j = i
    · subst same
      simp at handled
    · simp only [Function.update_of_ne same] at busy handled
      exact kept.reach j busy handled
  · have pending : s.pending j = true := pending
    have other : j ≠ i := by
      rintro rfl
      rw [quiet] at pending
      cases pending
    simp only [Function.update_of_ne other]
    exact kept.rung j pending
  · by_cases same : j = i
    · subst same
      simp only [Function.update_self]
      exact ⟨slot, length, trivial, quiet⟩
    · simp only [Function.update_of_ne same] at filled ⊢
      exact kept.written j filled
  · by_cases same : j = i
    · subst same
      simp at handled
    · simp only [Function.update_of_ne same] at handled ⊢
      exact kept.ours j handled

theorem ring (kept : Kept adapter s) {i : Nat}
    (filled : s.sender i = .filled) :
    Kept adapter
      { s with
        sender := Function.update s.sender i .idle
        pending := Function.update s.pending i
          (s.pending i || decide (s.addressee i = adapter.myId)) } := by
  obtain ⟨slot, busy, fresh, quiet⟩ := kept.written i filled
  refine ⟨kept.busy, kept.reach, fun j pending => ?_, fun j busyJ => ?_,
    kept.ours⟩
  · by_cases same : j = i
    · subst same
      simp only [Function.update_self, quiet, Bool.false_or,
        decide_eq_true_eq] at pending ⊢
      exact ⟨slot, busy, trivial, fresh, pending⟩
    · simp only [Function.update_of_ne same] at pending ⊢
      exact kept.rung j pending
  · by_cases same : j = i
    · subst same
      simp at busyJ
    · simp only [Function.update_of_ne same] at busyJ ⊢
      exact kept.written j busyJ

/-- Emptying a slot that is neither pending nor being written, with the pointer
off it. -/
theorem empty (kept : Kept adapter s) {i : Nat} {slot : Mailslot}
    {pending : Nat → Bool} {incoming : Option Install}
    (idle : s.sender i ≠ .filled) (emptied : slot.buflen = 0)
    (pendings : ∀ j, pending j = true → j ≠ i ∧ s.pending j = true)
    (quiet : ∀ j, s.pending j = false → pending j = false)
    (points : ∀ install, incoming = some install →
      s.incoming = some install ∧ install.slot ≠ i)
    (keeps : ∀ j, j ≠ i → s.incoming.map Install.slot = some j →
      incoming.map Install.slot = some j)
    (slots : t.slot = Function.update s.slot i slot)
    (incomings : t.incoming = incoming) (handled : t.handled = s.handled)
    (rings : t.pending = pending) (sender : t.sender = s.sender)
    (addressee : t.addressee = s.addressee) : Kept adapter t := by
  refine ⟨fun install here => ?_, fun j busy done => ?_,
    fun j waiting => ?_, fun j filled => ?_, ?_⟩
  · rw [incomings] at here
    obtain ⟨before, other⟩ := points install here
    rw [slots, Function.update_of_ne other, handled]
    exact kept.busy install before
  · rw [slots] at busy
    rw [handled] at done
    by_cases same : j = i
    · rw [same, Function.update_self, emptied] at busy
      exact False.elim (busy rfl)
    · rw [Function.update_of_ne same] at busy
      rw [incomings]
      exact keeps j same (kept.reach j busy done)
  · rw [rings] at waiting
    obtain ⟨other, before⟩ := pendings j waiting
    rw [slots, Function.update_of_ne other, sender, handled, addressee]
    exact kept.rung j before
  · rw [sender] at filled
    have other : j ≠ i := fun same => idle (same ▸ filled)
    obtain ⟨inside, busy, fresh, silent⟩ := kept.written j filled
    rw [slots, Function.update_of_ne other, handled, rings]
    exact ⟨inside, busy, fresh, quiet j silent⟩
  · rw [handled, addressee]
    exact kept.ours

/-- A pending interrupt finds the pointer elsewhere. -/
theorem away_of_pending (kept : Kept adapter s) {i : Nat}
    (pending : s.pending i = true) (install : Install)
    (points : s.incoming = some install) : install.slot ≠ i := by
  rintro rfl
  have fresh := (kept.rung _ pending).2.2.2.1
  rw [(kept.busy install points).2] at fresh
  cases fresh

theorem left (kept : Kept adapter s) {i : Nat}
    (pending : s.pending i = true) (free : s.incoming = none)
    (passes : (famezLinkRequest (s.slot i) s.core).2.2 = none) :
    Kept adapter
      { s with
        pending := Function.update s.pending i false
        slot := Function.update s.slot i
          (famezLinkRequest (s.slot i) s.core).1
        core := (famezLinkRequest (s.slot i) s.core).2.1
        incoming := some { slot := i, number := s.installs }
        installs := s.installs + 1
        handled := Function.update s.handled i true
        disturbed := s.disturb } := by
  obtain ⟨inside, busy, idle, fresh, mine⟩ := kept.rung i pending
  have length : (famezLinkRequest (s.slot i) s.core).1.buflen =
      (s.slot i).buflen := by
    rw [famezLinkRequest_slot, passes]
    rfl
  refine ⟨fun install points => ?_, fun j busyJ handled => ?_,
    fun j waiting => ?_, fun j filled => ?_, fun j handled => ?_⟩
  · cases points
    simp only [Function.update_self]
    exact ⟨length ▸ busy, trivial⟩
  · by_cases same : j = i
    · rw [same]
      rfl
    · simp only [Function.update_of_ne same] at busyJ handled
      have before := kept.reach j busyJ handled
      rw [free] at before
      cases before
  · by_cases same : j = i
    · subst same
      simp at waiting
    · simp only [Function.update_of_ne same] at waiting ⊢
      exact kept.rung j waiting
  · have other : j ≠ i := by
      rintro rfl
      exact nomatch idle.symm.trans filled
    simp only [Function.update_of_ne other]
    exact kept.written j filled
  · by_cases same : j = i
    · exact same ▸ mine
    · simp only [Function.update_of_ne same] at handled
      exact kept.ours j handled

theorem consumed (kept : Kept adapter s) {i : Nat}
    (pending : s.pending i = true) {reply : Reply}
    (answers : (famezLinkRequest (s.slot i) s.core).2.2 = some reply) :
    Kept adapter
      { s with
        pending := Function.update s.pending i false
        slot := Function.update s.slot i
          (famezLinkRequest (s.slot i) s.core).1
        core := (famezLinkRequest (s.slot i) s.core).2.1 } := by
  obtain ⟨-, -, idle, -, -⟩ := kept.rung i pending
  refine kept.empty (by rw [idle]; exact nofun) ?_ ?_ ?_
    (fun install points => ⟨points, kept.away_of_pending pending _ points⟩)
    (fun _ _ points => points) rfl rfl rfl rfl rfl rfl
  · rw [famezLinkRequest_slot, answers]
    rfl
  · intro j waiting
    by_cases same : j = i
    · simp [same] at waiting
    · simp only [Function.update_of_ne same] at waiting
      exact ⟨same, waiting⟩
  · intro j silent
    by_cases same : j = i
    · simp [same]
    · simp only [Function.update_of_ne same]
      exact silent

theorem elsewhere (kept : Kept adapter s) {i : Nat}
    (idle : s.sender i = .idle) (away : s.addressee i ≠ adapter.myId) :
    Kept adapter
      { s with
        slot := Function.update s.slot i
          { s.slot i with buflen := 0 } } := by
  refine kept.empty (by rw [idle]; exact nofun) rfl ?_
    (fun _ silent => silent) ?_ (fun _ _ points => points) rfl rfl rfl rfl
    rfl rfl
  · intro j waiting
    refine ⟨?_, waiting⟩
    rintro rfl
    exact away (kept.rung j waiting).2.2.2.2
  · intro install points
    refine ⟨points, ?_⟩
    rintro rfl
    exact away (kept.ours _ (kept.busy install points).2)

theorem released (kept : Kept adapter s) {r : Nat} :
    Kept adapter ((famezReleaseIncoming s).setReader r .idle) := by
  unfold famezReleaseIncoming
  cases points : s.incoming with
  | none => exact kept.of_same rfl points.symm rfl rfl rfl rfl
  | some install =>
      have handled := (kept.busy install points).2
      refine kept.empty ?_ rfl ?_ (fun _ silent => silent) ?_ ?_ rfl rfl rfl
        rfl rfl rfl
      · intro filled
        have fresh := (kept.written _ filled).2.2.1
        rw [handled] at fresh
        cases fresh
      · intro j waiting
        refine ⟨?_, waiting⟩
        rintro rfl
        have fresh := (kept.rung _ waiting).2.2.2.1
        rw [handled] at fresh
        cases fresh
      · intro other here
        cases here
      · intro j other same
        rw [points] at same
        exact False.elim (other (Option.some.inj same).symm)

/-- A spaced event keeps every message within reach. -/
theorem step (kept : Kept adapter s) (spaced : Spaced s label)
    (moves : Moves adapter s label t) : Kept adapter t := by
  cases moves with
  | fill slot idle empty nonempty => exact kept.fill slot empty nonempty
  | ring filled => exact kept.ring filled
  | elsewhere idle away => exact kept.elsewhere idle away
  | unmatched pending outside =>
      exact False.elim (outside (kept.rung _ pending).1)
  | consumed pending inside answers => exact kept.consumed pending answers
  | left pending inside passes =>
      exact kept.left pending (spaced passes) passes
  | moved => exact kept.of_same rfl rfl rfl rfl rfl rfl
  | sampled present points => exact kept.of_same rfl rfl rfl rfl rfl rfl
  | copied reading => exact kept.of_same rfl rfl rfl rfl rfl rfl
  | released holds free => exact kept.released

/-- An interrupt that overwrites the pointer orphans the message it was on. -/
theorem step_broken (kept : Kept adapter s) (crowded : ¬ Spaced s label)
    (moves : Moves adapter s label t) : ¬ WithinReach t := by
  cases moves with
  | left pending inside passes =>
      rename_i i
      simp only [Spaced, Classical.not_imp] at crowded
      obtain ⟨install, points⟩ := Option.ne_none_iff_exists'.mp crowded.2
      obtain ⟨busy, handled⟩ := kept.busy install points
      have other := kept.away_of_pending pending install points
      intro reach
      have lost := reach install.slot
        (by simpa only [Function.update_of_ne other] using busy)
        (by simpa only [Function.update_of_ne other] using handled)
      simp only [Option.map_some, Option.some.injEq,
        Function.update_of_ne other] at lost
      rcases lost with same | waiting
      · exact other same.symm
      · have fresh := (kept.rung _ waiting).2.2.2.1
        rw [handled] at fresh
        cases fresh
  | consumed pending inside answers =>
      refine False.elim (crowded fun passes => ?_)
      rw [answers] at passes
      cases passes
  | unmatched pending outside =>
      exact False.elim (outside (kept.rung _ pending).1)
  | moved before after noRelease noIrq =>
      refine False.elim (crowded ?_)
      cases label with
      | irq i => exact False.elim (noIrq i rfl)
      | _ => trivial
  | fill => exact False.elim (crowded trivial)
  | ring => exact False.elim (crowded trivial)
  | elsewhere => exact False.elim (crowded trivial)
  | sampled => exact False.elim (crowded trivial)
  | copied => exact False.elim (crowded trivial)
  | released => exact False.elim (crowded trivial)

end Kept

/-- Over every run of any senders and any reads on one adapter: in every state
reached each message that the handler left to the readers and that is still in
its slot is within their reach, if and only if every interrupt that is left to
them finds the pointer free. -/
theorem reach_iff_spaced (adapter : Adapter) (trace : List Label) :
    Transition.Always (step adapter) WithinReach init trace ↔
      Transition.Meets (step adapter) Spaced init trace :=
  Transition.always_iff_meets
    (fun _ _ _ kept spaced taken => kept.step spaced (step_moves taken))
    (fun _ kept => kept.withinReach)
    (fun _ _ _ kept crowded taken => kept.step_broken crowded (step_moves taken))
    (Kept.init adapter)

/-- Two senders ring before anyone reads: the first message is orphaned. -/
theorem orphan_of_second_sender :
    ¬ Transition.Always
        (step { myId := 3, nClients := 3, vectors := id,
                distinct := fun _ _ same => same })
        WithinReach init
        [.fill 1 3 [104, 105], .ring 1, .irq 1,
          .fill 2 3 [104, 105], .ring 2, .irq 2] := by
  intro always
  have reach := Transition.always_run always rfl
  have lost := reach 1 (by decide) rfl
  exact absurd lost (by decide)

end FameZ.Kernel
