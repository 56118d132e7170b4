/-
Module: FameZ.Kernel.Release
Purpose: When a read releases exactly what it read.
Trusted boundary: none
Main exports: ReleasesOwn, Undisturbed, Tracked, release_iff_undisturbed
-/
import FameZ.Kernel.Receiver

namespace FameZ.Kernel

/-!
famez_release_incoming goes by the adapter's pointer and not by the one the
read worked with.  The two agree as long as nobody else moved the pointer in
between, and disagree from then on.
-/

/-- The claim on one event: a release finds the pointer on the very
installation its read sampled, and empties that slot and no other. -/
def ReleasesOwn (s : State) (label : Label) (t : State) : Prop :=
  ∀ r, label = .release r →
    ∃ install, (s.reader r).sampled = some install ∧
      s.incoming = some install ∧ (t.slot install.slot).buflen = 0 ∧
      ∀ i, i ≠ install.slot → t.slot i = s.slot i

/-- The condition on one event: since the releasing read sampled the pointer,
no interrupt was left to the readers and no other read released. -/
def Undisturbed (s : State) : Label → Prop
  | .release r => s.disturbed r = false
  | _ => True

/-- The pointer of a read is the adapter's as long as it is undisturbed, and
never again afterwards. -/
structure Tracked (s : State) : Prop where
  current : ∀ install, s.incoming = some install → install.number < s.installs
  earlier : ∀ r install, (s.reader r).sampled = some install →
    install.number < s.installs
  own : ∀ r install, (s.reader r).sampled = some install →
    s.disturbed r = false → s.incoming = some install
  foreign : ∀ r install, (s.reader r).sampled = some install →
    s.disturbed r = true → ∀ other, s.incoming = some other →
      other.number ≠ install.number

namespace Tracked

variable {adapter : Adapter} {s t : State} {label : Label}

theorem init : Tracked init := ⟨nofun, nofun, nofun, nofun⟩

/-- A step that leaves the pointer alone and samples nothing. -/
theorem of_same (tracked : Tracked s) (incoming : t.incoming = s.incoming)
    (installs : t.installs = s.installs)
    (disturbed : t.disturbed = s.disturbed)
    (readers : ∀ r install, (t.reader r).sampled = some install →
      (s.reader r).sampled = some install) : Tracked t := by
  refine ⟨?_, ?_, ?_, ?_⟩
  · rw [incoming, installs]
    exact tracked.current
  · intro r install sampled
    rw [installs]
    exact tracked.earlier r install (readers r install sampled)
  · intro r install sampled quiet
    rw [disturbed] at quiet
    rw [incoming]
    exact tracked.own r install (readers r install sampled) quiet
  · intro r install sampled noisy
    rw [disturbed] at noisy
    rw [incoming]
    exact tracked.foreign r install (readers r install sampled) noisy

theorem sampled_setReader {r : Nat} {reader : Reader}
    (kept : ∀ install, reader.sampled = some install →
      (s.reader r).sampled = some install) (q : Nat) (install : Install)
    (sampled : ((s.setReader r reader).reader q).sampled = some install) :
    (s.reader q).sampled = some install := by
  rw [reader_setReader] at sampled
  by_cases same : q = r
  · rw [same, Function.update_self] at sampled
    exact same ▸ kept install sampled
  · rwa [Function.update_of_ne same] at sampled

theorem disturb_of_sampled {r : Nat} {install : Install}
    (sampled : (s.reader r).sampled = some install) :
    s.disturb r = true := by
  rw [State.disturb, sampled]
  exact Bool.or_true _

/-- An interrupt installs a number no read has sampled. -/
theorem left (tracked : Tracked s) {i : Nat}
    (incoming : t.incoming = some { slot := i, number := s.installs })
    (installs : t.installs = s.installs + 1)
    (disturbed : t.disturbed = s.disturb) (readers : t.reader = s.reader) :
    Tracked t := by
  refine ⟨fun install points => ?_, fun r install sampled => ?_,
    fun r install sampled quiet => ?_,
    fun r install sampled _ other points => ?_⟩
  · rw [incoming] at points
    cases points
    rw [installs]
    exact Nat.lt_succ_self _
  · rw [readers] at sampled
    rw [installs]
    exact Nat.lt_succ_of_lt (tracked.earlier r install sampled)
  · rw [readers] at sampled
    rw [disturbed, disturb_of_sampled sampled] at quiet
    cases quiet
  · rw [readers] at sampled
    rw [incoming] at points
    cases points
    exact Nat.ne_of_gt (tracked.earlier r install sampled)

/-- A release leaves no pointer. -/
theorem released (tracked : Tracked s) {r : Nat} :
    Tracked ((famezReleaseIncoming s).setReader r .idle) := by
  have readers : ∀ q install,
      (((famezReleaseIncoming s).setReader r .idle).reader q).sampled =
        some install → (s.reader q).sampled = some install := by
    intro q install sampled
    have before : ((famezReleaseIncoming s).reader q).sampled =
        some install :=
      sampled_setReader (fun _ none => by cases none) q install sampled
    unfold famezReleaseIncoming at before
    split at before <;> exact before
  cases points : s.incoming with
  | none =>
      refine tracked.of_same ?_ ?_ ?_ readers <;>
        simp [famezReleaseIncoming, points, State.setReader]
  | some own =>
      rw [famezReleaseIncoming, points] at readers ⊢
      refine ⟨nofun, fun q install sampled => ?_,
        fun q install sampled quiet => ?_, fun q install _ _ other here => ?_⟩
      · exact tracked.earlier q install (readers q install sampled)
      · have quiet : s.disturb q = false := quiet
        rw [disturb_of_sampled (readers q install sampled)] at quiet
        cases quiet
      · cases here

theorem sampled (tracked : Tracked s) {r : Nat} {install : Install}
    (points : s.incoming = some install) :
    Tracked
      { s.setReader r (.reading install) with
        disturbed := Function.update s.disturbed r false } := by
  refine ⟨tracked.current, fun q other reads => ?_,
    fun q other reads quiet => ?_, fun q other reads noisy => ?_⟩
  · by_cases same : q = r
    · subst same
      simp only [State.setReader, Function.update_self, Reader.sampled,
        Option.some.injEq] at reads
      exact reads ▸ tracked.current install points
    · simp only [State.setReader, Function.update_of_ne same] at reads
      exact tracked.earlier q other reads
  · by_cases same : q = r
    · subst same
      simp only [State.setReader, Function.update_self, Reader.sampled,
        Option.some.injEq] at reads
      exact reads ▸ points
    · simp only [State.setReader, Function.update_of_ne same] at reads quiet
      exact tracked.own q other reads quiet
  · by_cases same : q = r
    · subst same
      simp at noisy
    · simp only [State.setReader, Function.update_of_ne same] at reads noisy
      exact tracked.foreign q other reads noisy

/-- The invariant needs no condition: it says what becomes of either kind of
read. -/
theorem step (tracked : Tracked s) (moves : Moves adapter s label t) :
    Tracked t := by
  cases moves with
  | fill => exact tracked.of_same rfl rfl rfl fun _ _ => id
  | ring => exact tracked.of_same rfl rfl rfl fun _ _ => id
  | elsewhere => exact tracked.of_same rfl rfl rfl fun _ _ => id
  | unmatched => exact tracked.of_same rfl rfl rfl fun _ _ => id
  | consumed => exact tracked.of_same rfl rfl rfl fun _ _ => id
  | left => exact tracked.left rfl rfl rfl rfl
  | moved before after =>
      refine tracked.of_same rfl rfl rfl (sampled_setReader ?_)
      intro install held
      rw [after] at held
      cases held
  | sampled present points => exact tracked.sampled points
  | copied reading =>
      refine tracked.of_same rfl rfl rfl (sampled_setReader ?_)
      intro install held
      rw [reading]
      exact held
  | released => exact tracked.released

/-- An undisturbed release is of what was read. -/
theorem releasesOwn (tracked : Tracked s) (quiet : Undisturbed s label)
    (moves : Moves adapter s label t) : ReleasesOwn s label t := by
  rintro r rfl
  cases moves with
  | moved before after noRelease => exact False.elim (noRelease r rfl)
  | released holds free =>
      rename_i install result
      have sampled : (s.reader r).sampled = some install := by
        rw [holds]
        rfl
      have points := tracked.own r install sampled quiet
      refine ⟨install, sampled, points, ?_, fun i other => ?_⟩
      · simp [famezReleaseIncoming, points, State.setReader]
      · simp [famezReleaseIncoming, points, State.setReader, other]

/-- A disturbed one is not. -/
theorem not_releasesOwn (tracked : Tracked s) (noisy : ¬ Undisturbed s label) :
    ¬ ReleasesOwn s label t := by
  intro releases
  cases label with
  | release r =>
      obtain ⟨install, sampled, points, -⟩ := releases r rfl
      have disturbed : s.disturbed r = true := by
        simpa [Undisturbed] using noisy
      exact tracked.foreign r install sampled disturbed install points rfl
  | _ => exact noisy trivial

end Tracked

/-- Over every run of any interrupts and any concurrent reads on one adapter:
every release finds the pointer its read sampled and empties exactly that slot,
if and only if in every release the pointer was neither installed nor released
by others since the read sampled it. -/
theorem release_iff_undisturbed (adapter : Adapter) (trace : List Label) :
    Transition.Along (step adapter) ReleasesOwn init trace ↔
      Transition.Meets (step adapter) Undisturbed init trace :=
  Transition.along_iff_meets
    (fun _ _ _ tracked quiet taken =>
      ⟨tracked.step (step_moves taken),
        tracked.releasesOwn quiet (step_moves taken)⟩)
    (fun _ _ _ tracked noisy _ => tracked.not_releasesOwn noisy)
    Tracked.init

/-- An interrupt of sender 2 between the copy and the release of a read of
sender 1: the release empties the slot of sender 2. -/
theorem release_of_other_sender :
    ¬ Transition.Along
        (step { myId := 3, nClients := 3, vectors := id,
                distinct := fun _ _ same => same })
        ReleasesOwn init
        ([.fill 1 3 [104, 105], .ring 1, .irq 1, .enter 0 false, .check 0,
          .sample 0, .copy 0 64 (false, false),
          .fill 2 3 [104, 105], .ring 2, .irq 2] ++ [.release 0]) := by
  intro along
  have releases := Transition.along_last along rfl rfl
  obtain ⟨install, sampled, points, -⟩ := releases 0 rfl
  cases sampled
  exact absurd points (by decide)

end FameZ.Kernel
