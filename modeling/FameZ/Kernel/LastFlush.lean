/-
Module: FameZ.Kernel.LastFlush
Purpose: The accounts of exclusive open in terms of the schedule: when the last
  flush of a file runs and where opens stand meanwhile.
Trusted boundary: none
Main exports: File.Closed, FlushedAlone, Undisturbed, Recorded,
  accounted_iff_undisturbed
-/
import FameZ.Kernel.ExclusiveOpen

namespace FameZ.Kernel.ExclusiveOpen

/-!
famez_bridge_flush takes itself for the last one when it finds `f_count` 1.
That is right if nothing else holds a reference when the last close flushes.
-/

variable {s t : State} {label : Label} {f : Nat} {new : File}

/-- All closes of the file are past their flush, and its release has not
ended. -/
def File.Closed : File → Prop
  | .opened file =>
      file.descriptors = 0 ∧ file.closing = 0 ∧ file.alone = 0
  | .releasing _ _ => True
  | _ => False

/-- The last flush of the file found `f_count` 1: no transfer, no descriptor
and no other close held a reference then. -/
def FlushedAlone (past : List Label) (f : Nat) : Prop :=
  ∃ before after s file, past = before ++ .flush f :: after ∧
    .flush f ∉ after ∧ Transition.run step init before = some s ∧
      s.file f = .opened file ∧ file.fCount = 1

/-- No open gets its buffers while another file is closed and not yet released,
and where a release looks at the count, the last flush of its file was alone
and no open is on its way. -/
def Undisturbed (past : List Label) (s : State) : Label → Prop
  | .allocate _ true => ∀ g, ¬ (s.file g).Closed
  | .check f => FlushedAlone past f ∧ ∀ g, ¬ (s.file g).Opening
  | _ => True

/-! ### The last flush -/

theorem flushedAlone_append (other : label ≠ .flush f) (past : List Label) :
    FlushedAlone (past ++ [label]) f ↔ FlushedAlone past f := by
  constructor
  · rintro ⟨before, after, s, file, split, last, rest⟩
    rcases List.eq_nil_or_concat after with rfl | ⟨after, final, rfl⟩
    · exact absurd (List.append_inj' split rfl).2 (by simpa using other)
    · rw [List.concat_eq_append, ← List.cons_append,
        ← List.append_assoc] at split
      obtain ⟨rfl, -⟩ := List.append_inj' split rfl
      rw [List.concat_eq_append, List.mem_append, not_or] at last
      exact ⟨before, after, s, file, rfl, last.1, rest⟩
  · rintro ⟨before, after, s, file, rfl, last, rest⟩
    refine ⟨before, after ++ [label], s, file, by simp, ?_, rest⟩
    rw [List.mem_append, List.mem_singleton, not_or]
    exact ⟨last, Ne.symm other⟩

/-- The flush that was just made is the last. -/
theorem flushedAlone_flush {past : List Label} {file : OpenFile}
    (reached : Transition.run step init past = some s)
    (opened : s.file f = .opened file) :
    FlushedAlone (past ++ [.flush f]) f ↔ file.fCount = 1 := by
  constructor
  · rintro ⟨before, after, u, other, split, last, here, openedToo, single⟩
    rcases List.eq_nil_or_concat after with rfl | ⟨after, final, rfl⟩
    · obtain ⟨rfl, -⟩ := List.append_inj' split rfl
      rw [reached] at here
      cases here
      rw [opened] at openedToo
      cases openedToo
      exact single
    · rw [List.concat_eq_append, ← List.cons_append,
        ← List.append_assoc] at split
      obtain ⟨-, same⟩ := List.append_inj' split rfl
      cases same
      exact absurd (by simp) last
  · intro single
    exact ⟨past, [], s, file, rfl, List.not_mem_nil, reached, opened, single⟩

/-- What a file remembers of its last flush: the flush lowered the count, or is
about to, exactly if it was alone. -/
def File.Recorded (alone : Prop) : File → Prop
  | .opened file =>
      file.Sound ∧ (file.lowered = true ∨ 0 < file.alone ↔ alone)
  | .releasing _ lowered => lowered = true ↔ alone
  | .released => True
  | _ => ¬ alone

def Recorded (past : List Label) (s : State) : Prop :=
  ∀ f, (s.file f).Recorded (FlushedAlone past f)

theorem Recorded.set {past : List Label} (recorded : Recorded past s)
    (changed : t.file = Function.update s.file f new)
    (own : ∀ g, label = .flush g → g = f)
    (here : new.Recorded (FlushedAlone (past ++ [label]) f)) :
    Recorded (past ++ [label]) t := by
  intro g
  rw [changed]
  by_cases same : g = f
  · rw [same, Function.update_self]
    exact here
  · rw [Function.update_of_ne same,
      flushedAlone_append (fun flush => same (own g flush))]
    exact recorded g

/-- A step of a file that is no flush. -/
theorem Recorded.keep {past : List Label} (recorded : Recorded past s)
    (changed : t.file = Function.update s.file f new)
    (other : ∀ g, label ≠ .flush g)
    (here : (s.file f).Recorded (FlushedAlone past f) →
      new.Recorded (FlushedAlone past f)) :
    Recorded (past ++ [label]) t := by
  refine recorded.set changed (fun g flush => absurd flush (other g)) ?_
  rw [flushedAlone_append (other f)]
  exact here (recorded f)

/-- The steps of the references other than a flush leave alone what a file
remembers. -/
theorem alone_of_reference {change : OpenFile → Option OpenFile}
    {file after : OpenFile} (reference : label.reference? = some (f, change))
    (other : ∀ g, label ≠ .flush g) (changed : change file = some after) :
    after.alone = file.alone := by
  cases label with
  | flush g => exact absurd rfl (other g)
  | dup f =>
      cases reference
      obtain ⟨-, rfl⟩ := OpenFile.of_guarded rfl changed
      rfl
  | begin f =>
      cases reference
      obtain ⟨-, rfl⟩ := OpenFile.of_guarded rfl changed
      rfl
  | finish f =>
      cases reference
      obtain ⟨-, rfl⟩ := OpenFile.of_guarded rfl changed
      rfl
  | close f =>
      cases reference
      obtain ⟨-, rfl⟩ := OpenFile.of_guarded rfl changed
      rfl
  | put f =>
      cases reference
      obtain ⟨-, rfl⟩ := OpenFile.of_guarded rfl changed
      rfl
  | _ => cases reference

/-- A flush is about to lower the count exactly if it is alone. -/
theorem alone_of_flush {file after : OpenFile} (sound : file.Sound)
    (flushed : file.flush = some after) :
    after.lowered = true ∨ 0 < after.alone ↔ file.fCount = 1 := by
  unfold OpenFile.flush at flushed
  split at flushed
  · rename_i closes
    have count := sound.count
    obtain ⟨none?, high⟩ := sound.busy (by omega)
    split at flushed
    · rename_i single
      cases flushed
      exact iff_of_true (Or.inr (Nat.zero_lt_succ _)) single
    · rename_i shared
      cases flushed
      refine iff_of_false ?_ shared
      rintro (low | some?)
      · exact absurd (high.symm.trans low) (by decide)
      · exact Nat.ne_of_gt some? none?
  · cases flushed

theorem Recorded.step {past : List Label} (recorded : Recorded past s)
    (reached : Transition.run ExclusiveOpen.step init past = some s)
    (moves : Moves s label t) : Recorded (past ++ [label]) t := by
  cases moves with
  | counted unused only =>
      exact recorded.keep rfl nofun fun was => by rwa [unused] at was
  | refused unused users =>
      exact recorded.keep rfl nofun fun was => by rwa [unused] at was
  | starved counted =>
      exact recorded.keep rfl nofun fun was => by rwa [counted] at was
  | backed failing =>
      exact recorded.keep rfl nofun fun was => by rwa [failing] at was
  | allocated counted =>
      refine recorded.keep rfl nofun fun was => ?_
      rw [counted] at was
      exact ⟨OpenFile.sound_newFile, iff_of_false (by decide) was⟩
  | lowered opened lowers =>
      refine recorded.keep rfl nofun fun was => ?_
      rw [opened] at was
      obtain ⟨sound, -, low⟩ := OpenFile.sound_lower was.1 lowers
      have about := (OpenFile.of_guarded rfl lowers).1
      exact ⟨sound, iff_of_true (Or.inl low) (was.2.mp (Or.inr about))⟩
  | released opened unreferenced =>
      refine recorded.keep rfl nofun fun was => ?_
      rw [opened] at was
      have count := was.1.count
      refine Iff.trans ⟨Or.inl, fun either => either.resolve_right ?_⟩ was.2
      omega
  | passed checking nobody =>
      exact recorded.keep rfl nofun fun was => by rwa [checking] at was
  | caught checking users =>
      exact recorded.keep rfl nofun fun was => by rwa [checking] at was
  | freed freeing =>
      exact recorded.keep rfl nofun fun was => by rwa [freeing] at was
  | faulted freeing =>
      exact recorded.keep rfl nofun fun was => by rwa [freeing] at was
  | cleared clearing => exact recorded.keep rfl nofun fun _ => trivial
  | referenced reference opened changed =>
      rename_i f change file after
      have was := recorded f
      rw [opened] at was
      obtain ⟨sound, lowered⟩ :=
        steady_of_reference reference file after was.1 changed
      by_cases flush : ∃ g, label = .flush g
      · obtain ⟨g, rfl⟩ := flush
        cases reference
        refine recorded.set rfl (fun h same => ?_) ⟨sound, ?_⟩
        · cases same
          rfl
        · rw [flushedAlone_flush reached opened]
          exact alone_of_flush was.1 changed
      · have other : ∀ g, label ≠ .flush g := fun g same => flush ⟨g, same⟩
        refine recorded.keep rfl other fun _ => ⟨sound, ?_⟩
        rw [lowered, alone_of_reference reference other changed]
        exact was.2

theorem recorded_run {past : List Label}
    (reached : Transition.run step init past = some s) :
    Recorded past s := by
  induction past using List.reverseRecOn generalizing s with
  | nil =>
      cases reached
      rintro f ⟨before, after, -, -, split, -⟩
      exact absurd split (by simp)
  | append_singleton past label inductionHypothesis =>
      rw [Transition.run_append, Option.bind_eq_some_iff] at reached
      obtain ⟨middle, here, taken⟩ := reached
      rw [Transition.run_cons, Option.bind_eq_some_iff] at taken
      obtain ⟨next, taken, same⟩ := taken
      cases same
      exact (inductionHypothesis here).step here (step_moves taken)

/-- A file whose flush lowered the count is closed; and where an open is the
only user, a closed file is one of those. -/
theorem Inv.closing_iff_closed (inv : Inv s) (counted : s.file f = .counted)
    (g : Nat) : (s.file g).Closing ↔ (s.file g).Closed := by
  constructor
  · intro closing
    have sound := inv.sound g
    cases held : s.file g with
    | opened file =>
        rw [held] at closing sound
        have last := sound.last closing
        have count := sound.count
        show file.descriptors = 0 ∧ file.closing = 0 ∧ file.alone = 0
        omega
    | releasing stage lowered => trivial
    | _ =>
        rw [held] at closing
        exact closing.elim
  · intro closed
    have unreleased : (s.file g).Unreleased := by
      cases held : s.file g with
      | opened file => trivial
      | releasing stage lowered => trivial
      | _ =>
          rw [held] at closed
          exact closed.elim
    apply closing_of_light unreleased
    by_contra heavy
    have differ : g ≠ f := by
      rintro rfl
      rw [counted] at unreleased
      exact unreleased.elim
    obtain ⟨errno, failing⟩ :=
      inv.first f counted g differ (Nat.pos_of_ne_zero heavy)
    rw [failing] at unreleased
    exact unreleased.elim

theorem Inv.settled_iff_undisturbed (inv : Inv s) {past : List Label}
    (reached : Transition.run ExclusiveOpen.step init past = some s)
    (moves : Moves s label t) :
    Settled s label ↔ Undisturbed past s label := by
  have flushed : ∀ {f stage lowered}, s.file f = .releasing stage lowered →
      ((s.file f).Closing ↔ FlushedAlone past f) := by
    intro f stage lowered releasing
    have recorded := recorded_run reached f
    rw [releasing] at recorded ⊢
    exact recorded
  cases moves with
  | allocated counted =>
      exact forall_congr' fun g => not_congr (inv.closing_iff_closed counted g)
  | passed checking nobody => exact and_congr_left' (flushed checking)
  | caught checking users => exact and_congr_left' (flushed checking)
  | referenced reference opened changed =>
      cases label with
      | allocate f enough => cases reference
      | check f => cases reference
      | _ => exact Iff.rfl
  | _ => exact Iff.rfl

/-- In every run the accounts are right at each step exactly if each step is
undisturbed. -/
theorem accounted_iff_undisturbed (trace : List Label) :
    Transition.Along step Accounted init trace ↔
      Transition.MeetsSoFar step Undisturbed init trace := by
  refine Transition.along_iff_meetsSoFar
    (fun past s label t reached inv undisturbed taken => ?_)
    (fun past s label t reached inv disturbed taken accounted => ?_)
    inv_init trace
  · have moves := step_moves taken
    have settled := (inv.settled_iff_undisturbed reached moves).mpr undisturbed
    exact ⟨inv.step settled moves, inv.accounted settled moves⟩
  · have moves := step_moves taken
    exact disturbed ((inv.settled_iff_undisturbed reached moves).mp
      (inv.settled moves accounted))

/-- A read is in flight while the only descriptor is closed: the release finds
its user still counted. -/
theorem release_after_last_read :
    ¬ Transition.Along step Accounted init
      ([.add 0, .allocate 0 true, .begin 0, .close 0, .flush 0, .put 0,
        .finish 0, .release 0] ++ [.check 0]) := by
  intro accounted
  have zero := (Transition.along_last accounted rfl rfl).noBug 0 rfl
  cases zero

end FameZ.Kernel.ExclusiveOpen
