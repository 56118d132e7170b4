/-
Module: FameZ.Reference.Memory
Purpose: The size of the shared memory of every server of one host: when it
  stays what was asked for, and when the search for it ends.
Trusted boundary: none
Main exports: rounded_cases, settles, Grants, Keeps, Kept, Suits,
  memory_kept_iff, sizing_ends_iff
-/
import FameZ.Reference.Sockets
import Mathlib.Data.Nat.Log

namespace FameZ.Reference.Launch

/-! The size is a `size_t` that is passed on as an `unsigned`: what is left of
it is rounded up, and a size above 2 GiB comes out as one that is too small, or
as zero.  An object of several servers has the size that the last of them gave
it. -/

variable {pow2ceil : Nat → Nat} {files : Files} {p : Process}
  {action : Action} {after : Process × Files}

/-- The size that is asked for. -/
def Process.asked (p : Process) : Nat := p.args.shmSize.toNat

/-- A size is rounded up to a power of two that fits an `unsigned`, or to
zero. -/
theorem rounded_cases (rounds : Rounds pow2ceil) (args : Args) :
    (args.shmSize.toNat % 2 ^ 32 ≤ 2 ^ 31 ∧
      ∃ k, k ≤ 31 ∧ rounded pow2ceil args = 2 ^ k ∧
        args.shmSize.toNat % 2 ^ 32 ≤ 2 ^ k) ∨
    (2 ^ 31 < args.shmSize.toNat % 2 ^ 32 ∧ rounded pow2ceil args = 0) := by
  have small : args.shmSize.toNat % 2 ^ 32 < 2 ^ 32 :=
    Nat.mod_lt _ (by decide)
  obtain ⟨k, power⟩ := rounds.power _ small
  have above := rounds.above _ small
  rw [rounded, power]
  rw [power] at above
  by_cases fits : args.shmSize.toNat % 2 ^ 32 ≤ 2 ^ 31
  · have least := rounds.least _ 31 small fits
    rw [power] at least
    have bound := (Nat.pow_le_pow_iff_right (a := 2) (by decide)).mp least
    refine .inl ⟨fits, k, bound, Nat.mod_eq_of_lt ?_, above⟩
    exact Nat.pow_lt_pow_right (by decide) (Nat.lt_succ_of_le bound)
  · have least := rounds.least _ 32 small small.le
    rw [power] at least
    have high := (Nat.pow_le_pow_iff_right (a := 2) (by decide)).mp least
    have low := (Nat.pow_lt_pow_iff_right (a := 2) (by decide)).mp
      (Nat.lt_of_lt_of_le (Nat.not_le.mp fits) above)
    obtain rfl : k = 32 := by omega
    exact .inr ⟨Nat.not_le.mp fits, Nat.mod_self _⟩

/-! ### The search -/

/-- The size that is tried next: the rounded one, doubled until it is beyond the
largest.  Zero stays zero. -/
def Searches (least shmsize : Nat) : Prop :=
  (least = 0 ∧ shmsize = 0) ∨
    (least ≠ 0 ∧ least ≤ shmsize ∧ ∃ k, k ≤ 31 ∧ shmsize = 2 ^ k)

theorem searches_rounded (rounds : Rounds pow2ceil) (args : Args) :
    Searches (rounded pow2ceil args) (rounded pow2ceil args) := by
  rcases rounded_cases rounds args with ⟨-, k, bound, power, -⟩ | ⟨-, zero⟩
  · refine .inr ⟨?_, Nat.le_refl _, k, bound, power⟩
    rw [power]
    exact (Nat.two_pow_pos k).ne'
  · exact .inl ⟨zero, zero⟩

/-- A pass of the loop that fails; the product does not wrap around. -/
theorem Searches.double {least shmsize : Nat}
    (searches : Searches least shmsize)
    (small : shmsize ≤ ivshmemServerMaxHugepageSize) :
    Searches least (shmsize * 2 % 2 ^ 32) := by
  rcases searches with ⟨zero, rfl⟩ | ⟨some, above, k, bound, rfl⟩
  · exact .inl ⟨zero, rfl⟩
  · have high : k ≤ 30 :=
      (Nat.pow_le_pow_iff_right (a := 2) (by decide)).mp small
    have fits : 2 ^ k * 2 % 2 ^ 32 = 2 ^ (k + 1) := by
      rw [← Nat.pow_succ]
      exact Nat.mod_eq_of_lt
        (Nat.pow_lt_pow_right (by decide) (by omega))
    rw [fits]
    exact .inr ⟨some,
      Nat.le_trans above (Nat.pow_le_pow_right (by decide) (Nat.le_succ k)),
      k + 1, by omega, rfl⟩

/-- A server that searches does so from its rounded size on. -/
def Process.Searching (pow2ceil : Nat → Nat) (p : Process) : Prop :=
  ∀ shmsize, p.stage = .sizing shmsize →
    Searches (rounded pow2ceil p.args) shmsize

theorem Advance.searching (rounds : Rounds pow2ceil)
    (searching : p.Searching pow2ceil)
    (taken : Advance pow2ceil files p action after) :
    after.1.Searching pow2ceil := by
  intro shmsize here
  cases taken with
  | launch command stage =>
      simp only [Launch.launch] at here
      split at here
      · cases here
      · split at here <;> cases here
  | fstat ok stage =>
      simp only [Launch.fstat] at here ⊢
      split at here
      · cases here
      · rename_i again
        cases here
        rw [if_neg again]
        exact searches_rounded rounds p.args
  | ftruncate tried ok stage =>
      simp only [Launch.ftruncate, Launch.resize] at here ⊢
      split at here
      · rename_i small
        rw [if_pos small]
        split at here
        · split at here <;> cases here
        · rename_i again
          cases here
          rw [if_neg again]
          exact (searching tried stage).double small
      · cases here
  | bind socket bind stage =>
      simp only [Launch.bindSocket] at here
      split at here
      · split at here
        · cases here
        · split at here <;> cases here
      · cases here
  | listen listens daemon pidFile stage =>
      simp only [Launch.listen] at here
      split at here
      · split at here <;> cases here
      · cases here
  | poll server event after stage polled =>
      simp only [Launch.poll] at polled
      split at polled
      · cases polled
      · split at polled <;> cases polled <;> cases here
  | kill born runs alive => cases here

/-! ### Who gets a size -/

/-- The shared memory is there. -/
def Process.Ready (p : Process) : Prop :=
  match p.stage with
  | .sized => True
  | .bound => True
  | .serving _ => True
  | _ => False

/-- Two servers have one POSIX object. -/
def Shares (p q : Process) : Prop :=
  p.args.useShmOpen = true ∧ q.args.useShmOpen = true ∧
    p.object = q.object

/-- The size that a server settles on by an action. -/
def settles (pow2ceil : Nat → Nat) (files : Files) (p : Process) :
    Action → Option Nat
  | .fstat ok =>
      match p.stage with
      | .opened =>
          if ok && decide (p.size files = rounded pow2ceil p.args) then
            some (rounded pow2ceil p.args)
          else none
      | _ => none
  | .ftruncate ok =>
      match p.stage with
      | .sizing shmsize =>
          if shmsize ≤ ivshmemServerMaxHugepageSize ∧ ok = true then
            some shmsize
          else none
      | _ => none
  | _ => none

/-- The server gets its memory, of this size, and so does who shares it. -/
structure Grants (files : Files) (p : Process) (after : Process × Files)
    (shmsize : Nat) : Prop where
  args : after.1.args = p.args
  ready : after.1.Ready
  size : after.1.size after.2 = shmsize
  shared : ∀ q, Shares p q → q.size after.2 = shmsize
  others : ∀ q, ¬ Shares p q → q.size after.2 = q.size files

/-- No size changes, and nobody becomes ready. -/
structure Keeps (files : Files) (p : Process) (after : Process × Files) :
    Prop where
  objects : after.2.objects = files.objects
  same : after.1.Ready →
    p.Ready ∧ after.1.args = p.args ∧ after.1.file = p.file

theorem size_of_shares {q : Process} (shares : Shares p q) :
    q.size files = p.size files := by
  obtain ⟨own, others, same⟩ := shares
  rw [Process.size, Process.size, own, others, same, if_pos rfl, if_pos rfl]

theorem resize_grants (shmsize : Nat) (files : Files) (p : Process) :
    Grants files p (resize shmsize files p) shmsize := by
  unfold resize
  split
  · rename_i object
    refine ⟨rfl, trivial, ?_, fun q shares => ?_, fun q apart => ?_⟩
    · rw [Process.size, if_pos object]
      exact Function.update_self ..
    · simp [Process.size, shares.2.1, shares.2.2]
    · rw [Process.size, Process.size]
      split
      · rename_i posix
        refine Function.update_of_ne (fun same => apart ?_) ..
        exact ⟨object, posix, same.symm⟩
      · rfl
  · rename_i own
    refine ⟨rfl, trivial, ?_, fun q shares => ?_, fun q apart => rfl⟩
    · rw [Process.size, if_neg own]
    · exact absurd shares.1 own

theorem fstat_grants {ok : Bool} {shmsize : Nat} (stage : p.stage = .opened)
    (settled : settles pow2ceil files p (.fstat ok) = some shmsize) :
    Grants files p (fstat pow2ceil ok files p, files) shmsize := by
  simp only [settles, stage] at settled
  split at settled
  · rename_i fits
    cases settled
    rw [fstat, if_pos fits]
    have same : p.size files = rounded pow2ceil p.args := by
      rw [Bool.and_eq_true, decide_eq_true_iff] at fits
      exact fits.2
    refine ⟨rfl, trivial, same, fun q shares => ?_, fun q apart => rfl⟩
    rw [size_of_shares shares, same]
  · cases settled

theorem fstat_keeps {ok : Bool} (stage : p.stage = .opened)
    (unsettled : settles pow2ceil files p (.fstat ok) = none) :
    Keeps files p (fstat pow2ceil ok files p, files) := by
  simp only [settles, stage] at unsettled
  split at unsettled
  · cases unsettled
  · rename_i unfit
    rw [fstat, if_neg unfit]
    exact ⟨rfl, fun ready => ready.elim⟩

theorem ftruncate_grants {ok : Bool} {tried shmsize : Nat}
    (stage : p.stage = .sizing tried)
    (settled : settles pow2ceil files p (.ftruncate ok) = some shmsize) :
    Grants files p (ftruncate tried ok files p) shmsize := by
  simp only [settles, stage] at settled
  split at settled
  · rename_i fits
    cases settled
    rw [ftruncate, if_pos fits.1, if_pos fits.2]
    exact resize_grants tried files p
  · cases settled

theorem ftruncate_keeps {ok : Bool} {tried : Nat}
    (stage : p.stage = .sizing tried)
    (unsettled : settles pow2ceil files p (.ftruncate ok) = none) :
    Keeps files p (ftruncate tried ok files p) := by
  simp only [settles, stage] at unsettled
  split at unsettled
  · cases unsettled
  · rename_i unfit
    rw [ftruncate]
    split
    · rename_i small
      rw [if_neg fun granted => unfit ⟨small, granted⟩]
      exact ⟨rfl, fun ready => ready.elim⟩
    · exact ⟨rfl, fun ready => ready.elim⟩

theorem bindSocket_keeps {socket bind : Bool} (stage : p.stage = .sized) :
    Keeps files p (bindSocket socket bind files p) := by
  have ready : p.Ready := by rw [Process.Ready, stage]; trivial
  unfold bindSocket
  split
  · dsimp only
    split
    · exact ⟨rfl, fun ready => ready.elim⟩
    · split
      · exact ⟨rfl, fun _ => ⟨ready, rfl, rfl⟩⟩
      · exact ⟨rfl, fun ready => ready.elim⟩
  · exact ⟨rfl, fun ready => ready.elim⟩

theorem listen_keeps {listens daemon pidFile : Bool}
    (stage : p.stage = .bound) :
    Keeps files p (listen listens daemon pidFile files p) := by
  have ready : p.Ready := by rw [Process.Ready, stage]; trivial
  unfold listen
  split
  · dsimp only
    split
    · exact ⟨rfl, fun _ => ⟨ready, rfl, rfl⟩⟩
    · exact ⟨rfl, fun ready => ready.elim⟩
  · exact ⟨rfl, fun ready => ready.elim⟩

theorem poll_keeps {server : State} {event : Reference.Label}
    (stage : p.stage = .serving server)
    (polled : poll event server files p = some after) :
    Keeps files p after := by
  have ready : p.Ready := by rw [Process.Ready, stage]; trivial
  unfold poll at polled
  split at polled
  · cases polled
  · split at polled
    · cases polled
      exact ⟨rfl, fun _ => ⟨ready, rfl, rfl⟩⟩
    · cases polled
      exact ⟨rfl, fun ready => ready.elim⟩

theorem launch_keeps (command : Command) :
    Keeps files p (launch command, files) := by
  refine ⟨rfl, fun ready => ?_⟩
  unfold launch at ready
  dsimp only at ready
  split at ready
  · exact ready.elim
  · split at ready
    · exact ready.elim
    · exact ready.elim

/-- An action either settles on a size or keeps those that there are. -/
theorem Advance.grants_or_keeps
    (taken : Advance pow2ceil files p action after) :
    (∃ shmsize, settles pow2ceil files p action = some shmsize ∧
      Grants files p after shmsize) ∨
    (settles pow2ceil files p action = none ∧ Keeps files p after) := by
  cases taken with
  | launch command stage => exact .inr ⟨rfl, launch_keeps command⟩
  | fstat ok stage =>
      cases settled : settles pow2ceil files p (.fstat ok) with
      | some shmsize => exact .inl ⟨shmsize, rfl, fstat_grants stage settled⟩
      | none => exact .inr ⟨rfl, fstat_keeps stage settled⟩
  | ftruncate tried ok stage =>
      cases settled : settles pow2ceil files p (.ftruncate ok) with
      | some shmsize =>
          exact .inl ⟨shmsize, rfl, ftruncate_grants stage settled⟩
      | none => exact .inr ⟨rfl, ftruncate_keeps stage settled⟩
  | bind socket bind stage => exact .inr ⟨rfl, bindSocket_keeps stage⟩
  | listen listens daemon pidFile stage => exact .inr ⟨rfl, listen_keeps stage⟩
  | poll server event after stage polled =>
      exact .inr ⟨rfl, poll_keeps stage polled⟩
  | kill born runs alive => exact .inr ⟨rfl, rfl, fun ready => ready.elim⟩

/-- What a server settles on is at most 2 GiB; if it asked for no more than
that, it is a power of two and enough. -/
theorem settled_size (rounds : Rounds pow2ceil)
    (searching : p.Searching pow2ceil) {shmsize : Nat}
    (settled : settles pow2ceil files p action = some shmsize) :
    shmsize ≤ 2 ^ 31 ∧
      (p.asked ≤ 2 ^ 31 → p.asked ≤ shmsize ∧ ∃ k, shmsize = 2 ^ k) := by
  have searches : Searches (rounded pow2ceil p.args) shmsize := by
    unfold settles at settled
    split at settled
    · split at settled
      · split at settled
        · cases settled
          exact searches_rounded rounds p.args
        · cases settled
      · cases settled
    · split at settled
      · rename_i tried stage
        split at settled
        · cases settled
          exact searching _ stage
        · cases settled
      · cases settled
    · cases settled
  constructor
  · rcases searches with ⟨-, rfl⟩ | ⟨-, -, k, bound, rfl⟩
    · exact Nat.zero_le _
    · exact Nat.pow_le_pow_right (by decide) bound
  · intro modest
    have whole : p.args.shmSize.toNat % 2 ^ 32 = p.asked :=
      Nat.mod_eq_of_lt (Nat.lt_of_le_of_lt modest (by decide))
    have cases' := rounded_cases rounds p.args
    rw [whole] at cases'
    rcases cases' with ⟨-, k, -, power, enough⟩ | ⟨beyond, -⟩
    · rcases searches with ⟨zero, -⟩ | ⟨-, above, j, -, rfl⟩
      · rw [power] at zero
        exact absurd zero (Nat.two_pow_pos k).ne'
      · rw [power] at above
        exact ⟨Nat.le_trans enough above, j, rfl⟩
    · exact absurd modest (Nat.not_le.mpr beyond)

/-! ### Runs -/

/-- The memory of a server that has it is a power of two, and no smaller than
what was asked for. -/
def Roomy (files : Files) (p : Process) : Prop :=
  p.Ready → (∃ k, p.size files = 2 ^ k) ∧ p.asked ≤ p.size files

def Kept (host : Host) : Prop :=
  ∀ i, Roomy host.files (host.process i)

/-- The condition on a step: who settles on a size asked for at most 2 GiB, and
nobody who has the same object asked for more than that size. -/
def Suits (pow2ceil : Nat → Nat) (host : Host) (label : Label) : Prop :=
  ∀ shmsize,
    settles pow2ceil host.files (host.process label.process) label.action =
      some shmsize →
    (host.process label.process).asked ≤ 2 ^ 31 ∧
      ∀ i, i ≠ label.process → (host.process i).Ready →
        Shares (host.process label.process) (host.process i) →
        (host.process i).asked ≤ shmsize

variable {host next : Host} {label : Label}

def Host.Searching (pow2ceil : Nat → Nat) (host : Host) : Prop :=
  ∀ i, (host.process i).Searching pow2ceil

theorem Host.Searching.step (rounds : Rounds pow2ceil)
    (searching : host.Searching pow2ceil)
    (taken : Launch.step pow2ceil host label = some next) :
    next.Searching pow2ceil := by
  obtain ⟨after, advanced, -, process⟩ := step_advances taken
  intro i
  rw [process]
  by_cases same : i = label.process
  · rw [same, Function.update_self]
    exact advanced.searching rounds (searching _)
  · rw [Function.update_of_ne same]
    exact searching i

theorem Kept.step (rounds : Rounds pow2ceil)
    (searching : host.Searching pow2ceil) (kept : Kept host)
    (suits : Suits pow2ceil host label)
    (taken : Launch.step pow2ceil host label = some next) : Kept next := by
  obtain ⟨after, advanced, files, process⟩ := step_advances taken
  intro i ready
  rw [process] at ready ⊢
  rw [files]
  rcases advanced.grants_or_keeps with ⟨shmsize, settled, grants⟩ | ⟨-, keeps⟩
  · obtain ⟨modest, fits⟩ := suits shmsize settled
    obtain ⟨enough, power⟩ :=
      (settled_size rounds (searching _) settled).2 modest
    by_cases same : i = label.process
    · rw [same, Function.update_self, grants.size]
      refine ⟨power, ?_⟩
      rwa [Process.asked, grants.args]
    · rw [Function.update_of_ne same] at ready ⊢
      by_cases shares : Shares (host.process label.process) (host.process i)
      · rw [grants.shared _ shares]
        exact ⟨power, fits i same ready shares⟩
      · rw [grants.others _ shares]
        exact kept i ready
  · have sizes : ∀ q : Process, q.size after.2 = q.size host.files := by
      intro q
      rw [Process.size, Process.size, keeps.objects]
    rw [sizes]
    by_cases same : i = label.process
    · rw [same, Function.update_self] at ready ⊢
      obtain ⟨before, args, file⟩ := keeps.same ready
      have room := kept label.process before
      rw [Process.size, Process.object, Process.asked, args, file]
      exact room
    · rw [Function.update_of_ne same] at ready ⊢
      exact kept i ready

/-- A size that does not suit is too small for somebody. -/
theorem not_kept_of_unsuited (rounds : Rounds pow2ceil)
    (searching : host.Searching pow2ceil)
    (unsuited : ¬ Suits pow2ceil host label)
    (taken : Launch.step pow2ceil host label = some next) : ¬ Kept next := by
  obtain ⟨after, advanced, files, process⟩ := step_advances taken
  intro kept
  apply unsuited
  intro shmsize settled
  rcases advanced.grants_or_keeps with ⟨other, same, grants⟩ | ⟨none, -⟩
  · rw [settled] at same
    cases same
    have limit := (settled_size rounds (searching _) settled).1
    refine ⟨?_, fun i different ready shares => ?_⟩
    · have own := kept label.process
      rw [process, Function.update_self, files] at own
      have enough := (own grants.ready).2
      rw [grants.size, Process.asked, grants.args] at enough
      exact Nat.le_trans enough limit
    · have theirs := kept i
      rw [process, Function.update_of_ne different, files] at theirs
      have enough := (theirs ready).2
      rwa [grants.shared _ shares] at enough
  · rw [settled] at none
    cases none

/-- Over every run of any servers on one host: the shared memory of every server
that has it is always a power of two and as large as was asked for, exactly if
whoever settles on a size asked for at most 2 GiB, and nobody who has the same
object asked for more than that size. -/
theorem memory_kept_iff (rounds : Rounds pow2ceil) (trace : List Label) :
    Transition.Always (step pow2ceil) Kept init trace ↔
      Transition.Meets (step pow2ceil) (Suits pow2ceil) init trace := by
  have kept : ∀ host label next,
      host.Searching pow2ceil ∧ Kept host → Suits pow2ceil host label →
      step pow2ceil host label = some next →
        next.Searching pow2ceil ∧ Kept next :=
    fun _ _ _ inv suits taken =>
      ⟨inv.1.step rounds taken, inv.2.step rounds inv.1 suits taken⟩
  exact Transition.always_iff_meets kept (fun _ inv => inv.2)
    (fun _ _ _ inv unsuited taken =>
      not_kept_of_unsuited rounds inv.1 unsuited taken)
    ⟨fun _ _ stage => (by cases stage), fun _ ready => ready.elim⟩

/-- The power of two that is next to a number. -/
theorem rounds_clog : Rounds fun v => 2 ^ Nat.clog 2 v where
  power v _ := ⟨Nat.clog 2 v, rfl⟩
  above v _ := Nat.le_pow_clog (by decide) v
  least _ k _ below := Nat.pow_le_pow_right (by decide)
    ((Nat.clog_le_iff_le_pow (by decide)).mpr below)

/-- A server of 4 MiB, and one that cuts their object to 1 KiB. -/
theorem memory_kept_iff_two :
    let command (argv : List Opt) : Command :=
      { argv := .F :: argv
        sigaction := true
        opens := true
        net := fun _ => true
        eventfd := fun _ => true }
    let step := step fun v => 2 ^ Nat.clog 2 v
    let trace : List Label :=
      [⟨0, .launch (command [])⟩, ⟨0, .fstat true⟩, ⟨0, .ftruncate true⟩,
        ⟨0, .bind true true⟩, ⟨1, .launch (command [.l (some 1000)])⟩,
        ⟨1, .fstat true⟩, ⟨1, .ftruncate true⟩]
    Transition.Always step Kept init trace ↔
      Transition.Meets step (Suits fun v => 2 ^ Nat.clog 2 v) init trace :=
  memory_kept_iff rounds_clog _

/-! ### The end of the search -/

/-- A pass of the loop of ivshmem_server_ftruncate, or its end. -/
def Action.resizes : Action → Bool
  | .ftruncate _ => true
  | _ => false

/-- One of a given server. -/
def Label.resizes (i : Nat) (label : Label) : Bool :=
  decide (label.process = i) && label.action.resizes

/-- How many of them are left. -/
def Process.passes (p : Process) : Nat :=
  match p.stage with
  | .opened => 32
  | .sizing shmsize => 32 - Nat.log 2 shmsize
  | _ => 0

/-- A server that was started, and does not search from zero. -/
structure Started (pow2ceil : Nat → Nat) (p : Process) : Prop where
  searching : p.Searching pow2ceil
  some : p.passes ≠ 0 → rounded pow2ceil p.args ≠ 0
  born : p.stage ≠ .absent

/-- What the actions behind the start leave as it is. -/
theorem Advance.args_born (born : p.stage ≠ .absent)
    (taken : Advance pow2ceil files p action after) :
    after.1.args = p.args ∧ after.1.stage ≠ .absent := by
  cases taken with
  | launch command stage => exact absurd stage born
  | fstat ok stage =>
      unfold Launch.fstat
      split
      · exact ⟨rfl, nofun⟩
      · exact ⟨rfl, nofun⟩
  | ftruncate shmsize ok stage =>
      unfold Launch.ftruncate Launch.resize
      split
      · split
        · split
          · exact ⟨rfl, nofun⟩
          · exact ⟨rfl, nofun⟩
        · exact ⟨rfl, nofun⟩
      · exact ⟨rfl, nofun⟩
  | bind socket bind stage =>
      unfold Launch.bindSocket
      split
      · dsimp only
        split
        · exact ⟨rfl, nofun⟩
        · split
          · exact ⟨rfl, nofun⟩
          · exact ⟨rfl, nofun⟩
      · exact ⟨rfl, nofun⟩
  | listen listens daemon pidFile stage =>
      unfold Launch.listen
      split
      · dsimp only
        split
        · exact ⟨rfl, nofun⟩
        · exact ⟨rfl, nofun⟩
      · exact ⟨rfl, nofun⟩
  | poll server event after stage polled =>
      unfold Launch.poll at polled
      split at polled
      · cases polled
      · split at polled
        · cases polled
          exact ⟨rfl, nofun⟩
        · cases polled
          exact ⟨rfl, nofun⟩
  | kill born runs alive => exact ⟨rfl, nofun⟩

theorem passes_sizing {k : Nat} (stage : p.stage = .sizing (2 ^ k)) :
    p.passes = 32 - k := by
  rw [Process.passes, stage]
  exact congrArg (32 - ·) (Nat.log_pow (by decide) k)

/-- A pass of the loop with a power of two. -/
theorem ftruncate_passes {k : Nat} (bound : k ≤ 31) (ok : Bool) (files : Files)
    (p : Process) :
    (ftruncate (2 ^ k) ok files p).1.passes + 1 ≤ 32 - k := by
  unfold ftruncate resize
  split
  · rename_i small
    have high : k ≤ 30 :=
      (Nat.pow_le_pow_iff_right (a := 2) (by decide)).mp small
    have fits : 2 ^ k * 2 % 2 ^ 32 = 2 ^ (k + 1) := by
      rw [← Nat.pow_succ]
      exact Nat.mod_eq_of_lt (Nat.pow_lt_pow_right (by decide) (by omega))
    split
    · split
      · change 0 + 1 ≤ 32 - k
        omega
      · change 0 + 1 ≤ 32 - k
        omega
    · rw [passes_sizing (congrArg Stage.sizing fits)]
      omega
  · change 0 + 1 ≤ 32 - k
    omega

/-- Behind the search nothing is left of it. -/
theorem Advance.passes_zero (taken : Advance pow2ceil files p action after)
    (ready : p.Ready) : after.1.passes = 0 := by
  cases taken with
  | launch command stage =>
      rw [Process.Ready, stage] at ready
      exact ready.elim
  | fstat ok stage =>
      rw [Process.Ready, stage] at ready
      exact ready.elim
  | ftruncate shmsize ok stage =>
      rw [Process.Ready, stage] at ready
      exact ready.elim
  | bind socket bind stage =>
      unfold Launch.bindSocket
      split
      · dsimp only
        split
        · rfl
        · split <;> rfl
      · rfl
  | listen listens daemon pidFile stage =>
      unfold Launch.listen
      split
      · dsimp only
        split <;> rfl
      · rfl
  | poll server event after stage polled =>
      unfold Launch.poll at polled
      split at polled
      · cases polled
      · split at polled
        · cases polled
          rfl
        · cases polled
          rfl
  | kill born runs alive => rfl

/-- A pass takes one from what is left, and no other action adds to it. -/
theorem Advance.passes_le (started : Started pow2ceil p)
    (taken : Advance pow2ceil files p action after) :
    after.1.passes + action.resizes.toNat ≤ p.passes := by
  have behind : p.Ready → action.resizes = false →
      after.1.passes + action.resizes.toNat ≤ p.passes := by
    intro ready other
    rw [taken.passes_zero ready, other]
    exact Nat.zero_le _
  cases taken with
  | launch command stage => exact absurd stage started.born
  | fstat ok stage =>
      rw [Process.passes, Process.passes, stage, Launch.fstat]
      split <;> simp [Action.resizes]
  | ftruncate shmsize ok stage =>
      rcases started.searching shmsize stage with
        ⟨zero, rfl⟩ | ⟨-, -, k, bound, rfl⟩
      · refine absurd zero (started.some ?_)
        rw [Process.passes, stage]
        decide
      · rw [passes_sizing stage]
        exact ftruncate_passes bound ok files p
  | bind socket bind stage =>
      exact behind (by rw [Process.Ready, stage]; trivial) rfl
  | listen listens daemon pidFile stage =>
      exact behind (by rw [Process.Ready, stage]; trivial) rfl
  | poll server event after stage polled =>
      exact behind (by rw [Process.Ready, stage]; trivial) rfl
  | kill born runs alive => exact Nat.zero_le _

/-- The rank of a whole host, for the passes of one server. -/
theorem started_step (rounds : Rounds pow2ceil) {i : Nat}
    (started : Started pow2ceil (host.process i))
    (taken : step pow2ceil host label = some next) :
    Started pow2ceil (next.process i) ∧
      (next.process i).passes + (label.resizes i).toNat ≤
        (host.process i).passes := by
  obtain ⟨after, advanced, -, process⟩ := step_advances taken
  rw [process]
  by_cases same : label.process = i
  · subst same
    rw [Function.update_self]
    obtain ⟨args, born⟩ := advanced.args_born started.born
    have here : label.resizes label.process = label.action.resizes := by
      rw [Label.resizes, decide_eq_true rfl, Bool.true_and]
    rw [here]
    have lower := advanced.passes_le started
    refine ⟨⟨advanced.searching rounds started.searching, fun left => ?_,
      born⟩, lower⟩
    rw [args]
    exact started.some (by omega)
  · rw [Function.update_of_ne (Ne.symm same)]
    have away : label.resizes i = false := by
      rw [Label.resizes, decide_eq_false same, Bool.false_and]
    rw [away]
    exact ⟨started, Nat.le_refl _⟩

theorem launch_passes (command : Command) : (launch command).passes ≤ 32 := by
  unfold launch
  dsimp only
  split
  · exact Nat.zero_le _
  · split
    · exact Nat.le_refl _
    · exact Nat.zero_le _

/-- A server that does not wrap its size around. -/
theorem launch_started (rounds : Rounds pow2ceil) {command : Command}
    (modest : (launch command).stage = .opened →
      (launch command).asked % 2 ^ 32 ≤ 2 ^ 31) :
    Started pow2ceil (launch command) := by
  have stages : (launch command).stage = .opened ∨
      ∃ code, (launch command).stage = .exited code := by
    unfold launch
    dsimp only
    split
    · exact .inr ⟨_, rfl⟩
    · split
      · exact .inl rfl
      · exact .inr ⟨_, rfl⟩
  rcases stages with opened | ⟨code, exited⟩
  · refine ⟨fun shmsize sizing => ?_, fun _ => ?_, ?_⟩
    · rw [opened] at sizing
      cases sizing
    · rcases rounded_cases rounds (launch command).args with
        ⟨-, k, -, power, -⟩ | ⟨large, -⟩
      · rw [power]
        exact (Nat.two_pow_pos k).ne'
      · exact absurd (modest opened) (Nat.not_le.mpr large)
    · rw [opened]
      exact nofun
  · refine ⟨fun shmsize sizing => ?_, fun left => ?_, ?_⟩
    · rw [exited] at sizing
      cases sizing
    · rw [Process.passes, exited] at left
      exact absurd rfl left
    · rw [exited]
      exact nofun

theorem launched_process {i : Nat} {command : Command}
    (taken : step pow2ceil host ⟨i, .launch command⟩ = some next) :
    next.process i = launch command := by
  obtain ⟨after, advanced, -, process⟩ := step_advances taken
  rw [process, Function.update_self]
  cases advanced with
  | launch _ stage => rfl

/-- From zero every pass that fails comes back to zero. -/
theorem run_ftruncates {i : Nat} (stage : (host.process i).stage = .sizing 0)
    (n : Nat) :
    ∃ final, Transition.run (step pow2ceil) host
      (List.replicate n ⟨i, .ftruncate false⟩) = some final := by
  induction n generalizing host with
  | zero => exact ⟨host, rfl⟩
  | succ n inductionHypothesis =>
      have taken : step pow2ceil host ⟨i, .ftruncate false⟩ = some
          { files := host.files
            process := Function.update host.process i
              { host.process i with stage := .sizing 0 } } := by
        simp only [step, advance, stage]
        rfl
      rw [List.replicate_succ, Transition.run_cons, taken, Option.bind_some]
      exact inductionHypothesis (by simp only [Function.update_self])

/-- There is a bound on the passes that a server makes to size its shared
memory, whatever the calls of all servers return before its start and after,
exactly if the size it asks for is at most 2 GiB, taken as an `unsigned`. -/
theorem sizing_ends_iff (rounds : Rounds pow2ceil) (i : Nat)
    (command : Command) :
    (∃ bound, ∀ (before trace : List Label) (host : Host),
      Transition.run (step pow2ceil) init
          (before ++ ⟨i, .launch command⟩ :: trace) = some host →
        trace.countP (Label.resizes i) ≤ bound) ↔
    ((launch command).stage = .opened →
      (launch command).asked % 2 ^ 32 ≤ 2 ^ 31) := by
  constructor
  · rintro ⟨bound, bounded⟩ opened
    by_contra large
    have zero : rounded pow2ceil (launch command).args = 0 := by
      rcases rounded_cases rounds (launch command).args with
        ⟨modest, -⟩ | ⟨-, zero⟩
      · exact absurd modest large
      · exact zero
    have first : step pow2ceil init ⟨i, .launch command⟩ = some
        { files := init.files
          process := Function.update init.process i (launch command) } := rfl
    -- `fstat` fails, and so does every `ftruncate` behind it
    have second : step pow2ceil
        { files := init.files
          process := Function.update init.process i (launch command) }
        ⟨i, .fstat false⟩ = some
          { files := init.files
            process := Function.update init.process i
              { launch command with stage := .sizing 0 } } := by
      simp only [step, advance, Function.update_self, opened, fstat,
        Bool.false_and, Bool.false_eq_true, if_false, Option.map_some,
        Function.update_idem, zero]
    obtain ⟨final, passes⟩ := @run_ftruncates pow2ceil
      { files := init.files
        process := Function.update init.process i
          { launch command with stage := .sizing 0 } } i
      (by simp only [Function.update_self]) (bound + 1)
    have few := bounded []
      (⟨i, .fstat false⟩ :: List.replicate (bound + 1) ⟨i, .ftruncate false⟩)
      final (by
        rw [List.nil_append, Transition.run_cons, first, Option.bind_some,
          Transition.run_cons, second]
        exact passes)
    have all : (⟨i, .fstat false⟩ ::
        List.replicate (bound + 1) ⟨i, .ftruncate false⟩).countP
          (Label.resizes i) = bound + 1 := by
      rw [List.countP_cons_of_neg (by simp [Label.resizes, Action.resizes]),
        List.countP_replicate, if_pos (by simp [Label.resizes,
          Action.resizes])]
    omega
  · intro modest
    refine ⟨32, fun before trace host reached => ?_⟩
    rw [Transition.run_append, Option.bind_eq_some_iff] at reached
    obtain ⟨other, -, reached⟩ := reached
    rw [Transition.run_cons, Option.bind_eq_some_iff] at reached
    obtain ⟨born, taken, reached⟩ := reached
    have launched := launched_process taken
    have few := Transition.countP_le_rank
      (fun _ _ _ started taken => started_step rounds (i := i) started taken)
      (by rw [launched]; exact launch_started rounds modest) reached
    rw [launched] at few
    exact Nat.le_trans few (launch_passes command)

/-- A server that asks for 3 GiB. -/
theorem sizing_ends_iff_large :
    let command : Command :=
      { argv := [.l (some 3221225472)]
        sigaction := true
        opens := true
        net := fun _ => true
        eventfd := fun _ => true }
    (∃ bound, ∀ (before trace : List Label) (host : Host),
      Transition.run (step fun v => 2 ^ Nat.clog 2 v) init
        (before ++ ⟨0, .launch command⟩ :: trace) = some host →
      trace.countP (Label.resizes 0) ≤ bound) ↔
    ((launch command).stage = .opened →
      (launch command).asked % 2 ^ 32 ≤ 2 ^ 31) :=
  sizing_ends_iff rounds_clog 0 _

end FameZ.Reference.Launch
