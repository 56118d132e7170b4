/-
Module: FameZ.Monolithic.WriterLock
Purpose: When the semaphore of the write buffer keeps the writes of one open
  file apart.
Trusted boundary: none
Main exports: Exclusive, Obtained, Apart, exclusive_iff_obtained
-/
import FameZ.Monolithic.Writers

namespace FameZ.Monolithic.Writers

/-- The write is between its lock and its unlock. -/
def Between (s : State) (c : Nat) : Prop :=
  ∃ buf stage, s.call c = .locked buf stage

/-- The count is zero or one, no write has more ups than successful downs and a
finished one has as many, and no two writes share the buffer. -/
structure Exclusive (s : State) : Prop where
  count : s.wbufLock.count ≤ 1
  raised : ∀ c, s.ups c ≤ s.downs c
  balanced : ∀ c result, s.call c = .done result → s.ups c = s.downs c
  alone : ∀ c d, Between s c → Between s d → c = d

/-- The condition on one event: a write that unlocks has obtained the lock; it
was not interrupted in FAMEZ_LOCK. -/
def Obtained (s : State) : Label → Prop
  | .unlock c => s.call c ≠ .interrupted
  | _ => True

/-! ### The invariant -/

def Call.use : Call → Semaphore.Use
  | .locking _ => .queued
  | .locked _ _ => .inside
  | _ => .away

/-- The downs that a write still owes an up for. -/
def Call.owes : Call → Nat
  | .locked _ _ => 1
  | _ => 0

def uses (s : State) (c : Nat) : Semaphore.Use := (s.call c).use

/-- The calls use the semaphore as a mutex, and each owes at most one up. -/
structure Apart (s : State) : Prop where
  mutex : Semaphore.Mutex s.wbufLock (uses s)
  counts : ∀ c, s.ups c + (s.call c).owes = s.downs c

theorem use_inside {call : Call} :
    call.use = .inside ↔ ∃ buf stage, call = .locked buf stage := by
  cases call with
  | locked buf stage => exact iff_of_true rfl ⟨buf, stage, rfl⟩
  | unused => exact iff_of_false nofun nofun
  | locking buf => exact iff_of_false nofun nofun
  | interrupted => exact iff_of_false nofun nofun
  | done result => exact iff_of_false nofun nofun

theorem use_queued {call : Call} (queued : call.use = .queued) :
    ∃ buf, call = .locking buf := by
  cases call with
  | locking buf => exact ⟨buf, rfl⟩
  | unused => cases queued
  | locked buf stage => cases queued
  | interrupted => cases queued
  | done result => cases queued

theorem use_update (call : Nat → Call) (c : Nat) (new : Call) :
    (fun d => (Function.update call c new d).use) =
      Function.update (fun d => (call d).use) c new.use :=
  Function.comp_update Call.use call c new

/-- A write that stays where it is for the semaphore. -/
theorem uses_same {s t : State} {c : Nat} {new : Call}
    (call : t.call = Function.update s.call c new)
    (same : new.use = (s.call c).use) : uses t = uses s := by
  unfold uses
  rw [call, use_update, same]
  exact Function.update_eq_self c _

/-- A write that goes elsewhere. -/
theorem uses_moved {s t : State} {c : Nat} {new : Call}
    (call : t.call = Function.update s.call c new) :
    uses t = Function.update (uses s) c new.use := by
  unfold uses
  rw [call, use_update]

namespace Apart

variable {config : Configuration} {s t : State} {label : Label}

theorem init (config : Configuration) : Apart (init config) :=
  ⟨Semaphore.mutex_init, fun _ => rfl⟩

theorem exclusive (apart : Apart s) : Exclusive s := by
  refine ⟨apart.mutex.count_le, fun c => ?_, fun c result done => ?_,
    fun c d first second => ?_⟩
  · rw [← apart.counts c]
    exact Nat.le_add_right ..
  · have counts := apart.counts c
    rwa [done] at counts
  · exact apart.mutex.exclusive (use_inside.mpr first)
      (use_inside.mpr second)

/-- One write moves, and its own downs and ups balance. -/
theorem counts_update (apart : Apart s) {c : Nat} {new : Call}
    {downs ups : Nat → Nat} (balance : ups c + new.owes = downs c)
    (others : ∀ d, d ≠ c → downs d = s.downs d ∧ ups d = s.ups d) (d : Nat) :
    ups d + (Function.update s.call c new d).owes = downs d := by
  by_cases same : d = c
  · rw [same, Function.update_self]
    exact balance
  · rw [Function.update_of_ne same, (others d same).1, (others d same).2]
    exact apart.counts d

/-- A write that neither gets the lock nor gives it up. -/
theorem stay (apart : Apart s) {c : Nat} {new : Call}
    (call : t.call = Function.update s.call c new)
    (use : new.use = (s.call c).use) (owes : new.owes = (s.call c).owes)
    (lock : t.wbufLock = s.wbufLock) (downs : t.downs = s.downs)
    (ups : t.ups = s.ups) : Apart t := by
  refine ⟨?_, ?_⟩
  · rw [lock, uses_same call use]
    exact apart.mutex
  · rw [call, downs, ups]
    apply apart.counts_update
    · rw [owes]
      exact apart.counts c
    · exact fun _ _ => ⟨rfl, rfl⟩

theorem locks (apart : Apart s) {c : Nat} {buf : List UInt8}
    {lock : Semaphore Nat} (unused : s.call c = .unused)
    (got : s.wbufLock.down = some lock) :
    Apart
      { s.proceed c buf .copying with
        wbufLock := lock
        downs := Function.update s.downs c (s.downs c + 1) } := by
  have away : uses s c = .away := congrArg Call.use unused
  have counts := apart.counts c
  rw [unused] at counts
  refine ⟨?_, ?_⟩
  · rw [uses_moved rfl]
    exact apart.mutex.acts (.take away got)
  · apply apart.counts_update
    · simp [State.proceed, State.setCall, Call.owes, ← counts]
    · intro d other
      exact ⟨Function.update_of_ne other .., rfl⟩

theorem queues (apart : Apart s) {c : Nat} {buf : List UInt8}
    (unused : s.call c = .unused) :
    Apart
      { s.setCall c (.locking buf) with wbufLock := s.wbufLock.wait c } := by
  have away : uses s c = .away := congrArg Call.use unused
  have counts := apart.counts c
  rw [unused] at counts
  refine ⟨?_, ?_⟩
  · rw [uses_moved rfl]
    exact apart.mutex.acts (.queue away)
  · exact apart.counts_update counts fun _ _ => ⟨rfl, rfl⟩

theorem signalled (apart : Apart s) {c : Nat} {buf : List UInt8}
    (waits : s.call c = .locking buf) :
    Apart
      { s.setCall c .interrupted with
        wbufLock := s.wbufLock.interrupt c } := by
  have queued : uses s c = .queued := congrArg Call.use waits
  have counts := apart.counts c
  rw [waits] at counts
  refine ⟨?_, ?_⟩
  · rw [uses_moved rfl]
    exact apart.mutex.acts (.interrupt queued)
  · exact apart.counts_update counts fun _ _ => ⟨rfl, rfl⟩

theorem releases (apart : Apart s) {c : Nat} {buf : List UInt8}
    {result : Except Errno Nat} {lock : Semaphore Nat}
    (leaves : s.call c = .locked buf (.leaving result))
    (raised : s.wbufLock.up = (none, lock)) :
    Apart
      { s.setCall c (.done result) with
        wbufLock := lock
        ups := Function.update s.ups c (s.ups c + 1) } := by
  have inside : uses s c = .inside := congrArg Call.use leaves
  have counts := apart.counts c
  rw [leaves] at counts
  refine ⟨?_, ?_⟩
  · rw [uses_moved rfl]
    exact apart.mutex.acts (.release inside raised)
  · apply apart.counts_update
    · simp [State.setCall, Call.owes, ← counts]
    · intro d other
      exact ⟨rfl, Function.update_of_ne other ..⟩

/-- The lock goes from a write to the first that waits. -/
theorem hands (apart : Apart s) {c w : Nat} {buf : List UInt8}
    {result : Except Errno Nat} {lock : Semaphore Nat}
    (leaves : s.call c = .locked buf (.leaving result))
    (raised : s.wbufLock.up = (some w, lock)) :
    Apart
      { (s.setCall w (s.call w).granted).setCall c (.done result) with
        wbufLock := lock
        downs := Function.update s.downs w (s.downs w + 1)
        ups := Function.update s.ups c (s.ups c + 1) } := by
  have inside : uses s c = .inside := congrArg Call.use leaves
  have member : w ∈ s.wbufLock.waiters := by
    rw [(Semaphore.up_eq_some raised).2]
    exact List.mem_cons_self ..
  have queued := apart.mutex.waits w member
  have other : w ≠ c := by
    rintro rfl
    exact nomatch inside.symm.trans queued
  obtain ⟨text, waits⟩ := use_queued queued
  have counts := apart.counts c
  have waiting := apart.counts w
  rw [leaves] at counts
  rw [waits] at waiting
  have call : Function.update (Function.update s.call w (s.call w).granted)
      c (.done result) =
      Function.update (Function.update s.call c (.done result)) w
        (.locked text .copying) := by
    rw [waits, Function.update_comm other]
    rfl
  refine ⟨?_, fun d => ?_⟩
  · have moved : uses
        { (s.setCall w (s.call w).granted).setCall c (.done result) with
          wbufLock := lock
          downs := Function.update s.downs w (s.downs w + 1)
          ups := Function.update s.ups c (s.ups c + 1) } =
        Function.update (Function.update (uses s) c .away) w .inside := by
      unfold uses
      change (fun d => (Function.update (Function.update s.call w
        (s.call w).granted) c (Call.done result) d).use) = _
      rw [call, use_update, use_update]
      rfl
    rw [moved]
    exact apart.mutex.acts (.hand inside raised)
  · change Function.update s.ups c (s.ups c + 1) d +
      (Function.update (Function.update s.call w (s.call w).granted) c
        (Call.done result) d).owes = Function.update s.downs w _ d
    rw [call]
    by_cases first : d = w
    · rw [first, Function.update_self, Function.update_self,
        Function.update_of_ne other, ← waiting]
      rfl
    · rw [Function.update_of_ne first, Function.update_of_ne first]
      by_cases same : d = c
      · rw [same, Function.update_self, Function.update_self, ← counts]
        rfl
      · rw [Function.update_of_ne same, Function.update_of_ne same]
        exact apart.counts d

/-- Whatever happens, a write that obtained its lock keeps the writes apart. -/
theorem step (apart : Apart s) (obtained : Obtained s label)
    (moves : Moves config s label t) : Apart t := by
  cases moves with
  | refused unused =>
      exact apart.stay rfl (by rw [unused]; rfl) (by rw [unused]; rfl) rfl rfl
        rfl
  | locks unused short got => exact apart.locks unused got
  | queues unused short => exact apart.queues unused
  | signalled waits => exact apart.signalled waits
  | advances holds works =>
      obtain ⟨lock, downs, ups, next, call⟩ := work_frame works
      exact apart.stay call (by rw [holds]; rfl) (by rw [holds]; rfl) lock
        downs ups
  | releases leaves raised => exact apart.releases leaves raised
  | hands leaves raised => exact apart.hands leaves raised
  | strays interrupted => exact absurd interrupted obtained
  | cleared => exact ⟨apart.mutex, apart.counts⟩

/-- A write that was interrupted is not the one that its up lets in. -/
theorem up_of_interrupted (apart : Apart s) {c : Nat}
    (interrupted : s.call c = .interrupted) :
    (s.up c).downs c = s.downs c ∧ (s.up c).ups c = s.ups c + 1 := by
  cases raised : s.wbufLock.up with
  | mk handed lock =>
      cases handed with
      | none =>
          simp only [State.up, raised]
          exact ⟨trivial, Function.update_self ..⟩
      | some w =>
          have member : w ∈ s.wbufLock.waiters := by
            rw [(Semaphore.up_eq_some raised).2]
            exact List.mem_cons_self ..
          have other : c ≠ w := by
            rintro rfl
            have queued := apart.mutex.waits c member
            rw [uses, interrupted] at queued
            cases queued
          simp only [State.up, raised]
          exact ⟨Function.update_of_ne other .., Function.update_self ..⟩

/-- The up of a write that was interrupted is one too many. -/
theorem step_broken (apart : Apart s) (stray : ¬ Obtained s label)
    (moves : Moves config s label t) : ¬ Exclusive t := by
  cases moves with
  | strays interrupted =>
      rename_i c
      have counts := apart.counts c
      rw [interrupted] at counts
      obtain ⟨downs, ups⟩ := apart.up_of_interrupted interrupted
      intro exclusive
      have raised : (s.up c).ups c ≤ (s.up c).downs c := exclusive.raised c
      rw [downs, ups, ← counts] at raised
      exact Nat.not_succ_le_self _ raised
  | releases leaves raised =>
      refine False.elim (stray fun interrupted => ?_)
      exact nomatch interrupted.symm.trans leaves
  | hands leaves raised =>
      refine False.elim (stray fun interrupted => ?_)
      exact nomatch interrupted.symm.trans leaves
  | refused unused => exact False.elim (stray trivial)
  | locks unused short got => exact False.elim (stray trivial)
  | queues unused short => exact False.elim (stray trivial)
  | signalled waits => exact False.elim (stray trivial)
  | advances holds works => exact False.elim (stray trivial)
  | cleared => exact False.elim (stray trivial)

end Apart

/-- Over every run of any number of writes to one open file: in every state
reached the count is zero or one, the ups are the successful downs and no two
writes share the buffer, if and only if no write that was interrupted in
FAMEZ_LOCK unlocks. -/
theorem exclusive_iff_obtained (config : Configuration)
    (trace : List Label) :
    Transition.Always (step config) Exclusive (init config) trace ↔
      Transition.Meets (step config) Obtained (init config) trace :=
  Transition.always_iff_meets
    (fun _ _ _ apart obtained taken => apart.step obtained (step_moves taken))
    (fun _ apart => apart.exclusive)
    (fun _ _ _ apart stray taken => apart.step_broken stray (step_moves taken))
    (Apart.init config)

/-- One write is in, a second waits and is interrupted, and its up lets a third
in beside the first. -/
theorem third_write_enters :
    ¬ Transition.Always
        (step { maxMsglen := 384, myId := 1, nSlots := 4, vectors := id,
                positive := by decide, narrow := by decide,
                distinct := fun _ _ same => same })
        Exclusive
        (init { maxMsglen := 384, myId := 1, nSlots := 4, vectors := id,
                positive := by decide, narrow := by decide,
                distinct := fun _ _ same => same })
        [.start 0 [50, 58, 104, 105], .start 1 [50, 58, 104, 111], .signal 1,
          .unlock 1, .start 2 [51, 58, 104, 105]] := by
  intro always
  have exclusive := Transition.always_run always rfl
  have shared := exclusive.alone 0 2 ⟨_, _, rfl⟩ ⟨_, _, rfl⟩
  exact absurd shared (by decide)

end FameZ.Monolithic.Writers
