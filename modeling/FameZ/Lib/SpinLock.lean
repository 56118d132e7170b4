/-
Module: FameZ.Lib.SpinLock
Purpose: One spin lock shared by process context and by the interrupt handlers
  of any number of CPUs, and the rule that reduces its discipline over whole
  runs to the points of the code.
Trusted boundary: none
Main exports: SpinLock.Effect, Program, State, step, Disciplined, Bracketed,
  Harmless, disciplined_iff_harmless
-/
import FameZ.Lib.Transition
import Mathlib.Logic.Function.Basic

namespace SpinLock

variable {σ π ν ε : Type*}

/-- What a context does at a point of its code.  A fault is a step it never
comes back from. -/
inductive Effect (σ π : Type*) where
  | lock (next : π)
  | unlock (next : Option π)
  | work (data : σ) (next : π)
  | finish (data : σ)
  | fault

/-- The code over shared data: what each point does, where a call in process
context and an interrupt enter, and what others do to the data. -/
structure Program (σ π ν ε : Type*) where
  exec : σ → π → Effect σ π
  call : π
  handler : ν → π
  outside : σ → ε → σ

/-- A CPU runs one call in process context, and an interrupt handler over it.
Handlers run with interrupts off. -/
inductive Context where
  | process (cpu : Nat)
  | interrupt (cpu : Nat)
deriving Repr, DecidableEq

def Context.cpu : Context → Nat
  | .process cpu => cpu
  | .interrupt cpu => cpu

/-- `acquired` and `released` count, over one call, what it did to the lock. -/
structure Call (π : Type*) where
  point : π
  acquired : Nat
  released : Nat

/-- `lock` names the context that took it.  `finished` holds the counts of the
calls that returned. -/
structure State (σ π : Type*) where
  data : σ
  lock : Option Context
  calls : Context → Option (Call π)
  finished : List (Nat × Nat)

inductive Label (ν ε : Type*) where
  | call (cpu : Nat)
  | irq (cpu : Nat) (vector : ν)
  | run (cpu : Nat)
  | outside (event : ε)

/-- No calls, and the lock is free. -/
def init (data : σ) : State σ π where
  data := data
  lock := none
  calls := fun _ => none
  finished := []

/-- The context that runs on a CPU. -/
def State.top (s : State σ π) (cpu : Nat) : Context :=
  if (s.calls (.interrupt cpu)).isSome then .interrupt cpu else .process cpu

def State.put (s : State σ π) (x : Context) (call : Call π) : State σ π :=
  { s with calls := Function.update s.calls x (some call) }

def State.enter (s : State σ π) (x : Context) (point : π) : State σ π :=
  s.put x { point := point, acquired := 0, released := 0 }

def State.leave (s : State σ π) (x : Context) (call : Call π) : State σ π :=
  { s with
    calls := Function.update s.calls x none
    finished := s.finished ++ [(call.acquired, call.released)] }

/-- One step of a context.  A lock that is taken lets nobody through. -/
def advance (program : Program σ π ν ε) (x : Context) (call : Call π)
    (s : State σ π) : Option (State σ π) :=
  match program.exec s.data call.point with
  | .lock next =>
      if s.lock.isNone then
        some
          ({ s with lock := some x }.put x
            { call with point := next, acquired := call.acquired + 1 })
      else none
  | .unlock (some next) =>
      some
        ({ s with lock := none }.put x
          { call with point := next, released := call.released + 1 })
  | .unlock none =>
      some
        ({ s with lock := none }.leave x
          { call with released := call.released + 1 })
  | .work data next =>
      some ({ s with data := data }.put x { call with point := next })
  | .finish data => some ({ s with data := data }.leave x call)
  | .fault => none

def step (program : Program σ π ν ε) :
    Transition.Step (State σ π) (Label ν ε) := fun s label =>
  match label with
  | .call cpu =>
      if (s.calls (.interrupt cpu)).isNone ∧
          (s.calls (.process cpu)).isNone then
        some (s.enter (.process cpu) program.call)
      else none
  | .irq cpu vector =>
      if (s.calls (.interrupt cpu)).isNone then
        some (s.enter (.interrupt cpu) (program.handler vector))
      else none
  | .run cpu =>
      match s.calls (s.top cpu) with
      | none => none
      | some call => advance program (s.top cpu) call s
  | .outside event =>
      some { s with data := program.outside s.data event }

/-! ### Discipline -/

/-- A CPU that only goes on with what it runs frees the lock. -/
def Frees (program : Program σ π ν ε) (cpu : Nat) (s : State σ π) : Prop :=
  ∃ n t, Transition.run (step program) s (List.replicate n (.run cpu)) =
    some t ∧ t.lock = none

/-- The discipline of the lock in one state.  `waits` are the points at which a
context waits for others. -/
structure Disciplined (program : Program σ π ν ε) (waits : π → Prop)
    (s : State σ π) : Prop where
  balanced : ∀ counts ∈ s.finished, counts = (1, 1)
  counted : ∀ x call, s.calls x = some call →
    call.released ≤ call.acquired ∧ call.acquired ≤ 1 ∧
      (s.lock = some x ↔ call.acquired = 1 ∧ call.released = 0)
  freed : ∀ x, s.lock = some x → Frees program x.cpu s
  waiting : ∀ x call, s.calls x = some call → waits call.point →
    s.lock ≠ some x
  selfSpin : ∀ cpu call next, s.calls (.interrupt cpu) = some call →
    program.exec s.data call.point = .lock next →
      s.lock ≠ some (.process cpu)

/-- Where a point stands to the lock of its call. -/
inductive Phase where
  | before
  | holding
  | after
deriving Repr, DecidableEq

def Phase.counts : Phase → Nat × Nat
  | .before => (0, 0)
  | .holding => (1, 0)
  | .after => (1, 1)

theorem Phase.counted (phase : Phase) :
    phase.counts.2 ≤ phase.counts.1 ∧ phase.counts.1 ≤ 1 ∧
      (phase = .holding ↔ phase.counts.1 = 1 ∧ phase.counts.2 = 0) := by
  cases phase <;> decide

/-- Every path of the code brackets one critical section.  `rank` bounds what is
left of the section, and `safe` says which data it does not fault on: others
leave such data safe. -/
structure Bracketed (program : Program σ π ν ε) (phase : π → Phase)
    (rank : π → Nat) (safe : σ → π → Prop) : Prop where
  call : phase program.call = .before
  handler : ∀ vector, phase (program.handler vector) = .before
  handlerLocks : ∀ data vector, ∃ next,
    program.exec data (program.handler vector) = .lock next
  lock : ∀ data p q, program.exec data p = .lock q →
    phase p = .before ∧ phase q = .holding
  unlock : ∀ data p q, program.exec data p = .unlock q →
    phase p = .holding ∧ ∀ r, q = some r → phase r = .after
  work : ∀ data p other q, program.exec data p = .work other q →
    phase q = phase p ∧ (phase p = .holding → rank q < rank p)
  finish : ∀ data p other, program.exec data p = .finish other →
    phase p = .after
  fault : ∀ data p, program.exec data p = .fault →
    phase p = .holding ∧ ¬ safe data p
  faults : ∀ data p, phase p = .holding → ¬ safe data p →
    program.exec data p = .fault
  keeps : ∀ data p other q, phase p = .holding →
    program.exec data p = .work other q → safe data p → safe other q
  spares : ∀ data p other, phase p ≠ .holding →
    (program.exec data p = .finish other ∨
      ∃ q, program.exec data p = .work other q) →
    ∀ r, phase r = .holding → safe data r → safe other r
  outside : ∀ data event r, phase r = .holding → safe data r →
    safe (program.outside data event) r

/-- No interrupt arrives on a CPU whose process context holds the lock, and
nobody takes the lock over data that the section faults on. -/
def Harmless (program : Program σ π ν ε) (safe : σ → π → Prop)
    (s : State σ π) : Label ν ε → Prop
  | .irq cpu _ => s.lock ≠ some (.process cpu)
  | .run cpu => ∀ call next, s.calls (s.top cpu) = some call →
      program.exec s.data call.point = .lock next → s.lock = none →
        safe s.data next
  | _ => True

/-! ### The invariant -/

/-- The counts of a call are those of its phase, the lock is with the one call
in its section, and nothing runs over it. -/
structure Inv (phase : π → Phase) (safe : σ → π → Prop) (s : State σ π) :
    Prop where
  counts : ∀ x call, s.calls x = some call →
    (call.acquired, call.released) = (phase call.point).counts
  holder : ∀ x, s.lock = some x ↔
    ∃ call, s.calls x = some call ∧ phase call.point = .holding
  safe : ∀ x call, s.calls x = some call → phase call.point = .holding →
    safe s.data call.point
  uninterrupted : ∀ cpu, s.lock = some (.process cpu) →
    s.calls (.interrupt cpu) = none
  finished : ∀ counts ∈ s.finished, counts = (1, 1)

section

variable {program : Program σ π ν ε} {phase : π → Phase} {rank : π → Nat}
  {safe : σ → π → Prop} {waits : π → Prop} {s t : State σ π} {x : Context}
  {call : Call π}

theorem inv_init (data : σ) : Inv phase safe (init data) := by
  refine ⟨nofun, fun x => ⟨nofun, ?_⟩, nofun, nofun, nofun⟩
  rintro ⟨call, running, -⟩
  cases running

/-- One context changes what it runs. -/
theorem Inv.replace (inv : Inv phase safe s) {new : Option (Call π)}
    (calls : t.calls = Function.update s.calls x new)
    (counts : ∀ call, new = some call →
      (call.acquired, call.released) = (phase call.point).counts)
    (own : t.lock = some x ↔
      ∃ call, new = some call ∧ phase call.point = .holding)
    (others : ∀ y, y ≠ x → (t.lock = some y ↔ s.lock = some y))
    (ownSafe : ∀ call, new = some call → phase call.point = .holding →
      safe t.data call.point)
    (othersSafe : ∀ y call, y ≠ x → s.calls y = some call →
      phase call.point = .holding → safe t.data call.point)
    (onTop : ∀ cpu, x = .process cpu → s.calls (.interrupt cpu) = none)
    (above : ∀ cpu, x = .interrupt cpu → s.lock ≠ some (.process cpu))
    (finished : ∀ counts ∈ t.finished, counts = (1, 1)) :
    Inv phase safe t := by
  refine ⟨?_, ?_, ?_, ?_, finished⟩
  · intro y call running
    rw [calls] at running
    by_cases same : y = x
    · rw [same, Function.update_self] at running
      exact counts call running
    · rw [Function.update_of_ne same] at running
      exact inv.counts y call running
  · intro y
    rw [calls]
    by_cases same : y = x
    · rw [same, Function.update_self]
      exact own
    · rw [Function.update_of_ne same, others y same]
      exact inv.holder y
  · intro y call running holding
    rw [calls] at running
    by_cases same : y = x
    · rw [same, Function.update_self] at running
      exact ownSafe call running holding
    · rw [Function.update_of_ne same] at running
      exact othersSafe y call same running holding
  · intro cpu held
    rw [calls]
    by_cases here : x = .process cpu
    · have differ : Context.interrupt cpu ≠ x := by
        rw [here]
        exact nofun
      rw [Function.update_of_ne differ]
      exact onTop cpu here
    · have before := (others _ (Ne.symm here)).mp held
      by_cases higher : x = .interrupt cpu
      · exact absurd before (above cpu higher)
      · rw [Function.update_of_ne (Ne.symm higher)]
        exact inv.uninterrupted cpu before

/-- Only the context on top of its CPU takes steps. -/
theorem not_interrupted_of_top {cpu : Nat} (other : Nat)
    (top : s.top cpu = .process other) : s.calls (.interrupt other) = none := by
  rw [State.top] at top
  split at top
  · cases top
  · rename_i idle
    cases top
    exact Option.not_isSome_iff_eq_none.mp idle

theorem Inv.not_above (inv : Inv phase safe s) (running : s.calls x = some call)
    (cpu : Nat) (higher : x = .interrupt cpu) :
    s.lock ≠ some (.process cpu) := by
  intro held
  rw [higher, inv.uninterrupted cpu held] at running
  cases running

/-- A context enters its code. -/
theorem Inv.enter (inv : Inv phase safe s) {point : π}
    (before : phase point = .before) (idle : s.calls x = none)
    (onTop : ∀ cpu, x = .process cpu → s.calls (.interrupt cpu) = none)
    (above : ∀ cpu, x = .interrupt cpu → s.lock ≠ some (.process cpu)) :
    Inv phase safe (s.enter x point) := by
  apply inv.replace rfl
  · intro call entered
    cases entered
    rw [before]
    rfl
  · constructor
    · intro held
      obtain ⟨call, running, -⟩ := (inv.holder x).mp held
      rw [idle] at running
      cases running
    · rintro ⟨call, entered, holding⟩
      cases entered
      rw [before] at holding
      cases holding
  · exact fun _ _ => Iff.rfl
  · intro call entered holding
    cases entered
    rw [before] at holding
    cases holding
  · exact fun y call _ running holding => inv.safe y call running holding
  · exact onTop
  · exact above
  · exact inv.finished

theorem balanced_append {finished : List (Nat × Nat)} {last : Nat × Nat}
    (balanced : ∀ counts ∈ finished, counts = (1, 1)) (ends : last = (1, 1)) :
    ∀ counts ∈ finished ++ [last], counts = (1, 1) := by
  intro counts member
  rcases List.mem_append.mp member with earlier | now
  · exact balanced counts earlier
  · rw [List.mem_singleton.mp now, ends]

theorem Inv.held_iff (inv : Inv phase safe s) (running : s.calls x = some call) :
    s.lock = some x ↔ phase call.point = .holding := by
  constructor
  · intro held
    obtain ⟨other, active, holding⟩ := (inv.holder x).mp held
    cases running.symm.trans active
    exact holding
  · exact fun holding => (inv.holder x).mpr ⟨call, running, holding⟩

/-- Nobody but the context in its section has the lock. -/
theorem Inv.alone (inv : Inv phase safe s) (running : s.calls x = some call)
    (holding : phase call.point = .holding) (y : Context) (differ : y ≠ x) :
    s.lock ≠ some y := by
  intro held
  have here := (inv.held_iff running).mpr holding
  exact differ (Option.some.inj (held.symm.trans here))

/-- What a context does to the data leaves the section of another safe. -/
theorem Inv.others_safe (inv : Inv phase safe s)
    (bracketed : Bracketed program phase rank safe)
    (running : s.calls x = some call) {data : σ}
    (changes : program.exec s.data call.point = .finish data ∨
      ∃ next, program.exec s.data call.point = .work data next)
    {y : Context} {other : Call π} (differ : y ≠ x)
    (active : s.calls y = some other) (holding : phase other.point = .holding) :
    safe data other.point := by
  have held := (inv.held_iff active).mpr holding
  have outside : phase call.point ≠ .holding := by
    intro inside
    exact inv.alone running inside y differ held
  exact bracketed.spares _ _ _ outside changes _ holding
    (inv.safe y other active holding)

theorem Inv.locks (inv : Inv phase safe s)
    (bracketed : Bracketed program phase rank safe)
    (running : s.calls x = some call)
    (onTop : ∀ cpu, x = .process cpu → s.calls (.interrupt cpu) = none)
    {next : π} (effect : program.exec s.data call.point = .lock next)
    (free : s.lock = none) (sound : safe s.data next) :
    Inv phase safe
      ({ s with lock := some x }.put x
        { call with point := next, acquired := call.acquired + 1 }) := by
  obtain ⟨before, holding⟩ := bracketed.lock _ _ _ effect
  have counts := inv.counts x call running
  rw [before] at counts
  obtain ⟨acquired, released⟩ := Prod.mk.inj counts
  apply inv.replace rfl
  · intro other entered
    cases entered
    rw [holding]
    exact Prod.ext (congrArg (· + 1) acquired) released
  · exact ⟨fun _ => ⟨_, rfl, holding⟩, fun _ => rfl⟩
  · intro y differ
    rw [free]
    constructor
    · intro held
      exact absurd (Option.some.inj held).symm differ
    · exact nofun
  · intro other entered _
    cases entered
    exact sound
  · exact fun y other _ active held => inv.safe y other active held
  · exact onTop
  · exact inv.not_above running
  · exact inv.finished

/-- The unlock of a call that goes on. -/
theorem Inv.unlocks (inv : Inv phase safe s)
    (bracketed : Bracketed program phase rank safe)
    (running : s.calls x = some call)
    (onTop : ∀ cpu, x = .process cpu → s.calls (.interrupt cpu) = none)
    {next : π}
    (effect : program.exec s.data call.point = .unlock (some next)) :
    Inv phase safe
      ({ s with lock := none }.put x
        { call with point := next, released := call.released + 1 }) := by
  obtain ⟨holding, after⟩ := bracketed.unlock _ _ _ effect
  have passed := after next rfl
  have counts := inv.counts x call running
  rw [holding] at counts
  obtain ⟨acquired, released⟩ := Prod.mk.inj counts
  apply inv.replace rfl
  · intro other entered
    cases entered
    rw [passed]
    exact Prod.ext acquired (congrArg (· + 1) released)
  · refine ⟨nofun, ?_⟩
    rintro ⟨other, entered, held⟩
    cases entered
    rw [passed] at held
    cases held
  · intro y differ
    exact ⟨nofun, fun held => absurd held (inv.alone running holding y differ)⟩
  · intro other entered held
    cases entered
    rw [passed] at held
    cases held
  · exact fun y other _ active held => inv.safe y other active held
  · exact onTop
  · exact inv.not_above running
  · exact inv.finished

/-- The unlock that a call ends with. -/
theorem Inv.unlocksLast (inv : Inv phase safe s)
    (bracketed : Bracketed program phase rank safe)
    (running : s.calls x = some call)
    (onTop : ∀ cpu, x = .process cpu → s.calls (.interrupt cpu) = none)
    (effect : program.exec s.data call.point = .unlock none) :
    Inv phase safe
      ({ s with lock := none }.leave x
        { call with released := call.released + 1 }) := by
  obtain ⟨holding, -⟩ := bracketed.unlock _ _ _ effect
  have counts := inv.counts x call running
  rw [holding] at counts
  obtain ⟨acquired, released⟩ := Prod.mk.inj counts
  apply inv.replace rfl
  · exact nofun
  · refine ⟨nofun, ?_⟩
    rintro ⟨other, entered, -⟩
    cases entered
  · intro y differ
    exact ⟨nofun, fun held => absurd held (inv.alone running holding y differ)⟩
  · exact nofun
  · exact fun y other _ active held => inv.safe y other active held
  · exact onTop
  · exact inv.not_above running
  · apply balanced_append inv.finished
    exact Prod.ext acquired (congrArg (· + 1) released)

theorem Inv.works (inv : Inv phase safe s)
    (bracketed : Bracketed program phase rank safe)
    (running : s.calls x = some call)
    (onTop : ∀ cpu, x = .process cpu → s.calls (.interrupt cpu) = none)
    {data : σ} {next : π}
    (effect : program.exec s.data call.point = .work data next) :
    Inv phase safe
      ({ s with data := data }.put x { call with point := next }) := by
  obtain ⟨same, -⟩ := bracketed.work _ _ _ _ effect
  apply inv.replace rfl
  · intro other entered
    cases entered
    rw [same]
    exact inv.counts x call running
  · constructor
    · intro held
      exact ⟨_, rfl, same.trans ((inv.held_iff running).mp held)⟩
    · rintro ⟨other, entered, holding⟩
      cases entered
      exact (inv.held_iff running).mpr (same.symm.trans holding)
  · exact fun _ _ => Iff.rfl
  · intro other entered holding
    cases entered
    have holding := same.symm.trans holding
    exact bracketed.keeps _ _ _ _ holding effect
      (inv.safe x call running holding)
  · exact fun y other differ active holding =>
      inv.others_safe bracketed running (.inr ⟨next, effect⟩) differ active
        holding
  · exact onTop
  · exact inv.not_above running
  · exact inv.finished

theorem Inv.finishes (inv : Inv phase safe s)
    (bracketed : Bracketed program phase rank safe)
    (running : s.calls x = some call)
    (onTop : ∀ cpu, x = .process cpu → s.calls (.interrupt cpu) = none)
    {data : σ} (effect : program.exec s.data call.point = .finish data) :
    Inv phase safe ({ s with data := data }.leave x call) := by
  have after := bracketed.finish _ _ _ effect
  apply inv.replace rfl
  · exact nofun
  · constructor
    · intro held
      have holding := (inv.held_iff running).mp held
      rw [after] at holding
      cases holding
    · rintro ⟨other, entered, -⟩
      cases entered
  · exact fun _ _ => Iff.rfl
  · exact nofun
  · exact fun y other differ active holding =>
      inv.others_safe bracketed running (.inl effect) differ active holding
  · exact onTop
  · exact inv.not_above running
  · apply balanced_append inv.finished
    rw [inv.counts x call running, after]
    rfl

/-- The step of a context that runs.  Taking the lock is safe only over safe
data. -/
theorem Inv.advance (inv : Inv phase safe s)
    (bracketed : Bracketed program phase rank safe)
    (running : s.calls x = some call)
    (onTop : ∀ cpu, x = .process cpu → s.calls (.interrupt cpu) = none)
    (locks : ∀ next, program.exec s.data call.point = .lock next →
      s.lock = none → safe s.data next)
    (taken : advance program x call s = some t) : Inv phase safe t := by
  unfold SpinLock.advance at taken
  cases effect : program.exec s.data call.point with
  | fault =>
      rw [effect] at taken
      cases taken
  | lock next =>
      rw [effect] at taken
      dsimp only at taken
      split at taken
      · rename_i free
        cases taken
        have free := Option.isNone_iff_eq_none.mp free
        exact inv.locks bracketed running onTop effect free
          (locks next effect free)
      · cases taken
  | unlock next =>
      rw [effect] at taken
      cases next with
      | some next =>
          cases taken
          exact inv.unlocks bracketed running onTop effect
      | none =>
          cases taken
          exact inv.unlocksLast bracketed running onTop effect
  | work data next =>
      rw [effect] at taken
      cases taken
      exact inv.works bracketed running onTop effect
  | finish data =>
      rw [effect] at taken
      cases taken
      exact inv.finishes bracketed running onTop effect

/-- Every harmless step keeps the invariant. -/
theorem Inv.step (inv : Inv phase safe s)
    (bracketed : Bracketed program phase rank safe) {label : Label ν ε}
    (harmless : Harmless program safe s label)
    (taken : step program s label = some t) : Inv phase safe t := by
  unfold SpinLock.step at taken
  cases label with
  | call cpu =>
      dsimp only at taken
      split at taken
      · rename_i idle
        cases taken
        have below := Option.isNone_iff_eq_none.mp idle.1
        apply inv.enter bracketed.call (Option.isNone_iff_eq_none.mp idle.2)
        · rintro other same
          cases same
          exact below
        · exact nofun
      · cases taken
  | irq cpu vector =>
      dsimp only at taken
      split at taken
      · rename_i idle
        cases taken
        apply inv.enter (bracketed.handler vector)
          (Option.isNone_iff_eq_none.mp idle)
        · exact nofun
        · rintro other same
          cases same
          exact harmless
      · cases taken
  | run cpu =>
      dsimp only at taken
      cases running : s.calls (s.top cpu) with
      | none =>
          rw [running] at taken
          cases taken
      | some call =>
          rw [running] at taken
          exact inv.advance bracketed running not_interrupted_of_top
            (harmless call · running) taken
  | outside event =>
      cases taken
      exact ⟨inv.counts, inv.holder, fun y call active holding =>
        bracketed.outside _ _ _ holding (inv.safe y call active holding),
        inv.uninterrupted, inv.finished⟩

theorem top_of_running (running : s.calls x = some call)
    (onTop : ∀ cpu, x = .process cpu → s.calls (.interrupt cpu) = none) :
    s.top x.cpu = x := by
  cases x with
  | interrupt cpu =>
      apply if_pos
      rw [Context.cpu, running]
      rfl
  | process cpu =>
      apply if_neg
      rw [Context.cpu, onTop cpu rfl]
      exact Bool.false_ne_true

theorem step_run (running : s.calls x = some call)
    (onTop : ∀ cpu, x = .process cpu → s.calls (.interrupt cpu) = none) :
    step program s (.run x.cpu) = SpinLock.advance program x call s := by
  rw [SpinLock.step, top_of_running running onTop, running]

/-- A context in its section reaches the end of it alone. -/
theorem Inv.frees (inv : Inv phase safe s)
    (bracketed : Bracketed program phase rank safe)
    (running : s.calls x = some call) (holding : phase call.point = .holding) :
    Frees program x.cpu s := by
  induction left : rank call.point using Nat.strongRecOn
    generalizing s call with
  | _ n inductionHypothesis =>
      have held := (inv.held_iff running).mpr holding
      have onTop : ∀ cpu, x = .process cpu →
          s.calls (.interrupt cpu) = none := by
        rintro cpu rfl
        exact inv.uninterrupted cpu held
      have first : SpinLock.step program s (.run x.cpu) = _ :=
        step_run running onTop
      unfold SpinLock.advance at first
      cases effect : program.exec s.data call.point with
      | fault =>
          exact absurd (inv.safe x call running holding)
            (bracketed.fault _ _ effect).2
      | lock next =>
          rw [(bracketed.lock _ _ _ effect).1] at holding
          cases holding
      | finish data =>
          rw [bracketed.finish _ _ _ effect] at holding
          cases holding
      | unlock next =>
          rw [effect] at first
          cases next with
          | some next => exact ⟨1, _, congrArg (Option.bind · some) first, rfl⟩
          | none => exact ⟨1, _, congrArg (Option.bind · some) first, rfl⟩
      | work data next =>
          obtain ⟨same, less⟩ := bracketed.work _ _ _ _ effect
          rw [effect] at first
          have harmless : Harmless program safe s (.run x.cpu) := by
            intro other point active locks
            rw [top_of_running running onTop, running] at active
            cases active
            rw [effect] at locks
            cases locks
          obtain ⟨k, t, reached, free⟩ := inductionHypothesis (rank next)
            (left ▸ less holding) (inv.step bracketed harmless first)
            (Function.update_self ..) (same.trans holding) rfl
          refine ⟨k + 1, t, ?_, free⟩
          rw [List.replicate_succ, Transition.run_cons, first]
          exact reached

/-- The invariant is the discipline. -/
theorem Inv.disciplined (inv : Inv phase safe s)
    (bracketed : Bracketed program phase rank safe)
    (apart : ∀ point, waits point → phase point ≠ .holding) :
    Disciplined program waits s := by
  refine ⟨inv.finished, ?_, ?_, ?_, ?_⟩
  · intro x call running
    have counted := (phase call.point).counted
    rw [← inv.counts x call running] at counted
    rw [inv.held_iff running]
    exact counted
  · intro x held
    obtain ⟨call, running, holding⟩ := (inv.holder x).mp held
    exact inv.frees bracketed running holding
  · intro x call running waiting held
    exact apart call.point waiting ((inv.held_iff running).mp held)
  · intro cpu call next running _ held
    rw [inv.uninterrupted cpu held] at running
    cases running

/-- A section entered over unsafe data never ends. -/
theorem not_frees_of_unsafe (bracketed : Bracketed program phase rank safe)
    (held : s.lock = some x) (running : s.calls x = some call)
    (onTop : ∀ cpu, x = .process cpu → s.calls (.interrupt cpu) = none)
    (holding : phase call.point = .holding)
    (faulty : ¬ safe s.data call.point) : ¬ Frees program x.cpu s := by
  rintro ⟨n, t, reached, free⟩
  cases n with
  | zero =>
      cases reached
      rw [held] at free
      cases free
  | succ n =>
      rw [List.replicate_succ, Transition.run_cons, step_run running onTop,
        SpinLock.advance, bracketed.faults _ _ holding faulty] at reached
      cases reached

/-- A step that is not harmless breaks the discipline. -/
theorem not_disciplined_of_harmful
    (bracketed : Bracketed program phase rank safe) {label : Label ν ε}
    (harmful : ¬ Harmless program safe s label)
    (taken : SpinLock.step program s label = some t) :
    ¬ Disciplined program waits t := by
  intro disciplined
  cases label with
  | call => exact harmful trivial
  | outside => exact harmful trivial
  | irq cpu vector =>
      apply harmful
      intro held
      unfold SpinLock.step at taken
      dsimp only at taken
      split at taken
      · cases taken
        obtain ⟨next, locks⟩ := bracketed.handlerLocks s.data vector
        exact disciplined.selfSpin cpu _ next (Function.update_self ..) locks
          held
      · cases taken
  | run cpu =>
      apply harmful
      intro call next running locks free
      by_contra faulty
      rw [SpinLock.step, running] at taken
      dsimp only at taken
      rw [SpinLock.advance, locks] at taken
      dsimp only at taken
      rw [free, if_pos Option.isNone_none] at taken
      cases taken
      have onTop : ∀ other, s.top cpu = .process other → Function.update s.calls
          (s.top cpu) (some { call with
            point := next, acquired := call.acquired + 1 })
          (.interrupt other) = none := by
        intro other top
        have differ : Context.interrupt other ≠ s.top cpu := by
          rw [top]
          exact nofun
        rw [Function.update_of_ne differ]
        exact not_interrupted_of_top other top
      exact not_frees_of_unsafe bracketed rfl (Function.update_self ..) onTop
        (bracketed.lock _ _ _ locks).2 faulty (disciplined.freed _ rfl)

/-- In every run the lock is disciplined in every state exactly if every step is
harmless. -/
theorem disciplined_iff_harmless (bracketed : Bracketed program phase rank safe)
    (apart : ∀ point, waits point → phase point ≠ .holding) (data : σ)
    (trace : List (Label ν ε)) :
    Transition.Always (step program) (Disciplined program waits) (init data)
        trace ↔
      Transition.Meets (step program) (Harmless program safe) (init data)
        trace := by
  have initially : Inv phase safe (init data) := inv_init data
  exact Transition.always_iff_meets
    (fun _ _ _ inv harmless taken => inv.step bracketed harmless taken)
    (fun _ inv => inv.disciplined bracketed apart)
    (fun _ _ _ _ => not_disciplined_of_harmful bracketed)
    initially

end

end SpinLock
