/-
Module: FameZ.Kernel.BusyWait
Purpose: The wait of famez_create_outgoing for its slot, against a tick counter
  that wraps around.
Trusted boundary: the translation of famez_create_outgoing up to its stores into
  the slot
Main exports: Environment, Request, busyWait, famezCreateOutgoing, Expired,
  Honours, Timely, honours_iff_timely, outcome_untimed
-/
import FameZ.Kernel.BridgeWrite
import FameZ.Lib.Jiffies
import FameZ.Lib.Loop

namespace FameZ.Kernel.BusyWait

open Jiffies (timeBefore)
open Outgoing (Errno createOutgoing)
open BridgeWrite (awaitIdle)

variable {w : Nat}

/-! ### The clock and the slot -/

/-- What one call meets: the true clock when it enters and at its k-th reading
afterwards, and what its k-th look at `my_slot->buflen` finds.  The words have
`w` bits. -/
structure Environment (w : Nat) where
  hz : Nat
  inInterrupt : Bool
  entry : Nat
  clock : Nat → Nat
  buflen : Nat → Nat
  ticks : 0 < hz
  narrow : 5 * hz < 2 ^ (w - 1)
  later : ∀ k, entry ≤ clock k
  ordered : Monotone clock
  short : ∀ k, clock k < entry + 2 ^ (w - 1)

def Environment.priorRespWait (env : Environment w) : Nat := 5 * env.hz

def Environment.deadline (env : Environment w) : Nat :=
  env.entry + env.priorRespWait

/-- `hw_timeout`. -/
def Environment.hwTimeout (env : Environment w) : BitVec w :=
  BitVec.ofNat w env.deadline

/-- What `get_jiffies_64()` leaves in an `unsigned long`. -/
def Environment.jiffies (env : Environment w) (k : Nat) : BitVec w :=
  BitVec.ofNat w (env.clock k)

theorem two_mul_half (env : Environment w) : 2 * 2 ^ (w - 1) = 2 ^ w := by
  have narrow := env.narrow
  have ticks := env.ticks
  cases w with
  | zero => simp at narrow; omega
  | succ w => rw [Nat.add_sub_cancel, Nat.pow_succ, Nat.mul_comm]

/-- A reading compares with the deadline as the true clock does. -/
theorem timeBefore_jiffies (env : Environment w) (k : Nat) :
    timeBefore (env.jiffies k) env.hwTimeout ↔ env.clock k < env.deadline := by
  have half := two_mul_half env
  have later := env.later k
  have short := env.short k
  have narrow := env.narrow
  apply Jiffies.timeBefore_ofNat_iff
  · rw [Environment.deadline, Environment.priorRespWait]
    omega
  · rw [Environment.deadline]
    omega

/-- The counter shows the deadline in its lower half, and not as zero. -/
def LowerHalf (env : Environment w) : Prop :=
  1 ≤ env.deadline % 2 ^ w ∧ env.deadline % 2 ^ w ≤ 2 ^ (w - 1)

instance (env : Environment w) : Decidable (LowerHalf env) :=
  inferInstanceAs (Decidable (_ ∧ _))

/-- The comparison before any reading, with `now = 0`. -/
theorem timeBefore_start (env : Environment w) :
    timeBefore 0 env.hwTimeout ↔ LowerHalf env := by
  have half := two_mul_half env
  rw [Jiffies.timeBefore_zero_iff, Environment.hwTimeout, BitVec.toNat_ofNat,
    LowerHalf]
  omega

/-! ### The wait -/

inductive Delay where
  | mdelay (ms : Nat)
  | msleep (ms : Nat)
deriving Repr, DecidableEq

/-- The variables of the loop, the number of readings it took and the delays it
made. -/
structure Wait (w : Nat) where
  now : BitVec w
  thisDelay : Nat
  readings : Nat
  delays : List Delay
deriving Repr, DecidableEq

def start : Wait w where
  now := 0
  thisDelay := 1
  readings := 0
  delays := []

def delayMsLoopMax : Nat := 10

def Continues (env : Environment w) (wait : Wait w) : Prop :=
  env.buflen wait.readings ≠ 0 ∧ timeBefore wait.now env.hwTimeout

instance (env : Environment w) : DecidablePred (Continues env) :=
  fun _ => inferInstanceAs (Decidable (_ ∧ _))

/-- The body of the loop. -/
def pass (env : Environment w) (wait : Wait w) : Wait w where
  now := env.jiffies wait.readings
  thisDelay :=
    if wait.thisDelay < delayMsLoopMax then wait.thisDelay + 2
    else wait.thisDelay
  readings := wait.readings + 1
  delays := wait.delays ++
    [if env.inInterrupt = true then .mdelay wait.thisDelay
      else .msleep wait.thisDelay]

/-- `none` says the fuel is spent. -/
def busyWait (env : Environment w) (fuel : Nat) : Option (Wait w) :=
  Loop.run (Continues env) (pass env) fuel start

/-- The arguments of a call, with the two bounds it checks them against. -/
structure Request where
  serverId : Nat
  maxBuflen : Nat
  cid : Int
  sid : Int
  buflen : Nat
deriving Repr, DecidableEq

/-- The peer id, or an errno. -/
def Request.head (request : Request) : Except Errno Nat :=
  createOutgoing request.serverId request.maxBuflen request.cid request.sid
    request.buflen

/-- `ok` is the peer that the call goes on to store its message for; `longest`
is the variable of the module. -/
structure Outcome (w : Nat) where
  result : Except Errno Nat
  longest : BitVec w
  readings : Nat

/-- famez_create_outgoing up to its stores into the slot. -/
def famezCreateOutgoing (env : Environment w) (request : Request)
    (longest : BitVec w) (fuel : Nat) : Option (Outcome w) :=
  match request.head with
  | .error errno =>
      some { result := .error errno, longest := longest, readings := 0 }
  | .ok peerId => do
      let wait ← busyWait env fuel
      let left := env.hwTimeout - wait.now
      some
        { -- The look that decides is one more, after the loop.
          result :=
            if env.buflen (wait.readings + 1) ≠ 0 then .error .erestartsys
            else .ok peerId
          longest := if longest < left then left else longest
          readings := wait.readings }

/-! ### What a call owes -/

/-- The k-th reading is at the deadline or after it, and the look that follows
finds the slot still busy. -/
def Expired (env : Environment w) (k : Nat) : Prop :=
  env.deadline ≤ env.clock k ∧ env.buflen (k + 1) ≠ 0

/-- A call that finds its slot busy gives up only after an expired reading, goes
on when a look finds the slot idle before one, and returns once the clock has
passed the deadline. -/
structure Honours (env : Environment w) (request : Request) : Prop where
  patient : env.buflen 0 ≠ 0 → ∀ longest fuel outcome,
    famezCreateOutgoing env request longest fuel = some outcome →
    outcome.result = .error .erestartsys →
    ∃ k, k < outcome.readings ∧ Expired env k
  proceeds : env.buflen 0 ≠ 0 → ∀ longest fuel outcome peerId look,
    famezCreateOutgoing env request longest fuel = some outcome →
    request.head = .ok peerId →
    look ≤ outcome.readings + 1 → env.buflen look = 0 →
    (∀ k, k + 1 < look → ¬ Expired env k) →
    outcome.result = .ok peerId
  ends : env.buflen 0 ≠ 0 → ∀ longest k,
    env.deadline ≤ env.clock k ∨ env.buflen (k + 1) = 0 →
    ∀ fuel, k + 2 ≤ fuel → ∃ outcome,
      famezCreateOutgoing env request longest fuel = some outcome ∧
      outcome.readings ≤ k + 1

/-- The deadline is in the lower half of the counter, and a slot that becomes
idle stays so for the one look after the loop; or the deadline is not, and the
slot is idle at the second look. -/
def Timely (env : Environment w) : Prop :=
  if LowerHalf env then
    ∀ n, (∀ m, m ≤ n → env.buflen m ≠ 0) →
      (∀ k, k < n → env.clock k < env.deadline) →
      env.buflen (n + 1) = 0 → env.buflen (n + 2) = 0
  else env.buflen 1 = 0

/-! ### How the loop is left -/

/-- The variables after `n` passes. -/
abbrev passed (env : Environment w) (n : Nat) : Wait w :=
  (pass env)^[n] start

theorem passed_succ (env : Environment w) (n : Nat) :
    passed env (n + 1) = pass env (passed env n) :=
  Function.iterate_succ_apply' ..

@[simp] theorem passed_readings (env : Environment w) (n : Nat) :
    (passed env n).readings = n := by
  induction n with
  | zero => rfl
  | succ n inductionHypothesis =>
      rw [passed_succ, pass, inductionHypothesis]

theorem continues_zero (env : Environment w) :
    Continues env (passed env 0) ↔ env.buflen 0 ≠ 0 ∧ LowerHalf env :=
  and_congr_right fun _ => timeBefore_start env

theorem continues_succ (env : Environment w) (n : Nat) :
    Continues env (passed env (n + 1)) ↔
      env.buflen (n + 1) ≠ 0 ∧ env.clock n < env.deadline := by
  rw [Continues, passed_succ, pass, passed_readings]
  exact and_congr_right fun _ => timeBefore_jiffies env n

/-- The loop is left after `n` passes. -/
abbrev Left (env : Environment w) (n : Nat) : Prop :=
  Loop.Exits (Continues env) (pass env) start n

theorem Left.busy {env : Environment w} {n m : Nat} (left : Left env n)
    (early : m < n) : env.buflen m ≠ 0 := by
  have continued : Continues env (passed env m) := left.before m early
  have busy := continued.1
  rwa [passed_readings] at busy

theorem Left.early {env : Environment w} {n k : Nat} (left : Left env n)
    (early : k + 1 < n) : env.clock k < env.deadline :=
  ((continues_succ env k).mp (left.before (k + 1) early)).2

/-- What the look after the loop decides. -/
def decided (env : Environment w) (peerId n : Nat) : Except Errno Nat :=
  if env.buflen (n + 1) ≠ 0 then .error .erestartsys else .ok peerId

/-- A call whose arguments pass returns when its loop is left. -/
theorem famezCreateOutgoing_of_left {env : Environment w} {request : Request}
    {peerId n fuel : Nat} (longest : BitVec w)
    (head : request.head = .ok peerId) (left : Left env n)
    (enough : n < fuel) :
    ∃ outcome, famezCreateOutgoing env request longest fuel = some outcome ∧
      outcome.result = decided env peerId n ∧ outcome.readings = n := by
  have waited : busyWait env fuel = some (passed env n) :=
    Loop.run_eq_some_iff.mpr ⟨n, enough, left, rfl⟩
  simp only [famezCreateOutgoing, head, waited, Option.bind_eq_bind,
    Option.bind_some, passed_readings]
  exact ⟨_, rfl, rfl, rfl⟩

/-- And only then. -/
theorem left_of_famezCreateOutgoing {env : Environment w} {request : Request}
    {peerId fuel : Nat} {longest : BitVec w} {outcome : Outcome w}
    (head : request.head = .ok peerId)
    (returned :
      famezCreateOutgoing env request longest fuel = some outcome) :
    Left env outcome.readings ∧
      outcome.result = decided env peerId outcome.readings := by
  simp only [famezCreateOutgoing, head, Option.bind_eq_bind] at returned
  obtain ⟨wait, waited, reaches⟩ := Option.bind_eq_some_iff.mp returned
  obtain ⟨n, -, left, rfl⟩ := Loop.run_eq_some_iff.mp waited
  cases reaches
  simp only [passed_readings]
  exact ⟨left, rfl⟩

theorem decided_erestartsys {env : Environment w} {peerId n : Nat} :
    decided env peerId n = .error .erestartsys ↔ env.buflen (n + 1) ≠ 0 := by
  by_cases busy : env.buflen (n + 1) = 0
  · simp [decided, busy]
  · simp [decided, busy]

/-- The arguments are refused with an errno of their own. -/
theorem famezCreateOutgoing_of_error {env : Environment w} {request : Request}
    {errno : Errno} (longest : BitVec w) (fuel : Nat)
    (head : request.head = .error errno) :
    famezCreateOutgoing env request longest fuel =
        some { result := .error errno, longest := longest, readings := 0 } ∧
      errno ≠ .erestartsys := by
  refine ⟨by simp only [famezCreateOutgoing, head], ?_⟩
  rintro rfl
  exact BridgeWrite.createOutgoing_ne_erestartsys head

/-! ### What follows for a call -/

/-- A call that a look at an idle slot or an expired reading made stop. -/
theorem Left.expired {env : Environment w} {n : Nat} (left : Left env n)
    (timely : Timely env) (busyAtEntry : env.buflen 0 ≠ 0)
    (busy : env.buflen (n + 1) ≠ 0) : ∃ k, k < n ∧ Expired env k := by
  cases n with
  | zero =>
      -- The first comparison failed, and Timely has the slot idle then.
      have stopped := (not_congr (continues_zero env)).mp left.here
      have upper : ¬ LowerHalf env := fun lower => stopped ⟨busyAtEntry, lower⟩
      rw [Timely, if_neg upper] at timely
      exact absurd timely busy
  | succ n =>
      have lower : LowerHalf env :=
        ((continues_zero env).mp (left.before 0 (Nat.succ_pos n))).2
      rw [Timely, if_pos lower] at timely
      have stillBusy : env.buflen (n + 1) ≠ 0 := by
        intro idle
        exact busy (timely n
          (fun m early => left.busy (Nat.lt_succ_of_le early))
          (fun k early => left.early (Nat.succ_lt_succ early)) idle)
      have stopped := (not_congr (continues_succ env n)).mp left.here
      refine ⟨n, Nat.lt_succ_self n, ?_, stillBusy⟩
      by_contra before
      exact stopped ⟨stillBusy, Nat.lt_of_not_le before⟩

/-- The pass that a late reading or an idle slot makes the last. -/
theorem exists_left {env : Environment w} {k : Nat}
    (due : env.deadline ≤ env.clock k ∨ env.buflen (k + 1) = 0) :
    ∃ n, n ≤ k + 1 ∧ Left env n := by
  apply Loop.exists_exits
  intro continued
  have going := (continues_succ env k).mp continued
  rcases due with late | idle
  · exact absurd going.2 (Nat.not_lt_of_le late)
  · exact going.1 idle

/-- A slot that is refilled behind the look that found it idle, or a first
comparison that fails, makes a call give up without an expired reading. -/
theorem exists_left_of_not_timely {env : Environment w}
    (busyAtEntry : env.buflen 0 ≠ 0) (late : ¬ Timely env) :
    ∃ n, Left env n ∧ env.buflen (n + 1) ≠ 0 ∧
      ∀ k, k < n → ¬ Expired env k := by
  by_cases lower : LowerHalf env
  · rw [Timely, if_pos lower] at late
    push Not at late
    obtain ⟨n, busy, early, idle, refilled⟩ := late
    refine ⟨n + 1, ⟨fun m before => ?_, fun continued => ?_⟩, refilled,
      fun k before => ?_⟩
    · cases m with
      | zero => exact (continues_zero env).mpr ⟨busyAtEntry, lower⟩
      | succ m =>
          exact (continues_succ env m).mpr
            ⟨busy (m + 1) (by omega), early m (by omega)⟩
    · exact ((continues_succ env n).mp continued).1 idle
    · rintro ⟨expired, stillBusy⟩
      rcases Nat.lt_succ_iff_lt_or_eq.mp before with earlier | rfl
      · exact absurd (early k earlier) (Nat.not_lt_of_le expired)
      · exact stillBusy idle
  · rw [Timely, if_neg lower] at late
    refine ⟨0, Loop.exits_zero.mpr fun continued => ?_, late,
      fun k before => absurd before (Nat.not_lt_zero k)⟩
    exact lower ((continues_zero env).mp continued).2

theorem honours_of_timely {env : Environment w} {request : Request}
    {peerId : Nat} (head : request.head = .ok peerId)
    (timely : env.buflen 0 ≠ 0 → Timely env) : Honours env request := by
  have patient : env.buflen 0 ≠ 0 → ∀ longest fuel outcome,
      famezCreateOutgoing env request longest fuel = some outcome →
      outcome.result = .error .erestartsys →
      ∃ k, k < outcome.readings ∧ Expired env k := by
    intro busyAtEntry longest fuel outcome returned gaveUp
    obtain ⟨left, decides⟩ := left_of_famezCreateOutgoing head returned
    rw [decides] at gaveUp
    exact left.expired (timely busyAtEntry) busyAtEntry
      (decided_erestartsys.mp gaveUp)
  refine ⟨patient, ?_, ?_⟩
  · intro busyAtEntry longest fuel outcome other look returned same seen idle
      none
    obtain rfl : peerId = other := by
      rw [head] at same
      exact Except.ok.inj same
    obtain ⟨left, decides⟩ := left_of_famezCreateOutgoing head returned
    by_cases busy : env.buflen (outcome.readings + 1) = 0
    · rw [decides, decided, if_neg (not_not_intro busy)]
    · have gaveUp := decides.trans (decided_erestartsys.mpr busy)
      obtain ⟨k, early, expired⟩ :=
        patient busyAtEntry longest fuel outcome returned gaveUp
      -- The idle look is the last one of the loop, behind the reading.
      have last : look = outcome.readings := by
        by_contra other
        rcases Nat.lt_or_gt_of_ne other with before | after
        · exact left.busy before idle
        · exact busy (by rwa [show outcome.readings + 1 = look by omega])
      rcases Nat.lt_or_eq_of_le (Nat.succ_le_of_lt early) with before | same
      · exact absurd expired (none k (by omega))
      · exact absurd idle (by rw [last, ← same]; exact expired.2)
  · intro _ longest k due fuel enough
    obtain ⟨n, early, left⟩ := exists_left due
    obtain ⟨outcome, returned, -, readings⟩ :=
      famezCreateOutgoing_of_left longest head left
        (Nat.lt_of_le_of_lt early enough)
    exact ⟨outcome, returned, by omega⟩

theorem honours_of_error {env : Environment w} {request : Request}
    {errno : Errno} (head : request.head = .error errno) :
    Honours env request := by
  refine ⟨?_, ?_, ?_⟩
  · intro _ longest fuel outcome returned gaveUp
    obtain ⟨refused, own⟩ := famezCreateOutgoing_of_error longest fuel head
    cases returned.symm.trans refused
    cases gaveUp
    exact absurd rfl own
  · intro _ longest fuel outcome peerId look returned accepted
    rw [head] at accepted
    cases accepted
  · intro _ longest k _ fuel _
    exact ⟨_, (famezCreateOutgoing_of_error longest fuel head).1,
      Nat.zero_le _⟩

/-- For every clock, every sequence of slot states and every request, a call
honours its timeout exactly when it is timely. -/
theorem honours_iff_timely (env : Environment w) (request : Request) :
    Honours env request ↔
      (env.buflen 0 ≠ 0 → (∃ peerId, request.head = .ok peerId) →
        Timely env) := by
  constructor
  · rintro honours busyAtEntry ⟨peerId, head⟩
    by_contra late
    obtain ⟨n, left, busy, none⟩ :=
      exists_left_of_not_timely busyAtEntry late
    obtain ⟨outcome, returned, decides, rfl⟩ :=
      famezCreateOutgoing_of_left 0 head left (Nat.lt_succ_self n)
    obtain ⟨k, early, expired⟩ := honours.patient busyAtEntry 0 _ outcome
      returned (decides.trans (decided_erestartsys.mpr busy))
    exact none k early expired
  · intro timely
    cases head : request.head with
    | error errno => exact honours_of_error head
    | ok peerId =>
        exact honours_of_timely head fun busyAtEntry =>
          timely busyAtEntry ⟨peerId, head⟩

/-- HZ is 250, and the counter is 300 s short of wrapping around, where a
kernel with words of 32 bits starts it.  The slot stays busy. -/
def boot : Environment 32 where
  hz := 250
  inInterrupt := false
  entry := 2 ^ 32 - 300 * 250
  clock := fun k => 2 ^ 32 - 300 * 250 + min k 2000
  buflen := fun _ => 5
  ticks := by decide
  narrow := by decide
  later := fun _ => Nat.le_add_right ..
  ordered := fun _ _ less => Nat.add_le_add_left (min_le_min_right 2000 less) _
  short := fun _ => Nat.add_lt_add_left
    (Nat.lt_of_le_of_lt (Nat.min_le_right ..) (by decide)) _

def toServer : Request where
  serverId := 15
  maxBuflen := 384
  cid := 15
  sid := Outgoing.famezSidCidIsPeerId
  buflen := 5

/-- The call gives up without a delay and without a reading. -/
theorem boot_gives_up : ¬ Honours boot toServer := by
  intro honours
  have gaveUp : famezCreateOutgoing boot toServer 625 1 =
      some { result := .error .erestartsys, longest := 4294893546,
             readings := 0 } := rfl
  obtain ⟨k, early, -⟩ := honours.patient (by decide) 625 1 _ gaveUp rfl
  exact Nat.not_lt_zero k early

/-! ### The wait without a clock -/

theorem awaitIdle_of_idle {slot : Mailslot} (sleeps : List Bool)
    (idle : slot.buflen = 0) : awaitIdle sleeps slot = slot := by
  cases sleeps with
  | nil => rfl
  | cons cleared rest => rw [awaitIdle, if_pos idle]

theorem awaitIdle_append (slot : Mailslot) (first second : List Bool) :
    awaitIdle (first ++ second) slot =
      awaitIdle second (awaitIdle first slot) := by
  induction first generalizing slot with
  | nil => rfl
  | cons cleared rest inductionHypothesis =>
      by_cases idle : slot.buflen = 0
      · rw [awaitIdle_of_idle _ idle, awaitIdle_of_idle _ idle,
          awaitIdle_of_idle _ idle]
      · rw [List.cons_append, awaitIdle, if_neg idle, awaitIdle, if_neg idle,
          inductionHypothesis]

/-- Nobody fills the slot meanwhile: each delay leaves it as it was or sees it
cleared. -/
def Follows (env : Environment w) (cleared : Nat → Bool) (n : Nat) : Prop :=
  ∀ k, k < n →
    env.buflen (k + 1) = if cleared k = true then 0 else env.buflen k

theorem awaitIdle_buflen {env : Environment w} {slot : Mailslot}
    {cleared : Nat → Bool} {n : Nat} (entry : slot.buflen = env.buflen 0)
    (follows : Follows env cleared n) :
    (awaitIdle ((List.range n).map cleared) slot).buflen = env.buflen n := by
  induction n with
  | zero => exact entry
  | succ n inductionHypothesis =>
      have before := inductionHypothesis
        fun k early => follows k (Nat.lt_succ_of_lt early)
      rw [List.range_succ, List.map_append, awaitIdle_append,
        follows n (Nat.lt_succ_self n), ← before]
      simp only [List.map_cons, List.map_nil, awaitIdle]
      split
      · rename_i idle
        rw [idle, ite_self]
      · split
        · rfl
        · rfl

/-- The wait by sleeps that a write to the bridge goes through is this wait,
each delay a sleep. -/
theorem outcome_untimed {env : Environment w} {request : Request}
    {peerId fuel : Nat} {longest : BitVec w} {outcome : Outcome w}
    {slot : Mailslot} {cleared : Nat → Bool}
    (head : request.head = .ok peerId)
    (returned : famezCreateOutgoing env request longest fuel = some outcome)
    (entry : slot.buflen = env.buflen 0)
    (follows : Follows env cleared outcome.readings)
    (quiet : env.buflen (outcome.readings + 1) =
      env.buflen outcome.readings) :
    outcome.result =
      if (awaitIdle ((List.range outcome.readings).map cleared) slot).buflen ≠ 0
      then .error .erestartsys
      else .ok peerId := by
  rw [awaitIdle_buflen entry follows, ← quiet]
  exact (left_of_famezCreateOutgoing head returned).2

end FameZ.Kernel.BusyWait
