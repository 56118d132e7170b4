/-
Module: FameZ.Lib.Semaphore
Purpose: Counting semaphores that hand themselves to the first waiter, and the
  parties that use one as a mutex.
Trusted boundary: none
Main exports: Semaphore, Semaphore.down, wait, interrupt, up, Use, Acts, Mutex,
  Mutex.acts, Mutex.exclusive, Mutex.count_le
-/
import Mathlib.Data.List.Basic
import Mathlib.Data.List.Nodup
import Mathlib.Logic.Function.Basic

/-- A count and the queue of those that found it at zero. -/
structure Semaphore (α : Type*) where
  count : Nat
  waiters : List α
deriving Repr, DecidableEq

namespace Semaphore

variable {α : Type*} {s t : Semaphore α}

/-- `sema_init`. -/
def init (count : Nat) : Semaphore α where
  count := count
  waiters := []

/-- What a `down` that need not wait leaves. -/
def down (s : Semaphore α) : Option (Semaphore α) :=
  if 0 < s.count then some { s with count := s.count - 1 } else none

def wait (s : Semaphore α) (c : α) : Semaphore α :=
  { s with waiters := s.waiters ++ [c] }

/-- A signal takes a waiter out of the queue. -/
def interrupt [DecidableEq α] (s : Semaphore α) (c : α) : Semaphore α :=
  { s with waiters := s.waiters.erase c }

/-- The waiter that the semaphore is handed to, if there is one. -/
def up (s : Semaphore α) : Option α × Semaphore α :=
  match s.waiters with
  | [] => (none, { s with count := s.count + 1 })
  | w :: rest => (some w, { s with waiters := rest })

theorem down_eq_some_iff :
    s.down = some t ↔ 0 < s.count ∧ t = { s with count := s.count - 1 } := by
  unfold down
  split
  · rename_i positive
    simp [positive, eq_comm]
  · rename_i zero
    simp [zero]

theorem up_eq_none (raised : s.up = (none, t)) :
    t.count = s.count + 1 ∧ t.waiters = [] := by
  unfold up at raised
  split at raised
  · rename_i empty
    cases raised
    exact ⟨rfl, empty⟩
  · cases raised

theorem up_eq_some {w : α} (raised : s.up = (some w, t)) :
    t.count = s.count ∧ s.waiters = w :: t.waiters := by
  unfold up at raised
  split at raised
  · cases raised
  · rename_i queue
    cases raised
    exact ⟨rfl, queue⟩

/-! ### Semaphores as mutexes -/

/-- Where a party is. -/
inductive Use where
  | away
  | queued
  | inside
deriving Repr, DecidableEq

/-- The semaphore is a mutex: it is free, or one party is inside. -/
structure Mutex (s : Semaphore α) (use : α → Use) : Prop where
  guards : (s.count = 1 ∧ ∀ c, use c ≠ .inside) ∨
    (s.count = 0 ∧ ∃ c, ∀ d, use d = .inside ↔ d = c)
  waits : ∀ w, w ∈ s.waiters → use w = .queued
  once : s.waiters.Nodup

theorem mutex_init : Mutex (init 1) fun _ : α => .away :=
  ⟨.inl ⟨rfl, fun _ => nofun⟩, nofun, List.nodup_nil⟩

namespace Mutex

variable {use : α → Use} {c d : α}

theorem count_le (mutex : Mutex s use) : s.count ≤ 1 := by
  rcases mutex.guards with ⟨free, -⟩ | ⟨taken, -⟩
  · exact Nat.le_of_eq free
  · omega

/-- No two parties are inside at a time. -/
theorem exclusive (mutex : Mutex s use) (first : use c = .inside)
    (second : use d = .inside) : c = d := by
  rcases mutex.guards with ⟨-, none⟩ | ⟨-, holder, only⟩
  · exact absurd first (none c)
  · rw [(only c).mp first, (only d).mp second]

/-- With one inside the semaphore is at zero. -/
theorem of_inside (mutex : Mutex s use) (inside : use c = .inside) :
    s.count = 0 ∧ ∀ d, use d = .inside ↔ d = c := by
  rcases mutex.guards with ⟨-, none⟩ | ⟨taken, holder, only⟩
  · exact absurd inside (none c)
  · rw [(only c).mp inside]
    exact ⟨taken, only⟩

end Mutex

variable [DecidableEq α]

/-- What the parties of a mutex do: only one that is inside raises the
semaphore. -/
inductive Acts (s : Semaphore α) (use : α → Use) :
    Semaphore α → (α → Use) → Prop where
  | take {c : α} {t : Semaphore α} (away : use c = .away)
      (got : s.down = some t) :
      Acts s use t (Function.update use c .inside)
  | queue {c : α} (away : use c = .away) :
      Acts s use (s.wait c) (Function.update use c .queued)
  | interrupt {c : α} (queued : use c = .queued) :
      Acts s use (s.interrupt c) (Function.update use c .away)
  | release {c : α} {t : Semaphore α} (inside : use c = .inside)
      (raised : s.up = (none, t)) :
      Acts s use t (Function.update use c .away)
  | hand {c w : α} {t : Semaphore α} (inside : use c = .inside)
      (raised : s.up = (some w, t)) :
      Acts s use t (Function.update (Function.update use c .away) w .inside)

namespace Mutex

variable {use : α → Use} {c : α}

theorem take (mutex : Mutex s use) (away : use c = .away)
    (got : s.down = some t) : Mutex t (Function.update use c .inside) := by
  obtain ⟨positive, rfl⟩ := down_eq_some_iff.mp got
  have single := mutex.count_le
  refine ⟨.inr ⟨?_, c, fun d => ?_⟩, fun w member => ?_, mutex.once⟩
  · change s.count - 1 = 0
    omega
  · by_cases same : d = c
    · simp [same]
    · rw [Function.update_of_ne same]
      refine ⟨fun inside => ?_, fun wrong => absurd wrong same⟩
      have taken := (mutex.of_inside inside).1
      omega
  · have queued := mutex.waits w member
    have other : w ≠ c := by
      rintro rfl
      exact nomatch away.symm.trans queued
    rw [Function.update_of_ne other]
    exact queued

/-- A party that is not inside moves to a place that is not inside either. -/
theorem guards_move {place : Use} (mutex : Mutex s use)
    (outside : use c ≠ .inside) (stays : place ≠ .inside) :
    (s.count = 1 ∧ ∀ d, Function.update use c place d ≠ .inside) ∨
      (s.count = 0 ∧ ∃ holder, ∀ d,
        Function.update use c place d = .inside ↔ d = holder) := by
  have same : ∀ d, Function.update use c place d = .inside ↔
      use d = .inside := by
    intro d
    by_cases here : d = c
    · rw [here, Function.update_self]
      exact iff_of_false stays outside
    · rw [Function.update_of_ne here]
  simp only [ne_eq, same]
  exact mutex.guards

theorem queue (mutex : Mutex s use) (away : use c = .away) :
    Mutex (s.wait c) (Function.update use c .queued) := by
  have absent : c ∉ s.waiters := fun member =>
    nomatch away.symm.trans (mutex.waits c member)
  refine ⟨mutex.guards_move (by rw [away]; exact nofun) nofun,
    fun w member => ?_, ?_⟩
  · rcases List.mem_append.mp member with before | last
    · have other : w ≠ c := by
        rintro rfl
        exact absent before
      rw [Function.update_of_ne other]
      exact mutex.waits w before
    · rw [List.mem_singleton.mp last, Function.update_self]
  · apply List.Nodup.append mutex.once (List.nodup_singleton c)
    simpa using absent

theorem interrupt (mutex : Mutex s use) (queued : use c = .queued) :
    Mutex (s.interrupt c) (Function.update use c .away) := by
  refine ⟨mutex.guards_move (by rw [queued]; exact nofun) nofun,
    fun w member => ?_, mutex.once.erase c⟩
  obtain ⟨other, before⟩ := mutex.once.mem_erase_iff.mp member
  rw [Function.update_of_ne other]
  exact mutex.waits w before

theorem release (mutex : Mutex s use) (inside : use c = .inside)
    (raised : s.up = (none, t)) : Mutex t (Function.update use c .away) := by
  obtain ⟨taken, only⟩ := mutex.of_inside inside
  obtain ⟨count, empty⟩ := up_eq_none raised
  refine ⟨.inl ⟨by rw [count, taken], fun d => ?_⟩, ?_, ?_⟩
  · by_cases same : d = c
    · rw [same, Function.update_self]
      exact nofun
    · rw [Function.update_of_ne same]
      exact fun wrong => same ((only d).mp wrong)
  · rw [empty]
    exact nofun
  · rw [empty]
    exact List.nodup_nil

theorem hand {w : α} (mutex : Mutex s use) (inside : use c = .inside)
    (raised : s.up = (some w, t)) :
    Mutex t (Function.update (Function.update use c .away) w .inside) := by
  obtain ⟨taken, only⟩ := mutex.of_inside inside
  obtain ⟨count, queue⟩ := up_eq_some raised
  have waits := mutex.waits
  have once := mutex.once
  rw [queue] at waits once
  obtain ⟨gone, rest⟩ := List.nodup_cons.mp once
  refine ⟨.inr ⟨count.trans taken, w, fun d => ?_⟩, fun v member => ?_, rest⟩
  · by_cases first : d = w
    · simp [first]
    · rw [Function.update_of_ne first]
      refine iff_of_false ?_ first
      by_cases same : d = c
      · rw [same, Function.update_self]
        exact nofun
      · rw [Function.update_of_ne same]
        exact fun wrong => same ((only d).mp wrong)
  · have queued := waits v (List.mem_cons_of_mem w member)
    have notFirst : v ≠ w := fun same => gone (same ▸ member)
    have notHolder : v ≠ c := by
      rintro rfl
      exact nomatch inside.symm.trans queued
    rw [Function.update_of_ne notFirst, Function.update_of_ne notHolder]
    exact queued

/-- Whatever the parties do, the semaphore stays a mutex. -/
theorem acts {next : α → Use} (mutex : Mutex s use)
    (acts : Acts s use t next) : Mutex t next := by
  cases acts with
  | take away got => exact mutex.take away got
  | queue away => exact mutex.queue away
  | interrupt queued => exact mutex.interrupt queued
  | release inside raised => exact mutex.release inside raised
  | hand inside raised => exact mutex.hand inside raised

end Mutex

end Semaphore
