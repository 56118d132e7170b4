/-
Module: FameZ.Kernel.Isr
Purpose: The MSI-X vectors of an adapter: what is acquired for them, and what is
  given back on an error and by the teardown.
Trusted boundary: the translation of famez_ISR_setup and famez_ISR_teardown; the
  PCI and IRQ services of the kernel, whose outcomes are parameters
Main exports: Errno, Resource, MsixEntry, Vectors, famezIsrSetup,
  famezIsrTeardown, run_setup_error, run_setup_ok, run_teardown_cases
-/
import FameZ.Lib.Custody
import Mathlib.Algebra.Group.Nat.Defs
import Mathlib.Data.List.OfFn

namespace FameZ.Kernel.Isr

inductive Errno where
  | ealready
  | enodev
  | enomem
  | einval
  | enospc
  | eio
  | kernel (code : Nat)
deriving Repr, DecidableEq

/-- Whatever the driver acquires for a device.  An IRQ goes by its number; an
IRQ number read from behind the table is nothing that was ever requested. -/
inductive Resource where
  | device
  | adapter (address : Nat)
  | core
  | regions
  | bar (n : Nat)
  | msixEntries
  | irqVectors
  | irq (vector : Nat)
  | beyond (index : Nat)
deriving Repr, DecidableEq

abbrev Log := List (Custody.Event Resource)

/-- `struct msix_entry`. -/
structure MsixEntry where
  vector : Nat
  entry : Nat
deriving Repr, DecidableEq

/-- The outcomes of the services that famez_ISR_setup calls. -/
structure Vectors where
  pciMsixVecCount : Except Errno Nat
  kzalloc : Bool
  pciAllocIrqVectors : Nat → Except Errno Nat
  pciIrqVector : Nat → Except Errno Nat
  requestIrq : Nat → Except Errno Unit

/-- A device of QEMU on which everything succeeds. -/
def qemu : Vectors where
  pciMsixVecCount := .ok 16
  kzalloc := true
  pciAllocIrqVectors := .ok
  pciIrqVector := fun i => .ok (40 + i)
  requestIrq := fun _ => .ok ()

/-- The table with the vector of each entry. -/
def lookupVectors (pciIrqVector : Nat → Except Errno Nat) (nvectors : Nat) :
    Except Errno (List MsixEntry) :=
  (List.range nvectors).mapM fun i =>
    (pciIrqVector i).map fun vector => { vector := vector, entry := i }

/-- The loop of request_irq: how it ends, and the entries whose IRQs it got. -/
def requestIrqs (requestIrq : Nat → Except Errno Unit) :
    List MsixEntry → Except Errno Unit × List MsixEntry
  | [] => (.ok (), [])
  | entry :: rest =>
      match requestIrq entry.entry with
      | .error errno => (.error errno, [])
      | .ok () =>
          ((requestIrqs requestIrq rest).1,
            entry :: (requestIrqs requestIrq rest).2)

/-- The IRQs of some entries. -/
def irqsOf (entries : List MsixEntry) : List Resource :=
  entries.map fun entry => .irq entry.vector

/-- `famez_ISR_setup`: the new `IRQ_private`, if there is one, and everything
that was acquired and released. -/
def famezIsrSetup (services : Vectors) (nEvents : Nat) :
    Except Errno (List MsixEntry) × Log :=
  match services.pciMsixVecCount with
  | .error errno => (.error errno, [])
  | .ok available =>
      if available < 16 then (.error .einval, [])
      else if available < nEvents then (.error .enospc, [])
      else if services.kzalloc = false then (.error .enomem, [])
      else
        match services.pciAllocIrqVectors nEvents with
        | .error errno =>
            (.error errno, [.acquire .msixEntries, .release .msixEntries])
        | .ok got =>
            let acquired : Log := [.acquire .msixEntries, .acquire .irqVectors]
            let undone : Log := [.release .irqVectors, .release .msixEntries]
            if got < nEvents then (.error .enospc, acquired ++ undone)
            else
              match lookupVectors services.pciIrqVector nEvents with
              | .error errno => (.error errno, acquired ++ undone)
              | .ok entries =>
                  match requestIrqs services.requestIrq entries with
                  | (.error errno, requested) =>
                      (.error errno,
                        acquired ++ (irqsOf requested).map .acquire ++
                          (irqsOf requested).map .release ++ undone)
                  | (.ok (), requested) =>
                      (.ok entries,
                        acquired ++ (irqsOf requested).map .acquire)

/-- `msix_entries[i].vector`. -/
def vectorAt (entries : List MsixEntry) (i : Nat) : Resource :=
  match entries[i]? with
  | some entry => .irq entry.vector
  | none => .beyond i

/-- `nClients + 2` in a `uint64_t`. -/
def teardownBound (nClients : Nat) : Nat := (nClients + 2) % 2 ^ 64

/-- `famez_ISR_teardown`. -/
def famezIsrTeardown (nClients : Nat) : Option (List MsixEntry) → Log
  | none => []
  | some entries =>
      ((List.range (teardownBound nClients)).map
          (vectorAt entries)).map .release ++
        [.release .irqVectors, .release .msixEntries]

/-! ### Setup -/

variable {services : Vectors} {nEvents nClients : Nat}
  {entries : List MsixEntry} {held : Multiset Resource}

theorem requestIrqs_ok {requestIrq : Nat → Except Errno Unit}
    (ok : (requestIrqs requestIrq entries).1 = .ok ()) :
    (requestIrqs requestIrq entries).2 = entries := by
  induction entries with
  | nil => rfl
  | cons entry rest inductionHypothesis =>
      cases first : requestIrq entry.entry with
      | error errno =>
          rw [requestIrqs, first] at ok
          cases ok
      | ok _ =>
          rw [requestIrqs, first] at ok ⊢
          rw [inductionHypothesis ok]

/-- Everything that setup can come to.  No request is made when the vectors
turn out to be unusable. -/
inductive SetUp (services : Vectors) (nEvents : Nat) :
    Except Errno (List MsixEntry) × Log → Prop where
  | refused (errno : Errno) : SetUp services nEvents (.error errno, [])
  | noVectors (errno : Errno) :
      SetUp services nEvents
        (.error errno, [.acquire .msixEntries, .release .msixEntries])
  | undone (errno : Errno) (requested : List MsixEntry) :
      SetUp services nEvents
        (.error errno,
          [.acquire .msixEntries, .acquire .irqVectors] ++
            (irqsOf requested).map .acquire ++
            (irqsOf requested).map .release ++
            [.release .irqVectors, .release .msixEntries])
  | done {entries : List MsixEntry}
      (found : lookupVectors services.pciIrqVector nEvents = .ok entries) :
      SetUp services nEvents
        (.ok entries,
          [.acquire .msixEntries, .acquire .irqVectors] ++
            (irqsOf entries).map .acquire)

theorem famezIsrSetup_setUp (services : Vectors) (nEvents : Nat) :
    SetUp services nEvents (famezIsrSetup services nEvents) := by
  unfold famezIsrSetup
  cases services.pciMsixVecCount with
  | error errno => exact .refused errno
  | ok available =>
      dsimp only
      by_cases few : available < 16
      · rw [if_pos few]
        exact .refused _
      rw [if_neg few]
      by_cases short : available < nEvents
      · rw [if_pos short]
        exact .refused _
      rw [if_neg short]
      by_cases starved : services.kzalloc = false
      · rw [if_pos starved]
        exact .refused _
      rw [if_neg starved]
      cases services.pciAllocIrqVectors nEvents with
      | error errno => exact .noVectors errno
      | ok got =>
          dsimp only
          by_cases less : got < nEvents
          · rw [if_pos less]
            exact .undone _ []
          rw [if_neg less]
          cases found : lookupVectors services.pciIrqVector nEvents with
          | error errno => exact .undone errno []
          | ok entries =>
              dsimp only
              cases asked : requestIrqs services.requestIrq entries with
              | mk result requested =>
                  cases result with
                  | error errno => exact .undone errno requested
                  | ok _ =>
                      have all : requested = entries := by
                        have same := requestIrqs_ok (by rw [asked])
                        rwa [asked] at same
                      rw [all]
                      exact .done found

/-- What the table allocation and the vectors take. -/
def tableHeld (held : Multiset Resource) : Multiset Resource :=
  .irqVectors ::ₘ .msixEntries ::ₘ held

theorem run_acquired (held : Multiset Resource) (log : Log) :
    Custody.run held
        ([.acquire .msixEntries, .acquire .irqVectors] ++ log) =
      Custody.run (tableHeld held) log := rfl

theorem run_undone (held : Multiset Resource) :
    Custody.run (tableHeld held)
        [.release .irqVectors, .release .msixEntries] = some held := by
  rw [tableHeld, Custody.run_release_cons, Custody.run_release_cons,
    Custody.run_nil]

/-- A setup that fails has given everything back. -/
theorem run_setup_error (held : Multiset Resource) {errno : Errno} {log : Log}
    (fails : famezIsrSetup services nEvents = (.error errno, log)) :
    Custody.run held log = some held := by
  have setUp := famezIsrSetup_setUp services nEvents
  rw [fails] at setUp
  cases setUp with
  | refused => rfl
  | noVectors =>
      rw [Custody.run_acquire, Custody.run_release_cons, Custody.run_nil]
  | undone errno requested =>
      rw [List.append_assoc, List.append_assoc, run_acquired,
        Custody.run_append, Custody.run_acquires, Option.bind_some,
        Custody.run_append, Custody.run_releases]
      exact run_undone held

/-- A setup that succeeds holds an IRQ for each entry of its table. -/
theorem run_setup_ok (held : Multiset Resource) {log : Log}
    (succeeds : famezIsrSetup services nEvents = (.ok entries, log)) :
    Custody.run held log =
      some ((irqsOf entries : Multiset Resource) + tableHeld held) := by
  have setUp := famezIsrSetup_setUp services nEvents
  rw [succeeds] at setUp
  cases setUp with
  | done found => rw [run_acquired, Custody.run_acquires]

theorem mapM_entries {pciIrqVector : Nat → Except Errno Nat}
    {indices : List Nat}
    (found : (indices.mapM fun i => (pciIrqVector i).map fun vector =>
      ({ vector := vector, entry := i } : MsixEntry)) = .ok entries) :
    entries.map MsixEntry.entry = indices := by
  induction indices generalizing entries with
  | nil =>
      cases found
      rfl
  | cons i rest inductionHypothesis =>
      rw [List.mapM_cons] at found
      cases first : pciIrqVector i with
      | error errno =>
          rw [first] at found
          cases found
      | ok vector =>
          rw [first] at found
          cases others : rest.mapM fun i => (pciIrqVector i).map fun vector =>
              ({ vector := vector, entry := i } : MsixEntry) with
          | error errno =>
              rw [others] at found
              cases found
          | ok more =>
              rw [others] at found
              cases found
              rw [List.map_cons, inductionHypothesis others]

/-- The table has one entry an event, in order. -/
theorem entries_of_setup {log : Log}
    (succeeds : famezIsrSetup services nEvents = (.ok entries, log)) :
    entries.map MsixEntry.entry = List.range nEvents := by
  have setUp := famezIsrSetup_setUp services nEvents
  rw [succeeds] at setUp
  cases setUp with
  | done found => exact mapM_entries found

theorem length_of_setup {log : Log}
    (succeeds : famezIsrSetup services nEvents = (.ok entries, log)) :
    entries.length = nEvents := by
  rw [← List.length_map (f := MsixEntry.entry), entries_of_setup succeeds,
    List.length_range]

/-! ### Teardown -/

/-- The entries that the teardown reads first. -/
theorem map_vectorAt {k : Nat} (inside : k ≤ entries.length) :
    (List.range k).map (vectorAt entries) = irqsOf (entries.take k) := by
  apply List.ext_getElem
  · rw [List.length_map, List.length_range, irqsOf, List.length_map,
      List.length_take, Nat.min_eq_left inside]
  · intro i low high
    rw [List.length_map, List.length_range] at low
    simp [irqsOf, vectorAt, List.getElem?_eq_getElem
      (Nat.lt_of_lt_of_le low inside)]

/-- A teardown that stops early keeps the IRQs behind it. -/
theorem run_teardown_short (held : Multiset Resource)
    (short : teardownBound nClients ≤ entries.length) :
    Custody.run ((irqsOf entries : Multiset Resource) + tableHeld held)
        (famezIsrTeardown nClients (some entries)) =
      some ((irqsOf (entries.drop (teardownBound nClients)) :
        Multiset Resource) + held) := by
  have parts : (irqsOf entries : Multiset Resource) =
      (irqsOf (entries.take (teardownBound nClients)) : Multiset Resource) +
        (irqsOf (entries.drop (teardownBound nClients)) :
          Multiset Resource) := by
    rw [Multiset.coe_add, irqsOf, irqsOf, irqsOf, ← List.map_append,
      List.take_append_drop]
  rw [famezIsrTeardown, map_vectorAt short, parts, Multiset.add_assoc,
    Custody.run_append, Custody.run_releases, Option.bind_some,
    Multiset.add_comm, Custody.run_frame _ (run_undone held),
    Multiset.add_comm]

/-- One that goes on behind the table frees what was never requested. -/
theorem run_teardown_long (none : ∀ i, .beyond i ∉ held)
    (long : entries.length < teardownBound nClients) :
    Custody.run ((irqsOf entries : Multiset Resource) + tableHeld held)
        (famezIsrTeardown nClients (some entries)) = .none := by
  obtain ⟨more, total⟩ := Nat.exists_eq_add_of_lt long
  have split : List.range (teardownBound nClients) =
      List.range entries.length ++
        entries.length :: List.range' (entries.length + 1) more := by
    rw [total, List.range_eq_range', List.range_eq_range', Nat.add_assoc,
      ← List.range'_append_1, Nat.zero_add, List.range'_succ]
  have stray : (.beyond entries.length : Resource) ∉ tableHeld held := by
    rw [tableHeld, Multiset.mem_cons, Multiset.mem_cons]
    rintro (wrong | wrong | member)
    · cases wrong
    · cases wrong
    · exact none _ member
  rw [famezIsrTeardown, split, List.map_append, List.map_append,
    map_vectorAt (Nat.le_refl _), List.take_length, List.append_assoc,
    Custody.run_append, Custody.run_releases, Option.bind_some,
    List.map_cons, List.map_cons, vectorAt, List.getElem?_eq_none
    (Nat.le_refl _)]
  exact Custody.run_release_of_not_mem stray _

/-- The teardown gives back exactly what the setup took if the two loops have
the same bound; otherwise it keeps something or frees what it did not hold. -/
theorem run_teardown_cases (nClients : Nat) (entries : List MsixEntry)
    (none : ∀ i, .beyond i ∉ held) :
    teardownBound nClients = entries.length ∧
        Custody.run ((irqsOf entries : Multiset Resource) + tableHeld held)
          (famezIsrTeardown nClients (some entries)) = some held ∨
      teardownBound nClients ≠ entries.length ∧
        (Custody.run ((irqsOf entries : Multiset Resource) + tableHeld held)
            (famezIsrTeardown nClients (some entries)) = .none ∨
          ∃ left, left ≠ 0 ∧
            Custody.run ((irqsOf entries : Multiset Resource) + tableHeld held)
              (famezIsrTeardown nClients (some entries)) =
                some (left + held)) := by
  rcases Nat.lt_trichotomy (teardownBound nClients) entries.length with
    short | equal | long
  · refine .inr ⟨Nat.ne_of_lt short, .inr ⟨_, ?_,
      run_teardown_short held (Nat.le_of_lt short)⟩⟩
    intro empty
    have size := congrArg Multiset.card empty
    rw [Multiset.coe_card, irqsOf, List.length_map, List.length_drop,
      Multiset.card_zero] at size
    omega
  · refine .inl ⟨equal, ?_⟩
    rw [run_teardown_short held (Nat.le_of_eq equal), equal,
      List.drop_length]
    exact congrArg some (Multiset.zero_add held)
  · exact .inr ⟨Nat.ne_of_gt long, .inl (run_teardown_long none long)⟩

end FameZ.Kernel.Isr
