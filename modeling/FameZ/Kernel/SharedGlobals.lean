/-
Module: FameZ.Kernel.SharedGlobals
Purpose: What a driver does with its table of MSI-X entries while a server
  rewrites the mailbox globals that bound its loops.
Trusted boundary: the translation of the accesses of all_msix and of
  famez_ISR_teardown to the globals and to the table
Main exports: Globals, State, step, Safe, Steady, safe_iff_steady,
  freed_without_rewrite
-/
import FameZ.Kernel.Isr

namespace FameZ.Kernel.SharedGlobals

open Isr

/-!
The table is as long as nEvents was when the driver was set up.  The interrupt
handler bounds its search by the nEvents of the moment, the teardown bounds its
loop by the nClients of the moment, and both read that word again for every
index.
-/

/-- The words that a server may write at any time. -/
structure Globals where
  nClients : Nat
  nEvents : Nat
  serverId : Nat
deriving Repr, DecidableEq

/-- Where all_msix is in its search for a vector: about to test the loop
condition, or past the loop and about to test for a match. -/
inductive Handler where
  | searching (vector slotnum : Nat)
  | leaving (slotnum : Nat)
deriving Repr, DecidableEq

inductive Teardown where
  | idle
  | freeing (i : Nat)
  | gone
deriving Repr, DecidableEq

/-- The handler runs with incoming_slot_lock held, so there is one at most.
`used` are the indices into the table so far, `freed` what was handed to
free_irq. -/
structure State where
  globals : Globals
  handler : Option Handler
  teardown : Teardown
  used : List Nat
  freed : List Resource
deriving Repr, DecidableEq

/-- After famez_ISR_setup. -/
def ready (globals : Globals) : State where
  globals := globals
  handler := none
  teardown := .idle
  used := []
  freed := []

inductive Label where
  | rewrite (globals : Globals)
  | interrupt (i : Nat)
  | handle
  | teardown
  | free
deriving Repr, DecidableEq

/-- `vector == msix_entries[slotnum].vector`; what lies behind the table is
taken not to match. -/
def matchesAt (table : List MsixEntry) (vector slotnum : Nat) : Bool :=
  match table[slotnum]? with
  | some entry => entry.vector == vector
  | none => false

/-- One access of the handler.  An index that is used is recorded. -/
def handle (table : List MsixEntry) (s : State) : Handler → State
  | .searching vector slotnum =>
      if slotnum < s.globals.nEvents then
        { s with
          used := s.used ++ [slotnum]
          handler := some
            (if matchesAt table vector slotnum then .leaving slotnum
            else .searching vector (slotnum + 1)) }
      else { s with handler := some (.leaving slotnum) }
  | .leaving slotnum =>
      if slotnum < s.globals.nEvents then
        { s with used := s.used ++ [slotnum], handler := none }
      else { s with handler := none }

/-- One round of the loop of the teardown. -/
def freeAt (table : List MsixEntry) (s : State) (i : Nat) : State :=
  if i < teardownBound s.globals.nClients then
    { s with
      used := s.used ++ [i]
      freed := s.freed ++ [vectorAt table i]
      teardown := .freeing (i + 1) }
  else { s with teardown := .gone }

/-- An interrupt comes from an IRQ that is requested and not freed, and while
the lock is free.  The globals may be rewritten between any two accesses. -/
def step (table : List MsixEntry) : Transition.Step State Label := fun s label =>
  match label with
  | .rewrite globals => some { s with globals := globals }
  | .interrupt i =>
      match table[i]?, s.handler with
      | some entry, none =>
          if .irq entry.vector ∈ s.freed then none
          else
            some { s with handler := some (.searching entry.vector 1) }
      | _, _ => none
  | .handle => s.handler.map (handle table s)
  | .teardown =>
      match s.teardown with
      | .idle => some { s with teardown := .freeing 0 }
      -- been there, done that
      | .gone => some s
      | .freeing _ => none
  | .free =>
      match s.teardown with
      | .freeing i => some (freeAt table s i)
      | _ => none

/-- Every index lies inside the table, and a finished teardown has freed the
IRQ of each entry once and no other. -/
structure Safe (table : List MsixEntry) (s : State) : Prop where
  inside : ∀ i ∈ s.used, i < table.length
  freed : s.teardown = .gone → s.freed = irqsOf table

/-- A search that went through the whole table finds nEvents at its old bound or
below, and the teardown finds nClients such that it goes on as long as there are
entries and no longer. -/
def Steady (table : List MsixEntry) (s : State) : Label → Prop
  | .handle =>
      match s.handler with
      | some (.searching _ slotnum) =>
          slotnum = table.length → s.globals.nEvents ≤ table.length
      | some (.leaving slotnum) =>
          slotnum = table.length → s.globals.nEvents ≤ table.length
      | none => True
  | .free =>
      match s.teardown with
      | .freeing i => i < teardownBound s.globals.nClients ↔ i < table.length
      | _ => True
  | _ => True

/-! ### Runs -/

variable {table : List MsixEntry} {s t : State} {label : Label}

/-- How far the handler got. -/
def Handler.slotnum : Handler → Nat
  | .searching _ slotnum => slotnum
  | .leaving slotnum => slotnum

/-- How far the teardown got, and what it freed on its way. -/
def Progress (table : List MsixEntry) (freed : List Resource) :
    Teardown → Prop
  | .idle => freed = []
  | .freeing i => i ≤ table.length ∧ freed = irqsOf (table.take i)
  | .gone => freed = irqsOf table

structure Inv (table : List MsixEntry) (s : State) : Prop where
  inside : ∀ i ∈ s.used, i < table.length
  handler : ∀ handler, s.handler = some handler →
    handler.slotnum ≤ table.length
  progress : Progress table s.freed s.teardown

theorem inv_ready (globals : Globals) : Inv table (ready globals) :=
  ⟨nofun, nofun, rfl⟩

theorem Inv.safe (inv : Inv table s) : Safe table s := by
  refine ⟨inv.inside, fun gone => ?_⟩
  have progress := inv.progress
  rwa [gone] at progress

theorem inside_append (inside : ∀ i ∈ s.used, i < table.length) {slotnum : Nat}
    (short : slotnum < table.length) :
    ∀ i ∈ s.used ++ [slotnum], i < table.length := by
  intro i member
  rcases List.mem_append.mp member with old | new
  · exact inside i old
  · rwa [List.mem_singleton.mp new]

/-- The handler keeps to the table as long as nEvents does at its end. -/
theorem Inv.handle (inv : Inv table s) {handler : Handler}
    (running : s.handler = some handler)
    (bound : handler.slotnum = table.length →
      s.globals.nEvents ≤ table.length) :
    Inv table (SharedGlobals.handle table s handler) := by
  have low := inv.handler handler running
  have short : handler.slotnum < s.globals.nEvents →
      handler.slotnum < table.length := by
    intro tested
    by_contra reached
    have last : handler.slotnum = table.length := by omega
    have small := bound last
    omega
  cases handler with
  | searching vector slotnum =>
      by_cases tested : slotnum < s.globals.nEvents
      · rw [SharedGlobals.handle, if_pos tested]
        refine ⟨inside_append inv.inside (short tested), ?_, inv.progress⟩
        intro next found
        cases found
        by_cases same : matchesAt table vector slotnum
        · rw [if_pos same]
          exact low
        · rw [if_neg same]
          exact short tested
      · rw [SharedGlobals.handle, if_neg tested]
        refine ⟨inv.inside, ?_, inv.progress⟩
        intro next found
        cases found
        exact low
  | leaving slotnum =>
      by_cases tested : slotnum < s.globals.nEvents
      · rw [SharedGlobals.handle, if_pos tested]
        exact ⟨inside_append inv.inside (short tested), nofun, inv.progress⟩
      · rw [SharedGlobals.handle, if_neg tested]
        exact ⟨inv.inside, nofun, inv.progress⟩

theorem steady_handle_iff {handler : Handler}
    (running : s.handler = some handler) :
    Steady table s .handle ↔
      (handler.slotnum = table.length →
        s.globals.nEvents ≤ table.length) := by
  cases handler with
  | searching vector slotnum => simp only [Steady, running, Handler.slotnum]
  | leaving slotnum => simp only [Steady, running, Handler.slotnum]

/-- The slot that passes the test of the loop is used. -/
theorem used_handle {handler : Handler}
    (tested : handler.slotnum < s.globals.nEvents) :
    handler.slotnum ∈ (handle table s handler).used := by
  cases handler with
  | searching vector slotnum =>
      rw [Handler.slotnum] at tested ⊢
      rw [handle, if_pos tested]
      exact List.mem_append_right _ (List.mem_singleton_self _)
  | leaving slotnum =>
      rw [Handler.slotnum] at tested ⊢
      rw [handle, if_pos tested]
      exact List.mem_append_right _ (List.mem_singleton_self _)

theorem irqsOf_take_succ {i : Nat} (short : i < table.length) :
    irqsOf (table.take i) ++ [vectorAt table i] =
      irqsOf (table.take (i + 1)) := by
  rw [← map_vectorAt (Nat.le_of_lt short), ← map_vectorAt short,
    List.range_succ, List.map_append, List.map_singleton]

/-- So does the teardown. -/
theorem Inv.freeAt (inv : Inv table s) {i : Nat}
    (freeing : s.teardown = .freeing i)
    (bound : i < teardownBound s.globals.nClients ↔ i < table.length) :
    Inv table (SharedGlobals.freeAt table s i) := by
  have progress := inv.progress
  rw [freeing] at progress
  obtain ⟨low, freed⟩ := progress
  by_cases more : i < teardownBound s.globals.nClients
  · have short := bound.mp more
    rw [SharedGlobals.freeAt, if_pos more]
    refine ⟨inside_append inv.inside short, inv.handler, short, ?_⟩
    rw [freed, irqsOf_take_succ short]
  · have last : i = table.length := by omega
    rw [SharedGlobals.freeAt, if_neg more]
    refine ⟨inv.inside, inv.handler, ?_⟩
    rw [last, List.take_length] at freed
    exact freed

theorem Inv.step (inv : Inv table s) (steady : Steady table s label)
    (taken : SharedGlobals.step table s label = some t) : Inv table t := by
  unfold SharedGlobals.step at taken
  cases label with
  | rewrite globals =>
      cases taken
      exact ⟨inv.inside, inv.handler, inv.progress⟩
  | interrupt i =>
      dsimp only at taken
      split at taken
      · rename_i entry found _
        split at taken
        · cases taken
        · cases taken
          refine ⟨inv.inside, fun handler started => ?_, inv.progress⟩
          cases started
          have short := (List.getElem?_eq_some_iff.mp found).1
          exact Nat.lt_of_le_of_lt (Nat.zero_le i) short
      · cases taken
  | handle =>
      obtain ⟨handler, running, rfl⟩ := Option.map_eq_some_iff.mp taken
      exact inv.handle running ((steady_handle_iff running).mp steady)
  | teardown =>
      dsimp only at taken
      split at taken
      · rename_i idle
        cases taken
        have progress := inv.progress
        rw [idle] at progress
        exact ⟨inv.inside, inv.handler, Nat.zero_le _, progress⟩
      · cases taken
        exact inv
      · cases taken
  | free =>
      dsimp only at taken
      split at taken
      · rename_i i freeing
        cases taken
        simp only [Steady, freeing] at steady
        exact inv.freeAt freeing steady
      · cases taken

/-- A step that is not steady shows: it uses an index behind the table, or ends
the teardown before the last entry. -/
theorem not_safe_of_not_steady (inv : Inv table s)
    (unsteady : ¬ Steady table s label)
    (taken : step table s label = some t) : ¬ Safe table t := by
  intro safe
  unfold step at taken
  cases label with
  | rewrite globals => exact unsteady trivial
  | interrupt i => exact unsteady trivial
  | teardown => exact unsteady trivial
  | handle =>
      obtain ⟨handler, running, rfl⟩ := Option.map_eq_some_iff.mp taken
      apply unsteady
      rw [steady_handle_iff running]
      intro last
      by_contra grown
      have short := safe.inside _ (used_handle (by omega))
      omega
  | free =>
      dsimp only at taken
      split at taken
      · rename_i i freeing
        cases taken
        apply unsteady
        have progress := inv.progress
        rw [freeing] at progress
        obtain ⟨low, freed⟩ := progress
        simp only [Steady, freeing]
        constructor
        · intro more
          exact safe.inside i (by simp [freeAt, if_pos more])
        · intro short
          by_contra stops
          have all := safe.freed (by rw [freeAt, if_neg stops])
          rw [freeAt, if_neg stops, freed] at all
          have sizes := congrArg List.length all
          simp only [irqsOf, List.length_map, List.length_take] at sizes
          omega
      · cases taken

/-- The driver is safe from the rewrites of a run exactly if they leave every
step steady. -/
theorem safe_iff_steady (table : List MsixEntry) (globals : Globals)
    (trace : List Label) :
    Transition.Always (step table) (Safe table) (ready globals) trace ↔
      Transition.Meets (step table) (Steady table) (ready globals) trace :=
  Transition.always_iff_meets
    (fun _ _ _ inv steady taken => inv.step steady taken)
    (fun _ inv => inv.safe)
    (fun _ _ _ inv unsteady taken =>
      not_safe_of_not_steady inv unsteady taken)
    (inv_ready globals)

/-! ### Without rewrites -/

/-- A teardown of which `i` rounds are done. -/
def freeing (table : List MsixEntry) (globals : Globals) (i : Nat) : State :=
  { ready globals with
    teardown := .freeing i
    used := List.range i
    freed := (List.range i).map (vectorAt table) }

theorem run_free (table : List MsixEntry) (globals : Globals) {i : Nat}
    (low : i ≤ teardownBound globals.nClients) :
    Transition.run (step table) (ready globals)
        (.teardown :: List.replicate i .free) =
      some (freeing table globals i) := by
  induction i with
  | zero => rfl
  | succ i inductionHypothesis =>
      rw [List.replicate_succ', ← List.cons_append, Transition.run_append,
        inductionHypothesis (Nat.le_of_succ_le low), Option.bind_some,
        Transition.run_cons]
      have more : i < teardownBound
          (freeing table globals i).globals.nClients := low
      have freed : step table (freeing table globals i) .free =
          some (freeing table globals (i + 1)) := by
        change some (freeAt table (freeing table globals i) i) = _
        rw [freeAt, if_pos more]
        simp only [freeing, List.range_succ, List.map_append, List.map_cons,
          List.map_nil]
      rw [freed]
      rfl

/-- If nobody rewrites the globals meanwhile, the rounds of the teardown are
those of famez_ISR_teardown. -/
theorem freed_without_rewrite (table : List MsixEntry) (globals : Globals) :
    ∃ t, Transition.run (step table) (ready globals)
        (.teardown ::
          List.replicate (teardownBound globals.nClients + 1) .free) = some t ∧
      t.teardown = .gone ∧
      famezIsrTeardown globals.nClients (some table) =
        t.freed.map .release ++
          [.release .irqVectors, .release .msixEntries] := by
  have last : step table
      (freeing table globals (teardownBound globals.nClients)) .free =
      some { freeing table globals (teardownBound globals.nClients) with
        teardown := .gone } := by
    have stops : ¬ teardownBound globals.nClients <
        teardownBound
          (freeing table globals
            (teardownBound globals.nClients)).globals.nClients :=
      Nat.lt_irrefl _
    change some (freeAt table _ (teardownBound globals.nClients)) = _
    rw [freeAt, if_neg stops]
  refine ⟨{ freeing table globals (teardownBound globals.nClients) with
    teardown := .gone }, ?_, rfl, rfl⟩
  rw [List.replicate_succ', ← List.cons_append, Transition.run_append,
    run_free table globals (Nat.le_refl _), Option.bind_some,
    Transition.run_cons, last]
  rfl

/-! ### A server that restarts -/

def fourEntries : List MsixEntry :=
  [⟨40, 0⟩, ⟨41, 1⟩, ⟨42, 2⟩, ⟨43, 3⟩]

/-- Set up under a server for two clients; the server comes back for fourteen,
and the teardown of the driver frees what stands behind its table. -/
theorem restarted_server_overruns :
    (famezIsrSetup qemu 4).1 = .ok fourEntries ∧
      ¬ Transition.Always (step fourEntries) (Safe fourEntries)
        (ready { nClients := 2, nEvents := 4, serverId := 3 })
        [.rewrite { nClients := 14, nEvents := 16, serverId := 15 },
          .teardown, .free, .free, .free, .free, .free] := by
  refine ⟨by decide, fun always => ?_⟩
  have safe := Transition.always_run always rfl
  have short := safe.inside 4 (by decide)
  exact absurd short (by decide)

end FameZ.Kernel.SharedGlobals
