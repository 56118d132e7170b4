/-
Module: FameZ.Monolithic.Lifecycle
Purpose: Every run of the monolithic driver's probes and removals over the
  devices of a bus: when its list is that of the bound devices, and what its
  failing probes leave behind for good.
Trusted boundary: the PCI core probes what is not bound and removes what is
Main exports: Binding, famezPciDriver, lawful, active_list_clean_iff, residue,
  logs_accounted
-/
import FameZ.Lib.Lifecycle
import FameZ.Lib.Simulation
import FameZ.Monolithic.Probe

namespace FameZ.Monolithic.Probe

open Kernel.Isr (MsixEntry lookupVectors)

/-- What a bound device has: its drvdata, the configuration behind it, and what
the probe met. -/
structure Binding where
  services : Services
  drvdata : Option Nat
  config : Config

/-- `famez_pci_driver`: a device goes by its CARDLOC, and has no drvdata before
it is probed. -/
def famezPciDriver :
    Lifecycle.Driver String Services Binding Listed Resource where
  probe cardloc services listed log :=
    let services := { services with cardloc := cardloc }
    match famezProbe services (before listed) with
    | (.ok (), m) =>
        (some { services := services, drvdata := m.drvdata, config := m.config },
          m.famezActiveList, log ++ m.log)
    | (.error _, m) => (none, m.famezActiveList, log ++ m.log)
  remove cardloc binding listed log :=
    let m := famezRemove cardloc binding.services
      { log := log
        drvdata := binding.drvdata
        config := binding.config
        famezActiveList := listed }
    (m.famezActiveList, m.log)

/-- The element of the list for a bound device. -/
def entry (cardloc : String) (binding : Binding) : Listed where
  address := binding.drvdata.getD 0
  cardloc := cardloc

/-- The failures that are undone. -/
def Undone : Step → Prop
  | .regions => False
  | .iomap _ => False
  | .register => False
  | .sendmail => False
  | _ => True

/-- The first failure of the probe, if any, is one that the driver undoes. -/
def UndoneProbe (cardloc : String) (services : Services)
    (listed : List Listed) : Prop :=
  ∀ step, firstFailure { services with cardloc := cardloc } listed =
    some step → Undone step

/-- A binding as a probe makes it. -/
structure Binding.Complete (binding : Binding) (address : Nat)
    (entries : List MsixEntry) : Prop where
  allocated : binding.services.kzallocConfig = some address
  looked : lookupVectors binding.services.pciIrqVector
    binding.services.globals.nSlots = .ok entries
  drvdata : binding.drvdata = some address
  regs : binding.config.regs = true
  globals : binding.config.globals = true
  table : binding.config.msixEntries = some entries

/-- What a bound device holds. -/
def owns (binding : Binding) : Multiset Resource := owned binding.services

/-! ### One device -/

section

variable {services : Services} {listed : List Listed} {address : Nat}
  {entries : List MsixEntry} {m : Machine}

theorem made_of_ok (succeeds : (famezProbe services (before listed)).1 =
      .ok ()) :
    firstFailure services listed = none ∧
      ∃ address entries, Made services listed address entries
        (famezProbe services (before listed)).2 := by
  have ends := endsAs_firstFailure services listed
  cases failure : firstFailure services listed with
  | none =>
      rw [failure] at ends
      exact ⟨rfl, ends.2⟩
  | some step =>
      rw [failure] at ends
      obtain ⟨errno, fails⟩ := ends.1
      rw [fails] at succeeds
      cases succeeds

/-- A probe that fails has a failing step. -/
theorem failure_of_error {errno : Errno}
    (fails : (famezProbe services (before listed)).1 = .error errno) :
    ∃ step, firstFailure services listed = some step ∧
      (famezProbe services (before listed)).2.holding =
        some (left services step) ∧
      ((famezProbe services (before listed)).2.famezActiveList = listed ↔
        step ≠ .sendmail) := by
  have ends := endsAs_firstFailure services listed
  cases failure : firstFailure services listed with
  | none =>
      rw [failure] at ends
      rw [ends.1] at fails
      cases fails
  | some step =>
      rw [failure] at ends
      exact ⟨step, rfl, ends.2⟩

/-- The configuration was allocated before anything was mapped. -/
theorem allocated_of_failure {step : Step}
    (failure : firstFailure services listed = some step)
    (unmapped : step = .regions ∨ ∃ bar, step = .iomap bar) :
    ∃ address, services.kzallocConfig = some address := by
  apply Option.ne_none_iff_exists'.mp
  intro none
  have absent : services.kzallocConfig.isSome = false := by
    rw [none]
    rfl
  rw [firstFailure_eq, if_pos absent] at failure
  rcases unmapped with rfl | ⟨bar, rfl⟩
  · split at failure
    · cases failure
    · split at failure <;> cases failure
  · split at failure
    · cases failure
    · split at failure <;> cases failure

/-- A failing step leaves something exactly if it is not undone. -/
theorem left_eq_zero_iff {step : Step}
    (failure : firstFailure services listed = some step)
    (sent : step ≠ .sendmail) : left services step = 0 ↔ Undone step := by
  have lost := allocated_of_failure failure
  cases step with
  | sendmail => exact absurd rfl sent
  | regions =>
      obtain ⟨address, found⟩ := lost (.inl rfl)
      refine iff_of_false (fun empty => ?_) not_false
      rw [left, found] at empty
      exact Multiset.singleton_ne_zero _ empty
  | iomap bar =>
      obtain ⟨address, found⟩ := lost (.inr ⟨bar, rfl⟩)
      refine iff_of_false (fun empty => ?_) not_false
      rw [left, found] at empty
      exact Multiset.singleton_ne_zero _ empty
  | register =>
      refine iff_of_false (fun empty => ?_) not_false
      rw [left] at empty
      exact absurd (congrArg Multiset.card empty) (by decide)
  | _ => exact iff_of_true rfl trivial

theorem undone_of_error {errno : Errno}
    (fails : (famezProbe services (before listed)).1 = .error errno) :
    (∀ step, firstFailure services listed = some step → Undone step) ↔
      (famezProbe services (before listed)).2.famezActiveList = listed ∧
        (famezProbe services (before listed)).2.holding = some 0 := by
  obtain ⟨step, failure, holds, kept⟩ := failure_of_error fails
  rw [holds, Option.some.injEq, kept, failure]
  constructor
  · intro undone
    have undone := undone step rfl
    have sent : step ≠ .sendmail := by
      rintro rfl
      exact undone
    exact ⟨sent, (left_eq_zero_iff failure sent).mpr undone⟩
  · rintro ⟨sent, empty⟩ other same
    cases same
    exact (left_eq_zero_iff failure sent).mp empty

/-- A removal gives back what the binding owns, among whatever else is held. -/
theorem famezRemove_gives_back {cardloc : String} {held : Multiset Resource}
    (complete : Complete listed address (taken address entries + held) m)
    (table : m.config.msixEntries = some entries)
    (size : entries.length = services.globals.nSlots) :
    (famezRemove cardloc services m).holding = some held ∧
      (famezRemove cardloc services m).famezActiveList =
        listed.filter fun cur => cur.cardloc ≠ cardloc := by
  have grouped : taken address entries + held =
      {.miscdevice} + ({.name} + ({.lookup} +
        ((irqsOf entries : Multiset Resource) + ({.irqVectors} +
          ({.device} + (created address + held)))))) := by
    simp only [taken, add_assoc]
    rw [add_left_comm (created address)]
  have released := ((complete.congr grouped).famezBridgeTeardown.famezMSIXTeardown
    table size).release
  have shortened : Complete (listed.filter fun cur => cur.cardloc ≠ cardloc)
      address (created address + held)
      { (famezMSIXTeardown services (famezBridgeTeardown m)).release .device with
        famezActiveList := ((famezMSIXTeardown services
          (famezBridgeTeardown m)).release .device).famezActiveList.filter
            fun cur => cur.cardloc ≠ cardloc } :=
    ⟨released.regs, released.globals, released.drvdata,
      congrArg _ released.listed, released.holds⟩
  obtain ⟨holds, -, list⟩ := shortened.destroyConfig
  unfold famezRemove
  rw [complete.drvdata]
  exact ⟨holds, list⟩

end

/-! ### The driver -/

theorem run_settled_append {log more : Log} (settled : Custody.Settled log) :
    Custody.run 0 (log ++ more) = Custody.run 0 more := by
  rw [Custody.run_append, settled]
  rfl

/-- The entries of the other devices. -/
theorem entries_filter {bound : List (String × Binding)}
    (nodup : (bound.map Prod.fst).Nodup) (cardloc : String) :
    ((Lifecycle.entries entry bound).filter fun cur =>
        cur.cardloc ≠ cardloc) =
      Lifecycle.entries entry
        (bound.eraseP fun other => other.1 = cardloc) := by
  rw [← Lifecycle.filter_eq_eraseP nodup, Lifecycle.entries,
    Lifecycle.entries, List.filter_map]
  rfl

/-- The machine on which a bound device is removed. -/
theorem Binding.Complete.machine {binding : Binding} {address : Nat}
    {entries : List MsixEntry} (complete : binding.Complete address entries)
    {log : Log} {held : Multiset Resource} {listed : List Listed}
    (holds : Custody.run 0 log =
      some ({.msixEntries} + (taken address entries + held))) :
    Probe.Complete listed address (taken address entries + held)
      { log := log
        drvdata := binding.drvdata
        config := binding.config
        famezActiveList := listed } := by
  refine ⟨complete.regs, complete.globals, complete.drvdata, rfl, ?_⟩
  rw [complete.table]
  exact holds

theorem owns_of_complete {binding : Binding} {address : Nat}
    {entries : List MsixEntry} (complete : binding.Complete address entries) :
    owns binding = {.msixEntries} + taken address entries := by
  rw [owns, owned, complete.allocated, complete.looked]

theorem lawful : Lifecycle.Lawful famezPciDriver entry owns UndoneProbe
    (fun binding => ∃ address entries, binding.Complete address entries)
    (fun _ => True) where
  binds := by
    intro cardloc services bound log binding listed extended free settled probed
    simp only [famezPciDriver] at probed
    cases ended : famezProbe { services with cardloc := cardloc }
        (before (Lifecycle.entries entry bound)) with
    | mk result m =>
        rw [ended] at probed
        cases result with
        | error errno => cases probed
        | ok _ =>
            cases probed
            have first : (famezProbe { services with cardloc := cardloc }
                (before (Lifecycle.entries entry bound))).1 = .ok () := by
              rw [ended]
            obtain ⟨none, address, entries, made⟩ := made_of_ok first
            rw [ended] at made
            have complete : Binding.Complete
                { services := { services with cardloc := cardloc }
                  drvdata := m.drvdata
                  config := m.config } address entries :=
              ⟨made.allocated, made.looked, made.complete.drvdata,
                made.complete.regs, made.complete.globals, made.table⟩
            refine ⟨fun step failure => ?_, ⟨address, entries, complete⟩, ?_, ?_⟩
            · rw [none] at failure
              cases failure
            · rw [made.complete.listed, entry, made.complete.drvdata]
              rfl
            · rw [run_settled_append settled]
              exact made.holds
  fails := by
    intro cardloc services bound log listed extended free settled probed
    simp only [famezPciDriver] at probed
    cases ended : famezProbe { services with cardloc := cardloc }
        (before (Lifecycle.entries entry bound)) with
    | mk result m =>
        rw [ended] at probed
        cases result with
        | ok _ => cases probed
        | error errno =>
            cases probed
            have first : (famezProbe { services with cardloc := cardloc }
                (before (Lifecycle.entries entry bound))).1 =
                  .error errno := by
              rw [ended]
            have undone := undone_of_error first
            rw [ended] at undone
            rw [UndoneProbe, undone, Custody.Settled,
              run_settled_append settled]
            exact Iff.rfl
  removes := by
    intro cardloc binding bound log nodup member valid holds
    obtain ⟨address, entries, complete⟩ := valid
    rw [owns_of_complete complete, ← add_zero (taken address entries)] at holds
    have machine := @Binding.Complete.machine _ _ _ complete _ _
      (Lifecycle.entries entry bound) holds
    obtain ⟨back, list⟩ := @famezRemove_gives_back _ _ _ _ _ cardloc _ machine
      complete.table (length_looked complete.looked)
    exact ⟨list.trans (entries_filter nodup cardloc),
      iff_of_true back trivial⟩

/-- Over every run of probes and removals of any devices: famez_active_list is
that of the bound devices in every state, each of them has what its probe took,
and nothing else is held, exactly if no probe fails to request or map its
regions, to register its device file or to reach the server. -/
theorem active_list_clean_iff
    (trace : List (Lifecycle.Label String Services)) :
    Transition.Always (Lifecycle.step famezPciDriver)
        (Lifecycle.Clean entry owns) Lifecycle.init trace ↔
      Transition.Meets (Lifecycle.step famezPciDriver)
        (Lifecycle.Orderly UndoneProbe fun _ => True) Lifecycle.init trace :=
  Lifecycle.always_clean_iff lawful trace

/-! ### What stays behind -/

abbrev Bus := Lifecycle.State String Binding Listed Resource

/-- What a step leaves behind for good: whatever its failing step does. -/
def residue (s : Bus) : Lifecycle.Label String Services →
    List (String × Multiset Resource)
  | .probe cardloc services =>
      match firstFailure { services with cardloc := cardloc } s.listed with
      | some step => [(cardloc, left services step)]
      | none => []
  | .remove _ => []

/-- The part of it that concerns one device. -/
def total (events : List (String × Multiset Resource)) (cardloc : String) :
    Multiset Resource :=
  ((events.filter fun event => event.1 = cardloc).map Prod.snd).sum

/-- What the probes of a device have left behind in a run from the start. -/
def leaked (trace : List (Lifecycle.Label String Services)) :
    String → Multiset Resource :=
  total (Transition.observe (Lifecycle.step famezPciDriver) residue
    Lifecycle.init trace)

/-- Each device holds what its binding owns and what it has leaked. -/
structure Accounted (leaked : String → Multiset Resource) (s : Bus) :
    Prop where
  nodup : (s.bound.map Prod.fst).Nodup
  valid : ∀ cardloc binding, (cardloc, binding) ∈ s.bound →
    ∃ address entries, binding.Complete address entries
  held : ∀ cardloc binding, (cardloc, binding) ∈ s.bound →
    Custody.run 0 (s.log cardloc) = some (owns binding + leaked cardloc)
  free : ∀ cardloc, cardloc ∉ s.bound.map Prod.fst →
    Custody.run 0 (s.log cardloc) = some (leaked cardloc)

theorem left_cardloc (services : Services) (cardloc : String) (step : Step) :
    left { services with cardloc := cardloc } step = left services step := by
  cases step <;> rfl

theorem total_append (first second : List (String × Multiset Resource))
    (cardloc : String) :
    total (first ++ second) cardloc =
      total first cardloc + total second cardloc := by
  rw [total, List.filter_append, List.map_append, List.sum_append]
  rfl

theorem total_self (cardloc : String) (held : Multiset Resource) :
    total [(cardloc, held)] cardloc = held := by
  simp [total]

theorem total_other {cardloc other : String} (different : other ≠ cardloc)
    (held : Multiset Resource) : total [(cardloc, held)] other = 0 := by
  simp [total, Ne.symm different]

/-- A probe extends the log of its device by what it comes to. -/
theorem run_append_holding {log : Log} {m : Machine}
    {before after : Multiset Resource}
    (ran : Custody.run 0 log = some before) (holds : m.holding = some after) :
    Custody.run 0 (log ++ m.log) = some (after + before) := by
  rw [Custody.run_append, ran, Option.bind_some]
  have framed := Custody.run_frame before holds
  rwa [zero_add] at framed

namespace Accounted

variable {leaked : String → Multiset Resource} {s t : Bus}

theorem init : Accounted (fun _ => 0) (Lifecycle.init : Bus) :=
  ⟨List.nodup_nil, fun _ _ member => absurd member List.not_mem_nil,
    fun _ _ member => absurd member List.not_mem_nil, fun _ _ => rfl⟩

theorem congr {other : String → Multiset Resource}
    (accounted : Accounted leaked s) (same : ∀ cardloc, leaked cardloc =
      other cardloc) : Accounted other s :=
  (funext same : leaked = other) ▸ accounted

/-- A probe that binds. -/
theorem binds (accounted : Accounted leaked s) {cardloc : String}
    {binding : Binding} {listed : List Listed} {log : Log}
    (free : cardloc ∉ s.bound.map Prod.fst)
    (valid : ∃ address entries, binding.Complete address entries)
    (ran : Custody.run 0 log = some (owns binding + leaked cardloc)) :
    Accounted leaked
      { bound := s.bound ++ [(cardloc, binding)]
        listed := listed
        log := Function.update s.log cardloc log } := by
  refine ⟨?_, fun other has member => ?_, fun other has member => ?_,
    fun other absent => ?_⟩
  · simp only [List.map_append, List.map_cons, List.map_nil]
    exact List.nodup_append.mpr ⟨accounted.nodup, List.nodup_singleton _, by
      rintro a member b single rfl
      exact free (List.mem_singleton.mp single ▸ member)⟩
  · rcases List.mem_append.mp member with old | new
    · exact accounted.valid other has old
    · cases List.mem_singleton.mp new
      exact valid
  · rcases List.mem_append.mp member with old | new
    · have different : other ≠ cardloc := by
        rintro rfl
        exact free (List.mem_map_of_mem old)
      simp only [Function.update_of_ne different]
      exact accounted.held other has old
    · cases List.mem_singleton.mp new
      simp only [Function.update_self]
      exact ran
  · simp only [List.map_append, List.mem_append, not_or] at absent
    have different : other ≠ cardloc := by
      rintro rfl
      simp at absent
    simp only [Function.update_of_ne different]
    exact accounted.free other absent.1

/-- A probe that fails. -/
theorem fails (accounted : Accounted leaked s) {cardloc : String}
    {listed : List Listed} {log : Log} {lost : Multiset Resource}
    (free : cardloc ∉ s.bound.map Prod.fst)
    (ran : Custody.run 0 log = some (lost + leaked cardloc)) :
    Accounted (fun other => leaked other + total [(cardloc, lost)] other)
      { s with
        listed := listed
        log := Function.update s.log cardloc log } := by
  refine ⟨accounted.nodup, accounted.valid, fun other has member => ?_,
    fun other absent => ?_⟩
  · have different : other ≠ cardloc := by
      rintro rfl
      exact free (List.mem_map_of_mem member)
    simp only [Function.update_of_ne different, total_other different, add_zero]
    exact accounted.held other has member
  · by_cases same : other = cardloc
    · simp only [same, Function.update_self, total_self]
      rw [ran, add_comm]
    · simp only [Function.update_of_ne same, total_other same, add_zero]
      exact accounted.free other absent

/-- A removal. -/
theorem removes (accounted : Accounted leaked s) {cardloc : String}
    {listed : List Listed} {log : Log}
    (ran : Custody.run 0 log = some (leaked cardloc)) :
    Accounted leaked
      { bound := s.bound.eraseP fun other => other.1 = cardloc
        listed := listed
        log := Function.update s.log cardloc log } := by
  have mem := fun other =>
    @Lifecycle.mem_eraseP_iff _ _ _ _ accounted.nodup cardloc other
  refine ⟨?_, fun other has member => ?_, fun other has member => ?_,
    fun other absent => ?_⟩
  · exact accounted.nodup.sublist ((List.eraseP_sublist ..).map _)
  · exact accounted.valid other has ((mem _).mp member).1
  · obtain ⟨old, different⟩ := (mem _).mp member
    simp only [Function.update_of_ne different]
    exact accounted.held other has old
  · by_cases same : other = cardloc
    · simp only [same, Function.update_self]
      exact ran
    · simp only [Function.update_of_ne same]
      refine accounted.free other fun present => absent ?_
      obtain ⟨bound, member, rfl⟩ := List.mem_map.mp present
      exact List.mem_map_of_mem ((mem _).mpr ⟨member, same⟩)

/-- Every event keeps the accounts. -/
theorem step (accounted : Accounted leaked s)
    {label : Lifecycle.Label String Services}
    (stepped : Lifecycle.step famezPciDriver s label = some t) :
    Accounted (fun cardloc => leaked cardloc + total (residue s label) cardloc)
      t := by
  cases label with
  | probe cardloc services =>
      simp only [Lifecycle.step] at stepped
      split at stepped
      · cases stepped
      rename_i free
      have ran := accounted.free cardloc free
      simp only [famezPciDriver] at stepped
      cases ended : famezProbe { services with cardloc := cardloc }
          (before s.listed) with
      | mk result m =>
          rw [ended] at stepped
          cases result with
          | ok _ =>
              cases stepped
              have first : (famezProbe { services with cardloc := cardloc }
                  (before s.listed)).1 = .ok () := by
                rw [ended]
              obtain ⟨none, address, entries, made⟩ := made_of_ok first
              rw [ended] at made
              refine (accounted.binds free ⟨address, entries, ?_⟩ ?_).congr
                fun other => ?_
              · exact ⟨made.allocated, made.looked, made.complete.drvdata,
                  made.complete.regs, made.complete.globals, made.table⟩
              · exact run_append_holding ran made.holds
              · simp only [residue, none]
                exact (add_zero _).symm
          | error errno =>
              cases stepped
              have first : (famezProbe { services with cardloc := cardloc }
                  (before s.listed)).1 = .error errno := by
                rw [ended]
              obtain ⟨step, failure, holds, -⟩ := failure_of_error first
              rw [ended] at holds
              simp only [residue, failure]
              exact accounted.fails free (run_append_holding ran
                (left_cardloc services cardloc step ▸ holds))
  | remove cardloc =>
      simp only [Lifecycle.step] at stepped
      split at stepped
      · cases stepped
      rename_i other binding found
      obtain ⟨same, member⟩ := Lifecycle.find?_bound found
      cases same
      cases stepped
      obtain ⟨address, entries, complete⟩ := accounted.valid _ _ member
      have ran := accounted.held _ _ member
      rw [owns_of_complete complete, add_assoc] at ran
      have machine := @Binding.Complete.machine _ _ _ complete _ _ s.listed ran
      obtain ⟨back, -⟩ := @famezRemove_gives_back _ _ _ _ _ other _ machine
        complete.table (length_looked complete.looked)
      refine (accounted.removes back).congr fun _ => ?_
      exact (add_zero _).symm

/-- What is leaked along a run adds up. -/
theorem run {trace : List (Lifecycle.Label String Services)}
    (accounted : Accounted leaked s)
    (reached : Transition.run (Lifecycle.step famezPciDriver) s trace =
      some t) :
    Accounted (fun cardloc => leaked cardloc + total
      (Transition.observe (Lifecycle.step famezPciDriver) residue s trace)
        cardloc) t := by
  induction trace generalizing s leaked with
  | nil =>
      cases reached
      exact accounted.congr fun _ => (add_zero _).symm
  | cons label rest inductionHypothesis =>
      rw [Transition.run_cons] at reached
      cases stepped : Lifecycle.step famezPciDriver s label with
      | none => simp [stepped] at reached
      | some next =>
          rw [stepped, Option.bind_some] at reached
          refine (inductionHypothesis (accounted.step stepped) reached).congr
            fun cardloc => ?_
          simp only [Transition.observe, stepped]
          rw [total_append, add_assoc]

end Accounted

/-- Over every run of probes and removals of any devices, whatever fails: no
device ever gives back what it does not hold; it holds what its binding owns, if
it is bound, and what its failing probes have left, and nothing else. -/
theorem logs_accounted {trace : List (Lifecycle.Label String Services)}
    {s : Bus}
    (reached : Transition.run (Lifecycle.step famezPciDriver) Lifecycle.init
      trace = some s) (cardloc : String) :
    (∀ binding, (cardloc, binding) ∈ s.bound →
        Custody.run 0 (s.log cardloc) =
          some (owns binding + leaked trace cardloc)) ∧
      (cardloc ∉ s.bound.map Prod.fst →
        Custody.run 0 (s.log cardloc) = some (leaked trace cardloc)) := by
  have accounted := Accounted.init.run reached
  refine ⟨fun binding member => ?_, fun free => ?_⟩
  · rw [accounted.held cardloc binding member, zero_add]
    rfl
  · rw [accounted.free cardloc free, zero_add]
    rfl

/-- A device on which everything succeeds. -/
def plugged : Services where
  cardloc := "0000:00:05.0"
  pciEnableDevice := .ok ()
  revision := 1
  msixCap := 64
  resourceStart := 4096
  kzallocConfig := some 7
  pciRequestRegions := .ok ()
  pciIomap := fun _ => true
  globals := { slotsize := 512, msgOffset := 64, nSlots := 4 }
  ivPosition := 1
  kzallocEntries := true
  pciMsixVecCount := .ok 64
  pciAllocIrqVectors := .ok
  pciIrqVector := fun i => .ok (40 + i)
  requestIrq := fun _ => .ok ()
  kzallocLookup := true
  kzallocName := true
  miscRegister := .ok ()

/-- A device that is bound after its second BAR could not be mapped at first,
and another one that comes and goes. -/
theorem logs_accounted_retry :
    let unmapped := { plugged with pciIomap := fun bar => bar ≠ 2 }
    let trace : List (Lifecycle.Label String Services) :=
      [.probe "0000:00:05.0" unmapped, .probe "0000:00:06.0" plugged,
        .probe "0000:00:05.0" plugged, .remove "0000:00:06.0"]
    ∃ s, Transition.run (Lifecycle.step famezPciDriver) Lifecycle.init trace =
        some s ∧
      (∀ binding, ("0000:00:05.0", binding) ∈ s.bound →
        Custody.run 0 (s.log "0000:00:05.0") =
          some (owns binding + leaked trace "0000:00:05.0")) ∧
      ("0000:00:05.0" ∉ s.bound.map Prod.fst →
        Custody.run 0 (s.log "0000:00:05.0") =
          some (leaked trace "0000:00:05.0")) := by
  intro unmapped trace
  obtain ⟨s, reached⟩ : ∃ s, Transition.run (Lifecycle.step famezPciDriver)
      Lifecycle.init trace = some s :=
    Option.isSome_iff_exists.mp (by decide)
  exact ⟨s, reached, logs_accounted reached "0000:00:05.0"⟩

end FameZ.Monolithic.Probe
