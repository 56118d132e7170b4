/-
Module: FameZ.Kernel.Lifecycle
Purpose: Every run of the driver's probes and removals over the devices of a
  bus, and when its list and its resources are those of the bound devices.
Trusted boundary: the translation of famez_remove_one; the PCI core probes what
  is not bound and removes what is
Main exports: Binding, famezRemoveOne, famezDriver, lawful,
  lifecycle_clean_iff
-/
import FameZ.Kernel.Probe
import FameZ.Lib.Lifecycle

namespace FameZ.Kernel.Probe

open Isr

/-- What a bound device has: its drvdata, the adapter behind it, and what the
probe met. -/
structure Binding where
  services : Services
  drvdata : Option Nat
  adapter : Adapter

/-- `famez_remove_one` of the device at `cardloc`. -/
def famezRemoveOne (cardloc : String) (services : Services) (m : Machine) :
    Machine :=
  match m.drvdata with
  | none => m
  | some address =>
      let m := (isrTeardown services m).release .device
      let m :=
        { m with
          famezAdapterList := m.famezAdapterList.filter fun cur =>
            cur.cardloc ≠ cardloc }
      famezAdapterDestroy address m

/-- `famez_driver`: a device goes by its CARDLOC, and has no drvdata before it
is probed. -/
def famezDriver :
    Lifecycle.Driver String Services Binding Listed Resource where
  probe cardloc services listed log :=
    let services := { services with cardloc := cardloc }
    match famezInitOne services (before listed) with
    | (.ok (), m) =>
        (some
          { services := services, drvdata := m.drvdata, adapter := m.adapter },
          m.famezAdapterList, log ++ m.log)
    | (.error _, m) => (none, m.famezAdapterList, log ++ m.log)
  remove cardloc binding listed log :=
    let m := famezRemoveOne cardloc binding.services
      { log := log
        drvdata := binding.drvdata
        adapter := binding.adapter
        famezAdapterList := listed }
    (m.famezAdapterList, m.log)

/-- The element of the list for a bound device. -/
def entry (cardloc : String) (binding : Binding) : Listed where
  address := binding.drvdata.getD 0
  cardloc := cardloc

/-- What a bound device holds. -/
def owns (binding : Binding) : Multiset Resource :=
  match binding.drvdata, binding.adapter.irqPrivate with
  | some address, some entries =>
      (irqsOf entries : Multiset Resource) + tableHeld (owned address)
  | _, _ => 0

/-- The first failure of the probe, if any, is one that the driver undoes. -/
def UndoneProbe (cardloc : String) (services : Services)
    (listed : List Listed) : Prop :=
  ∀ step, firstFailure { services with cardloc := cardloc } listed =
    some step → Undone services.globals step

/-- The teardown frees as many vectors as the setup requested. -/
def Binding.Whole (binding : Binding) : Prop :=
  teardownBound binding.services.globals.nClients =
    binding.services.globals.nEvents

/-- A binding as a probe makes it. -/
def Binding.Complete (binding : Binding) : Prop :=
  ∃ address entries, binding.drvdata = some address ∧
    binding.adapter = { mapped with irqPrivate := some entries } ∧
    entries.length = binding.services.globals.nEvents

/-! ### The probe once more -/

section

variable {services : Services} {listed : List Listed} {m : Machine}

theorem unmapBARs_drvdata (m : Machine) :
    (unmapBARs m).drvdata = m.drvdata := by
  obtain ⟨log, drvdata, ⟨regs, globals, irqPrivate⟩, listed⟩ := m
  cases regs <;> cases globals <;> rfl

theorem mapBARs_drvdata (services : Services) (m : Machine) :
    (mapBARs services m).2.drvdata = m.drvdata := by
  unfold mapBARs
  split
  · rfl
  · dsimp only
    split
    · exact unmapBARs_drvdata _
    · split
      · exact unmapBARs_drvdata _
      · rfl

theorem famezAdapterDestroy_drvdata (address : Nat) (m : Machine) :
    (famezAdapterDestroy address m).drvdata = none := by
  unfold famezAdapterDestroy
  dsimp only
  split <;> rfl

theorem famezAdapterCreate_drvdata (absent : m.drvdata = none) :
    (famezAdapterCreate services m).2.drvdata =
      match (famezAdapterCreate services m).1 with
      | .ok address => some address
      | .error _ => none := by
  cases found : services.kzalloc with
  | none =>
      rw [famezAdapterCreate, found]
      exact absent
  | some address =>
      by_cases coreless : services.genzCoreStructureCreate = false
      · rw [famezAdapterCreate, found]
        dsimp only
        rw [if_pos coreless]
        exact absent
      · have core := Bool.eq_true_of_not_eq_false coreless
        rw [famezAdapterCreate_started found core]
        have data := mapBARs_drvdata services (started address m)
        cases maps : mapBARs services (started address m) with
        | mk result after =>
            rw [maps] at data
            cases result with
            | error errno => exact famezAdapterDestroy_drvdata ..
            | ok _ =>
                dsimp only
                split
                · exact famezAdapterDestroy_drvdata ..
                · exact data

theorem isrSetup_drvdata (services : Services) (m : Machine) :
    (isrSetup services m).2.drvdata = m.drvdata := by
  unfold isrSetup
  split <;> rfl

theorem initAdapter_drvdata (services : Services) (address : Nat)
    (m : Machine) :
    (initAdapter services address m).2.drvdata =
      match (initAdapter services address m).1 with
      | .ok () => m.drvdata
      | .error _ => none := by
  have data := isrSetup_drvdata services m
  unfold initAdapter
  cases setup : isrSetup services m with
  | mk result after =>
      rw [setup] at data
      cases result with
      | error errno => exact famezAdapterDestroy_drvdata ..
      | ok _ =>
          dsimp only
          split
          · exact famezAdapterDestroy_drvdata ..
          · cases services.famezCreateOutgoing with
            | error errno => exact famezAdapterDestroy_drvdata ..
            | ok sent =>
                dsimp only
                split
                · exact data
                · exact famezAdapterDestroy_drvdata ..

/-- A probe that fails leaves no drvdata. -/
theorem drvdata_of_error {errno : Isr.Errno}
    (fails : (famezInitOne services (before listed)).1 = .error errno) :
    (famezInitOne services (before listed)).2.drvdata = none := by
  cases enabled : services.pciEnableDevice with
  | error errno =>
      rw [famezInitOne, if_neg (by simp [before]), enabled]
      rfl
  | ok _ =>
      by_cases plain : services.hasFeatures = false
      · rw [famezInitOne, if_neg (by simp [before]), enabled]
        dsimp only
        rw [if_pos plain]
        rfl
      · have features := Bool.eq_true_of_not_eq_false plain
        rw [famezInitOne_enabled enabled features] at fails ⊢
        have data := @famezAdapterCreate_drvdata services
          ((before listed).acquire .device) rfl
        cases made : famezAdapterCreate services
            ((before listed).acquire .device) with
        | mk result after =>
            rw [made] at data fails
            cases result with
            | error errno => exact data
            | ok address =>
                dsimp only at fails ⊢
                rw [initAdapter_drvdata, fails]

/-- What a probe that succeeds leaves. -/
structure Made (services : Services) (listed : List Listed) (address : Nat)
    (entries : List MsixEntry) (m : Machine) : Prop where
  drvdata : m.drvdata = some address
  adapter : m.adapter = { mapped with irqPrivate := some entries }
  size : entries.length = services.globals.nEvents
  listed : m.famezAdapterList =
    listed ++ [{ address := address, cardloc := services.cardloc }]
  holds : m.holding =
    some ((irqsOf entries : Multiset Resource) + tableHeld (owned address))

theorem initAdapter_ok {address : Nat} (holds : m.holding = some (owned address))
    (adapter : m.adapter = mapped) (drvdata : m.drvdata = some address)
    (kept : m.famezAdapterList = listed)
    (succeeds : (initAdapter services address m).1 = .ok ()) :
    ∃ entries, Made services listed address entries
      (initAdapter services address m).2 := by
  by_cases fails : (famezIsrSetup services.vectors
      services.globals.nEvents).1.isOk = false
  · obtain ⟨errno, after, setup, -⟩ := isrSetup_fails holds fails
    rw [initAdapter, setup] at succeeds
    cases succeeds
  · obtain ⟨entries, after, setup, taken, size, same, list⟩ :=
      isrSetup_succeeds holds (Bool.eq_true_of_not_eq_false fails)
    have data := isrSetup_drvdata services m
    rw [setup] at data
    rw [adapter] at same
    refine ⟨entries, ?_⟩
    rw [initAdapter, setup] at succeeds ⊢
    dsimp only at succeeds ⊢
    by_cases duplicate : services.cardloc ∈
        after.famezAdapterList.map Listed.cardloc
    · rw [if_pos duplicate] at succeeds
      cases succeeds
    · rw [if_neg duplicate] at succeeds ⊢
      cases outgoing : services.famezCreateOutgoing with
      | error errno =>
          rw [outgoing] at succeeds
          cases succeeds
      | ok sent =>
          rw [outgoing] at succeeds
          dsimp only at succeeds ⊢
          by_cases whole : sent = 0 ∨ sent = peerAttributesLength
          · rw [if_pos whole]
            refine ⟨data.trans drvdata, same, size, ?_, taken⟩
            rw [list, kept]
          · rw [if_neg whole] at succeeds
            cases succeeds

theorem made_of_ok (succeeds : (famezInitOne services (before listed)).1 =
      .ok ()) :
    ∃ address entries, Made services listed address entries
      (famezInitOne services (before listed)).2 := by
  cases enabled : services.pciEnableDevice with
  | error errno =>
      rw [famezInitOne, if_neg (by simp [before]), enabled] at succeeds
      cases succeeds
  | ok _ =>
      by_cases plain : services.hasFeatures = false
      · rw [famezInitOne, if_neg (by simp [before]), enabled] at succeeds
        dsimp only at succeeds
        rw [if_pos plain] at succeeds
        cases succeeds
      · have features := Bool.eq_true_of_not_eq_false plain
        have creation : Creation services listed (.device ::ₘ 0)
            (famezAdapterCreate services ((before listed).acquire .device)) :=
          famezAdapterCreate_creation (by simp) (holding_enabled listed) rfl
        have data := @famezAdapterCreate_drvdata services
          ((before listed).acquire .device) rfl
        rw [famezInitOne_enabled enabled features] at succeeds ⊢
        generalize famezAdapterCreate services
          ((before listed).acquire .device) = made at creation data succeeds ⊢
        cases creation with
        | clean => cases succeeds
        | unmapped => cases succeeds
        | complete found core mappable fitting holds adapter kept =>
            rename_i address after
            exact ⟨address, initAdapter_ok holds adapter data kept succeeds⟩

/-- The first failure of a probe that fails. -/
theorem restored_of_error {errno : Isr.Errno}
    (fails : (famezInitOne services (before listed)).1 = .error errno) :
    Restored listed services (famezInitOne services (before listed)).2 ↔
      ∀ step, firstFailure services listed = some step →
        Undone services.globals step := by
  have ends := endsAs_firstFailure services listed
  cases failure : firstFailure services listed with
  | none =>
      rw [failure, EndsAs, fails] at ends
      cases ends
  | some step =>
      rw [failure] at ends
      refine ends.2.trans ⟨?_, fun undone => undone step rfl⟩
      intro undone other same
      cases same
      exact undone

end

/-! ### The driver -/

theorem run_settled_append {log more : Log} (settled : Custody.Settled log) :
    Custody.run 0 (log ++ more) = Custody.run 0 more := by
  rw [Custody.run_append, settled]
  rfl

/-- A probe that succeeds has no failing step. -/
theorem undone_of_ok {services : Services} {listed : List Listed}
    (succeeds : (famezInitOne services (before listed)).1 = .ok ()) :
    firstFailure services listed = none := by
  have ends := endsAs_firstFailure services listed
  cases failure : firstFailure services listed with
  | none => rfl
  | some step =>
      rw [failure] at ends
      obtain ⟨errno, fails⟩ := ends.1
      rw [fails] at succeeds
      cases succeeds

/-- A removal gives back what the binding owns, by the teardown of the probe's
own failing path. -/
theorem removeOne_eq {cardloc : String} {services : Services} {m : Machine}
    {address : Nat} (drvdata : m.drvdata = some address) :
    famezRemoveOne cardloc services m =
      teardownDevice services address
        { m with
          famezAdapterList := m.famezAdapterList.filter fun cur =>
            cur.cardloc ≠ cardloc } := by
  obtain ⟨log, data, adapter, listed⟩ := m
  cases drvdata
  rfl

/-- The entries of the other devices. -/
theorem entries_filter {bound : List (String × Binding)}
    (nodup : (bound.map Prod.fst).Nodup) (cardloc : String) :
    ((Lifecycle.entries entry bound).filter fun cur =>
        cur.cardloc ≠ cardloc) =
      Lifecycle.entries entry
        (bound.eraseP fun other => other.1 = cardloc) := by
  rw [← Lifecycle.filter_eq_eraseP nodup, Lifecycle.entries,
    Lifecycle.entries, List.filter_map]
  rfl

theorem lawful : Lifecycle.Lawful famezDriver entry owns UndoneProbe
    Binding.Complete Binding.Whole where
  binds := by
    intro cardloc services bound log binding listed extended free settled probed
    simp only [famezDriver] at probed
    cases ended : famezInitOne { services with cardloc := cardloc }
        (before (Lifecycle.entries entry bound)) with
    | mk result m =>
        rw [ended] at probed
        cases result with
        | error errno => cases probed
        | ok _ =>
            cases probed
            have first : (famezInitOne { services with cardloc := cardloc }
                (before (Lifecycle.entries entry bound))).1 = .ok () := by
              rw [ended]
            obtain ⟨address, table, made⟩ := made_of_ok first
            rw [ended] at made
            refine ⟨fun step failure => ?_, ?_, ?_, ?_⟩
            · rw [undone_of_ok first] at failure
              cases failure
            · exact ⟨address, table, made.drvdata, made.adapter, made.size⟩
            · rw [made.listed, entry, made.drvdata]
              rfl
            · rw [run_settled_append settled, owns, made.drvdata, made.adapter]
              exact made.holds
  fails := by
    intro cardloc services bound log listed extended free settled probed
    simp only [famezDriver] at probed
    cases ended : famezInitOne { services with cardloc := cardloc }
        (before (Lifecycle.entries entry bound)) with
    | mk result m =>
        rw [ended] at probed
        cases result with
        | ok _ => cases probed
        | error errno =>
            cases probed
            have first : (famezInitOne { services with cardloc := cardloc }
                (before (Lifecycle.entries entry bound))).1 =
                  .error errno := by
              rw [ended]
            have data := drvdata_of_error first
            have restored := restored_of_error first
            rw [restored_iff, ended] at restored
            rw [ended] at data
            rw [UndoneProbe, ← restored, Custody.Settled,
              run_settled_append settled]
            exact ⟨fun ⟨kept, back, _⟩ => ⟨kept, back⟩,
              fun ⟨kept, back⟩ => ⟨kept, back, data⟩⟩
  removes := by
    intro cardloc binding bound log nodup member complete holds
    obtain ⟨address, table, drvdata, adapter, size⟩ := complete
    rw [owns, drvdata, adapter] at holds
    simp only [famezDriver]
    rw [@removeOne_eq _ _ _ address drvdata]
    refine ⟨?_, ?_⟩
    · rw [(teardownDevice_eq binding.services address (m := _) adapter).2]
      exact entries_filter nodup cardloc
    · exact holding_teardown holds size adapter

/-- Over every run of probes and removals of any devices: famez_adapter_list is
that of the bound devices in every state, each of them has what its probe took,
and nothing else is held, exactly if no probe fails to request or map its
regions or to send its request, and every device that is removed has two vectors
more than clients. -/
theorem lifecycle_clean_iff (trace : List (Lifecycle.Label String Services)) :
    Transition.Always (Lifecycle.step famezDriver) (Lifecycle.Clean entry owns)
        Lifecycle.init trace ↔
      Transition.Meets (Lifecycle.step famezDriver)
        (Lifecycle.Orderly UndoneProbe Binding.Whole) Lifecycle.init trace :=
  Lifecycle.always_clean_iff lawful trace

end FameZ.Kernel.Probe
