/-
Module: FameZ.Kernel.Probe
Purpose: The probe of a device by the driver, everything it acquires on its way,
  and after which failures all of that has been given back.
Trusted boundary: the translation of famez_pci.c and famez_adapter.c; the
  services of the kernel, whose outcomes are parameters
Main exports: Machine, Services, famezInitOne, Step, firstFailure, Undone,
  Atomic, atomic_iff_undone
-/
import FameZ.Kernel.Isr

namespace FameZ.Kernel.Probe

open Isr

/-! ### The driver -/

/-- The globals of the mailbox as the probe finds them. -/
structure Globals where
  slotsize : Nat
  bufOffset : Nat
  nClients : Nat
  nEvents : Nat
  serverId : Nat
deriving Repr, DecidableEq

/-- An element of `famez_adapter_list` and `CARDLOC` of its device. -/
structure Listed where
  address : Nat
  cardloc : String
deriving Repr, DecidableEq

/-- The fields of `struct famez_adapter` that the unwinding looks at. -/
structure Adapter where
  regs : Bool
  globals : Bool
  irqPrivate : Option (List MsixEntry)
deriving Repr, DecidableEq

/-- `adapter` is the memory behind the pointer `drvdata`. -/
structure Machine where
  log : Log
  drvdata : Option Nat
  adapter : Adapter
  famezAdapterList : List Listed

/-- The outcomes of the services, and what the driver reads. -/
structure Services where
  cardloc : String
  pciEnableDevice : Except Isr.Errno Unit
  revision : Nat
  msixCap : Nat
  resourceStart : Nat
  kzalloc : Option Nat
  genzCoreStructureCreate : Bool
  pciRequestRegions : Except Isr.Errno Unit
  pciIomap : Nat → Bool
  globals : Globals
  ivPosition : Nat
  vectors : Vectors
  famezCreateOutgoing : Except Isr.Errno Nat

/-- `my_id`, a `uint16_t`. -/
def Services.myId (services : Services) : Nat :=
  services.ivPosition % 65536

/-- The device has the IVSHMSG features. -/
def Services.hasFeatures (services : Services) : Bool :=
  decide (services.revision = 1 ∧ services.msixCap ≠ 0 ∧
    services.resourceStart ≠ 0)

def Machine.acquire (m : Machine) (resource : Resource) : Machine :=
  { m with log := m.log ++ [.acquire resource] }

def Machine.release (m : Machine) (resource : Resource) : Machine :=
  { m with log := m.log ++ [.release resource] }

/-- `offsetof(struct famez_mailslot, buf)`. -/
def bufOffset : Nat := 128

/-- `calculate_mailslot(adapter, adapter->my_id)` finds a slot. -/
def hasMailslot (globals : Globals) (slotnum : Nat) : Prop :=
  1 ≤ slotnum ∧ slotnum ≤ globals.nClients ∨ slotnum = globals.serverId

instance (globals : Globals) (slotnum : Nat) :
    Decidable (hasMailslot globals slotnum) :=
  inferInstanceAs (Decidable (_ ∨ _))

/-- `unmapBARs`. -/
def unmapBARs (m : Machine) : Machine :=
  let m := if m.adapter.regs then m.release (.bar 0) else m
  let m := { m with adapter := { m.adapter with regs := false } }
  let m := if m.adapter.globals then m.release (.bar 2) else m
  let m := { m with adapter := { m.adapter with globals := false } }
  m.release .regions

/-- `mapBARs`. -/
def mapBARs (services : Services) (m : Machine) :
    Except Isr.Errno Unit × Machine :=
  match services.pciRequestRegions with
  | .error errno => (.error errno, m)
  | .ok () =>
      let m := m.acquire .regions
      if services.pciIomap 0 = false then (.error .enomem, unmapBARs m)
      else
        let m := m.acquire (.bar 0)
        let m := { m with adapter := { m.adapter with regs := true } }
        if services.pciIomap 2 = false then (.error .enomem, unmapBARs m)
        else
          let m := m.acquire (.bar 2)
          (.ok (), { m with adapter := { m.adapter with globals := true } })

/-- `famez_adapter_destroy` of the adapter at an address. -/
def famezAdapterDestroy (address : Nat) (m : Machine) : Machine :=
  let m := { unmapBARs m with drvdata := none }
  let m :=
    match m.adapter.irqPrivate with
    | some _ => m.release .msixEntries
    | none => m
  let m := { m with adapter := { m.adapter with irqPrivate := none } }
  (m.release .core).release (.adapter address)

/-- What `kzalloc` makes of the structure. -/
def zeroed : Adapter where
  regs := false
  globals := false
  irqPrivate := none

/-- `famez_adapter_create`: the address of the adapter. -/
def famezAdapterCreate (services : Services) (m : Machine) :
    Except Isr.Errno Nat × Machine :=
  match services.kzalloc with
  | none => (.error .enomem, m)
  | some address =>
      let m := { m.acquire (.adapter address) with adapter := zeroed }
      if services.genzCoreStructureCreate = false then
        (.error .enomem, m.release (.adapter address))
      else
        let m := { m.acquire .core with drvdata := some address }
        match mapBARs services m with
        | (.error errno, m) => (.error errno, famezAdapterDestroy address m)
        | (.ok (), m) =>
            if bufOffset ≠ services.globals.bufOffset ∨
                services.globals.slotsize ≤ services.globals.bufOffset ∨
                ¬ hasMailslot services.globals services.myId then
              (.error .einval, famezAdapterDestroy address m)
            else (.ok address, m)

/-- `famez_ISR_setup` of this device. -/
def isrSetup (services : Services) (m : Machine) :
    Except Isr.Errno Unit × Machine :=
  match famezIsrSetup services.vectors services.globals.nEvents with
  | (.error errno, log) => (.error errno, { m with log := m.log ++ log })
  | (.ok entries, log) =>
      (.ok (),
        { m with
          log := m.log ++ log
          adapter := { m.adapter with irqPrivate := some entries } })

/-- `famez_ISR_teardown` of this device. -/
def isrTeardown (services : Services) (m : Machine) : Machine :=
  { m with
    log := m.log ++
      famezIsrTeardown services.globals.nClients m.adapter.irqPrivate
    adapter := { m.adapter with irqPrivate := none } }

/-- `strlen(get_peer_attributes)`. -/
def peerAttributesLength : Nat := "Link CTL Peer-Attribute".length

/-- `err_pci_disable_device`. -/
def disableDevice (adapter : Option Nat) (m : Machine) : Machine :=
  match adapter with
  | none => m.release .device
  | some address => famezAdapterDestroy address (m.release .device)

/-- `err_MSIX_teardown`. -/
def teardownDevice (services : Services) (address : Nat) (m : Machine) :
    Machine :=
  disableDevice (some address) (isrTeardown services m)

/-- `famez_init_one` from its adapter on. -/
def initAdapter (services : Services) (address : Nat) (m : Machine) :
    Except Isr.Errno Unit × Machine :=
  match isrSetup services m with
  | (.error errno, m) => (.error errno, disableDevice (some address) m)
  | (.ok (), m) =>
      if services.cardloc ∈ m.famezAdapterList.map Listed.cardloc then
        (.error .ealready, teardownDevice services address m)
      else
        let m :=
          { m with
            famezAdapterList := m.famezAdapterList ++
              [{ address := address, cardloc := services.cardloc }] }
        match services.famezCreateOutgoing with
        | .error errno => (.error errno, teardownDevice services address m)
        | .ok sent =>
            if sent = 0 ∨ sent = peerAttributesLength then (.ok (), m)
            else (.error .eio, teardownDevice services address m)

/-- `famez_init_one`. -/
def famezInitOne (services : Services) (m : Machine) :
    Except Isr.Errno Unit × Machine :=
  if m.drvdata.isSome then (.error .ealready, m)
  else
    match services.pciEnableDevice with
    | .error errno => (.error errno, m)
    | .ok () =>
        let m := m.acquire .device
        if services.hasFeatures = false then
          (.error .enodev, disableDevice none m)
        else
          match famezAdapterCreate services m with
          | (.error errno, m) => (.error errno, disableDevice none m)
          | (.ok address, m) => initAdapter services address m

/-- Before the PCI core probes a device. -/
def before (listed : List Listed) : Machine where
  log := []
  drvdata := none
  adapter := zeroed
  famezAdapterList := listed

/-! ### Atomicity -/

/-- What a failing probe must leave.  kzalloc hands out memory that no listed
adapter occupies. -/
structure Restored (listed : List Listed) (services : Services)
    (m : Machine) : Prop where
  kept : m.famezAdapterList = listed
  alive : ∀ address, services.kzalloc = some address →
    (∀ entry ∈ listed, entry.address ≠ address) →
    ∀ entry ∈ m.famezAdapterList, entry.address ≠ address
  settled : Custody.Settled m.log
  drvdata : m.drvdata = none

def Atomic (listed : List Listed) (services : Services) : Prop :=
  ∀ errno, (famezInitOne services (before listed)).1 = .error errno →
    Restored listed services (famezInitOne services (before listed)).2

/-- The mailbox is laid out as the driver expects and has a slot for it. -/
def Fitting (services : Services) : Prop :=
  services.globals.bufOffset = bufOffset ∧
    services.globals.bufOffset < services.globals.slotsize ∧
    hasMailslot services.globals services.myId

instance (services : Services) : Decidable (Fitting services) :=
  inferInstanceAs (Decidable (_ ∧ _))

/-- The request for the peer attributes went out as a whole. -/
def Services.sent (services : Services) : Bool :=
  match services.famezCreateOutgoing with
  | .error _ => false
  | .ok sent => decide (sent = 0 ∨ sent = peerAttributesLength)

/-- The steps of a probe that can fail. -/
inductive Step where
  | enable
  | features
  | kzalloc
  | core
  | regions
  | iomap (bar : Nat)
  | globals
  | isr
  | duplicate
  | outgoing
deriving Repr, DecidableEq

/-- The steps in order, and whether each succeeds. -/
def outcomes (services : Services) (listed : List Listed) :
    List (Step × Bool) :=
  [(.enable, services.pciEnableDevice.isOk),
    (.features, services.hasFeatures),
    (.kzalloc, services.kzalloc.isSome),
    (.core, services.genzCoreStructureCreate),
    (.regions, services.pciRequestRegions.isOk),
    (.iomap 0, services.pciIomap 0),
    (.iomap 2, services.pciIomap 2),
    (.globals, decide (Fitting services)),
    (.isr, (famezIsrSetup services.vectors services.globals.nEvents).1.isOk),
    (.duplicate, decide (services.cardloc ∉ listed.map Listed.cardloc)),
    (.outgoing, services.sent)]

def firstFailure (services : Services) (listed : List Listed) : Option Step :=
  ((outcomes services listed).find? fun outcome => !outcome.2).map Prod.fst

/-- The failures that are undone.  The teardown behind the duplicate check
counts on nClients and nEvents belonging together. -/
def Undone (globals : Globals) : Step → Prop
  | .regions => False
  | .iomap _ => False
  | .duplicate => teardownBound globals.nClients = globals.nEvents
  | .outgoing => False
  | _ => True

/-! ### What each part does -/

section

variable {services : Services} {m : Machine} {held : Multiset Resource}
  {address : Nat}

@[simp] theorem log_acquire (m : Machine) (resource : Resource) :
    (m.acquire resource).log = m.log ++ [.acquire resource] := rfl

@[simp] theorem log_release (m : Machine) (resource : Resource) :
    (m.release resource).log = m.log ++ [.release resource] := rfl

theorem log_unmapBARs (m : Machine) :
    (unmapBARs m).log = m.log ++
      ((if m.adapter.regs then [.release (.bar 0)] else []) ++
        (if m.adapter.globals then [.release (.bar 2)] else []) ++
          [.release .regions]) := by
  obtain ⟨log, drvdata, ⟨regs, globals, irqPrivate⟩, listed⟩ := m
  cases regs <;> cases globals <;> simp [unmapBARs, Machine.release]

theorem unmapBARs_adapter (m : Machine) :
    (unmapBARs m).adapter =
        { regs := false, globals := false
          irqPrivate := m.adapter.irqPrivate } ∧
      (unmapBARs m).famezAdapterList = m.famezAdapterList := by
  obtain ⟨log, drvdata, ⟨regs, globals, irqPrivate⟩, listed⟩ := m
  cases regs <;> cases globals <;> exact ⟨rfl, rfl⟩

/-- Without MSI-X vectors the destruction releases the BARs, the core structure
and the adapter. -/
theorem famezAdapterDestroy_eq (address : Nat)
    (quiet : m.adapter.irqPrivate = none) :
    (famezAdapterDestroy address m).log =
        (unmapBARs m).log ++ [.release .core, .release (.adapter address)] ∧
      (famezAdapterDestroy address m).drvdata = none ∧
      (famezAdapterDestroy address m).famezAdapterList =
        m.famezAdapterList := by
  obtain ⟨adapter, listed⟩ := unmapBARs_adapter m
  unfold famezAdapterDestroy
  simp only [adapter, quiet]
  exact ⟨by simp [Machine.release], rfl, listed⟩

/-- The machine holds these resources; `none` when it released what it did not
hold. -/
def Machine.holding (m : Machine) : Option (Multiset Resource) :=
  Custody.run 0 m.log

theorem holding_append {log : Log} (holds : m.holding = some held)
    {after : Machine} (extended : after.log = m.log ++ log) :
    after.holding = Custody.run held log := by
  rw [Machine.holding] at holds ⊢
  rw [extended, Custody.run_append, holds, Option.bind_some]

theorem holding_append_of_none {log : Log} (stray : m.holding = none)
    {after : Machine} (extended : after.log = m.log ++ log) :
    after.holding = none := by
  rw [Machine.holding] at stray ⊢
  rw [extended, Custody.run_append_of_none stray]

/-- What an adapter with both BARs takes. -/
def created (address : Nat) : Multiset Resource :=
  .bar 2 ::ₘ .bar 0 ::ₘ .regions ::ₘ .core ::ₘ {.adapter address}

/-- Both BARs are mapped. -/
def mapped : Adapter where
  regs := true
  globals := true
  irqPrivate := none

theorem quiet_of_mapped (complete : m.adapter = mapped) :
    m.adapter.irqPrivate = none := by
  rw [complete]
  rfl

/-- The destruction of a complete adapter. -/
theorem holding_destroy (holds : m.holding = some (created address + held))
    (complete : m.adapter = mapped) :
    (famezAdapterDestroy address m).holding = some held := by
  obtain ⟨log, -, -⟩ := famezAdapterDestroy_eq address
    (quiet_of_mapped complete)
  rw [log_unmapBARs, complete, List.append_assoc] at log
  rw [holding_append holds log, created]
  simp only [mapped, if_true, Multiset.cons_add, Multiset.singleton_add,
    List.cons_append, List.nil_append]
  rw [Custody.run_release_cons_cons, Custody.run_release_cons,
    Custody.run_release_cons, Custody.run_release_cons,
    Custody.run_release_cons, Custody.run_nil]

/-- `err_pci_disable_device` of a complete adapter. -/
theorem holding_disable
    (holds : m.holding = some (created address + .device ::ₘ held))
    (complete : m.adapter = mapped) :
    (disableDevice (some address) m).holding = some held := by
  have disabled : (m.release .device).holding =
      some (created address + held) := by
    rw [holding_append holds (log_release ..), Multiset.add_cons,
      Custody.run_release_cons, Custody.run_nil]
  exact holding_destroy disabled complete

theorem disableDevice_eq (address : Nat) (complete : m.adapter = mapped) :
    (disableDevice (some address) m).drvdata = none ∧
      (disableDevice (some address) m).famezAdapterList =
        m.famezAdapterList :=
  (famezAdapterDestroy_eq address (m := m.release .device)
    (quiet_of_mapped complete)).2

/-- An adapter that could not be mapped: the regions are released once more
than they were requested. -/
theorem holding_unmapped (absent : .regions ∉ held)
    (holds : m.holding = some (.core ::ₘ .adapter address ::ₘ held))
    (unmapped : m.adapter = zeroed) :
    (famezAdapterDestroy address m).holding = none := by
  have quiet : m.adapter.irqPrivate = none := by rw [unmapped]; rfl
  obtain ⟨log, -, -⟩ := famezAdapterDestroy_eq address quiet
  rw [log_unmapBARs, unmapped, List.append_assoc] at log
  rw [holding_append holds log]
  apply Custody.run_release_of_not_mem
  simp [absent]

/-- The adapter once its structure and its core are there. -/
def started (address : Nat) (m : Machine) : Machine :=
  { (m.acquire (.adapter address)).acquire .core with
    drvdata := some address
    adapter := zeroed }

theorem holding_started (address : Nat) (holds : m.holding = some held) :
    (started address m).holding =
      some (.core ::ₘ .adapter address ::ₘ held) := by
  have log : (started address m).log =
      m.log ++ [.acquire (.adapter address), .acquire .core] := by
    simp [started]
  rw [holding_append holds log]
  rfl

theorem famezAdapterCreate_started (found : services.kzalloc = some address)
    (core : services.genzCoreStructureCreate = true) :
    famezAdapterCreate services m =
      match mapBARs services (started address m) with
      | (.error errno, m) => (.error errno, famezAdapterDestroy address m)
      | (.ok (), m) =>
          if bufOffset ≠ services.globals.bufOffset ∨
              services.globals.slotsize ≤ services.globals.bufOffset ∨
              ¬ hasMailslot services.globals services.myId then
            (.error .einval, famezAdapterDestroy address m)
          else (.ok address, m) := by
  rw [famezAdapterCreate, found]
  dsimp only
  rw [if_neg (by rw [core]; exact nofun)]
  rfl

/-- The regions are there and both BARs can be mapped. -/
def Mappable (services : Services) : Prop :=
  services.pciRequestRegions = .ok () ∧ services.pciIomap 0 = true ∧
    services.pciIomap 2 = true

/-- With the first BAR mapped. -/
def firstMapped (m : Machine) : Machine :=
  { (m.acquire .regions).acquire (.bar 0) with
    adapter := { m.adapter with regs := true } }

theorem mapBARs_of_regions (regions : services.pciRequestRegions = .ok ()) :
    mapBARs services m =
      if services.pciIomap 0 = false then
        (.error .enomem, unmapBARs (m.acquire .regions))
      else if services.pciIomap 2 = false then
        (.error .enomem, unmapBARs (firstMapped m))
      else
        (.ok (),
          { (firstMapped m).acquire (.bar 2) with
            adapter := { m.adapter with regs := true, globals := true } }) := by
  rw [mapBARs, regions]
  rfl

/-- A mapping that fails has released what it took, once. -/
theorem mapBARs_fails (blank : m.adapter = zeroed)
    (holds : m.holding = some held) (unmappable : ¬ Mappable services) :
    ∃ errno after, mapBARs services m = (.error errno, after) ∧
      after.holding = some held ∧ after.adapter = zeroed := by
  cases regions : services.pciRequestRegions with
  | error errno =>
      exact ⟨errno, m, by rw [mapBARs, regions], holds, blank⟩
  | ok _ =>
      rw [mapBARs_of_regions regions]
      by_cases first : services.pciIomap 0 = false
      · rw [if_pos first]
        refine ⟨.enomem, _, rfl, ?_, ?_⟩
        · have log : (unmapBARs (m.acquire .regions)).log =
              m.log ++ [.acquire .regions, .release .regions] := by
            rw [log_unmapBARs, Machine.acquire, blank]
            simp [zeroed]
          rw [holding_append holds log, Custody.run_acquire,
            Custody.run_release_cons, Custody.run_nil]
        · rw [(unmapBARs_adapter _).1, Machine.acquire, blank]
          rfl
      · have second : services.pciIomap 2 = false := by
          by_contra ok
          exact unmappable ⟨regions, Bool.eq_true_of_not_eq_false first,
            Bool.eq_true_of_not_eq_false ok⟩
        rw [if_neg first, if_pos second]
        refine ⟨.enomem, _, rfl, ?_, ?_⟩
        · have log : (unmapBARs (firstMapped m)).log =
              m.log ++ [.acquire .regions, .acquire (.bar 0),
                .release (.bar 0), .release .regions] := by
            rw [log_unmapBARs, firstMapped, blank]
            simp [zeroed]
          rw [holding_append holds log, Custody.run_acquire,
            Custody.run_acquire, Custody.run_release_cons,
            Custody.run_release_cons, Custody.run_nil]
        · rw [(unmapBARs_adapter _).1, firstMapped, blank]
          rfl

theorem mapBARs_maps (blank : m.adapter = zeroed)
    (holds : m.holding = some held) (mappable : Mappable services) :
    ∃ after, mapBARs services m = (.ok (), after) ∧
      after.holding =
        some (.bar 2 ::ₘ .bar 0 ::ₘ .regions ::ₘ held) ∧
      after.adapter = mapped ∧
      after.famezAdapterList = m.famezAdapterList := by
  obtain ⟨regions, first, second⟩ := mappable
  rw [mapBARs_of_regions regions, if_neg (by rw [first]; exact nofun),
    if_neg (by rw [second]; exact nofun)]
  refine ⟨_, rfl, ?_, ?_, rfl⟩
  · have log : ((firstMapped m).acquire (.bar 2)).log =
        m.log ++ [.acquire .regions, .acquire (.bar 0),
          .acquire (.bar 2)] := by
      simp [firstMapped]
    exact holding_append holds log
  · rw [blank]
    rfl

theorem not_fitting_iff (services : Services) :
    (bufOffset ≠ services.globals.bufOffset ∨
        services.globals.slotsize ≤ services.globals.bufOffset ∨
        ¬ hasMailslot services.globals services.myId) ↔
      ¬ Fitting services := by
  rw [Fitting, not_and_or, not_and_or, Nat.not_lt, ne_comm]

/-- The creation of an adapter on a machine that holds no regions: what it
leaves, by the step that fails. -/
inductive Creation (services : Services) (listed : List Listed)
    (held : Multiset Resource) : Except Isr.Errno Nat × Machine → Prop where
  | clean {errno : Isr.Errno} {m : Machine}
      (early : services.kzalloc = none ∨
        services.genzCoreStructureCreate = false ∨
        Mappable services ∧ ¬ Fitting services)
      (holds : m.holding = some held) (drvdata : m.drvdata = none)
      (kept : m.famezAdapterList = listed) :
      Creation services listed held (.error errno, m)
  | unmapped {errno : Isr.Errno} {m : Machine}
      (found : services.kzalloc ≠ none)
      (core : services.genzCoreStructureCreate = true)
      (unmappable : ¬ Mappable services) (stray : m.holding = none) :
      Creation services listed held (.error errno, m)
  | complete {address : Nat} {m : Machine}
      (found : services.kzalloc = some address)
      (core : services.genzCoreStructureCreate = true)
      (mappable : Mappable services) (fitting : Fitting services)
      (holds : m.holding = some (created address + held))
      (adapter : m.adapter = mapped)
      (kept : m.famezAdapterList = listed) :
      Creation services listed held (.ok address, m)

theorem famezAdapterCreate_creation (absent : .regions ∉ held)
    (holds : m.holding = some held) (drvdata : m.drvdata = none) :
    Creation services m.famezAdapterList held
      (famezAdapterCreate services m) := by
  cases found : services.kzalloc with
  | none =>
      rw [famezAdapterCreate, found]
      exact .clean (.inl found) holds drvdata rfl
  | some address =>
      by_cases coreless : services.genzCoreStructureCreate = false
      · rw [famezAdapterCreate, found]
        dsimp only
        rw [if_pos coreless]
        refine .clean (.inr (.inl coreless)) ?_ drvdata rfl
        have log : ({ m.acquire (.adapter address) with
            adapter := zeroed }.release (.adapter address)).log =
              m.log ++ [.acquire (.adapter address),
                .release (.adapter address)] := by
          simp
        rw [holding_append holds log, Custody.run_acquire,
          Custody.run_release_cons, Custody.run_nil]
      · have core := Bool.eq_true_of_not_eq_false coreless
        have begun := holding_started address holds
        rw [famezAdapterCreate_started found core]
        by_cases mappable : Mappable services
        · obtain ⟨after, maps, holdsAll, adapter, kept⟩ :=
            mapBARs_maps rfl begun mappable
          rw [maps]
          dsimp only
          have all : after.holding = some (created address + held) := by
            rw [holdsAll, created]
            simp only [Multiset.cons_add, Multiset.singleton_add]
          by_cases fitting : Fitting services
          · rw [if_neg (mt (not_fitting_iff services).mp
              (not_not.mpr fitting))]
            exact .complete found core mappable fitting all adapter kept
          · rw [if_pos ((not_fitting_iff services).mpr fitting)]
            obtain ⟨-, gone, listed⟩ := famezAdapterDestroy_eq address
              (quiet_of_mapped adapter)
            exact .clean (.inr (.inr ⟨mappable, fitting⟩))
              (holding_destroy all adapter) gone (listed.trans kept)
        · obtain ⟨errno, after, fails, holdsAll, adapter⟩ :=
            mapBARs_fails rfl begun mappable
          rw [fails]
          exact .unmapped (by rw [found]; exact nofun) core mappable
            (holding_unmapped absent holdsAll adapter)

theorem isrSetup_fails (holds : m.holding = some held)
    (fails : (famezIsrSetup services.vectors services.globals.nEvents).1.isOk =
      false) :
    ∃ errno after, isrSetup services m = (.error errno, after) ∧
      after.holding = some held ∧ after.adapter = m.adapter ∧
      after.famezAdapterList = m.famezAdapterList := by
  cases setup : famezIsrSetup services.vectors services.globals.nEvents with
  | mk result log =>
      cases result with
      | ok entries =>
          rw [setup] at fails
          cases fails
      | error errno =>
          rw [isrSetup, setup]
          refine ⟨errno, _, rfl, ?_, rfl, rfl⟩
          rw [holding_append holds rfl, run_setup_error held setup]

theorem isrSetup_succeeds (holds : m.holding = some held)
    (succeeds : (famezIsrSetup services.vectors
      services.globals.nEvents).1.isOk = true) :
    ∃ entries after, isrSetup services m = (.ok (), after) ∧
      after.holding =
        some ((irqsOf entries : Multiset Resource) + tableHeld held) ∧
      entries.length = services.globals.nEvents ∧
      after.adapter = { m.adapter with irqPrivate := some entries } ∧
      after.famezAdapterList = m.famezAdapterList := by
  cases setup : famezIsrSetup services.vectors services.globals.nEvents with
  | mk result log =>
      cases result with
      | error errno =>
          rw [setup] at succeeds
          cases succeeds
      | ok entries =>
          rw [isrSetup, setup]
          refine ⟨entries, _, rfl, ?_, length_of_setup setup, rfl, rfl⟩
          rw [holding_append holds rfl, run_setup_ok held setup]

/-- What the probe of a device holds once its adapter is complete. -/
def owned (address : Nat) : Multiset Resource :=
  created address + .device ::ₘ 0

theorem beyond_not_mem_owned (address i : Nat) :
    (.beyond i : Resource) ∉ owned address := by
  simp [owned, created]

theorem isrTeardown_mapped {entries : List MsixEntry}
    (adapter : m.adapter = { mapped with irqPrivate := some entries }) :
    (isrTeardown services m).adapter = mapped := by
  rw [isrTeardown, adapter]
  rfl

/-- `err_MSIX_teardown` gives everything back if the globals belong together. -/
theorem holding_teardown {entries : List MsixEntry}
    (holds : m.holding = some ((irqsOf entries : Multiset Resource) +
      tableHeld (owned address)))
    (size : entries.length = services.globals.nEvents)
    (adapter : m.adapter = { mapped with irqPrivate := some entries }) :
    (teardownDevice services address m).holding = some 0 ↔
      teardownBound services.globals.nClients = services.globals.nEvents := by
  have complete : (isrTeardown services m).adapter = mapped :=
    isrTeardown_mapped adapter
  have torn : (isrTeardown services m).holding = Custody.run
      ((irqsOf entries : Multiset Resource) + tableHeld (owned address))
      (famezIsrTeardown services.globals.nClients (some entries)) := by
    refine holding_append holds ?_
    rw [isrTeardown, adapter]
  rw [← size]
  rcases run_teardown_cases services.globals.nClients entries
      (beyond_not_mem_owned address) with
    ⟨equal, back⟩ | ⟨unequal, stray | ⟨left, notEmpty, kept⟩⟩
  · rw [back] at torn
    exact ⟨fun _ => equal, fun _ => holding_disable torn complete⟩
  · rw [stray] at torn
    refine ⟨fun settled => ?_, fun equal => absurd equal unequal⟩
    have lost : (teardownDevice services address m).holding = none := by
      obtain ⟨log, -, -⟩ := famezAdapterDestroy_eq address
        (m := (isrTeardown services m).release .device)
        (quiet_of_mapped complete)
      rw [log_unmapBARs, log_release, List.append_assoc, List.append_assoc]
        at log
      exact holding_append_of_none torn log
    rw [lost] at settled
    cases settled
  · have rest : left + owned address =
        created address + .device ::ₘ left := by
      rw [owned, Multiset.add_cons, Multiset.add_zero, Multiset.add_cons,
        Multiset.add_cons, Multiset.add_comm]
    rw [kept, rest] at torn
    rw [teardownDevice, holding_disable torn complete]
    refine ⟨fun settled => ?_, fun equal => absurd equal unequal⟩
    exact absurd (Option.some.inj settled) notEmpty

end

/-! ### The probe -/

section

variable {services : Services} {listed : List Listed} {m : Machine}

theorem restored_iff : Restored listed services m ↔
    m.famezAdapterList = listed ∧ m.holding = some 0 ∧ m.drvdata = none := by
  constructor
  · intro restored
    exact ⟨restored.kept, restored.settled, restored.drvdata⟩
  · rintro ⟨kept, settled, drvdata⟩
    refine ⟨kept, fun address found fresh => ?_, settled, drvdata⟩
    rw [kept]
    exact fresh

/-- How a probe ends, in terms of the first step that fails. -/
def EndsAs (services : Services) (listed : List Listed)
    (result : Except Isr.Errno Unit × Machine) : Option Step → Prop
  | none => result.1 = .ok ()
  | some step => (∃ errno, result.1 = .error errno) ∧
      (Restored listed services result.2 ↔ Undone services.globals step)

/-- A clean failure of an early step. -/
theorem endsAs_clean {errno : Isr.Errno} {step : Step}
    (undone : Undone services.globals step)
    (kept : m.famezAdapterList = listed) (settled : m.holding = some 0)
    (drvdata : m.drvdata = none) :
    EndsAs services listed (.error errno, m) (some step) :=
  ⟨⟨errno, rfl⟩, fun _ => undone,
    fun _ => restored_iff.mpr ⟨kept, settled, drvdata⟩⟩

theorem holding_disable_early {held : Multiset Resource}
    (holds : m.holding = some (.device ::ₘ held)) :
    (disableDevice none m).holding = some held := by
  rw [disableDevice, holding_append holds (log_release ..),
    Custody.run_release_cons, Custody.run_nil]

theorem holding_enabled (listed : List Listed) :
    ((before listed).acquire .device).holding = some (.device ::ₘ 0) := rfl

theorem find_failure_cons (step : Step) (ok : Bool)
    (rest : List (Step × Bool)) :
    (((step, ok) :: rest).find? fun outcome => !outcome.2).map Prod.fst =
      if ok = false then some step
      else (rest.find? fun outcome => !outcome.2).map Prod.fst := by
  cases ok <;> rfl

/-- A clean failure of the creation. -/
theorem firstFailure_early (listed : List Listed)
    (enabled : services.pciEnableDevice = .ok ())
    (features : services.hasFeatures = true)
    (early : services.kzalloc = none ∨
      services.genzCoreStructureCreate = false ∨
      Mappable services ∧ ¬ Fitting services) :
    ∃ step, firstFailure services listed = some step ∧
      Undone services.globals step := by
  simp only [firstFailure, outcomes, find_failure_cons, enabled, features]
  cases found : services.kzalloc with
  | none => exact ⟨.kzalloc, rfl, trivial⟩
  | some address =>
      cases core : services.genzCoreStructureCreate with
      | false => exact ⟨.core, rfl, trivial⟩
      | true =>
          rw [found, core] at early
          obtain ⟨⟨regions, first, second⟩, unfit⟩ : Mappable services ∧
              ¬ Fitting services := by
            rcases early with wrong | wrong | late
            · cases wrong
            · cases wrong
            · exact late
          simp only [regions, first, second, decide_eq_false unfit]
          exact ⟨.globals, rfl, trivial⟩

theorem firstFailure_unmapped (listed : List Listed)
    (enabled : services.pciEnableDevice = .ok ())
    (features : services.hasFeatures = true)
    (found : services.kzalloc ≠ none)
    (core : services.genzCoreStructureCreate = true)
    (unmappable : ¬ Mappable services) :
    ∃ step, firstFailure services listed = some step ∧
      ¬ Undone services.globals step := by
  obtain ⟨address, kzalloc⟩ := Option.ne_none_iff_exists'.mp found
  simp only [firstFailure, outcomes, find_failure_cons, enabled, features,
    kzalloc, core]
  cases regions : services.pciRequestRegions with
  | error errno => exact ⟨.regions, rfl, not_false⟩
  | ok _ =>
      cases first : services.pciIomap 0 with
      | false => exact ⟨.iomap 0, rfl, not_false⟩
      | true =>
          cases second : services.pciIomap 2 with
          | false => exact ⟨.iomap 2, rfl, not_false⟩
          | true => exact absurd ⟨regions, first, second⟩ unmappable

/-- The failing step behind the creation. -/
theorem firstFailure_late (enabled : services.pciEnableDevice = .ok ())
    (features : services.hasFeatures = true) {address : Nat}
    (found : services.kzalloc = some address)
    (core : services.genzCoreStructureCreate = true)
    (mappable : Mappable services) (fitting : Fitting services) :
    firstFailure services listed =
      if (famezIsrSetup services.vectors
          services.globals.nEvents).1.isOk = false then some .isr
      else if services.cardloc ∈ listed.map Listed.cardloc then some .duplicate
      else if services.sent = false then some .outgoing
      else none := by
  obtain ⟨regions, first, second⟩ := mappable
  simp only [firstFailure, outcomes, find_failure_cons, enabled, features,
    found, core, regions, first, second, decide_eq_true fitting]
  simp only [Except.isOk, Except.toBool, Option.isSome, Bool.true_eq_false,
    if_false, decide_eq_false_iff_not, not_not, List.find?_nil,
    Option.map_none]
  congr

theorem famezInitOne_enabled (enabled : services.pciEnableDevice = .ok ())
    (features : services.hasFeatures = true) :
    famezInitOne services (before listed) =
      match famezAdapterCreate services ((before listed).acquire .device) with
      | (.error errno, m) => (.error errno, disableDevice none m)
      | (.ok address, m) => initAdapter services address m := by
  rw [famezInitOne, if_neg (by exact nofun), enabled]
  dsimp only
  rw [if_neg (by rw [features]; exact nofun)]

theorem teardownDevice_eq (services : Services) (address : Nat)
    {entries : List MsixEntry}
    (adapter : m.adapter = { mapped with irqPrivate := some entries }) :
    (teardownDevice services address m).drvdata = none ∧
      (teardownDevice services address m).famezAdapterList =
        m.famezAdapterList :=
  disableDevice_eq address (isrTeardown_mapped adapter)

/-- The adapter stays in the list when its request could not be sent. -/
theorem endsAs_outgoing {errno : Isr.Errno} {address : Nat}
    {entries : List MsixEntry} {entry : Listed}
    (adapter : m.adapter = { mapped with irqPrivate := some entries }) :
    EndsAs services listed
      (.error errno, teardownDevice services address
        { m with famezAdapterList := listed ++ [entry] })
      (some .outgoing) := by
  refine ⟨⟨errno, rfl⟩, fun restored => ?_, False.elim⟩
  have kept := restored.kept
  rw [(teardownDevice_eq services address
    (m := { m with famezAdapterList := listed ++ [entry] }) adapter).2] at kept
  simp at kept

/-- The probe from its complete adapter on. -/
theorem endsAs_late {address : Nat}
    (holds : m.holding = some (owned address)) (adapter : m.adapter = mapped)
    (kept : m.famezAdapterList = listed) :
    EndsAs services listed (initAdapter services address m)
      (if (famezIsrSetup services.vectors
          services.globals.nEvents).1.isOk = false then some .isr
      else if services.cardloc ∈ listed.map Listed.cardloc then some .duplicate
      else if services.sent = false then some .outgoing
      else none) := by
  by_cases fails : (famezIsrSetup services.vectors
      services.globals.nEvents).1.isOk = false
  · obtain ⟨errno, after, setup, still, same, list⟩ :=
      isrSetup_fails holds fails
    rw [if_pos fails, initAdapter, setup]
    have complete : after.adapter = mapped := same.trans adapter
    obtain ⟨drvdata, listSame⟩ := disableDevice_eq address complete
    exact endsAs_clean trivial (listSame.trans (list.trans kept))
      (holding_disable still complete) drvdata
  · obtain ⟨entries, after, setup, taken, size, same, list⟩ :=
      isrSetup_succeeds holds (Bool.eq_true_of_not_eq_false fails)
    rw [adapter] at same
    rw [if_neg fails, initAdapter, setup]
    dsimp only
    rw [list, kept]
    by_cases duplicate : services.cardloc ∈ listed.map Listed.cardloc
    · rw [if_pos duplicate, if_pos duplicate]
      obtain ⟨drvdata, listSame⟩ := teardownDevice_eq services address same
      refine ⟨⟨_, rfl⟩, restored_iff.trans ⟨?_, ?_⟩⟩
      · rintro ⟨-, settled, -⟩
        exact (holding_teardown taken size same).mp settled
      · intro together
        exact ⟨listSame.trans (list.trans kept),
          (holding_teardown taken size same).mpr together, drvdata⟩
    · rw [if_neg duplicate, if_neg duplicate]
      cases outgoing : services.famezCreateOutgoing with
      | error errno =>
          have unsent : services.sent = false := by
            rw [Services.sent, outgoing]
          rw [if_pos unsent]
          exact endsAs_outgoing same
      | ok sent =>
          have whole? : services.sent =
              decide (sent = 0 ∨ sent = peerAttributesLength) := by
            rw [Services.sent, outgoing]
          dsimp only
          by_cases whole : sent = 0 ∨ sent = peerAttributesLength
          · rw [decide_eq_true whole] at whole?
            rw [if_pos whole, if_neg (by rw [whole?]; exact nofun)]
            rfl
          · rw [decide_eq_false whole] at whole?
            rw [if_neg whole, if_pos whole?]
            exact endsAs_outgoing same

/-- Every probe ends as its first failing step says. -/
theorem endsAs_firstFailure (services : Services) (listed : List Listed) :
    EndsAs services listed (famezInitOne services (before listed))
      (firstFailure services listed) := by
  cases enabled : services.pciEnableDevice with
  | error errno =>
      have failure : firstFailure services listed = some .enable := by
        rw [firstFailure, outcomes, find_failure_cons, enabled]
        rfl
      rw [failure, famezInitOne, if_neg (by exact nofun), enabled]
      exact endsAs_clean trivial rfl rfl rfl
  | ok _ =>
      by_cases plain : services.hasFeatures = false
      · have failure : firstFailure services listed = some .features := by
          rw [firstFailure, outcomes, find_failure_cons, find_failure_cons,
            enabled, plain]
          rfl
        rw [failure, famezInitOne, if_neg (by exact nofun), enabled]
        dsimp only
        rw [if_pos plain]
        exact endsAs_clean trivial rfl
          (holding_disable_early (holding_enabled listed)) rfl
      · have features := Bool.eq_true_of_not_eq_false plain
        have creation : Creation services listed (.device ::ₘ 0)
            (famezAdapterCreate services ((before listed).acquire .device)) :=
          famezAdapterCreate_creation (by simp) (holding_enabled listed) rfl
        rw [famezInitOne_enabled enabled features]
        generalize famezAdapterCreate services
          ((before listed).acquire .device) = made at creation
        cases creation with
        | clean early holds drvdata kept =>
            obtain ⟨step, failure, undone⟩ := firstFailure_early
              listed enabled features early
            rw [failure]
            exact endsAs_clean undone kept (holding_disable_early holds) drvdata
        | unmapped found core unmappable stray =>
            obtain ⟨step, failure, notUndone⟩ := firstFailure_unmapped
              listed enabled features found core unmappable
            rw [failure]
            refine ⟨⟨_, rfl⟩, fun restored => ?_,
              fun undone => absurd undone notUndone⟩
            have settled := (restored_iff.mp restored).2.1
            have lost := holding_append_of_none stray (log_release _ .device)
            change Machine.holding (Machine.release _ .device) = _ at settled
            rw [lost] at settled
            cases settled
        | complete found core mappable fitting holds adapter kept =>
            rw [firstFailure_late enabled features found core mappable fitting]
            exact endsAs_late holds adapter kept

/-- A failing probe is undone exactly if the first failure is one of those that
the driver undoes. -/
theorem atomic_iff_undone (services : Services) (listed : List Listed) :
    Atomic listed services ↔
      ∀ step, firstFailure services listed = some step →
        Undone services.globals step := by
  have ends := endsAs_firstFailure services listed
  unfold Atomic
  cases failure : firstFailure services listed with
  | none =>
      rw [failure] at ends
      refine ⟨fun _ _ wrong => (by cases wrong), fun _ errno fails => ?_⟩
      rw [EndsAs, fails] at ends
      cases ends
  | some step =>
      rw [failure] at ends
      obtain ⟨⟨errno, fails⟩, restored⟩ := ends
      constructor
      · intro atomic other same
        cases same
        exact restored.mp (atomic errno fails)
      · intro undone _ _
        exact restored.mpr (undone step rfl)

end

/-- Everything succeeds on the only device, but its slot stays busy. -/
def unheard : Services where
  cardloc := "0000:00:05.0"
  pciEnableDevice := .ok ()
  revision := 1
  msixCap := 64
  resourceStart := 4096
  kzalloc := some 7
  genzCoreStructureCreate := true
  pciRequestRegions := .ok ()
  pciIomap := fun _ => true
  globals :=
    { slotsize := 512, bufOffset := 128, nClients := 2, nEvents := 4
      serverId := 3 }
  ivPosition := 1
  vectors := qemu
  famezCreateOutgoing := .error (.kernel 512)

/-- The adapter is freed and stays in the list. -/
theorem freed_adapter_listed :
    (famezInitOne unheard (before [])).1 = .error (.kernel 512) ∧
      (famezInitOne unheard (before [])).2.famezAdapterList =
        [{ address := 7, cardloc := "0000:00:05.0" }] ∧
      .release (.adapter 7) ∈ (famezInitOne unheard (before [])).2.log ∧
      ¬ Atomic [] unheard := by
  refine ⟨by decide, by decide, by decide, fun atomic => ?_⟩
  have kept := (atomic (.kernel 512) (by decide)).kept
  exact absurd kept (by decide)

end FameZ.Kernel.Probe
