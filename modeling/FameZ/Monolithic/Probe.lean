/-
Module: FameZ.Monolithic.Probe
Purpose: The probe and the removal of a device by the monolithic driver, and
  what each failing probe leaves behind.
Trusted boundary: the translation of famez_config.c, famez_MSIX_setup and
  famez_bridge_setup with their teardowns; the services of the kernel, whose
  outcomes are parameters
Main exports: Resource, Machine, Services, famezProbe, famezRemove, Step,
  firstFailure, left, EndsAs, endsAs_firstFailure
-/
import FameZ.Kernel.Isr
import FameZ.Monolithic.Sendmail
import Mathlib.Algebra.Order.Group.Multiset
import Mathlib.Tactic.Abel

namespace FameZ.Monolithic.Probe

open Kernel.Isr (MsixEntry lookupVectors requestIrqs)

/-! ### The driver -/

/-- Whatever the driver acquires for a device.  `lookup` and `name` are the two
allocations of famez_bridge_setup, and an IRQ number read from behind the table
is nothing that was ever requested. -/
inductive Resource where
  | device
  | config (address : Nat)
  | regions
  | bar (n : Nat)
  | msixEntries
  | irqVectors
  | irq (vector : Nat)
  | beyond (index : Nat)
  | lookup
  | name
  | miscdevice
deriving Repr, DecidableEq

abbrev Log := List (Custody.Event Resource)

inductive Errno where
  | kernel (errno : Kernel.Isr.Errno)
  | sendmail (errno : Monolithic.Errno)
deriving Repr, DecidableEq

/-- `famez_globals_t`. -/
structure Globals where
  slotsize : Nat
  msgOffset : Nat
  nSlots : Nat
deriving Repr, DecidableEq

/-- An element of `famez_active_list` and `CARDLOC` of its device. -/
structure Listed where
  address : Nat
  cardloc : String
deriving Repr, DecidableEq

/-- The fields of `famez_configuration_t` that the unwinding looks at. -/
structure Config where
  regs : Bool
  globals : Bool
  msixEntries : Option (List MsixEntry)
  teardownLookup : Bool
deriving Repr, DecidableEq

/-- `config` is the memory behind the pointer `drvdata`. -/
structure Machine where
  log : Log
  drvdata : Option Nat
  config : Config
  famezActiveList : List Listed

/-- The outcomes of the services, and what the driver reads.  The calls of
kzalloc are, in order, for the configuration, the table of vectors, the lookup
and the name. -/
structure Services where
  cardloc : String
  pciEnableDevice : Except Kernel.Isr.Errno Unit
  revision : Nat
  msixCap : Nat
  resourceStart : Nat
  kzallocConfig : Option Nat
  pciRequestRegions : Except Kernel.Isr.Errno Unit
  pciIomap : Nat → Bool
  globals : Globals
  ivPosition : Nat
  kzallocEntries : Bool
  pciMsixVecCount : Except Kernel.Isr.Errno Nat
  pciAllocIrqVectors : Nat → Except Kernel.Isr.Errno Nat
  pciIrqVector : Nat → Except Kernel.Isr.Errno Nat
  requestIrq : Nat → Except Kernel.Isr.Errno Unit
  kzallocLookup : Bool
  kzallocName : Bool
  miscRegister : Except Kernel.Isr.Errno Unit

/-- The device has the IVSHMSG features. -/
def Services.hasFeatures (services : Services) : Bool :=
  decide (services.revision = 1 ∧ services.msixCap ≠ 0 ∧
    services.resourceStart ≠ 0)

def Machine.acquire (m : Machine) (resource : Resource) : Machine :=
  { m with log := m.log ++ [.acquire resource] }

def Machine.release (m : Machine) (resource : Resource) : Machine :=
  { m with log := m.log ++ [.release resource] }

/-- `offsetof(famez_mailslot_t, msg)`. -/
def msgOffset : Nat := 64

/-- What `kzalloc` makes of the structure. -/
def zeroed : Config where
  regs := false
  globals := false
  msixEntries := none
  teardownLookup := false

/-- `unmapBARs`. -/
def unmapBARs (m : Machine) : Machine :=
  let m := if m.config.regs then m.release (.bar 0) else m
  let m := { m with config := { m.config with regs := false } }
  let m := if m.config.globals then m.release (.bar 2) else m
  let m := { m with config := { m.config with globals := false } }
  m.release .regions

/-- `mapBARs`. -/
def mapBARs (services : Services) (m : Machine) :
    Except Kernel.Isr.Errno Unit × Machine :=
  match services.pciRequestRegions with
  | .error errno => (.error errno, m)
  | .ok () =>
      let m := m.acquire .regions
      if services.pciIomap 0 = false then (.error .enomem, unmapBARs m)
      else
        let m := m.acquire (.bar 0)
        let m := { m with config := { m.config with regs := true } }
        if services.pciIomap 2 = false then (.error .enomem, unmapBARs m)
        else
          let m := m.acquire (.bar 2)
          (.ok (), { m with config := { m.config with globals := true } })

/-- `kfree(config->msix_entries)`, and the sentinel for the teardown. -/
def kfreeEntries (m : Machine) : Machine :=
  let m := m.release .msixEntries
  { m with config := { m.config with msixEntries := none } }

/-- `destroy_config` of the configuration at an address. -/
def destroyConfig (address : Nat) (m : Machine) : Machine :=
  let m := { unmapBARs m with drvdata := none }
  let m :=
    match m.config.msixEntries with
    | some _ => kfreeEntries m
    | none => m
  m.release (.config address)

/-- `create_config`: the address of the configuration.  Only the errors behind
mapBARs go through `err_kfree`. -/
def createConfig (services : Services) (m : Machine) :
    Except Kernel.Isr.Errno Nat × Machine :=
  match services.kzallocConfig with
  | none => (.error .enomem, m)
  | some address =>
      let m :=
        { m.acquire (.config address) with
          drvdata := some address
          config := zeroed }
      match mapBARs services m with
      | (.error errno, m) => (.error errno, m)
      | (.ok (), m) =>
          if msgOffset ≠ services.globals.msgOffset ∨
              services.globals.slotsize ≤ services.globals.msgOffset then
            (.error .einval, destroyConfig address m)
          else if services.kzallocEntries = false then
            (.error .enomem, destroyConfig address m)
          else
            let m := m.acquire .msixEntries
            let entries := List.replicate services.globals.nSlots
              { vector := 0, entry := 0 }
            (.ok address,
              { m with config := { m.config with msixEntries := some entries } })

/-- The IRQs of some entries. -/
def irqsOf (entries : List MsixEntry) : List Resource :=
  entries.map fun entry => .irq entry.vector

/-- `err_pci_free_irq_vectors` and what follows it. -/
def freeVectors (m : Machine) : Machine :=
  kfreeEntries (m.release .irqVectors)

/-- `famez_MSIX_setup`. -/
def famezMSIXSetup (services : Services) (m : Machine) :
    Except Kernel.Isr.Errno Unit × Machine :=
  let nSlots := services.globals.nSlots
  match services.pciMsixVecCount with
  | .error errno => (.error errno, m)
  | .ok nvectors =>
      if nvectors ≠ 64 then (.error .einval, m)
      else if nvectors < nSlots then (.error .enospc, m)
      else
        match services.pciAllocIrqVectors nSlots with
        | .error errno => (.error errno, kfreeEntries m)
        | .ok got =>
            let m := m.acquire .irqVectors
            if got < nSlots then (.error .enospc, freeVectors m)
            else
              match lookupVectors services.pciIrqVector nSlots with
              | .error errno => (.error errno, freeVectors m)
              | .ok entries =>
                  let m :=
                    { m with
                      config := { m.config with msixEntries := some entries } }
                  match requestIrqs services.requestIrq entries with
                  | (.error errno, requested) =>
                      let m :=
                        { m with
                          log := m.log ++ (irqsOf requested).map .acquire ++
                            (irqsOf requested).map .release }
                      (.error errno, freeVectors m)
                  | (.ok (), requested) =>
                      (.ok (),
                        { m with
                          log := m.log ++ (irqsOf requested).map .acquire })

/-- `msix_entries[i].vector`. -/
def vectorAt (entries : List MsixEntry) (i : Nat) : Resource :=
  match entries[i]? with
  | some entry => .irq entry.vector
  | none => .beyond i

/-- `famez_MSIX_teardown`. -/
def famezMSIXTeardown (services : Services) (m : Machine) : Machine :=
  match m.config.msixEntries with
  | none => m
  | some entries =>
      freeVectors
        { m with
          log := m.log ++
            ((List.range services.globals.nSlots).map
              (vectorAt entries)).map .release }

/-- `famez_bridge_setup`. -/
def famezBridgeSetup (services : Services) (m : Machine) :
    Except Kernel.Isr.Errno Unit × Machine :=
  if services.kzallocLookup = false then (.error .enomem, m)
  else
    let m := m.acquire .lookup
    if services.kzallocName = false then (.error .enomem, m.release .lookup)
    else
      let m := m.acquire .name
      let m := { m with config := { m.config with teardownLookup := true } }
      match services.miscRegister with
      | .error errno => (.error errno, m)
      | .ok () => (.ok (), m.acquire .miscdevice)

/-- `famez_bridge_teardown`. -/
def famezBridgeTeardown (m : Machine) : Machine :=
  let m := ((m.release .miscdevice).release .name).release .lookup
  { m with config := { m.config with teardownLookup := false } }

/-- `config->my_id`. -/
def Services.myId (services : Services) : Nat :=
  services.ivPosition % 65536

/-- `config->server_id`, a short, from a subtraction that wraps at zero. -/
def Services.serverId (services : Services) : Nat :=
  if services.globals.nSlots = 0 then 65535
  else (services.globals.nSlots - 1) % 65536

def Services.maxMsglen (services : Services) : Nat :=
  services.globals.slotsize - services.globals.msgOffset

/-- What `famez_sendmail` returns, whatever is in the slot. -/
def famezSendmailReturn (serverId maxMsglen peerId msglen : Nat) :
    Except Monolithic.Errno Nat :=
  if peerId < 1 ∨ serverId < peerId then .error .ebadslt
  else if maxMsglen ≤ msglen then .error .e2big
  else if msglen = 0 then .error .enodata
  else .ok msglen

/-- The message to the server. -/
def imalive (services : Services) : List Char :=
  "Client ".toList ++ Scanf.decimal services.myId ++ " is ready".toList

/-- `err_pci_disable_device`. -/
def disableDevice (config : Option Nat) (m : Machine) : Machine :=
  match config with
  | none => m.release .device
  | some address => destroyConfig address (m.release .device)

/-- `err_MSIX_teardown`. -/
def teardownDevice (services : Services) (address : Nat) (m : Machine) :
    Machine :=
  disableDevice (some address) (famezMSIXTeardown services m)

/-- `famez_probe` from its configuration on.  When the server does not get its
message the probe fails and nothing is undone. -/
def probeConfig (services : Services) (address : Nat) (m : Machine) :
    Except Errno Unit × Machine :=
  match famezMSIXSetup services m with
  | (.error errno, m) =>
      (.error (.kernel errno), disableDevice (some address) m)
  | (.ok (), m) =>
      match famezBridgeSetup services m with
      | (.error errno, m) =>
          (.error (.kernel errno), teardownDevice services address m)
      | (.ok (), m) =>
          if services.cardloc ∈ m.famezActiveList.map Listed.cardloc then
            (.error (.kernel .ealready),
              teardownDevice services address (famezBridgeTeardown m))
          else
            let m :=
              { m with
                famezActiveList := m.famezActiveList ++
                  [{ address := address, cardloc := services.cardloc }] }
            match famezSendmailReturn services.serverId services.maxMsglen
                services.serverId (imalive services).length with
            | .error errno => (.error (.sendmail errno), m)
            | .ok sent =>
                if sent = (imalive services).length then (.ok (), m)
                else (.error (.kernel .eio), m)

/-- `famez_probe`. -/
def famezProbe (services : Services) (m : Machine) :
    Except Errno Unit × Machine :=
  if m.drvdata.isSome then (.error (.kernel .ealready), m)
  else
    match services.pciEnableDevice with
    | .error errno => (.error (.kernel errno), m)
    | .ok () =>
        let m := m.acquire .device
        if services.hasFeatures = false then
          (.error (.kernel .enodev), disableDevice none m)
        else
          match createConfig services m with
          | (.error errno, m) => (.error (.kernel errno), disableDevice none m)
          | (.ok address, m) => probeConfig services address m

/-- `famez_remove` of the device at `cardloc`. -/
def famezRemove (cardloc : String) (services : Services) (m : Machine) :
    Machine :=
  match m.drvdata with
  | none => m
  | some address =>
      let m := famezMSIXTeardown services (famezBridgeTeardown m)
      let m := m.release .device
      let m :=
        { m with
          famezActiveList := m.famezActiveList.filter fun cur =>
            cur.cardloc ≠ cardloc }
      destroyConfig address m

/-- Before the PCI core probes a device. -/
def before (listed : List Listed) : Machine where
  log := []
  drvdata := none
  config := zeroed
  famezActiveList := listed

/-! ### What a probe leaves -/

/-- The steps of a probe that can fail. -/
inductive Step where
  | enable
  | features
  | kzalloc
  | regions
  | iomap (bar : Nat)
  | globals
  | entries
  | msix
  | lookup
  | name
  | register
  | duplicate
  | sendmail
deriving Repr, DecidableEq

/-- The globals are those that the driver was compiled for. -/
def Fitting (services : Services) : Prop :=
  msgOffset = services.globals.msgOffset ∧
    services.globals.msgOffset < services.globals.slotsize

instance (services : Services) : Decidable (Fitting services) :=
  inferInstanceAs (Decidable (_ ∧ _))

/-- The vectors can be had. -/
def Services.vectored (services : Services) : Bool :=
  (famezMSIXSetup services (before [])).1.isOk

/-- The message for the server fits into a slot, and there is a server. -/
def Heard (services : Services) : Prop :=
  1 ≤ services.serverId ∧ (imalive services).length < services.maxMsglen

instance (services : Services) : Decidable (Heard services) :=
  inferInstanceAs (Decidable (_ ∧ _))

/-- The steps in order, and whether each succeeds. -/
def outcomes (services : Services) (listed : List Listed) :
    List (Step × Bool) :=
  [(.enable, services.pciEnableDevice.isOk),
    (.features, services.hasFeatures),
    (.kzalloc, services.kzallocConfig.isSome),
    (.regions, services.pciRequestRegions.isOk),
    (.iomap 0, services.pciIomap 0),
    (.iomap 2, services.pciIomap 2),
    (.globals, decide (Fitting services)),
    (.entries, services.kzallocEntries),
    (.msix, services.vectored),
    (.lookup, services.kzallocLookup),
    (.name, services.kzallocName),
    (.register, services.miscRegister.isOk),
    (.duplicate, decide (services.cardloc ∉ listed.map Listed.cardloc)),
    (.sendmail, decide (Heard services))]

def firstFailure (services : Services) (listed : List Listed) : Option Step :=
  ((outcomes services listed).find? fun outcome => !outcome.2).map Prod.fst

/-! ### What each part does -/

/-- The machine holds these resources; `none` when it released what it did not
hold. -/
def Machine.holding (m : Machine) : Option (Multiset Resource) :=
  Custody.run 0 m.log

/-- What goes with the table of vectors. -/
def tableHeld : Option (List MsixEntry) → Multiset Resource
  | none => 0
  | some _ => {.msixEntries}

/-- What a configuration with both BARs takes. -/
def created (address : Nat) : Multiset Resource :=
  {.bar 0} + ({.bar 2} + ({.regions} + {.config address}))

/-- The configuration is there with both BARs, and besides its table of vectors
the machine holds this. -/
structure Complete (listed : List Listed) (address : Nat)
    (held : Multiset Resource) (m : Machine) : Prop where
  regs : m.config.regs = true
  globals : m.config.globals = true
  drvdata : m.drvdata = some address
  listed : m.famezActiveList = listed
  holds : m.holding = some (tableHeld m.config.msixEntries + held)

section

variable {services : Services} {listed : List Listed} {address : Nat}
  {held more : Multiset Resource} {m after : Machine}

theorem holding_append {log : Log} (holds : m.holding = some held)
    (extended : after.log = m.log ++ log) :
    after.holding = Custody.run held log := by
  rw [Machine.holding] at holds ⊢
  rw [extended, Custody.run_append, holds, Option.bind_some]

theorem holding_acquire (holds : m.holding = some held)
    (resource : Resource) :
    (m.acquire resource).holding = some ({resource} + held) := by
  rw [holding_append holds rfl, Multiset.singleton_add]
  rfl

theorem holding_release {resource : Resource}
    (holds : m.holding = some ({resource} + held)) :
    (m.release resource).holding = some held := by
  rw [holding_append holds rfl, Multiset.singleton_add,
    Custody.run_release_cons, Custody.run_nil]

theorem unmapBARs_mapped (regs : m.config.regs = true)
    (globals : m.config.globals = true) :
    unmapBARs m =
      { ((m.release (.bar 0)).release (.bar 2)).release .regions with
        config := { m.config with regs := false, globals := false } } := by
  obtain ⟨log, drvdata, ⟨regs', globals', entries, lookup⟩, list⟩ := m
  cases regs
  cases globals
  rfl

namespace Complete

theorem congr (complete : Complete listed address held m)
    (same : held = more) : Complete listed address more m := same ▸ complete

theorem acquire (complete : Complete listed address held m)
    (resource : Resource) :
    Complete listed address ({resource} + held) (m.acquire resource) := by
  refine ⟨complete.regs, complete.globals, complete.drvdata, complete.listed,
    ?_⟩
  rw [holding_acquire complete.holds]
  exact congrArg some (add_left_comm ..)

theorem release {resource : Resource}
    (complete : Complete listed address ({resource} + held) m) :
    Complete listed address held (m.release resource) := by
  refine ⟨complete.regs, complete.globals, complete.drvdata, complete.listed,
    holding_release (complete.holds.trans ?_)⟩
  exact congrArg some (add_left_comm ..)

/-- The table is freed. -/
theorem kfreeEntries {entries : List MsixEntry}
    (complete : Complete listed address held m)
    (table : m.config.msixEntries = some entries) :
    Complete listed address held (Probe.kfreeEntries m) := by
  have holds := complete.holds
  rw [table, tableHeld] at holds
  refine ⟨complete.regs, complete.globals, complete.drvdata, complete.listed,
    ?_⟩
  exact (holding_release holds).trans (congrArg some (Multiset.zero_add held).symm)

/-- A new table in the place of the old one. -/
theorem setEntries {old : List MsixEntry}
    (complete : Complete listed address held m)
    (table : m.config.msixEntries = some old) (entries : List MsixEntry) :
    Complete listed address held
      { m with config := { m.config with msixEntries := some entries } } := by
  have holds := complete.holds
  rw [table] at holds
  exact ⟨complete.regs, complete.globals, complete.drvdata, complete.listed,
    holds⟩

theorem freeVectors {entries : List MsixEntry}
    (complete : Complete listed address ({.irqVectors} + held) m)
    (table : m.config.msixEntries = some entries) :
    Complete listed address held (Probe.freeVectors m) :=
  complete.release.kfreeEntries table

/-- The destruction gives back what the creation took. -/
theorem destroyConfig (complete : Complete listed address
    (created address + held) m) :
    (Probe.destroyConfig address m).holding = some held ∧
      (Probe.destroyConfig address m).drvdata = none ∧
      (Probe.destroyConfig address m).famezActiveList = listed := by
  have bars : created address + held =
      {.bar 0} + ({.bar 2} + ({.regions} + ({.config address} + held))) := by
    simp only [created, Multiset.add_assoc]
  have unmapped := (complete.congr bars).release.release.release.holds
  unfold Probe.destroyConfig
  rw [unmapBARs_mapped complete.regs complete.globals]
  dsimp only
  cases table : m.config.msixEntries with
  | none =>
      have unmapped : Machine.holding _ = some (tableHeld m.config.msixEntries +
        ({.config address} + held)) := unmapped
      rw [table, tableHeld, Multiset.zero_add] at unmapped
      exact ⟨holding_release unmapped, rfl, complete.listed⟩
  | some entries =>
      have unmapped : Machine.holding _ = some (tableHeld m.config.msixEntries +
        ({.config address} + held)) := unmapped
      rw [table, tableHeld] at unmapped
      exact ⟨holding_release (holding_release unmapped), rfl, complete.listed⟩

/-- `err_pci_disable_device` of a complete configuration. -/
theorem disableDevice (complete : Complete listed address
    (created address + ({.device} + held)) m) :
    (Probe.disableDevice (some address) m).holding = some held ∧
      (Probe.disableDevice (some address) m).drvdata = none ∧
      (Probe.disableDevice (some address) m).famezActiveList = listed :=
  (complete.congr (add_left_comm ..)).release.destroyConfig

end Complete

/-! #### The creation -/

/-- The regions are there and both BARs can be mapped. -/
def Mappable (services : Services) : Prop :=
  services.pciRequestRegions = .ok () ∧ services.pciIomap 0 = true ∧
    services.pciIomap 2 = true

/-- A mapping that fails has released what it took. -/
theorem mapBARs_fails (blank : m.config = zeroed)
    (holds : m.holding = some held) (unmappable : ¬ Mappable services) :
    ∃ errno after, mapBARs services m = (.error errno, after) ∧
      after.holding = some held ∧
      after.famezActiveList = m.famezActiveList := by
  obtain ⟨log, drvdata, config, list⟩ := m
  cases blank
  unfold mapBARs
  cases regions : services.pciRequestRegions with
  | error errno => exact ⟨errno, _, rfl, holds, rfl⟩
  | ok _ =>
      dsimp only
      by_cases first : services.pciIomap 0 = false
      · rw [if_pos first]
        refine ⟨.enomem, _, rfl, ?_, rfl⟩
        exact holding_release (holding_acquire holds .regions)
      · have second : services.pciIomap 2 = false := by
          by_contra ok
          exact unmappable ⟨regions, Bool.eq_true_of_not_eq_false first,
            Bool.eq_true_of_not_eq_false ok⟩
        rw [if_neg first, if_pos second]
        refine ⟨.enomem, _, rfl, ?_, rfl⟩
        exact holding_release (holding_release
          (holding_acquire (holding_acquire holds .regions) (.bar 0)))

theorem mapBARs_maps (blank : m.config = zeroed)
    (drvdata : m.drvdata = some address)
    (holds : m.holding = some ({.config address} + held))
    (mappable : Mappable services) :
    ∃ after, mapBARs services m = (.ok (), after) ∧
      after.config.msixEntries = none ∧
      Complete m.famezActiveList address (created address + held) after := by
  obtain ⟨regions, first, second⟩ := mappable
  obtain ⟨log, data, config, list⟩ := m
  cases blank
  cases drvdata
  unfold mapBARs
  rw [regions]
  dsimp only
  rw [if_neg (by rw [first]; exact nofun), if_neg (by rw [second]; exact nofun)]
  refine ⟨_, rfl, rfl, rfl, rfl, rfl, rfl, ?_⟩
  have all := holding_acquire (holding_acquire
    (holding_acquire holds .regions) (.bar 0)) (.bar 2)
  refine Eq.trans all (congrArg some ?_)
  change _ = 0 + _
  simp only [created, zero_add, add_assoc]
  exact add_left_comm ..

/-- The creation of a configuration, by the step that fails. -/
inductive Creation (services : Services) (listed : List Listed)
    (held : Multiset Resource) :
    Except Kernel.Isr.Errno Nat × Machine → Prop where
  | refused {errno : Kernel.Isr.Errno} {m : Machine}
      (early : services.kzallocConfig = none ∨
        services.kzallocConfig.isSome = true ∧ Mappable services ∧
          ¬ (Fitting services ∧ services.kzallocEntries = true))
      (holds : m.holding = some held) (kept : m.famezActiveList = listed) :
      Creation services listed held (.error errno, m)
  | unmapped {errno : Kernel.Isr.Errno} {m : Machine} {address : Nat}
      (found : services.kzallocConfig = some address)
      (unmappable : ¬ Mappable services)
      (holds : m.holding = some ({.config address} + held))
      (kept : m.famezActiveList = listed) :
      Creation services listed held (.error errno, m)
  | complete {address : Nat} {entries : List MsixEntry} {m : Machine}
      (found : services.kzallocConfig = some address)
      (mappable : Mappable services) (fitting : Fitting services)
      (allocated : services.kzallocEntries = true)
      (table : m.config.msixEntries = some entries)
      (complete : Complete listed address (created address + held) m) :
      Creation services listed held (.ok address, m)

theorem not_fitting_iff (services : Services) :
    (msgOffset ≠ services.globals.msgOffset ∨
        services.globals.slotsize ≤ services.globals.msgOffset) ↔
      ¬ Fitting services := by
  rw [Fitting, not_and_or, Nat.not_lt]

theorem createConfig_creation (holds : m.holding = some held) :
    Creation services m.famezActiveList held (createConfig services m) := by
  unfold createConfig
  cases found : services.kzallocConfig with
  | none => exact .refused (.inl found) holds rfl
  | some address =>
      have begun := holding_acquire holds (.config address)
      dsimp only
      by_cases mappable : Mappable services
      · obtain ⟨after, maps, blank, complete⟩ :=
          @mapBARs_maps services address held
            { m.acquire (.config address) with
              drvdata := some address
              config := zeroed } rfl rfl begun mappable
        rw [maps]
        dsimp only
        have some' : services.kzallocConfig.isSome = true := by rw [found]; rfl
        obtain ⟨back, -, list⟩ := complete.destroyConfig
        by_cases fitting : Fitting services
        · rw [if_neg (mt (not_fitting_iff services).mp (not_not.mpr fitting))]
          by_cases starved : services.kzallocEntries = false
          · rw [if_pos starved]
            refine .refused (.inr ⟨some', mappable, fun all => ?_⟩) back list
            rw [starved] at all
            cases all.2
          · rw [if_neg starved]
            have allocated := Bool.eq_true_of_not_eq_false starved
            refine .complete found mappable fitting allocated rfl ?_
            refine ⟨complete.regs, complete.globals, complete.drvdata,
              complete.listed, ?_⟩
            have all := holding_acquire complete.holds .msixEntries
            rw [blank, tableHeld, zero_add] at all
            exact all
        · rw [if_pos ((not_fitting_iff services).mpr fitting)]
          exact .refused (.inr ⟨some', mappable, fun all => fitting all.1⟩) back
            list
      · obtain ⟨errno, after, fails, back, list⟩ :=
          @mapBARs_fails services _
            { m.acquire (.config address) with
              drvdata := some address
              config := zeroed } rfl begun mappable
        rw [fails]
        exact .unmapped found mappable back list

/-! #### The vectors -/

theorem Complete.acquires (complete : Complete listed address held m)
    (resources : List Resource) :
    Complete listed address ((resources : Multiset Resource) + held)
      { m with log := m.log ++ resources.map .acquire } := by
  refine ⟨complete.regs, complete.globals, complete.drvdata, complete.listed,
    ?_⟩
  rw [holding_append complete.holds rfl, Custody.run_acquires]
  exact congrArg some (add_left_comm ..)

theorem Complete.releases {resources : List Resource}
    (complete : Complete listed address
      ((resources : Multiset Resource) + held) m) :
    Complete listed address held
      { m with log := m.log ++ resources.map .release } := by
  refine ⟨complete.regs, complete.globals, complete.drvdata, complete.listed,
    ?_⟩
  have holds := complete.holds
  rw [add_left_comm] at holds
  rw [holding_append holds rfl, Custody.run_releases]

/-- The vectors of a complete configuration: a setup that fails has given back
what it took. -/
theorem famezMSIXSetup_cases {table : List MsixEntry}
    (complete : Complete listed address held m)
    (entries : m.config.msixEntries = some table) :
    (∃ errno after, famezMSIXSetup services m = (.error errno, after) ∧
        Complete listed address held after) ∨
      ∃ entries after, famezMSIXSetup services m = (.ok (), after) ∧
        lookupVectors services.pciIrqVector services.globals.nSlots =
          .ok entries ∧
        after.config.msixEntries = some entries ∧
        Complete listed address
          ((irqsOf entries : Multiset Resource) + ({.irqVectors} + held))
          after := by
  unfold famezMSIXSetup
  dsimp only
  cases services.pciMsixVecCount with
  | error errno => exact .inl ⟨errno, m, rfl, complete⟩
  | ok nvectors =>
      dsimp only
      by_cases odd : nvectors ≠ 64
      · rw [if_pos odd]
        exact .inl ⟨_, m, rfl, complete⟩
      rw [if_neg odd]
      by_cases short : nvectors < services.globals.nSlots
      · rw [if_pos short]
        exact .inl ⟨_, m, rfl, complete⟩
      rw [if_neg short]
      cases services.pciAllocIrqVectors services.globals.nSlots with
      | error errno => exact .inl ⟨errno, _, rfl, complete.kfreeEntries entries⟩
      | ok got =>
          have vectors := complete.acquire .irqVectors
          dsimp only
          by_cases less : got < services.globals.nSlots
          · rw [if_pos less]
            exact .inl ⟨_, _, rfl, vectors.freeVectors entries⟩
          rw [if_neg less]
          cases found : lookupVectors services.pciIrqVector
              services.globals.nSlots with
          | error errno =>
              exact .inl ⟨errno, _, rfl, vectors.freeVectors entries⟩
          | ok looked =>
              have filled := vectors.setEntries entries looked
              dsimp only
              cases asked : requestIrqs services.requestIrq looked with
              | mk result requested =>
                  cases result with
                  | error errno =>
                      refine .inl ⟨errno, _, rfl, ?_⟩
                      have undone := (filled.acquires (irqsOf requested)).releases
                      exact undone.freeVectors rfl
                  | ok _ =>
                      have all : requested = looked := by
                        have same := Kernel.Isr.requestIrqs_ok (by rw [asked])
                        rwa [asked] at same
                      rw [all]
                      exact .inr ⟨looked, _, rfl, rfl, rfl,
                        filled.acquires (irqsOf looked)⟩

/-- The outcome does not depend on the machine. -/
theorem famezMSIXSetup_result (services : Services) (m after : Machine) :
    (famezMSIXSetup services m).1 = (famezMSIXSetup services after).1 := by
  unfold famezMSIXSetup
  dsimp only
  cases services.pciMsixVecCount with
  | error errno => rfl
  | ok nvectors =>
      dsimp only
      split
      · rfl
      split
      · rfl
      cases services.pciAllocIrqVectors services.globals.nSlots with
      | error errno => rfl
      | ok got =>
          dsimp only
          split
          · rfl
          cases lookupVectors services.pciIrqVector services.globals.nSlots with
          | error errno => rfl
          | ok looked =>
              dsimp only
              split <;> rfl

/-- The table has one entry a slot. -/
theorem length_looked {entries : List MsixEntry}
    (looked : lookupVectors services.pciIrqVector services.globals.nSlots =
      .ok entries) : entries.length = services.globals.nSlots := by
  rw [← List.length_map, Kernel.Isr.mapM_entries looked, List.length_range]

theorem map_vectorAt (entries : List MsixEntry) :
    (List.range entries.length).map (vectorAt entries) = irqsOf entries := by
  apply List.ext_getElem
  · simp [irqsOf]
  · intro i low high
    rw [List.length_map, List.length_range] at low
    simp [irqsOf, vectorAt, List.getElem?_eq_getElem low]

/-- The teardown gives back what the setup took. -/
theorem Complete.famezMSIXTeardown {entries : List MsixEntry}
    (complete : Complete listed address
      ((irqsOf entries : Multiset Resource) + ({.irqVectors} + held)) m)
    (table : m.config.msixEntries = some entries)
    (size : entries.length = services.globals.nSlots) :
    Complete listed address held (Probe.famezMSIXTeardown services m) := by
  unfold Probe.famezMSIXTeardown
  rw [table]
  dsimp only
  rw [← size, map_vectorAt]
  exact complete.releases.freeVectors table

/-! #### The bridge -/

/-- The device file of a complete configuration: a registration that fails
leaves both allocations behind. -/
theorem famezBridgeSetup_cases (complete : Complete listed address held m) :
    (services.kzallocLookup = false ∨ services.kzallocName = false) ∧
        (∃ errno after, famezBridgeSetup services m = (.error errno, after) ∧
          after.config.msixEntries = m.config.msixEntries ∧
          Complete listed address held after) ∨
      (services.kzallocLookup = true ∧ services.kzallocName = true) ∧
        ((∃ errno after, services.miscRegister = .error errno ∧
            famezBridgeSetup services m = (.error errno, after) ∧
            after.config.msixEntries = m.config.msixEntries ∧
            Complete listed address ({.name} + ({.lookup} + held)) after) ∨
          ∃ after, services.miscRegister = .ok () ∧
            famezBridgeSetup services m = (.ok (), after) ∧
            after.config.msixEntries = m.config.msixEntries ∧
            Complete listed address
              ({.miscdevice} + ({.name} + ({.lookup} + held))) after) := by
  unfold famezBridgeSetup
  by_cases noLookup : services.kzallocLookup = false
  · rw [if_pos noLookup]
    exact .inl ⟨.inl noLookup, _, m, rfl, rfl, complete⟩
  have lookup := complete.acquire .lookup
  rw [if_neg noLookup]
  dsimp only
  by_cases noName : services.kzallocName = false
  · rw [if_pos noName]
    exact .inl ⟨.inr noName, _, _, rfl, rfl, lookup.release⟩
  have name := lookup.acquire .name
  rw [if_neg noName]
  refine .inr ⟨⟨Bool.eq_true_of_not_eq_false noLookup,
    Bool.eq_true_of_not_eq_false noName⟩, ?_⟩
  have noted : Complete listed address ({.name} + ({.lookup} + held))
      { (m.acquire .lookup).acquire .name with
        config := { m.config with teardownLookup := true } } :=
    ⟨name.regs, name.globals, name.drvdata, name.listed, name.holds⟩
  cases register : services.miscRegister with
  | error errno => exact .inl ⟨errno, _, rfl, rfl, rfl, noted⟩
  | ok _ => exact .inr ⟨_, rfl, rfl, rfl, noted.acquire .miscdevice⟩

theorem Complete.famezBridgeTeardown
    (complete : Complete listed address
      ({.miscdevice} + ({.name} + ({.lookup} + held))) m) :
    Complete listed address held (Probe.famezBridgeTeardown m) := by
  have released := complete.release.release.release
  exact ⟨released.regs, released.globals, released.drvdata, released.listed,
    released.holds⟩

/-! #### The probe -/

/-- What a bound device holds besides its table of vectors. -/
def taken (address : Nat) (entries : List MsixEntry) : Multiset Resource :=
  {.miscdevice} + ({.name} + ({.lookup} +
    ((irqsOf entries : Multiset Resource) +
      ({.irqVectors} + (created address + {.device})))))

/-- What a bound device holds. -/
def owned (services : Services) : Multiset Resource :=
  match services.kzallocConfig,
      lookupVectors services.pciIrqVector services.globals.nSlots with
  | some address, .ok entries => {.msixEntries} + taken address entries
  | _, _ => 0

/-- The device is bound and in the list. -/
structure Made (services : Services) (listed : List Listed) (address : Nat)
    (entries : List MsixEntry) (m : Machine) : Prop where
  allocated : services.kzallocConfig = some address
  looked : lookupVectors services.pciIrqVector services.globals.nSlots =
    .ok entries
  table : m.config.msixEntries = some entries
  complete : Complete
    (listed ++ [{ address := address, cardloc := services.cardloc }])
    address (taken address entries) m

theorem Made.holds {entries : List MsixEntry}
    (made : Made services listed address entries m) :
    m.holding = some (owned services) := by
  have holds := made.complete.holds
  rw [made.table] at holds
  rw [owned, made.allocated, made.looked]
  exact holds

/-- What a failing step leaves behind: the configuration that could not be
mapped, the allocations for a device file that could not be registered, and
everything when the server could not be reached. -/
def left (services : Services) : Step → Multiset Resource
  | .regions | .iomap _ =>
      match services.kzallocConfig with
      | some address => {.config address}
      | none => 0
  | .register => {.name} + {.lookup}
  | .sendmail => owned services
  | _ => 0

/-- How a probe ends, in terms of the first step that fails: a device that could
not reach the server stays in the list. -/
def EndsAs (services : Services) (listed : List Listed)
    (result : Except Errno Unit × Machine) : Option Step → Prop
  | none => result.1 = .ok () ∧
      ∃ address entries, Made services listed address entries result.2
  | some step => (∃ errno, result.1 = .error errno) ∧
      result.2.holding = some (left services step) ∧
      (result.2.famezActiveList = listed ↔ step ≠ .sendmail)

theorem find_failure_cons (step : Step) (ok : Bool)
    (rest : List (Step × Bool)) :
    (((step, ok) :: rest).find? fun outcome => !outcome.2).map Prod.fst =
      if ok = false then some step
      else (rest.find? fun outcome => !outcome.2).map Prod.fst := by
  cases ok <;> rfl

theorem teardownDevice_gives_back {entries : List MsixEntry}
    (complete : Complete listed address
      ((irqsOf entries : Multiset Resource) +
        ({.irqVectors} + (created address + ({.device} + held)))) m)
    (table : m.config.msixEntries = some entries)
    (size : entries.length = services.globals.nSlots) :
    (teardownDevice services address m).holding = some held ∧
      (teardownDevice services address m).famezActiveList = listed := by
  obtain ⟨holds, -, list⟩ :=
    (complete.famezMSIXTeardown table size).disableDevice
  exact ⟨holds, list⟩

/-- Every call of famez_sendmail returns this. -/
theorem famezSendmail_return (config : Configuration) (peerId : Nat)
    (msg : List UInt8) (msglen : Nat) (slot : Mailslot) :
    (famezSendmail config peerId msg msglen slot).map Prod.fst =
      famezSendmailReturn config.serverId config.maxMsglen peerId msglen := by
  unfold famezSendmail famezSendmailReturn
  split
  · rfl
  · split
    · rfl
    · split <;> rfl

/-- A message to the server itself. -/
theorem famezSendmailReturn_server {serverId maxMsglen msglen : Nat}
    (nonempty : msglen ≠ 0) :
    famezSendmailReturn serverId maxMsglen serverId msglen =
      if serverId < 1 then .error .ebadslt
      else if maxMsglen ≤ msglen then .error .e2big
      else .ok msglen := by
  rw [famezSendmailReturn, if_neg nonempty]
  simp only [Nat.lt_irrefl, or_false]

theorem imalive_nonempty (services : Services) :
    (imalive services).length ≠ 0 := by
  unfold imalive
  generalize Scanf.decimal services.myId = digits
  simp

theorem famezSendmailReturn_heard (heard : Heard services) :
    famezSendmailReturn services.serverId services.maxMsglen services.serverId
      (imalive services).length = .ok (imalive services).length := by
  rw [famezSendmailReturn_server (imalive_nonempty services),
    if_neg (Nat.not_lt.mpr heard.1), if_neg (Nat.not_le.mpr heard.2)]

theorem famezSendmailReturn_unheard (unheard : ¬ Heard services) :
    ∃ errno, famezSendmailReturn services.serverId services.maxMsglen
      services.serverId (imalive services).length = .error errno := by
  rw [famezSendmailReturn_server (imalive_nonempty services)]
  by_cases noServer : services.serverId < 1
  · rw [if_pos noServer]
    exact ⟨_, rfl⟩
  · have long : services.maxMsglen ≤ (imalive services).length := by
      by_contra short
      exact unheard ⟨Nat.not_lt.mp noServer, Nat.not_le.mp short⟩
    rw [if_neg noServer, if_pos long]
    exact ⟨_, rfl⟩

/-- The failing step of a probe that has a configuration. -/
def lateFailure (services : Services) (listed : List Listed) : Option Step :=
  if services.vectored = false then some .msix
  else if services.kzallocLookup = false then some .lookup
  else if services.kzallocName = false then some .name
  else if services.miscRegister.isOk = false then some .register
  else if services.cardloc ∈ listed.map Listed.cardloc then some .duplicate
  else if ¬ Heard services then some .sendmail
  else none

/-- A failure that leaves the list as it was. -/
theorem endsAs_undone {errno : Errno} {step : Step} (sent : step ≠ .sendmail)
    (holds : m.holding = some (left services step))
    (list : m.famezActiveList = listed) :
    EndsAs services listed (.error errno, m) (some step) :=
  ⟨⟨errno, rfl⟩, holds, iff_of_true list sent⟩

/-- The probe once the device is in the list. -/
theorem endsAs_listed {entries : List MsixEntry}
    (made : Made services listed address entries m) :
    EndsAs services listed
      (match famezSendmailReturn services.serverId services.maxMsglen
          services.serverId (imalive services).length with
        | .error errno => (.error (.sendmail errno), m)
        | .ok sent =>
            if sent = (imalive services).length then (.ok (), m)
            else (.error (.kernel .eio), m))
      (if ¬ Heard services then some .sendmail else none) := by
  by_cases heard : Heard services
  · rw [if_neg (not_not.mpr heard), famezSendmailReturn_heard heard]
    dsimp only
    rw [if_pos rfl]
    exact ⟨rfl, address, entries, made⟩
  · obtain ⟨errno, refused⟩ := famezSendmailReturn_unheard heard
    rw [if_pos heard, refused]
    refine ⟨⟨_, rfl⟩, made.holds, iff_of_false (fun same => ?_) (· rfl)⟩
    rw [made.complete.listed] at same
    simp at same

/-- The probe from its complete configuration on. -/
theorem endsAs_late {table : List MsixEntry}
    (allocated : services.kzallocConfig = some address)
    (complete : Complete listed address (created address + {.device}) m)
    (entries : m.config.msixEntries = some table) :
    EndsAs services listed (probeConfig services address m)
      (lateFailure services listed) := by
  have outcome : (famezMSIXSetup services m).1.isOk = services.vectored :=
    congrArg Except.isOk (famezMSIXSetup_result ..)
  unfold probeConfig lateFailure
  rcases @famezMSIXSetup_cases services _ _ _ _ _ complete entries with
    ⟨errno, after, setup, still⟩ | ⟨looked, after, setup, found, filled, vectors⟩
  · rw [setup] at outcome ⊢
    have unvectored : services.vectored = false := outcome.symm
    rw [if_pos unvectored]
    obtain ⟨holds, -, list⟩ := (still.congr
      (congrArg (created address + ·) (add_zero _).symm)).disableDevice
    exact endsAs_undone nofun holds list
  have size := length_looked found
  rw [setup] at outcome ⊢
  have vectored : services.vectored = true := outcome.symm
  rw [if_neg (by rw [vectored]; exact nofun)]
  dsimp only
  rcases @famezBridgeSetup_cases services _ _ _ _ vectors with
    ⟨starved, errno, bridged, setup, same, still⟩ |
      ⟨⟨lookup, name⟩,
        ⟨errno, bridged, register, setup, same, still⟩ |
          ⟨bridged, register, setup, same, whole⟩⟩
  · rw [setup]
    rw [← add_zero ({.device} : Multiset Resource)] at still
    obtain ⟨holds, list⟩ := teardownDevice_gives_back still
      (same.trans filled) size
    by_cases noLookup : services.kzallocLookup = false
    · rw [if_pos noLookup]
      exact endsAs_undone nofun holds list
    · rw [if_neg noLookup, if_pos (starved.resolve_left noLookup)]
      exact endsAs_undone nofun holds list
  · have unregistered : services.miscRegister.isOk = false := by
      rw [register]
      rfl
    rw [setup, if_neg (by rw [lookup]; exact nofun),
      if_neg (by rw [name]; exact nofun), if_pos unregistered]
    have reordered : ({.name} + ({.lookup} +
        ((irqsOf looked : Multiset Resource) + ({.irqVectors} +
          (created address + {.device})))) : Multiset Resource) =
        (irqsOf looked : Multiset Resource) + ({.irqVectors} +
          (created address + ({.device} + ({.name} + {.lookup})))) := by
      abel
    obtain ⟨holds, list⟩ := teardownDevice_gives_back
      (still.congr reordered) (same.trans filled) size
    exact endsAs_undone nofun holds list
  · have registered : ¬ services.miscRegister.isOk = false := by
      rw [register]
      exact nofun
    rw [setup, if_neg (by rw [lookup]; exact nofun),
      if_neg (by rw [name]; exact nofun), if_neg registered]
    dsimp only
    rw [whole.listed]
    by_cases duplicate : services.cardloc ∈ listed.map Listed.cardloc
    · rw [if_pos duplicate, if_pos duplicate]
      have torn := whole.famezBridgeTeardown
      rw [← add_zero ({.device} : Multiset Resource)] at torn
      obtain ⟨holds, list⟩ := teardownDevice_gives_back torn
        (same.trans filled) size
      exact endsAs_undone nofun holds list
    · rw [if_neg duplicate, if_neg duplicate]
      have made : Made services listed address looked
          { bridged with
            famezActiveList := listed ++
              [{ address := address, cardloc := services.cardloc }] } :=
        ⟨allocated, found, same.trans filled, whole.regs, whole.globals,
          whole.drvdata, rfl, whole.holds⟩
      exact endsAs_listed made

/-- The first step that fails, one condition at a time. -/
theorem firstFailure_eq (services : Services) (listed : List Listed) :
    firstFailure services listed =
      if services.pciEnableDevice.isOk = false then some .enable
      else if services.hasFeatures = false then some .features
      else if services.kzallocConfig.isSome = false then some .kzalloc
      else if services.pciRequestRegions.isOk = false then some .regions
      else if services.pciIomap 0 = false then some (.iomap 0)
      else if services.pciIomap 2 = false then some (.iomap 2)
      else if ¬ Fitting services then some .globals
      else if services.kzallocEntries = false then some .entries
      else lateFailure services listed := by
  simp only [firstFailure, outcomes, find_failure_cons, lateFailure,
    decide_eq_false_iff_not, not_not, List.find?_nil, Option.map_none]

theorem Mappable.succeeds (mappable : Mappable services) :
    ¬ services.pciRequestRegions.isOk = false ∧
      ¬ services.pciIomap 0 = false ∧ ¬ services.pciIomap 2 = false := by
  obtain ⟨regions, first, second⟩ := mappable
  rw [regions, first, second]
  exact ⟨nofun, nofun, nofun⟩

theorem holding_disable (holds : m.holding = some ({.device} + held)) :
    (disableDevice none m).holding = some held := holding_release holds

/-- Every probe ends as its first failing step says. -/
theorem endsAs_firstFailure (services : Services) (listed : List Listed) :
    EndsAs services listed (famezProbe services (before listed))
      (firstFailure services listed) := by
  rw [firstFailure_eq, famezProbe, if_neg (by exact nofun)]
  cases enabled : services.pciEnableDevice with
  | error errno => exact endsAs_undone nofun rfl rfl
  | ok _ =>
      have up : ¬ (Except.ok () : Except Kernel.Isr.Errno Unit).isOk = false :=
        Bool.noConfusion
      have device : ((before listed).acquire .device).holding =
        some ({.device} + 0) := rfl
      rw [if_neg up]
      dsimp only
      by_cases plain : services.hasFeatures = false
      · rw [if_pos plain, if_pos plain]
        exact endsAs_undone nofun (holding_disable device) rfl
      rw [if_neg plain, if_neg plain]
      have creation := @createConfig_creation services _ _ device
      generalize createConfig services ((before listed).acquire .device) =
        made at creation
      cases creation with
      | refused early holds kept =>
          have back := holding_disable holds
          rcases early with none | ⟨found, mappable, unfit⟩
          · have absent : services.kzallocConfig.isSome = false := by
              rw [none]
              rfl
            rw [if_pos absent]
            exact endsAs_undone nofun back kept
          obtain ⟨regions, first, second⟩ := mappable.succeeds
          rw [if_neg (by rw [found]; exact nofun), if_neg regions,
            if_neg first, if_neg second]
          by_cases fitting : Fitting services
          · have starved : services.kzallocEntries = false :=
              Bool.eq_false_iff.mpr fun allocated => unfit ⟨fitting, allocated⟩
            rw [if_neg (not_not.mpr fitting), if_pos starved]
            exact endsAs_undone nofun back kept
          · rw [if_pos fitting]
            exact endsAs_undone nofun back kept
      | unmapped found unmappable holds kept =>
          rename_i errno m address
          rw [add_left_comm, add_zero] at holds
          have back := holding_disable holds
          have lost : ∀ bar, left services (.iomap bar) = {.config address} :=
            fun bar => by rw [left, found]
          have unrequested : left services .regions = {.config address} := by
            rw [left, found]
          have present : ¬ services.kzallocConfig.isSome = false := by
            rw [found]
            exact nofun
          rw [if_neg present]
          cases regions : services.pciRequestRegions with
          | error refusal =>
              exact endsAs_undone nofun
                (back.trans (congrArg some unrequested.symm)) kept
          | ok _ =>
              rw [if_neg up]
              by_cases first : services.pciIomap 0 = false
              · rw [if_pos first]
                exact endsAs_undone nofun
                  (back.trans (congrArg some (lost 0).symm)) kept
              · have second : services.pciIomap 2 = false := by
                  by_contra ok
                  exact unmappable ⟨regions,
                    Bool.eq_true_of_not_eq_false first,
                    Bool.eq_true_of_not_eq_false ok⟩
                rw [if_neg first, if_pos second]
                exact endsAs_undone nofun
                  (back.trans (congrArg some (lost 2).symm)) kept
      | complete found mappable fitting allocated table complete =>
          obtain ⟨regions, first, second⟩ := mappable.succeeds
          have present : ¬ services.kzallocConfig.isSome = false := by
            rw [found]
            exact nofun
          rw [if_neg present, if_neg regions, if_neg first, if_neg second,
            if_neg (not_not.mpr fitting), if_neg (by rw [allocated]; exact nofun)]
          rw [add_zero] at complete
          exact endsAs_late found complete table

end

end FameZ.Monolithic.Probe
