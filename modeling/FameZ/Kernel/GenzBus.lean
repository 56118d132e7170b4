/-
Module: FameZ.Kernel.GenzBus
Purpose: The loading and unloading of genz.ko: its classes, its bus, the anchor
  device of the bus, and the devices that are probed on it.
Trusted boundary: the translation of genz_bus.c and genz_class.c; the services
  of the kernel, whose outcomes are parameters
Main exports: Resource, genzClasses, genzClassGetter, genzClassesInit,
  genzClassesDestroy, genzBusInit, genzBusExit, genzInitOne, State, Label, step,
  Tidy, genz_unloads_clean_iff
-/
import FameZ.Lib.Custody
import Mathlib.Data.List.Range

namespace FameZ.Kernel.GenzBus

/-!
The classes are registered in a loop that undoes itself when one of them fails,
and the bus gives them back when it fails.  Nothing gives back what comes behind
the bus: the anchor device `genz0_dev_root`, which genz_bus_init adds by
default, and the devices that genz_init_one allocates.
-/

/-- What the module holds.  `rootName` is the name that is allocated for the
anchor device, `root` the device in sysfs. -/
inductive Resource where
  | cls (index : Nat)
  | bus
  | rootName
  | root
  | genzDev (number : Nat)
deriving Repr, DecidableEq

abbrev Log := List (Custody.Event Resource)

inductive Errno where
  | enomem
  | einval
  | ealready
  | kernel (code : Nat)
deriving Repr, DecidableEq

/-! ### genz_class.c -/

/-- The names of `genz_classes`, up to the empty entry. -/
def genzClasses : List String :=
  ["RESERVED", "genz_memory_p2p", "genz_memory_explicit",
    "genz_switch_integrated", "genz_switch_enclosure", "genz_switch_fabric",
    "genz_processor", "genz_processor_nb", "genz_accelerator_nb_nc",
    "genz_accelerator_nb", "genz_accelerator_nc", "genz_accelerator",
    "genz_io_nb_nc", "genz_io_nb", "genz_io_nc", "genz_io", "genz_block",
    "genz_block_nb", "genz_tr", "genz_multiclass", "genz_bridge_discrete",
    "genz_bridge_integrated"]

/-- The size of the table, with its empty entry, less 2. -/
def maxindex : Nat := genzClasses.length + 1 - 2

/-- `genz_class_getter`. -/
def genzClassGetter (index : Nat) : Option Resource :=
  if index ≠ 0 ∧ index ≤ maxindex then some (.cls index) else none

/-- `while (--i > 0) class_unregister(&genz_classes[i])`. -/
def unwind : Nat → Log
  | 0 => []
  | i + 1 => if 0 < i then .release (.cls i) :: unwind i else []

/-- The loop of genz_classes_init from index `i` on. -/
def registerClasses (classRegister : Nat → Except Errno Unit) :
    List String → Nat → Log → Except Errno Unit × Log
  | [], _, log => (.ok (), log)
  | _ :: rest, i, log =>
      match classRegister i with
      | .ok () =>
          registerClasses classRegister rest (i + 1)
            (log ++ [.acquire (.cls i)])
      | .error errno => (.error errno, log ++ unwind i)

/-- `genz_classes_init`: RESERVED is skipped. -/
def genzClassesInit (classRegister : Nat → Except Errno Unit) (log : Log) :
    Except Errno Unit × Log :=
  registerClasses classRegister genzClasses.tail 1 log

/-- The loop of genz_classes_destroy from index `i` on. -/
def unregisterClasses : List String → Nat → Log
  | [], _ => []
  | _ :: rest, i => .release (.cls i) :: unregisterClasses rest (i + 1)

/-- `genz_classes_destroy`. -/
def genzClassesDestroy (log : Log) : Log :=
  log ++ unregisterClasses genzClasses.tail 1

/-! ### genz_bus.c -/

/-- The outcomes of the services of one insmod.  `busName` says whether
device_add can name a nameless device after its bus, which it tries first. -/
structure Services where
  classRegister : Nat → Except Errno Unit
  busRegister : Except Errno Unit
  devSetName : Bool
  busName : Bool
  deviceAdd : Except Errno Unit

/-- The anchor device gets a name; the result of `dev_set_name` is ignored. -/
def Services.named (services : Services) : Bool :=
  services.devSetName || services.busName

/-- `device_add` of the anchor device. -/
def Services.addRoot (services : Services) : Except Errno Unit :=
  if services.named then services.deviceAdd else .error .einval

/-- `root` says that the anchor device was added, `devices` are those that
genz_init_one allocated since the module was loaded. -/
structure State where
  loaded : Bool
  root : Bool
  theOne : Option Nat
  devices : List Nat
  log : Log
deriving DecidableEq

def init : State where
  loaded := false
  root := false
  theOne := none
  devices := []
  log := []

/-- `genz_bus_exit`. -/
def genzBusExit (log : Log) : Log :=
  genzClassesDestroy (log ++ [.release .bus])

/-- `genz_bus_init`: what insmod returns, whether the anchor device was added,
and the log. -/
def genzBusInit (auto0 : Nat) (services : Services) (log : Log) :
    Except Errno Unit × Bool × Log :=
  match genzClassesInit services.classRegister log with
  | (.error errno, log) => (.error errno, false, log)
  | (.ok (), log) =>
      match services.busRegister with
      | .error errno => (.error errno, false, genzClassesDestroy log)
      | .ok () =>
          let log := log ++ [.acquire .bus]
          if auto0 = 0 then (.ok (), false, log)
          else
            let log :=
              if services.named then log ++ [.acquire .rootName] else log
            match services.addRoot with
            | .ok () => (.ok (), true, log ++ [.acquire .root])
            | .error errno => (.error errno, false, genzBusExit log)

/-- `register_genzdev`. -/
def registerGenzdev (genzDev : Nat) (theOne : Option Nat) :
    Except Errno Unit × Option Nat :=
  match theOne with
  | some one => (.error .ealready, some one)
  | none => (.ok (), some genzDev)

/-- `unregister_genzdev`. -/
def unregisterGenzdev (genzDev : Nat) (theOne : Option Nat) : Option Nat :=
  if theOne = some genzDev then none else theOne

/-- `genz_init_one`; `kzalloc` is that of alloc_genzdev. -/
def genzInitOne (kzalloc : Bool) (s : State) : Except Errno Unit × State :=
  if kzalloc then
    let genzDev := s.devices.length
    let registered := registerGenzdev genzDev s.theOne
    (registered.1,
      { s with
        theOne := registered.2
        devices := s.devices ++ [genzDev]
        log := s.log ++ [.acquire (.genzDev genzDev)] })
  else (.error .enomem, s)

/-! ### Runs -/

/-- The calls into the module, those of its exported functions included. -/
inductive Label where
  | insmod (auto0 : Nat) (services : Services)
  | probe (kzalloc : Bool)
  | register (genzDev : Nat)
  | unregister (genzDev : Nat)
  | rmmod

/-- Unloading takes the static data with it. -/
def step : Transition.Step State Label := fun s label =>
  match label with
  | .insmod auto0 services =>
      if s.loaded then none
      else
        match genzBusInit auto0 services s.log with
        | (.ok (), root, log) =>
            some { init with loaded := true, root := root, log := log }
        | (.error _, _, log) => some { s with log := log }
  | .probe kzalloc => if s.loaded then some (genzInitOne kzalloc s).2 else none
  | .register genzDev =>
      if s.loaded then
        some { s with theOne := (registerGenzdev genzDev s.theOne).2 }
      else none
  | .unregister genzDev =>
      if s.loaded then
        some { s with theOne := unregisterGenzdev genzDev s.theOne }
      else none
  | .rmmod =>
      if s.loaded then some { init with log := genzBusExit s.log } else none

/-! ### The loops -/

theorem unwind_succ (i : Nat) :
    unwind (i + 1) = (List.range' 1 i).reverse.map (.release ∘ .cls) := by
  induction i with
  | zero => rfl
  | succ i inductionHypothesis =>
      rw [unwind, if_pos (Nat.succ_pos i), inductionHypothesis,
        List.range'_concat]
      simp [Nat.add_comm]

theorem unregisterClasses_eq (names : List String) (i : Nat) :
    unregisterClasses names i =
      (List.range' i names.length).map (.release ∘ .cls) := by
  induction names generalizing i with
  | nil => rfl
  | cons name rest inductionHypothesis =>
      rw [unregisterClasses, inductionHypothesis, List.length_cons,
        List.range'_succ]
      rfl

/-- The loop registers every class, or stops at the first that fails and undoes
what it has done. -/
theorem registerClasses_cases (classRegister : Nat → Except Errno Unit)
    (names : List String) (i : Nat) (log : Log) :
    ((∀ k, k < names.length → classRegister (i + k) = .ok ()) ∧
      registerClasses classRegister names i log =
        (.ok (), log ++
          (List.range' i names.length).map (.acquire ∘ .cls))) ∨
    ∃ k errno, k < names.length ∧ classRegister (i + k) = .error errno ∧
      registerClasses classRegister names i log =
        (.error errno, log ++ (List.range' i k).map (.acquire ∘ .cls) ++
          unwind (i + k)) := by
  induction names generalizing i log with
  | nil => exact .inl ⟨fun k beyond => absurd beyond (Nat.not_lt_zero k), by
      simp [registerClasses]⟩
  | cons name rest inductionHypothesis =>
      rw [registerClasses]
      cases first : classRegister i with
      | error errno =>
          exact .inr ⟨0, errno, Nat.succ_pos _, first, by simp⟩
      | ok =>
          rcases inductionHypothesis (i + 1) (log ++ [.acquire (.cls i)]) with
            ⟨every, registered⟩ | ⟨k, errno, early, fails, undone⟩
          · refine .inl ⟨fun k inside => ?_, ?_⟩
            · cases k with
              | zero => exact first
              | succ k =>
                  have later := every k (Nat.lt_of_succ_lt_succ inside)
                  rwa [Nat.add_right_comm] at later
            · dsimp only
              rw [registered, List.length_cons, List.range'_succ]
              simp
          · refine .inr ⟨k + 1, errno, Nat.succ_lt_succ early, ?_, ?_⟩
            · rwa [Nat.add_right_comm] at fails
            · dsimp only
              rw [undone, List.range'_succ, Nat.add_right_comm]
              simp [Nat.add_assoc]

/-- The registered classes. -/
def classes : List Resource := (List.range' 1 maxindex).map .cls

variable {log : Log} {held : Multiset Resource}

/-- A registration that succeeds takes every class that genz_class_getter knows;
one that fails leaves nothing. -/
theorem genzClassesInit_cases (classRegister : Nat → Except Errno Unit)
    (runs : Custody.run 0 log = some held) :
    ((∀ i, genzClassGetter i ≠ none → classRegister i = .ok ()) ∧
      ∃ after, genzClassesInit classRegister log = (.ok (), after) ∧
        Custody.run 0 after = some ((classes : Multiset Resource) + held)) ∨
    ((∃ i errno, genzClassGetter i ≠ none ∧
        classRegister i = .error errno) ∧
      ∃ errno after, genzClassesInit classRegister log = (.error errno, after) ∧
        Custody.run 0 after = some held) := by
  rcases registerClasses_cases classRegister genzClasses.tail 1 log with
    ⟨every, registered⟩ | ⟨k, errno, early, fails, undone⟩
  · refine .inl ⟨fun i known => ?_, _, registered, ?_⟩
    · unfold genzClassGetter at known
      split at known
      · rename_i inside
        have here := every (i - 1) (by
          change i - 1 < maxindex
          omega)
        rwa [Nat.add_sub_cancel' (Nat.pos_of_ne_zero inside.1)] at here
      · exact absurd rfl known
    · rw [Custody.run_append, runs, Option.bind_some, ← List.map_map,
        Custody.run_acquires]
      rfl
  · refine .inr ⟨⟨1 + k, errno, ?_, fails⟩, errno, _, undone, ?_⟩
    · have small : 1 + k ≤ maxindex := by
        change k < maxindex at early
        omega
      rw [genzClassGetter, if_pos ⟨by omega, small⟩]
      exact Option.some_ne_none _
    · rw [Nat.add_comm, unwind_succ, Custody.run_append, Custody.run_append,
        runs, Option.bind_some, ← List.map_map, Custody.run_acquires,
        Option.bind_some, ← List.map_map, List.map_reverse,
        ← Multiset.coe_reverse, Custody.run_releases]

theorem run_genzClassesDestroy
    (runs : Custody.run 0 log = some ((classes : Multiset Resource) + held)) :
    Custody.run 0 (genzClassesDestroy log) = some held := by
  have all : unregisterClasses genzClasses.tail 1 = classes.map .release := by
    rw [unregisterClasses_eq, classes, List.map_map]
    rfl
  rw [genzClassesDestroy, all, Custody.run_append, runs, Option.bind_some,
    Custody.run_releases]

theorem run_genzBusExit
    (runs : Custody.run 0 log =
      some (.bus ::ₘ ((classes : Multiset Resource) + held))) :
    Custody.run 0 (genzBusExit log) = some held := by
  apply run_genzClassesDestroy
  rw [Custody.run_append, runs, Option.bind_some, Custody.run_release_cons]
  rfl

/-- Everything before the anchor device succeeds, and its addition fails when
it has got its name. -/
def FailsAtRoot (auto0 : Nat) (services : Services) : Prop :=
  (∀ i, genzClassGetter i ≠ none → services.classRegister i = .ok ()) ∧
    services.busRegister = .ok () ∧ auto0 ≠ 0 ∧
    services.named = true ∧ services.deviceAdd ≠ .ok ()

/-- What the anchor device costs. -/
def anchor (root : Bool) : List Resource :=
  if root then [.root, .rootName] else []

theorem anchor_add (held : Multiset Resource) :
    (anchor true : Multiset Resource) + held =
      .root ::ₘ .rootName ::ₘ held := by
  change (.root ::ₘ .rootName ::ₘ 0) + held = _
  rw [Multiset.cons_add, Multiset.cons_add, Multiset.zero_add]

/-- Everything an insmod can come to. -/
theorem genzBusInit_cases (auto0 : Nat) (services : Services)
    (runs : Custody.run 0 log = some held) :
    (¬ FailsAtRoot auto0 services ∧ ∃ root after,
      genzBusInit auto0 services log = (.ok (), root, after) ∧
      Custody.run 0 after = some ((anchor root : Multiset Resource) +
        .bus ::ₘ ((classes : Multiset Resource) + held))) ∨
    (¬ FailsAtRoot auto0 services ∧ ∃ errno after,
      genzBusInit auto0 services log = (.error errno, false, after) ∧
      Custody.run 0 after = some held) ∨
    (FailsAtRoot auto0 services ∧ ∃ errno after,
      genzBusInit auto0 services log = (.error errno, false, after) ∧
      Custody.run 0 after = some (.rootName ::ₘ held)) := by
  rcases genzClassesInit_cases services.classRegister runs with
    ⟨every, after, registered, taken⟩ |
    ⟨⟨i, errno, known, fails⟩, code, after, failed, left⟩
  · rw [genzBusInit, registered]
    dsimp only
    cases bus : services.busRegister with
    | error errno =>
        refine .inr (.inl ⟨fun fails => ?_, errno, _, rfl,
          run_genzClassesDestroy taken⟩)
        rw [fails.2.1] at bus
        cases bus
    | ok =>
        have withBus : Custody.run 0 (after ++ [.acquire .bus]) =
            some (.bus ::ₘ ((classes : Multiset Resource) + held)) := by
          rw [Custody.run_append, taken]
          rfl
        dsimp only
        by_cases plain : auto0 = 0
        · rw [if_pos plain]
          refine .inl ⟨fun fails => fails.2.2.1 plain, false, _, rfl, ?_⟩
          rw [withBus]
          simp [anchor]
        rw [if_neg plain, Services.addRoot]
        cases named : services.named with
        | false =>
            simp only [Bool.false_eq_true, if_false]
            refine .inr (.inl ⟨fun fails => ?_, .einval, _, rfl,
              run_genzBusExit withBus⟩)
            rw [fails.2.2.2.1] at named
            cases named
        | true =>
            simp only [if_true]
            cases add : services.deviceAdd with
            | ok =>
                refine .inl ⟨fun fails => fails.2.2.2.2 add, true, _, rfl, ?_⟩
                rw [Custody.run_append, Custody.run_append, withBus,
                  anchor_add]
                rfl
            | error errno =>
                refine .inr (.inr
                  ⟨⟨every, bus, plain, named, ?_⟩, errno, _, rfl, ?_⟩)
                · rw [add]
                  exact nofun
                · apply run_genzBusExit
                  rw [Custody.run_append, withBus, Option.bind_some,
                    Custody.run_acquire, Custody.run_nil, Multiset.add_cons,
                    Multiset.cons_swap]
  · refine .inr (.inl ⟨fun whole => ?_, code, after, ?_, left⟩)
    · rw [whole.1 i known] at fails
      cases fails
    · rw [genzBusInit, failed]

/-! ### Runs -/

/-- What a loaded module holds: what genz_bus_exit gives back, and what it does
not. -/
def State.holds (s : State) : List Resource :=
  if s.loaded then
    anchor s.root ++ s.devices.map .genzDev ++ .bus :: classes
  else []

/-- A module that is not loaded holds nothing. -/
def Tidy (s : State) : Prop := s.loaded = false → Custody.Settled s.log

instance (s : State) : Decidable (Tidy s) :=
  inferInstanceAs (Decidable (_ → _))

/-- The condition: no insmod fails at the anchor device, and what is unloaded
has neither an anchor device nor any that was probed. -/
def Spares (s : State) : Label → Prop
  | .insmod auto0 services => ¬ FailsAtRoot auto0 services
  | .rmmod => s.root = false ∧ s.devices = []
  | _ => True

/-- The log says what is held. -/
def Inv (s : State) : Prop :=
  Custody.run 0 s.log = some (s.holds : Multiset Resource)

variable {s t : State} {label : Label}

theorem Inv.insmod {auto0 : Nat} {services : Services} (inv : Inv s)
    (taken : step s (.insmod auto0 services) = some t) :
    (¬ FailsAtRoot auto0 services ∧ Inv t) ∨
      (FailsAtRoot auto0 services ∧ ¬ Tidy t) := by
  rw [step] at taken
  split at taken
  · cases taken
  · rename_i unloaded
    rw [Inv, State.holds, if_neg unloaded] at inv
    rcases genzBusInit_cases auto0 services inv with
      ⟨spared, root, after, done, runs⟩ | ⟨spared, errno, after, done, runs⟩ |
      ⟨fails, errno, after, done, runs⟩
    · rw [done] at taken
      cases taken
      refine .inl ⟨spared, ?_⟩
      rw [Inv, runs]
      simp [State.holds, init]
    · rw [done] at taken
      cases taken
      refine .inl ⟨spared, ?_⟩
      rw [Inv, runs, State.holds, if_neg unloaded]
    · rw [done] at taken
      cases taken
      refine .inr ⟨fails, fun tidy => ?_⟩
      have settled := tidy (by simpa using unloaded)
      rw [Custody.Settled, runs] at settled
      exact Multiset.cons_ne_zero (Option.some.inj settled)

theorem Inv.probe {kzalloc : Bool} (inv : Inv s)
    (taken : step s (.probe kzalloc) = some t) : Inv t := by
  rw [step] at taken
  split at taken
  · rename_i loaded
    cases taken
    rw [Inv, State.holds, if_pos loaded] at inv
    unfold genzInitOne
    split
    · have more : ((.genzDev s.devices.length ::
          (anchor s.root ++ s.devices.map .genzDev ++ .bus :: classes) :
            List Resource) : Multiset Resource) =
          ((anchor s.root ++ (s.devices ++ [s.devices.length]).map .genzDev ++
            .bus :: classes : List Resource) : Multiset Resource) := by
        rw [Multiset.coe_eq_coe, List.map_append, List.map_singleton,
          ← List.append_assoc (anchor _),
          List.append_assoc (_ ++ _) [_], List.singleton_append]
        exact List.perm_middle.symm
      rw [Inv, Custody.run_append, inv, State.holds, if_pos loaded, ← more]
      rfl
    · rw [Inv, State.holds, if_pos loaded]
      exact inv
  · cases taken

theorem Inv.rmmod (inv : Inv s) (taken : step s .rmmod = some t) :
    Custody.run 0 t.log =
        some ((anchor s.root ++ s.devices.map .genzDev : List Resource) :
          Multiset Resource) ∧
      t = { init with log := t.log } := by
  rw [step] at taken
  split at taken
  · rename_i loaded
    cases taken
    rw [Inv, State.holds, if_pos loaded] at inv
    refine ⟨run_genzBusExit ?_, rfl⟩
    rw [inv, Multiset.coe_add, Multiset.cons_coe, Option.some.injEq,
      Multiset.coe_eq_coe]
    exact List.perm_append_comm
  · cases taken

/-- What is left over is nothing if the condition is met. -/
theorem rest_eq_zero_iff :
    ((anchor s.root ++ s.devices.map .genzDev : List Resource) :
        Multiset Resource) = 0 ↔ s.root = false ∧ s.devices = [] := by
  rw [Multiset.coe_eq_zero, List.append_eq_nil_iff, List.map_eq_nil_iff]
  have plain : anchor s.root = [] ↔ s.root = false := by
    cases s.root <;> simp [anchor]
  rw [plain]

/-- A step that meets the condition. -/
theorem Inv.step (inv : Inv s) (spares : Spares s label)
    (taken : GenzBus.step s label = some t) : Inv t := by
  cases label with
  | insmod auto0 services =>
      rcases inv.insmod taken with ⟨-, after⟩ | ⟨fails, -⟩
      · exact after
      · exact absurd fails spares
  | probe kzalloc => exact inv.probe taken
  | register genzDev =>
      rw [GenzBus.step] at taken
      split at taken
      · cases taken
        exact inv
      · cases taken
  | unregister genzDev =>
      rw [GenzBus.step] at taken
      split at taken
      · cases taken
        exact inv
      · cases taken
  | rmmod =>
      obtain ⟨runs, after⟩ := inv.rmmod taken
      rw [Inv, runs, rest_eq_zero_iff.mpr spares, after]
      rfl

/-- Any other step leaves something behind. -/
theorem Inv.step_broken (inv : Inv s) (leaves : ¬ Spares s label)
    (taken : GenzBus.step s label = some t) : ¬ Tidy t := by
  cases label with
  | insmod auto0 services =>
      rcases inv.insmod taken with ⟨spares, -⟩ | ⟨-, untidy⟩
      · exact absurd spares leaves
      · exact untidy
  | probe kzalloc => exact absurd trivial leaves
  | register genzDev => exact absurd trivial leaves
  | unregister genzDev => exact absurd trivial leaves
  | rmmod =>
      intro tidy
      obtain ⟨runs, after⟩ := inv.rmmod taken
      have settled := tidy (by rw [after]; rfl)
      rw [Custody.Settled, runs] at settled
      exact leaves (rest_eq_zero_iff.mp (Option.some.inj settled))

theorem Inv.tidy (inv : Inv s) : Tidy s := by
  intro unloaded
  rw [Custody.Settled, inv, State.holds, unloaded]
  rfl

/-- Over every run of insmod, probes, registrations and rmmod, whatever fails:
nothing is held of the module whenever it is not loaded, exactly if no insmod
fails at the addition of an anchor device that has its name, and what is
unloaded was loaded without one and has had no device probed. -/
theorem genz_unloads_clean_iff (trace : List Label) :
    Transition.Always step Tidy init trace ↔
      Transition.Meets step Spares init trace :=
  Transition.always_iff_meets
    (fun _ _ _ inv spares taken => Inv.step inv spares taken)
    (fun _ inv => inv.tidy)
    (fun _ _ _ inv leaves taken => Inv.step_broken inv leaves taken)
    (rfl : Inv init)

end FameZ.Kernel.GenzBus
