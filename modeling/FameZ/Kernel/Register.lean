/-
Module: FameZ.Kernel.Register
Purpose: The binding of an end driver to every adapter, and when a failing one
  leaves none of them bound.
Trusted boundary: the translation of famez_register and of fzbridge_init
Main exports: Adapter, EndDriver, famezRegister, fzbridgeInit, AllOrNothing,
  Granted, allOrNothing_iff
-/
import FameZ.Kernel.GenzDevice

namespace FameZ.Kernel.Register

open GenzDevice

/-- An element of `famez_adapter_list`: its address, `devfn >> 3` of its device
as two digits, and the class of its core structure. -/
structure Adapter where
  address : Nat
  slot : String
  baseCClassStr : List Char
deriving Repr, DecidableEq

/-- What the caller of famez_register hands in.  The owner of the file
operations is a module. -/
structure EndDriver where
  baseCClassStr : List Char
  ownername : String
  fops : Nat

/-- `sizeof(adapter->core->Base_C_Class_str)`. -/
def baseCClassSize : Nat := 32

/-- The registration of one adapter. -/
def EndDriver.call (driver : EndDriver) (adapter : Adapter)
    (services : Services) : Call where
  devname := driver.ownername ++ "_" ++ adapter.slot
  cce := genzCceDiscreteBridge
  fops := driver.fops
  filePrivateData := adapter.address
  services := services

/-- `strncpy` into the class of the core structure. -/
def Adapter.named (adapter : Adapter) (driver : EndDriver) : Adapter :=
  { adapter with baseCClassStr := driver.baseCClassStr.take baseCClassSize }

/-- The loop over `famez_adapter_list`, each adapter with the outcomes of the
services of its registration. -/
def bind (driver : EndDriver) (nbindings : Nat) :
    List (Adapter × Services) → Registry →
      Except GenzDevice.Errno Nat × List Adapter × Registry
  | [], s => (.ok nbindings, [], s)
  | (adapter, services) :: rest, s =>
      match genzRegisterBridge (driver.call adapter services) s with
      | (.error errno, s) => (.error errno, adapter :: rest.map Prod.fst, s)
      | (.ok (), s) =>
          match bind driver (nbindings + 1) rest s with
          | (ret, adapters, s) => (ret, adapter.named driver :: adapters, s)

/-- `famez_register`; `lock` is the outcome of down_interruptible. -/
def famezRegister (driver : EndDriver) (lock : Except GenzDevice.Errno Unit)
    (adapters : List (Adapter × Services)) (s : Registry) :
    Except GenzDevice.Errno Nat × List Adapter × Registry :=
  match lock with
  | .error errno => (.error errno, adapters.map Prod.fst, s)
  | .ok () => bind driver 0 adapters s

/-- `fzbridge_init`: whether the module stays loaded. -/
def fzbridgeInit (ret : Except GenzDevice.Errno Nat) : Bool :=
  match ret with
  | .error _ => false
  | .ok nbindings => decide (nbindings ≠ 0)

/-- The adapters that an open with these file operations can reach. -/
def boundTo (fops : Nat) (s : Registry) : List Nat :=
  (s.cdevs.filter fun cdev => decide (cdev.ops = fops)).map
    Cdev.filePrivateData

/-- A failing registration leaves no adapter bound that was not bound before and
no class changed; one that succeeds binds the listed adapters, each once; and if
the module does not stay loaded, nothing new refers to it. -/
structure AllOrNothing (driver : EndDriver) (adapters : List (Adapter × Services))
    (s : Registry)
    (result : Except GenzDevice.Errno Nat × List Adapter × Registry) :
    Prop where
  nothing : ∀ errno, result.1 = .error errno →
    boundTo driver.fops result.2.2 = boundTo driver.fops s ∧
      result.2.1 = adapters.map Prod.fst
  all : ∀ n, result.1 = .ok n →
    n = adapters.length ∧
      boundTo driver.fops result.2.2 =
        boundTo driver.fops s ++ adapters.map (fun entry => entry.1.address)
  unloaded : fzbridgeInit result.1 = false →
    boundTo driver.fops result.2.2 = boundTo driver.fops s

/-- How many of the minors that are looked at are free. -/
def freeMinors (s : Registry) : Nat :=
  ((Finset.range genzMinorbits).filter fun i => i ∉ s.bridgeMinorBitmap).card

/-- The `k`-th registration gets a minor and its region. -/
def BooksAt (s : Registry) (k : Nat) (services : Services) : Prop :=
  k < freeMinors s ∧
    if s.bridgeMajor ≠ 0 ∨ 0 < k then services.registerChrdevRegion.isOk = true
    else services.allocChrdevRegion.isOk = true

/-- The cdev of the `k`-th registration goes live. -/
def LiveAt (s : Registry) (k : Nat) (services : Services) : Prop :=
  BooksAt s k services ∧ GoesLive services

/-- The `k`-th registration succeeds. -/
def Granted (s : Registry) (k : Nat) (services : Services) : Prop :=
  BooksAt s k services ∧ Completes services

/-- Every registration succeeds. -/
def AllGranted (s : Registry) (adapters : List (Adapter × Services)) : Prop :=
  ∀ k entry, adapters[k]? = some entry → Granted s k entry.2

/-- Not even the cdev of the first registration goes live. -/
def FirstDead (s : Registry) (adapters : List (Adapter × Services)) : Prop :=
  ∀ entry, adapters.head? = some entry → ¬ LiveAt s 0 entry.2

/-! ### One registration after another -/

section

variable {s t : Registry} {driver : EndDriver} {adapter : Adapter}
  {services : Services}

theorem exhausted_iff (s : Registry) :
    (∀ i < genzMinorbits, i ∈ s.bridgeMinorBitmap) ↔ freeMinors s = 0 := by
  rw [freeMinors, Finset.card_eq_zero, Finset.filter_eq_empty_iff]
  constructor
  · intro all i inside
    exact not_not.mpr (all i (Finset.mem_range.mp inside))
  · intro all i inside
    exact not_not.mp (all (Finset.mem_range.mpr inside))

/-- The next minor is the first one that is free. -/
theorem refused_iff (driver : EndDriver) (adapter : Adapter) (s : Registry)
    (services : Services) :
    Refused (driver.call adapter services) s ↔ ¬ BooksAt s 0 services := by
  have inClass : (driver.call adapter services).InClass := by
    constructor
    · exact Nat.le_refl _
    · change genzCceDiscreteBridge ≤ genzCceIntegratedBridge
      decide
  have region : regionGranted services s = true ↔
      if s.bridgeMajor ≠ 0 ∨ 0 < 0 then
        services.registerChrdevRegion.isOk = true
      else services.allocChrdevRegion.isOk = true := by
    by_cases assigned : s.bridgeMajor ≠ 0
    · rw [regionGranted, if_pos assigned, if_pos (.inl assigned)]
    · have none : ¬ (s.bridgeMajor ≠ 0 ∨ 0 < 0) := by
        rintro (wrong | wrong)
        · exact assigned wrong
        · exact Nat.lt_irrefl 0 wrong
      rw [regionGranted, if_neg assigned, if_neg none]
  rw [BooksAt, ← region, not_and_or, Nat.not_lt, Nat.le_zero,
    ← exhausted_iff, Bool.not_eq_true]
  constructor
  · rintro (outside | denied)
    · exact absurd inClass outside
    · exact denied
  · exact .inr

theorem freeMinors_insert {minor : Nat} (inside : minor < genzMinorbits)
    (fresh : minor ∉ s.bridgeMinorBitmap)
    (bit : t.bridgeMinorBitmap = insert minor s.bridgeMinorBitmap) :
    freeMinors t + 1 = freeMinors s := by
  have erased : ((Finset.range genzMinorbits).filter fun i =>
      i ∉ t.bridgeMinorBitmap) =
        ((Finset.range genzMinorbits).filter fun i =>
          i ∉ s.bridgeMinorBitmap).erase minor := by
    ext i
    rw [bit]
    simp only [Finset.mem_filter, Finset.mem_erase, Finset.mem_insert, not_or]
    tauto
  have member : minor ∈ (Finset.range genzMinorbits).filter fun i =>
      i ∉ s.bridgeMinorBitmap :=
    Finset.mem_filter.mpr ⟨Finset.mem_range.mpr inside, fresh⟩
  rw [freeMinors, freeMinors, erased]
  exact Finset.card_erase_add_one member

/-- Behind a registration that succeeded the next one is the first. -/
theorem booksAt_succ {call : Call} {major minor : Nat}
    (books : Books call s major minor)
    (bit : t.bridgeMinorBitmap = insert minor s.bridgeMinorBitmap)
    (assigned : t.bridgeMajor = major) (k : Nat) (services : Services) :
    BooksAt t k services ↔ BooksAt s (k + 1) services := by
  have fewer := freeMinors_insert books.inside books.fresh bit
  have set : t.bridgeMajor ≠ 0 ∨ 0 < k := by
    rw [assigned]
    exact .inl (Nat.ne_of_gt books.positive)
  rw [BooksAt, BooksAt, if_pos set, if_pos (.inr (Nat.succ_pos k)), ← fewer,
    Nat.add_lt_add_iff_right]

theorem boundTo_append (fops : Nat) {cdev : Cdev} (ops : cdev.ops = fops)
    (cdevs : t.cdevs = s.cdevs ++ [cdev]) :
    boundTo fops t = boundTo fops s ++ [cdev.filePrivateData] := by
  rw [boundTo, cdevs, List.filter_append,
    List.filter_cons_of_pos (by simpa using ops), List.filter_nil,
    List.map_append]
  rfl

theorem boundTo_congr (fops : Nat) (cdevs : t.cdevs = s.cdevs) :
    boundTo fops t = boundTo fops s := by
  rw [boundTo, boundTo, cdevs]

end

/-! ### The loop -/

/-- How a loop over the adapters ends: it binds them all, or `more` of them and
then fails. -/
inductive Bound (driver : EndDriver) (nbindings : Nat)
    (adapters : List (Adapter × Services)) (s : Registry) :
    Except GenzDevice.Errno Nat × List Adapter × Registry → Prop where
  | all {named : List Adapter} {t : Registry} (granted : AllGranted s adapters)
      (bound : boundTo driver.fops t =
        boundTo driver.fops s ++ adapters.map fun entry => entry.1.address) :
      Bound driver nbindings adapters s
        (.ok (nbindings + adapters.length), named, t)
  | none {errno : GenzDevice.Errno} {t : Registry}
      (denied : ¬ AllGranted s adapters) (dead : FirstDead s adapters)
      (bound : boundTo driver.fops t = boundTo driver.fops s) :
      Bound driver nbindings adapters s
        (.error errno, adapters.map Prod.fst, t)
  | some {errno : GenzDevice.Errno} {named : List Adapter} {t : Registry}
      {more : List Nat} (denied : ¬ AllGranted s adapters)
      (live : ¬ FirstDead s adapters) (notEmpty : more ≠ [])
      (bound : boundTo driver.fops t = boundTo driver.fops s ++ more) :
      Bound driver nbindings adapters s (.error errno, named, t)

theorem allGranted_cons {s : Registry} {entry : Adapter × Services}
    {rest : List (Adapter × Services)} :
    AllGranted s (entry :: rest) ↔ Granted s 0 entry.2 ∧
      ∀ k other, rest[k]? = some other → Granted s (k + 1) other.2 := by
  constructor
  · intro all
    exact ⟨all 0 entry rfl, fun k other found => all (k + 1) other found⟩
  · rintro ⟨first, others⟩ k other found
    cases k with
    | zero =>
        cases found
        exact first
    | succ k => exact others k other found

/-- The registrations behind one that succeeded. -/
theorem allGranted_cons_of_books {s t : Registry} {call : Call}
    {major minor : Nat} {entry : Adapter × Services}
    {rest : List (Adapter × Services)} (first : Granted s 0 entry.2)
    (books : Books call s major minor)
    (bit : t.bridgeMinorBitmap = insert minor s.bridgeMinorBitmap)
    (assigned : t.bridgeMajor = major) :
    AllGranted s (entry :: rest) ↔ AllGranted t rest := by
  rw [allGranted_cons]
  constructor
  · rintro ⟨-, others⟩ k other found
    obtain ⟨booked, completes⟩ := others k other found
    exact ⟨(booksAt_succ books bit assigned k other.2).mpr booked, completes⟩
  · intro others
    refine ⟨first, fun k other found => ?_⟩
    obtain ⟨booked, completes⟩ := others k other found
    exact ⟨(booksAt_succ books bit assigned k other.2).mp booked, completes⟩

theorem firstDead_cons {s : Registry} {entry : Adapter × Services}
    {rest : List (Adapter × Services)} :
    FirstDead s (entry :: rest) ↔ ¬ LiveAt s 0 entry.2 := by
  constructor
  · intro dead
    exact dead entry rfl
  · intro dead other found
    cases found
    exact dead

section

variable {driver : EndDriver} {adapters : List (Adapter × Services)}
  {s t : Registry}

theorem AllOrNothing.of_nothing {errno : GenzDevice.Errno}
    (bound : boundTo driver.fops t = boundTo driver.fops s) :
    AllOrNothing driver adapters s
      (.error errno, adapters.map Prod.fst, t) where
  nothing _ _ := ⟨bound, rfl⟩
  all _ wrong := by cases wrong
  unloaded _ := bound

/-- The module stays loaded unless nothing is listed. -/
theorem AllOrNothing.of_all {named : List Adapter}
    (bound : boundTo driver.fops t =
      boundTo driver.fops s ++ adapters.map fun entry => entry.1.address) :
    AllOrNothing driver adapters s (.ok (0 + adapters.length), named, t) where
  nothing _ wrong := by cases wrong
  all n count := by
    cases count
    exact ⟨Nat.zero_add _, bound⟩
  unloaded gone := by
    have empty : adapters.length = 0 := by
      simpa [fzbridgeInit] using gone
    rw [List.eq_nil_of_length_eq_zero empty] at bound
    exact bound.trans (List.append_nil _)

end

/-- The end of a loop whose first adapter was registered. -/
theorem Bound.cons {driver : EndDriver} {nbindings : Nat} {adapter : Adapter}
    {services : Services} {rest : List (Adapter × Services)} {s t : Registry}
    {result : Except GenzDevice.Errno Nat × List Adapter × Registry}
    (live : ¬ FirstDead s ((adapter, services) :: rest))
    (granted : AllGranted s ((adapter, services) :: rest) ↔
      AllGranted t rest)
    (bound : boundTo driver.fops t =
      boundTo driver.fops s ++ [adapter.address])
    (others : Bound driver (nbindings + 1) rest t result) :
    Bound driver nbindings ((adapter, services) :: rest) s
      (result.1, adapter.named driver :: result.2.1, result.2.2) := by
  cases others with
  | all grantedRest boundRest =>
      have count : nbindings + 1 + rest.length =
          nbindings + (rest.length + 1) := by
        omega
      rw [count]
      refine .all (granted.mpr grantedRest) ?_
      rw [boundRest, bound, List.append_assoc]
      rfl
  | none denied dead boundRest =>
      exact .some (mt granted.mp denied) live (List.cons_ne_nil _ _)
        (boundRest.trans bound)
  | some denied liveRest notEmpty boundRest =>
      rw [bound, List.append_assoc] at boundRest
      exact .some (mt granted.mp denied) live (List.cons_ne_nil _ _)
        boundRest

theorem bind_bound (driver : EndDriver) (nbindings : Nat)
    (adapters : List (Adapter × Services)) (s : Registry) :
    Bound driver nbindings adapters s (bind driver nbindings adapters s) := by
  induction adapters generalizing nbindings s with
  | nil =>
      refine .all ?_ (List.append_nil _).symm
      intro k entry found
      cases found
  | cons entry rest inductionHypothesis =>
      obtain ⟨adapter, services⟩ := entry
      have registration := genzRegisterBridge_registration
        (driver.call adapter services) s
      have refused := refused_iff driver adapter s services
      unfold bind
      generalize genzRegisterBridge (driver.call adapter services) s = result
        at registration
      cases registration with
      | refused errno early =>
          have denied := refused.mp early
          refine .none ?_ ?_ rfl
          · intro all
            exact denied (all 0 _ rfl).1
          · exact firstDead_cons.mpr fun live => denied live.1
      | leaked errno books dead bit cdevs =>
          refine .none ?_ ?_ (boundTo_congr _ cdevs)
          · intro all
            exact dead (all 0 _ rfl).2.1
          · exact firstDead_cons.mpr fun live => dead live.2
      | dangling errno books live fails bit cdevs =>
          have booked : BooksAt s 0 services :=
            not_not.mp (mt refused.mpr books.not_refused)
          refine .some ?_ ?_ (List.cons_ne_nil _ _)
            (boundTo_append driver.fops rfl cdevs)
          · intro all
            exact fails (all 0 _ rfl).2.2
          · intro dead
            exact firstDead_cons.mp dead ⟨booked, live⟩
      | @registered major minor books completes =>
          have booked : BooksAt s 0 services :=
            not_not.mp (mt refused.mpr books.not_refused)
          have live : ¬ FirstDead s ((adapter, services) :: rest) := by
            intro dead
            exact firstDead_cons.mp dead ⟨booked, completes.1⟩
          dsimp only
          generalize next : ({ s.booked major minor with
            fresh := s.fresh + 1
            cdevs := s.cdevs ++
              [newCdev (driver.call adapter services) s major minor]
            devices := s.devices ++ [((major, minor),
              (driver.call adapter services).devname)] } : Registry) = t
          have bit : t.bridgeMinorBitmap = insert minor s.bridgeMinorBitmap := by
            rw [← next]
            rfl
          have assigned : t.bridgeMajor = major := by
            rw [← next]
            rfl
          have granted : AllGranted s ((adapter, services) :: rest) ↔
              AllGranted t rest :=
            allGranted_cons_of_books ⟨booked, completes⟩ books bit assigned
          have cdevs : t.cdevs = s.cdevs ++
              [newCdev (driver.call adapter services) s major minor] := by
            rw [← next]
          have bound : boundTo driver.fops t =
              boundTo driver.fops s ++ [adapter.address] :=
            boundTo_append driver.fops rfl cdevs
          exact .cons live granted bound (inductionHypothesis (nbindings + 1) t)

/-- A registration is all or nothing exactly if it never comes to the loop, or
every adapter is bound, or the first one already fails without a live cdev. -/
theorem allOrNothing_iff (driver : EndDriver)
    (lock : Except GenzDevice.Errno Unit)
    (adapters : List (Adapter × Services)) (s : Registry) :
    AllOrNothing driver adapters s (famezRegister driver lock adapters s) ↔
      (∃ errno, lock = .error errno) ∨ AllGranted s adapters ∨
        FirstDead s adapters := by
  cases lock with
  | error errno =>
      constructor
      · intro
        exact .inl ⟨errno, rfl⟩
      · intro
        exact .of_nothing rfl
  | ok =>
      have run := bind_bound driver 0 adapters s
      unfold famezRegister
      dsimp only
      generalize bind driver 0 adapters s = result at run
      cases run with
      | all granted bound =>
          constructor
          · intro
            exact .inr (.inl granted)
          · intro
            exact .of_all bound
      | none denied dead bound =>
          constructor
          · intro
            exact .inr (.inr dead)
          · intro
            exact .of_nothing bound
      | some denied live notEmpty bound =>
          constructor
          · intro clean
            have same := (clean.nothing _ rfl).1
            rw [bound] at same
            exact absurd (List.append_right_eq_self.mp same) notEmpty
          · rintro (⟨errno, interrupted⟩ | granted | dead)
            · cases interrupted
            · exact absurd granted denied
            · exact absurd dead live

def bridgeDriver : EndDriver where
  baseCClassStr := "Bridge".toList
  ownername := "fz_bridge"
  fops := 1

theorem major_pos : 0 < 240 := by decide

/-- What the services of a registration answer if memory is available. -/
def answers (kzalloc : Bool) : Services where
  allocChrdevRegion := .ok ⟨240, major_pos⟩
  registerChrdevRegion := .ok ()
  kzalloc := kzalloc
  kobjectSetName := .ok ()
  cdevAdd := .ok ()
  deviceCreateWithGroups := .ok ()

/-- Two adapters; there is no memory left for the second. -/
def secondStarves : List (Adapter × Services) :=
  [({ address := 7, slot := "05", baseCClassStr := [] }, answers true),
    ({ address := 8, slot := "06", baseCClassStr := [] }, answers false)]

/-- The first adapter stays bound to a module that is not loaded, under its
class. -/
theorem unloaded_module_stays_bound :
    (famezRegister bridgeDriver (.ok ()) secondStarves loaded).1 =
        .error .enomem ∧
      fzbridgeInit
        (famezRegister bridgeDriver (.ok ()) secondStarves loaded).1 = false ∧
      boundTo 1 (famezRegister bridgeDriver (.ok ()) secondStarves loaded).2.2 =
        [7] ∧
      (famezRegister bridgeDriver (.ok ()) secondStarves loaded).2.1.map
        Adapter.baseCClassStr = ["Bridge".toList, []] ∧
      ¬ AllOrNothing bridgeDriver secondStarves loaded
        (famezRegister bridgeDriver (.ok ()) secondStarves loaded) := by
  refine ⟨by decide, by decide, by decide, by decide, fun clean => ?_⟩
  have same := (clean.nothing .enomem (by decide)).1
  exact absurd same (by decide)

end FameZ.Kernel.Register
