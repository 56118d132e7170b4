/-
Module: FameZ.Kernel.GenzDevice
Purpose: The registration of bridge devices: what a failing one leaves behind,
  and which minors a sequence of them is given.
Trusted boundary: the translation of genz_register_bridge; the services of the
  kernel, whose outcomes are parameters
Main exports: Registry, Services, Call, findFirstZeroBit, genzRegisterBridge,
  Traceless, Refused, traceless_iff_refused, Allocates, allocates_iff_few
-/
import FameZ.Lib.Transition
import Mathlib.Algebra.Group.Nat.Defs
import Mathlib.Data.Finset.Card
import Mathlib.Data.Finset.Range

namespace FameZ.Kernel.GenzDevice

inductive Errno where
  | edom
  | enomem
  | kernel (code : Nat)
deriving Repr, DecidableEq

def genzMinorbits : Nat := 14

def maxminors : Nat := 2 ^ genzMinorbits

def genzCceDiscreteBridge : Nat := 0x14

def genzCceIntegratedBridge : Nat := 0x15

/-- Major and minor. -/
abbrev Dev := Nat × Nat

/-- A live `struct cdev` and what its wrapper says: the file operations, and
what an open is given as private data. -/
structure Cdev where
  dev : Dev
  ops : Nat
  wrapper : Nat
  filePrivateData : Nat
deriving Repr, DecidableEq

/-- `freed` are the wrappers that were freed; `fresh` is the address of the next
one. -/
structure Registry where
  bridgeMinorBitmap : Finset Nat
  bridgeMajor : Nat
  regions : List Dev
  cdevs : List Cdev
  devices : List (Dev × String)
  freed : List Nat
  fresh : Nat

/-- When the module is loaded. -/
def loaded : Registry where
  bridgeMinorBitmap := ∅
  bridgeMajor := 0
  regions := []
  cdevs := []
  devices := []
  freed := []
  fresh := 0

/-- The outcomes of the services of one call.  A major that is handed out is not
zero. -/
structure Services where
  allocChrdevRegion : Except Errno { major : Nat // 0 < major }
  registerChrdevRegion : Except Errno Unit
  kzalloc : Bool
  kobjectSetName : Except Errno Unit
  cdevAdd : Except Errno Unit
  deviceCreateWithGroups : Except Errno Unit

/-- The arguments of genz_register_bridge. -/
structure Call where
  devname : String
  cce : Nat
  fops : Nat
  filePrivateData : Nat
  services : Services

/-- The scan of `more` bits from `i` on. -/
def scan (bitmap : Finset Nat) : Nat → Nat → Nat
  | 0, i => i
  | more + 1, i => if i ∈ bitmap then scan bitmap more (i + 1) else i

/-- `find_first_zero_bit`; `size` if there is none. -/
def findFirstZeroBit (bitmap : Finset Nat) (size : Nat) : Nat :=
  scan bitmap size 0

/-- The character device region of a minor, and the major if it is the first. -/
def chrdevRegion (services : Services) (minor : Nat) (s : Registry) :
    Except Errno Registry :=
  if s.bridgeMajor ≠ 0 then
    match services.registerChrdevRegion with
    | .error errno => .error errno
    | .ok () => .ok { s with regions := s.regions ++ [(s.bridgeMajor, minor)] }
  else
    match services.allocChrdevRegion with
    | .error errno => .error errno
    | .ok major =>
        .ok { s with
          bridgeMajor := major.val
          regions := s.regions ++ [(major.val, minor)] }

/-- `kfree(wrapper)` under `up_and_out`. -/
def Registry.free (s : Registry) (wrapper : Nat) : Registry :=
  { s with freed := s.freed ++ [wrapper] }

/-- `genz_register_bridge` from the wrapper on. -/
def addWrapper (call : Call) (minor : Nat) (s : Registry) :
    Except Errno Unit × Registry :=
  let wrapper := s.fresh
  let dev : Dev := (s.bridgeMajor, minor)
  let s := { s with fresh := s.fresh + 1 }
  match call.services.kobjectSetName with
  | .error errno => (.error errno, s.free wrapper)
  | .ok () =>
      match call.services.cdevAdd with
      | .error errno => (.error errno, s.free wrapper)
      | .ok () =>
          let cdev : Cdev :=
            { dev := dev
              ops := call.fops
              wrapper := wrapper
              filePrivateData := call.filePrivateData }
          let s := { s with cdevs := s.cdevs ++ [cdev] }
          match call.services.deviceCreateWithGroups with
          | .error errno => (.error errno, s.free wrapper)
          | .ok () =>
              (.ok (), { s with devices := s.devices ++ [(dev, call.devname)] })

/-- `CCE` is that of a bridge. -/
def Call.InClass (call : Call) : Prop :=
  genzCceDiscreteBridge ≤ call.cce ∧ call.cce ≤ genzCceIntegratedBridge

instance (call : Call) : Decidable call.InClass :=
  inferInstanceAs (Decidable (_ ∧ _))

def genzRegisterBridge (call : Call) (s : Registry) :
    Except Errno Unit × Registry :=
  if ¬ call.InClass then (.error .edom, s)
  else
    let minor := findFirstZeroBit s.bridgeMinorBitmap genzMinorbits
    if genzMinorbits ≤ minor then (.error .edom, s)
    else
      match chrdevRegion call.services minor s with
      | .error errno => (.error errno, s)
      | .ok s =>
          let s :=
            { s with bridgeMinorBitmap := insert minor s.bridgeMinorBitmap }
          if call.services.kzalloc = false then (.error .enomem, s)
          else addWrapper call minor s

/-! ### The bitmap -/

variable {bitmap : Finset Nat} {size : Nat}

/-- A scan stops at the first clear bit, or behind its last one. -/
theorem scan_spec (bitmap : Finset Nat) (more i : Nat) :
    i ≤ scan bitmap more i ∧ scan bitmap more i ≤ i + more ∧
      (∀ j, i ≤ j → j < scan bitmap more i → j ∈ bitmap) ∧
      (scan bitmap more i < i + more → scan bitmap more i ∉ bitmap) := by
  induction more generalizing i with
  | zero =>
      refine ⟨Nat.le_refl _, Nat.le_refl _, ?_, ?_⟩
      · intro j low high
        exact absurd high (Nat.not_lt.mpr low)
      · intro wrong
        exact absurd wrong (Nat.lt_irrefl _)
  | succ more inductionHypothesis =>
      rcases inductionHypothesis (i + 1) with ⟨low, high, set, clear⟩
      by_cases member : i ∈ bitmap
      · rw [scan, if_pos member]
        refine ⟨by omega, by omega, ?_, ?_⟩
        · intro j first last
          rcases Nat.eq_or_lt_of_le first with rfl | later
          · exact member
          · exact set j later last
        · intro short
          exact clear (by omega)
      · rw [scan, if_neg member]
        refine ⟨Nat.le_refl _, by omega, ?_, fun _ => member⟩
        intro j first last
        exact absurd last (Nat.not_lt.mpr first)

theorem findFirstZeroBit_not_mem
    (inside : findFirstZeroBit bitmap size < size) :
    findFirstZeroBit bitmap size ∉ bitmap :=
  (scan_spec bitmap size 0).2.2.2 (by rwa [Nat.zero_add])

/-- The search fails when the bits it looks at are all set. -/
theorem le_findFirstZeroBit_iff :
    size ≤ findFirstZeroBit bitmap size ↔ ∀ i < size, i ∈ bitmap := by
  rcases scan_spec bitmap size 0 with ⟨-, -, set, clear⟩
  constructor
  · intro beyond i inside
    exact set i (Nat.zero_le i) (Nat.lt_of_lt_of_le inside beyond)
  · intro all
    by_contra inside
    have found := Nat.not_le.mp inside
    exact findFirstZeroBit_not_mem found (all _ found)

/-- Minors are handed out in order. -/
theorem findFirstZeroBit_range {n : Nat} (few : n < size) :
    findFirstZeroBit (Finset.range n) size = n := by
  rcases scan_spec (Finset.range n) size 0 with ⟨-, -, set, clear⟩
  apply Nat.le_antisymm
  · by_contra beyond
    have member := set n (Nat.zero_le n) (Nat.not_le.mp beyond)
    exact Finset.notMem_range_self member
  · by_contra short
    have low := Nat.not_le.mp short
    apply clear
    · rw [Nat.zero_add]
      exact Nat.lt_trans low few
    · exact Finset.mem_range.mpr low

/-! ### A failing registration -/

/-- Nothing is left of a registration that fails. -/
def Traceless (call : Call) (s : Registry) : Prop :=
  ∀ errno, (genzRegisterBridge call s).1 = .error errno →
    (genzRegisterBridge call s).2.bridgeMinorBitmap = s.bridgeMinorBitmap ∧
      (genzRegisterBridge call s).2.regions = s.regions ∧
      (genzRegisterBridge call s).2.cdevs = s.cdevs ∧
      ∀ wrapper ∈ (genzRegisterBridge call s).2.freed, wrapper ∉ s.freed →
        ∀ cdev ∈ (genzRegisterBridge call s).2.cdevs, cdev.wrapper ≠ wrapper

/-- The service that gives the region of the next minor. -/
def regionGranted (services : Services) (s : Registry) : Bool :=
  if s.bridgeMajor ≠ 0 then services.registerChrdevRegion.isOk
  else services.allocChrdevRegion.isOk

/-- The call is refused before the bit of its minor is set. -/
def Refused (call : Call) (s : Registry) : Prop :=
  ¬ call.InClass ∨ (∀ i < genzMinorbits, i ∈ s.bridgeMinorBitmap) ∨
    regionGranted call.services s = false

/-- The cdev of the call goes live. -/
def GoesLive (services : Services) : Prop :=
  services.kzalloc = true ∧ services.kobjectSetName = .ok () ∧
    services.cdevAdd = .ok ()

/-- Everything behind the bit succeeds. -/
def Completes (services : Services) : Prop :=
  GoesLive services ∧ services.deviceCreateWithGroups = .ok ()

/-- The registry once a minor is booked. -/
def Registry.booked (s : Registry) (major minor : Nat) : Registry :=
  { s with
    bridgeMajor := major
    regions := s.regions ++ [(major, minor)]
    bridgeMinorBitmap := insert minor s.bridgeMinorBitmap }

/-- The cdev of a call. -/
def newCdev (call : Call) (s : Registry) (major minor : Nat) : Cdev where
  dev := (major, minor)
  ops := call.fops
  wrapper := s.fresh
  filePrivateData := call.filePrivateData

/-- The next minor, under the major that is or becomes the only one. -/
structure Books (call : Call) (s : Registry) (major minor : Nat) : Prop where
  inClass : call.InClass
  granted : regionGranted call.services s = true
  next : findFirstZeroBit s.bridgeMinorBitmap genzMinorbits = minor
  inside : minor < genzMinorbits
  positive : 0 < major
  same : s.bridgeMajor ≠ 0 → major = s.bridgeMajor

/-- Everything a registration can come to. -/
inductive Registration (call : Call) (s : Registry) :
    Except Errno Unit × Registry → Prop where
  | refused (errno : Errno) (early : Refused call s) :
      Registration call s (.error errno, s)
  | leaked (errno : Errno) {major minor : Nat} {t : Registry}
      (books : Books call s major minor)
      (dead : ¬ GoesLive call.services)
      (bit : t.bridgeMinorBitmap = insert minor s.bridgeMinorBitmap)
      (cdevs : t.cdevs = s.cdevs) :
      Registration call s (.error errno, t)
  | dangling (errno : Errno) {major minor : Nat} {t : Registry}
      (books : Books call s major minor)
      (live : GoesLive call.services)
      (fails : call.services.deviceCreateWithGroups ≠ .ok ())
      (bit : t.bridgeMinorBitmap = insert minor s.bridgeMinorBitmap)
      (cdevs : t.cdevs = s.cdevs ++ [newCdev call s major minor]) :
      Registration call s (.error errno, t)
  | registered {major minor : Nat}
      (books : Books call s major minor)
      (completes : Completes call.services) :
      Registration call s
        (.ok (),
          { s.booked major minor with
            fresh := s.fresh + 1
            cdevs := s.cdevs ++ [newCdev call s major minor]
            devices := s.devices ++ [((major, minor), call.devname)] })

section

variable {call : Call} {s : Registry}

/-- What follows once a minor is booked. -/
theorem registration_of_books {major minor : Nat}
    (books : Books call s major minor) :
    Registration call s
      (if call.services.kzalloc = false then
        (.error .enomem, s.booked major minor)
      else addWrapper call minor (s.booked major minor)) := by
  by_cases starved : call.services.kzalloc = false
  · rw [if_pos starved]
    refine .leaked _ books ?_ rfl rfl
    rintro ⟨allocated, -, -⟩
    rw [starved] at allocated
    cases allocated
  have allocated := Bool.eq_true_of_not_eq_false starved
  rw [if_neg starved]
  unfold addWrapper
  cases named : call.services.kobjectSetName with
  | error errno =>
      refine .leaked _ books ?_ rfl rfl
      rintro ⟨-, wrong, -⟩
      rw [named] at wrong
      cases wrong
  | ok _ =>
      cases added : call.services.cdevAdd with
      | error errno =>
          refine .leaked _ books ?_ rfl rfl
          rintro ⟨-, -, wrong⟩
          rw [added] at wrong
          cases wrong
      | ok _ =>
          have live : GoesLive call.services := ⟨allocated, named, added⟩
          cases created : call.services.deviceCreateWithGroups with
          | error errno =>
              refine .dangling _ books live ?_ rfl rfl
              rw [created]
              exact nofun
          | ok _ => exact .registered books ⟨live, created⟩

theorem genzRegisterBridge_registration (call : Call) (s : Registry) :
    Registration call s (genzRegisterBridge call s) := by
  unfold genzRegisterBridge
  by_cases inClass : call.InClass
  case neg =>
    rw [if_pos inClass]
    exact .refused _ (.inl inClass)
  rw [if_neg (not_not.mpr inClass)]
  by_cases exhausted : genzMinorbits ≤
      findFirstZeroBit s.bridgeMinorBitmap genzMinorbits
  · dsimp only
    rw [if_pos exhausted]
    exact .refused _ (.inr (.inl (le_findFirstZeroBit_iff.mp exhausted)))
  have inside := Nat.not_le.mp exhausted
  dsimp only
  rw [if_neg exhausted, chrdevRegion]
  by_cases assigned : s.bridgeMajor ≠ 0
  · rw [if_pos assigned]
    cases region : call.services.registerChrdevRegion with
    | error errno =>
        refine .refused _ (.inr (.inr ?_))
        rw [regionGranted, if_pos assigned, region]
        rfl
    | ok _ =>
        have granted : regionGranted call.services s = true := by
          rw [regionGranted, if_pos assigned, region]
          rfl
        exact registration_of_books ⟨inClass, granted, rfl, inside,
          Nat.pos_of_ne_zero assigned, fun _ => rfl⟩
  · rw [if_neg assigned]
    cases region : call.services.allocChrdevRegion with
    | error errno =>
        refine .refused _ (.inr (.inr ?_))
        rw [regionGranted, if_neg assigned, region]
        rfl
    | ok major =>
        have granted : regionGranted call.services s = true := by
          rw [regionGranted, if_neg assigned, region]
          rfl
        exact registration_of_books ⟨inClass, granted, rfl, inside,
          major.property, fun wrong => absurd wrong assigned⟩

theorem Books.not_refused {major minor : Nat}
    (books : Books call s major minor) : ¬ Refused call s := by
  rintro (outside | exhausted | denied)
  · exact outside books.inClass
  · have beyond := le_findFirstZeroBit_iff.mpr exhausted
    rw [books.next] at beyond
    exact absurd books.inside (Nat.not_lt.mpr beyond)
  · rw [books.granted] at denied
    cases denied

theorem Books.fresh {major minor : Nat} (books : Books call s major minor) :
    minor ∉ s.bridgeMinorBitmap := by
  have inside := books.inside
  rw [← books.next] at inside ⊢
  exact findFirstZeroBit_not_mem inside

theorem Books.insert_ne {major minor : Nat}
    (books : Books call s major minor) :
    insert minor s.bridgeMinorBitmap ≠ s.bridgeMinorBitmap := by
  intro same
  apply books.fresh
  rw [← same]
  exact Finset.mem_insert_self ..

/-- A failing registration leaves nothing behind exactly if it is refused before
the bit of its minor is set. -/
theorem traceless_iff_refused (call : Call) (s : Registry) :
    Traceless call s ↔ Refused call s ∨ Completes call.services := by
  have registration := genzRegisterBridge_registration call s
  unfold Traceless
  generalize genzRegisterBridge call s = result at registration
  cases registration with
  | refused errno early =>
      refine ⟨fun _ => .inl early, fun _ _ _ => ⟨rfl, rfl, rfl, ?_⟩⟩
      intro wrapper member absent
      exact absurd member absent
  | leaked errno books dead bit cdevs =>
      constructor
      · intro traceless
        have same := (traceless errno rfl).1
        rw [bit] at same
        exact absurd same books.insert_ne
      · rintro (early | ⟨live, -⟩)
        · exact absurd early books.not_refused
        · exact absurd live dead
  | dangling errno books live fails bit cdevs =>
      constructor
      · intro traceless
        have same := (traceless errno rfl).1
        rw [bit] at same
        exact absurd same books.insert_ne
      · rintro (early | ⟨-, created⟩)
        · exact absurd early books.not_refused
        · exact absurd created fails
  | registered books completes =>
      refine ⟨fun _ => .inr completes, fun _ errno wrong => ?_⟩
      cases wrong

/-- A call with another class changes nothing. -/
theorem genzRegisterBridge_of_not_inClass (outside : ¬ call.InClass) :
    genzRegisterBridge call s = (.error .edom, s) := if_pos outside

theorem genzRegisterBridge_of_exhausted (inClass : call.InClass)
    (exhausted : ∀ i < genzMinorbits, i ∈ s.bridgeMinorBitmap) :
    genzRegisterBridge call s = (.error .edom, s) := by
  rw [genzRegisterBridge, if_neg (not_not.mpr inClass)]
  exact if_pos (le_findFirstZeroBit_iff.mpr exhausted)

end

/-- The last step of the first registration fails. -/
def lastStepFails : Call where
  devname := "fz_bridge_05"
  cce := genzCceDiscreteBridge
  fops := 1
  filePrivateData := 7
  services :=
    { allocChrdevRegion := .ok ⟨240, by decide⟩
      registerChrdevRegion := .ok ()
      kzalloc := true
      kobjectSetName := .ok ()
      cdevAdd := .ok ()
      deviceCreateWithGroups := .error .enomem }

/-- A live cdev stays behind in memory that was freed, and the bit and the region
with it. -/
theorem live_cdev_in_freed_wrapper :
    (genzRegisterBridge lastStepFails loaded).1 = .error .enomem ∧
      (genzRegisterBridge lastStepFails loaded).2.cdevs.map Cdev.wrapper =
        (genzRegisterBridge lastStepFails loaded).2.freed ∧
      (genzRegisterBridge lastStepFails loaded).2.regions = [(240, 0)] ∧
      0 ∈ (genzRegisterBridge lastStepFails loaded).2.bridgeMinorBitmap ∧
      ¬ Traceless lastStepFails loaded := by
  refine ⟨by decide, by decide, by decide, by decide, fun traceless => ?_⟩
  have same := (traceless .enomem (by decide)).2.1
  exact absurd same (by decide)

/-! ### Sequences of registrations -/

/-- A call for which all services succeed; `major` is the one that is handed out
if it is the first. -/
structure Request where
  devname : String
  cce : Nat
  fops : Nat
  filePrivateData : Nat
  major : { major : Nat // 0 < major }

def Request.call (request : Request) : Call where
  devname := request.devname
  cce := request.cce
  fops := request.fops
  filePrivateData := request.filePrivateData
  services :=
    { allocChrdevRegion := .ok request.major
      registerChrdevRegion := .ok ()
      kzalloc := true
      kobjectSetName := .ok ()
      cdevAdd := .ok ()
      deviceCreateWithGroups := .ok () }

def step : Transition.Step Registry Request := fun s request =>
  some (genzRegisterBridge request.call s).2

/-- A call that succeeds gets a minor that no earlier one has, under the same
major, and one is refused as exhausted only when all minors are in use. -/
structure Allocates (s : Registry) (request : Request) (t : Registry) :
    Prop where
  injective : (genzRegisterBridge request.call s).1 = .ok () →
    ∃ cdev, t.cdevs = s.cdevs ++ [cdev] ∧ cdev.dev.1 = t.bridgeMajor ∧
      cdev.dev.2 < maxminors ∧
      ∀ earlier ∈ s.cdevs, earlier.dev.1 = t.bridgeMajor ∧
        earlier.dev.2 ≠ cdev.dev.2
  complete : request.call.InClass →
    (genzRegisterBridge request.call s).1 = .error .edom →
      ∀ minor < maxminors, minor ∈ s.bridgeMinorBitmap

/-- The first `n` minors are in use, by the cdevs. -/
structure InUse (n : Nat) (s : Registry) : Prop where
  bitmap : s.bridgeMinorBitmap = Finset.range n
  cdevs : ∀ cdev ∈ s.cdevs, cdev.dev.1 = s.bridgeMajor ∧ cdev.dev.2 < n
  major : s.cdevs ≠ [] → s.bridgeMajor ≠ 0

theorem inUse_loaded : InUse 0 loaded := by
  refine ⟨rfl, nofun, fun some? => ?_⟩
  exact absurd rfl some?

section

variable {n : Nat} {s : Registry} {request : Request}

/-- As long as there is one of the minors that are looked at, it is given. -/
theorem InUse.registers (inUse : InUse n s) (few : n < genzMinorbits)
    (inClass : request.call.InClass) :
    ∃ major, 0 < major ∧ (s.cdevs ≠ [] → major = s.bridgeMajor) ∧
      genzRegisterBridge request.call s =
        (.ok (),
          { s.booked major n with
            fresh := s.fresh + 1
            cdevs := s.cdevs ++ [newCdev request.call s major n]
            devices := s.devices ++ [((major, n), request.devname)] }) := by
  have registration := genzRegisterBridge_registration request.call s
  generalize genzRegisterBridge request.call s = result at registration
  cases registration with
  | refused errno early =>
      rcases early with outside | exhausted | denied
      · exact absurd inClass outside
      · have set := exhausted n few
        rw [inUse.bitmap] at set
        exact absurd set Finset.notMem_range_self
      · have granted : regionGranted request.call.services s = true := by
          unfold regionGranted
          split <;> rfl
        rw [granted] at denied
        cases denied
  | leaked errno books dead bit cdevs => exact absurd ⟨rfl, rfl, rfl⟩ dead
  | dangling errno books live fails bit cdevs => exact absurd rfl fails
  | @registered major minor books completes =>
      have next := books.next
      rw [inUse.bitmap, findFirstZeroBit_range few] at next
      cases next
      exact ⟨major, books.positive,
        fun some? => books.same (inUse.major some?), rfl⟩

theorem InUse.allocates (inUse : InUse n s) (few : n < genzMinorbits)
    (inClass : request.call.InClass) :
    Allocates s request (genzRegisterBridge request.call s).2 ∧
      InUse (n + 1) (genzRegisterBridge request.call s).2 := by
  rcases inUse.registers few inClass with ⟨major, positive, same, registers⟩
  have majors : ∀ earlier ∈ s.cdevs, earlier.dev.1 = major := by
    intro earlier member
    rw [(inUse.cdevs earlier member).1, same (List.ne_nil_of_mem member)]
  constructor
  · constructor
    · intro _
      rw [registers]
      refine ⟨newCdev request.call s major n, rfl, rfl, ?_, ?_⟩
      · exact Nat.lt_trans few (by decide)
      · intro earlier member
        have low := (inUse.cdevs earlier member).2
        exact ⟨majors earlier member, Nat.ne_of_lt low⟩
    · intro _ refused
      rw [registers] at refused
      cases refused
  · rw [registers]
    constructor
    · change insert n s.bridgeMinorBitmap = _
      rw [inUse.bitmap, Finset.range_add_one]
    · intro cdev member
      rcases List.mem_append.mp member with earlier | new
      · have low := (inUse.cdevs cdev earlier).2
        exact ⟨majors cdev earlier, Nat.lt_succ_of_lt low⟩
      · rw [List.mem_singleton.mp new]
        exact ⟨rfl, Nat.lt_succ_self n⟩
    · intro _
      exact Nat.ne_of_gt positive

/-- The first call behind the fourteenth minor is refused, with minors left. -/
theorem InUse.not_allocates (inUse : InUse genzMinorbits s)
    (inClass : request.call.InClass) (t : Registry) :
    ¬ Allocates s request t := by
  intro allocates
  have exhausted : ∀ i < genzMinorbits, i ∈ s.bridgeMinorBitmap := by
    intro i inside
    rw [inUse.bitmap]
    exact Finset.mem_range.mpr inside
  have refused : (genzRegisterBridge request.call s).1 = .error .edom := by
    rw [genzRegisterBridge_of_exhausted inClass exhausted]
  have set := allocates.complete inClass refused genzMinorbits (by decide)
  rw [inUse.bitmap] at set
  exact Finset.notMem_range_self set

/-- The calls that get past the check of the class. -/
def bridges (requests : List Request) : Nat :=
  requests.countP fun request => decide request.call.InClass

theorem allocates_iff (inUse : InUse n s) (low : n ≤ genzMinorbits)
    (requests : List Request) :
    Transition.Along step Allocates s requests ↔
      n + bridges requests ≤ genzMinorbits := by
  induction requests generalizing n s with
  | nil => exact ⟨fun _ => low, fun _ => trivial⟩
  | cons request rest inductionHypothesis =>
      rw [Transition.along_cons_of_some rfl]
      by_cases inClass : request.call.InClass
      · have more : bridges (request :: rest) = bridges rest + 1 := by
          rw [bridges, List.countP_cons_of_pos (by simpa using inClass),
            bridges]
        rw [more]
        rcases Nat.eq_or_lt_of_le low with rfl | few
        · constructor
          · rintro ⟨allocates, -⟩
            exact absurd allocates (inUse.not_allocates inClass _)
          · intro fits
            omega
        · rcases inUse.allocates few inClass with ⟨allocates, next⟩
          have others := inductionHypothesis next few
          rw [Nat.add_right_comm, Nat.add_assoc] at others
          exact ⟨fun both => others.mp both.2,
            fun fits => ⟨allocates, others.mpr fits⟩⟩
      · have same : bridges (request :: rest) = bridges rest := by
          rw [bridges, List.countP_cons_of_neg (by simpa using inClass),
            bridges]
        have unchanged := genzRegisterBridge_of_not_inClass (s := s) inClass
        rw [same, unchanged]
        have allocates : Allocates s request s := by
          refine ⟨fun succeeds => ?_, fun wrong => absurd wrong inClass⟩
          rw [unchanged] at succeeds
          cases succeeds
        have others := inductionHypothesis inUse low
        exact ⟨fun both => others.mp both.2,
          fun fits => ⟨allocates, others.mpr fits⟩⟩

end

/-- Minors are handed out injectively, and as long as there are any, exactly in
the sequences of at most fourteen bridges. -/
theorem allocates_iff_few (requests : List Request) :
    Transition.Along step Allocates loaded requests ↔
      bridges requests ≤ genzMinorbits := by
  have along := allocates_iff inUse_loaded (Nat.zero_le _) requests
  rwa [Nat.zero_add] at along

/-- A bridge on the `i`-th device. -/
def bridgeOn (i : Nat) : Request where
  devname := "fz_bridge"
  cce := genzCceDiscreteBridge
  fops := 1
  filePrivateData := i
  major := ⟨240, by decide⟩

/-- The fifteenth bridge finds no minor. -/
theorem fifteenth_bridge_refused :
    ¬ Transition.Along step Allocates loaded
      ((List.range 15).map bridgeOn) := by
  intro allocates
  have few := (allocates_iff inUse_loaded (Nat.zero_le _) _).mp allocates
  exact absurd few (by decide)

end FameZ.Kernel.GenzDevice
