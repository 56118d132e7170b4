/-
Module: FameZ.Kernel.ExclusiveOpen
Purpose: The user count of one adapter under every order of opens, duplicated
  descriptors, closes and transfers in flight.
Trusted boundary: the translation of famez_bridge_open, famez_bridge_flush and
  famez_bridge_release; when the VFS calls them and counts references; no wrap
  of the 32-bit counter
Main exports: OpenFile, File, State, step, Accounted, Settled, Inv, Inv.step,
  Inv.accounted, Inv.settled
-/
import FameZ.Lib.Tally
import FameZ.Lib.Transition

namespace FameZ.Kernel.ExclusiveOpen

/-!
Every attempt to open is a file of its own, with a number; the buffers it
allocates go by that number.
-/

inductive Errno where
  | ebusy
  | enomem
deriving Repr, DecidableEq

/-- A file that was opened.  `fCount` counts its descriptors, the transfers in
flight, and the closes: those before their flush, those whose flush found
`f_count` 1, and those that go on to fput.  `lowered` is history: a flush
lowered `nr_users`. -/
structure OpenFile where
  fCount : Nat
  descriptors : Nat
  transfers : Nat
  closing : Nat
  alone : Nat
  flushed : Nat
  lowered : Bool
deriving Repr, DecidableEq

/-- The file that open returns. -/
def newFile : OpenFile where
  fCount := 1
  descriptors := 1
  transfers := 0
  closing := 0
  alone := 0
  flushed := 0
  lowered := false

/-- famez_bridge_release after it read `adapter->outgoing`. -/
inductive Release where
  | checking (buffers : Option Nat)
  | freeing (buffers : Option Nat)
  | clearing
  | bug
deriving Repr, DecidableEq

/-- `counted` is an open that raised the count to 1, `failing` one that has still
to lower it again. -/
inductive File where
  | unused
  | counted
  | failing (errno : Errno)
  | refused (errno : Errno)
  | opened (file : OpenFile)
  | releasing (stage : Release) (lowered : Bool)
  | released
deriving Repr, DecidableEq

structure State where
  nrUsers : Int
  outgoing : Option Nat
  file : Nat → File

def init : State where
  nrUsers := 0
  outgoing := none
  file := fun _ => .unused

def State.set (s : State) (f : Nat) (file : File) : State :=
  { s with file := Function.update s.file f file }

/-! ### References -/

namespace OpenFile

/-- dup, or a fork. -/
def dup (file : OpenFile) : Option OpenFile :=
  if 0 < file.descriptors then
    some { file with
      fCount := file.fCount + 1, descriptors := file.descriptors + 1 }
  else none

/-- A read or a write takes a reference. -/
def begin (file : OpenFile) : Option OpenFile :=
  if 0 < file.descriptors then
    some { file with
      fCount := file.fCount + 1, transfers := file.transfers + 1 }
  else none

/-- It gives the reference back. -/
def finish (file : OpenFile) : Option OpenFile :=
  if 0 < file.transfers then
    some { file with
      fCount := file.fCount - 1, transfers := file.transfers - 1 }
  else none

/-- close takes the descriptor away and keeps its reference. -/
def close (file : OpenFile) : Option OpenFile :=
  if 0 < file.descriptors then
    some { file with
      descriptors := file.descriptors - 1, closing := file.closing + 1 }
  else none

/-- `famez_bridge_flush` up to its test of `f_count`. -/
def flush (file : OpenFile) : Option OpenFile :=
  if 0 < file.closing then
    if file.fCount = 1 then
      some { file with closing := file.closing - 1, alone := file.alone + 1 }
    else
      some { file with
        closing := file.closing - 1, flushed := file.flushed + 1 }
  else none

/-- The rest of a flush that passed the test, but for `nr_users`. -/
def lower (file : OpenFile) : Option OpenFile :=
  if 0 < file.alone then
    some { file with
      alone := file.alone - 1, flushed := file.flushed + 1, lowered := true }
  else none

/-- The fput of a close. -/
def put (file : OpenFile) : Option OpenFile :=
  if 0 < file.flushed then
    some { file with
      fCount := file.fCount - 1, flushed := file.flushed - 1 }
  else none

end OpenFile

/-! ### The driver -/

inductive Label where
  | add (f : Nat)
  | allocate (f : Nat) (enough : Bool)
  | back (f : Nat)
  | dup (f : Nat)
  | begin (f : Nat)
  | finish (f : Nat)
  | close (f : Nat)
  | flush (f : Nat)
  | lower (f : Nat)
  | put (f : Nat)
  | release (f : Nat)
  | check (f : Nat)
  | free (f : Nat)
  | clear (f : Nat)
deriving Repr, DecidableEq

def State.modify (s : State) (f : Nat)
    (change : OpenFile → Option OpenFile) : Option State :=
  match s.file f with
  | .opened file => (change file).map fun file => s.set f (.opened file)
  | _ => none

/-- `add`, `allocate` and `back` are famez_bridge_open, `flush` and `lower` are
famez_bridge_flush, and the last four famez_bridge_release, which runs when the
last reference is gone. -/
def step : Transition.Step State Label := fun s label =>
  match label with
  | .add f =>
      match s.file f with
      | .unused =>
          some
            ({ s with nrUsers := s.nrUsers + 1 }.set f
              (if s.nrUsers + 1 = 1 then .counted else .failing .ebusy))
      | _ => none
  | .allocate f enough =>
      match s.file f with
      | .counted =>
          if enough then
            some ({ s with outgoing := some f }.set f (.opened newFile))
          else some (s.set f (.failing .enomem))
      | _ => none
  | .back f =>
      match s.file f with
      | .failing errno =>
          some ({ s with nrUsers := s.nrUsers - 1 }.set f (.refused errno))
      | _ => none
  | .dup f => s.modify f OpenFile.dup
  | .begin f => s.modify f OpenFile.begin
  | .finish f => s.modify f OpenFile.finish
  | .close f => s.modify f OpenFile.close
  | .flush f => s.modify f OpenFile.flush
  | .lower f =>
      (s.modify f OpenFile.lower).map fun s =>
        { s with nrUsers := s.nrUsers - 1 }
  | .put f => s.modify f OpenFile.put
  | .release f =>
      match s.file f with
      | .opened file =>
          if file.fCount = 0 then
            some (s.set f (.releasing (.checking s.outgoing) file.lowered))
          else none
      | _ => none
  | .check f =>
      match s.file f with
      | .releasing (.checking buffers) lowered =>
          if s.nrUsers = 0 then
            some (s.set f (.releasing (.freeing buffers) lowered))
          else some (s.set f (.releasing .bug lowered))
      | _ => none
  | .free f =>
      match s.file f with
      | .releasing (.freeing buffers) lowered =>
          match buffers with
          | none => some (s.set f (.releasing .bug lowered))
          | some _ => some (s.set f (.releasing .clearing lowered))
      | _ => none
  | .clear f =>
      match s.file f with
      | .releasing .clearing _ =>
          some ({ s with outgoing := none }.set f .released)
      | _ => none

/-! ### Accounts -/

/-- Successfully opened and not yet released. -/
def File.Unreleased : File → Prop
  | .opened _ => True
  | .releasing _ _ => True
  | _ => False

/-- Between the decrement of its last flush and the end of its release. -/
def File.Closing : File → Prop
  | .opened file => file.lowered = true
  | .releasing _ lowered => lowered = true
  | _ => False

/-- Between the increment of an open and its success or its decrement. -/
def File.Opening : File → Prop
  | .counted => True
  | .failing _ => True
  | _ => False

/-- What the driver relies on, of one step. -/
structure Accounted (s : State) (label : Label) (t : State) : Prop where
  noBug : ∀ f, label = .check f → s.nrUsers = 0
  frees : ∀ f buffers lowered, label = .free f →
    s.file f = .releasing (.freeing buffers) lowered → buffers = some f
  exclusive : ∀ f g, (t.file f).Unreleased → (t.file g).Unreleased → f = g
  nonneg : 0 ≤ t.nrUsers

/-- No open gets its buffers while another file is closing, and a release that
looks at the count follows a flush that lowered it and meets no open on its
way. -/
def Settled (s : State) : Label → Prop
  | .allocate _ true => ∀ g, ¬ (s.file g).Closing
  | .check f => (s.file f).Closing ∧ ∀ g, ¬ (s.file g).Opening
  | _ => True

/-- What a file adds to `nr_users`. -/
def File.weight : File → Nat
  | .counted => 1
  | .failing _ => 1
  | .opened file => if file.lowered then 0 else 1
  | .releasing _ lowered => if lowered then 0 else 1
  | _ => 0

/-- The count is that of the references, and a flush that finds itself alone is
the last. -/
structure OpenFile.Sound (file : OpenFile) : Prop where
  count : file.fCount = file.descriptors + file.transfers + file.closing +
    file.alone + file.flushed
  alone : 0 < file.alone → file.fCount = 1 ∧ file.lowered = false
  last : file.lowered = true → file.fCount = file.flushed ∧ file.fCount ≤ 1

/-- A release works with the buffers of its own file, and gets past its check
only after a flush lowered the count. -/
def File.Sound (f : Nat) : File → Prop
  | .opened file => file.Sound
  | .releasing (.checking buffers) _ => buffers = some f
  | .releasing (.freeing buffers) lowered =>
      buffers = some f ∧ lowered = true
  | .releasing .clearing lowered => lowered = true
  | _ => True

structure Inv (s : State) : Prop where
  counts : Tally.Counts File.weight s.file s.nrUsers
  sound : ∀ f, (s.file f).Sound f
  first : ∀ f, s.file f = .counted → ∀ g, g ≠ f →
    0 < (s.file g).weight → ∃ errno, s.file g = .failing errno
  exclusive : ∀ f g, (s.file f).Unreleased → (s.file g).Unreleased → f = g
  outgoing : ∀ f, (s.file f).Unreleased → s.outgoing = some f

/-! ### One file -/

namespace OpenFile

/-- The references change, and the count with them; the rest of the driver sees
the same file. -/
def Steady (change : OpenFile → Option OpenFile) : Prop :=
  ∀ file after, file.Sound → change file = some after →
    after.Sound ∧ after.lowered = file.lowered

theorem sound_newFile : newFile.Sound := ⟨rfl, nofun, nofun⟩

variable {file after : OpenFile}

/-- While there is a descriptor no flush finds itself alone, and none was. -/
theorem Sound.busy (sound : file.Sound)
    (more : file.alone + file.flushed < file.fCount) :
    file.alone = 0 ∧ file.lowered = false := by
  constructor
  · by_contra some?
    have single := (sound.alone (Nat.pos_of_ne_zero some?)).1
    omega
  · by_contra low
    have last := (sound.last (Bool.eq_true_of_not_eq_false low)).1
    omega

/-- A change that leaves a file busy. -/
theorem Sound.of_busy (alone : after.alone = 0) (lowered : after.lowered = false)
    (count : after.fCount = after.descriptors + after.transfers +
      after.closing + after.alone + after.flushed) : after.Sound := by
  refine ⟨count, ?_, ?_⟩
  · intro some?
    rw [alone] at some?
    cases some?
  · intro low
    rw [lowered] at low
    cases low

/-- What a guarded change leaves. -/
theorem of_guarded {change : OpenFile → Option OpenFile} {guard : Nat}
    {edited : OpenFile}
    (guarded : change file = if 0 < guard then some edited else none)
    (taken : change file = some after) : 0 < guard ∧ edited = after := by
  rw [guarded, Option.ite_none_right_eq_some, Option.some.injEq] at taken
  exact taken

/-- A change of a file that stays busy. -/
theorem steady_of_busy {change : OpenFile → Option OpenFile}
    {guard : OpenFile → Nat} {edited : OpenFile → OpenFile}
    (guarded : ∀ file,
      change file = if 0 < guard file then some (edited file) else none)
    (same : ∀ file, (edited file).alone = file.alone ∧
      (edited file).lowered = file.lowered)
    (busy : ∀ file, 0 < guard file →
      file.fCount = file.descriptors + file.transfers + file.closing +
        file.alone + file.flushed →
      file.alone + file.flushed < file.fCount ∧
        (edited file).fCount = (edited file).descriptors +
          (edited file).transfers + (edited file).closing +
          (edited file).alone + (edited file).flushed) : Steady change := by
  intro file after sound taken
  obtain ⟨some?, rfl⟩ := of_guarded (guarded file) taken
  obtain ⟨sameAlone, sameLowered⟩ := same file
  obtain ⟨more, count⟩ := busy file some? sound.count
  obtain ⟨alone, lowered⟩ := sound.busy more
  exact ⟨.of_busy (sameAlone.trans alone) (sameLowered.trans lowered) count,
    sameLowered⟩

theorem steady_dup : Steady dup := by
  refine steady_of_busy (fun _ => rfl) (fun _ => ⟨rfl, rfl⟩) ?_
  intro file some? count
  dsimp only
  omega

theorem steady_begin : Steady begin := by
  refine steady_of_busy (fun _ => rfl) (fun _ => ⟨rfl, rfl⟩) ?_
  intro file some? count
  dsimp only
  omega

theorem steady_finish : Steady finish := by
  refine steady_of_busy (fun _ => rfl) (fun _ => ⟨rfl, rfl⟩) ?_
  intro file some? count
  dsimp only
  omega

theorem steady_close : Steady close := by
  refine steady_of_busy (fun _ => rfl) (fun _ => ⟨rfl, rfl⟩) ?_
  intro file some? count
  dsimp only
  omega

theorem steady_flush : Steady flush := by
  intro file after sound taken
  unfold flush at taken
  split at taken
  · have count := sound.count
    obtain ⟨alone, lowered⟩ := sound.busy (by omega)
    split at taken
    · rename_i single
      cases taken
      refine ⟨⟨?_, fun _ => ⟨single, lowered⟩, ?_⟩, rfl⟩
      · dsimp only
        omega
      · intro low
        rw [show file.lowered = true from low] at lowered
        cases lowered
    · cases taken
      refine ⟨Sound.of_busy alone lowered ?_, rfl⟩
      dsimp only
      omega
  · cases taken

theorem steady_put : Steady put := by
  intro file after sound taken
  obtain ⟨behind, rfl⟩ := of_guarded rfl taken
  have count := sound.count
  refine ⟨⟨?_, ?_, ?_⟩, rfl⟩
  · dsimp only
    omega
  · intro some?
    have single := (sound.alone some?).1
    dsimp only at some?
    omega
  · intro low
    obtain ⟨same, most⟩ := sound.last low
    dsimp only
    omega

/-- The flush that lowers the count is the one that is alone. -/
theorem sound_lower (sound : file.Sound) (taken : file.lower = some after) :
    after.Sound ∧ file.lowered = false ∧ after.lowered = true := by
  obtain ⟨some?, rfl⟩ := of_guarded rfl taken
  have count := sound.count
  obtain ⟨single, lowered⟩ := sound.alone some?
  refine ⟨⟨?_, ?_, ?_⟩, lowered, rfl⟩
  · dsimp only
    omega
  · intro more
    dsimp only at more
    omega
  · intro _
    dsimp only
    omega

end OpenFile

/-! ### Steps -/

variable {s t : State} {label : Label} {f : Nat} {new : File}

/-- The steps that change the references of an open file only. -/
def Label.reference? : Label → Option (Nat × (OpenFile → Option OpenFile))
  | .dup f => some (f, OpenFile.dup)
  | .begin f => some (f, OpenFile.begin)
  | .finish f => some (f, OpenFile.finish)
  | .close f => some (f, OpenFile.close)
  | .flush f => some (f, OpenFile.flush)
  | .put f => some (f, OpenFile.put)
  | _ => none

theorem steady_of_reference {change : OpenFile → Option OpenFile}
    (reference : label.reference? = some (f, change)) :
    OpenFile.Steady change := by
  cases label with
  | dup f =>
      cases reference
      exact OpenFile.steady_dup
  | begin f =>
      cases reference
      exact OpenFile.steady_begin
  | finish f =>
      cases reference
      exact OpenFile.steady_finish
  | close f =>
      cases reference
      exact OpenFile.steady_close
  | flush f =>
      cases reference
      exact OpenFile.steady_flush
  | put f =>
      cases reference
      exact OpenFile.steady_put
  | _ => cases reference

/-- Everything a step can do. -/
inductive Moves (s : State) : Label → State → Prop where
  | counted {f : Nat} (unused : s.file f = .unused) (only : s.nrUsers = 0) :
      Moves s (.add f) ({ s with nrUsers := s.nrUsers + 1 }.set f .counted)
  | refused {f : Nat} (unused : s.file f = .unused)
      (users : s.nrUsers ≠ 0) :
      Moves s (.add f)
        ({ s with nrUsers := s.nrUsers + 1 }.set f (.failing .ebusy))
  | allocated {f : Nat} (counted : s.file f = .counted) :
      Moves s (.allocate f true)
        ({ s with outgoing := some f }.set f (.opened newFile))
  | starved {f : Nat} (counted : s.file f = .counted) :
      Moves s (.allocate f false) (s.set f (.failing .enomem))
  | backed {f : Nat} {errno : Errno} (failing : s.file f = .failing errno) :
      Moves s (.back f)
        ({ s with nrUsers := s.nrUsers - 1 }.set f (.refused errno))
  | referenced {label : Label} {f : Nat}
      {change : OpenFile → Option OpenFile} {file after : OpenFile}
      (reference : label.reference? = some (f, change))
      (opened : s.file f = .opened file) (changed : change file = some after) :
      Moves s label (s.set f (.opened after))
  | lowered {f : Nat} {file after : OpenFile}
      (opened : s.file f = .opened file) (lowers : file.lower = some after) :
      Moves s (.lower f)
        { s.set f (.opened after) with nrUsers := s.nrUsers - 1 }
  | released {f : Nat} {file : OpenFile} (opened : s.file f = .opened file)
      (unreferenced : file.fCount = 0) :
      Moves s (.release f)
        (s.set f (.releasing (.checking s.outgoing) file.lowered))
  | passed {f : Nat} {buffers : Option Nat} {lowered : Bool}
      (checking : s.file f = .releasing (.checking buffers) lowered)
      (nobody : s.nrUsers = 0) :
      Moves s (.check f) (s.set f (.releasing (.freeing buffers) lowered))
  | caught {f : Nat} {buffers : Option Nat} {lowered : Bool}
      (checking : s.file f = .releasing (.checking buffers) lowered)
      (users : s.nrUsers ≠ 0) :
      Moves s (.check f) (s.set f (.releasing .bug lowered))
  | freed {f buffers : Nat} {lowered : Bool}
      (freeing : s.file f = .releasing (.freeing (some buffers)) lowered) :
      Moves s (.free f) (s.set f (.releasing .clearing lowered))
  | faulted {f : Nat} {lowered : Bool}
      (freeing : s.file f = .releasing (.freeing none) lowered) :
      Moves s (.free f) (s.set f (.releasing .bug lowered))
  | cleared {f : Nat} {lowered : Bool}
      (clearing : s.file f = .releasing .clearing lowered) :
      Moves s (.clear f) ({ s with outgoing := none }.set f .released)

theorem moves_of_modify {change : OpenFile → Option OpenFile}
    (reference : label.reference? = some (f, change))
    (taken : s.modify f change = some t) : Moves s label t := by
  unfold State.modify at taken
  split at taken
  · rename_i file opened
    obtain ⟨after, changed, rfl⟩ := Option.map_eq_some_iff.mp taken
    exact .referenced reference opened changed
  · cases taken

theorem step_moves (taken : step s label = some t) : Moves s label t := by
  unfold step at taken
  cases label with
  | dup f => exact moves_of_modify rfl taken
  | begin f => exact moves_of_modify rfl taken
  | finish f => exact moves_of_modify rfl taken
  | close f => exact moves_of_modify rfl taken
  | flush f => exact moves_of_modify rfl taken
  | put f => exact moves_of_modify rfl taken
  | add f =>
      dsimp only at taken
      split at taken
      · rename_i unused
        cases taken
        by_cases only : s.nrUsers = 0
        · rw [if_pos (by omega)]
          exact .counted unused only
        · rw [if_neg (by omega)]
          exact .refused unused only
      · cases taken
  | allocate f enough =>
      dsimp only at taken
      split at taken
      · rename_i counted
        cases enough with
        | true =>
            cases taken
            exact .allocated counted
        | false =>
            cases taken
            exact .starved counted
      · cases taken
  | back f =>
      dsimp only at taken
      split at taken
      · rename_i failing
        cases taken
        exact .backed failing
      · cases taken
  | lower f =>
      obtain ⟨next, changed, rfl⟩ := Option.map_eq_some_iff.mp taken
      unfold State.modify at changed
      split at changed
      · rename_i opened
        obtain ⟨after, lowers, rfl⟩ := Option.map_eq_some_iff.mp changed
        exact .lowered opened lowers
      · cases changed
  | release f =>
      dsimp only at taken
      split at taken
      · rename_i opened
        split at taken
        · rename_i unreferenced
          cases taken
          exact .released opened unreferenced
        · cases taken
      · cases taken
  | check f =>
      dsimp only at taken
      split at taken
      · rename_i checking
        split at taken
        · rename_i nobody
          cases taken
          exact .passed checking nobody
        · rename_i users
          cases taken
          exact .caught checking users
      · cases taken
  | free f =>
      dsimp only at taken
      split at taken
      · rename_i freeing
        split at taken
        · cases taken
          exact .faulted freeing
        · cases taken
          exact .freed freeing
      · cases taken
  | clear f =>
      dsimp only at taken
      split at taken
      · rename_i clearing
        cases taken
        exact .cleared clearing
      · cases taken

/-! ### All files -/

theorem inv_init : Inv init := by
  refine ⟨Tally.counts_of_none fun _ => rfl, fun _ => trivial, ?_, ?_, ?_⟩
  · intro f counted
    cases counted
  · intro f g unreleased
    exact unreleased.elim
  · intro f unreleased
    exact unreleased.elim

/-- One file changes, and the count by as much as its weight does. -/
theorem Inv.replace (inv : Inv s)
    (file : t.file = Function.update s.file f new)
    (users : t.nrUsers + (s.file f).weight = s.nrUsers + new.weight)
    (sound : new.Sound f)
    (first : new = .counted → ∀ g, g ≠ f → (s.file g).weight = 0)
    (heavy : 0 < new.weight →
      (∃ errno, new = .failing errno) ∨ ∀ g, g ≠ f → s.file g ≠ .counted)
    (only : new.Unreleased → ∀ g, g ≠ f → ¬ (s.file g).Unreleased)
    (own : new.Unreleased → t.outgoing = some f)
    (others : ∀ g, g ≠ f → (s.file g).Unreleased → t.outgoing = some g) :
    Inv t := by
  refine ⟨?_, ?_, ?_, ?_, ?_⟩
  · have total : t.nrUsers = s.nrUsers + new.weight - (s.file f).weight := by
      omega
    rw [file, total]
    exact inv.counts.update f new
  · intro g
    rw [file]
    by_cases same : g = f
    · rw [same, Function.update_self]
      exact sound
    · rw [Function.update_of_ne same]
      exact inv.sound g
  · intro g counted h differ weighs
    rw [file] at counted weighs ⊢
    by_cases same : g = f
    · rw [same, Function.update_self] at counted
      rw [same] at differ
      rw [Function.update_of_ne differ, first counted h differ] at weighs
      cases weighs
    · rw [Function.update_of_ne same] at counted
      by_cases there : h = f
      · rw [there, Function.update_self] at weighs ⊢
        rcases heavy weighs with failing | none?
        · exact failing
        · exact absurd counted (none? g same)
      · rw [Function.update_of_ne there] at weighs ⊢
        exact inv.first g counted h differ weighs
  · intro g h unreleased unreleasedToo
    rw [file] at unreleased unreleasedToo
    by_cases same : g = f
    · by_cases there : h = f
      · rw [same, there]
      · rw [same, Function.update_self] at unreleased
        rw [Function.update_of_ne there] at unreleasedToo
        exact absurd unreleasedToo (only unreleased h there)
    · rw [Function.update_of_ne same] at unreleased
      by_cases there : h = f
      · rw [there, Function.update_self] at unreleasedToo
        exact absurd unreleased (only unreleasedToo g same)
      · rw [Function.update_of_ne there] at unreleasedToo
        exact inv.exclusive g h unreleased unreleasedToo
  · intro g unreleased
    rw [file] at unreleased
    by_cases same : g = f
    · rw [same, Function.update_self] at unreleased
      rw [same]
      exact own unreleased
    · rw [Function.update_of_ne same] at unreleased
      exact others g same unreleased

/-- A step of the one file that is not released, which weighs no more after
it. -/
theorem Inv.within (inv : Inv s) (file : t.file = Function.update s.file f new)
    (users : t.nrUsers + (s.file f).weight = s.nrUsers + new.weight)
    (outgoing : t.outgoing = s.outgoing)
    (before : (s.file f).Unreleased) (after : new.Unreleased)
    (lighter : new.weight ≤ (s.file f).weight) (sound : new.Sound f) :
    Inv t := by
  have only : ∀ g, g ≠ f → ¬ (s.file g).Unreleased := fun g differ unreleased =>
    differ (inv.exclusive g f unreleased before)
  apply inv.replace file users sound
  · rintro rfl
    exact after.elim
  · intro weighs
    right
    intro g differ counted
    obtain ⟨errno, failing⟩ := inv.first g counted f (Ne.symm differ)
      (Nat.lt_of_lt_of_le weighs lighter)
    rw [failing] at before
    exact before.elim
  · exact fun _ => only
  · intro _
    rw [outgoing]
    exact inv.outgoing f before
  · exact fun g differ unreleased => absurd unreleased (only g differ)

/-- A step that keeps the weight too. -/
theorem Inv.keep (inv : Inv s) (before : (s.file f).Unreleased)
    (after : new.Unreleased) (same : new.weight = (s.file f).weight)
    (sound : new.Sound f) : Inv (s.set f new) := by
  refine inv.within (t := s.set f new) rfl ?_ rfl before after
    (Nat.le_of_eq same) sound
  rw [same]
  rfl

theorem closing_of_light {file : File} (unreleased : file.Unreleased)
    (light : file.weight = 0) : file.Closing := by
  cases file with
  | opened file =>
      cases low : file.lowered with
      | true => exact low
      | false => simp [File.weight, low] at light
  | releasing stage lowered =>
      cases lowered with
      | true => rfl
      | false => simp [File.weight] at light
  | _ => exact unreleased.elim

theorem light_of_closing {file : File} (closing : file.Closing) :
    file.weight = 0 := by
  cases file with
  | opened file => exact if_pos closing
  | releasing stage lowered => exact if_pos closing
  | _ => exact closing.elim

theorem unreleased_of_closing {file : File} (closing : file.Closing) :
    file.Unreleased := by
  cases file with
  | opened file => trivial
  | releasing stage lowered => trivial
  | _ => exact closing.elim

/-- Only a file that is closing can be in the way of the first user. -/
theorem Inv.only_first (inv : Inv s) (counted : s.file f = .counted)
    (settled : ∀ g, ¬ (s.file g).Closing) (g : Nat) (differ : g ≠ f) :
    ¬ (s.file g).Unreleased := by
  intro unreleased
  rcases Nat.eq_zero_or_pos (s.file g).weight with light | weighs
  · exact settled g (closing_of_light unreleased light)
  · obtain ⟨errno, failing⟩ := inv.first f counted g differ weighs
    rw [failing] at unreleased
    exact unreleased.elim

/-- The open that is the only user. -/
theorem Inv.counted (inv : Inv s) (unused : s.file f = .unused)
    (only : s.nrUsers = 0) :
    Inv ({ s with nrUsers := s.nrUsers + 1 }.set f .counted) := by
  have nobody := inv.counts.eq_zero_iff.mp only
  apply inv.replace rfl
  · rw [unused]
    exact Int.add_zero _
  · trivial
  · exact fun _ g _ => nobody g
  · intro _
    right
    intro g _ counted
    have weighs := nobody g
    rw [counted] at weighs
    cases weighs
  · exact nofun
  · exact nofun
  · exact fun g _ unreleased => inv.outgoing g unreleased

/-- An open that is on its way to an error. -/
theorem Inv.failing (inv : Inv s) {errno : Errno} {users : Int}
    (same : users + (s.file f).weight = s.nrUsers + 1) :
    Inv ({ s with nrUsers := users }.set f (.failing errno)) := by
  apply inv.replace rfl same
  · trivial
  · exact nofun
  · exact fun _ => .inl ⟨errno, rfl⟩
  · exact nofun
  · exact nofun
  · exact fun g _ unreleased => inv.outgoing g unreleased

theorem Inv.allocated (inv : Inv s) (counted : s.file f = .counted)
    (settled : ∀ g, ¬ (s.file g).Closing) :
    Inv ({ s with outgoing := some f }.set f (.opened newFile)) := by
  have only := inv.only_first counted settled
  apply inv.replace rfl
  · rw [counted]
    rfl
  · exact OpenFile.sound_newFile
  · exact nofun
  · intro _
    right
    intro g differ countedToo
    have weighs : 0 < (s.file g).weight := by
      rw [countedToo]
      decide
    obtain ⟨errno, failing⟩ := inv.first f counted g differ weighs
    rw [countedToo] at failing
    cases failing
  · exact fun _ => only
  · exact fun _ => rfl
  · exact fun g differ unreleased => absurd unreleased (only g differ)

theorem Inv.backed (inv : Inv s) {errno : Errno}
    (failing : s.file f = .failing errno) :
    Inv ({ s with nrUsers := s.nrUsers - 1 }.set f (.refused errno)) := by
  apply inv.replace rfl
  · rw [failing]
    show s.nrUsers - 1 + 1 = s.nrUsers + 0
    omega
  · trivial
  · exact nofun
  · exact nofun
  · exact nofun
  · exact nofun
  · exact fun g _ unreleased => inv.outgoing g unreleased

theorem Inv.referenced (inv : Inv s) {change : OpenFile → Option OpenFile}
    {file after : OpenFile} (steady : OpenFile.Steady change)
    (opened : s.file f = .opened file) (changed : change file = some after) :
    Inv (s.set f (.opened after)) := by
  have sound := inv.sound f
  rw [opened] at sound
  obtain ⟨soundAfter, lowered⟩ := steady file after sound changed
  apply inv.keep
  · rw [opened]
    trivial
  · trivial
  · rw [opened, File.weight, File.weight, lowered]
  · exact soundAfter

theorem Inv.lowered (inv : Inv s) {file after : OpenFile}
    (opened : s.file f = .opened file) (lowers : file.lower = some after) :
    Inv { s.set f (.opened after) with nrUsers := s.nrUsers - 1 } := by
  have sound := inv.sound f
  rw [opened] at sound
  obtain ⟨soundAfter, high, low⟩ := OpenFile.sound_lower sound lowers
  have heavy : (s.file f).weight = 1 := by
    rw [opened, File.weight, high]
    rfl
  have light : (File.opened after).weight = 0 := if_pos low
  apply inv.within rfl
  · rw [heavy, light]
    show s.nrUsers - 1 + 1 = s.nrUsers + 0
    omega
  · rfl
  · rw [opened]
    trivial
  · trivial
  · rw [light]
    exact Nat.zero_le _
  · exact soundAfter

/-- A release goes on. -/
theorem Inv.releasing (inv : Inv s) {stage next : Release} {lowered : Bool}
    (releasing : s.file f = .releasing stage lowered)
    (sound : (File.releasing next lowered).Sound f) :
    Inv (s.set f (.releasing next lowered)) := by
  apply inv.keep
  · rw [releasing]
    trivial
  · trivial
  · rw [releasing]
    rfl
  · exact sound

theorem Inv.cleared (inv : Inv s) {lowered : Bool}
    (clearing : s.file f = .releasing .clearing lowered) :
    Inv ({ s with outgoing := none }.set f .released) := by
  have sound := inv.sound f
  rw [clearing] at sound
  have light : (s.file f).weight = 0 := by
    rw [clearing]
    exact if_pos sound
  have before : (s.file f).Unreleased := by
    rw [clearing]
    trivial
  apply inv.replace rfl
  · rw [light]
    rfl
  · trivial
  · exact nofun
  · exact nofun
  · exact nofun
  · exact nofun
  · exact fun g differ unreleased =>
      absurd (inv.exclusive g f unreleased before) differ

/-- Every settled step keeps the accounts. -/
theorem Inv.step (inv : Inv s) (settled : Settled s label)
    (moves : Moves s label t) : Inv t := by
  cases moves with
  | counted unused only => exact inv.counted unused only
  | refused unused users =>
      apply inv.failing
      rw [unused]
      exact Int.add_zero _
  | allocated counted => exact inv.allocated counted settled
  | starved counted =>
      apply inv.failing
      rw [counted]
      rfl
  | backed failing => exact inv.backed failing
  | referenced reference opened changed =>
      exact inv.referenced (steady_of_reference reference) opened changed
  | lowered opened lowers => exact inv.lowered opened lowers
  | @released f file opened unreferenced =>
      have before : (s.file f).Unreleased := by
        rw [opened]
        trivial
      apply inv.keep before
      · trivial
      · rw [opened]
        rfl
      · exact inv.outgoing f before
  | @passed f buffers lowered checking nobody =>
      have sound := inv.sound f
      rw [checking] at sound
      apply inv.releasing checking
      refine ⟨sound, ?_⟩
      have closing := closing_of_light ?_ (inv.counts.eq_zero_iff.mp nobody f)
      · rw [checking] at closing
        exact closing
      · rw [checking]
        trivial
  | caught checking users => exact inv.releasing checking trivial
  | @freed f buffers lowered freeing =>
      have sound := inv.sound f
      rw [freeing] at sound
      exact inv.releasing freeing sound.2
  | faulted freeing => exact inv.releasing freeing trivial
  | cleared clearing => exact inv.cleared clearing

theorem weight_of_opening {file : File} (opening : file.Opening) :
    file.weight = 1 := by
  cases file with
  | counted => rfl
  | failing errno => rfl
  | _ => exact opening.elim

/-- A file weighs something exactly while it is opening, or open and not yet
closing. -/
theorem weight_eq_zero {file : File} (settled : ¬ file.Opening)
    (closing : file.Unreleased → file.Closing) : file.weight = 0 := by
  cases file with
  | counted => exact absurd trivial settled
  | failing errno => exact absurd trivial settled
  | opened file => exact light_of_closing (closing trivial)
  | releasing stage lowered => exact light_of_closing (closing trivial)
  | _ => rfl

theorem Inv.accounted (inv : Inv s) (settled : Settled s label)
    (moves : Moves s label t) : Accounted s label t := by
  have after := inv.step settled moves
  refine ⟨?_, ?_, after.exclusive, after.counts.nonneg⟩
  · rintro f rfl
    obtain ⟨closing, none?⟩ := settled
    apply inv.counts.eq_zero_iff.mpr
    intro g
    apply weight_eq_zero (none? g)
    intro unreleased
    rwa [inv.exclusive g f unreleased (unreleased_of_closing closing)]
  · rintro f buffers lowered - freeing
    have sound := inv.sound f
    rw [freeing] at sound
    exact sound.1

theorem Inv.settled (inv : Inv s) (moves : Moves s label t)
    (accounted : Accounted s label t) : Settled s label := by
  have checked : ∀ {f stage lowered}, label = .check f →
      s.file f = .releasing stage lowered →
      (s.file f).Closing ∧ ∀ g, ¬ (s.file g).Opening := by
    intro f stage lowered check checking
    have nobody := inv.counts.eq_zero_iff.mp (accounted.noBug f check)
    constructor
    · apply closing_of_light ?_ (nobody f)
      rw [checking]
      trivial
    · intro g opening
      have weighs := weight_of_opening opening
      rw [nobody g] at weighs
      cases weighs
  cases moves with
  | allocated counted =>
      rename_i f
      intro g closing
      have differ : g ≠ f := by
        rintro rfl
        rw [counted] at closing
        exact closing.elim
      apply differ
      apply accounted.exclusive
      · show (Function.update s.file f _ g).Unreleased
        rw [Function.update_of_ne differ]
        exact unreleased_of_closing closing
      · show (Function.update s.file f _ f).Unreleased
        rw [Function.update_self]
        trivial
  | passed checking nobody => exact checked rfl checking
  | caught checking users => exact checked rfl checking
  | referenced reference opened changed =>
      cases label with
      | allocate f enough => cases reference
      | check f => cases reference
      | _ => trivial
  | _ => trivial

end FameZ.Kernel.ExclusiveOpen
