/-
Module: FameZ.Lib.Lifecycle
Purpose: Devices that come and go on a bus, the driver that is bound to them,
  and when its list and its resources are those of the bound devices.
Trusted boundary: none
Main exports: Lifecycle.Driver, State, Label, step, Clean, Lawful,
  always_clean_iff
-/
import FameZ.Lib.Custody
import Mathlib.Logic.Function.Basic

namespace Lifecycle

/-!
A bus offers a device to a driver with `probe` and takes it back with `remove`.
The driver keeps a list of what it is bound to, and all that it acquires and
releases for a device goes to a log of that device.
-/

variable {δ κ β ε ρ : Type*}

abbrev Log (ρ : Type*) := List (Custody.Event ρ)

/-- Both functions extend the log of the device.  A probe that fails binds
nothing; `κ` is what it meets. -/
structure Driver (δ κ β ε ρ : Type*) where
  probe : δ → κ → List ε → Log ρ → Option β × List ε × Log ρ
  remove : δ → β → List ε → Log ρ → List ε × Log ρ

/-- `bound` are the devices in the order in which they were bound. -/
structure State (δ β ε ρ : Type*) where
  bound : List (δ × β)
  listed : List ε
  log : δ → Log ρ

inductive Label (δ κ : Type*) where
  | probe (device : δ) (conditions : κ)
  | remove (device : δ)

/-- Before the first device. -/
def init : State δ β ε ρ where
  bound := []
  listed := []
  log := fun _ => []

variable [DecidableEq δ]

/-- The bus probes what is not bound and removes what is. -/
def step (driver : Driver δ κ β ε ρ) :
    Transition.Step (State δ β ε ρ) (Label δ κ) := fun s label =>
  match label with
  | .probe device conditions =>
      if device ∈ s.bound.map Prod.fst then none
      else
        match driver.probe device conditions s.listed (s.log device) with
        | (some binding, listed, log) =>
            some
              { bound := s.bound ++ [(device, binding)]
                listed := listed
                log := Function.update s.log device log }
        | (none, listed, log) =>
            some
              { s with
                listed := listed
                log := Function.update s.log device log }
  | .remove device =>
      match s.bound.find? fun entry => entry.1 = device with
      | none => none
      | some (_, binding) =>
          let removed := driver.remove device binding s.listed (s.log device)
          some
            { bound := s.bound.eraseP fun entry => entry.1 = device
              listed := removed.1
              log := Function.update s.log device removed.2 }

variable [DecidableEq ρ]

/-- The entries of the bound devices. -/
def entries (entry : δ → β → ε) (bound : List (δ × β)) : List ε :=
  bound.map fun binding => entry binding.1 binding.2

/-- The list is that of the bound devices, each of them has what its binding
owns, and nothing else is held. -/
structure Clean (entry : δ → β → ε) (owns : β → Multiset ρ)
    (s : State δ β ε ρ) : Prop where
  listed : s.listed = entries entry s.bound
  held : ∀ device binding, (device, binding) ∈ s.bound →
    Custody.run 0 (s.log device) = some (owns binding)
  settled : ∀ device, device ∉ s.bound.map Prod.fst →
    Custody.Settled (s.log device)

/-- The condition on one event: a probe meets nothing that it does not undo, and
what is removed can be given back whole. -/
def Orderly (undone : δ → κ → List ε → Prop) (whole : β → Prop)
    (s : State δ β ε ρ) : Label δ κ → Prop
  | .probe device conditions => undone device conditions s.listed
  | .remove device =>
      ∀ binding, (device, binding) ∈ s.bound → whole binding

/-- What has to be known of a driver: a probe that binds adds one entry and owns
what it took, one that fails leaves nothing behind exactly if it is undone, and
a removal takes the entry away and gives everything back exactly if the binding
is whole. -/
structure Lawful (driver : Driver δ κ β ε ρ) (entry : δ → β → ε)
    (owns : β → Multiset ρ) (undone : δ → κ → List ε → Prop)
    (valid whole : β → Prop) : Prop where
  binds : ∀ (device : δ) (conditions : κ) (bound : List (δ × β)) (log : Log ρ)
      (binding : β) (listed : List ε) (extended : Log ρ),
    device ∉ bound.map Prod.fst → Custody.Settled log →
    driver.probe device conditions (entries entry bound) log =
      (some binding, listed, extended) →
    undone device conditions (entries entry bound) ∧ valid binding ∧
      listed = entries entry bound ++ [entry device binding] ∧
      Custody.run 0 extended = some (owns binding)
  fails : ∀ (device : δ) (conditions : κ) (bound : List (δ × β)) (log : Log ρ)
      (listed : List ε) (extended : Log ρ),
    device ∉ bound.map Prod.fst → Custody.Settled log →
    driver.probe device conditions (entries entry bound) log =
      (none, listed, extended) →
    (undone device conditions (entries entry bound) ↔
      listed = entries entry bound ∧ Custody.Settled extended)
  removes : ∀ (device : δ) (binding : β) (bound : List (δ × β)) (log : Log ρ),
    (bound.map Prod.fst).Nodup → (device, binding) ∈ bound → valid binding →
    Custody.run 0 log = some (owns binding) →
    let removed := driver.remove device binding (entries entry bound) log
    removed.1 = entries entry (bound.eraseP fun other => other.1 = device) ∧
      (Custody.Settled removed.2 ↔ whole binding)

/-- A clean state, each device bound once and validly. -/
structure Inv (entry : δ → β → ε) (owns : β → Multiset ρ) (valid : β → Prop)
    (s : State δ β ε ρ) : Prop where
  clean : Clean entry owns s
  nodup : (s.bound.map Prod.fst).Nodup
  valid : ∀ device binding, (device, binding) ∈ s.bound → valid binding

variable {driver : Driver δ κ β ε ρ} {entry : δ → β → ε}
  {owns : β → Multiset ρ} {undone : δ → κ → List ε → Prop}
  {valid whole : β → Prop} {s t : State δ β ε ρ}

omit [DecidableEq δ] in
theorem Inv.init : Inv entry owns valid (init : State δ β ε ρ) :=
  ⟨⟨rfl, nofun, fun _ _ => rfl⟩, List.nodup_nil, nofun⟩

theorem find?_bound {bound : List (δ × β)} {device : δ} {found : δ × β}
    (search : (bound.find? fun other => other.1 = device) = some found) :
    found.1 = device ∧ found ∈ bound := by
  refine ⟨?_, List.mem_of_find?_eq_some search⟩
  simpa using List.find?_some search

omit [DecidableEq δ] in
/-- A device is bound once. -/
theorem binding_unique {bound : List (δ × β)}
    (nodup : (bound.map Prod.fst).Nodup) {device : δ} {first second : β}
    (one : (device, first) ∈ bound) (other : (device, second) ∈ bound) :
    first = second :=
  congrArg Prod.snd (List.inj_on_of_nodup_map nodup one other rfl)

theorem mem_eraseP_iff {bound : List (δ × β)}
    (nodup : (bound.map Prod.fst).Nodup) {device : δ} {other : δ × β} :
    (other ∈ bound.eraseP fun entry => entry.1 = device) ↔
      other ∈ bound ∧ other.1 ≠ device := by
  induction bound with
  | nil => simp
  | cons head rest inductionHypothesis =>
      rw [List.map_cons, List.nodup_cons] at nodup
      by_cases here : head.1 = device
      · rw [List.eraseP_cons_of_pos (by simpa using here), List.mem_cons]
        constructor
        · intro member
          refine ⟨.inr member, fun same => nodup.1 ?_⟩
          rw [here, ← same]
          exact List.mem_map_of_mem member
        · rintro ⟨rfl | member, different⟩
          · exact absurd here different
          · exact member
      · rw [List.eraseP_cons_of_neg (by simpa using here), List.mem_cons,
          inductionHypothesis nodup.2, List.mem_cons]
        constructor
        · rintro (rfl | ⟨member, different⟩)
          · exact ⟨.inl rfl, here⟩
          · exact ⟨.inr member, different⟩
        · rintro ⟨rfl | member, different⟩
          · exact .inl rfl
          · exact .inr ⟨member, different⟩

/-- The search for the entries of a device and for its binding. -/
theorem filter_eq_eraseP {bound : List (δ × β)}
    (nodup : (bound.map Prod.fst).Nodup) (device : δ) :
    (bound.filter fun other => other.1 ≠ device) =
      bound.eraseP fun other => other.1 = device := by
  induction bound with
  | nil => rfl
  | cons head rest inductionHypothesis =>
      rw [List.map_cons, List.nodup_cons] at nodup
      by_cases here : head.1 = device
      · rw [List.eraseP_cons_of_pos (by simpa using here),
          List.filter_cons_of_neg (by simpa using here)]
        refine List.filter_eq_self.mpr fun other member => ?_
        have different : other.1 ≠ device := by
          intro same
          refine nodup.1 ?_
          rw [here, ← same]
          exact List.mem_map_of_mem member
        simpa using different
      · rw [List.eraseP_cons_of_neg (by simpa using here),
          List.filter_cons_of_pos (by simpa using here),
          inductionHypothesis nodup.2]

namespace Inv

/-- A probe that binds. -/
theorem binds (inv : Inv entry owns valid s) {device : δ} {binding : β}
    {log : Log ρ} (free : device ∉ s.bound.map Prod.fst)
    (fits : valid binding) (taken : Custody.run 0 log = some (owns binding)) :
    Inv entry owns valid
      { bound := s.bound ++ [(device, binding)]
        listed := entries entry s.bound ++ [entry device binding]
        log := Function.update s.log device log } := by
  refine ⟨⟨?_, fun other has member => ?_, fun other absent => ?_⟩, ?_,
    fun other has member => ?_⟩
  · simp [entries]
  · rcases List.mem_append.mp member with old | new
    · have different : other ≠ device := by
        rintro rfl
        exact free (List.mem_map_of_mem old)
      simp only [Function.update_of_ne different]
      exact inv.clean.held other has old
    · cases List.mem_singleton.mp new
      simp only [Function.update_self]
      exact taken
  · simp only [List.map_append, List.mem_append, not_or] at absent
    have different : other ≠ device := by
      rintro rfl
      simp at absent
    simp only [Function.update_of_ne different]
    exact inv.clean.settled other absent.1
  · simp only [List.map_append, List.map_cons, List.map_nil]
    exact List.nodup_append.mpr ⟨inv.nodup, List.nodup_singleton _, by
      rintro a member b single rfl
      exact free (List.mem_singleton.mp single ▸ member)⟩
  · rcases List.mem_append.mp member with old | new
    · exact inv.valid other has old
    · cases List.mem_singleton.mp new
      exact fits

/-- A probe that fails and leaves nothing behind. -/
theorem fails (inv : Inv entry owns valid s) {device : δ} {log : Log ρ}
    (free : device ∉ s.bound.map Prod.fst) (settled : Custody.Settled log) :
    Inv entry owns valid
      { s with
        listed := entries entry s.bound
        log := Function.update s.log device log } := by
  refine ⟨⟨rfl, fun other has member => ?_, fun other absent => ?_⟩,
    inv.nodup, inv.valid⟩
  · have different : other ≠ device := by
      rintro rfl
      exact free (List.mem_map_of_mem member)
    simp only [Function.update_of_ne different]
    exact inv.clean.held other has member
  · by_cases same : other = device
    · simp only [same, Function.update_self]
      exact settled
    · simp only [Function.update_of_ne same]
      exact inv.clean.settled other absent

/-- A removal that gives everything back. -/
theorem removes (inv : Inv entry owns valid s) {device : δ} {log : Log ρ}
    (settled : Custody.Settled log) :
    Inv entry owns valid
      { bound := s.bound.eraseP fun other => other.1 = device
        listed := entries entry
          (s.bound.eraseP fun other => other.1 = device)
        log := Function.update s.log device log } := by
  have mem := fun other => @mem_eraseP_iff _ _ _ _ inv.nodup device other
  refine ⟨⟨rfl, fun other has member => ?_, fun other absent => ?_⟩, ?_,
    fun other has member => ?_⟩
  · obtain ⟨old, different⟩ := (mem _).mp member
    simp only [Function.update_of_ne different]
    exact inv.clean.held other has old
  · by_cases same : other = device
    · simp only [same, Function.update_self]
      exact settled
    · simp only [Function.update_of_ne same]
      refine inv.clean.settled other fun present => absent ?_
      obtain ⟨bound, member, rfl⟩ := List.mem_map.mp present
      exact List.mem_map_of_mem ((mem _).mpr ⟨member, same⟩)
  · exact inv.nodup.sublist ((List.eraseP_sublist ..).map _)
  · exact inv.valid other has ((mem _).mp member).1

end Inv

/-- An orderly event of a lawful driver. -/
theorem Inv.step (inv : Inv entry owns valid s)
    (lawful : Lawful driver entry owns undone valid whole)
    {label : Label δ κ} (orderly : Orderly undone whole s label)
    (taken : Lifecycle.step driver s label = some t) :
    Inv entry owns valid t := by
  cases label with
  | probe device conditions =>
      simp only [Lifecycle.step] at taken
      split at taken
      · cases taken
      · rename_i free
        have settled := inv.clean.settled device free
        split at taken
        · rename_i binding listed log probed
          cases taken
          rw [inv.clean.listed] at probed
          obtain ⟨-, fits, same, owned⟩ :=
            lawful.binds _ _ _ _ _ _ _ free settled probed
          rw [same]
          exact inv.binds free fits owned
        · rename_i listed log probed
          cases taken
          rw [Orderly, inv.clean.listed] at orderly
          rw [inv.clean.listed] at probed
          obtain ⟨same, back⟩ :=
            (lawful.fails _ _ _ _ _ _ free settled probed).mp orderly
          rw [same]
          exact inv.fails free back
  | remove device =>
      simp only [Lifecycle.step] at taken
      split at taken
      · cases taken
      · rename_i other binding found
        obtain ⟨same, member⟩ := find?_bound found
        cases same
        cases taken
        obtain ⟨list, back⟩ := lawful.removes _ _ _ _ inv.nodup member
          (inv.valid _ _ member) (inv.clean.held _ _ member)
        rw [inv.clean.listed, list]
        exact inv.removes (back.mpr (orderly binding member))

/-- After any other event the state is not clean. -/
theorem Inv.step_broken (inv : Inv entry owns valid s)
    (lawful : Lawful driver entry owns undone valid whole)
    {label : Label δ κ} (disorderly : ¬ Orderly undone whole s label)
    (taken : Lifecycle.step driver s label = some t) :
    ¬ Clean entry owns t := by
  intro clean
  apply disorderly
  cases label with
  | probe device conditions =>
      rw [Orderly, inv.clean.listed]
      simp only [Lifecycle.step] at taken
      split at taken
      · cases taken
      · rename_i free
        have settled := inv.clean.settled device free
        split at taken
        · rename_i binding listed log probed
          rw [inv.clean.listed] at probed
          exact (lawful.binds _ _ _ _ _ _ _ free settled probed).1
        · rename_i listed log probed
          cases taken
          rw [inv.clean.listed] at probed
          refine (lawful.fails _ _ _ _ _ _ free settled probed).mpr
            ⟨clean.listed, ?_⟩
          have back := clean.settled device free
          simpa only [Function.update_self] using back
  | remove device =>
      intro binding member
      simp only [Lifecycle.step] at taken
      split at taken
      · cases taken
      · rename_i other has found
        obtain ⟨same, inside⟩ := find?_bound found
        cases same
        cases binding_unique inv.nodup member inside
        cases taken
        obtain ⟨-, back⟩ := lawful.removes _ _ _ _ inv.nodup member
          (inv.valid _ _ member) (inv.clean.held _ _ member)
        refine back.mp ?_
        have gone := clean.settled other fun present => by
          obtain ⟨bound, left, same⟩ := List.mem_map.mp present
          exact ((mem_eraseP_iff inv.nodup).mp left).2 same
        simpa only [Function.update_self, inv.clean.listed] using gone

/-- A run of a lawful driver is clean throughout exactly if each of its events
is orderly. -/
theorem always_clean_iff
    (lawful : Lawful driver entry owns undone valid whole)
    (trace : List (Label δ κ)) :
    Transition.Always (step driver) (Clean entry owns) init trace ↔
      Transition.Meets (step driver) (Orderly undone whole) init trace :=
  Transition.always_iff_meets
    (fun _ _ _ inv orderly taken => Inv.step inv lawful orderly taken)
    (fun _ inv => inv.clean)
    (fun _ _ _ inv disorderly taken =>
      Inv.step_broken inv lawful disorderly taken)
    (@Inv.init _ _ _ _ _ entry owns valid)

end Lifecycle
