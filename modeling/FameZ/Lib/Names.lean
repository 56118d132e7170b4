/-
Module: FameZ.Lib.Names
Purpose: Names that parties bind and give up, held by one party at a time, and
  when every name that is bound has its party.
Trusted boundary: none
Main exports: Names.Moves, Leaves, Held, Exact, Held.moves, Held.leaves,
  Exact.moves, Held.not_exact
-/
import Mathlib.Data.List.Basic
import Mathlib.Logic.Function.Basic

namespace Names

variable {ι α : Type*}

/-- A party keeps its name, binds a free one, or gives its own up. -/
inductive Moves [DecidableEq α] (names names' : List α) (own own' : Option α) :
    Prop where
  | stays (same : own' = own) (bound : names' = names)
  | binds (name : α) (without : own = none) (now : own' = some name)
      (free : name ∉ names) (bound : names' = name :: names)
  | unlinks (name : α) (had : own = some name) (gone : own' = none)
      (bound : names' = names.filter fun other => other ≠ name)

/-- A party goes, and its name stays bound. -/
structure Leaves (names names' : List α) (own own' : Option α) (name : α) :
    Prop where
  had : own = some name
  gone : own' = none
  bound : names' = names

/-- No two parties have one name, and what they have is bound. -/
structure Held (owner : ι → Option α) (names : List α) : Prop where
  exclusive : ∀ i j name, owner i = some name → owner j = some name → i = j
  listed : ∀ i name, owner i = some name → name ∈ names

/-- What is bound is what the parties have. -/
def Exact (owner : ι → Option α) (names : List α) : Prop :=
  ∀ name, name ∈ names ↔ ∃ i, owner i = some name

variable [DecidableEq ι] {owner : ι → Option α} {names names' : List α}
  {own : Option α}

/-- A party that has a name behind an update. -/
theorem update_eq_some {i j : ι} {name : α}
    (has : Function.update owner i own j = some name) :
    (j = i ∧ own = some name) ∨ (j ≠ i ∧ owner j = some name) := by
  by_cases same : j = i
  · rw [same, Function.update_self] at has
    exact .inl ⟨same, has⟩
  · rw [Function.update_of_ne same] at has
    exact .inr ⟨same, has⟩

/-- A party that gives its name up, whatever becomes of the name, leaves those
of the others. -/
theorem Held.gone (held : Held owner names) (i : ι)
    (kept : ∀ j name, j ≠ i → owner j = some name → name ∈ names') :
    Held (Function.update owner i none) names' := by
  refine ⟨fun j k name first second => ?_, fun j name has => ?_⟩
  · rcases update_eq_some first with ⟨-, absurd⟩ | ⟨-, first⟩
    · cases absurd
    · rcases update_eq_some second with ⟨-, absurd⟩ | ⟨-, second⟩
      · cases absurd
      · exact held.exclusive j k name first second
  · rcases update_eq_some has with ⟨-, absurd⟩ | ⟨other, has⟩
    · cases absurd
    · exact kept j name other has

theorem Held.moves [DecidableEq α] (held : Held owner names) {i : ι}
    (moves : Moves names names' (owner i) own) :
    Held (Function.update owner i own) names' := by
  cases moves with
  | stays same bound =>
      rw [same, bound, Function.update_eq_self]
      exact held
  | binds name without now free bound =>
      have away : ∀ j, owner j ≠ some name := fun j has =>
        free (held.listed j name has)
      rw [now, bound]
      refine ⟨fun j k other first second => ?_, fun j other has => ?_⟩
      · rcases update_eq_some first with ⟨here, same⟩ | ⟨-, first⟩ <;>
          rcases update_eq_some second with ⟨there, again⟩ | ⟨-, second⟩
        · rw [here, there]
        · cases same
          exact absurd second (away k)
        · cases again
          exact absurd first (away j)
        · exact held.exclusive j k other first second
      · rcases update_eq_some has with ⟨-, same⟩ | ⟨-, has⟩
        · cases same
          exact List.mem_cons_self ..
        · exact List.mem_cons_of_mem _ (held.listed j other has)
  | unlinks name had gone bound =>
      rw [gone, bound]
      refine held.gone i fun j other different has => ?_
      refine List.mem_filter.mpr ⟨held.listed j other has, ?_⟩
      rw [decide_eq_true_iff]
      rintro rfl
      exact different (held.exclusive j i other has had)

theorem Held.leaves (held : Held owner names) {i : ι} {name : α}
    (leaves : Leaves names names' (owner i) own name) :
    Held (Function.update owner i own) names' := by
  rw [leaves.gone, leaves.bound]
  exact held.gone i fun j other _ has => held.listed j other has

theorem Exact.moves [DecidableEq α] (exact' : Exact owner names)
    (held : Held owner names) {i : ι}
    (moves : Moves names names' (owner i) own) :
    Exact (Function.update owner i own) names' := by
  have after := held.moves moves
  intro other
  refine ⟨fun member => ?_, fun ⟨j, has⟩ => after.listed j other has⟩
  cases moves with
  | stays same bound =>
      rw [same, Function.update_eq_self]
      rw [bound] at member
      exact (exact' other).mp member
  | binds name without now free bound =>
      rw [bound, List.mem_cons] at member
      rcases member with rfl | old
      · exact ⟨i, by rw [Function.update_self, now]⟩
      · obtain ⟨j, has⟩ := (exact' other).mp old
        have different : j ≠ i := by
          rintro rfl
          rw [without] at has
          cases has
        exact ⟨j, by rw [Function.update_of_ne different, has]⟩
  | unlinks name had gone bound =>
      rw [bound, List.mem_filter, decide_eq_true_iff] at member
      obtain ⟨j, has⟩ := (exact' other).mp member.1
      have different : j ≠ i := by
        rintro rfl
        rw [had] at has
        exact member.2 (Option.some.inj has).symm
      exact ⟨j, by rw [Function.update_of_ne different, has]⟩

/-- A name that was left has no party. -/
theorem Held.not_exact (held : Held owner names) {i : ι} {name : α}
    (leaves : Leaves names names' (owner i) own name) :
    ¬ Exact (Function.update owner i own) names' := by
  intro exact'
  have member : name ∈ names' := by
    rw [leaves.bound]
    exact held.listed i name leaves.had
  obtain ⟨j, has⟩ := (exact' name).mp member
  rcases update_eq_some has with ⟨-, same⟩ | ⟨different, has⟩
  · rw [leaves.gone] at same
    cases same
  · exact different (held.exclusive j i name has leaves.had)

end Names
