/-
Module: FameZ.Lib.WaitGraph
Purpose: Circular waits: sets of waiters that wait for one another, cycles, and
  who is free where there is none.
Trusted boundary: none
Main exports: Circular, Acyclic, acyclic_iff_no_circular, Acyclic.mono,
  acyclic_of_lt, exists_free
-/
import Mathlib.Data.Fintype.Card
import Mathlib.Data.Set.Finite.Basic
import Mathlib.Logic.Relation
import Mathlib.Order.WellFounded

namespace WaitGraph

open Relation

variable {α : Type*}

/-- No waiter waits for itself, however indirectly. -/
def Acyclic (waits : α → α → Prop) : Prop := ∀ p, ¬ TransGen waits p p

/-- A non-empty set in which everyone waits for a member. -/
def Circular (waits : α → α → Prop) (waiters : Finset α) : Prop :=
  waiters.Nonempty ∧ ∀ p ∈ waiters, ∃ q ∈ waiters, waits p q

/-- The nodes of a path are a finite set closed up to its end. -/
theorem exists_closed_of_transGen [DecidableEq α] {waits : α → α → Prop}
    {p q : α} (path : TransGen waits p q) :
    ∃ nodes : Finset α, p ∈ nodes ∧
      ∀ x ∈ nodes, ∃ y, waits x y ∧ (y ∈ nodes ∨ y = q) := by
  induction path using TransGen.head_induction_on with
  | single edge =>
      refine ⟨{_}, Finset.mem_singleton_self _, fun x member => ?_⟩
      rw [Finset.mem_singleton] at member
      exact ⟨q, member ▸ edge, Or.inr rfl⟩
  | head edge _ inductionHypothesis =>
      obtain ⟨nodes, start, closed⟩ := inductionHypothesis
      refine ⟨insert _ nodes, Finset.mem_insert_self .., fun x member => ?_⟩
      rcases Finset.mem_insert.mp member with first | later
      · exact ⟨_, first ▸ edge, Or.inl (Finset.mem_insert_of_mem start)⟩
      · obtain ⟨y, next, inside⟩ := closed x later
        exact ⟨y, next, inside.imp_left (Finset.mem_insert_of_mem ·)⟩

/-- On a finite set an acyclic relation has a member that waits for nobody in
the set. -/
theorem exists_last {waits : α → α → Prop} (acyclic : Acyclic waits)
    {nodes : Finset α} (nonempty : nodes.Nonempty) :
    ∃ p ∈ nodes, ∀ q ∈ nodes, ¬ waits p q := by
  let later : nodes → nodes → Prop := fun x y => TransGen waits y.1 x.1
  have trans : IsTrans nodes later :=
    ⟨fun _ _ _ first second => second.trans first⟩
  have irrefl : Std.Irrefl later := ⟨fun x => acyclic x.1⟩
  have wellFounded := Finite.wellFounded_of_trans_of_irrefl later
  obtain ⟨start, member⟩ := nonempty
  obtain ⟨last, -, minimal⟩ :=
    wellFounded.has_min Set.univ ⟨⟨start, member⟩, trivial⟩
  refine ⟨last.1, last.2, fun q inside edge => ?_⟩
  exact minimal ⟨q, inside⟩ trivial (TransGen.single edge)

/-- There is a circular set exactly when there is a cycle. -/
theorem acyclic_iff_no_circular {waits : α → α → Prop} :
    Acyclic waits ↔ ∀ waiters, ¬ Circular waits waiters := by
  classical
  constructor
  · intro acyclic waiters circular
    obtain ⟨p, member, last⟩ := exists_last acyclic circular.1
    obtain ⟨q, inside, edge⟩ := circular.2 p member
    exact last q inside edge
  · intro none p path
    obtain ⟨nodes, start, closed⟩ := exists_closed_of_transGen path
    refine none nodes ⟨⟨p, start⟩, fun x member => ?_⟩
    obtain ⟨y, edge, inside⟩ := closed x member
    rcases inside with inside | rfl
    · exact ⟨y, inside, edge⟩
    · exact ⟨y, start, edge⟩

/-- Fewer edges close no cycle. -/
theorem Acyclic.mono {old new : α → α → Prop} (acyclic : Acyclic old)
    (edges : ∀ p q, new p q → old p q) : Acyclic new :=
  fun p path => acyclic p (TransGen.mono edges p p path)

/-- Whoever waits only for those below closes no cycle. -/
theorem acyclic_of_lt {waits : α → α → Prop} (rank : α → Nat)
    (lower : ∀ p q, waits p q → rank q < rank p) : Acyclic waits := by
  have descends : ∀ p q, TransGen waits p q → rank q < rank p := by
    intro p q path
    induction path with
    | single edge => exact lower _ _ edge
    | tail _ edge inductionHypothesis =>
        exact Nat.lt_trans (lower _ _ edge) inductionHypothesis
  exact fun p path => Nat.lt_irrefl _ (descends p p path)

/-- In an acyclic relation with finitely many waiters, whoever waits waits in
the end for someone who does not. -/
theorem exists_free {waits : α → α → Prop} (acyclic : Acyclic waits)
    {waiters : Finset α} (every : ∀ p q, waits p q → p ∈ waiters) (p : α) :
    ∃ q, ReflTransGen waits p q ∧ ∀ r, ¬ waits q r := by
  classical
  by_contra stuck
  have onward : ∀ q, ReflTransGen waits p q → ∃ r, waits q r := by
    intro q path
    by_contra ends
    exact stuck ⟨q, path, fun r edge => ends ⟨r, edge⟩⟩
  obtain ⟨first, edge⟩ := onward p ReflTransGen.refl
  have started : (waiters.filter fun q => ReflTransGen waits p q).Nonempty :=
    ⟨p, Finset.mem_filter.mpr ⟨every p first edge, ReflTransGen.refl⟩⟩
  obtain ⟨last, member, none⟩ := exists_last acyclic started
  have path := (Finset.mem_filter.mp member).2
  obtain ⟨next, edge⟩ := onward last path
  obtain ⟨beyond, further⟩ := onward next (path.tail edge)
  exact none next (Finset.mem_filter.mpr
    ⟨every next beyond further, path.tail edge⟩) edge

end WaitGraph
