/-
Module: FameZ.Monolithic.LostMessages
Purpose: Every event that is not spared costs the receiver a message.
Trusted boundary: none
Main exports: lost_of_answer, lost_of_store, lost_of_not_spared
-/
import FameZ.Monolithic.LegibleSlot

namespace FameZ.Monolithic.Readers

variable {config : Configuration} {s t : State} {i j r : Nat}

/-- A message that the handler is done with, with the pointer and the reads
elsewhere. -/
structure Lost (config : Configuration) (s : State) (i : Nat) : Prop where
  due : Due config s i
  returned : s.handler i = .idle
  away : s.legible ≠ some i
  unseen : ∀ r, (s.reader r).sight ≠ .on i

theorem Lost.not_accounted (lost : Lost config s i) : ¬ Accounted config s := by
  intro accounted
  have handled : Handled config s i :=
    ⟨lost.due.ours, lost.due.rung, lost.due.acknowledged, lost.returned⟩
  rcases accounted.legible i lost.due.busy handled with points | ⟨r, on⟩
  · exact lost.away points
  · exact lost.unseen r on

/-- What is lost at the end of a run was not accounted for. -/
theorem Lost.not_always {trace : List Label}
    (reached : Transition.run (step config) s trace = some t)
    (lost : Lost config t i) :
    ¬ Transition.Always (step config) (Accounted config) s trace :=
  fun always => lost.not_accounted (Transition.always_run always reached)

theorem famezSendmail_ok {peerId msglen ret : Nat} {msg : List UInt8}
    {slot new : Mailslot} {ringer : Ringer}
    (sent : famezSendmail config peerId msg msglen slot =
      .ok (ret, new, ringer)) : new = fillSlot peerId (msg.take msglen) slot := by
  unfold famezSendmail at sent
  split at sent
  · cases sent
  · split at sent
    · cases sent
    · split at sent
      · cases sent
      · cases sent
        rfl

/-- The reply empties no slot. -/
theorem pong_busy (busy : (s.slot i).msglen ≠ 0) :
    ((pong config i s).slot i).msglen ≠ 0 := by
  unfold pong
  split
  · exact busy
  · rename_i sent
    rw [famezSendmail_ok sent]
    by_cases mine : i = config.myId
    · simp [mine, fillSlot]
    · simp only [Function.update_of_ne mine]
      exact busy

/-- A ping that the handler answers keeps its slot busy. -/
theorem lost_of_answer (kept : Kept config s)
    (taken : step config s (.answer i) = some t) : ¬ Accounted config t := by
  simp only [step] at taken
  split at taken
  · rename_i pinged
    cases taken
    have due : Due config s i := kept.taken i (by rw [pinged]; rfl)
    intro accounted
    exact pong_busy due.busy (accounted.consumed i (Function.update_self ..))
  · cases taken

/-! ### A store that does not find NULL -/

/-- The handler has left its message when it is back or about to unlock. -/
theorem handler_past {handler : Handler} (past : handler.taken = false) :
    handler = .stored ∨ handler = .idle := by
  cases handler with
  | stored => exact .inl rfl
  | idle => exact .inr rfl
  | pinged => cases past
  | entering => cases past
  | queued => cases past
  | locked => cases past
  | badLock => cases past

/-- A read that has taken the pointer has its slot to copy or to empty. -/
theorem reader_on {reader : Reader} (on : reader.sight = .on i) :
    reader = .reading i ∨ ∃ result, reader = .copied i result := by
  cases reader with
  | reading k =>
      cases on
      exact .inl rfl
  | copied k result =>
      cases on
      exact .inr ⟨result, rfl⟩
  | _ => cases on

theorem reader_clearing {reader : Reader} (clearing : reader.sight = .clearing) :
    ∃ result, reader = .cleared result := by
  cases reader with
  | cleared result => exact ⟨result, rfl⟩
  | _ => cases clearing

/-- The state after the handler stored the pointer. -/
def installed (s : State) (i : Nat) (next : Handler) : State :=
  { s.setHandler i next with legible := some i }

theorem step_store (taken : step config s (.store i) = some t) :
    (s.handler i = .locked ∧ t = installed s i .stored) ∨
      (s.handler i = .badLock ∧ t = installed s i .idle) := by
  simp only [step] at taken
  split at taken
  · rename_i locked
    cases taken
    exact .inl ⟨locked, rfl⟩
  · rename_i badLock
    cases taken
    exact .inr ⟨badLock, rfl⟩
  · cases taken

theorem due_installed {next : Handler} :
    Due config (installed s i next) j ↔ Due config s j :=
  Kept.due_congr rfl rfl rfl rfl

theorem handler_installed {next : Handler} (other : j ≠ i) :
    (installed s i next).handler j = s.handler j :=
  Function.update_of_ne other ..

/-- The handler of the stomped message still has to unlock. -/
theorem lost_of_stored (kept : Kept config s) (due : Due config s j)
    (stored : s.handler j = .stored) (other : j ≠ i) (next : Handler) :
    ∃ rest u k, Transition.run (step config) (installed s i next) rest =
      some u ∧ Lost config u k := by
  have same := same_up (installed s i next)
  have unlocks : step config (installed s i next) (.unlock j) =
      some ((installed s i next).up.setHandler j .idle) := by
    simp only [step, handler_installed other, stored]
  refine ⟨[.unlock j], (installed s i next).up.setHandler j .idle, j, ?_, ?_,
    Function.update_self .., ?_, ?_⟩
  · rw [Transition.run_cons, unlocks]
    rfl
  · refine (Kept.due_congr ?_ ?_ ?_ ?_).mpr due
    · exact congrArg (fun slot => (slot j).msglen) same.slot
    · exact congrFun same.addressee j
    · exact congrFun same.sender j
    · exact congrFun same.pending j
  · change (installed s i next).up.legible ≠ some j
    rw [same.legible]
    exact fun points => other (Option.some.inj points).symm
  · intro r on
    have on : ((installed s i next).up.reader r).sight = .on j := on
    rw [same.sight] at on
    have on : (s.reader r).sight = .on j := on
    have reads : uses s (.reader r) = .inside :=
      inside_of_sight (sees_of_on on)
    have holds : uses s (.handler j) = .inside := congrArg Handler.use stored
    cases kept.mutex.exclusive reads holds

/-- A read that has taken the pointer from the stomped slot empties the other
one. -/
theorem lost_of_copied (kept : Kept config s) (due : Due config s j)
    (returned : s.handler j = .idle) (other : j ≠ i) (next : Handler)
    {result : Except Errno (List UInt8)} {before : State}
    (reads : uses s (.reader r) = .inside)
    (copies : before = (installed s i next).setReader r (.copied j result)) :
    ∃ u, Transition.run (step config) before [.clear r] = some u ∧
      Lost config u j := by
  subst copies
  have reader : ((installed s i next).setReader r
      (.copied j result)).reader r = .copied j result :=
    Function.update_self ..
  have clears : step config
      ((installed s i next).setReader r (.copied j result)) (.clear r) =
      some
        { ((installed s i next).setReader r (.copied j result)).setReader r
            (.cleared result) with
          slot := Function.update s.slot i { s.slot i with msglen := 0 } } := by
    simp only [step, reader]
    rfl
  refine ⟨_, by rw [Transition.run_cons, clears]; rfl, ?_, ?_, ?_, ?_⟩
  · refine ⟨?_, due.ours, due.rung, due.acknowledged⟩
    simp only [Function.update_of_ne other]
    exact due.busy
  · exact (handler_installed other).trans returned
  · exact fun points => other (Option.some.inj points).symm
  · intro q on
    have on : (Function.update (Function.update s.reader r _) r
      (.cleared result) q).sight = .on j := on
    by_cases same : q = r
    · rw [same, Function.update_self] at on
      cases on
    · rw [Function.update_of_ne same, Function.update_of_ne same] at on
      exact same (kept.alone (sees_of_on on) reads)

/-- A read that still has to copy from the stomped slot does so first. -/
theorem lost_of_reading (kept : Kept config s) (due : Due config s j)
    (returned : s.handler j = .idle) (other : j ≠ i) (next : Handler)
    (reading : s.reader r = .reading j) :
    ∃ u, Transition.run (step config) (installed s i next)
      [.copy r 0 (false, false), .clear r] = some u ∧ Lost config u j := by
  have reads : uses s (.reader r) = .inside := congrArg Reader.use reading
  obtain ⟨u, reached, lost⟩ := lost_of_copied kept due returned other next
    reads rfl
  have copies : step config (installed s i next) (.copy r 0 (false, false)) =
      some ((installed s i next).setReader r
        (.copied j (bridgeRead (s.slot j) (s.slot i) 0 (false, false)))) := by
    have reader : (installed s i next).reader r = .reading j := reading
    simp only [step, reader]
    rfl
  refine ⟨u, ?_, lost⟩
  rw [Transition.run_cons, copies]
  exact reached

/-- The pointer is taken off a message that the handler has left. -/
theorem lost_of_stomp (kept : Kept config s) (due : Due config s j)
    (past : (s.handler j).taken = false) (other : j ≠ i) (next : Handler) :
    ∃ rest u k, Transition.run (step config) (installed s i next) rest =
      some u ∧ Lost config u k := by
  rcases handler_past past with stored | returned
  · exact lost_of_stored kept due stored other next
  by_cases seen : ∃ r, (s.reader r).sight = .on j
  · obtain ⟨r, on⟩ := seen
    have reads : uses s (.reader r) = .inside :=
      inside_of_sight (sees_of_on on)
    rcases reader_on on with reading | ⟨result, copied⟩
    · obtain ⟨u, reached, lost⟩ :=
        lost_of_reading kept due returned other next reading
      exact ⟨_, u, j, reached, lost⟩
    · have same : installed s i next =
          (installed s i next).setReader r (.copied j result) := by
        unfold State.setReader
        have reader : (installed s i next).reader r = .copied j result := copied
        rw [← reader, Function.update_eq_self]
      obtain ⟨u, reached, lost⟩ := lost_of_copied kept due returned other next
        reads same
      exact ⟨[.clear r], u, j, reached, lost⟩
  · refine ⟨[], installed s i next, j, rfl, due_installed.mpr due, ?_, ?_, ?_⟩
    · exact (handler_installed other).trans returned
    · exact fun points => other (Option.some.inj points).symm
    · exact fun r on => seen ⟨r, on⟩

/-- A read that is about to store NULL does so over the new pointer. -/
theorem lost_of_cleared (kept : Kept config s) (due : Due config s i)
    (clearing : (s.reader r).sight = .clearing) :
    ∃ rest u k, Transition.run (step config) (installed s i .idle) rest =
      some u ∧ Lost config u k := by
  have reads : uses s (.reader r) = .inside :=
    inside_of_sight (sees_of_clearing clearing)
  obtain ⟨result, cleared⟩ := reader_clearing clearing
  have forgets : step config (installed s i .idle) (.forget r) =
      some { (installed s i .idle).setReader r (.forgotten result) with
        legible := none } := by
    have cleared : (installed s i .idle).reader r = .cleared result := cleared
    simp only [step, cleared]
  refine ⟨[.forget r], { (installed s i .idle).setReader r (.forgotten result)
      with legible := none }, i, ?_, ?_, Function.update_self ..,
      (Option.some_ne_none i).symm, ?_⟩
  · rw [Transition.run_cons, forgets]
    rfl
  · exact ⟨due.busy, due.ours, due.rung, due.acknowledged⟩
  · intro q on
    have on : (Function.update s.reader r (.forgotten result) q).sight =
      .on i := on
    by_cases same : q = r
    · rw [same, Function.update_self] at on
      cases on
    · rw [Function.update_of_ne same] at on
      exact same (kept.alone (sees_of_on on) reads)

theorem lost_of_store (kept : Kept config s) (crowded : s.legible ≠ none)
    (taken : step config s (.store i) = some t) :
    ∃ rest u k, Transition.run (step config) t rest = some u ∧
      Lost config u k := by
  obtain ⟨j, points⟩ := Option.ne_none_iff_exists'.mp crowded
  rcases kept.live j points with ⟨due, past⟩ | ⟨r, clearing⟩
  · rcases step_store taken with ⟨locked, rfl⟩ | ⟨badLock, rfl⟩
    · have other : j ≠ i := by
        rintro rfl
        rw [locked] at past
        cases past
      exact lost_of_stomp kept due past other _
    · have other : j ≠ i := by
        rintro rfl
        rw [badLock] at past
        cases past
      exact lost_of_stomp kept due past other _
  · have reads : uses s (.reader r) = .inside :=
      inside_of_sight (sees_of_clearing clearing)
    rcases step_store taken with ⟨locked, rfl⟩ | ⟨badLock, rfl⟩
    · have holds : uses s (.handler i) = .inside :=
        congrArg Handler.use locked
      exact nomatch kept.mutex.exclusive reads holds
    · exact lost_of_cleared kept (kept.taken i (by rw [badLock]; rfl)) clearing

/-- After a run of spared events, one that is not spared can be followed to a
state with a message that nobody accounts for. -/
theorem lost_of_not_spared {trace : List Label} {label : Label}
    (spared : Transition.Meets (step config) Spared (init config) trace)
    (reached : Transition.run (step config) (init config) trace = some s)
    (bare : ¬ Spared s label) (taken : step config s label = some t) :
    ∃ rest, ¬ Transition.Always (step config) (Accounted config) t rest := by
  have kept : Kept config s := Transition.run_invariant
    (fun _ _ _ kept spared taken => Kept.step kept spared (step_moves taken))
    (Kept.init config) spared reached
  cases label with
  | answer i =>
      exact ⟨[], fun always => lost_of_answer kept taken always.1⟩
  | store i =>
      obtain ⟨rest, u, k, ends, lost⟩ := lost_of_store kept bare taken
      exact ⟨rest, lost.not_always ends⟩
  | _ => exact absurd trivial bare

end FameZ.Monolithic.Readers
