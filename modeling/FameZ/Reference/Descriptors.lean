/-
Module: FameZ.Reference.Descriptors
Purpose: What the reference server holds open at any time, and that it gives
  everything back.
Trusted boundary: none
Main exports: held, Accounted, descriptors_held
-/
import FameZ.Reference.Connections

namespace FameZ.Reference

/-! Every failing path of a new connection and every end of one is a log of its
own; what the server holds is what its peers cost. -/

/-- What the server has open. -/
def held (s : State) : List Handle :=
  (if s.running then [.listener, .shm] else []) ++
    s.peerList.flatMap Peer.handles

/-- The log so far is legal and leaves what the server has open. -/
structure Accounted (env : Env) (s : State) : Prop where
  sound : Sound env s
  log : Custody.run 0 s.log = some (held s : Multiset Handle)
  stopped : s.running = false → s.peerList = []

namespace Accounted

variable {env : Env} {s t : State} {peer : Peer}

theorem init (env : Env) : Accounted env init :=
  ⟨Sound.init env, by decide, nofun⟩

theorem refused (kept : Accounted env s) (refused : Refused s t) :
    Accounted env t := by
  obtain ⟨log, logged, legal⟩ := refused.log
  refine ⟨kept.sound.refused refused, ?_, ?_⟩
  · rw [logged, Custody.run_append, kept.log, Option.bind_some, legal, held,
      held, refused.running, refused.peerList]
  · rw [refused.running, refused.peerList]
    exact kept.stopped

theorem joined (kept : Accounted env s) (joined : Joined env peer s t)
    (running : s.running = true) : Accounted env t := by
  refine ⟨kept.sound.joined joined, ?_, fun stopped => ?_⟩
  · rw [joined.log, Custody.run_append, kept.log, Option.bind_some,
      Custody.run_acquires, held, held, joined.running, joined.peerList,
      List.flatMap_append, List.flatMap_singleton, Multiset.coe_add]
    congr 1
    rw [Multiset.coe_eq_coe]
    refine (List.perm_append_comm_assoc ..).trans ?_
    exact List.perm_append_comm.append_left _
  · rw [joined.running, running] at stopped
    cases stopped

theorem left (kept : Accounted env s) (live : peer ∈ s.peerList)
    (left : Left env peer s t) : Accounted env t := by
  obtain ⟨back, same, logged⟩ := left.log
  refine ⟨kept.sound.left left, ?_, fun stopped => ?_⟩
  · have split : (held s : Multiset Handle) =
        (back : Multiset Handle) + (held t : Multiset Handle) := by
      have out := (List.perm_cons_erase live).flatMap_right Peer.handles
      rw [List.flatMap_cons] at out
      rw [held, held, left.running, left.peerList, Multiset.coe_add,
        Multiset.coe_eq_coe]
      refine (out.append_left _).trans ?_
      refine (List.perm_append_comm_assoc ..).trans ?_
      exact same.symm.append_right _
    rw [logged, Custody.run_append, kept.log, Option.bind_some, split,
      Custody.run_releases]
  · rw [left.running] at stopped
    rw [kept.stopped stopped] at live
    cases live

/-- The close of a server without peers. -/
theorem closed (kept : Accounted env s) (running : s.running = true)
    (empty : s.peerList = []) :
    Accounted env
      { (s.release .listener).release .shm with running := false } := by
  obtain ⟨curId, ids, small, socks, accepted, full, notifiers, made, fresh⟩ :=
    kept.sound
  refine ⟨⟨curId, ids, small, socks, accepted, full, notifiers, made, fresh⟩,
    ?_, fun _ => empty⟩
  have log : Custody.run 0 (s.log ++ [.release .listener, .release .shm]) =
      some 0 := by
    rw [Custody.run_append, kept.log, held, running, empty]
    decide
  have nothing : held
      { (s.release .listener).release .shm with running := false } = [] := by
    simp [held, State.release, empty]
  rw [nothing]
  simpa [State.release] using log

theorem step {label : Label} (kept : Accounted env s)
    (taken : step env s label = some t) : Accounted env t := by
  apply step_keeps (fun _ kept => kept.sound) _ _ _ _ kept taken
  · exact fun _ _ kept refused => kept.refused refused
  · exact fun _ _ _ kept running joined => kept.joined joined running
  · exact fun _ _ _ kept live left => kept.left live left
  · exact fun _ kept running empty => kept.closed running empty

end Accounted

/-- Over every run of any connections, failures and hang-ups: the server has
never released what it did not hold, it holds its two files and the socket, the
record and the notifiers of every live peer and nothing else, and once it has
stopped it has given everything back. -/
theorem descriptors_held (env : Env) {trace : List Label} {s : State}
    (reached : Transition.run (step env) init trace = some s) :
    Custody.run 0 s.log = some (held s : Multiset Handle) ∧
      (s.running = false → Custody.Settled s.log) := by
  have kept : Accounted env s :=
    Transition.run_preserves (fun _ _ _ kept taken => kept.step taken)
      (Accounted.init env) reached
  refine ⟨kept.log, fun stopped => ?_⟩
  rw [Custody.Settled, kept.log, held, stopped, kept.stopped stopped]
  rfl

/-- A connection that loses its fourth notifier, one that joins, and the end. -/
theorem descriptors_held_quit :
    let env : Env :=
      { nVectors := 4, net := fun _ => true, eventfd := fun init => init ≠ 3 }
    ∃ s, Transition.run (step env) init
        [.poll (some ⟨true, true⟩) [], .poll (some ⟨true, true⟩) [], .quit] =
          some s ∧
      Custody.run 0 s.log = some (held s : Multiset Handle) ∧
        (s.running = false → Custody.Settled s.log) := by
  intro env
  obtain ⟨s, reached⟩ : ∃ s, Transition.run (step env) init
      [.poll (some ⟨true, true⟩) [], .poll (some ⟨true, true⟩) [], .quit] =
        some s :=
    Option.isSome_iff_exists.mp (by decide)
  exact ⟨s, reached, descriptors_held env reached⟩

end FameZ.Reference
