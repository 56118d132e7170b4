/-
Module: FameZ.Kernel.Ownership
Purpose: When the posted message of one adapter's slot is the message of the
  call that rang.
Trusted boundary: none
Main exports: Intact, OnePass, Exclusive, Solo, Mine, owned_iff_exclusive
-/
import FameZ.Kernel.Outgoing
import Mathlib.Data.List.Nodup

namespace FameZ.Kernel.Outgoing

/-!
Between the idle check of a call and its store of buflen the slot still looks
idle.  If nobody else checks in that window, the slot has one user at a time.
-/

/-- From its doorbell until its peer takes the message, the slot holds the
length, the body and the responder of a call that returned a count. -/
def Intact (s : State) : Prop :=
  ∀ c call, s.phase c = .posted call →
    s.slot.buflen = call.buf.length ∧
      s.slot.lastResponder = call.peerId ∧
      s.slot.buf.take call.buf.length = call.buf

/-- No two calls passed the idle check in one idle period. -/
def OnePass (s : State) : Prop := (s.passes.map Prod.snd).Nodup

/-- The condition on one event: an idle check passes only when no other call is
between its own check and its store of buflen. -/
def Exclusive (s : State) : Label → Prop
  | .check _ =>
      s.slot.buflen = 0 → ∀ c call, s.phase c ≠ .storing .sawIdle call
  | _ => True

/-- The call is past its check and its message has not been taken. -/
def Phase.active : Phase → Bool
  | .storing _ _ => true
  | .posted _ => true
  | _ => false

/-- The call of a phase. -/
def Phase.call : Phase → Option Call
  | .waiting call _ => some call
  | .storing _ call => some call
  | .posted call => some call
  | _ => none

/-- What the call has stored by now. -/
def Contents (call : Call) (slot : Mailslot) : Stage → Prop
  | .sawIdle => slot.buflen = 0
  | .wroteBuflen => slot.buflen = call.buf.length
  | .wroteNul => slot.buflen = call.buf.length
  | .wroteResponder =>
      slot.buflen = call.buf.length ∧ slot.lastResponder = call.peerId
  | .wroteBody =>
      slot.buflen = call.buf.length ∧ slot.lastResponder = call.peerId ∧
        slot.buf.take call.buf.length = call.buf

theorem contents_store {call : Call} {slot after : Mailslot}
    {stage next : Stage} (contents : Contents call slot stage)
    (stores : store stage call slot = some (next, after)) :
    Contents call after next := by
  cases stage with
  | sawIdle =>
      cases stores
      rfl
  | wroteBuflen =>
      cases stores
      exact contents
  | wroteNul =>
      cases stores
      exact ⟨contents, rfl⟩
  | wroteResponder =>
      cases stores
      exact ⟨contents.1, contents.2, List.take_left ..⟩
  | wroteBody => cases stores

/-- Only the first stage finds the slot idle. -/
theorem stage_of_idle {call : Call} {slot : Mailslot} {stage : Stage}
    (contents : Contents call slot stage) (nonempty : call.buf ≠ [])
    (idle : slot.buflen = 0) : stage = .sawIdle := by
  have length : call.buf.length ≠ 0 := fun none =>
    nonempty (List.length_eq_zero_iff.mp none)
  cases stage with
  | sawIdle => rfl
  | wroteBuflen => exact False.elim (length (contents.symm.trans idle))
  | wroteNul => exact False.elim (length (contents.symm.trans idle))
  | wroteResponder => exact False.elim (length (contents.1.symm.trans idle))
  | wroteBody => exact False.elim (length (contents.1.symm.trans idle))

/-- At most one call uses the slot. -/
inductive Solo (s : State) : Prop where
  | quiet (empty : s.slot.buflen = 0)
      (nobody : ∀ c, (s.phase c).active = false)
      (unrung : ∀ peer, s.rung peer = 0)
      (past : ∀ pass ∈ s.passes, pass.2 < s.period)
  | storing {c : Nat} {stage : Stage} {call : Call}
      (phase : s.phase c = .storing stage call)
      (only : ∀ other, (s.phase other).active = true → other = c)
      (contents : Contents call s.slot stage)
      (unrung : ∀ peer, s.rung peer = 0)
      (past : ∀ pass ∈ s.passes, pass.2 ≤ s.period)
      (mine : (c, s.period) ∈ s.passes)
  | posted {c : Nat} {call : Call} (phase : s.phase c = .posted call)
      (only : ∀ other, (s.phase other).active = true → other = c)
      (contents : Contents call s.slot .wroteBody)
      (rung : ∀ peer, s.rung peer = if peer = call.peerId then 1 else 0)
      (past : ∀ pass ∈ s.passes, pass.2 ≤ s.period)

/-- The invariant of runs whose checks are exclusive. -/
structure Mine (s : State) : Prop where
  solo : Solo s
  nonempty : ∀ c call, (s.phase c).call = some call → call.buf ≠ []
  onePass : OnePass s

namespace Mine

variable {s t : State} {label : Label}

theorem init : Mine init :=
  ⟨.quiet rfl (fun _ => rfl) (fun _ => rfl) nofun, fun _ _ => nofun,
    List.nodup_nil⟩

/-- A call past its check is the only one. -/
theorem holder (mine : Mine s) {c : Nat} {phase : Phase}
    (at_ : s.phase c = phase) (active : phase.active = true) :
    (∀ other, (s.phase other).active = true → other = c) ∧
      (∀ pass ∈ s.passes, pass.2 ≤ s.period) ∧
      ((∃ stage call, phase = .storing stage call ∧
          Contents call s.slot stage ∧ (∀ peer, s.rung peer = 0) ∧
          (c, s.period) ∈ s.passes) ∨
        ∃ call, phase = .posted call ∧ Contents call s.slot .wroteBody) := by
  subst at_
  cases mine.solo with
  | quiet empty nobody unrung past =>
      rw [nobody c] at active
      cases active
  | storing other only contents unrung past pass =>
      obtain rfl := only c active
      exact ⟨only, past, .inl ⟨_, _, other, contents, unrung, pass⟩⟩
  | posted other only contents rung past =>
      obtain rfl := only c active
      exact ⟨only, past, .inr ⟨_, other, contents⟩⟩

theorem intact (mine : Mine s) : Intact s := by
  intro c call phase
  rcases (mine.holder phase rfl).2.2 with
    ⟨stage, other, wrong, -⟩ | ⟨other, same, contents⟩
  · cases wrong
  · cases same
    exact contents

/-- Only the call that moves can change its phase, and to a call with a
body. -/
theorem nonempty_update (mine : Mine s) {c : Nat} {phase : Phase}
    (phases : t.phase = Function.update s.phase c phase)
    (new : ∀ call, phase.call = some call → call.buf ≠ []) :
    ∀ other call, (t.phase other).call = some call → call.buf ≠ [] := by
  intro other call holds
  rw [phases] at holds
  by_cases same : other = c
  · rw [same, Function.update_self] at holds
    exact new call holds
  · rw [Function.update_of_ne same] at holds
    exact mine.nonempty other call holds

/-- A call that is not past its check moves on without passing it. -/
theorem inactive (mine : Mine s) {c : Nat} {phase : Phase}
    (phases : t.phase = Function.update s.phase c phase)
    (before : (s.phase c).active = false) (after : phase.active = false)
    (new : ∀ call, phase.call = some call → call.buf ≠ [])
    (slot : t.slot = s.slot) (rung : t.rung = s.rung)
    (period : t.period = s.period) (passes : t.passes = s.passes) :
    Mine t := by
  have active : ∀ other, (t.phase other).active = (s.phase other).active := by
    intro other
    rw [phases]
    by_cases same : other = c
    · rw [same, Function.update_self, before, after]
    · rw [Function.update_of_ne same]
  have stays : ∀ other, (s.phase other).active = true →
      t.phase other = s.phase other := by
    intro other is
    rw [phases]
    apply Function.update_of_ne
    rintro rfl
    rw [before] at is
    cases is
  refine ⟨?_, mine.nonempty_update phases new, ?_⟩
  · cases mine.solo with
    | quiet empty nobody unrung past =>
        refine .quiet (by rw [slot]; exact empty)
          (fun other => (active other).trans (nobody other))
          (by rw [rung]; exact unrung) (by rw [passes, period]; exact past)
    | storing at_ only contents unrung past pass =>
        rename_i owner stage call
        refine .storing ((stays owner (by rw [at_]; rfl)).trans at_)
          (fun other is => only other ((active other).symm.trans is))
          (by rw [slot]; exact contents) (by rw [rung]; exact unrung)
          (by rw [passes, period]; exact past)
          (by rw [passes, period]; exact pass)
    | posted at_ only contents rings past =>
        rename_i owner call
        refine .posted ((stays owner (by rw [at_]; rfl)).trans at_)
          (fun other is => only other ((active other).symm.trans is))
          (by rw [slot]; exact contents) (by rw [rung]; exact rings)
          (by rw [passes, period]; exact past)
  · rw [OnePass, passes]
    exact mine.onePass

/-- An exclusive check finds nobody using the slot. -/
theorem quiet_of_check (mine : Mine s) (idle : s.slot.buflen = 0)
    (exclusive : ∀ c call, s.phase c ≠ .storing .sawIdle call) :
    (∀ c, (s.phase c).active = false) ∧ (∀ peer, s.rung peer = 0) ∧
      ∀ pass ∈ s.passes, pass.2 < s.period := by
  cases mine.solo with
  | quiet empty nobody unrung past => exact ⟨nobody, unrung, past⟩
  | storing phase only contents unrung past pass =>
      rename_i c stage call
      have nonempty := mine.nonempty c call (by rw [phase]; rfl)
      have first := stage_of_idle contents nonempty idle
      rw [first] at phase
      exact False.elim (exclusive c call phase)
  | posted phase only contents rung past =>
      rename_i c call
      have nonempty := mine.nonempty c call (by rw [phase]; rfl)
      have first := stage_of_idle contents nonempty idle
      cases first

theorem onePass_append {passes : List (Nat × Nat)} {c period : Nat}
    (nodup : (passes.map Prod.snd).Nodup)
    (past : ∀ pass ∈ passes, pass.2 < period) :
    ((passes ++ [(c, period)]).map Prod.snd).Nodup := by
  rw [List.map_append, List.nodup_append]
  refine ⟨nodup, List.nodup_singleton _, ?_⟩
  intro old member new newMember same
  obtain ⟨pass, inside, rfl⟩ := List.mem_map.mp member
  rw [List.map_singleton, List.mem_singleton] at newMember
  exact Nat.lt_irrefl _ (newMember ▸ same ▸ past pass inside)

theorem check (mine : Mine s) {c restarts : Nat} {call : Call}
    (phase : s.phase c = .waiting call restarts) (idle : s.slot.buflen = 0)
    (exclusive : ∀ c call, s.phase c ≠ .storing .sawIdle call) :
    Mine
      { s.setPhase c (.storing .sawIdle call) with
        passes := s.passes ++ [(c, s.period)] } := by
  obtain ⟨nobody, unrung, past⟩ := mine.quiet_of_check idle exclusive
  refine ⟨.storing (Function.update_self ..) ?_ idle unrung ?_ ?_, ?_,
    onePass_append mine.onePass past⟩
  · intro other is
    by_contra differ
    simp only [phase_setPhase, Function.update_of_ne differ, nobody] at is
    cases is
  · intro pass member
    rcases List.mem_append.mp member with old | new
    · exact Nat.le_of_lt (past pass old)
    · rw [List.mem_singleton] at new
      rw [new]
      exact Nat.le_refl _
  · exact List.mem_append_right _ (List.mem_singleton_self _)
  · refine mine.nonempty_update rfl fun other same => ?_
    cases same
    exact mine.nonempty c call (by rw [phase]; rfl)

/-- The one call in its stores. -/
theorem of_storing (mine : Mine s) {c : Nat} {stage : Stage} {call : Call}
    (phase : s.phase c = .storing stage call) :
    (∀ other, (s.phase other).active = true → other = c) ∧
      Contents call s.slot stage ∧ (∀ peer, s.rung peer = 0) ∧
      (∀ pass ∈ s.passes, pass.2 ≤ s.period) ∧
      (c, s.period) ∈ s.passes := by
  obtain ⟨only, past, owns⟩ := mine.holder phase rfl
  rcases owns with ⟨_, _, same, contents, unrung, pass⟩ | ⟨_, wrong, -⟩
  · cases same
    exact ⟨only, contents, unrung, past, pass⟩
  · cases wrong

theorem only_update {c : Nat} {phase : Phase}
    (only : ∀ other, (s.phase other).active = true → other = c)
    (phases : t.phase = Function.update s.phase c phase) :
    ∀ other, (t.phase other).active = true → other = c := by
  intro other is
  by_contra differ
  rw [phases, Function.update_of_ne differ] at is
  exact differ (only other is)

theorem store (mine : Mine s) {c : Nat} {stage next : Stage} {call : Call}
    {slot : Mailslot} (phase : s.phase c = .storing stage call)
    (stores : Outgoing.store stage call s.slot = some (next, slot)) :
    Mine { s.setPhase c (.storing next call) with slot := slot } := by
  obtain ⟨only, contents, unrung, past, pass⟩ := mine.of_storing phase
  refine ⟨.storing (Function.update_self ..) (only_update only rfl)
    (contents_store contents stores) unrung past pass, ?_, mine.onePass⟩
  refine mine.nonempty_update rfl fun other same => ?_
  cases same
  exact mine.nonempty c call (by rw [phase]; rfl)

theorem ring (mine : Mine s) {c : Nat} {call : Call} {mutex : Option Nat}
    (phase : s.phase c = .storing .wroteBody call) :
    Mine
      { s.setPhase c (.posted call) with
        rung := Function.update s.rung call.peerId (s.rung call.peerId + 1)
        wbufMutex := mutex } := by
  obtain ⟨only, contents, unrung, past, -⟩ := mine.of_storing phase
  refine ⟨.posted (Function.update_self ..) (only_update only rfl) contents
    (fun peer => ?_) past, ?_, mine.onePass⟩
  · by_cases same : peer = call.peerId
    · simp [same, unrung]
    · simp [same, unrung]
  · refine mine.nonempty_update rfl fun other same => ?_
    cases same
    exact mine.nonempty c call (by rw [phase]; rfl)

theorem taken_of_inactive {peer : Nat} {phase : Phase}
    (quiet : phase.active = false) : phase.taken peer = phase := by
  cases phase with
  | posted call => cases quiet
  | _ => rfl

theorem call_taken {peer : Nat} {phase : Phase} {call : Call}
    (holds : (phase.taken peer).call = some call) :
    phase.call = some call := by
  cases phase with
  | posted other =>
      rw [Phase.taken] at holds
      split at holds
      · cases holds
      · exact holds
  | _ => exact holds

/-- Only the addressee of the posted message can take it, and that ends the
idle slot's use. -/
theorem clear (mine : Mine s) {peer : Nat} (rung : s.rung peer ≠ 0) :
    Mine
      { s with
        slot := { s.slot with buflen := 0 }
        phase := fun c => (s.phase c).taken peer
        rung := Function.update s.rung peer (s.rung peer - 1)
        period := if s.slot.buflen = 0 then s.period else s.period + 1 } := by
  refine ⟨?_, fun c call holds => mine.nonempty c call (call_taken holds),
    mine.onePass⟩
  cases mine.solo with
  | quiet empty nobody unrung past => exact False.elim (rung (unrung peer))
  | storing phase only contents unrung past pass =>
      exact False.elim (rung (unrung peer))
  | posted phase only contents rings past =>
      rename_i c call
      have nonempty := mine.nonempty c call (by rw [phase]; rfl)
      have busy : s.slot.buflen ≠ 0 := by
        rw [contents.1]
        exact fun none => nonempty (List.length_eq_zero_iff.mp none)
      have addressee : peer = call.peerId := by
        by_contra differ
        exact rung ((rings peer).trans (if_neg differ))
      refine .quiet rfl (fun other => ?_) (fun other => ?_) fun pass member => ?_
      · by_cases same : other = c
        · rw [same]
          simp only [phase, Phase.taken, if_pos addressee.symm]
          rfl
        · have quiet : (s.phase other).active = false := by
            rw [Bool.eq_false_iff]
            exact fun is => same (only other is)
          simp only [taken_of_inactive quiet]
          exact quiet
      · by_cases same : other = peer
        · simp [same, rings, addressee]
        · simp only [Function.update_of_ne same, rings]
          exact if_neg fun equal => same (equal.trans addressee.symm)
      · simp only [if_neg busy]
        exact Nat.lt_succ_of_le (past pass member)

/-- An exclusive event keeps the slot in one hand. -/
theorem step (mine : Mine s) (exclusive : Exclusive s label)
    (moves : Moves s label t) : Mine t := by
  cases moves with
  | entered fresh body =>
      refine mine.inactive rfl (by rw [fresh]; rfl) rfl ?_ rfl rfl rfl rfl
      intro call same
      cases same
      exact body
  | rejected fresh =>
      exact mine.inactive rfl (by rw [fresh]; rfl) rfl (fun _ => nofun) rfl rfl
        rfl rfl
  | check phase idle => exact mine.check phase idle (exclusive idle)
  | retry phase =>
      refine mine.inactive rfl (by rw [phase]; rfl) rfl ?_ rfl rfl rfl rfl
      intro call same
      cases same
      exact mine.nonempty _ _ (by rw [phase]; rfl)
  | gaveUp phase =>
      exact mine.inactive rfl (by rw [phase]; rfl) rfl (fun _ => nofun) rfl rfl
        rfl rfl
  | store phase stores => exact mine.store phase stores
  | ring phase => exact mine.ring phase
  | clear rung => exact mine.clear rung

/-- A check in somebody's window makes two passes of one idle period. -/
theorem step_broken (mine : Mine s) (shared : ¬ Exclusive s label)
    (moves : Moves s label t) : ¬ (Intact t ∧ OnePass t) := by
  rintro ⟨-, onePass⟩
  cases moves with
  | check phase idle =>
      simp only [Exclusive, Classical.not_imp, Classical.not_forall,
        not_not] at shared
      obtain ⟨-, other, call, window⟩ := shared
      obtain ⟨-, -, -, -, pass⟩ := mine.of_storing window
      rw [OnePass, List.map_append, List.nodup_append] at onePass
      exact onePass.2.2 s.period (List.mem_map.mpr ⟨_, pass, rfl⟩) s.period
        (List.mem_singleton_self _) rfl
  | entered => exact shared trivial
  | rejected => exact shared trivial
  | retry => exact shared trivial
  | gaveUp => exact shared trivial
  | store => exact shared trivial
  | ring => exact shared trivial
  | clear => exact shared trivial

end Mine

/-- Over every interleaving of writes and link replies on one adapter with the
peers that take their messages: in every state reached each posted message is
that of the call that rang and no two calls passed the idle check in one idle
period, if and only if every passing check finds no other call between its
check and its store of buflen. -/
theorem owned_iff_exclusive (serverId maxBuflen : Nat)
    (trace : List Label) :
    Transition.Always (step serverId maxBuflen)
        (fun s => Intact s ∧ OnePass s) init trace ↔
      Transition.Meets (step serverId maxBuflen) Exclusive init trace :=
  Transition.always_iff_meets
    (fun _ _ _ mine exclusive taken => mine.step exclusive (step_moves taken))
    (fun _ mine => ⟨mine.intact, mine.onePass⟩)
    (fun _ _ _ mine shared taken => mine.step_broken shared (step_moves taken))
    Mine.init

/-- A write to peer 2 and a reply to peer 1 both see the slot idle; the reply is
posted over the write before peer 2 takes it. -/
theorem write_stomped_by_reply :
    ¬ Transition.Always (step 4 384) (fun s => Intact s ∧ OnePass s) init
        [.start 0 .bridgeWrite 2 (-42) [104, 105, 33],
          .start 1 .linkRequest 1 (-42) [112, 111, 110, 103],
          .check 0, .check 1,
          .store 0, .store 0, .store 0, .store 0, .ring 0,
          .store 1, .store 1, .store 1, .store 1, .ring 1] := by
  intro always
  obtain ⟨intact, -⟩ := Transition.always_run always rfl
  obtain ⟨length, -⟩ := intact 0 _ rfl
  exact absurd length (by decide)

end FameZ.Kernel.Outgoing
