/-
Module: FameZ.Mailbox.CircularWait
Purpose: When peers that wait for their mailslots wait for one another, and why
  no `fill` has to time out where they do not.
Trusted boundary: none
Main exports: Occupied, waits, NoCircularWait, Behind, Uncircled, Carried,
  Tidy, State.work, no_circular_wait
-/
import FameZ.Lib.WaitGraph
import FameZ.Mailbox.Delivery
import Mathlib.Algebra.BigOperators.Group.Finset.Piecewise
import Mathlib.Algebra.BigOperators.Ring.List
import Mathlib.Algebra.Order.BigOperators.Group.Finset
import Mathlib.Algebra.Ring.Nat
import Mathlib.Data.Finset.Prod

namespace FameZ.Mailbox

open Relation WaitGraph

/-!
A thread that waits for its slot runs no callback, so the message in the slot
is picked up only if its addressee is not itself waiting.  The code puts no
order on sends: a circle of waits is broken by the timeout alone.
-/

/-- The slot the thread waits for. -/
def Phase.waitsOn : Phase → Option Nat
  | .fill .waiting send _ => some send.sender
  | _ => none

/-- The slot holds a message addressed to `dest`. -/
def Occupied (s : State) (i dest : Nat) : Prop :=
  (s.slot i).msglen ≠ 0 ∧
    (s.slot i).sent.getLast?.map Prod.fst = some dest

/-- `p` sits in `fill`, and the message in the slot is addressed to `dest`. -/
def waits (s : State) (p dest : Nat) : Prop :=
  ∃ i, (s.phase p).waitsOn = some i ∧ Occupied s i dest

/-- No set of peers each of which is blocked by a message to a member. -/
def NoCircularWait (s : State) : Prop :=
  ∀ peers : Finset Nat, ¬ Circular (waits s) peers

/-! ### The condition on commands and replies -/

/-- The sends of a thread that are not in their slot yet. -/
def Phase.unposted : Phase → List Send
  | .fill .waiting send rest => send :: rest
  | .fill .sawEmpty send rest => send :: rest
  | .fill _ _ rest => rest
  | _ => []

/-- The sends of every thread that are not in their slot yet. -/
def State.unposted (s : State) (p : Nat) : List Send := (s.phase p).unposted

/-- `p` has a send to make that a message to `dest` comes before: one that lies
in its slot, an earlier send of `p` through the slot, or a send of another
thread through it. -/
def Behind (occupied : Nat → Nat → Prop) (unposted : Nat → List Send)
    (p dest : Nat) : Prop :=
  ∃ before send after, unposted p = before ++ send :: after ∧
    (occupied send.sender dest ∨
      (∃ earlier ∈ before,
        earlier.sender = send.sender ∧ earlier.dest = dest) ∨
      ∃ q, q ≠ p ∧ ∃ other ∈ unposted q,
        other.sender = send.sender ∧ other.dest = dest)

/-- The new sends of `p`, beside all that are under way, are not addressed in a
circle: no peer is behind a message to itself, however indirectly. -/
def Unentangled (s : State) (p : Nat) (sends : List Send) : Prop :=
  Acyclic (Behind (Occupied s) (Function.update s.unposted p sends))

/-- The condition on an event: a command goes to peers, and neither a command
nor a reply is addressed in a circle. -/
def Uncircled (serverId : Nat) (s : State) : Label → Prop
  | .command p sources dests msg tracker =>
      (∀ D ∈ dests, IsPeer serverId D) ∧
        Unentangled s p (placeAndGo sources dests msg tracker)
  | .handled p reply =>
      ∀ source msg, s.phase p = .handling source msg →
        Unentangled s p (replies p source reply)
  | _ => True

/-! ### Who is behind whom -/

section Edges

variable {serverId : Nat} {s t : State} {label : Label}
  {occupied occupied' : Nat → Nat → Prop}
  {unposted unposted' : Nat → List Send}

/-- Emptied slots and sends given up put nobody behind anyone. -/
theorem Behind.mono
    (slots : ∀ i dest, occupied' i dest → occupied i dest)
    (fewer : ∀ q, unposted' q = unposted q ∨ unposted' q = [])
    {p dest : Nat} (behind : Behind occupied' unposted' p dest) :
    Behind occupied unposted p dest := by
  have kept : ∀ q sends, unposted' q = sends → sends ≠ [] →
      unposted q = sends := by
    intro q sends equal nonempty
    rcases fewer q with same | none
    · rw [← same, equal]
    · exact False.elim (nonempty (equal.symm.trans none))
  obtain ⟨before, send, after, split, ahead⟩ := behind
  refine ⟨before, send, after, kept p _ split (by simp), ?_⟩
  rcases ahead with here | earlier | ⟨q, differ, other, member, through⟩
  · exact Or.inl (slots _ _ here)
  · exact Or.inr (Or.inl earlier)
  · have queue := kept q _ rfl (List.ne_nil_of_mem member)
    exact Or.inr (Or.inr ⟨q, differ, other, queue ▸ member, through⟩)

/-- A message that is posted comes before the same sends as it did on the
queue. -/
theorem Behind.of_post {p : Nat} {send : Send} {rest : List Send}
    (first : unposted p = send :: rest)
    (slots : ∀ i dest, occupied' i dest →
      i = send.sender ∧ dest = send.dest ∨ occupied i dest)
    {q dest : Nat}
    (behind : Behind occupied' (Function.update unposted p rest) q dest) :
    Behind occupied unposted q dest := by
  obtain ⟨before, later, after, split, ahead⟩ := behind
  have queued : ∀ r, ∀ other ∈ Function.update unposted p rest r,
      other ∈ unposted r := by
    intro r other member
    by_cases same : r = p
    · subst same
      rw [Function.update_self] at member
      rw [first]
      exact List.mem_cons_of_mem _ member
    · rwa [Function.update_of_ne same] at member
  by_cases same : q = p
  · subst same
    rw [Function.update_self] at split
    refine ⟨send :: before, later, after, by rw [first, split]; rfl, ?_⟩
    rcases ahead with here | ⟨earlier, member, through⟩ |
      ⟨r, differ, other, member, through⟩
    · rcases slots _ _ here with ⟨slot, goes⟩ | here
      · exact Or.inr (Or.inl
          ⟨send, List.mem_cons_self .., slot.symm, goes.symm⟩)
      · exact Or.inl here
    · exact Or.inr (Or.inl
        ⟨earlier, List.mem_cons_of_mem _ member, through⟩)
    · exact Or.inr (Or.inr
        ⟨r, differ, other, queued r other member, through⟩)
  · rw [Function.update_of_ne same] at split
    refine ⟨before, later, after, split, ?_⟩
    rcases ahead with here | earlier | ⟨r, differ, other, member, through⟩
    · rcases slots _ _ here with ⟨slot, goes⟩ | here
      · exact Or.inr (Or.inr ⟨p, Ne.symm same, send,
          by rw [first]; exact List.mem_cons_self .., slot.symm, goes.symm⟩)
      · exact Or.inl here
    · exact Or.inr (Or.inl earlier)
    · exact Or.inr (Or.inr
        ⟨r, differ, other, queued r other member, through⟩)

/-- Whoever waits for a peer is behind a message to it. -/
theorem behind_of_waits {p dest : Nat} (edge : waits s p dest) :
    Behind (Occupied s) s.unposted p dest := by
  obtain ⟨i, on, here⟩ := edge
  cases phase : s.phase p with
  | fill stage send rest =>
      cases stage with
      | waiting =>
          rw [phase] at on
          cases on
          refine ⟨[], send, rest, ?_, Or.inl here⟩
          rw [State.unposted, phase]
          rfl
      | _ =>
          rw [phase] at on
          cases on
  | _ =>
      rw [phase] at on
      cases on

@[simp] theorem unposted_setPhase (p : Nat) (phase : Phase) :
    (s.setPhase p phase).unposted =
      Function.update s.unposted p phase.unposted := by
  funext q
  by_cases same : q = p
  · subst same
    simp [State.unposted]
  · simp [State.unposted, Function.update_of_ne same]

/-- A round of sends is queued as a whole or given up. -/
theorem unposted_startSends (serverId : Nat) (sends : List Send) :
    (startSends serverId sends).unposted = sends ∨
      (startSends serverId sends).unposted = [] := by
  rcases startSends_cases serverId sends with
    idle | ⟨send, rest, equal, -, fill⟩
  · rw [idle]
    exact Or.inr rfl
  · rw [fill, equal]
    exact Or.inl rfl

theorem occupied_of_slot_eq {i : Nat} (same : t.slot i = s.slot i)
    (dest : Nat) : Occupied t i dest ↔ Occupied s i dest := by
  rw [Occupied, same, Occupied]

/-- Writing to a slot what does not show from outside. -/
theorem occupied_of_update {j : Nat} {slot : Mailslot}
    (slots : t.slot = Function.update s.slot j slot)
    (length : slot.msglen = (s.slot j).msglen)
    (log : slot.sent = (s.slot j).sent) (i dest : Nat) :
    Occupied t i dest ↔ Occupied s i dest := by
  by_cases same : i = j
  · subst same
    rw [Occupied, slots, Function.update_self, length, log, Occupied]
  · exact occupied_of_slot_eq (by rw [slots, Function.update_of_ne same]) dest

/-- A round of sends starts as it is or not at all. -/
theorem acyclic_of_startSends {p : Nat} {sends : List Send}
    (unentangled : Unentangled s p sends) :
    Acyclic (Behind (Occupied s)
      (s.setPhase p (startSends serverId sends)).unposted) := by
  refine Acyclic.mono unentangled fun q dest =>
    Behind.mono (fun _ _ => id) fun r => ?_
  rw [unposted_setPhase]
  by_cases same : r = p
  · subst same
    rw [Function.update_self, Function.update_self]
    exact unposted_startSends serverId sends
  · rw [Function.update_of_ne same, Function.update_of_ne same]
    exact Or.inl rfl

/-- A step that posts nothing and begins nothing. -/
theorem acyclic_of_fewer {p : Nat}
    (acyclic : Acyclic (Behind (Occupied s) s.unposted))
    (slots : ∀ i dest, Occupied t i dest → Occupied s i dest)
    {phase : Phase}
    (queued : t.unposted = Function.update s.unposted p phase.unposted)
    (fewer : phase.unposted = (s.phase p).unposted ∨ phase.unposted = []) :
    Acyclic (Behind (Occupied t) t.unposted) := by
  refine Acyclic.mono acyclic fun q dest => Behind.mono slots ?_
  intro r
  rw [queued]
  by_cases same : r = p
  · subst same
    rw [Function.update_self]
    exact fewer
  · rw [Function.update_of_ne same]
    exact Or.inl rfl

theorem acyclic_of_write {p j : Nat} {slot : Mailslot}
    (acyclic : Acyclic (Behind (Occupied s) s.unposted))
    (slots : t.slot = Function.update s.slot j slot)
    (length : slot.msglen = (s.slot j).msglen)
    (log : slot.sent = (s.slot j).sent) {phase : Phase}
    (queued : t.unposted = Function.update s.unposted p phase.unposted)
    (fewer : phase.unposted = (s.phase p).unposted ∨ phase.unposted = []) :
    Acyclic (Behind (Occupied t) t.unposted) :=
  acyclic_of_fewer acyclic
    (fun i dest => (occupied_of_update slots length log i dest).mp) queued fewer

/-- No step but a command or a reply puts a peer behind another. -/
theorem acyclic_step (acyclic : Acyclic (Behind (Occupied s) s.unposted))
    (uncircled : Uncircled serverId s label)
    (moves : Moves serverId s label t) :
    Acyclic (Behind (Occupied t) t.unposted) := by
  cases moves with
  | command peer idle =>
      exact acyclic_of_startSends uncircled.2
  | handled phase =>
      exact acyclic_of_startSends (uncircled _ _ phase)
  | wake peer idle rung =>
      exact acyclic_of_fewer acyclic (fun _ _ => id) (unposted_setPhase ..)
        (Or.inr rfl)
  | timeout phase =>
      exact acyclic_of_fewer acyclic (fun _ _ => id) (unposted_setPhase ..)
        (Or.inl (by rw [phase]; rfl))
  | see phase empty =>
      exact acyclic_of_fewer acyclic (fun _ _ => id) (unposted_setPhase ..)
        (Or.inl (by rw [phase]; rfl))
  | readLength phase =>
      exact acyclic_of_fewer acyclic (fun _ _ => id) (unposted_setPhase ..)
        (Or.inr rfl)
  | writeBody phase =>
      exact acyclic_of_write acyclic rfl rfl rfl (unposted_setPhase ..)
        (Or.inl (by rw [phase]; rfl))
  | writeNul phase =>
      exact acyclic_of_write acyclic rfl rfl rfl (unposted_setPhase ..)
        (Or.inl (by rw [phase]; rfl))
  | copyBody phase =>
      exact acyclic_of_write acyclic rfl rfl rfl (unposted_setPhase ..)
        (Or.inr rfl)
  | ring phase =>
      rename_i p send rest
      refine acyclic_of_fewer acyclic (fun _ _ => id) (unposted_setPhase ..) ?_
      rw [phase]
      exact unposted_startSends serverId rest
  | clear phase =>
      rename_i p source msg
      refine acyclic_of_fewer acyclic (fun i dest here => ?_)
        (unposted_setPhase ..) (Or.inr rfl)
      by_cases same : i = source
      · subst same
        exact False.elim (here.1 (by simp))
      · exact (occupied_of_slot_eq (Function.update_of_ne same _ _) dest).mp
          here
  | writeLength phase =>
      rename_i p send rest
      have first : s.unposted p = send :: rest := by
        rw [State.unposted, phase]
        rfl
      rw [unposted_setPhase]
      refine Acyclic.mono acyclic fun q dest =>
        Behind.of_post first fun i d here => ?_
      by_cases same : i = send.sender
      · subst same
        exact Or.inl ⟨rfl, by simpa [Occupied, eq_comm] using here.2⟩
      · exact Or.inr ((occupied_of_slot_eq
          (Function.update_of_ne same _ _) d).mp here)

end Edges

/-! ### Where a message is -/

/-- The ids in a phase are ids of peers. -/
def Phase.InRange (serverId : Nat) : Phase → Prop
  | .idle => True
  | .fill _ send rest =>
      IsPeer serverId send.sender ∧
        ∀ later ∈ send :: rest, IsPeer serverId later.dest
  | .fired source => IsPeer serverId source
  | .gotLength source _ => IsPeer serverId source
  | .copied source _ => IsPeer serverId source
  | .handling source _ => IsPeer serverId source

/-- The message to `dest` in slot `i` is on its way: its sender has still to
ring, or the notifier is rung, or `dest` is picking it up. -/
inductive Carried (s : State) (i dest : Nat) : Prop where
  | written {p : Nat} {stage : FillStage} {send : Send} {rest : List Send}
      (phase : s.phase p = .fill stage send rest)
      (active : (s.phase p).writing = true)
      (through : send.sender = i) (goes : send.dest = dest)
  | rung (token : s.counter dest i ≠ 0)
  | picked (reads : (s.phase dest).source = some i)

/-- A notifier that was rung stays rung when it is rung again. -/
theorem incr_ne_zero {value : Nat} : incr value ≠ 0 := by
  unfold incr
  split <;> omega

namespace Carried

variable {s t : State} {i dest p : Nat}

/-- The thread that moves goes on with its message, or had none. -/
theorem frame (carried : Carried s i dest) {phase : Phase}
    (phases : t.phase = Function.update s.phase p phase)
    (counters : t.counter = s.counter)
    (writes : ∀ stage send rest, s.phase p = .fill stage send rest →
      (s.phase p).writing = true →
        ∃ next, phase = .fill next send rest ∧ phase.writing = true)
    (reads : (s.phase p).source = some i → phase.source = some i) :
    Carried t i dest := by
  cases carried with
  | written here active through goes =>
      rename_i q stage send rest
      by_cases same : q = p
      · subst same
        obtain ⟨next, equal, still⟩ := writes stage send rest here active
        have after : t.phase q = phase := by rw [phases, Function.update_self]
        exact .written (after.trans equal) (by rw [after]; exact still)
          through goes
      · have after : t.phase q = s.phase q := by
          rw [phases, Function.update_of_ne same]
        exact .written (after.trans here) (by rw [after]; exact active)
          through goes
  | rung token => exact .rung (by rw [counters]; exact token)
  | picked here =>
      by_cases same : dest = p
      · subst same
        exact .picked (by rw [phases, Function.update_self]; exact reads here)
      · exact .picked (by rw [phases, Function.update_of_ne same]; exact here)

/-- The thread that moves had no message in hand. -/
theorem setPhase (carried : Carried s i dest) {phase : Phase}
    (phases : t.phase = Function.update s.phase p phase)
    (counters : t.counter = s.counter)
    (unwritten : (s.phase p).writing = false)
    (unread : (s.phase p).source ≠ some i) : Carried t i dest :=
  carried.frame phases counters
    (fun _ _ _ _ active => absurd (unwritten.symm.trans active) (by decide))
    fun reads => False.elim (unread reads)

/-- The sender rings: the notifier carries the message from here. -/
theorem ring (carried : Carried s i dest) {send : Send} {rest : List Send}
    {next : Phase} (phase : s.phase p = .fill .wroteNul send rest) :
    Carried ((s.setCounter send.dest send.sender
      (incr (s.counter send.dest send.sender))).setPhase p next) i dest := by
  have kept : ∀ d j, s.counter d j ≠ 0 ∨ d = send.dest ∧ j = send.sender →
      ((s.setCounter send.dest send.sender
        (incr (s.counter send.dest send.sender))).setPhase p next).counter
          d j ≠ 0 := by
    intro d j before
    rw [counter_setPhase, counter_setCounter]
    by_cases there : d = send.dest
    · subst there
      rw [Function.update_self]
      by_cases own : j = send.sender
      · subst own
        rw [Function.update_self]
        exact incr_ne_zero
      · rw [Function.update_of_ne own]
        exact before.resolve_right fun both => own both.2
    · rw [Function.update_of_ne there]
      exact before.resolve_right fun both => there both.1
  cases carried with
  | written here active through goes =>
      rename_i q stage other later
      by_cases same : q = p
      · subst same
        rw [phase] at here
        cases here
        exact .rung (kept _ _ (Or.inr ⟨goes.symm, through.symm⟩))
      · have after : (Function.update s.phase p next) q = s.phase q :=
          Function.update_of_ne same _ _
        exact .written (after.trans here)
          (by
            rw [phase_setPhase, phase_setCounter, after]
            exact active)
          through goes
  | rung token => exact .rung (kept _ _ (Or.inl token))
  | picked here =>
      have differ : dest ≠ p := by
        rintro rfl
        rw [phase] at here
        cases here
      refine .picked ?_
      rw [phase_setPhase, phase_setCounter, Function.update_of_ne differ]
      exact here

/-- The addressee wakes up: it carries the message from here. -/
theorem wake (carried : Carried s i dest) {source : Nat}
    (idle : s.phase p = .idle) :
    Carried ((s.setCounter p source 0).setPhase p (.fired source)) i dest := by
  cases carried with
  | written here active through goes =>
      rename_i q stage send rest
      have differ : q ≠ p := by
        rintro rfl
        rw [idle] at here
        cases here
      have after : (Function.update s.phase p (.fired source)) q = s.phase q :=
        Function.update_of_ne differ _ _
      exact .written (after.trans here)
        (by
          rw [phase_setPhase, phase_setCounter, after]
          exact active)
        through goes
  | picked here =>
      have differ : dest ≠ p := by
        rintro rfl
        rw [idle] at here
        cases here
      refine .picked ?_
      rw [phase_setPhase, phase_setCounter, Function.update_of_ne differ]
      exact here
  | rung token =>
      by_cases both : dest = p ∧ i = source
      · obtain ⟨rfl, rfl⟩ := both
        refine .picked ?_
        rw [phase_setPhase, Function.update_self]
        rfl
      · refine .rung ?_
        rw [counter_setPhase, counter_setCounter]
        by_cases there : dest = p
        · subst there
          rw [Function.update_self,
            Function.update_of_ne fun same => both ⟨rfl, same⟩]
          exact token
        · rw [Function.update_of_ne there]
          exact token

end Carried

/-- Only peers have threads, only peers are sent to or heard, and every message
in a slot is on its way. -/
structure Tidy (serverId : Nat) (s : State) : Prop where
  active : ∀ p, s.phase p ≠ .idle → IsPeer serverId p
  inRange : ∀ p, (s.phase p).InRange serverId
  rung : ∀ p source, s.counter p source ≠ 0 → IsPeer serverId source
  carried : ∀ i, (s.slot i).msglen ≠ 0 →
    ∃ dest, IsPeer serverId dest ∧ Occupied s i dest ∧ Carried s i dest

namespace Tidy

variable {serverId : Nat} {s t : State} {label : Label}

theorem init (serverId : Nat) : Tidy serverId init where
  active := fun _ active => False.elim (active rfl)
  inRange := fun _ => trivial
  rung := fun _ _ rung => False.elim (rung rfl)
  carried := fun _ full => False.elim (full rfl)

theorem inRange_startSends {sends : List Send}
    (dests : ∀ send ∈ sends, IsPeer serverId send.dest) :
    (startSends serverId sends).InRange serverId := by
  rcases startSends_cases serverId sends with
    idle | ⟨send, rest, equal, sender, fill⟩
  · rw [idle]
    trivial
  · rw [fill]
    exact ⟨sender, equal ▸ dests⟩

theorem inRange_of_phase (tidy : Tidy serverId s) {p : Nat} {phase : Phase}
    (here : s.phase p = phase) : phase.InRange serverId :=
  here ▸ tidy.inRange p

theorem peer_of_phase (tidy : Tidy serverId s) {p : Nat} {phase : Phase}
    (here : s.phase p = phase) (busy : phase ≠ .idle) : IsPeer serverId p :=
  tidy.active p (here ▸ busy)

/-- The thread that moves is a peer's, and its new phase names peers. -/
theorem moved (tidy : Tidy serverId s) (uncircled : Uncircled serverId s label)
    (moves : Moves serverId s label t) :
    ∃ p phase, t.phase = Function.update s.phase p phase ∧
      IsPeer serverId p ∧ phase.InRange serverId := by
  cases moves with
  | command peer idle =>
      refine ⟨_, _, rfl, peer, inRange_startSends fun send member => ?_⟩
      simp only [placeAndGo, List.mem_flatMap, List.mem_map] at member
      obtain ⟨S, -, D, dest, rfl⟩ := member
      exact uncircled.1 D dest
  | wake peer idle rung => exact ⟨_, _, rfl, peer, tidy.rung _ _ rung⟩
  | timeout phase =>
      have inRange := tidy.inRange_of_phase phase
      exact ⟨_, _, rfl, tidy.peer_of_phase phase (by simp), inRange⟩
  | see phase empty =>
      have inRange := tidy.inRange_of_phase phase
      exact ⟨_, _, rfl, tidy.peer_of_phase phase (by simp), inRange⟩
  | writeLength phase =>
      have inRange := tidy.inRange_of_phase phase
      exact ⟨_, _, rfl, tidy.peer_of_phase phase (by simp), inRange⟩
  | writeBody phase =>
      have inRange := tidy.inRange_of_phase phase
      exact ⟨_, _, rfl, tidy.peer_of_phase phase (by simp), inRange⟩
  | writeNul phase =>
      have inRange := tidy.inRange_of_phase phase
      exact ⟨_, _, rfl, tidy.peer_of_phase phase (by simp), inRange⟩
  | ring phase =>
      exact ⟨_, _, rfl, tidy.peer_of_phase phase (by simp),
        inRange_startSends fun later member =>
          (tidy.inRange_of_phase phase).2 later
            (List.mem_cons_of_mem _ member)⟩
  | readLength phase =>
      have inRange := tidy.inRange_of_phase phase
      exact ⟨_, _, rfl, tidy.peer_of_phase phase (by simp), inRange⟩
  | copyBody phase =>
      have inRange := tidy.inRange_of_phase phase
      exact ⟨_, _, rfl, tidy.peer_of_phase phase (by simp), inRange⟩
  | clear phase =>
      have inRange := tidy.inRange_of_phase phase
      exact ⟨_, _, rfl, tidy.peer_of_phase phase (by simp), inRange⟩
  | handled phase =>
      rename_i p source msg reply
      refine ⟨_, _, rfl, tidy.peer_of_phase phase (by simp),
        inRange_startSends fun send member => ?_⟩
      cases reply with
      | none => cases member
      | some answer =>
          rw [replies, List.mem_singleton] at member
          rw [member]
          exact tidy.inRange_of_phase phase

/-- A notifier is rung for a slot only. -/
theorem rung_step (tidy : Tidy serverId s) (moves : Moves serverId s label t)
    (p source : Nat) (token : t.counter p source ≠ 0) :
    IsPeer serverId source := by
  cases moves with
  | wake peer idle rung =>
      rename_i q other
      by_cases same : source = other
      · exact same ▸ tidy.rung q other rung
      · refine tidy.rung p source ?_
        rwa [counter_setPhase, counter_setCounter_of_ne same] at token
  | ring phase =>
      rename_i q send rest
      by_cases same : source = send.sender
      · exact same ▸ (tidy.inRange_of_phase phase).1
      · refine tidy.rung p source ?_
        rwa [counter_setPhase, counter_setCounter_of_ne same] at token
  | _ => exact tidy.rung p source token

/-- Where the slots look as before, the messages are still on their way. -/
theorem carried_of_slots (tidy : Tidy serverId s) {i : Nat}
    (full : (t.slot i).msglen ≠ 0)
    (slots : ∀ i dest, Occupied t i dest ↔ Occupied s i dest)
    (lengths : ∀ i, (t.slot i).msglen ≠ 0 → (s.slot i).msglen ≠ 0)
    (still : ∀ i dest, Carried s i dest → Carried t i dest) :
    ∃ dest, IsPeer serverId dest ∧ Occupied t i dest ∧ Carried t i dest := by
  obtain ⟨dest, peer, here, carried⟩ := tidy.carried i (lengths i full)
  exact ⟨dest, peer, (slots i dest).mpr here, still i dest carried⟩

theorem length_of_update {j : Nat} {slot : Mailslot}
    (slots : t.slot = Function.update s.slot j slot)
    (length : slot.msglen = (s.slot j).msglen) (i : Nat)
    (full : (t.slot i).msglen ≠ 0) : (s.slot i).msglen ≠ 0 := by
  rw [slots] at full
  by_cases same : i = j
  · subst same
    rwa [Function.update_self, length] at full
  · rwa [Function.update_of_ne same] at full

/-- A `fill` goes on writing. -/
theorem carried_writeOn {p i dest : Nat} {stage next : FillStage} {send : Send}
    {rest : List Send} (carried : Carried s i dest)
    (phase : s.phase p = .fill stage send rest)
    (phases : t.phase = Function.update s.phase p (.fill next send rest))
    (counters : t.counter = s.counter)
    (goes : (Phase.fill next send rest).writing = true) :
    Carried t i dest := by
  refine carried.frame phases counters (fun _ _ _ here _ => ?_)
    (by rw [phase]; exact nofun)
  rw [phase] at here
  cases here
  exact ⟨next, rfl, goes⟩

/-- A thread that neither writes nor reads a message changes its phase. -/
theorem carried_setPhase (tidy : Tidy serverId s) {p i : Nat} {phase : Phase}
    (full : ((s.setPhase p phase).slot i).msglen ≠ 0)
    (unwritten : (s.phase p).writing = false)
    (unread : (s.phase p).source = none) :
    ∃ dest, IsPeer serverId dest ∧ Occupied (s.setPhase p phase) i dest ∧
      Carried (s.setPhase p phase) i dest :=
  tidy.carried_of_slots full (fun _ _ => Iff.rfl) (fun _ => id)
    fun _ _ carried => carried.setPhase rfl rfl unwritten
      (by rw [unread]; exact nofun)

/-- Every message in a slot stays on its way. -/
theorem carried_step (tidy : Tidy serverId s)
    (moves : Moves serverId s label t) (i : Nat)
    (full : (t.slot i).msglen ≠ 0) :
    ∃ dest, IsPeer serverId dest ∧ Occupied t i dest ∧ Carried t i dest := by
  cases moves with
  | command peer idle =>
      exact tidy.carried_setPhase full (by rw [idle]; rfl) (by rw [idle]; rfl)
  | handled phase =>
      exact tidy.carried_setPhase full (by rw [phase]; rfl) (by rw [phase]; rfl)
  | timeout phase =>
      exact tidy.carried_setPhase full (by rw [phase]; rfl) (by rw [phase]; rfl)
  | see phase empty =>
      exact tidy.carried_setPhase full (by rw [phase]; rfl) (by rw [phase]; rfl)
  | wake peer idle rung =>
      exact tidy.carried_of_slots full (fun _ _ => Iff.rfl) (fun _ => id)
        (fun _ _ carried => carried.wake idle)
  | ring phase =>
      exact tidy.carried_of_slots full (fun _ _ => Iff.rfl) (fun _ => id)
        (fun _ _ carried => carried.ring phase)
  | writeBody phase =>
      exact tidy.carried_of_slots full (occupied_of_update rfl rfl rfl)
        (length_of_update rfl rfl)
        (fun _ _ carried => carried_writeOn carried phase rfl rfl rfl)
  | writeNul phase =>
      exact tidy.carried_of_slots full (occupied_of_update rfl rfl rfl)
        (length_of_update rfl rfl)
        (fun _ _ carried => carried_writeOn carried phase rfl rfl rfl)
  | readLength phase =>
      exact tidy.carried_of_slots full (fun _ _ => Iff.rfl) (fun _ => id)
        (fun _ _ carried => carried.frame rfl rfl
          (fun _ _ _ here => by rw [phase] at here; cases here)
          (by rw [phase]; exact id))
  | copyBody phase =>
      exact tidy.carried_of_slots full (occupied_of_update rfl rfl rfl)
        (length_of_update rfl rfl)
        (fun _ _ carried => carried.frame rfl rfl
          (fun _ _ _ here => by rw [phase] at here; cases here)
          (by rw [phase]; exact id))
  | clear phase =>
      rename_i p source msg
      have differ : i ≠ source := by
        rintro rfl
        exact full (by simp)
      have same : ((s.modifySlot source fun slot =>
          { slot with msglen := 0 }).setPhase p
            (.handling source msg)).slot i = s.slot i :=
        Function.update_of_ne differ _ _
      rw [same] at full
      obtain ⟨dest, peer, here, carried⟩ := tidy.carried i full
      refine ⟨dest, peer, (occupied_of_slot_eq same dest).mpr here,
        carried.setPhase rfl rfl (by rw [phase]; rfl) ?_⟩
      rw [phase]
      exact fun equal => differ (Option.some.inj equal).symm
  | writeLength phase =>
      rename_i p send rest
      by_cases same : i = send.sender
      · subst same
        refine ⟨send.dest, (tidy.inRange_of_phase phase).2 send
          (List.mem_cons_self ..), ⟨full, by simp⟩, ?_⟩
        have after : ∀ f, ((s.modifySlot send.sender f).setPhase p
            (.fill .wroteLength send rest)).phase p =
              .fill .wroteLength send rest :=
          fun f => Function.update_self ..
        exact .written (after _) (by rw [after]; rfl) rfl rfl
      · have elsewhere : ∀ f, ((s.modifySlot send.sender f).setPhase p
            (.fill .wroteLength send rest)).slot i = s.slot i :=
          fun f => Function.update_of_ne same _ _
        rw [elsewhere] at full
        obtain ⟨dest, peer, here, carried⟩ := tidy.carried i full
        exact ⟨dest, peer, (occupied_of_slot_eq (elsewhere _) dest).mpr here,
          carried.setPhase rfl rfl (by rw [phase]; rfl)
            (by rw [phase]; exact nofun)⟩

theorem step (tidy : Tidy serverId s) (uncircled : Uncircled serverId s label)
    (moves : Moves serverId s label t) : Tidy serverId t := by
  obtain ⟨p, phase, phases, peer, inRange⟩ := tidy.moved uncircled moves
  refine ⟨fun q busy => ?_, fun q => ?_, tidy.rung_step moves,
    tidy.carried_step moves⟩
  · by_cases same : q = p
    · exact same ▸ peer
    · rw [phases, Function.update_of_ne same] at busy
      exact tidy.active q busy
  · rw [phases]
    by_cases same : q = p
    · subst same
      rw [Function.update_self]
      exact inRange
    · rw [Function.update_of_ne same]
      exact tidy.inRange q

end Tidy

/-! ### The work on hand -/

/-- A peer handles its events: it is not told to send, does not give up on its
slot, and does not answer. -/
def Label.handles : Label → Bool
  | .wake _ _ => true
  | .proceed _ => true
  | .handled _ none => true
  | _ => false

/-- The number of sends that a command or a reply asks for. -/
def Label.asks : Label → Nat
  | .command _ sources dests msg tracker =>
      (placeAndGo sources dests msg tracker).length
  | .handled p reply => (replies p 0 reply).length
  | _ => 0

/-- The steps that a `fill` still leads to, the pickup included. -/
def FillStage.work : FillStage → Nat
  | .waiting => 10
  | .sawEmpty => 9
  | .wroteLength => 8
  | .wroteBody => 7
  | .wroteNul => 6

def Phase.work : Phase → Nat
  | .idle => 0
  | .fill stage _ rest => stage.work + 10 * rest.length
  | .fired _ => 4
  | .gotLength _ _ => 3
  | .copied _ _ => 2
  | .handling _ _ => 1

/-- The notifiers that are rung, by addressee and sender. -/
def State.rung (s : State) (serverId : Nat) : Finset (Nat × Nat) :=
  (Finset.range (serverId + 1) ×ˢ Finset.range (serverId + 1)).filter
    fun notifier => s.counter notifier.1 notifier.2 ≠ 0

/-- A bound on the steps that the sends under way still lead to. -/
def State.work (s : State) (serverId : Nat) : Nat :=
  ∑ p ∈ Finset.range (serverId + 1), (s.phase p).work +
    5 * (s.rung serverId).card

section Work

variable {serverId : Nat} {s t : State} {label : Label} {p : Nat}

theorem IsPeer.mem_range (peer : IsPeer serverId p) :
    p ∈ Finset.range (serverId + 1) :=
  Finset.mem_range.mpr (Nat.lt_succ_of_le peer.2)

/-- One thread changes. -/
theorem work_setPhase (peer : IsPeer serverId p) (phase : Phase) :
    (s.setPhase p phase).work serverId + (s.phase p).work =
      s.work serverId + phase.work := by
  have weighed : ∀ q, (Function.update s.phase p phase q).work =
      Function.update (fun q => (s.phase q).work) p phase.work q := by
    intro q
    by_cases same : q = p
    · rw [same, Function.update_self, Function.update_self]
    · rw [Function.update_of_ne same, Function.update_of_ne same]
  have rung : (s.setPhase p phase).rung serverId = s.rung serverId := rfl
  simp only [State.work, phase_setPhase, weighed, rung]
  rw [Finset.sum_update_of_mem peer.mem_range,
    ← Finset.add_sum_erase _ (fun q => (s.phase q).work) peer.mem_range,
    Finset.sdiff_singleton_eq_erase]
  omega

/-- Ringing a notifier makes one pickup more at most. -/
theorem work_setCounter_le (dest source value : Nat) :
    (s.setCounter dest source value).work serverId ≤ s.work serverId + 5 := by
  have within : (s.setCounter dest source value).rung serverId ⊆
      insert (dest, source) (s.rung serverId) := by
    rintro ⟨q, k⟩ member
    rw [State.rung, Finset.mem_filter] at member
    rw [Finset.mem_insert, State.rung, Finset.mem_filter]
    by_cases there : q = dest
    · subst there
      by_cases own : k = source
      · exact Or.inl (own ▸ rfl)
      · rw [counter_setCounter_of_ne own] at member
        exact Or.inr member
    · have same : (s.setCounter dest source value).counter q =
          s.counter q := Function.update_of_ne there _ _
      rw [same] at member
      exact Or.inr member
  have few := (Finset.card_le_card within).trans (Finset.card_insert_le _ _)
  simp only [State.work, phase_setCounter]
  omega

/-- A notifier that is read is not rung any more. -/
theorem work_setCounter_zero {source : Nat} (peer : IsPeer serverId p)
    (sender : IsPeer serverId source) (rung : s.counter p source ≠ 0) :
    (s.setCounter p source 0).work serverId + 5 ≤ s.work serverId := by
  have member : (p, source) ∈ s.rung serverId := by
    rw [State.rung, Finset.mem_filter, Finset.mem_product]
    exact ⟨⟨peer.mem_range, sender.mem_range⟩, rung⟩
  have within : (s.setCounter p source 0).rung serverId ⊆
      (s.rung serverId).erase (p, source) := by
    rintro ⟨q, k⟩ still
    rw [State.rung, Finset.mem_filter] at still
    rw [Finset.mem_erase, State.rung, Finset.mem_filter]
    by_cases there : q = p
    · subst there
      by_cases own : k = source
      · subst own
        exact False.elim (still.2 (by simp))
      · rw [counter_setCounter_of_ne own] at still
        exact ⟨fun equal => own (Prod.ext_iff.mp equal).2, still⟩
    · have same : (s.setCounter p source 0).counter q = s.counter q :=
        Function.update_of_ne there _ _
      rw [same] at still
      exact ⟨fun equal => there (Prod.ext_iff.mp equal).1, still⟩
  have fewer := Finset.card_le_card within
  have one := Finset.card_erase_add_one member
  simp only [State.work, phase_setCounter]
  omega

theorem work_startSends (sends : List Send) :
    (startSends serverId sends).work ≤ 10 * sends.length := by
  rcases startSends_cases serverId sends with
    idle | ⟨send, rest, equal, -, fill⟩
  · rw [idle]
    exact Nat.zero_le _
  · rw [fill, equal, List.length_cons, Phase.work, FillStage.work]
    omega

@[simp] theorem work_fill (stage : FillStage) (send : Send)
    (rest : List Send) :
    (Phase.fill stage send rest).work = stage.work + 10 * rest.length := rfl

/-- A thread changes beside a notifier or a slot. -/
theorem work_after {u : State} {phase : Phase} {handled asked : Nat}
    (saved extra : Nat) (peer : IsPeer serverId p) (phases : u.phase = s.phase)
    (near : u.work serverId + saved ≤ s.work serverId + extra)
    (less : phase.work + extra + handled ≤
      (s.phase p).work + saved + 10 * asked) :
    (u.setPhase p phase).work serverId + handled ≤
      s.work serverId + 10 * asked := by
  have changed := work_setPhase (s := u) peer phase
  rw [phases] at changed
  omega

/-- A `fill` goes on beside a slot. -/
theorem work_fill_on (tidy : Tidy serverId s) {u : State}
    {stage next : FillStage} {send : Send} {rest : List Send} {handled : Nat}
    (here : s.phase p = .fill stage send rest) (phases : u.phase = s.phase)
    (same : u.work serverId ≤ s.work serverId)
    (less : next.work + handled ≤ stage.work) :
    (u.setPhase p (.fill next send rest)).work serverId + handled ≤
      s.work serverId + 10 * 0 := by
  refine work_after 0 0 (tidy.peer_of_phase here nofun) phases same ?_
  rw [here, work_fill, work_fill]
  omega

/-- Every event a peer handles leaves less work, and a command or a reply
brings ten steps for each send. -/
theorem work_step (tidy : Tidy serverId s) (moves : Moves serverId s label t) :
    t.work serverId + label.handles.toNat ≤
      s.work serverId + 10 * label.asks := by
  have same : s.work serverId + 0 ≤ s.work serverId + 0 := Nat.le_refl _
  cases moves with
  | command peer idle =>
      rename_i q sources dests msg tracker
      refine work_after 0 0 peer rfl same ?_
      have few : (startSends serverId
          (placeAndGo sources dests msg tracker)).work ≤ _ :=
        work_startSends _
      simp only [Label.handles, Label.asks, Bool.toNat_false]
      omega
  | wake peer idle rung =>
      refine work_after 5 0 peer rfl
        (work_setCounter_zero peer (tidy.rung _ _ rung) rung) ?_
      simp [idle, Phase.work, Label.handles]
  | timeout phase => exact work_fill_on tidy phase rfl same (Nat.le_succ 9)
  | see phase empty =>
      exact work_fill_on tidy phase rfl same (Nat.le_refl _)
  | writeLength phase =>
      exact work_fill_on tidy phase rfl same (Nat.le_refl _)
  | writeBody phase =>
      exact work_fill_on tidy phase rfl same (Nat.le_refl _)
  | writeNul phase =>
      exact work_fill_on tidy phase rfl same (Nat.le_refl _)
  | ring phase =>
      rename_i q send rest
      refine work_after 0 5 (tidy.peer_of_phase phase nofun) rfl
        (work_setCounter_le ..) ?_
      have few : (startSends serverId rest).work ≤ _ :=
        work_startSends rest
      simp only [phase, work_fill, FillStage.work, Label.handles,
        Bool.toNat_true]
      omega
  | readLength phase =>
      refine work_after 0 0 (tidy.peer_of_phase phase nofun) rfl same ?_
      simp [phase, Phase.work, Label.handles]
  | copyBody phase =>
      refine work_after 0 0 (tidy.peer_of_phase phase nofun) rfl same ?_
      simp [phase, Phase.work, Label.handles]
  | clear phase =>
      refine work_after 0 0 (tidy.peer_of_phase phase nofun) rfl same ?_
      simp [phase, Phase.work, Label.handles]
  | handled phase =>
      rename_i q source msg reply
      refine work_after 0 0 (tidy.peer_of_phase phase nofun) rfl same ?_
      cases reply with
      | none => simp [phase, Phase.work, Label.handles, replies, startSends]
      | some answer =>
          have few : (startSends serverId
              (replies q source (some answer))).work ≤ _ :=
            work_startSends _
          have one : (replies q source (some answer)).length = 1 := rfl
          simp only [phase, Label.handles, Label.asks, Bool.toNat_false]
          have asked : (replies q 0 (some answer)).length = 1 := rfl
          omega

end Work

/-! ### Runs -/

section Runs

variable {serverId : Nat} {s t : State} {label : Label}

/-- A thread that is neither idle nor kept waiting has a step to take. -/
theorem handles_of_busy {p : Nat} (busy : s.phase p ≠ .idle)
    (free : ∀ i, (s.phase p).waitsOn = some i → (s.slot i).msglen = 0) :
    ∃ label, label.handles = true ∧ (step serverId s label).isSome = true := by
  cases phase : s.phase p with
  | idle => exact False.elim (busy phase)
  | handling source msg =>
      exact ⟨.handled p none, rfl, by simp [Mailbox.step, phase]⟩
  | fired source =>
      exact ⟨.proceed p, rfl, by simp [Mailbox.step, proceed, phase]⟩
  | gotLength source msglen =>
      exact ⟨.proceed p, rfl, by simp [Mailbox.step, proceed, phase]⟩
  | copied source msg =>
      exact ⟨.proceed p, rfl, by simp [Mailbox.step, proceed, phase]⟩
  | fill stage send rest =>
      cases stage with
      | waiting =>
          have empty := free send.sender (by rw [phase]; rfl)
          exact ⟨.proceed p, rfl, by
            simp [Mailbox.step, proceed, phase, empty]⟩
      | _ => exact ⟨.proceed p, rfl, by simp [Mailbox.step, proceed, phase]⟩

/-- In a tidy state without a circular wait, somebody can handle an event as
long as anybody sits in `fill`. -/
theorem handles_of_waiting (tidy : Tidy serverId s)
    (acyclic : Acyclic (waits s)) {p i : Nat}
    (on : (s.phase p).waitsOn = some i) :
    ∃ label, label.handles = true ∧ (step serverId s label).isSome = true := by
  have sits : ∀ {q j}, (s.phase q).waitsOn = some j → s.phase q ≠ .idle := by
    intro q j waiting idle
    rw [idle] at waiting
    cases waiting
  have every : ∀ q dest, waits s q dest → q ∈ Finset.range (serverId + 1) :=
    fun q dest ⟨j, waiting, _⟩ => (tidy.active q (sits waiting)).mem_range
  obtain ⟨q, path, last⟩ := exists_free acyclic every p
  have free : ∀ j, (s.phase q).waitsOn = some j → (s.slot j).msglen = 0 := by
    intro j waiting
    by_contra full
    obtain ⟨dest, -, here, -⟩ := tidy.carried j full
    exact last dest ⟨j, waiting, here⟩
  rcases ReflTransGen.cases_tail path with rfl | ⟨r, -, j, waiting, here⟩
  · exact handles_of_busy (sits on) free
  · -- the message to `q` that `r` waits for has to be picked up
    by_cases busy : s.phase q = .idle
    · obtain ⟨dest, peer, there, carried⟩ := tidy.carried j here.1
      obtain rfl : dest = q := Option.some.inj (there.2.symm.trans here.2)
      cases carried with
      | written phase active through goes =>
          rename_i w stage send rest
          refine handles_of_busy (p := w) (by rw [phase]; exact nofun) ?_
          intro k waiting
          rw [phase] at active waiting
          cases stage with
          | waiting => cases active
          | _ => cases waiting
      | rung token =>
          exact ⟨.wake dest j, rfl, by
            simp [Mailbox.step, peer, busy, token]⟩
      | picked reads =>
          rw [busy] at reads
          cases reads
    · exact handles_of_busy busy free

/-- What holds in every state of a run without circular addressing. -/
structure Flowing (serverId : Nat) (s : State) : Prop where
  tidy : Tidy serverId s
  acyclic : Acyclic (Behind (Occupied s) s.unposted)

theorem Flowing.init (serverId : Nat) : Flowing serverId init := by
  refine ⟨Tidy.init serverId, acyclic_of_lt (fun _ => 0) ?_⟩
  rintro p dest ⟨before, send, after, split, -⟩
  exact False.elim (List.cons_ne_nil _ _ (List.append_eq_nil_iff.mp
    (split.symm.trans rfl)).2)

theorem Flowing.step (flowing : Flowing serverId s)
    (uncircled : Uncircled serverId s label)
    (taken : Mailbox.step serverId s label = some t) : Flowing serverId t :=
  have moves := step_moves taken
  ⟨flowing.tidy.step uncircled moves,
    acyclic_step flowing.acyclic uncircled moves⟩

theorem Flowing.waits (flowing : Flowing serverId s) : Acyclic (waits s) :=
  flowing.acyclic.mono fun _ _ => behind_of_waits

end Runs

/-- Over every run of any peers with any commands, replies and timeouts of
which none is addressed in a circle: no state reached contains a circular wait,
and no `fill` has to time out, since in every state reached somebody can handle
an event as long as anybody sits in `fill`, and there are only so many events to
handle until more is asked for. -/
theorem no_circular_wait (serverId : Nat) (trace : List Label)
    (uncircled : Transition.Meets (step serverId) (Uncircled serverId) init
      trace) :
    Transition.Always (step serverId) NoCircularWait init trace ∧
    ∀ s, Transition.run (step serverId) init trace = some s →
      (∀ p i, (s.phase p).waitsOn = some i →
        ∃ label, label.handles = true ∧
          (step serverId s label).isSome = true) ∧
      ∀ more t,
        Transition.Meets (step serverId) (Uncircled serverId) s more →
        Transition.run (step serverId) s more = some t →
          more.countP Label.handles ≤
            s.work serverId + 10 * (more.map Label.asks).sum := by
  have kept : ∀ s label t, Flowing serverId s → Uncircled serverId s label →
      step serverId s label = some t → Flowing serverId t :=
    fun _ _ _ flowing met taken => flowing.step met taken
  have initially := Flowing.init serverId
  refine ⟨⟨?_, ?_⟩, fun s reached => ?_⟩
  · exact acyclic_iff_no_circular.mp initially.waits
  · refine Transition.along_of_invariant (fun s label t flowing met taken => ?_)
      initially uncircled
    have next := kept s label t flowing met taken
    exact ⟨next, acyclic_iff_no_circular.mp next.waits⟩
  · have flowing := Transition.run_invariant kept initially uncircled reached
    refine ⟨fun p i on => handles_of_waiting flowing.tidy flowing.waits on,
      fun more t met ends => ?_⟩
    have bound := @Transition.countP_le_rank_add _ _ (step serverId)
      (Flowing serverId) (Uncircled serverId) Label.handles
      (fun label => 10 * label.asks) (State.work · serverId)
      (fun s label t flowing met taken => ⟨kept s label t flowing met taken,
        work_step flowing.tidy (step_moves taken)⟩) s t more flowing met ends
    rwa [List.sum_map_mul_left more Label.asks 10] at bound

/-- A peer that sends to others while nothing is under way is not behind
anyone who is behind it. -/
theorem unentangled_of_quiet {s : State} {p : Nat} {sends : List Send}
    (empty : ∀ i, (s.slot i).msglen = 0)
    (quiet : ∀ q, s.unposted q = [])
    (others : ∀ send ∈ sends, send.dest ≠ p) : Unentangled s p sends := by
  refine acyclic_of_lt (fun q => if q = p then 1 else 0) ?_
  rintro q dest ⟨before, send, after, split, ahead⟩
  obtain rfl : q = p := by
    by_contra differ
    rw [Function.update_of_ne differ, quiet] at split
    exact absurd (congrArg List.length split) (by simp)
  have differ : dest ≠ q := by
    rcases ahead with here | ⟨earlier, member, -, goes⟩ |
      ⟨r, other, later, member, -⟩
    · exact False.elim (here.1 (empty _))
    · rw [Function.update_self] at split
      exact goes ▸ others earlier (by rw [split]; simp [member])
    · rw [Function.update_of_ne other, quiet] at member
      cases member
  rw [if_pos rfl, if_neg differ]
  exact Nat.zero_lt_one

/-- Client 1 of two sends to the others: the second message waits until client
2 picks up the first. -/
theorem no_circular_wait_of_send_others :
    let trace : List Label := [.command 1 [1] [2, 3] (ascii "hi") 1,
      .proceed 1, .proceed 1, .proceed 1, .proceed 1, .proceed 1]
    Transition.Always (step 3) NoCircularWait init trace ∧
    ∀ s, Transition.run (step 3) init trace = some s →
      (∀ p i, (s.phase p).waitsOn = some i →
        ∃ label, label.handles = true ∧ (step 3 s label).isSome = true) ∧
      ∀ more t, Transition.Meets (step 3) (Uncircled 3) s more →
        Transition.run (step 3) s more = some t →
          more.countP Label.handles ≤
            s.work 3 + 10 * (more.map Label.asks).sum := by
  have apart : Unentangled init 1 (placeAndGo [1] [2, 3] (ascii "hi") 1) :=
    unentangled_of_quiet (fun _ => rfl) (fun _ => rfl) (by decide)
  exact no_circular_wait 3 _ fun _ _ => ⟨⟨by decide, apart⟩,
    fun _ _ => ⟨trivial, fun _ _ => ⟨trivial, fun _ _ => ⟨trivial,
      fun _ _ => ⟨trivial, fun _ _ => ⟨trivial, trivial⟩⟩⟩⟩⟩⟩

/-- One client alone is enough: `send all` addresses the sender first, and the
second message waits for the sender to pick up the first. -/
theorem circular_wait_of_send_all :
    ¬ Transition.Always (step 3) NoCircularWait init
        [.command 1 [1] [1, 2, 3] (ascii "hi") 1, .proceed 1, .proceed 1,
          .proceed 1, .proceed 1, .proceed 1] := by
  intro always
  have none := Transition.always_run always rfl
  refine none {1} ⟨Finset.singleton_nonempty 1, fun p member => ?_⟩
  rw [Finset.mem_singleton] at member
  subst member
  exact ⟨1, Finset.mem_singleton_self 1, 1, rfl, by decide, rfl⟩

end FameZ.Mailbox
