/-
Module: FameZ.Mailbox.Delivery
Purpose: Exactly-once delivery between Python peers that send from their own
  mailslots and never run into the timeout of `fill`.
Trusted boundary: none
Main exports: OwnSlot, ExactlyOnce, Held, Sound, delivered_exactly_once
-/
import FameZ.Mailbox.Handshake

namespace FameZ.Mailbox

/-!
A slot carries at most one message on its way.  It is being written by its
owner, or a token for it exists in exactly one place: the event counter of the
addressee, or the addressee's thread.  The token disappears when the addressee
empties the slot, and only then does the owner write again.
-/

/-- A peer sends from its own mailslot and no `fill` times out. -/
def OwnSlot : Label → Prop
  | .command p sources _ _ _ => ∀ S ∈ sources, S = p
  | .timeout _ => False
  | _ => True

instance (label : Label) : Decidable (OwnSlot label) := by
  cases label <;> unfold OwnSlot <;> infer_instance

/-- The copies made from a slot are the messages sent from it, one for one and
in order, each by its addressee; at most the last is still on its way, and none
is when the slot is empty. -/
structure ExactlyOnce (slot : Mailslot) : Prop where
  oneForOne : slot.sent = slot.got ∨
    ∃ message, slot.sent = slot.got ++ [message]
  emptied : slot.msglen = 0 → slot.sent = slot.got

/-- The slot whose message the thread is picking up. -/
def Phase.source : Phase → Option Nat
  | .fired source => some source
  | .gotLength source _ => some source
  | .copied source _ => some source
  | _ => none

/-- The sends a thread has before it. -/
def Phase.sends : Phase → List Send
  | .fill _ send rest => send :: rest
  | _ => []

/-- The `fill` is past its wait. -/
def Phase.committed : Phase → Bool
  | .fill .waiting _ _ => false
  | .fill _ _ _ => true
  | _ => false

/-- The `fill` has written the length. -/
def Phase.writing : Phase → Bool
  | .fill .waiting _ _ => false
  | .fill .sawEmpty _ _ => false
  | .fill _ _ _ => true
  | _ => false

theorem Phase.writing_of_not_committed {phase : Phase}
    (free : phase.committed = false) : phase.writing = false := by
  cases phase with
  | fill stage send rest =>
      cases stage with
      | waiting => rfl
      | _ => cases free
  | _ => rfl

@[simp] theorem source_startSends (serverId : Nat) (sends : List Send) :
    (startSends serverId sends).source = none := by
  rcases startSends_cases serverId sends with idle | ⟨_, _, -, -, fill⟩
  · rw [idle]
    rfl
  · rw [fill]
    rfl

@[simp] theorem committed_startSends (serverId : Nat) (sends : List Send) :
    (startSends serverId sends).committed = false := by
  rcases startSends_cases serverId sends with idle | ⟨_, _, -, -, fill⟩
  · rw [idle]
    rfl
  · rw [fill]
    rfl

theorem mem_sends_startSends {serverId : Nat} {sends : List Send}
    {send : Send} (member : send ∈ (startSends serverId sends).sends) :
    send ∈ sends := by
  rcases startSends_cases serverId sends with
    idle | ⟨first, rest, equal, -, fill⟩
  · rw [idle] at member
    cases member
  · rw [fill] at member
    rw [equal]
    exact member

/-! ### The invariant of one slot -/

/-- The message of the slot is complete and its owner is done with it. -/
structure Posted (s : State) (i : Nat) (payload : List UInt8) : Prop where
  nonempty : payload ≠ []
  length : (s.slot i).msglen = payload.length
  body : (s.slot i).body.take payload.length = payload
  released : (s.phase i).committed = false

/-- No notifier of the slot is rung. -/
def Silent (s : State) (i : Nat) : Prop := ∀ dest, s.counter dest i = 0

/-- Nobody but `dest` is picking up the message of the slot. -/
def OnlyReader (s : State) (i dest : Nat) : Prop :=
  ∀ p, (s.phase p).source = some i → p = dest

/-- Where the one message of a slot is. -/
inductive Held (s : State) (i : Nat) : Prop where
  | quiet (empty : (s.slot i).msglen = 0)
      (log : (s.slot i).sent = (s.slot i).got) (silent : Silent s i)
      (unread : ∀ p, (s.phase p).source ≠ some i)
      (unwritten : (s.phase i).writing = false)
  | writing {stage : FillStage} {send : Send} {rest : List Send}
      (phase : s.phase i = .fill stage send rest)
      (active : (s.phase i).writing = true)
      (length : (s.slot i).msglen = send.payload.length)
      (body : stage ≠ .wroteLength →
        (s.slot i).body.take send.payload.length = send.payload)
      (log : (s.slot i).sent =
        (s.slot i).got ++ [(send.dest, send.payload)])
      (silent : Silent s i) (unread : ∀ p, (s.phase p).source ≠ some i)
  | rung {dest : Nat} {payload : List UInt8} (posted : Posted s i payload)
      (log : (s.slot i).sent = (s.slot i).got ++ [(dest, payload)])
      (token : ∀ d, s.counter d i = if d = dest then 1 else 0)
      (unread : ∀ p, (s.phase p).source ≠ some i)
  | fired {dest : Nat} {payload : List UInt8} (posted : Posted s i payload)
      (log : (s.slot i).sent = (s.slot i).got ++ [(dest, payload)])
      (silent : Silent s i) (phase : s.phase dest = .fired i)
      (only : OnlyReader s i dest)
  | gotLength {dest : Nat} {payload : List UInt8}
      (posted : Posted s i payload)
      (log : (s.slot i).sent = (s.slot i).got ++ [(dest, payload)])
      (silent : Silent s i)
      (phase : s.phase dest = .gotLength i payload.length)
      (only : OnlyReader s i dest)
  | copied {dest : Nat} {payload : List UInt8} (posted : Posted s i payload)
      (log : (s.slot i).sent = (s.slot i).got) (silent : Silent s i)
      (phase : s.phase dest = .copied i payload)
      (only : OnlyReader s i dest)

/-- A notifier stands for one source at one destination. -/
theorem counter_setCounter_of_ne {s : State} {dest other source k value : Nat}
    (differ : k ≠ source) :
    (s.setCounter dest source value).counter other k = s.counter other k := by
  rw [counter_setCounter]
  by_cases here : other = dest
  · rw [here, Function.update_self, Function.update_of_ne differ]
  · rw [Function.update_of_ne here]

namespace Held

variable {s t : State} {i p : Nat}

theorem exactlyOnce (held : Held s i) : ExactlyOnce (s.slot i) := by
  have full : ∀ payload : List UInt8, payload ≠ [] →
      (s.slot i).msglen = payload.length → (s.slot i).msglen ≠ 0 := by
    intro payload nonempty length empty
    exact nonempty (List.length_eq_zero_iff.mp (length.symm.trans empty))
  cases held with
  | quiet empty log silent unread unwritten =>
      exact ⟨Or.inl log, fun _ => log⟩
  | writing phase active length body log silent unread =>
      exact ⟨Or.inr ⟨_, log⟩, fun empty =>
        False.elim (full _ (Send.payload_ne_nil _) length empty)⟩
  | rung posted log token unread =>
      exact ⟨Or.inr ⟨_, log⟩, fun empty =>
        False.elim (full _ posted.nonempty posted.length empty)⟩
  | fired posted log silent phase only =>
      exact ⟨Or.inr ⟨_, log⟩, fun empty =>
        False.elim (full _ posted.nonempty posted.length empty)⟩
  | gotLength posted log silent phase only =>
      exact ⟨Or.inr ⟨_, log⟩, fun empty =>
        False.elim (full _ posted.nonempty posted.length empty)⟩
  | copied posted log silent phase only =>
      exact ⟨Or.inl log, fun _ => log⟩

/-- A move of one thread that has nothing to do with the slot. -/
theorem frame (held : Held s i) (slot : t.slot i = s.slot i)
    (counter : ∀ dest, t.counter dest i = s.counter dest i)
    (others : ∀ q, q ≠ p → t.phase q = s.phase q)
    (before : (s.phase p).source ≠ some i)
    (after : (t.phase p).source ≠ some i)
    (free : p = i → (s.phase p).committed = false ∧
      (t.phase p).committed = false) : Held t i := by
  have silent : Silent s i → Silent t i := fun quiet dest =>
    (counter dest).trans (quiet dest)
  have source : ∀ q, (t.phase q).source = some i →
      (s.phase q).source = some i := by
    intro q reads
    by_cases same : q = p
    · rw [same] at reads
      exact False.elim (after reads)
    · rwa [others q same] at reads
  have unread : (∀ q, (s.phase q).source ≠ some i) →
      ∀ q, (t.phase q).source ≠ some i :=
    fun none q reads => none q (source q reads)
  have reader : ∀ dest, (s.phase dest).source = some i →
      t.phase dest = s.phase dest := by
    intro dest reads
    apply others
    rintro rfl
    exact before reads
  have released : (s.phase i).committed = false →
      (t.phase i).committed = false := by
    intro done
    by_cases same : p = i
    · rw [← same]
      exact (free same).2
    · rw [others i (Ne.symm same)]
      exact done
  have posted : ∀ payload, Posted s i payload → Posted t i payload :=
    fun payload post => ⟨post.nonempty, by rw [slot]; exact post.length,
      by rw [slot]; exact post.body, released post.released⟩
  cases held with
  | quiet empty log quiet noReader unwritten =>
      refine .quiet (by rw [slot]; exact empty) (by rw [slot]; exact log)
        (silent quiet) (unread noReader) ?_
      by_cases same : p = i
      · rw [← same]
        exact Phase.writing_of_not_committed (free same).2
      · rw [others i (Ne.symm same)]
        exact unwritten
  | writing phase active length body log quiet noReader =>
      have same : t.phase i = s.phase i := by
        apply others
        rintro rfl
        rw [Phase.writing_of_not_committed (free rfl).1] at active
        cases active
      exact .writing (same.trans phase) (by rw [same]; exact active)
        (by rw [slot]; exact length) (by rw [slot]; exact body)
        (by rw [slot]; exact log) (silent quiet) (unread noReader)
  | rung post log token noReader =>
      exact .rung (posted _ post) (by rw [slot]; exact log)
        (fun dest => (counter dest).trans (token dest)) (unread noReader)
  | fired post log quiet phase only =>
      have reads := reader _ (by rw [phase]; rfl)
      exact .fired (posted _ post) (by rw [slot]; exact log) (silent quiet)
        (reads.trans phase) (fun q member => only q (source q member))
  | gotLength post log quiet phase only =>
      have reads := reader _ (by rw [phase]; rfl)
      exact .gotLength (posted _ post) (by rw [slot]; exact log)
        (silent quiet) (reads.trans phase)
        (fun q member => only q (source q member))
  | copied post log quiet phase only =>
      have reads := reader _ (by rw [phase]; rfl)
      exact .copied (posted _ post) (by rw [slot]; exact log) (silent quiet)
        (reads.trans phase) (fun q member => only q (source q member))

/-- A thread that is past its wait without having written, or about to pick
up nothing, finds the slot as it left it. -/
theorem quiet_of_sawEmpty (held : Held s i) {send : Send} {rest : List Send}
    (phase : s.phase i = .fill .sawEmpty send rest) :
    (s.slot i).sent = (s.slot i).got ∧ Silent s i ∧
      ∀ q, (s.phase q).source ≠ some i := by
  have unreleased : ∀ payload, ¬ Posted s i payload := by
    intro payload posted
    have released := posted.released
    rw [phase] at released
    cases released
  cases held with
  | quiet empty log silent unread unwritten => exact ⟨log, silent, unread⟩
  | writing other active length body log silent unread =>
      rw [phase] at active
      cases active
  | rung posted => exact False.elim (unreleased _ posted)
  | fired posted => exact False.elim (unreleased _ posted)
  | gotLength posted => exact False.elim (unreleased _ posted)
  | copied posted => exact False.elim (unreleased _ posted)

/-- A thread in the middle of its writes. -/
theorem of_writing (held : Held s i) {stage : FillStage} {send : Send}
    {rest : List Send} (phase : s.phase i = .fill stage send rest)
    (active : (s.phase i).writing = true) :
    (s.slot i).msglen = send.payload.length ∧
      (stage ≠ .wroteLength →
        (s.slot i).body.take send.payload.length = send.payload) ∧
      (s.slot i).sent = (s.slot i).got ++ [(send.dest, send.payload)] ∧
      Silent s i ∧ ∀ q, (s.phase q).source ≠ some i := by
  have unreleased : ∀ payload, ¬ Posted s i payload := by
    intro payload posted
    rw [Phase.writing_of_not_committed posted.released] at active
    cases active
  cases held with
  | quiet empty log silent unread unwritten =>
      rw [active] at unwritten
      cases unwritten
  | writing other _ length body log silent unread =>
      rw [phase] at other
      cases other
      exact ⟨length, body, log, silent, unread⟩
  | rung posted => exact False.elim (unreleased _ posted)
  | fired posted => exact False.elim (unreleased _ posted)
  | gotLength posted => exact False.elim (unreleased _ posted)
  | copied posted => exact False.elim (unreleased _ posted)

/-- Only the addressee's own counter is ever rung. -/
theorem of_rung (held : Held s i) (rung : s.counter p i ≠ 0) :
    ∃ payload, Posted s i payload ∧
      (s.slot i).sent = (s.slot i).got ++ [(p, payload)] ∧
      (∀ d, s.counter d i = if d = p then 1 else 0) ∧
      ∀ q, (s.phase q).source ≠ some i := by
  cases held with
  | quiet empty log silent unread unwritten =>
      exact False.elim (rung (silent p))
  | writing phase active length body log silent unread =>
      exact False.elim (rung (silent p))
  | rung posted log token unread =>
      rename_i dest payload
      have addressee : p = dest := by
        by_contra differ
        exact rung ((token p).trans (if_neg differ))
      exact ⟨payload, posted, addressee ▸ log, addressee ▸ token, unread⟩
  | fired posted log silent => exact False.elim (rung (silent p))
  | gotLength posted log silent => exact False.elim (rung (silent p))
  | copied posted log silent => exact False.elim (rung (silent p))

/-- A thread that is picking up the message is its addressee's, at the point
its phase says. -/
theorem of_source (held : Held s i) (reads : (s.phase p).source = some i) :
    ∃ payload, Posted s i payload ∧ Silent s i ∧ OnlyReader s i p ∧
      (s.phase p = .fired i ∧
          (s.slot i).sent = (s.slot i).got ++ [(p, payload)] ∨
        s.phase p = .gotLength i payload.length ∧
          (s.slot i).sent = (s.slot i).got ++ [(p, payload)] ∨
        s.phase p = .copied i payload ∧
          (s.slot i).sent = (s.slot i).got) := by
  cases held with
  | quiet empty log silent unread unwritten =>
      exact False.elim (unread p reads)
  | writing phase active length body log silent unread =>
      exact False.elim (unread p reads)
  | rung posted log token unread => exact False.elim (unread p reads)
  | fired posted log silent phase only =>
      obtain rfl := only p reads
      exact ⟨_, posted, silent, only, Or.inl ⟨phase, log⟩⟩
  | gotLength posted log silent phase only =>
      obtain rfl := only p reads
      exact ⟨_, posted, silent, only, Or.inr (Or.inl ⟨phase, log⟩)⟩
  | copied posted log silent phase only =>
      obtain rfl := only p reads
      exact ⟨_, posted, silent, only, Or.inr (Or.inr ⟨phase, log⟩)⟩

/-- The frame rule for a thread that writes at most to the slot and to the
notifiers of `j`. -/
theorem elsewhere (held : Held s i) {j : Nat} {phase : Phase} (differ : i ≠ j)
    (slot : ∀ k, k ≠ j → t.slot k = s.slot k)
    (counter : ∀ dest k, k ≠ j → t.counter dest k = s.counter dest k)
    (phases : t.phase = Function.update s.phase p phase)
    (before : (s.phase p).source ≠ some i) (after : phase.source ≠ some i)
    (free : p = i → (s.phase p).committed = false ∧
      phase.committed = false) : Held t i := by
  have self : t.phase p = phase := by rw [phases, Function.update_self]
  refine held.frame (slot i differ) (fun dest => counter dest i differ)
    (fun q other => by rw [phases, Function.update_of_ne other]) before ?_ ?_
  · rw [self]
    exact after
  · rw [self]
    exact free

/-- A change of phase alone. -/
theorem setPhase (held : Held s i) {phase : Phase}
    (before : (s.phase p).source ≠ some i) (after : phase.source ≠ some i)
    (free : p = i → (s.phase p).committed = false ∧
      phase.committed = false) : Held (s.setPhase p phase) i := by
  refine held.frame rfl (fun _ => rfl)
    (fun q other => Function.update_of_ne other _ _) before ?_ ?_
  · rw [phase_setPhase, Function.update_self]
    exact after
  · rw [phase_setPhase, Function.update_self]
    exact free

/-- A `fill` that writes to a slot spares the others. -/
theorem fill_elsewhere (held : Held s i) {stage next : FillStage} {send : Send}
    {rest : List Send} {write : Mailslot → Mailslot}
    (phase : s.phase send.sender = .fill stage send rest)
    (differ : i ≠ send.sender) :
    Held ((s.modifySlot send.sender write).setPhase send.sender
      (.fill next send rest)) i := by
  apply held.elsewhere differ
  · exact fun k other => Function.update_of_ne other _ _
  · exact fun _ _ _ => rfl
  · exact rfl
  · rw [phase]
    exact nofun
  · exact nofun
  · exact fun owner => False.elim (differ owner.symm)

/-- A reader that writes to the slot it reads from spares the others. -/
theorem read_elsewhere (held : Held s i) {source : Nat} {write : Mailslot → Mailslot}
    {phase : Phase} (differ : i ≠ source)
    (reads : (s.phase p).source = some source)
    (free : (s.phase p).committed = false)
    (after : phase.source = some source ∨ phase.source = none)
    (stays : phase.committed = false) :
    Held ((s.modifySlot source write).setPhase p phase) i := by
  have other : (some source : Option Nat) ≠ some i := fun equal =>
    differ (Option.some.inj equal).symm
  apply held.elsewhere differ
  · exact fun k other => Function.update_of_ne other _ _
  · exact fun _ _ _ => rfl
  · exact rfl
  · rw [reads]
    exact other
  · rcases after with still | done
    · rw [still]
      exact other
    · rw [done]
      exact nofun
  · exact fun _ => ⟨free, stays⟩

/-- The owner saw its slot empty. -/
theorem see (held : Held s i) {send : Send} {rest : List Send}
    (phase : s.phase i = .fill .waiting send rest)
    (empty : (s.slot i).msglen = 0) :
    Held (s.setPhase i (.fill .sawEmpty send rest)) i := by
  have settled := held.exactlyOnce.emptied empty
  have unposted : ∀ payload, ¬ Posted s i payload := by
    intro payload posted
    exact posted.nonempty
      (List.length_eq_zero_iff.mp (posted.length.symm.trans empty))
  have notSource : ∀ q, (s.phase q).source ≠ some i := by
    intro q reads
    obtain ⟨payload, posted, -⟩ := held.of_source reads
    exact unposted payload posted
  have silent : Silent s i := by
    intro dest
    by_contra rung
    obtain ⟨payload, posted, -⟩ := held.of_rung rung
    exact unposted payload posted
  refine .quiet empty settled silent ?_ ?_
  · intro q
    by_cases same : q = i
    · subst same
      simp [Phase.source]
    · rw [phase_setPhase, Function.update_of_ne same]
      exact notSource q
  · simp [Phase.writing]

/-- The owner writes the length into the slot it saw empty. -/
theorem writeLength (held : Held s i) {send : Send} {rest : List Send}
    (phase : s.phase i = .fill .sawEmpty send rest) :
    Held ((s.modifySlot i fun slot =>
      { slot with
        msglen := send.payload.length
        sent := slot.sent ++ [(send.dest, send.payload)] }).setPhase i
          (.fill .wroteLength send rest)) i := by
  obtain ⟨log, silent, unread⟩ := held.quiet_of_sawEmpty phase
  refine .writing (by simp only [phase_setPhase, Function.update_self]; rfl)
    ?_ ?_ ?_ ?_ silent ?_
  · simp [Phase.writing]
  · simp
  · intro later
    exact False.elim (later rfl)
  · simp [log]
  · intro q
    by_cases same : q = i
    · subst same
      simp [Phase.source]
    · simp only [phase_setPhase, phase_modifySlot, Function.update_of_ne same]
      exact unread q

/-- The owner writes on: the body and then its terminating NUL. -/
theorem writeOn (held : Held s i) {stage next : FillStage} {send : Send}
    {rest : List Send} (phase : s.phase i = .fill stage send rest)
    (active : (s.phase i).writing = true)
    (goes : (Phase.fill next send rest).writing = true)
    (f : List UInt8 → List UInt8)
    (written : (stage ≠ .wroteLength →
        (s.slot i).body.take send.payload.length = send.payload) →
      (f (s.slot i).body).take send.payload.length = send.payload) :
    Held ((s.modifySlot i fun slot =>
      { slot with body := f slot.body }).setPhase i (.fill next send rest))
      i := by
  obtain ⟨length, body, log, silent, unread⟩ := held.of_writing phase active
  refine .writing (by simp only [phase_setPhase, Function.update_self]; rfl)
    ?_ ?_ ?_ ?_ silent ?_
  · simpa using goes
  · simpa using length
  · intro _
    simpa using written body
  · simpa using log
  · intro q
    by_cases same : q = i
    · subst same
      simp [Phase.source]
    · simp only [phase_setPhase, phase_modifySlot, Function.update_of_ne same]
      exact unread q

/-- The owner rings the addressee and is done. -/
theorem ring (held : Held s i) {send : Send} {rest : List Send}
    (phase : s.phase i = .fill .wroteNul send rest) {next : Phase}
    (noSource : next.source = none) (released : next.committed = false) :
    Held ((s.setCounter send.dest i
      (incr (s.counter send.dest i))).setPhase i next) i := by
  obtain ⟨length, body, log, silent, unread⟩ :=
    held.of_writing phase (by rw [phase]; rfl)
  have posted : Posted ((s.setCounter send.dest i
      (incr (s.counter send.dest i))).setPhase i next) i send.payload :=
    ⟨send.payload_ne_nil, length, body (by decide), by simpa using released⟩
  refine .rung posted log ?_ ?_
  · intro d
    simp only [counter_setPhase, counter_setCounter]
    by_cases same : d = send.dest
    · rw [same, Function.update_self, Function.update_self, if_pos rfl,
        silent send.dest]
      rfl
    · rw [Function.update_of_ne same, if_neg same]
      exact silent d
  · intro q
    by_cases same : q = i
    · rw [same, phase_setPhase, Function.update_self, noSource]
      exact nofun
    · simp only [phase_setPhase, phase_setCounter, Function.update_of_ne same]
      exact unread q

/-- The addressee takes the token out of its counter. -/
theorem wake (held : Held s i) (idle : s.phase p = .idle)
    (rung : s.counter p i ≠ 0) :
    Held ((s.setCounter p i 0).setPhase p (.fired i)) i := by
  obtain ⟨payload, posted, log, token, unread⟩ := held.of_rung rung
  have stays : Posted ((s.setCounter p i 0).setPhase p (.fired i)) i
      payload := by
    refine ⟨posted.nonempty, posted.length, posted.body, ?_⟩
    by_cases same : i = p
    · subst same
      simp [Phase.committed]
    · rw [phase_setPhase, Function.update_of_ne same]
      exact posted.released
  refine .fired stays log ?_ (by simp) ?_
  · intro d
    simp only [counter_setPhase, counter_setCounter]
    by_cases same : d = p
    · rw [same, Function.update_self, Function.update_self]
    · rw [Function.update_of_ne same, token, if_neg same]
  · intro q reads
    by_contra differ
    simp only [phase_setPhase, phase_setCounter,
      Function.update_of_ne differ] at reads
    exact unread q reads

/-- What stays of a posted message while its addressee picks it up. -/
theorem posted_pickup {payload : List UInt8} (posted : Posted s i payload)
    (same : (t.slot i).msglen = (s.slot i).msglen)
    (body : (t.slot i).body = (s.slot i).body)
    {phase : Phase} (phases : t.phase = Function.update s.phase p phase)
    (released : phase.committed = false) : Posted t i payload := by
  refine ⟨posted.nonempty, same.trans posted.length, ?_, ?_⟩
  · rw [body]
    exact posted.body
  · rw [phases]
    by_cases owner : i = p
    · rw [owner, Function.update_self]
      exact released
    · rw [Function.update_of_ne owner]
      exact posted.released

theorem onlyReader_pickup (only : OnlyReader s i p) {phase : Phase}
    (phases : t.phase = Function.update s.phase p phase) :
    OnlyReader t i p := by
  intro q reads
  by_contra differ
  rw [phases, Function.update_of_ne differ] at reads
  exact differ (only q reads)

/-- The addressee reads the length. -/
theorem readLength (held : Held s i) (phase : s.phase p = .fired i) :
    Held (s.setPhase p (.gotLength i (s.slot i).msglen)) i := by
  obtain ⟨payload, posted, silent, only, place⟩ :=
    held.of_source (by rw [phase]; rfl)
  have log : (s.slot i).sent = (s.slot i).got ++ [(p, payload)] := by
    rcases place with ⟨-, log⟩ | ⟨other, -⟩ | ⟨other, -⟩
    · exact log
    · rw [phase] at other
      cases other
    · rw [phase] at other
      cases other
  exact .gotLength (posted_pickup posted rfl rfl rfl rfl) log silent
    (by simp [posted.length]) (onlyReader_pickup only rfl)

/-- The addressee copies the body: exactly the bytes sent. -/
theorem copyBody (held : Held s i) {msglen : Nat}
    (phase : s.phase p = .gotLength i msglen) :
    Held ((s.modifySlot i fun slot =>
      { slot with got := slot.got ++ [(p, slot.body.take msglen)] }).setPhase
        p (.copied i ((s.slot i).body.take msglen))) i := by
  obtain ⟨payload, posted, silent, only, place⟩ :=
    held.of_source (by rw [phase]; rfl)
  rcases place with ⟨other, -⟩ | ⟨here, log⟩ | ⟨other, -⟩
  · rw [phase] at other
    cases other
  · rw [phase] at here
    cases here
    refine .copied (posted_pickup posted (by simp) (by simp) rfl rfl)
      ?_ silent (by simp [posted.body]) (onlyReader_pickup only rfl)
    simp [posted.body, log]
  · rw [phase] at other
    cases other

/-- The addressee empties the slot, which ends the exchange. -/
theorem clear (held : Held s i) {msg : List UInt8}
    (phase : s.phase p = .copied i msg) :
    Held ((s.modifySlot i fun slot =>
      { slot with msglen := 0 }).setPhase p (.handling i msg)) i := by
  obtain ⟨payload, posted, silent, only, place⟩ :=
    held.of_source (by rw [phase]; rfl)
  have log : (s.slot i).sent = (s.slot i).got := by
    rcases place with ⟨other, -⟩ | ⟨other, -⟩ | ⟨-, log⟩
    · rw [phase] at other
      cases other
    · rw [phase] at other
      cases other
    · exact log
  refine .quiet (by simp) (by simpa using log) silent ?_ ?_
  · intro q reads
    by_cases same : q = p
    · subst same
      simp [Phase.source] at reads
    · simp only [phase_setPhase, phase_modifySlot,
        Function.update_of_ne same] at reads
      exact same (only q reads)
  · by_cases owner : i = p
    · subst owner
      simp [Phase.writing]
    · simp only [phase_setPhase, phase_modifySlot,
        Function.update_of_ne owner]
      exact Phase.writing_of_not_committed posted.released

end Held

/-! ### Runs -/

/-- Every slot is in one of its six situations and every pending send is from
the sender's own slot. -/
structure Sound (s : State) : Prop where
  own : ∀ p, ∀ send ∈ (s.phase p).sends, send.sender = p
  held : ∀ i, Held s i

namespace Sound

variable {serverId : Nat} {s t : State} {label : Label}

theorem init : Sound init := by
  refine ⟨fun _ => nofun, fun i => ?_⟩
  exact .quiet rfl rfl (fun _ => rfl) (fun _ => nofun) rfl

/-- Only the moving thread's pending sends can change. -/
theorem own_update (sound : Sound s) {p : Nat} {phase : Phase}
    (phases : t.phase = Function.update s.phase p phase)
    (new : ∀ send ∈ phase.sends, send.sender = p) :
    ∀ q, ∀ send ∈ (t.phase q).sends, send.sender = q := by
  intro q
  by_cases same : q = p
  · rw [same, phases, Function.update_self]
    exact new
  · rw [phases, Function.update_of_ne same]
    exact sound.own q

/-- The sender of a `fill` is its thread. -/
theorem sender (sound : Sound s) {p : Nat} {stage : FillStage} {send : Send}
    {rest : List Send} (phase : s.phase p = .fill stage send rest) :
    send.sender = p := by
  apply sound.own p send
  rw [phase]
  exact List.mem_cons_self ..

theorem rest (sound : Sound s) {p : Nat} {stage : FillStage} {send : Send}
    {rest : List Send} (phase : s.phase p = .fill stage send rest) :
    ∀ later ∈ send :: rest, later.sender = p := by
  intro later member
  apply sound.own p later
  rw [phase]
  exact member

theorem own_step (sound : Sound s) (own : OwnSlot label)
    (moves : Moves serverId s label t) :
    ∀ q, ∀ send ∈ (t.phase q).sends, send.sender = q := by
  cases moves with
  | command peer idle =>
      refine sound.own_update rfl fun send member => ?_
      have sent := mem_sends_startSends member
      simp only [placeAndGo, List.mem_flatMap, List.mem_map] at sent
      obtain ⟨S, source, D, -, rfl⟩ := sent
      exact own S source
  | wake peer idle rung => exact sound.own_update rfl nofun
  | timeout phase => exact False.elim own
  | see phase empty => exact sound.own_update rfl (sound.rest phase)
  | writeLength phase => exact sound.own_update rfl (sound.rest phase)
  | writeBody phase => exact sound.own_update rfl (sound.rest phase)
  | writeNul phase => exact sound.own_update rfl (sound.rest phase)
  | ring phase =>
      refine sound.own_update rfl fun send member => ?_
      exact sound.rest phase send
        (List.mem_cons_of_mem _ (mem_sends_startSends member))
  | readLength phase => exact sound.own_update rfl nofun
  | copyBody phase => exact sound.own_update rfl nofun
  | clear phase => exact sound.own_update rfl nofun
  | handled phase =>
      rename_i p source msg reply
      refine sound.own_update rfl fun send member => ?_
      have sent := mem_sends_startSends member
      cases reply with
      | none => cases sent
      | some answer =>
          rw [replies, List.mem_singleton] at sent
          rw [sent]

theorem take_writeBody (msg body : List UInt8) :
    (writeBody msg body).take msg.length = msg := by
  simp [writeBody]

/-- One move of one thread, seen from any slot. -/
theorem held_step (sound : Sound s) (own : OwnSlot label)
    (moves : Moves serverId s label t) (i : Nat) : Held t i := by
  have held := sound.held i
  cases moves with
  | command peer idle =>
      exact held.setPhase (by rw [idle]; exact nofun) (by simp)
        fun _ => ⟨by rw [idle]; rfl, by simp⟩
  | timeout phase => exact False.elim own
  | handled phase =>
      exact held.setPhase (by rw [phase]; exact nofun) (by simp)
        fun _ => ⟨by rw [phase]; rfl, by simp⟩
  | wake peer idle rung =>
      rename_i p source
      by_cases same : i = source
      · subst same
        exact held.wake idle rung
      · refine held.elsewhere same (fun _ _ => rfl) ?_ rfl
          (by rw [idle]; exact nofun) ?_ fun _ => ⟨by rw [idle]; rfl, rfl⟩
        · exact fun dest k differ => counter_setCounter_of_ne differ
        · exact fun reads => same (Option.some.inj reads).symm
  | see phase empty =>
      rename_i p send rest
      obtain rfl := sound.sender phase
      by_cases same : i = send.sender
      · subst same
        exact held.see phase empty
      · exact held.setPhase (by rw [phase]; exact nofun) nofun
          fun owner => False.elim (same owner.symm)
  | writeLength phase =>
      rename_i p send rest
      obtain rfl := sound.sender phase
      by_cases same : i = send.sender
      · subst same
        exact held.writeLength phase
      · exact held.fill_elsewhere phase same
  | writeBody phase =>
      rename_i p send rest
      obtain rfl := sound.sender phase
      by_cases same : i = send.sender
      · subst same
        exact held.writeOn phase (by rw [phase]; rfl) rfl
          (writeBody send.payload) fun _ => take_writeBody _ _
      · exact held.fill_elsewhere phase same
  | writeNul phase =>
      rename_i p send rest
      obtain rfl := sound.sender phase
      by_cases same : i = send.sender
      · subst same
        refine held.writeOn phase (by rw [phase]; rfl) rfl
          (fun body => body.set send.payload.length 0) fun before => ?_
        rw [List.take_set_of_le (Nat.le_refl _)]
        exact before (by decide)
      · exact held.fill_elsewhere phase same
  | ring phase =>
      rename_i p send rest
      obtain rfl := sound.sender phase
      by_cases same : i = send.sender
      · subst same
        exact held.ring phase (by simp) (by simp)
      · refine held.elsewhere same (fun _ _ => rfl) ?_ rfl
          (by rw [phase]; exact nofun) (by simp)
          fun owner => False.elim (same owner.symm)
        exact fun dest k differ => counter_setCounter_of_ne differ
  | readLength phase =>
      rename_i p source
      by_cases same : i = source
      · subst same
        exact held.readLength phase
      · have other : (some source : Option Nat) ≠ some i := fun equal =>
          same (Option.some.inj equal).symm
        exact held.setPhase (by rw [phase]; exact other) other
          fun _ => ⟨by rw [phase]; rfl, rfl⟩
  | copyBody phase =>
      rename_i p source msglen
      by_cases same : i = source
      · subst same
        exact held.copyBody phase
      · exact held.read_elsewhere same (by rw [phase]; rfl) (by rw [phase]; rfl)
          (.inl rfl) rfl
  | clear phase =>
      rename_i p source msg
      by_cases same : i = source
      · subst same
        exact held.clear phase
      · exact held.read_elsewhere same (by rw [phase]; rfl) (by rw [phase]; rfl)
          (.inr rfl) rfl

theorem step (sound : Sound s) (own : OwnSlot label)
    (moves : Moves serverId s label t) : Sound t :=
  ⟨sound.own_step own moves, sound.held_step own moves⟩

end Sound

/-- For any number of peers and every interleaving of their accesses in which
each peer sends from its own mailslot and no `fill` times out, every message is
copied out at most once, only by its addressee and with the bytes sent, and it
is never overwritten before that. -/
theorem delivered_exactly_once (serverId : Nat) (trace : List Label)
    (own : Transition.Meets (step serverId) (fun _ label => OwnSlot label)
      init trace) :
    Transition.Always (step serverId)
      (fun s => ∀ i, ExactlyOnce (s.slot i)) init trace := by
  refine ⟨fun i => (Sound.init.held i).exactlyOnce, ?_⟩
  refine Transition.along_of_invariant
    (fun s label t (sound : Sound s) inside taken => ?_) Sound.init own
  have after := sound.step inside (step_moves taken)
  exact ⟨after, fun i => (after.held i).exactlyOnce⟩

/-- Peer 1 pings the server, which answers. -/
theorem delivered_ping :
    Transition.Always (step 2) (fun s => ∀ i, ExactlyOnce (s.slot i)) init
      [.command 1 [1] [2] (ascii "ping") 1, .proceed 1, .proceed 1, .proceed 1,
        .proceed 1, .proceed 1, .wake 2 1, .proceed 2, .proceed 2, .proceed 2,
        .handled 2 (some (ascii "pong", 2)), .proceed 2] :=
  delivered_exactly_once 2 _ (by decide)

end FameZ.Mailbox
