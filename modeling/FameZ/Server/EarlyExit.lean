/-
Module: FameZ.Server.EarlyExit
Purpose: Connections that leave connectionMade early: when the established
  clients notice nothing of them, from connectionMade to connectionLost.
Trusted boundary: none
Main exports: LeavesEarly, Unnoticed, Harmless, Enrolled,
  invisible_iff_harmless
-/
import FameZ.Server.Identity

namespace FameZ.Server

/-!
connectionLost runs the same cleanup for a proxy that was refused, that had no
notifiers, or whose first message failed.  It removes by id, and without
recycling it tells every established client.
-/

/-- The event is the connectionMade of a proxy that returns early, or the
connectionLost of one that did. -/
inductive LeavesEarly (s t : State) (self : Nat) : Event → Prop where
  | made {notifiersOk : Bool} (stopped : (t.proxy self).stage = .stopped) :
      LeavesEarly s t self (.made self notifiersOk)
  | lost (stopped : (s.proxy self).stage = .stopped) :
      LeavesEarly s t self (.lost self)

/-- No established client got a message, lost its entry or its node name. -/
structure Unnoticed (s t : State) : Prop where
  untold : ∀ client ∈ s.clients.values, t.stream client = s.stream client
  registered : ∀ id client, s.clients.get? id = some client →
    t.clients.get? id = some client
  named : ∀ id client, s.clients.get? id = some client →
    t.slotName id.toNat = s.slotName id.toNat

/-- The claim on one step: early exits go unnoticed. -/
def Invisible (s : State) (event : Event) (t : State) : Prop :=
  ∀ self, LeavesEarly s t self event → Unnoticed s t

/-- The condition on one event: when a proxy that stopped early is lost, its
id is nobody's, and nobody gets the notice of a server that does not
recycle. -/
def Harmless (args : Args) (net : Nat → Bool) (s : State) : Event → Prop
  | .lost self =>
      (s.proxy self).stage = .stopped →
        s.clients.get? (s.proxy self).id = none ∧
          (args.recycle = false →
            ∀ k < s.clients.values.length, net (s.sends + k) = false)
  | _ => True

/-! ### Sends that fail and sends that do not -/

theorem stream_send_of_ne (net : Nat → Bool) {sock other : Nat}
    (differ : other ≠ sock) (data : Int) (fd : Option Nat) (s : State) :
    (ivshmemSendOneMsg net sock data fd s).2.stream other =
      s.stream other := by
  unfold ivshmemSendOneMsg
  split
  · exact Function.update_of_ne differ _ _
  · rfl

theorem sends_send (net : Nat → Bool) (sock : Nat) (data : Int)
    (fd : Option Nat) (s : State) :
    (ivshmemSendOneMsg net sock data fd s).2.sends = s.sends + 1 := by
  unfold ivshmemSendOneMsg
  split <;> rfl

/-- Nothing arrives when every call fails. -/
theorem stream_sendAll_of_down {net : Nat → Bool} (sends : List Send)
    {s : State} (down : ∀ k < sends.length, net (s.sends + k) = false) :
    (sendAll net sends s).stream = s.stream := by
  induction sends generalizing s with
  | nil => rfl
  | cons send rest inductionHypothesis =>
      have first : net s.sends = false := down 0 (Nat.zero_lt_succ _)
      have failed : ivshmemSendOneMsg net send.sock send.msg.data send.msg.fd
          s = (false, { s with sends := s.sends + 1 }) := by
        rw [ivshmemSendOneMsg, first]
        rfl
      rw [sendAll, List.foldl_cons, ← sendAll, failed]
      apply inductionHypothesis
      intro k below
      have later := down (k + 1) (Nat.succ_lt_succ below)
      rw [← later]
      congr 1
      change s.sends + 1 + k = s.sends + (k + 1)
      omega

/-- Streams only grow. -/
theorem stream_sendAll_grows (net : Nat → Bool) (sends : List Send)
    (s : State) (sock : Nat) :
    (s.stream sock).length ≤ ((sendAll net sends s).stream sock).length := by
  induction sends generalizing s with
  | nil => exact Nat.le_refl _
  | cons send rest inductionHypothesis =>
      rw [sendAll, List.foldl_cons, ← sendAll]
      apply Nat.le_trans _ (inductionHypothesis _)
      by_cases own : sock = send.sock
      · unfold ivshmemSendOneMsg
        split
        · rw [own]
          dsimp only
          rw [Function.update_self]
          exact (List.sublist_append_left _ _).length_le
        · exact Nat.le_refl _
      · have kept := stream_send_of_ne net own send.msg.data
          send.msg.fd s
        exact Nat.le_of_eq (congrArg List.length kept.symm)

/-- A call that succeeds lengthens the stream of its socket. -/
theorem stream_sendAll_of_up {net : Nat → Bool} {sends : List Send}
    {s : State} {k : Nat} {send : Send} (found : sends[k]? = some send)
    (up : net (s.sends + k) = true) :
    (s.stream send.sock).length <
      ((sendAll net sends s).stream send.sock).length := by
  induction sends generalizing s k with
  | nil => cases found
  | cons first rest inductionHypothesis =>
      rw [sendAll, List.foldl_cons, ← sendAll]
      cases k with
      | zero =>
          cases found
          apply Nat.lt_of_lt_of_le _ (stream_sendAll_grows net rest _ _)
          have taken : net s.sends = true := up
          unfold ivshmemSendOneMsg
          rw [if_pos taken]
          dsimp only
          rw [Function.update_self, List.length_append, List.length_singleton]
          omega
      | succ k =>
          have later := inductionHypothesis
            (s := (ivshmemSendOneMsg net first.sock first.msg.data
              first.msg.fd s).2) found (by
                rw [sends_send, ← up]
                congr 1
                omega)
          apply Nat.lt_of_le_of_lt _ later
          exact stream_sendAll_grows net [first] s send.sock

/-! ### An early return of connectionMade -/

/-- Only the socket of `self` and the proxy itself changed. -/
structure KeepsToItself (self : Nat) (s t : State) : Prop where
  streams : ∀ other, other ≠ self → t.stream other = s.stream other
  slotName : t.slotName = s.slotName

theorem refuse_keepsToItself (net : Nat → Bool) (self : Nat) (s : State) :
    KeepsToItself self s (refuse net self s) := by
  refine ⟨fun other differ => stream_send_of_ne net differ (-1) none s, ?_⟩
  have quiet := registry_ivshmemSendOneMsg net self (-1) none s
  change (ivshmemSendOneMsg net self (-1) none s).2.registry.slotName = _
  rw [quiet]
  rfl

theorem introduce_keepsToItself (args : Args) {net : Nat → Bool} (self : Nat)
    (recycled : Bool) {s : State} (failure : net s.sends = false) :
    KeepsToItself self s (introduce args net self recycled s) := by
  have failed : sendInitialInfo net self s =
      (false, { s with sends := s.sends + 1 }) := by
    rw [sendInitialInfo, ivshmemSendOneMsg, failure]
    rfl
  rw [introduce, failed]
  exact ⟨fun _ _ => rfl, rfl⟩

/-- Whatever made it return early, the others see nothing. -/
theorem connectionMade_keepsToItself (args : Args) {net : Nat → Bool}
    {notifiersOk : Bool} {self : Nat} {s : State}
    (incomplete : ¬ Completes net notifiersOk self s) :
    KeepsToItself self s (connectionMade args net notifiersOk self s) := by
  unfold connectionMade
  cases recycled : s.recycled.get? (s.proxy self).id with
  | none =>
      by_cases refused : (s.proxy self).id = -1
      · simp only [recycled, if_pos refused]
        exact refuse_keepsToItself net self s
      · cases notifiersOk with
        | false =>
            simp only [recycled, if_neg refused, Bool.false_eq_true, if_false]
            exact refuse_keepsToItself net self s
        | true =>
            have failure : net s.sends = false := by
              by_contra success
              exact incomplete
                ⟨refused, by simpa using success, by rw [recycled]⟩
            simp only [recycled, if_neg refused, if_true]
            obtain ⟨streams, slotName⟩ := introduce_keepsToItself args self
              false (s := createNotifiers args self s) failure
            exact ⟨streams, slotName⟩
  | some dead =>
      by_cases refused : (s.proxy self).id = -1
      · simp only [recycled, if_pos refused]
        obtain ⟨streams, slotName⟩ := refuse_keepsToItself net self
          { s with recycled := s.recycled.del (s.proxy dead).id }
        exact ⟨streams, slotName⟩
      · cases enListEq : (s.proxy dead).enList with
        | none =>
            simp only [recycled, if_neg refused, enListEq]
            exact ⟨fun _ _ => rfl, rfl⟩
        | some enList =>
            have failure : net s.sends = false := by
              by_contra success
              exact incomplete
                ⟨refused, by simpa using success,
                  by simp [recycled, enListEq]⟩
            simp only [recycled, if_neg refused, enListEq]
            obtain ⟨streams, slotName⟩ := introduce_keepsToItself args self
              true (s := State.modify
                { s with recycled := s.recycled.del (s.proxy dead).id } self
                fun proxy => { proxy with enList := some enList }) failure
            exact ⟨streams, slotName⟩

/-! ### Who is registered -/

/-- Registered proxies completed, under the id they hold. -/
structure Enrolled (s : State) : Prop where
  completed : ∀ id client, s.clients.get? id = some client →
    Completed s client ∧ (s.proxy client).id = id
  unbuilt : ∀ self, s.built ≤ self → (s.proxy self).stage = .lost

namespace Enrolled

variable {args : Args} {net : Nat → Bool} {s t : State} {self : Nat}

theorem init (args : Args) : Enrolled (init args) :=
  ⟨fun _ _ registered => (by cases registered), fun _ _ => rfl⟩

/-- A registered proxy is not one on its way or one that gave up. -/
theorem ne_of_stage (enrolled : Enrolled s) {id : Int} {client : Nat}
    (registered : s.clients.get? id = some client)
    (stage : (s.proxy self).stage ≠ .completed) : client ≠ self := by
  rintro rfl
  exact stage (enrolled.completed id client registered).1

theorem build (enrolled : Enrolled s) {choice : Nat}
    (taken : buildProtocol args choice s = some t) : Enrolled t := by
  obtain ⟨id, -, rfl⟩ := Option.map_eq_some_iff.mp taken
  have old : ∀ other, other ≠ s.built →
      Function.update s.proxy s.built (newProxy args id s) other =
        s.proxy other := fun other differ => Function.update_of_ne differ _ _
  constructor
  · intro id client registered
    have differ : client ≠ s.built := by
      apply enrolled.ne_of_stage registered
      rw [enrolled.unbuilt s.built (Nat.le_refl _)]
      exact nofun
    have holds := enrolled.completed id client registered
    have same := old client differ
    exact ⟨(congrArg Proxy.stage same).trans holds.1,
      (congrArg Proxy.id same).trans holds.2⟩
  · intro other above
    have above : s.built + 1 ≤ other := above
    change ((Function.update s.proxy s.built _) other).stage = _
    rw [old other (by omega)]
    exact enrolled.unbuilt other (by omega)

/-- A step of one proxy, which may end up registered under its own id. -/
theorem of_own (enrolled : Enrolled s) (below : self < s.built)
    (built : t.built = s.built)
    (old : ∀ other, other ≠ self → t.proxy other = s.proxy other)
    (clients : ∀ id client, t.clients.get? id = some client →
      client ≠ self ∧ s.clients.get? id = some client ∨
        client = self ∧ Completed t self ∧ (t.proxy self).id = id) :
    Enrolled t := by
  constructor
  · intro id client registered
    rcases clients id client registered with ⟨differ, before⟩ | ⟨rfl, holds⟩
    · rw [Completed, old client differ]
      exact enrolled.completed id client before
    · exact holds
  · intro other above
    rw [built] at above
    rw [old other (by omega)]
    exact enrolled.unbuilt other above

theorem stops (enrolled : Enrolled s) (stage : (s.proxy self).stage = .built)
    (below : self < s.built) (stops : Stops self s t) : Enrolled t := by
  obtain ⟨clients, built, proxy, -, -, proxies⟩ := stops
  apply enrolled.of_own below built
  · intro other differ
    rw [proxies, Function.update_of_ne differ]
  · intro id client registered
    rw [clients] at registered
    refine .inl ⟨enrolled.ne_of_stage registered ?_, registered⟩
    rw [stage]
    exact nofun

theorem registers (enrolled : Enrolled s)
    (stage : (s.proxy self).stage = .built) (below : self < s.built)
    (registers : Registers self s t) : Enrolled t := by
  obtain ⟨clients, built, proxy, completed, idEq, proxies⟩ := registers
  apply enrolled.of_own below built
  · intro other differ
    rw [proxies, Function.update_of_ne differ]
  · intro id client registered
    rw [clients, OrderedDict.get?_set] at registered
    split at registered
    · rename_i own
      cases registered
      rw [Completed, proxies, Function.update_self]
      exact .inr ⟨rfl, completed, idEq.trans own.symm⟩
    · refine .inl ⟨enrolled.ne_of_stage registered ?_, registered⟩
      rw [stage]
      intro wrong
      cases wrong

theorem lost (enrolled : Enrolled s) (below : self < s.built) :
    Enrolled (connectionLost args net self s) := by
  obtain ⟨clients, built, proxies⟩ := connectionLost_registry args net self s
  apply enrolled.of_own below built
  · intro other differ
    rw [proxies, State.unregister, proxy_modify, Function.update_of_ne differ]
  · intro id client registered
    rw [clients, OrderedDict.get?_del] at registered
    split at registered
    · cases registered
    · rename_i otherId
      refine .inl ⟨?_, registered⟩
      rintro rfl
      exact otherId (enrolled.completed id client registered).2.symm

theorem step (enrolled : Enrolled s) {event : Event}
    (taken : Server.step args net s event = some t) : Enrolled t := by
  cases event with
  | build choice => exact enrolled.build taken
  | made self notifiersOk =>
      simp only [Server.step, Option.ite_none_right_eq_some,
        Option.some.injEq] at taken
      obtain ⟨⟨below, stage⟩, rfl⟩ := taken
      by_cases completes : Completes net notifiersOk self s
      · exact enrolled.registers stage below
          (connectionMade_registers args completes)
      · exact enrolled.stops stage below
          (connectionMade_stops args completes)
  | lost self =>
      simp only [Server.step, Option.ite_none_right_eq_some,
        Option.some.injEq] at taken
      obtain ⟨⟨below, -⟩, rfl⟩ := taken
      exact enrolled.lost below
  | named self nodename =>
      simp only [Server.step, Option.ite_none_right_eq_some,
        Option.some.injEq] at taken
      obtain ⟨-, rfl⟩ := taken
      exact ⟨enrolled.completed, enrolled.unbuilt⟩

end Enrolled

/-! ### The loss of a proxy that stopped early -/

/-- The notices of a disconnect. -/
def notices (id : Int) (clients : List Nat) : List Send :=
  clients.map fun other => { sock := other, msg := { data := id, fd := none } }

theorem flatMap_notices (id : Int) (clients : List Nat) :
    (clients.flatMap fun other => sendTo other [{ data := id, fd := none }]) =
      notices id clients := List.map_eq_flatMap.symm

theorem dismiss_stream (args : Args) (net : Nat → Bool) (self : Nat)
    (s : State) :
    (dismiss args net self s).stream =
      (sendAll net (notices (s.proxy self).id s.clients.values) s).stream := by
  unfold dismiss
  dsimp only
  rw [flatMap_notices]
  split
  · rfl
  · rw [clearMailslot_eq]

/-- The only node name a disconnect can empty is the one of its own id. -/
theorem dismiss_slotName (args : Args) (net : Nat → Bool) (self : Nat)
    (s : State) {id : Int} (other : id ≠ (s.proxy self).id) :
    (dismiss args net self s).slotName id.toNat = s.slotName id.toNat := by
  unfold dismiss
  dsimp only
  rw [flatMap_notices]
  have quiet : (sendAll net (notices (s.proxy self).id s.clients.values)
      s).slotName = s.slotName := by
    change State.slotName (State.registry _) = _
    rw [registry_sendAll]
    rfl
  split
  · rw [quiet]
  · unfold clearMailslot
    split
    · rename_i inRange
      have differ : id.toNat ≠ (s.proxy self).id.toNat := by omega
      dsimp only
      rw [Function.update_of_ne differ, quiet]
    · dsimp only
      rw [quiet]

section Lost

variable {args : Args} {net : Nat → Bool} {s : State} {self : Nat}

theorem unregister_id (s : State) (self : Nat) :
    ((s.unregister self).proxy self).id = (s.proxy self).id := by
  rw [State.unregister, proxy_modify, Function.update_self]

/-- A harmless loss. -/
theorem unnoticed_of_lost (free : s.clients.get? (s.proxy self).id = none)
    (down : args.recycle = false →
      ∀ k < s.clients.values.length, net (s.sends + k) = false) :
    Unnoticed s (connectionLost args net self s) := by
  have clients := (connectionLost_registry args net self s).1
  have idEq := unregister_id s self
  have left : (s.unregister self).clients = s.clients :=
    OrderedDict.del_of_get?_none free
  have holder : ∀ id client, s.clients.get? id = some client →
      id ≠ (s.proxy self).id := by
    rintro id client registered rfl
    rw [free] at registered
    cases registered
  refine ⟨fun client _ => ?_, fun id client registered => ?_,
    fun id client registered => ?_⟩
  · cases recycle : args.recycle with
    | true =>
        rw [connectionLost, if_pos recycle]
        rfl
    | false =>
        have fails : ∀ k < (notices (s.proxy self).id
            s.clients.values).length, net (s.sends + k) = false := by
          intro k below
          rw [notices, List.length_map] at below
          exact down recycle k below
        rw [connectionLost, recycle, if_neg Bool.false_ne_true,
          dismiss_stream, idEq, left]
        exact congrFun (stream_sendAll_of_down (s := s.unregister self) _
          fails) client
  · rw [clients, OrderedDict.get?_del_of_ne _ (holder id client registered)]
    exact registered
  · cases recycle : args.recycle with
    | true =>
        rw [connectionLost, if_pos recycle]
        rfl
    | false =>
        have other := holder id client registered
        rw [← idEq] at other
        rw [connectionLost, recycle, if_neg Bool.false_ne_true,
          dismiss_slotName args net self (s.unregister self) other]
        rfl

/-- A loss that goes unnoticed met the condition. -/
theorem harmless_of_unnoticed
    (unnoticed : Unnoticed s (connectionLost args net self s)) :
    s.clients.get? (s.proxy self).id = none ∧
      (args.recycle = false →
        ∀ k < s.clients.values.length, net (s.sends + k) = false) := by
  have clients := (connectionLost_registry args net self s).1
  have idEq := unregister_id s self
  have free : s.clients.get? (s.proxy self).id = none := by
    by_contra occupied
    obtain ⟨client, registered⟩ := Option.ne_none_iff_exists'.mp occupied
    have kept := unnoticed.registered _ client registered
    rw [clients, OrderedDict.get?_del_self] at kept
    cases kept
  have left : (s.unregister self).clients = s.clients :=
    OrderedDict.del_of_get?_none free
  refine ⟨free, fun recycle k below => ?_⟩
  cases up : net (s.sends + k) with
  | false => rfl
  | true =>
      have found : (notices (s.proxy self).id s.clients.values)[k]? =
          some
            { sock := s.clients.values[k]
              msg := { data := (s.proxy self).id, fd := none } } := by
        rw [notices, List.getElem?_map, List.getElem?_eq_getElem below]
        rfl
      have longer := stream_sendAll_of_up (s := s.unregister self) found up
      have same := unnoticed.untold _ (List.getElem_mem below)
      rw [connectionLost, recycle, if_neg Bool.false_ne_true,
        dismiss_stream, idEq, left] at same
      rw [same] at longer
      exact absurd longer (Nat.lt_irrefl _)

end Lost

/-! ### Whole runs -/

section Step

variable {args : Args} {net : Nat → Bool} {s t : State} {event : Event}

/-- A connectionMade that returns early is never noticed. -/
theorem unnoticed_of_made (enrolled : Enrolled s) {notifiersOk : Bool}
    {self : Nat} (stage : (s.proxy self).stage = .built)
    (stopped : ((connectionMade args net notifiersOk self s).proxy
      self).stage = .stopped) :
    Unnoticed s (connectionMade args net notifiersOk self s) := by
  have incomplete : ¬ Completes net notifiersOk self s := by
    intro completes
    obtain ⟨-, -, proxy, completed, -, proxies⟩ :=
      connectionMade_registers args completes
    rw [proxies, Function.update_self, completed] at stopped
    cases stopped
  obtain ⟨streams, slotName⟩ :=
    connectionMade_keepsToItself args incomplete
  obtain ⟨clients, -⟩ := connectionMade_stops args incomplete
  refine ⟨fun client member => streams client ?_,
    fun id client registered => by rw [clients]; exact registered,
    fun _ _ _ => by rw [slotName]⟩
  obtain ⟨id, registered⟩ := OrderedDict.mem_values_iff.mp member
  apply enrolled.ne_of_stage registered
  rw [stage]
  exact nofun

theorem Enrolled.invisible (enrolled : Enrolled s)
    (harmless : Harmless args net s event)
    (taken : Server.step args net s event = some t) :
    Invisible s event t := by
  intro self early
  cases early with
  | made stopped =>
      simp only [Server.step, Option.ite_none_right_eq_some,
        Option.some.injEq] at taken
      obtain ⟨⟨-, stage⟩, rfl⟩ := taken
      exact unnoticed_of_made enrolled stage stopped
  | lost stopped =>
      simp only [Server.step, Option.ite_none_right_eq_some,
        Option.some.injEq] at taken
      obtain ⟨-, rfl⟩ := taken
      obtain ⟨free, down⟩ := harmless stopped
      exact unnoticed_of_lost free down

theorem not_invisible (harmful : ¬ Harmless args net s event)
    (taken : Server.step args net s event = some t) :
    ¬ Invisible s event t := by
  intro invisible
  apply harmful
  cases event with
  | build choice => trivial
  | made self notifiersOk => trivial
  | named self nodename => trivial
  | lost self =>
      intro stopped
      simp only [Server.step, Option.ite_none_right_eq_some,
        Option.some.injEq] at taken
      obtain ⟨-, rfl⟩ := taken
      exact harmless_of_unnoticed (invisible self (.lost stopped))

end Step

/-- In every run, for every outcome of every send: connections that leave
connectionMade early stay invisible to the established clients exactly when
each loss of one is harmless. -/
theorem invisible_iff_harmless (args : Args) (net : Nat → Bool)
    (trace : List Event) :
    Transition.Along (step args net) Invisible (init args) trace ↔
      Transition.Meets (step args net) (Harmless args net) (init args)
        trace := by
  have kept : ∀ s event t, Enrolled s → Harmless args net s event →
      step args net s event = some t → Enrolled t ∧ Invisible s event t :=
    fun _ _ _ enrolled harmless taken =>
      ⟨enrolled.step taken, enrolled.invisible harmless taken⟩
  have broken : ∀ s event t, Enrolled s → ¬ Harmless args net s event →
      step args net s event = some t → ¬ Invisible s event t :=
    fun _ _ _ _ harmful taken => not_invisible harmful taken
  exact Transition.along_iff_meets kept broken (Enrolled.init args)

/-- A server for one client, without recycling: the second connection is
refused, and its loss sends the established client a notice for id -1. -/
theorem refused_connection_noticed :
    ¬ Transition.Along
        (step { nClients := 1, recycle := false, silent := true,
                smart := false } fun _ => true)
        Invisible
        (init { nClients := 1, recycle := false, silent := true,
                smart := false })
        ([.build 0, .made 0 true, .build 0, .made 1 true] ++ [.lost 1]) := by
  intro along
  have invisible := Transition.along_last along rfl rfl
  have same := (invisible 1 (.lost (by decide))).untold 0 (by decide)
  exact absurd same (by decide)

end FameZ.Server
