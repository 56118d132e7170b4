/-
Module: FameZ.Server.Broadcast
Purpose: What a connect and a disconnect do to the registry and put on every
  socket when each send succeeds.
Trusted boundary: none
Main exports: Conn, connStep, Linked, Joins, Refused, Leaves,
  Linked.connect_cases, Linked.disconnect_leaves, Linked.step
-/
import FameZ.Server.Identity

namespace FameZ.Server

/-!
The reactor accepts a connection in one piece: `connectionMade` follows
`buildProtocol` before any other event.  `connStep` has that granularity.
-/

inductive Conn where
  | connect (choice : Nat) (notifiersOk : Bool)
  | disconnect (self : Nat)
deriving Repr, DecidableEq

def connStep (args : Args) (net : Nat → Bool) :
    Transition.Step State Conn := fun s event =>
  match event with
  | .connect choice notifiersOk =>
      (step args net s (.build choice)).bind fun t =>
        step args net t (.made s.built notifiersOk)
  | .disconnect self => step args net s (.lost self)

/-! ### Streams -/

/-- The part of a list of sends that one socket sees. -/
def seenBy (sock : Nat) (sends : List Send) : List Msg :=
  (sends.filter fun send => send.sock = sock).map Send.msg

theorem stream_sendAll {net : Nat → Bool} (up : ∀ call, net call = true)
    (sends : List Send) (s : State) (sock : Nat) :
    (sendAll net sends s).stream sock =
      s.stream sock ++ seenBy sock sends := by
  unfold seenBy
  induction sends generalizing s with
  | nil => simp [sendAll]
  | cons send rest inductionHypothesis =>
      rw [sendAll, List.foldl_cons, ← sendAll, inductionHypothesis]
      simp only [ivshmemSendOneMsg, up, if_true]
      by_cases mine : send.sock = sock
      · subst mine
        simp
      · simp [mine, Function.update_of_ne (Ne.symm mine)]

@[simp] theorem seenBy_append (sock : Nat) (first second : List Send) :
    seenBy sock (first ++ second) =
      seenBy sock first ++ seenBy sock second := by
  simp [seenBy]

theorem seenBy_sendTo (sock other : Nat) (msgs : List Msg) :
    seenBy sock (sendTo other msgs) = if other = sock then msgs else [] := by
  unfold seenBy sendTo
  induction msgs with
  | nil => simp
  | cons msg rest inductionHypothesis =>
      by_cases same : other = sock
      · simp only [same, if_true, List.map_cons] at inductionHypothesis ⊢
        rw [List.filter_cons_of_pos (by simp), List.map_cons,
          inductionHypothesis]
      · simp only [same, if_false, List.map_cons] at inductionHypothesis ⊢
        rw [List.filter_cons_of_neg (by simp [same]), inductionHypothesis]

/-- A message sent once to each of several distinct sockets. -/
theorem seenBy_flatMap (sock : Nat) (msgs : List Msg) {socks : List Nat}
    (nodup : socks.Nodup) :
    seenBy sock (socks.flatMap fun other => sendTo other msgs) =
      if sock ∈ socks then msgs else [] := by
  induction socks with
  | nil => simp [seenBy]
  | cons other rest inductionHypothesis =>
      rw [List.nodup_cons] at nodup
      rw [List.flatMap_cons, seenBy_append, seenBy_sendTo,
        inductionHypothesis nodup.2]
      by_cases same : other = sock
      · subst same
        simp [nodup.1]
      · simp [same, Ne.symm same]

/-! ### The invariant of runs whose sends succeed -/

/-- What holds between two events of a run in which every send succeeds. -/
structure Linked (args : Args) (s : State) : Prop where
  ids : IdsHeld args s
  idle : ∀ self, (s.proxy self).stage ≠ .built
  nameless : ∀ self, (s.proxy self).stage = .stopped → (s.proxy self).id = -1
  notifiers : ∀ client, Completed s client →
    ∃ fds, (s.proxy client).enList = some fds ∧ fds.length = args.nEvents
  server : s.enList.length = if args.silent then 0 else args.nEvents
  greeted : ∀ client, Completed s client → 3 ≤ (s.stream client).length
  unused : ∀ sock, s.built ≤ sock → s.stream sock = []
  dead : ∀ id self, s.recycled.get? id = some self →
    (s.proxy self).id = id ∧ self < s.built ∧
      (id ≠ -1 → s.clients.get? id = none ∧
        ∃ fds, (s.proxy self).enList = some fds ∧ fds.length = args.nEvents)
  witnessed : ∀ self client, client ∈ (s.proxy self).survivors →
    client < s.built

/-- The connection joined: it holds `id` and the notifiers `fds`.  `known`
says that they were recycled, so that the others were told nothing. -/
structure Joins (args : Args) (choice : Nat) (s t : State) (id : Int)
    (fds : List Nat) (known : Bool) : Prop where
  chosen : createNewPeerId args s.clients choice = some id
  low : 1 ≤ id
  high : id ≤ args.nClients
  free : s.clients.get? id = none
  full : fds.length = args.nEvents
  clients : t.clients = s.clients.set id s.built
  built : t.built = s.built + 1
  idEq : (t.proxy s.built).id = id
  stage : (t.proxy s.built).stage = .completed
  enListEq : (t.proxy s.built).enList = some fds
  survivors : (t.proxy s.built).survivors = []
  others : ∀ other, other ≠ s.built → t.proxy other = s.proxy other
  server : t.enList = s.enList
  recycled : t.recycled = s.recycled.del id
  reused : known = true →
    ∃ dead, s.recycled.get? id = some dead ∧
      (s.proxy dead).enList = some fds
  fresh : known = false → s.recycled.get? id = none
  told : ∀ sock, sock ≠ s.built →
    t.stream sock = s.stream sock ++
      if known = false ∧ sock ∈ s.clients.values then batch id fds else []
  mine : t.stream s.built =
    [{ data := 0, fd := none }, { data := id, fd := none },
      { data := -1, fd := some mailboxFd }] ++
      ((s.clients.values.flatMap fun other =>
          batch (s.proxy other).id ((s.proxy other).enList.getD [])) ++
        batch args.serverId s.enList ++ batch id fds)

/-- The connection was turned away and nobody else noticed. -/
structure Refused (args : Args) (choice : Nat) (notifiersOk : Bool)
    (s t : State) : Prop where
  reason : args.nClients ≤ s.clients.size ∨ notifiersOk = false ∧
    ∀ id, createNewPeerId args s.clients choice = some id →
      s.recycled.get? id = none
  clients : t.clients = s.clients
  built : t.built = s.built + 1
  idEq : (t.proxy s.built).id = -1
  stage : (t.proxy s.built).stage = .stopped
  survivors : (t.proxy s.built).survivors = []
  others : ∀ other, other ≠ s.built → t.proxy other = s.proxy other
  server : t.enList = s.enList
  recycled : ∀ id self, t.recycled.get? id = some self →
    s.recycled.get? id = some self
  kept : ∀ id, id ≠ -1 → t.recycled.get? id = s.recycled.get? id
  told : ∀ sock, sock ≠ s.built → t.stream sock = s.stream sock

/-- The connection left.  Without recycling the others are told. -/
structure Leaves (args : Args) (leaver : Nat) (s t : State) : Prop where
  below : leaver < s.built
  before : (s.proxy leaver).stage = .completed ∨
    (s.proxy leaver).stage = .stopped
  clients : t.clients = s.clients.del (s.proxy leaver).id
  built : t.built = s.built
  gone : t.proxy leaver =
    { s.proxy leaver with stage := .lost, survivors := t.clients.values }
  others : ∀ other, other ≠ leaver → t.proxy other = s.proxy other
  server : t.enList = s.enList
  recycled : t.recycled =
    if args.recycle then s.recycled.set (s.proxy leaver).id leaver
    else s.recycled
  told : ∀ sock, t.stream sock = s.stream sock ++
    if args.recycle = false ∧ sock ∈ t.clients.values then
      [{ data := (s.proxy leaver).id, fd := none }]
    else []

theorem registry_register (s : State) (self : Nat) :
    (s.register self).registry = s.registry.register self := rfl

/-- With sends succeeding, the rest of connectionMade registers the proxy. -/
theorem registry_introduce (args : Args) {net : Nat → Bool}
    (up : ∀ call, net call = true) (self : Nat) (recycled : Bool)
    (s : State) :
    (introduce args net self recycled s).registry =
      (s.register self).registry := by
  rw [introduce, sendInitialInfo_fst, up]
  simp only [if_true]
  rw [registry_greet, registry_register, registry_sendAll,
    registry_sendInitialInfo, ← registry_register]

theorem stream_sendInitialInfo {net : Nat → Bool}
    (up : ∀ call, net call = true) (self : Nat) (s : State) (sock : Nat) :
    (sendInitialInfo net self s).2.stream sock =
      s.stream sock ++
        if self = sock then
          [{ data := 0, fd := none },
            { data := (s.proxy self).id, fd := none },
            { data := -1, fd := some mailboxFd }]
        else [] := by
  simp only [sendInitialInfo, ivshmemSendOneMsg, up, if_true]
  rw [stream_sendAll up, seenBy_sendTo]
  by_cases mine : self = sock
  · subst mine
    simp [serverIvshmemProtocolVersion]
  · simp [mine, Function.update_of_ne (Ne.symm mine)]

/-- The messages of the rest of connectionMade, socket by socket. -/
theorem stream_introduce (args : Args) {net : Nat → Bool}
    (up : ∀ call, net call = true) (self : Nat) (recycled : Bool)
    (s : State) (sock : Nat) :
    (introduce args net self recycled s).stream sock =
      s.stream sock ++
        ((if self = sock then
            [{ data := 0, fd := none },
              { data := (s.proxy self).id, fd := none },
              { data := -1, fd := some mailboxFd }]
          else []) ++
        (seenBy sock (advertiseSelf self recycled s) ++
          seenBy sock (advertiseOthers args self s))) := by
  have quiet := registry_sendInitialInfo net self s
  have sameSelf : advertiseSelf self recycled (sendInitialInfo net self s).2 =
      advertiseSelf self recycled s := by
    rw [advertiseSelf, advertiseSelf, clients_of_registry quiet,
      proxy_of_registry quiet]
  have sameOthers : advertiseOthers args self (sendInitialInfo net self s).2 =
      advertiseOthers args self s := by
    rw [advertiseOthers, advertiseOthers, clients_of_registry quiet,
      proxy_of_registry quiet, enList_of_registry quiet]
  rw [introduce, sendInitialInfo_fst, up]
  simp only [if_true, stream_greet, State.register, State.modify]
  rw [stream_sendAll up, stream_sendInitialInfo up, sameSelf, sameOthers,
    seenBy_append, List.append_assoc]

namespace Linked

variable {args : Args} {s t : State}

theorem init (args : Args) : Linked args (init args) := by
  refine ⟨IdsHeld.init args, ?_, ?_, ?_, ?_, ?_, ?_, ?_, ?_⟩ <;>
    simp [Server.init, Completed]
  split <;> simp_all

/-- A registered client is a completed proxy that holds its key as its id. -/
theorem registered (linked : Linked args s) {id : Int} {client : Nat} :
    s.clients.get? id = some client ↔
      Completed s client ∧ (s.proxy client).id = id :=
  linked.ids.identities.registered id client

/-- The live clients are exactly the completed proxies. -/
theorem mem_values (linked : Linked args s) {client : Nat} :
    client ∈ s.clients.values ↔ Completed s client := by
  rw [OrderedDict.mem_values_iff]
  constructor
  · rintro ⟨id, holds⟩
    exact (linked.registered.mp holds).1
  · intro completed
    exact ⟨_, linked.registered.mpr ⟨completed, rfl⟩⟩

theorem below (linked : Linked args s) {client : Nat}
    (live : client ∈ s.clients.values) : client < s.built := by
  by_contra above
  have lost := linked.ids.unbuilt client (Nat.not_lt.mp above)
  have completed := linked.mem_values.mp live
  rw [Completed, lost] at completed
  cases completed

theorem nodup (linked : Linked args s) : s.clients.values.Nodup :=
  OrderedDict.nodup_values (fun client => (s.proxy client).id)
    fun _ _ holds => (linked.registered.mp holds).2

theorem inRange (linked : Linked args s) {id : Int} {client : Nat}
    (holds : s.clients.get? id = some client) :
    1 ≤ id ∧ id ≤ args.nClients := by
  obtain ⟨completed, idEq⟩ := linked.registered.mp holds
  have range := linked.ids.identities.inRange client completed
  rwa [idEq] at range

/-- Once the connection has its notifiers, with every send succeeding, it
joins. -/
theorem introduce_joins (linked : Linked args s) {net : Nat → Bool}
    (up : ∀ call, net call = true) {choice : Nat} {id : Int}
    {fds : List Nat} {known : Bool} {v : State}
    (chosen : createNewPeerId args s.clients choice = some id)
    (realId : id ≠ -1) (full : fds.length = args.nEvents)
    (clients : v.clients = s.clients) (built : v.built = s.built + 1)
    (server : v.enList = s.enList) (stream : v.stream = s.stream)
    (recycled : v.recycled = s.recycled.del id)
    (reused : known = true → ∃ dead, s.recycled.get? id = some dead ∧
      (s.proxy dead).enList = some fds)
    (fresh : known = false → s.recycled.get? id = none)
    (proxy : Proxy) (idEq : proxy.id = id)
    (enListEq : proxy.enList = some fds) (survivors : proxy.survivors = [])
    (proxies : v.proxy = Function.update s.proxy s.built proxy) :
    Joins args choice s (introduce args net s.built known v) id fds
      known := by
  obtain ⟨low, high, free⟩ :=
    (createNewPeerId_spec chosen).resolve_left fun full => realId full.1
  have ending := registry_introduce args up s.built known v
  have selfEq : v.proxy s.built = proxy := by
    rw [proxies, Function.update_self]
  have others : ∀ other, other ≠ s.built → v.proxy other = s.proxy other :=
    fun other differ => by rw [proxies, Function.update_of_ne differ]
  have proxyEnd : (introduce args net s.built known v).proxy =
      Function.update v.proxy s.built
        { v.proxy s.built with stage := .completed } :=
    proxy_of_registry ending
  have selfEnd : (introduce args net s.built known v).proxy s.built =
      { proxy with stage := .completed } := by
    rw [proxyEnd, Function.update_self, selfEq]
  have notMember : s.built ∉ s.clients.values := fun live =>
    Nat.lt_irrefl _ (linked.below live)
  refine ⟨chosen, low, high, free, full, ?_, ?_, ?_, ?_, ?_, ?_, ?_, ?_, ?_,
    reused, fresh, ?_, ?_⟩
  · rw [clients_of_registry ending, State.register]
    simp [clients, selfEq, idEq]
  · rw [built_of_registry ending]
    exact built
  · rw [selfEnd]
    exact idEq
  · rw [selfEnd]
  · rw [selfEnd]
    exact enListEq
  · rw [selfEnd]
    exact survivors
  · intro other differ
    rw [proxyEnd, Function.update_of_ne differ, others other differ]
  · rw [enList_of_registry ending]
    exact server
  · rw [recycled_of_registry ending]
    exact recycled
  · intro sock differ
    rw [stream_introduce args up, if_neg (Ne.symm differ), List.nil_append,
      stream, advertiseOthers, seenBy_sendTo, if_neg (Ne.symm differ),
      List.append_nil, advertiseSelf, selfEq, idEq, enListEq, clients]
    cases known with
    | true => simp [seenBy]
    | false =>
        rw [if_neg Bool.false_ne_true, seenBy_flatMap sock _ linked.nodup]
        simp
  · have silentSelf :
        seenBy s.built (advertiseSelf s.built known v) = [] := by
      rw [advertiseSelf, clients]
      cases known with
      | true => rfl
      | false =>
          rw [if_neg Bool.false_ne_true, seenBy_flatMap _ _ linked.nodup,
            if_neg notMember]
    rw [stream_introduce args up, if_pos rfl, stream,
      linked.unused s.built (Nat.le_refl _), silentSelf, advertiseOthers,
      seenBy_sendTo, if_pos rfl, selfEq, idEq, enListEq, clients, server]
    simp only [List.nil_append, Option.getD_some, List.append_assoc]
    have same : (s.clients.values.flatMap fun other =>
          batch (v.proxy other).id ((v.proxy other).enList.getD [])) =
        s.clients.values.flatMap fun other =>
          batch (s.proxy other).id ((s.proxy other).enList.getD []) := by
      apply List.flatMap_congr
      intro other live
      rw [others other fun equal => notMember (equal ▸ live)]
    rw [same]

theorem full_of_refused {choice : Nat}
    (chosen : createNewPeerId args s.clients choice = some (-1)) :
    args.nClients ≤ s.clients.size := by
  rcases createNewPeerId_spec chosen with ⟨-, full⟩ | ⟨low, -⟩
  · exact full
  · exact absurd low (by decide)

/-- The refusal of a proxy that holds `proxy` and left the rest alone. -/
theorem refuse_refused {net : Nat → Bool} (up : ∀ call, net call = true)
    {choice : Nat} {notifiersOk : Bool} {v : State}
    (reason : args.nClients ≤ s.clients.size ∨ notifiersOk = false ∧
      ∀ id, createNewPeerId args s.clients choice = some id →
        s.recycled.get? id = none)
    (clients : v.clients = s.clients) (built : v.built = s.built + 1)
    (server : v.enList = s.enList) (stream : v.stream = s.stream)
    (recycled : v.recycled = s.recycled ∨ v.recycled = s.recycled.del (-1))
    (proxy : Proxy) (survivors : proxy.survivors = [])
    (proxies : v.proxy = Function.update s.proxy s.built proxy) :
    Refused args choice notifiersOk s (refuse net s.built v) := by
  have quiet := registry_ivshmemSendOneMsg net s.built (-1) none v
  have selfEq : v.proxy s.built = proxy := by
    rw [proxies, Function.update_self]
  have proxyEnd : (refuse net s.built v).proxy =
      Function.update v.proxy s.built
        { proxy with id := -1, stage := .stopped } := by
    simp [refuse, State.stop, State.modify, proxy_of_registry quiet, selfEq]
  have recycledEnd : (refuse net s.built v).recycled = v.recycled :=
    (recycled_of_registry quiet :)
  refine ⟨reason, ?_, ?_, ?_, ?_, ?_, ?_, ?_, ?_, ?_, ?_⟩
  · exact (clients_of_registry quiet).trans clients
  · exact (built_of_registry quiet).trans built
  · rw [proxyEnd, Function.update_self]
  · rw [proxyEnd, Function.update_self]
  · rw [proxyEnd, Function.update_self]
    exact survivors
  · intro other differ
    rw [proxyEnd, Function.update_of_ne differ, proxies,
      Function.update_of_ne differ]
  · exact (enList_of_registry quiet).trans server
  · intro id self holds
    rw [recycledEnd] at holds
    rcases recycled with same | dropped
    · rwa [same] at holds
    · rw [dropped, OrderedDict.get?_del] at holds
      split at holds
      · cases holds
      · exact holds
  · intro id realId
    rw [recycledEnd]
    rcases recycled with same | dropped
    · rw [same]
    · rw [dropped, OrderedDict.get?_del_of_ne _ realId]
  · intro sock differ
    simp only [refuse, State.stop, State.modify, ivshmemSendOneMsg, up,
      if_true, stream]
    exact Function.update_of_ne differ _ _

/-- A connection is turned away or joins. -/
theorem connect_cases (linked : Linked args s) {net : Nat → Bool}
    (up : ∀ call, net call = true) {choice : Nat} {notifiersOk : Bool}
    (taken : connStep args net s (.connect choice notifiersOk) = some t) :
    Refused args choice notifiersOk s t ∨
      ∃ id fds known, (known = false → notifiersOk = true) ∧
        Joins args choice s t id fds known := by
  simp only [connStep, step, Option.bind_eq_some_iff,
    Option.ite_none_right_eq_some, Option.some.injEq] at taken
  obtain ⟨u, built, -, rfl⟩ := taken
  unfold buildProtocol at built
  obtain ⟨id, chosen, rfl⟩ := Option.map_eq_some_iff.mp built
  have idEq : (Function.update s.proxy s.built (newProxy args id s)
      s.built).id = id := by
    rw [Function.update_self]
    rfl
  unfold connectionMade
  simp only [idEq]
  cases recycled : s.recycled.get? id with
  | some dead =>
      obtain ⟨deadId, deadBelow, deadLive⟩ := linked.dead id dead recycled
      have deadEq : Function.update s.proxy s.built (newProxy args id s) dead =
          s.proxy dead := Function.update_of_ne (by omega) _ _
      by_cases refused : id = -1
      · left
        simp only [if_pos refused, deadEq, deadId]
        subst refused
        exact refuse_refused up (Or.inl (full_of_refused chosen)) rfl rfl rfl
          rfl (Or.inr rfl) (newProxy args (-1) s) rfl rfl
      · right
        obtain ⟨-, fds, enListEq, full⟩ := deadLive refused
        simp only [if_neg refused, deadEq, deadId, enListEq]
        refine ⟨id, fds, true, fun wrong => Bool.noConfusion wrong,
          linked.introduce_joins up chosen refused full rfl rfl rfl rfl rfl
          (fun _ => ⟨dead, recycled, enListEq⟩)
          (fun wrong => Bool.noConfusion wrong)
          { newProxy args id s with enList := some fds } rfl rfl rfl ?_⟩
        simp
  | none =>
      have undeleted : s.recycled = s.recycled.del id :=
        OrderedDict.del_of_get?_none recycled |>.symm
      by_cases refused : id = -1
      · left
        subst refused
        exact refuse_refused up (Or.inl (full_of_refused chosen)) rfl rfl rfl
          rfl (Or.inl rfl) (newProxy args (-1) s) rfl rfl
      · simp only [if_neg refused]
        cases notifiersOk with
        | false =>
            left
            have fresh : ∀ other,
                createNewPeerId args s.clients choice = some other →
                  s.recycled.get? other = none := by
              intro other sameChoice
              rw [chosen, Option.some.injEq] at sameChoice
              exact sameChoice ▸ recycled
            exact refuse_refused up (Or.inr ⟨rfl, fresh⟩) rfl rfl rfl rfl
              (Or.inl rfl) (newProxy args id s) rfl rfl
        | true =>
            right
            refine ⟨id, List.range' s.nextFd args.nEvents, false,
              fun _ => rfl, linked.introduce_joins up chosen refused
                List.length_range' rfl rfl rfl rfl undeleted
                (fun wrong => Bool.noConfusion wrong)
                (fun _ => recycled)
                { newProxy args id s with
                  enList := some (List.range' s.nextFd args.nEvents) }
                rfl rfl rfl ?_⟩
            simp [createNotifiers]

theorem nodup_unregister (linked : Linked args s) (self : Nat) :
    (s.unregister self).clients.values.Nodup := by
  refine OrderedDict.nodup_values (fun client => (s.proxy client).id) ?_
  intro id client holds
  have holds : (s.clients.del (s.proxy self).id).get? id = some client :=
    holds
  rw [OrderedDict.get?_del] at holds
  split at holds
  · cases holds
  · exact (linked.registered.mp holds).2

/-- The notices and the clean-up after them. -/
theorem dismiss_leaves (args : Args) {net : Nat → Bool}
    (up : ∀ call, net call = true) (self : Nat) {v : State}
    (nodup : v.clients.values.Nodup) :
    (dismiss args net self v).enList = v.enList ∧
      (dismiss args net self v).recycled = v.recycled ∧
      ∀ sock, (dismiss args net self v).stream sock = v.stream sock ++
        if sock ∈ v.clients.values then
          [{ data := (v.proxy self).id, fd := none }]
        else [] := by
  unfold dismiss
  dsimp only
  split
  · refine ⟨enList_sendAll .., recycled_sendAll .., fun sock => ?_⟩
    rw [stream_sendAll up, seenBy_flatMap sock _ nodup]
  · rw [clearMailslot_eq]
    refine ⟨enList_sendAll .., recycled_sendAll .., fun sock => ?_⟩
    dsimp only
    rw [stream_sendAll up, seenBy_flatMap sock _ nodup]

/-- A disconnect removes the proxy and tells the remaining clients. -/
theorem disconnect_leaves (linked : Linked args s) {net : Nat → Bool}
    (up : ∀ call, net call = true) {self : Nat}
    (taken : connStep args net s (.disconnect self) = some t) :
    Leaves args self s t := by
  simp only [connStep, step, Option.ite_none_right_eq_some,
    Option.some.injEq] at taken
  obtain ⟨⟨below, before⟩, rfl⟩ := taken
  obtain ⟨clients, built, proxies⟩ := connectionLost_registry args net self s
  have gone : (s.unregister self).proxy self =
      { s.proxy self with
        stage := .lost
        survivors := (s.clients.del (s.proxy self).id).values } := by
    rw [State.unregister, proxy_modify, Function.update_self]
  refine ⟨below, before, clients, built, ?_, ?_, ?_, ?_, ?_⟩
  · rw [proxies, clients]
    exact gone
  · intro other differ
    rw [proxies, State.unregister, proxy_modify,
      Function.update_of_ne differ]
  · unfold connectionLost
    dsimp only
    split
    · rfl
    · exact (dismiss_leaves args up self (linked.nodup_unregister self)).1
  · unfold connectionLost
    dsimp only
    split
    · simp [gone]
      rfl
    · exact (dismiss_leaves args up self (linked.nodup_unregister self)).2.1
  · intro sock
    rw [clients]
    cases recycle : args.recycle with
    | true =>
        simp [connectionLost, recycle]
        rfl
    | false =>
        rw [connectionLost, if_neg (by simp [recycle]),
          (dismiss_leaves args up self (linked.nodup_unregister self)).2.2,
          gone]
        simp
        rfl

/-- With sends succeeding every connect and disconnect is orderly. -/
theorem ids_step (linked : Linked args s) {net : Nat → Bool} {event : Conn}
    (taken : connStep args net s event = some t) : IdsHeld args t := by
  cases event with
  | connect choice notifiersOk =>
      simp only [connStep, Option.bind_eq_some_iff] at taken
      obtain ⟨u, built, made⟩ := taken
      have held : IdsHeld args u :=
        linked.ids.step (show Orderly net s (.build choice) from trivial) built
      have orderly : Orderly net u (.made s.built notifiersOk) := by
        intro completes
        simp only [step, buildProtocol, Option.map_eq_some_iff] at built
        obtain ⟨id, chosen, rfl⟩ := built
        have idEq : (Function.update s.proxy s.built (newProxy args id s)
            s.built).id = id := by
          rw [Function.update_self]
          rfl
        have realId : id ≠ -1 := fun refused =>
          completes.1 (idEq.trans refused)
        have free := (createNewPeerId_spec chosen).resolve_left
          fun full => realId full.1
        rw [idEq]
        exact free.2.2
      exact held.step orderly made
  | disconnect self =>
      have orderly : Orderly net s (.lost self) := by
        intro stopped
        rw [linked.nameless self stopped]
        rcases holder : s.clients.get? (-1) with _ | client
        · rfl
        · have range := linked.inRange holder
          omega
      exact linked.ids.step orderly taken

theorem refused (linked : Linked args s) {choice : Nat} {notifiersOk : Bool}
    (ids : IdsHeld args t) (refused : Refused args choice notifiersOk s t) :
    Linked args t := by
  have old : ∀ other, other < s.built → t.proxy other = s.proxy other :=
    fun other below => refused.others other (by omega)
  have completed : ∀ client, Completed t client →
      client ≠ s.built ∧ Completed s client := by
    intro client done
    have differ : client ≠ s.built := by
      intro same
      rw [Completed, same, refused.stage] at done
      cases done
    refine ⟨differ, ?_⟩
    rwa [Completed, refused.others client differ] at done
  refine ⟨ids, ?_, ?_, ?_, ?_, ?_, ?_, ?_, ?_⟩
  · intro self
    by_cases new : self = s.built
    · rw [new, refused.stage]
      decide
    · rw [refused.others self new]
      exact linked.idle self
  · intro self stopped
    by_cases new : self = s.built
    · rw [new, refused.idEq]
    · rw [refused.others self new] at stopped ⊢
      exact linked.nameless self stopped
  · intro client done
    obtain ⟨differ, before⟩ := completed client done
    rw [refused.others client differ]
    exact linked.notifiers client before
  · rw [refused.server]
    exact linked.server
  · intro client done
    obtain ⟨differ, before⟩ := completed client done
    rw [refused.told client differ]
    exact linked.greeted client before
  · intro sock above
    rw [refused.built] at above
    rw [refused.told sock (by omega)]
    exact linked.unused sock (by omega)
  · intro id self holds
    obtain ⟨idEq, below, live⟩ := linked.dead id self (refused.recycled id self holds)
    rw [old self below, refused.clients, refused.built]
    exact ⟨idEq, by omega, live⟩
  · intro self client member
    rw [refused.built]
    by_cases new : self = s.built
    · rw [new, refused.survivors] at member
      cases member
    · rw [refused.others self new] at member
      exact Nat.lt_succ_of_lt (linked.witnessed self client member)

theorem joins (linked : Linked args s) {choice : Nat} {id : Int}
    {fds : List Nat} {known : Bool} (ids : IdsHeld args t)
    (joins : Joins args choice s t id fds known) : Linked args t := by
  have old : ∀ other, other < s.built → t.proxy other = s.proxy other :=
    fun other below => joins.others other (by omega)
  refine ⟨ids, ?_, ?_, ?_, ?_, ?_, ?_, ?_, ?_⟩
  · intro self
    by_cases new : self = s.built
    · rw [new, joins.stage]
      decide
    · rw [joins.others self new]
      exact linked.idle self
  · intro self stopped
    by_cases new : self = s.built
    · rw [new, joins.stage] at stopped
      cases stopped
    · rw [joins.others self new] at stopped ⊢
      exact linked.nameless self stopped
  · intro client done
    by_cases new : client = s.built
    · rw [new]
      exact ⟨fds, joins.enListEq, joins.full⟩
    · rw [Completed, joins.others client new] at done
      rw [joins.others client new]
      exact linked.notifiers client done
  · rw [joins.server]
    exact linked.server
  · intro client done
    by_cases new : client = s.built
    · rw [new, joins.mine, List.length_append]
      exact Nat.le_add_right ..
    · rw [Completed, joins.others client new] at done
      rw [joins.told client new, List.length_append]
      exact Nat.le_add_right_of_le (linked.greeted client done)
  · intro sock above
    rw [joins.built] at above
    have notLive : sock ∉ s.clients.values := fun live => by
      have below := linked.below live
      omega
    rw [joins.told sock (by omega), linked.unused sock (by omega)]
    simp [notLive]
  · intro other self holds
    rw [joins.recycled, OrderedDict.get?_del] at holds
    split at holds
    · cases holds
    · rename_i differ
      obtain ⟨idEq, below, live⟩ := linked.dead other self holds
      rw [old self below, joins.clients, joins.built,
        OrderedDict.get?_set_of_ne _ _ differ]
      exact ⟨idEq, by omega, live⟩
  · intro self client member
    rw [joins.built]
    by_cases new : self = s.built
    · rw [new, joins.survivors] at member
      cases member
    · rw [joins.others self new] at member
      exact Nat.lt_succ_of_lt (linked.witnessed self client member)

theorem leaves (linked : Linked args s) {self : Nat} (ids : IdsHeld args t)
    (leaves : Leaves args self s t) : Linked args t := by
  have completed : ∀ client, Completed t client →
      client ≠ self ∧ Completed s client := by
    intro client done
    have differ : client ≠ self := by
      intro same
      rw [Completed, same, leaves.gone] at done
      cases done
    refine ⟨differ, ?_⟩
    rwa [Completed, leaves.others client differ] at done
  have staying : ∀ client, client ∈ t.clients.values →
      client ∈ s.clients.values := by
    intro client live
    obtain ⟨id, holds⟩ := OrderedDict.mem_values_iff.mp live
    rw [leaves.clients, OrderedDict.get?_del] at holds
    split at holds
    · cases holds
    · exact OrderedDict.mem_values_iff.mpr ⟨id, holds⟩
  refine ⟨ids, ?_, ?_, ?_, ?_, ?_, ?_, ?_, ?_⟩
  · intro other
    by_cases same : other = self
    · rw [same, leaves.gone]
      intro wrong
      cases wrong
    · rw [leaves.others other same]
      exact linked.idle other
  · intro other stopped
    by_cases same : other = self
    · rw [same, leaves.gone] at stopped
      cases stopped
    · rw [leaves.others other same] at stopped ⊢
      exact linked.nameless other stopped
  · intro client done
    obtain ⟨differ, before⟩ := completed client done
    rw [leaves.others client differ]
    exact linked.notifiers client before
  · rw [leaves.server]
    exact linked.server
  · intro client done
    rw [leaves.told client, List.length_append]
    exact Nat.le_add_right_of_le
      (linked.greeted client (completed client done).2)
  · intro sock above
    rw [leaves.built] at above
    have notLive : sock ∉ t.clients.values := fun live => by
      have below := linked.below (staying sock live)
      omega
    rw [leaves.told sock, linked.unused sock above]
    simp [notLive]
  · intro id other holds
    rw [leaves.clients, leaves.built, OrderedDict.get?_del]
    rw [leaves.recycled] at holds
    by_cases mine : other = self ∧ id = (s.proxy self).id
    · obtain ⟨rfl, rfl⟩ := mine
      rw [leaves.gone]
      refine ⟨rfl, leaves.below, fun realId => ⟨if_pos rfl, ?_⟩⟩
      rcases leaves.before with done | stopped
      · exact linked.notifiers other done
      · exact False.elim (realId (linked.nameless other stopped))
    · have older : s.recycled.get? id = some other := by
        split at holds
        · rw [OrderedDict.get?_set] at holds
          split at holds
          · rename_i same
            exact False.elim (mine ⟨(Option.some.inj holds).symm, same⟩)
          · exact holds
        · exact holds
      obtain ⟨idEq, below, live⟩ := linked.dead id other older
      have differ : other ≠ self := fun same =>
        mine ⟨same, by rw [← idEq, same]⟩
      rw [leaves.others other differ]
      refine ⟨idEq, below, fun realId => ⟨?_, (live realId).2⟩⟩
      split
      · rfl
      · exact (live realId).1
  · intro other client member
    rw [leaves.built]
    by_cases same : other = self
    · rw [same, leaves.gone] at member
      exact linked.below (staying client member)
    · rw [leaves.others other same] at member
      exact linked.witnessed other client member

/-- The invariant is kept by every connect and disconnect. -/
theorem step (linked : Linked args s) {net : Nat → Bool}
    (up : ∀ call, net call = true) {event : Conn}
    (taken : connStep args net s event = some t) : Linked args t := by
  have ids := linked.ids_step taken
  cases event with
  | connect choice notifiersOk =>
      rcases linked.connect_cases up taken with
        turnedAway | ⟨id, fds, known, -, joined⟩
      · exact linked.refused ids turnedAway
      · exact linked.joins ids joined
  | disconnect self => exact linked.leaves ids (linked.disconnect_leaves up taken)

end Linked

end FameZ.Server
