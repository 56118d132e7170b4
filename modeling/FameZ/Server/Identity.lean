/-
Module: FameZ.Server.Identity
Purpose: Peer ids over whole runs: when the registry of live clients names
  exactly the completed connections under distinct ids.
Trusted boundary: none
Main exports: Completed, Completes, Identities, Orderly,
  connectionMade_registers, identities_iff_orderly
-/
import FameZ.Server.Session

namespace FameZ.Server

/-!
The id is chosen when a proxy is built and registered when connectionMade
ends; removal is by id.  Both ends assume that nobody else took the id in
between.  `Orderly` is that assumption, step by step.
-/

/-- The proxy completed connectionMade and has not had connectionLost. -/
def Completed (s : State) (self : Nat) : Prop :=
  (s.proxy self).stage = .completed

instance (s : State) (self : Nat) : Decidable (Completed s self) :=
  inferInstanceAs (Decidable (_ = _))

/-- What connectionMade needs in order to run to its end: a real id, event
notifiers, and a first message that the socket takes. -/
def Completes (net : Nat → Bool) (notifiersOk : Bool) (self : Nat)
    (s : State) : Prop :=
  (s.proxy self).id ≠ -1 ∧ net s.sends = true ∧
    match s.recycled.get? (s.proxy self).id with
    | some dead => (s.proxy dead).enList.isSome = true
    | none => notifiersOk = true

instance (net : Nat → Bool) (notifiersOk : Bool) (self : Nat) (s : State) :
    Decidable (Completes net notifiersOk self s) := by
  unfold Completes
  cases s.recycled.get? (s.proxy self).id <;> infer_instance

/-- The completed connections hold distinct ids of the client range, and
`SI.clients` maps exactly those ids to exactly those proxies. -/
structure Identities (args : Args) (s : State) : Prop where
  inRange : ∀ self, Completed s self →
    1 ≤ (s.proxy self).id ∧ (s.proxy self).id ≤ args.nClients
  distinct : ∀ first second, Completed s first → Completed s second →
    (s.proxy first).id = (s.proxy second).id → first = second
  registered : ∀ id self,
    s.clients.get? id = some self ↔
      Completed s self ∧ (s.proxy self).id = id

/-- The condition on one event: a connectionMade that runs to its end finds
its id free, and so does the connectionLost of a proxy that stopped early. -/
def Orderly (net : Nat → Bool) (s : State) : Event → Prop
  | .build _ => True
  | .made self notifiersOk =>
      Completes net notifiersOk self s →
        s.clients.get? (s.proxy self).id = none
  | .lost self =>
      (s.proxy self).stage = .stopped →
        s.clients.get? (s.proxy self).id = none
  | .named _ _ => True

/-! ### What each call does to the registry -/

@[simp] theorem clients_modify (s : State) (self : Nat) (f : Proxy → Proxy) :
    (s.modify self f).clients = s.clients := rfl

@[simp] theorem proxy_modify (s : State) (self : Nat) (f : Proxy → Proxy) :
    (s.modify self f).proxy =
      Function.update s.proxy self (f (s.proxy self)) := rfl

@[simp] theorem built_modify (s : State) (self : Nat) (f : Proxy → Proxy) :
    (s.modify self f).built = s.built := rfl

@[simp] theorem sends_modify (s : State) (self : Nat) (f : Proxy → Proxy) :
    (s.modify self f).sends = s.sends := rfl

/-- A proxy that gives up leaves the registry alone; at most it forgets its
id. -/
def Stops (self : Nat) (s t : State) : Prop :=
  t.clients = s.clients ∧ t.built = s.built ∧
    ∃ proxy : Proxy, proxy.stage = .stopped ∧
      (proxy.id = (s.proxy self).id ∨ proxy.id = -1) ∧
      t.proxy = Function.update s.proxy self proxy

/-- A proxy that gets through is registered under its id. -/
def Registers (self : Nat) (s t : State) : Prop :=
  t.clients = s.clients.set (s.proxy self).id self ∧ t.built = s.built ∧
    ∃ proxy : Proxy, proxy.stage = .completed ∧
      proxy.id = (s.proxy self).id ∧
      t.proxy = Function.update s.proxy self proxy

theorem refuse_stops (net : Nat → Bool) (self : Nat) (s : State) :
    Stops self s (refuse net self s) := by
  have quiet := registry_ivshmemSendOneMsg net self (-1) none s
  refine ⟨(clients_of_registry quiet :), (built_of_registry quiet :),
    { s.proxy self with id := -1, stage := .stopped }, rfl, Or.inr rfl, ?_⟩
  simp [refuse, State.stop, proxy_of_registry quiet]

theorem stop_stops (self : Nat) (s : State) : Stops self s (s.stop self) :=
  ⟨rfl, rfl, { s.proxy self with stage := .stopped }, rfl, Or.inl rfl, rfl⟩

theorem register_registers (self : Nat) (s : State) :
    Registers self s (s.register self) := by
  refine ⟨?_, rfl, { s.proxy self with stage := .completed }, rfl, rfl, rfl⟩
  simp [State.register]

/-- The verdicts do not depend on the sockets. -/
theorem Stops.of_registry {self : Nat} {s u t : State}
    (quiet : u.registry = s.registry) (stops : Stops self u t) :
    Stops self s t := by
  rw [Stops, clients_of_registry quiet, built_of_registry quiet,
    proxy_of_registry quiet] at stops
  exact stops

theorem Registers.of_registry {self : Nat} {s u t : State}
    (quiet : u.registry = s.registry) (registers : Registers self u t) :
    Registers self s t := by
  rw [Registers, clients_of_registry quiet, built_of_registry quiet,
    proxy_of_registry quiet] at registers
  exact registers

theorem Registers.to_registry {self : Nat} {s t u : State}
    (registers : Registers self s t) (quiet : u.registry = t.registry) :
    Registers self s u := by
  rw [Registers, clients_of_registry quiet, built_of_registry quiet,
    proxy_of_registry quiet]
  exact registers

/-- The rest of connectionMade succeeds exactly when its first send does. -/
theorem introduce_registers (args : Args) {net : Nat → Bool} (self : Nat)
    (recycled : Bool) {s : State} (success : net s.sends = true) :
    Registers self s (introduce args net self recycled s) := by
  have quiet := registry_sendInitialInfo net self s
  rw [introduce, sendInitialInfo_fst, success]
  have registered := (register_registers self _).of_registry
    ((registry_sendAll net
      (advertiseSelf self recycled (sendInitialInfo net self s).2 ++
        advertiseOthers args self (sendInitialInfo net self s).2)
      (sendInitialInfo net self s).2).trans quiet)
  exact registered.to_registry (registry_greet args self _)

theorem introduce_stops (args : Args) {net : Nat → Bool} (self : Nat)
    (recycled : Bool) {s : State} (failure : net s.sends = false) :
    Stops self s (introduce args net self recycled s) := by
  have quiet := registry_sendInitialInfo net self s
  rw [introduce, sendInitialInfo_fst, failure]
  exact (stop_stops self _).of_registry quiet

/-- Giving the proxy its notifiers first changes neither verdict. -/
theorem Stops.of_prepared {self : Nat} {s u t : State}
    (enList : Option (List Nat)) (stops : Stops self u t)
    (clients : u.clients = s.clients) (built : u.built = s.built)
    (proxies : u.proxy =
      Function.update s.proxy self { s.proxy self with enList := enList }) :
    Stops self s t := by
  obtain ⟨clientsEq, builtEq, proxy, stage, idEq, proxyEq⟩ := stops
  refine ⟨clientsEq.trans clients, builtEq.trans built, proxy, stage, ?_, ?_⟩
  · rw [proxies, Function.update_self] at idEq
    exact idEq
  · rw [proxyEq, proxies, Function.update_idem]

theorem Registers.of_prepared {self : Nat} {s u t : State}
    (enList : Option (List Nat)) (registers : Registers self u t)
    (clients : u.clients = s.clients) (built : u.built = s.built)
    (proxies : u.proxy =
      Function.update s.proxy self { s.proxy self with enList := enList }) :
    Registers self s t := by
  obtain ⟨clientsEq, builtEq, proxy, stage, idEq, proxyEq⟩ := registers
  rw [proxies, Function.update_self] at idEq
  refine ⟨?_, builtEq.trans built, proxy, stage, idEq, ?_⟩
  · rw [clientsEq, clients, proxies, Function.update_self]
  · rw [proxyEq, proxies, Function.update_idem]

/-- connectionMade registers the proxy exactly when it can complete. -/
theorem connectionMade_registers (args : Args) {net : Nat → Bool}
    {notifiersOk : Bool} {self : Nat} {s : State}
    (completes : Completes net notifiersOk self s) :
    Registers self s (connectionMade args net notifiersOk self s) := by
  obtain ⟨realId, success, notifiers⟩ := completes
  unfold connectionMade
  cases recycled : s.recycled.get? (s.proxy self).id with
  | none =>
      rw [recycled] at notifiers
      simp only [recycled, if_neg realId, if_pos notifiers]
      exact Registers.of_prepared _
        (introduce_registers args self false success) rfl rfl rfl
  | some dead =>
      rw [recycled] at notifiers
      obtain ⟨enList, enListEq⟩ := Option.isSome_iff_exists.mp notifiers
      simp only [recycled, if_neg realId, enListEq]
      exact Registers.of_prepared _
        (introduce_registers args self true success) rfl rfl rfl

theorem connectionMade_stops (args : Args) {net : Nat → Bool}
    {notifiersOk : Bool} {self : Nat} {s : State}
    (incomplete : ¬ Completes net notifiersOk self s) :
    Stops self s (connectionMade args net notifiersOk self s) := by
  unfold connectionMade
  cases recycled : s.recycled.get? (s.proxy self).id with
  | none =>
      by_cases refused : (s.proxy self).id = -1
      · simp only [recycled, if_pos refused]
        exact refuse_stops net self s
      · cases notifiersOk with
        | false =>
            simp only [recycled, if_neg refused, Bool.false_eq_true, if_false]
            exact refuse_stops net self s
        | true =>
            have failure : net s.sends = false := by
              by_contra success
              exact incomplete
                ⟨refused, by simpa using success, by rw [recycled]⟩
            simp only [recycled, if_neg refused, if_true]
            exact Stops.of_prepared _
              (introduce_stops args self false failure) rfl rfl rfl
  | some dead =>
      by_cases refused : (s.proxy self).id = -1
      · simp only [recycled, if_pos refused]
        exact refuse_stops net self _
      · cases enListEq : (s.proxy dead).enList with
        | none =>
            simp only [recycled, if_neg refused, enListEq]
            exact stop_stops self _
        | some enList =>
            have failure : net s.sends = false := by
              by_contra success
              exact incomplete
                ⟨refused, by simpa using success,
                  by simp [recycled, enListEq]⟩
            simp only [recycled, if_neg refused, enListEq]
            exact Stops.of_prepared _
              (introduce_stops args self true failure) rfl rfl rfl

/-- The notices of a disconnect leave the registry as it is. -/
theorem dismiss_registry (args : Args) (net : Nat → Bool) (self : Nat)
    (s : State) :
    (dismiss args net self s).clients = s.clients ∧
      (dismiss args net self s).built = s.built ∧
      (dismiss args net self s).proxy = s.proxy := by
  unfold dismiss
  dsimp only
  split
  · simp
  · rw [clearMailslot_eq]
    simp

/-- connectionLost takes the id, whoever holds it, out of the registry. -/
theorem connectionLost_registry (args : Args) (net : Nat → Bool)
    (self : Nat) (s : State) :
    (connectionLost args net self s).clients =
        s.clients.del (s.proxy self).id ∧
      (connectionLost args net self s).built = s.built ∧
      (connectionLost args net self s).proxy =
        (s.unregister self).proxy := by
  unfold connectionLost
  dsimp only
  split
  · exact ⟨rfl, rfl, rfl⟩
  · exact dismiss_registry args net self (s.unregister self)

/-! ### The choice of an id -/

theorem mem_availableIds {ν : Type} {args : Args}
    {clients : OrderedDict Int ν} {id : Int} :
    id ∈ availableIds args clients ↔
      1 ≤ id ∧ id ≤ args.nClients ∧ clients.get? id = none := by
  rw [availableIds, List.mem_filter, List.mem_map, decide_eq_true_iff,
    OrderedDict.get?_eq_none_iff]
  simp only [List.mem_range, ivshmemUnusedId, Args.serverId,
    Int.ofNat_eq_natCast]
  constructor
  · rintro ⟨⟨value, below, rfl⟩, nonzero, notServer, free⟩
    exact ⟨by omega, by omega, free⟩
  · rintro ⟨positive, bounded, free⟩
    exact ⟨⟨id.toNat, by omega, by omega⟩, by omega, by omega, free⟩

/-- A chosen id is the refusal sentinel of a full server or a free id of the
client range. -/
theorem createNewPeerId_spec {ν : Type} {args : Args}
    {clients : OrderedDict Int ν} {choice : Nat} {id : Int}
    (chosen : createNewPeerId args clients choice = some id) :
    (id = -1 ∧ args.nClients ≤ clients.size) ∨
      (1 ≤ id ∧ id ≤ args.nClients ∧ clients.get? id = none) := by
  unfold createNewPeerId at chosen
  split at chosen
  · rename_i full
    exact Or.inl ⟨(Option.some.inj chosen).symm, full⟩
  · rename_i room
    right
    rw [Nat.not_le] at room
    dsimp only at chosen
    split at chosen
    · exact mem_availableIds.mp (List.mem_of_getElem? chosen)
    · split at chosen
      · rename_i empty
        cases chosen
        refine ⟨Int.le_refl 1, by omega, ?_⟩
        rw [OrderedDict.get?_eq_none_iff]
        rw [OrderedDict.size_eq_length_keys, List.length_eq_zero_iff] at empty
        simp [empty]
      · exact mem_availableIds.mp (List.mem_of_mem_head? chosen)

/-! ### The invariant -/

/-- `Identities` with what it needs of the proxies that are still on their
way or gave up. -/
structure IdsHeld (args : Args) (s : State) : Prop where
  identities : Identities args s
  candidates : ∀ self,
    (s.proxy self).stage = .built ∨ (s.proxy self).stage = .stopped →
      (s.proxy self).id = -1 ∨
        (1 ≤ (s.proxy self).id ∧ (s.proxy self).id ≤ args.nClients)
  unbuilt : ∀ self, s.built ≤ self → (s.proxy self).stage = .lost

namespace IdsHeld

variable {args : Args} {s t : State} {self : Nat}

theorem init (args : Args) : IdsHeld args (init args) := by
  refine ⟨⟨?_, ?_, ?_⟩, ?_, fun _ _ => rfl⟩ <;>
    simp [Completed, Server.init]

/-- A step that leaves every completed proxy alone and completes none keeps
the whole of `Identities` when it keeps the registry. -/
theorem identities_of_same (identities : Identities args s)
    (clients : t.clients = s.clients)
    (same : ∀ other, Completed t other ↔ Completed s other)
    (kept : ∀ other, Completed s other → t.proxy other = s.proxy other) :
    Identities args t := by
  refine ⟨fun other completed => ?_, fun first second one two sameId => ?_,
    fun id other => ?_⟩
  · have before := (same other).mp completed
    rw [kept other before]
    exact identities.inRange other before
  · have oneBefore := (same first).mp one
    have twoBefore := (same second).mp two
    rw [kept first oneBefore, kept second twoBefore] at sameId
    exact identities.distinct first second oneBefore twoBefore sameId
  · rw [clients, identities.registered, same]
    constructor
    · rintro ⟨completed, idEq⟩
      exact ⟨completed, by rw [kept other completed]; exact idEq⟩
    · rintro ⟨completed, idEq⟩
      exact ⟨completed, by rw [kept other completed] at idEq; exact idEq⟩

theorem build (held : IdsHeld args s) {choice : Nat}
    (taken : buildProtocol args choice s = some t) : IdsHeld args t := by
  unfold buildProtocol at taken
  obtain ⟨id, chosen, rfl⟩ := Option.map_eq_some_iff.mp taken
  have notCompleted : ¬ Completed s s.built := by
    rw [Completed, held.unbuilt s.built (Nat.le_refl _)]
    exact nofun
  have range : id = -1 ∨ (1 ≤ id ∧ id ≤ args.nClients) := by
    rcases createNewPeerId_spec chosen with ⟨refused, -⟩ | ⟨low, high, _⟩
    · exact Or.inl refused
    · exact Or.inr ⟨low, high⟩
  have others : ∀ other, other ≠ s.built →
      Function.update s.proxy s.built (newProxy args id s) other =
        s.proxy other :=
    fun other old => Function.update_of_ne old _ _
  refine ⟨identities_of_same held.identities rfl ?_ ?_, ?_, ?_⟩
  · intro other
    by_cases new : other = s.built
    · subst new
      simp [Completed, held.unbuilt, newProxy]
    · simp [Completed, others other new]
  · intro other completed
    exact others other fun new => notCompleted (by rwa [new] at completed)
  · intro other stage
    by_cases new : other = s.built
    · subst new
      simpa [newProxy] using range
    · simp only [others other new] at stage ⊢
      exact held.candidates other stage
  · intro other above
    have above : s.built + 1 ≤ other := above
    simp only [others other (by omega)]
    exact held.unbuilt other (by omega)

/-- A step of one proxy. -/
theorem of_own (held : IdsHeld args s) (below : self < s.built)
    (built : t.built = s.built)
    (others : ∀ other, other ≠ self → t.proxy other = s.proxy other)
    (identities : Identities args t)
    (own : (t.proxy self).stage = .built ∨ (t.proxy self).stage = .stopped →
      (t.proxy self).id = -1 ∨
        (1 ≤ (t.proxy self).id ∧ (t.proxy self).id ≤ args.nClients)) :
    IdsHeld args t := by
  refine ⟨identities, fun other stageEq => ?_, fun other above => ?_⟩
  · by_cases same : other = self
    · rw [same] at stageEq ⊢
      exact own stageEq
    · rw [others other same] at stageEq ⊢
      exact held.candidates other stageEq
  · rw [built] at above
    rw [others other (by omega)]
    exact held.unbuilt other above

theorem stops (held : IdsHeld args s) (stage : (s.proxy self).stage = .built)
    (below : self < s.built) (stops : Stops self s t) : IdsHeld args t := by
  obtain ⟨clients, built, proxy, stopped, idEq, proxies⟩ := stops
  have others : ∀ other, other ≠ self → t.proxy other = s.proxy other :=
    fun other differ => by rw [proxies, Function.update_of_ne differ]
  have selfEq : t.proxy self = proxy := by rw [proxies, Function.update_self]
  apply held.of_own below built others
  · apply identities_of_same held.identities clients
    · intro other
      by_cases same : other = self
      · subst same
        simp [Completed, selfEq, stopped, stage]
      · rw [Completed, others other same, Completed]
    · intro other completed
      refine others other fun same => ?_
      rw [Completed, same, stage] at completed
      cases completed
  · intro _
    rw [selfEq]
    rcases idEq with kept | forgotten
    · rw [kept]
      exact held.candidates self (Or.inl stage)
    · exact Or.inl forgotten

theorem registers (held : IdsHeld args s)
    (stage : (s.proxy self).stage = .built) (below : self < s.built)
    (realId : (s.proxy self).id ≠ -1)
    (free : s.clients.get? (s.proxy self).id = none)
    (registers : Registers self s t) : IdsHeld args t := by
  obtain ⟨clients, built, proxy, completed, idEq, proxies⟩ := registers
  have others : ∀ other, other ≠ self → t.proxy other = s.proxy other :=
    fun other differ => by rw [proxies, Function.update_of_ne differ]
  have selfEq : t.proxy self = proxy := by rw [proxies, Function.update_self]
  have old : ∀ other, other ≠ self → (Completed t other ↔ Completed s other) :=
    fun other differ => by rw [Completed, others other differ, Completed]
  have range := (held.candidates self (Or.inl stage)).resolve_left realId
  -- a completed connection other than `self` cannot hold the id of `self`
  have clash : ∀ other, other ≠ self → Completed t other →
      (t.proxy other).id ≠ (s.proxy self).id := by
    intro other differ done sameId
    rw [others other differ] at sameId
    have held := (held.identities.registered _ other).mpr
      ⟨(old other differ).mp done, sameId⟩
    rw [free] at held
    cases held
  refine held.of_own below built others ⟨?_, ?_, ?_⟩ ?_
  · intro other done
    by_cases same : other = self
    · rw [same, selfEq, idEq]
      exact range
    · rw [others other same]
      exact held.identities.inRange other ((old other same).mp done)
  · intro first second one two sameId
    by_cases firstSelf : first = self <;> by_cases secondSelf : second = self
    · exact firstSelf.trans secondSelf.symm
    · rw [firstSelf, selfEq, idEq] at sameId
      exact False.elim (clash second secondSelf two sameId.symm)
    · rw [secondSelf, selfEq, idEq] at sameId
      exact False.elim (clash first firstSelf one sameId)
    · rw [others first firstSelf, others second secondSelf] at sameId
      exact held.identities.distinct first second
        ((old first firstSelf).mp one) ((old second secondSelf).mp two) sameId
  · intro id other
    rw [clients, OrderedDict.get?_set]
    by_cases own : id = (s.proxy self).id
    · rw [if_pos own, Option.some.injEq]
      constructor
      · intro same
        subst same
        exact ⟨by rw [Completed, selfEq]; exact completed,
          by rw [selfEq, idEq, own]⟩
      · rintro ⟨done, sameId⟩
        by_contra differ
        exact clash other (Ne.symm differ) done (sameId.trans own)
    · rw [if_neg own, held.identities.registered]
      by_cases same : other = self
      · subst same
        constructor
        · rintro ⟨-, sameId⟩
          exact False.elim (own sameId.symm)
        · rintro ⟨-, sameId⟩
          rw [selfEq, idEq] at sameId
          exact False.elim (own sameId.symm)
      · rw [old other same, others other same]
  · intro stageEq
    rw [selfEq, completed] at stageEq
    simp at stageEq

theorem lost (held : IdsHeld args s) (net : Nat → Bool)
    (below : self < s.built)
    (stage : (s.proxy self).stage = .completed ∨
      (s.proxy self).stage = .stopped)
    (free : (s.proxy self).stage = .stopped →
      s.clients.get? (s.proxy self).id = none) :
    IdsHeld args (connectionLost args net self s) := by
  obtain ⟨clients, built, proxies⟩ := connectionLost_registry args net self s
  generalize connectionLost args net self s = t at clients built proxies
  have others : ∀ other, other ≠ self → t.proxy other = s.proxy other :=
    fun other differ => by
      rw [proxies, State.unregister, proxy_modify,
        Function.update_of_ne differ]
  have gone : (t.proxy self).stage = .lost := by
    rw [proxies, State.unregister, proxy_modify, Function.update_self]
  have old : ∀ other, Completed t other ↔ other ≠ self ∧ Completed s other := by
    intro other
    by_cases same : other = self
    · simp [Completed, same, gone]
    · simp [Completed, same, others other same]
  refine held.of_own below built others ⟨?_, ?_, ?_⟩ ?_
  · intro other done
    have before := (old other).mp done
    rw [others other before.1]
    exact held.identities.inRange other before.2
  · intro first second one two sameId
    have oneBefore := (old first).mp one
    have twoBefore := (old second).mp two
    rw [others first oneBefore.1, others second twoBefore.1] at sameId
    exact held.identities.distinct first second oneBefore.2 twoBefore.2 sameId
  · intro id other
    rw [clients, OrderedDict.get?_del, old]
    by_cases own : id = (s.proxy self).id
    · rw [if_pos own]
      constructor
      · exact nofun
      · rintro ⟨⟨differ, done⟩, sameId⟩
        rw [others other differ, own] at sameId
        have registered := (held.identities.registered _ other).mpr
          ⟨done, sameId⟩
        -- the holder of the id is `self`, unless `self` had stopped early
        rcases stage with completed | stopped
        · have mine := (held.identities.registered _ self).mpr
            ⟨completed, rfl⟩
          rw [mine] at registered
          exact False.elim (differ (Option.some.inj registered).symm)
        · rw [free stopped] at registered
          cases registered
    · rw [if_neg own, held.identities.registered]
      by_cases same : other = self
      · subst same
        constructor
        · rintro ⟨-, sameId⟩
          exact False.elim (own sameId.symm)
        · rintro ⟨⟨differ, -⟩, -⟩
          exact False.elim (differ rfl)
      · simp [same, others other same]
  · intro stageEq
    rw [gone] at stageEq
    simp at stageEq

/-- An orderly event keeps the invariant. -/
theorem step (held : IdsHeld args s) {net : Nat → Bool} {event : Event}
    (orderly : Orderly net s event)
    (taken : Server.step args net s event = some t) : IdsHeld args t := by
  cases event with
  | build choice => exact held.build taken
  | made self notifiersOk =>
      simp only [Server.step, Option.ite_none_right_eq_some,
        Option.some.injEq] at taken
      obtain ⟨⟨below, stage⟩, rfl⟩ := taken
      by_cases completes : Completes net notifiersOk self s
      · exact held.registers stage below completes.1 (orderly completes)
          (connectionMade_registers args completes)
      · exact held.stops stage below (connectionMade_stops args completes)
  | lost self =>
      simp only [Server.step, Option.ite_none_right_eq_some,
        Option.some.injEq] at taken
      obtain ⟨⟨below, stage⟩, rfl⟩ := taken
      exact held.lost net below stage orderly
  | named self nodename =>
      simp only [Server.step, Option.ite_none_right_eq_some,
        Option.some.injEq] at taken
      obtain ⟨-, rfl⟩ := taken
      obtain ⟨inRange, distinct, registered⟩ := held.identities
      exact ⟨⟨inRange, distinct, registered⟩, held.candidates, held.unbuilt⟩

/-- A disorderly event breaks the correspondence at once. -/
theorem step_broken (held : IdsHeld args s) {net : Nat → Bool}
    {event : Event} (disorderly : ¬ Orderly net s event)
    (taken : Server.step args net s event = some t) :
    ¬ Identities args t := by
  intro identities
  cases event with
  | build choice => exact disorderly trivial
  | made self notifiersOk =>
      simp only [Orderly, Classical.not_imp] at disorderly
      obtain ⟨completes, occupied⟩ := disorderly
      obtain ⟨other, holder⟩ := Option.ne_none_iff_exists'.mp occupied
      simp only [Server.step, Option.ite_none_right_eq_some,
        Option.some.injEq] at taken
      obtain ⟨⟨-, stage⟩, rfl⟩ := taken
      obtain ⟨-, -, proxy, completed, idEq, proxies⟩ :=
        connectionMade_registers args completes
      obtain ⟨done, sameId⟩ := (held.identities.registered _ other).mp holder
      have differ : other ≠ self := by
        intro same
        rw [Completed, same, stage] at done
        cases done
      -- both `self` and the earlier holder are now completed under one id
      refine differ (identities.distinct other self ?_ ?_ ?_)
      · rw [Completed, proxies, Function.update_of_ne differ]
        exact done
      · rw [Completed, proxies, Function.update_self]
        exact completed
      · rw [proxies, Function.update_of_ne differ, Function.update_self,
          sameId, idEq]
  | lost self =>
      simp only [Orderly, Classical.not_imp] at disorderly
      obtain ⟨stopped, occupied⟩ := disorderly
      obtain ⟨other, holder⟩ := Option.ne_none_iff_exists'.mp occupied
      simp only [Server.step, Option.ite_none_right_eq_some,
        Option.some.injEq] at taken
      obtain ⟨-, rfl⟩ := taken
      obtain ⟨clients, -, proxies⟩ := connectionLost_registry args net self s
      obtain ⟨done, sameId⟩ := (held.identities.registered _ other).mp holder
      have differ : other ≠ self := by
        intro same
        rw [Completed, same, stopped] at done
        cases done
      have kept : (connectionLost args net self s).proxy other =
          s.proxy other := by
        rw [proxies, State.unregister, proxy_modify,
          Function.update_of_ne differ]
      -- the holder is still completed but no longer registered
      have registered := (identities.registered (s.proxy self).id other).mpr
        ⟨by rw [Completed, kept]; exact done, by rw [kept]; exact sameId⟩
      rw [clients, OrderedDict.get?_del_self] at registered
      cases registered
  | named self nodename => exact disorderly trivial

end IdsHeld

/-- Over every run, for every outcome of every send and of the notifier
creation: the live connections hold distinct client ids and `SI.clients` maps
exactly those ids to exactly them in every state reached, if and only if every
event of the run is orderly. -/
theorem identities_iff_orderly (args : Args) (net : Nat → Bool)
    (trace : List Event) :
    Transition.Always (step args net) (Identities args) (init args) trace ↔
      Transition.Meets (step args net) (Orderly net) (init args) trace :=
  Transition.always_iff_meets
    (fun _ _ _ held orderly taken => held.step orderly taken)
    (fun _ held => held.identities)
    (fun _ _ _ held disorderly taken => held.step_broken disorderly taken)
    (IdsHeld.init args)

/-- The first connection fails to send its initial information and stops with
id 1; the second takes id 1 and completes; then the first is lost, and the
live second is no longer registered. -/
theorem identities_lost_by_stopped_proxy :
    ¬ Transition.Always
        (step { nClients := 2, recycle := true, silent := true,
                smart := false } fun call => decide (call ≠ 0))
        (Identities { nClients := 2, recycle := true, silent := true,
                      smart := false })
        (init { nClients := 2, recycle := true, silent := true,
                smart := false })
        [.build 0, .made 0 true, .build 0, .made 1 true, .lost 0] := by
  intro always
  have identities := Transition.always_run always rfl
  have registered := (identities.registered 1 1).mpr ⟨by decide, by decide⟩
  exact absurd registered (by decide)

end FameZ.Server
