/-
Module: FameZ.Server.Recycling
Purpose: With recycling a reused id is not advertised; when every live client
  still knows every other one.
Trusted boundary: none
Main exports: Known, ViewsAgree, remembered, views_agree_iff_known
-/
import FameZ.Server.Tables

namespace FameZ.Server

/-!
A recycled id comes with the notifiers of its dead holder, and the connection
is not advertised because the others are taken to know them.  They do exactly
when they were registered when that holder was lost; a client that connected
between the loss and the reuse was never told.
-/

/-- A batch of `nEvents` is complete: the next one replaces it. -/
def complete (args : Args) (length : Nat) : Bool := length = args.nEvents

theorem patient_complete (args : Args) :
    Patient (complete args) args.nEvents := by
  intro length below
  simp only [complete, decide_eq_false_iff_not]
  omega

/-- Every live client holds the notifiers of every other one. -/
def ViewsAgree (args : Args) (s : State) : Prop :=
  ∀ p ∈ s.clients.values, ∀ q ∈ s.clients.values, p ≠ q →
    ∃ fds, (s.proxy q).enList = some fds ∧ fds.length = args.nEvents ∧
      view (complete args) s p (s.proxy q).id = some fds

/-- The claim on one event: a connectionMade that runs to its end leaves the
live clients in agreement. -/
def AgreeAfter (args : Args) (s : State) (event : Conn) (t : State) : Prop :=
  match event with
  | .connect _ _ => Completed t s.built → ViewsAgree args t
  | .disconnect _ => True

/-- The condition on one event: a connection that is given the id of a dead
holder finds only clients that were registered when that holder was lost. -/
def Known (args : Args) (s : State) : Conn → Prop
  | .connect choice _ =>
      ∀ id ∈ createNewPeerId args s.clients choice, id ≠ -1 →
        ∀ dead ∈ s.recycled.get? id,
          ∀ client ∈ s.clients.values, client ∈ (s.proxy dead).survivors
  | .disconnect _ => True

instance (args : Args) (s : State) :
    (event : Conn) → Decidable (Known args s event)
  | .connect choice _ =>
      inferInstanceAs (Decidable
        (∀ id ∈ createNewPeerId args s.clients choice, id ≠ -1 →
          ∀ dead ∈ s.recycled.get? id,
            ∀ client ∈ s.clients.values,
              client ∈ (s.proxy dead).survivors))
  | .disconnect _ => isTrue trivial

/-- What a client holds under an id of the client range: the notifiers of the
live holder, or those of the dead one if it saw that one go. -/
def remembered (s : State) (client : Nat) : Table := fun id =>
  match s.clients.get? id with
  | some holder => (s.proxy holder).enList
  | none =>
      (s.recycled.get? id).bind fun dead =>
        if client ∈ (s.proxy dead).survivors then (s.proxy dead).enList
        else none

/-- The tables of the live clients in runs whose events are all `Known`. -/
structure Recalled (args : Args) (s : State) : Prop where
  linked : Linked args s
  tables : ∀ client ∈ s.clients.values, ∀ id : Int, 1 ≤ id → id ≤ args.nClients →
    view (complete args) s client id = remembered s client id

namespace Recalled

variable {args : Args} {s t : State}

theorem init (args : Args) : Recalled args (init args) :=
  ⟨Linked.init args, nofun⟩

theorem viewsAgree (recalled : Recalled args s) : ViewsAgree args s := by
  intro p pLive q qLive _
  have done := recalled.linked.mem_values.mp qLive
  have holds := recalled.linked.registered.mpr ⟨done, rfl⟩
  obtain ⟨fds, enListEq, full⟩ := recalled.linked.notifiers q done
  obtain ⟨low, high⟩ := recalled.linked.inRange holds
  refine ⟨fds, enListEq, full, ?_⟩
  rw [recalled.tables p pLive _ low high, remembered, holds]
  exact enListEq

theorem refused (recalled : Recalled args s) {choice : Nat}
    {notifiersOk : Bool} (linked : Linked args t)
    (refused : Refused args choice notifiersOk s t) :
    Recalled args t := by
  refine ⟨linked, fun client live id low high => ?_⟩
  rw [refused.clients] at live
  have below := recalled.linked.below live
  rw [view_untold (refused.told client (by omega)),
    recalled.tables client live id low high, remembered, remembered, refused.clients,
    refused.kept id (by omega)]
  cases holder : s.clients.get? id with
  | some q =>
      have qBelow := recalled.linked.below
        (OrderedDict.mem_values_iff.mpr ⟨id, holder⟩)
      exact congrArg Proxy.enList (refused.others q (by omega)).symm
  | none =>
      cases recycled : s.recycled.get? id with
      | none => rfl
      | some dead =>
          have deadBelow := (recalled.linked.dead id dead recycled).2.1
          simp only [Option.bind_some, refused.others dead (by omega)]

/-- What an older client recalls changes at the id of the newcomer only. -/
theorem remembered_joins (linked : Linked args s) {choice : Nat} {id : Int}
    {fds : List Nat} {known : Bool}
    (joins : Joins args choice s t id fds known) (client : Nat) :
    remembered t client = Function.update (remembered s client) id (some fds) := by
  funext other
  rw [remembered, joins.clients, OrderedDict.get?_set]
  by_cases same : other = id
  · rw [if_pos same, same, Function.update_self]
    exact joins.enListEq
  · rw [if_neg same, Function.update_of_ne same, remembered, joins.recycled,
      OrderedDict.get?_del_of_ne _ same]
    cases holder : s.clients.get? other with
    | some q =>
        have below := linked.below
          (OrderedDict.mem_values_iff.mpr ⟨other, holder⟩)
        exact congrArg Proxy.enList (joins.others q (by omega))
    | none =>
        cases recycled : s.recycled.get? other with
        | none => rfl
        | some dead =>
            have below := (linked.dead other dead recycled).2.1
            simp only [Option.bind_some, joins.others dead (by omega)]

/-- The newcomer saw nobody go. -/
theorem remembered_newcomer (linked : Linked args s) {choice : Nat} {id : Int}
    {fds : List Nat} {known : Bool}
    (joins : Joins args choice s t id fds known) {other : Int}
    (high : other ≤ args.nClients) :
    remembered t s.built other = roster args t other := by
  rw [remembered_joins linked joins, roster_joins linked joins]
  by_cases same : other = id
  · rw [same, Function.update_self, Function.update_self]
  · rw [Function.update_of_ne same, Function.update_of_ne same, remembered, roster]
    cases s.clients.get? other with
    | some q => rfl
    | none =>
        have notServer : other ≠ args.serverId := by
          simp only [Args.serverId]
          omega
        simp only [notServer, false_and, if_false]
        cases s.recycled.get? other with
        | none => rfl
        | some dead =>
            have unseen : s.built ∉ (s.proxy dead).survivors := fun member =>
              Nat.lt_irrefl _ (linked.witnessed dead s.built member)
            simp [unseen]

/-- An older client's table after a join it need not, or will not, be told
about. -/
theorem view_joins (recalled : Recalled args s) {choice : Nat} {id : Int}
    {fds : List Nat} {known : Bool}
    (joins : Joins args choice s t id fds known) {client : Nat}
    (live : client ∈ s.clients.values) :
    view (complete args) t client =
      if known = true then view (complete args) s client
      else Function.update (view (complete args) s client) id (some fds) := by
  have below := recalled.linked.below live
  cases known with
  | true =>
      rw [if_pos rfl]
      apply view_untold
      rw [joins.told client (by omega)]
      simp
  | false =>
      rw [if_neg Bool.false_ne_true]
      apply view_told recalled.linked (patient_complete args) joins live
      rw [recalled.tables client live id joins.low joins.high, remembered,
        joins.free, joins.fresh rfl]
      rfl

theorem joins (recalled : Recalled args s) {choice : Nat} {id : Int}
    {fds : List Nat} {known : Bool} (linked : Linked args t)
    (joins : Joins args choice s t id fds known)
    (seen : ∀ dead, s.recycled.get? id = some dead →
      ∀ client ∈ s.clients.values, client ∈ (s.proxy dead).survivors) :
    Recalled args t := by
  refine ⟨linked, fun client live other low high => ?_⟩
  by_cases new : client = s.built
  · rw [new, remembered_newcomer recalled.linked joins high,
      view_newcomer recalled.linked (patient_complete args) joins]
  · have done := linked.mem_values.mp live
    rw [Completed, joins.others client new] at done
    have before := recalled.linked.mem_values.mpr done
    rw [recalled.view_joins joins before,
      remembered_joins recalled.linked joins client]
    have old := recalled.tables client before other low high
    cases known with
    | false =>
        rw [if_neg Bool.false_ne_true]
        by_cases same : other = id
        · rw [same, Function.update_self, Function.update_self]
        · rw [Function.update_of_ne same, Function.update_of_ne same, old]
    | true =>
        rw [if_pos rfl, old]
        by_cases same : other = id
        · -- the client saw the dead holder go, so it knows the notifiers
          obtain ⟨dead, recycled, enListEq⟩ := joins.reused rfl
          rw [same, Function.update_self, remembered, joins.free, recycled]
          simp only [Option.bind_some]
          rw [if_pos (seen dead recycled client before), enListEq]
        · rw [Function.update_of_ne same]

theorem leaves (recalled : Recalled args s) (recycle : args.recycle = true)
    {leaver : Nat} (linked : Linked args t)
    (leaves : Leaves args leaver s t) : Recalled args t := by
  refine ⟨linked, fun client live id low high => ?_⟩
  have done := linked.mem_values.mp live
  have stays : client ≠ leaver := by
    rintro rfl
    rw [Completed, leaves.gone] at done
    cases done
  rw [Completed, leaves.others client stays] at done
  have before := recalled.linked.mem_values.mpr done
  have quiet : t.stream client = s.stream client := by
    rw [leaves.told client]
    simp [recycle]
  rw [view_untold quiet, recalled.tables client before id low high, remembered,
    remembered, leaves.clients, leaves.recycled, if_pos recycle,
    OrderedDict.get?_del, OrderedDict.get?_set]
  by_cases same : id = (s.proxy leaver).id
  · rw [if_pos same, if_pos same]
    have completed : Completed s leaver := by
      rcases leaves.before with completed | stopped
      · exact completed
      · have nameless := recalled.linked.nameless leaver stopped
        omega
    have holder := recalled.linked.registered.mpr
      ⟨completed, same.symm⟩
    rw [holder]
    simp only [Option.bind_some, leaves.gone]
    rw [if_pos live]
  · rw [if_neg same, if_neg same]
    cases holder : s.clients.get? id with
    | some q =>
        have differ : q ≠ leaver := fun equal =>
          same ((recalled.linked.registered.mp holder).2.symm.trans
            (by rw [equal]))
        exact congrArg Proxy.enList (leaves.others q differ).symm
    | none =>
        cases recycled : s.recycled.get? id with
        | none => rfl
        | some dead =>
            have differ : dead ≠ leaver := fun equal =>
              same ((recalled.linked.dead id dead recycled).1.symm.trans
                (by rw [equal]))
            simp only [Option.bind_some, leaves.others dead differ]

/-- A `Known` event keeps the tables. -/
theorem step (recalled : Recalled args s) {net : Nat → Bool}
    (up : ∀ call, net call = true) (recycle : args.recycle = true)
    {event : Conn} (known : Known args s event)
    (taken : connStep args net s event = some t) : Recalled args t := by
  have linked := recalled.linked.step up taken
  cases event with
  | connect choice notifiersOk =>
      rcases recalled.linked.connect_cases up taken with
        refused | ⟨id, fds, reused, -, joins⟩
      · exact recalled.refused linked refused
      · have realId : id ≠ -1 := by
          have low := joins.low
          omega
        exact recalled.joins linked joins
          (known id joins.chosen realId)
  | disconnect leaver =>
      exact recalled.leaves recycle linked
        (recalled.linked.disconnect_leaves up taken)

/-- A connection that reuses an id a live client never knew leaves that client
without the notifiers of the newcomer. -/
theorem step_broken (recalled : Recalled args s) {net : Nat → Bool}
    (up : ∀ call, net call = true) {event : Conn}
    (unknown : ¬ Known args s event)
    (taken : connStep args net s event = some t) :
    ¬ AgreeAfter args s event t := by
  have linked := recalled.linked.step up taken
  intro agrees
  cases event with
  | disconnect leaver => exact unknown trivial
  | connect choice notifiersOk =>
      simp only [Known, Classical.not_forall] at unknown
      obtain ⟨id, chosen, realId, dead, recycled, client, live, unseen⟩ :=
        unknown
      have below := recalled.linked.below live
      rcases recalled.linked.connect_cases up taken with
        refused | ⟨given, fds, reused, -, joins⟩
      · -- an id taken over from a dead holder is never refused
        rcases refused.reason with full | failed
        · rw [createNewPeerId, if_pos full] at chosen
          exact realId (Option.some.inj chosen).symm
        · have fresh := failed.2 id chosen
          rw [recycled] at fresh
          cases fresh
      · have same : given = id := by
          have other := joins.chosen
          rw [chosen] at other
          exact (Option.some.inj other).symm
        subst same
        have differ : client ≠ s.built := by omega
        have clientLive : client ∈ t.clients.values := by
          rw [linked.mem_values, Completed, joins.others client differ]
          exact recalled.linked.mem_values.mp live
        have newLive : s.built ∈ t.clients.values :=
          linked.mem_values.mpr joins.stage
        obtain ⟨own, -, -, told⟩ :=
          agrees joins.stage client clientLive s.built newLive differ
        have reusedTrue : reused = true := by
          cases reused with
          | true => rfl
          | false =>
              have fresh := joins.fresh rfl
              rw [recycled] at fresh
              cases fresh
        rw [joins.idEq, recalled.view_joins joins live, if_pos reusedTrue,
          recalled.tables client live given joins.low joins.high, remembered,
          joins.free, recycled] at told
        simp [unseen] at told

end Recalled

/-- With recycling, over every run of connects and disconnects in any order in
which the sends succeed: after each connectionMade that runs to its end every
live client holds the notifiers of every other one, if and only if every
connection that is given the id of a dead holder finds only clients that were
registered when that holder was lost. -/
theorem views_agree_iff_known (args : Args) (net : Nat → Bool)
    (up : ∀ call, net call = true) (recycle : args.recycle = true)
    (trace : List Conn) :
    Transition.Along (connStep args net) (AgreeAfter args) (init args) trace ↔
      Transition.Meets (connStep args net) (Known args) (init args) trace := by
  refine Transition.along_iff_meets
    (fun s event t (recalled : Recalled args s) known taken => ?_) ?_ ?_
  · have after := recalled.step up recycle known taken
    refine ⟨after, ?_⟩
    cases event with
    | connect choice notifiersOk => exact fun _ => after.viewsAgree
    | disconnect leaver => trivial
  · intro s event t recalled unknown taken
    exact recalled.step_broken up unknown taken
  · exact Recalled.init args

/-- A run that reuses an id while the only other client still knows it. -/
theorem views_agree_after_restart :
    Transition.Along
      (connStep { nClients := 2, recycle := true, silent := false,
                  smart := false } fun _ => true)
      (AgreeAfter { nClients := 2, recycle := true, silent := false,
                    smart := false })
      (init { nClients := 2, recycle := true, silent := false,
              smart := false })
      [.connect 0 true, .connect 0 true, .disconnect 0, .connect 0 true] :=
  (views_agree_iff_known _ _ (fun _ => rfl) rfl _).mpr (by decide)

/-- Both clients leave and come back: the first to return never hears of the
second, whose id counts as known. -/
theorem views_disagree_after_double_restart :
    ¬ Transition.Along
        (connStep { nClients := 2, recycle := true, silent := false,
                    smart := false } fun _ => true)
        (AgreeAfter { nClients := 2, recycle := true, silent := false,
                      smart := false })
        (init { nClients := 2, recycle := true, silent := false,
                smart := false })
        ([.connect 0 true, .connect 0 true, .disconnect 1, .disconnect 0,
          .connect 0 true] ++ [.connect 0 true]) := by
  intro along
  have agrees := Transition.along_last along rfl rfl
  obtain ⟨fds, -, -, told⟩ :=
    agrees rfl 2 (by decide) 3 (by decide) (by decide)
  exact absurd (Option.isSome_of_eq_some told) (by decide)

end FameZ.Server
