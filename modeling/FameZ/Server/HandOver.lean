/-
Module: FameZ.Server.HandOver
Purpose: What a new holder of a peer id finds of the earlier one: the node
  name, the length of the message in the mailslot, and the event counters.
Trusted boundary: the translation of the accesses to mailslots and eventfds
Main exports: Event, step, ownRing, CleanHandOver, Settled, Orderly,
  clean_iff_settled
-/
import FameZ.Server.NewClient

namespace FameZ.Server.HandOver

/-!
Three things outlive a peer: the name and the message in its mailslot, and the
counters of its notifiers.  A message exchange is four accesses here, in any
order and by whoever makes them: a sender may name another peer as the source,
and everybody keeps the descriptors it was once sent.
-/

/-- `name` is a client that writes its node name into its mailslot, `leave` one
that empties it before it hangs up.  `track` is the server's process that counts
or resets the payloads it sends otherwise. -/
inductive Event where
  | connect (choice : Nat) (notifiersOk : Bool)
  | disconnect (self : Nat)
  | name (self : Nat) (nodename : String)
  | leave (self : Nat)
  | fill (slot length : Nat)
  | retrieve (slot : Nat)
  | ring (fd : Nat)
  | reset (fd : Nat)
  | track (value : Nat)
deriving Repr, DecidableEq

/-- Write the `msglen` of a mailslot. -/
def setMsglen (slot length : Nat) (s : State) : State :=
  { s with
    mail :=
      { s.mail with msglen := Function.update s.mail.msglen slot length } }

/-- Write the counter of an eventfd. -/
def setCount (fd value : Nat) (s : State) : State :=
  { s with
    mail := { s.mail with count := Function.update s.mail.count fd value } }

def step (args : Args) (net : Nat → Bool) : Transition.Step State Event :=
  fun s event =>
  match event with
  | .connect choice notifiersOk =>
      connStep args net s (.connect choice notifiersOk)
  | .disconnect self => connStep args net s (.disconnect self)
  | .name self nodename => Server.step args net s (.named self nodename)
  | .leave self => Server.step args net s (.named self "")
  | .fill slot length =>
      if 1 ≤ slot ∧ slot ≤ args.serverId then some (setMsglen slot length s)
      else none
  | .retrieve slot =>
      if 1 ≤ slot ∧ slot ≤ args.serverId then some (setMsglen slot 0 s)
      else none
  | .ring fd =>
      if fd < s.nextFd then
        some (setCount fd (Mailbox.incr (s.mail.count fd)) s)
      else none
  | .reset fd =>
      if s.mail.count fd ≠ 0 then some (setCount fd 0 s) else none
  | .track value =>
      some { s with mail := { s.mail with tracker := value } }

/-- What the `k`-th notifier of a new client counts if nobody but the server
rang it: a smart server asks the client for its attributes, if the request
fits. -/
def ownRing (args : Args) (s : State) (k : Nat) : Nat :=
  if args.smart = true ∧ k = args.serverId ∧
      (stamped peerAttribute (s.mail.tracker + 1)).length <
        Mailbox.maxMsglen then 1
  else 0

/-- The proxy, its mailslot and its notifiers show nothing of anybody else: no
notifier counts more than the ring of the server that goes with the
connection. -/
structure Clean (args : Args) (s t : State) (client : Nat) : Prop where
  slot : t.slotName (t.proxy client).id.toNat = ""
  nodename : (t.proxy client).nodename = ""
  mail : t.mail.msglen (t.proxy client).id.toNat = 0
  doorbells : ∀ fds, (t.proxy client).enList = some fds →
    ∀ k fd, fds[k]? = some fd → t.mail.count fd = ownRing args s k

/-- A connection that completes finds nothing. -/
def CleanHandOver (args : Args) (s : State) (event : Event) (t : State) :
    Prop :=
  ∀ choice notifiersOk, event = .connect choice notifiersOk →
    Completed t s.built → Clean args s t s.built

/-- What the earlier holder of the id left has been dealt with: somebody took
its last message; it emptied its node name itself if the server recycles, or
if it still runs because the server forgot it; every doorbell it was sent was
answered, if its notifiers are handed on. -/
structure Settled (args : Args) (s : State) (id : Int) : Prop where
  mail : s.mail.msglen id.toNat = 0
  name : (args.recycle = true ∨
      ∃ other, Completed s other ∧ (s.proxy other).id = id) →
    s.slotName id.toNat = ""
  doorbells : ∀ dead fds, s.recycled.get? id = some dead →
    (s.proxy dead).enList = some fds → ∀ fd ∈ fds, s.mail.count fd = 0

/-- The condition on one event: a connection that is about to complete gets
the id of a holder that is settled. -/
def Orderly (args : Args) (net : Nat → Bool) (s : State) : Event → Prop
  | .connect choice notifiersOk => ∀ built,
      buildProtocol args choice s = some built →
      Completes net notifiersOk s.built built →
        Settled args s (built.proxy s.built).id
  | _ => True

/-! ### Connections in one piece -/

/-- A connection builds its proxy and makes it. -/
theorem connect_taken {args : Args} {net : Nat → Bool} {choice : Nat}
    {notifiersOk : Bool} {s t : State}
    (taken : connStep args net s (.connect choice notifiersOk) = some t) :
    ∃ id built, createNewPeerId args s.clients choice = some id ∧
      buildProtocol args choice s = some built ∧
      built =
        { s with
          built := s.built + 1
          proxy := Function.update s.proxy s.built (newProxy args id s) } ∧
      t = connectionMade args net notifiersOk s.built built := by
  obtain ⟨built, builds, made⟩ := Option.bind_eq_some_iff.mp taken
  obtain ⟨id, chosen, same⟩ := Option.map_eq_some_iff.mp builds
  simp only [Server.step, Option.ite_none_right_eq_some,
    Option.some.injEq] at made
  exact ⟨id, built, chosen, builds, same.symm, made.2.symm⟩

/-- One notifier for each slot, all different, of those that were made. -/
structure Row (args : Args) (s : State) (fds : List Nat) : Prop where
  full : fds.length = args.nEvents
  nodup : fds.Nodup
  made : ∀ fd ∈ fds, fd < s.nextFd

/-- What every run keeps.  Without recycling a node name belongs to a client
that completed and runs. -/
structure Inv (args : Args) (s : State) : Prop where
  enrolled : Enrolled s
  equipped : ∀ client, Completed s client →
    (s.proxy client).enList.isSome = true ∧
      1 ≤ (s.proxy client).id ∧ (s.proxy client).id ≤ args.nClients
  rows : ∀ client fds, (s.proxy client).enList = some fds → Row args s fds
  unrecycled : args.recycle = false → s.recycled = .empty
  owned : args.recycle = false → ∀ id : Int, 1 ≤ id → id ≤ args.nClients →
    s.slotName id.toNat ≠ "" →
      ∃ other, Completed s other ∧ (s.proxy other).id = id
  fresh : ∀ fd, s.nextFd ≤ fd → s.mail.count fd = 0

theorem inv_init (args : Args) : Inv args (init args) := by
  refine ⟨Enrolled.init args, fun client completed => ?_, fun _ _ has => ?_,
    fun _ => rfl, fun _ id low high named => ?_, fun _ _ => rfl⟩
  · cases completed
  · cases has
  · have notServer : id.toNat ≠ args.serverId := by
      rw [Args.serverId]
      omega
    exact absurd (if_neg notServer) named

/-- The server's own notifier is in every row. -/
theorem Row.own {args : Args} {s : State} {fds : List Nat}
    (row : Row args s fds) :
    ∃ fd, fds[args.serverId]? = some fd ∧ fd < s.nextFd := by
  have below : args.serverId < fds.length := by
    rw [row.full, Args.nEvents, Args.serverId]
    omega
  exact ⟨fds[args.serverId], List.getElem?_eq_getElem below,
    row.made _ (List.getElem_mem below)⟩

theorem Given.row {args : Args} {s t : State} {id : Int} {fds : List Nat}
    (given : Given args s t id fds)
    (rows : ∀ client fds, (s.proxy client).enList = some fds →
      Row args s fds) (more : s.nextFd ≤ t.nextFd) : Row args t fds := by
  cases given with
  | recycled dead found enList =>
      obtain ⟨full, nodup, made⟩ := rows dead fds enList
      exact ⟨full, nodup, fun fd member =>
        Nat.lt_of_lt_of_le (made fd member) more⟩
  | fresh absent new above =>
      subst new
      refine ⟨List.length_range', List.nodup_range', fun fd member => ?_⟩
      rw [List.mem_range'_1] at member
      omega

section Connect

variable {args : Args} {net : Nat → Bool} {choice : Nat} {notifiersOk : Bool}
  {s built t : State} {id : Int}

/-- The number of the next proxy is nobody's. -/
theorem Inv.old (inv : Inv args s) {other : Nat}
    (completed : Completed s other) : other ≠ s.built := by
  rintro rfl
  rw [Completed, inv.enrolled.unbuilt _ (Nat.le_refl _)] at completed
  cases completed

/-- A connection leaves the other proxies alone. -/
theorem others_of_connect
    (proxies : built =
      { s with
        built := s.built + 1
        proxy := Function.update s.proxy s.built (newProxy args id s) })
    {other : Nat} (differ : other ≠ s.built) :
    (connectionMade args net notifiersOk s.built built).proxy other =
      s.proxy other := by
  have before : built.proxy other = s.proxy other := by
    rw [proxies]
    exact Function.update_of_ne differ _ _
  rw [← before]
  by_cases completes : Completes net notifiersOk s.built built
  · obtain ⟨-, -, proxy, -, -, proxies⟩ :=
      connectionMade_registers args completes
    rw [proxies, Function.update_of_ne differ]
  · obtain ⟨-, -, proxy, -, -, proxies⟩ :=
      connectionMade_stops args completes
    rw [proxies, Function.update_of_ne differ]

/-- A new proxy that completed could complete. -/
theorem completes_of_completed
    (completed : Completed
      (connectionMade args net notifiersOk s.built built) s.built) :
    Completes net notifiersOk s.built built := by
  by_contra incomplete
  obtain ⟨-, -, proxy, stopped, -, proxies⟩ :=
    connectionMade_stops args incomplete
  rw [Completed, proxies, Function.update_self, stopped] at completed
  cases completed

/-- A proxy that was just built has a row of notifiers afterwards if any. -/
theorem Inv.rows_of_connect (inv : Inv args s)
    (proxies : built =
      { s with
        built := s.built + 1
        proxy := Function.update s.proxy s.built (newProxy args id s) }) :
    ∀ client fds,
      ((connectionMade args net notifiersOk s.built built).proxy
        client).enList = some fds →
      Row args (connectionMade args net notifiersOk s.built built) fds := by
  have bare : (built.proxy s.built).enList = none := by
    rw [proxies]
    simp [newProxy]
  have adds := connectionMade_adds args net notifiersOk s.built built bare
  have before : ∀ client fds, (built.proxy client).enList = some fds →
      Row args built fds := by
    intro client fds has
    rw [proxies] at has ⊢
    by_cases new : client = s.built
    · subst new
      simp [newProxy] at has
    · dsimp only at has
      rw [Function.update_of_ne new] at has
      obtain ⟨full, nodup, made⟩ := inv.rows client fds has
      exact ⟨full, nodup, made⟩
  intro client fds has
  by_cases new : client = s.built
  · subst new
    exact (adds.given fds has).row before adds.nextFd
  · rw [others_of_connect proxies new] at has
    obtain ⟨full, nodup, made⟩ := inv.rows client fds has
    refine ⟨full, nodup, fun fd member =>
      Nat.lt_of_lt_of_le (made fd member) ?_⟩
    have more := adds.nextFd
    rw [proxies] at more ⊢
    exact more

/-- Nobody rings a notifier that is still to be made. -/
theorem Inv.fresh_of_connect (inv : Inv args s)
    (proxies : built =
      { s with
        built := s.built + 1
        proxy := Function.update s.proxy s.built (newProxy args id s) })
    (fd : Nat)
    (above : (connectionMade args net notifiersOk s.built built).nextFd ≤ fd) :
    (connectionMade args net notifiersOk s.built built).mail.count fd = 0 := by
  have bare : (built.proxy s.built).enList = none := by
    rw [proxies]
    simp [newProxy]
  have adds := connectionMade_adds args net notifiersOk s.built built bare
  have mail : built.mail = s.mail := by rw [proxies]
  have next : built.nextFd = s.nextFd := by rw [proxies]
  have before : s.mail.count fd = 0 := by
    apply inv.fresh
    have more := adds.nextFd
    rw [next] at more
    exact Nat.le_trans more above
  by_cases completes : Completes net notifiersOk s.built built
  · obtain ⟨fds, enList, -, greeted⟩ :=
      (connectionMade_handsOver args completes).enList
    obtain ⟨ownFd, own, made⟩ :=
      (inv.rows_of_connect proxies s.built fds enList).own
    rw [greeted ownFd own, mail]
    split
    · unfold Mail.post
      dsimp only
      split
      · have differ : fd ≠ ownFd := by
          rintro rfl
          exact absurd above (Nat.not_le_of_lt made)
        exact (Function.update_of_ne differ _ _).trans before
      · exact before
    · exact before
  · rw [connectionMade_mail args completes, mail]
    exact before

theorem Inv.connect (inv : Inv args s)
    (taken : connStep args net s (.connect choice notifiersOk) = some t) :
    Inv args t := by
  obtain ⟨id, built, chosen, builds, proxies, rfl⟩ := connect_taken taken
  have own : built.proxy s.built = newProxy args id s := by
    rw [proxies]
    exact Function.update_self ..
  have stage : (built.proxy s.built).stage = .built := by
    rw [own]
    rfl
  have below : s.built < built.built := by
    rw [proxies]
    exact Nat.lt_succ_self _
  have adds := connectionMade_adds args net notifiersOk s.built built
    (by rw [own]; rfl)
  have names : built.slotName = s.slotName := by rw [proxies]
  have others : ∀ other, other ≠ s.built →
      (connectionMade args net notifiersOk s.built built).proxy other =
        s.proxy other :=
    fun other differ => others_of_connect proxies differ
  refine ⟨?_, fun client completed => ?_, inv.rows_of_connect proxies,
    fun off => ?_, fun off id low high named => ?_,
    inv.fresh_of_connect proxies⟩
  · have enrolled := inv.enrolled.build builds
    by_cases completes : Completes net notifiersOk s.built built
    · exact enrolled.registers stage below
        (connectionMade_registers args completes)
    · exact enrolled.stops stage below
        (connectionMade_stops args completes)
  · by_cases new : client = s.built
    · subst new
      have completes := completes_of_completed completed
      obtain ⟨fds, enList, -⟩ :=
        (connectionMade_handsOver args completes).enList
      obtain ⟨-, -, proxy, -, idEq, registered⟩ :=
        connectionMade_registers args completes
      have range : 1 ≤ id ∧ id ≤ args.nClients := by
        rcases createNewPeerId_spec chosen with ⟨refused, -⟩ | ⟨low, high, -⟩
        · have realId := completes.1
          rw [own] at realId
          exact absurd refused realId
        · exact ⟨low, high⟩
      rw [enList, registered, Function.update_self, idEq, own]
      exact ⟨rfl, range⟩
    · rw [others client new]
      rw [Completed, others client new] at completed
      exact inv.equipped client completed
  · apply adds.recycled
    rw [proxies]
    exact inv.unrecycled off
  · rw [adds.slotName, names] at named
    obtain ⟨other, completed, holds⟩ := inv.owned off id low high named
    refine ⟨other, ?_, ?_⟩
    · rw [Completed, others other (inv.old completed)]
      exact completed
    · rw [others other (inv.old completed)]
      exact holds

end Connect

section Disconnect

variable {args : Args} {net : Nat → Bool} {self : Nat} {s : State}

/-- What a disconnect without recycling leaves: it erases at most the node name
of its own id, and does so if the proxy has notifiers. -/
structure Dismissed (args : Args) (s t : State) (client : Proxy) :
    Prop where
  nextFd : t.nextFd = s.nextFd
  mail : t.mail = s.mail
  recycled : t.recycled = s.recycled
  erases : ∀ slot, t.slotName slot = s.slotName slot ∨ t.slotName slot = ""
  own : client.enList.isSome = true → 1 ≤ client.id →
    client.id ≤ args.nClients → t.slotName client.id.toNat = ""

theorem dismiss_dismissed (args : Args) (net : Nat → Bool) (self : Nat)
    (s : State) :
    Dismissed args s (dismiss args net self s) (s.proxy self) := by
  unfold dismiss
  dsimp only
  rw [flatMap_notices, proxy_sendAll]
  have quiet : Keeps self s
      (sendAll net (notices (s.proxy self).id s.clients.values) s) :=
    Keeps.of_registry (registry_sendAll ..)
  have mail := mail_sendAll net (notices (s.proxy self).id s.clients.values) s
  generalize sendAll net (notices (s.proxy self).id s.clients.values) s = u
    at quiet mail ⊢
  cases enList : (s.proxy self).enList with
  | none =>
      refine ⟨quiet.nextFd, mail, quiet.recycled, fun slot => ?_,
        fun given => ?_⟩
      · exact Or.inl (congrFun quiet.slotName slot)
      · rw [enList] at given
        cases given
  | some fds =>
      refine ⟨?_, ?_, ?_, fun slot => ?_, fun _ low high => ?_⟩
      · dsimp only
        rw [clearMailslot_eq]
        exact quiet.nextFd
      · dsimp only
        rw [clearMailslot_eq]
        exact mail
      · dsimp only
        rw [clearMailslot_eq]
        exact quiet.recycled
      · dsimp only
        unfold clearMailslot
        split
        · dsimp only
          rw [Function.update_apply, quiet.slotName]
          split
          · exact Or.inr rfl
          · exact Or.inl rfl
        · exact Or.inl (congrFun quiet.slotName slot)
      · have inRange : 1 ≤ (s.proxy self).id ∧
            (s.proxy self).id ≤ args.serverId := by
          rw [Args.serverId]
          omega
        dsimp only
        rw [clearMailslot, if_pos inRange]
        exact Function.update_self ..

/-- No notifier is made or rung when a connection is lost. -/
theorem connectionLost_descriptors (args : Args) (net : Nat → Bool)
    (self : Nat) (s : State) :
    (connectionLost args net self s).nextFd = s.nextFd ∧
      (connectionLost args net self s).mail = s.mail := by
  have dismissed := dismiss_dismissed args net self (s.unregister self)
  unfold connectionLost
  dsimp only
  split
  · exact ⟨rfl, rfl⟩
  · exact ⟨dismissed.nextFd, dismissed.mail⟩

/-- Without recycling every lost connection is dismissed. -/
theorem connectionLost_dismiss (net : Nat → Bool) (self : Nat) (s : State)
    (off : args.recycle = false) :
    connectionLost args net self s =
      dismiss args net self (s.unregister self) := by
  rw [connectionLost, off, if_neg Bool.false_ne_true]

theorem Inv.disconnect {t : State} (inv : Inv args s)
    (taken : connStep args net s (.disconnect self) = some t) :
    Inv args t := by
  have lost : Server.step args net s (.lost self) = some t := taken
  have enrolled := inv.enrolled.step lost
  simp only [connStep, Server.step, Option.ite_none_right_eq_some,
    Option.some.injEq] at taken
  obtain ⟨⟨-, stage⟩, rfl⟩ := taken
  obtain ⟨-, -, proxies⟩ := connectionLost_registry args net self s
  have others : ∀ other, other ≠ self →
      (connectionLost args net self s).proxy other =
        s.proxy other := fun other differ => by
    rw [proxies, State.unregister, proxy_modify, Function.update_of_ne differ]
  have gone : ((connectionLost args net self s).proxy self).stage =
      .lost := by
    rw [proxies, State.unregister, proxy_modify, Function.update_self]
  have survives : ∀ other,
      Completed (connectionLost args net self s) other →
        other ≠ self := by
    rintro other completed rfl
    rw [Completed, gone] at completed
    cases completed
  have kept : (s.unregister self).proxy self =
      { s.proxy self with
        stage := .lost
        survivors := (s.clients.del (s.proxy self).id).values } :=
    Function.update_self ..
  have descriptors := connectionLost_descriptors args net self s
  refine ⟨enrolled, fun client completed => ?_, fun client fds has => ?_,
    fun off => ?_, fun off id low high named => ?_, fun fd above => ?_⟩
  · have differ := survives client completed
    rw [Completed, others client differ] at completed
    rw [others client differ]
    exact inv.equipped client completed
  · have same : ((connectionLost args net self s).proxy client).enList =
        (s.proxy client).enList := by
      by_cases own : client = self
      · rw [own, proxies, kept]
      · rw [others client own]
    rw [same] at has
    obtain ⟨full, nodup, made⟩ := inv.rows client fds has
    exact ⟨full, nodup, by rw [descriptors.1]; exact made⟩
  · have dismissed := dismiss_dismissed args net self
      (s.unregister self)
    rw [connectionLost_dismiss net self s off, dismissed.recycled]
    exact inv.unrecycled off
  · have dismissed := dismiss_dismissed args net self
      (s.unregister self)
    rw [kept] at dismissed
    rw [connectionLost_dismiss net self s off] at named
    have before : s.slotName id.toNat ≠ "" := by
      rcases dismissed.erases id.toNat with unchanged | erased
      · rw [unchanged] at named
        exact named
      · exact absurd erased named
    obtain ⟨other, completed, holds⟩ := inv.owned off id low high before
    have differ : other ≠ self := by
      rintro rfl
      -- a client that completed takes its name with it
      have equipped := inv.equipped other completed
      apply named
      rw [← holds]
      exact dismissed.own equipped.1 equipped.2.1 equipped.2.2
    refine ⟨other, ?_, ?_⟩
    · rw [Completed, others other differ]
      exact completed
    · rw [others other differ]
      exact holds
  · rw [descriptors.1] at above
    rw [descriptors.2]
    exact inv.fresh fd above

end Disconnect

/-! ### One step -/

section Step

variable {args : Args} {net : Nat → Bool} {s t : State} {event : Event}

/-- A client that completed writes the name of its own mailslot. -/
theorem Inv.write (inv : Inv args s) (net : Nat → Bool) {self : Nat}
    {nodename : String}
    (taken : Server.step args net s (.named self nodename) = some t) :
    Inv args t := by
  simp only [Server.step, Option.ite_none_right_eq_some,
    Option.some.injEq] at taken
  obtain ⟨completed, rfl⟩ := taken
  refine ⟨⟨inv.enrolled.completed, inv.enrolled.unbuilt⟩, inv.equipped,
    fun client fds has => ?_, inv.unrecycled, fun off id low high named => ?_,
    inv.fresh⟩
  · obtain ⟨full, nodup, made⟩ := inv.rows client fds has
    exact ⟨full, nodup, made⟩
  · have range := (inv.equipped self completed).2
    by_cases own : id = (s.proxy self).id
    · exact ⟨self, completed, own.symm⟩
    · have elsewhere : id.toNat ≠ (s.proxy self).id.toNat := by omega
      apply inv.owned off id low high
      intro empty
      apply named
      exact (Function.update_of_ne elsewhere _ _).trans empty

/-- A message in the mail touches nothing else, and no notifier that is still
to be made. -/
theorem Inv.mailed (inv : Inv args s) (mail : Mail)
    (fresh : ∀ fd, s.nextFd ≤ fd → mail.count fd = 0) :
    Inv args { s with mail := mail } := by
  refine ⟨⟨inv.enrolled.completed, inv.enrolled.unbuilt⟩, inv.equipped,
    fun client fds has => ?_, inv.unrecycled, inv.owned, fresh⟩
  obtain ⟨full, nodup, made⟩ := inv.rows client fds has
  exact ⟨full, nodup, made⟩

theorem Inv.setCount (inv : Inv args s) {fd value : Nat}
    (made : fd < s.nextFd) : Inv args (setCount fd value s) := by
  refine inv.mailed _ fun other above => ?_
  have differ : other ≠ fd := by
    rintro rfl
    exact absurd above (Nat.not_le_of_lt made)
  exact (Function.update_of_ne differ _ _).trans (inv.fresh other above)

theorem Inv.step (inv : Inv args s)
    (taken : HandOver.step args net s event = some t) : Inv args t := by
  cases event with
  | connect choice notifiersOk => exact inv.connect taken
  | disconnect self => exact inv.disconnect taken
  | name self nodename => exact inv.write net taken
  | leave self => exact inv.write net taken
  | fill slot length =>
      simp only [HandOver.step, Option.ite_none_right_eq_some,
        Option.some.injEq] at taken
      obtain ⟨-, rfl⟩ := taken
      exact inv.mailed _ inv.fresh
  | retrieve slot =>
      simp only [HandOver.step, Option.ite_none_right_eq_some,
        Option.some.injEq] at taken
      obtain ⟨-, rfl⟩ := taken
      exact inv.mailed _ inv.fresh
  | ring fd =>
      simp only [HandOver.step, Option.ite_none_right_eq_some,
        Option.some.injEq] at taken
      obtain ⟨made, rfl⟩ := taken
      exact inv.setCount made
  | reset fd =>
      simp only [HandOver.step, Option.ite_none_right_eq_some,
        Option.some.injEq] at taken
      obtain ⟨fired, rfl⟩ := taken
      apply inv.setCount
      by_contra above
      exact fired (inv.fresh fd (Nat.le_of_not_lt above))
  | track value =>
      cases taken
      exact inv.mailed _ inv.fresh

/-- What a connection that completes is. -/
structure Joined (args : Args) (s : State) (id : Int) (t : State) :
    Prop where
  low : 1 ≤ id
  high : id ≤ args.nClients
  idEq : (t.proxy s.built).id = id
  slotName : t.slotName = s.slotName
  nodename : (t.proxy s.built).nodename = s.slotName id.toNat
  enList : ∃ fds, (t.proxy s.built).enList = some fds ∧
    Given args s t id fds ∧
      ∀ fd, fds[args.serverId]? = some fd → t.mail =
        if args.smart then s.mail.post args.serverId fd peerAttribute
        else s.mail

theorem joined {choice : Nat} {notifiersOk : Bool} {id : Int} {built : State}
    (chosen : createNewPeerId args s.clients choice = some id)
    (proxies : built =
      { s with
        built := s.built + 1
        proxy := Function.update s.proxy s.built (newProxy args id s) })
    (completes : Completes net notifiersOk s.built built) :
    Joined args s id (connectionMade args net notifiersOk s.built built) := by
  have own : built.proxy s.built = newProxy args id s := by
    rw [proxies]
    exact Function.update_self ..
  have ownId : (built.proxy s.built).id = id := by
    rw [own]
    rfl
  have realId : id ≠ -1 := ownId ▸ completes.1
  have range : 1 ≤ id ∧ id ≤ args.nClients := by
    rcases createNewPeerId_spec chosen with ⟨refused, -⟩ | ⟨low, high, -⟩
    · exact absurd refused realId
    · exact ⟨low, high⟩
  have handedOver := connectionMade_handsOver args completes
  obtain ⟨-, -, proxy, -, idEq, registered⟩ :=
    connectionMade_registers args completes
  refine ⟨range.1, range.2, ?_, ?_, ?_, ?_⟩
  · rw [registered, Function.update_self, idEq, ownId]
  · rw [handedOver.slotName, proxies]
  · rw [handedOver.nodename, own]
    exact if_neg realId
  · obtain ⟨fds, enList, given, greeted⟩ := handedOver.enList
    rw [ownId] at given
    have mail : built.mail = s.mail := by rw [proxies]
    rw [mail] at greeted
    refine ⟨fds, enList, ?_, greeted⟩
    cases given with
    | recycled dead found enListEq =>
        rw [proxies] at found enListEq
        have old : dead ≠ s.built := by
          rintro rfl
          dsimp only at enListEq
          rw [Function.update_self] at enListEq
          cases enListEq
        dsimp only at enListEq
        rw [Function.update_of_ne old] at enListEq
        exact .recycled dead found enListEq
    | fresh absent new above =>
        have next : built.nextFd = s.nextFd := by rw [proxies]
        rw [next] at new above
        rw [proxies] at absent
        exact .fresh absent new above

/-- A notifier counts no more than the server's own ring exactly if it counted
nothing before. -/
theorem Joined.silent_iff {id : Int} (join : Joined args s id t)
    {fds : List Nat} (row : Row args t fds)
    (enList : (t.proxy s.built).enList = some fds) :
    (∀ k fd, fds[k]? = some fd → t.mail.count fd = ownRing args s k) ↔
      ∀ fd ∈ fds, s.mail.count fd = 0 := by
  obtain ⟨others, has, -, greeted⟩ := join.enList
  rw [enList] at has
  cases has
  obtain ⟨own, found, -⟩ := row.own
  have mail := greeted own found
  have index : ∀ k fd, fds[k]? = some fd → (fd = own ↔ k = args.serverId) := by
    intro k fd here
    constructor
    · rintro rfl
      obtain ⟨inside, -⟩ := List.getElem?_eq_some_iff.mp here
      exact (List.getElem?_inj inside row.nodup).mp (here.trans found.symm)
    · rintro rfl
      exact Option.some.inj (here.symm.trans found)
  have counts : ∀ k fd, fds[k]? = some fd →
      (t.mail.count fd = ownRing args s k ↔ s.mail.count fd = 0) := by
    intro k fd here
    rw [mail, ownRing]
    cases smart : args.smart with
    | false => simp
    | true =>
        unfold Mail.post
        dsimp only
        by_cases fits : (stamped peerAttribute (s.mail.tracker + 1)).length <
            Mailbox.maxMsglen
        · rw [if_pos rfl, if_pos fits]
          by_cases same : fd = own
          · have here := (index k fd here).mp same
            rw [if_pos ⟨rfl, here, fits⟩, same]
            dsimp only
            rw [Function.update_self, Mailbox.incr]
            split <;> omega
          · have elsewhere := mt (index k fd here).mpr same
            rw [if_neg fun ring => elsewhere ring.2.1]
            dsimp only
            rw [Function.update_of_ne same]
        · rw [if_pos rfl, if_neg fits, if_neg fun ring => fits ring.2.2]
  constructor
  · intro rings fd member
    obtain ⟨k, here⟩ := List.mem_iff_getElem?.mp member
    exact (counts k fd here).mp (rings k fd here)
  · intro silent k fd here
    exact (counts k fd here).mpr (silent fd (List.mem_of_getElem? here))

/-- The greeting goes to the server's slot, which is no client's. -/
theorem Joined.msglen {id : Int} (join : Joined args s id t)
    {fds : List Nat} (row : Row args t fds)
    (enList : (t.proxy s.built).enList = some fds) :
    t.mail.msglen id.toNat = s.mail.msglen id.toNat := by
  obtain ⟨others, has, -, greeted⟩ := join.enList
  rw [enList] at has
  cases has
  obtain ⟨own, found, -⟩ := row.own
  rw [greeted own found]
  split
  · have elsewhere : id.toNat ≠ args.serverId := by
      have high := join.high
      have low := join.low
      rw [Args.serverId]
      omega
    unfold Mail.post
    dsimp only
    split
    · exact Function.update_of_ne elsewhere _ _
    · rfl
  · rfl

/-- Whoever finds nothing was given a settled id, and the other way round. -/
theorem Inv.clean_iff (inv : Inv args s) (after : Inv args t) {id : Int}
    (join : Joined args s id t) :
    Clean args s t s.built ↔ Settled args s id := by
  obtain ⟨fds, enList, given, -⟩ := join.enList
  have row := after.rows s.built fds enList
  have silent := join.silent_iff row enList
  have msglen := join.msglen row enList
  constructor
  · intro clean
    have slot := clean.slot
    have mail := clean.mail
    rw [join.idEq] at slot mail
    rw [join.slotName] at slot
    rw [msglen] at mail
    refine ⟨mail, fun _ => slot, fun dead other found has => ?_⟩
    cases given with
    | recycled holder held heldFds =>
        rw [held] at found
        cases found
        rw [heldFds] at has
        cases has
        exact silent.mp (clean.doorbells fds enList)
    | fresh absent _ _ =>
        rw [absent] at found
        cases found
  · intro settled
    have name : s.slotName id.toNat = "" := by
      cases recycle : args.recycle with
      | true => exact settled.name (Or.inl recycle)
      | false =>
          by_contra named
          obtain holder := inv.owned recycle id join.low join.high named
          exact named (settled.name (Or.inr holder))
    refine ⟨?_, ?_, ?_, fun other has => ?_⟩
    · rw [join.idEq, join.slotName]
      exact name
    · rw [join.nodename]
      exact name
    · rw [join.idEq, msglen]
      exact settled.mail
    · rw [enList] at has
      cases has
      apply silent.mpr
      intro fd member
      cases given with
      | recycled dead found has =>
          exact settled.doorbells dead fds found has fd member
      | fresh absent new above =>
          apply inv.fresh
          rw [new, List.mem_range'_1] at member
          exact member.1

theorem Inv.cleanHandOver (inv : Inv args s) (orderly : Orderly args net s event)
    (taken : HandOver.step args net s event = some t) :
    CleanHandOver args s event t := by
  have after := inv.step taken
  rintro choice notifiersOk rfl completed
  obtain ⟨id, built, chosen, builds, proxies, rfl⟩ := connect_taken taken
  have completes := completes_of_completed completed
  have join := joined chosen proxies completes
  have settled := orderly built builds completes
  have own : (built.proxy s.built).id = id := by
    rw [proxies]
    dsimp only
    rw [Function.update_self]
    rfl
  rw [own] at settled
  exact (inv.clean_iff after join).mpr settled

theorem Inv.not_cleanHandOver (inv : Inv args s)
    (disorderly : ¬ Orderly args net s event)
    (taken : HandOver.step args net s event = some t) :
    ¬ CleanHandOver args s event t := by
  intro clean
  have after := inv.step taken
  apply disorderly
  cases event with
  | connect choice notifiersOk =>
      intro u buildsU completes
      obtain ⟨id, built, chosen, builds, proxies, rfl⟩ := connect_taken taken
      have same : built = u := Option.some.inj (builds.symm.trans buildsU)
      subst same
      have join := joined chosen proxies completes
      obtain ⟨-, -, proxy, completed, -, registered⟩ :=
        connectionMade_registers args completes
      have done : Completed (connectionMade args net notifiersOk
          s.built built) s.built := by
        rw [Completed, registered, Function.update_self]
        exact completed
      have own : (built.proxy s.built).id = id := by
        rw [proxies]
        dsimp only
        rw [Function.update_self]
        rfl
      rw [own]
      exact (inv.clean_iff after join).mp (clean choice notifiersOk rfl done)
  | _ => trivial

end Step

/-! ### Whole runs -/

end FameZ.Server.HandOver
