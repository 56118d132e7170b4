/-
Module: FameZ.Server.NewClient
Purpose: What connectionMade gives a new client: its notifiers, the node name
  of its slot, and the greeting of a smart server.
Trusted boundary: none
Main exports: Given, Keeps, HandsOver, Adds, connectionMade_handsOver,
  connectionMade_mail, connectionMade_adds
-/
import FameZ.Server.Broadcast
import FameZ.Server.EarlyExit

namespace FameZ.Server.HandOver

/-!
The notifiers of a new client are those of the last holder of its id, if the
server recycles and had one, or fresh.  Either way a smart server rings one of
them itself, at the very end.
-/

/-- The notifiers that a connection is given. -/
inductive Given (args : Args) (s t : State) (id : Int) (fds : List Nat) :
    Prop where
  | recycled (dead : Nat) (found : s.recycled.get? id = some dead)
      (enList : (s.proxy dead).enList = some fds) : Given args s t id fds
  | fresh (absent : s.recycled.get? id = none)
      (new : fds = List.range' s.nextFd args.nEvents)
      (above : s.nextFd + args.nEvents ≤ t.nextFd) : Given args s t id fds

section Made

variable {args : Args} {net : Nat → Bool} {notifiersOk : Bool} {self : Nat}
  {s : State}

/-- Sending and the verdict of connectionMade keep what a proxy was given. -/
structure Keeps (client : Nat) (s t : State) : Prop where
  slotName : t.slotName = s.slotName
  nextFd : t.nextFd = s.nextFd
  recycled : t.recycled = s.recycled
  nodename : (t.proxy client).nodename = (s.proxy client).nodename
  enList : (t.proxy client).enList = (s.proxy client).enList

theorem Keeps.of_registry {u : State} (same : u.registry = s.registry) :
    Keeps self s u := by
  have proxies := proxy_of_registry same
  refine ⟨?_, ?_, recycled_of_registry same, by rw [proxies],
    by rw [proxies]⟩
  · change u.registry.slotName = s.registry.slotName
    rw [same]
  · change u.registry.nextFd = s.registry.nextFd
    rw [same]

theorem Keeps.trans {t u : State} (first : Keeps self s t)
    (second : Keeps self t u) : Keeps self s u :=
  ⟨second.slotName.trans first.slotName, second.nextFd.trans first.nextFd,
    second.recycled.trans first.recycled,
    second.nodename.trans first.nodename, second.enList.trans first.enList⟩

theorem Keeps.stop (self : Nat) (s : State) : Keeps self s (s.stop self) := by
  refine ⟨rfl, rfl, rfl, ?_, ?_⟩ <;>
    rw [State.stop, proxy_modify, Function.update_self]

theorem Keeps.register (self : Nat) (s : State) :
    Keeps self s (s.register self) := by
  refine ⟨rfl, rfl, rfl, ?_, ?_⟩ <;>
    simp [State.register]

/-- The rest of connectionMade keeps the notifiers and the name. -/
theorem introduce_keeps (args : Args) (net : Nat → Bool) (self : Nat)
    (recycled : Bool) (s : State) :
    Keeps self s (introduce args net self recycled s) := by
  have info : Keeps self s (sendInitialInfo net self s).2 :=
    Keeps.of_registry (registry_sendInitialInfo net self s)
  unfold introduce
  dsimp only
  split
  · have sent : Keeps self (sendInitialInfo net self s).2 (sendAll net
        (advertiseSelf self recycled (sendInitialInfo net self s).2 ++
          advertiseOthers args self (sendInitialInfo net self s).2)
        (sendInitialInfo net self s).2) :=
      Keeps.of_registry (registry_sendAll ..)
    exact ((info.trans sent).trans (Keeps.register self _)).trans
      (Keeps.of_registry (registry_greet ..))
  · exact info.trans (Keeps.stop self _)

theorem refuse_keeps (net : Nat → Bool) (self other : Nat) (s : State) :
    Keeps other s (refuse net self s) := by
  have sent : Keeps other s (ivshmemSendOneMsg net self (-1) none s).2 :=
    Keeps.of_registry (registry_ivshmemSendOneMsg net self (-1) none s)
  have same : ((refuse net self s).proxy other).nodename =
        ((ivshmemSendOneMsg net self (-1) none s).2.proxy other).nodename ∧
      ((refuse net self s).proxy other).enList =
        ((ivshmemSendOneMsg net self (-1) none s).2.proxy other).enList := by
    rw [refuse, State.stop, proxy_modify, proxy_modify]
    by_cases own : other = self
    · subst own
      simp
    · simp [Function.update_of_ne own]
  exact ⟨sent.slotName, sent.nextFd, sent.recycled,
    same.1.trans sent.nodename, same.2.trans sent.enList⟩

/-- What a connection does to the mail: the greeting of a smart server, if it
comes that far. -/
theorem introduce_mail (args : Args) (net : Nat → Bool) (self : Nat)
    (recycled : Bool) (s : State) :
    (introduce args net self recycled s).mail =
      if net s.sends = true then (greet args self s).mail else s.mail := by
  have info := registry_sendInitialInfo net self s
  rw [introduce, sendInitialInfo_fst]
  cases success : net s.sends with
  | false =>
      simp only [Bool.false_eq_true, if_false]
      exact mail_sendInitialInfo net self s
  | true =>
      simp only [if_true]
      generalize sent : sendAll net
        (advertiseSelf self recycled (sendInitialInfo net self s).2 ++
          advertiseOthers args self (sendInitialInfo net self s).2)
        (sendInitialInfo net self s).2 = u
      have mail : u.mail = s.mail := by
        rw [← sent, mail_sendAll, mail_sendInitialInfo]
      have quiet : u.registry = s.registry := by
        rw [← sent, registry_sendAll, info]
      have enList : ((u.register self).proxy self).enList =
          (s.proxy self).enList := by
        rw [(Keeps.register self u).enList, proxy_of_registry quiet]
      have same : (u.register self).mail = s.mail := mail
      unfold greet sendPayload
      rw [enList, same]
      split
      · split
        · exact same
        · rfl
      · exact same

/-- A connection that completes is given recycled or fresh notifiers, its proxy
keeps the name it was built with, and it is greeted. -/
structure HandsOver (args : Args) (client : Nat) (s t : State) : Prop where
  slotName : t.slotName = s.slotName
  nodename : (t.proxy client).nodename = (s.proxy client).nodename
  enList : ∃ fds, (t.proxy client).enList = some fds ∧
    Given args s t (s.proxy client).id fds ∧
      ∀ fd, fds[args.serverId]? = some fd → t.mail =
        if args.smart then s.mail.post args.serverId fd peerAttribute
        else s.mail

/-- The greeting of a client that has its notifiers. -/
theorem mail_greet {fds : List Nat} {fd : Nat}
    (enList : (s.proxy self).enList = some fds)
    (own : fds[args.serverId]? = some fd) :
    (greet args self s).mail =
      if args.smart then s.mail.post args.serverId fd peerAttribute
      else s.mail := by
  unfold greet sendPayload
  rw [enList, Option.getD_some, own]
  split <;> rfl

theorem connectionMade_handsOver (args : Args)
    (completes : Completes net notifiersOk self s) :
    HandsOver args self s (connectionMade args net notifiersOk self s) := by
  obtain ⟨realId, success, notifiers⟩ := completes
  unfold connectionMade
  cases recycled : s.recycled.get? (s.proxy self).id with
  | none =>
      rw [recycled] at notifiers
      simp only [recycled, if_neg realId, if_pos notifiers]
      have keeps := introduce_keeps args net self false
        (createNotifiers args self s)
      have own : (createNotifiers args self s).proxy self =
          { s.proxy self with
            enList := some (List.range' s.nextFd args.nEvents) } :=
        Function.update_self ..
      refine ⟨keeps.slotName, ?_, _, ?_, .fresh recycled rfl ?_,
        fun fd found => ?_⟩
      · rw [keeps.nodename, own]
      · rw [keeps.enList, own]
      · rw [keeps.nextFd]
        exact Nat.le_refl _
      · have up : net (createNotifiers args self s).sends = true := success
        rw [introduce_mail, if_pos up]
        exact mail_greet (by rw [own]) found
  | some dead =>
      rw [recycled] at notifiers
      obtain ⟨fds, enList⟩ := Option.isSome_iff_exists.mp notifiers
      simp only [recycled, if_neg realId, enList]
      generalize taken : State.modify
        { s with recycled := s.recycled.del (s.proxy dead).id } self
        (fun proxy => { proxy with enList := some fds }) = u
      have keeps := introduce_keeps args net self true u
      have own : u.proxy self = { s.proxy self with enList := some fds } := by
        rw [← taken]
        exact Function.update_self ..
      refine ⟨keeps.slotName.trans (by rw [← taken]; rfl), ?_, fds, ?_,
        .recycled dead recycled enList, fun fd found => ?_⟩
      · rw [keeps.nodename, own]
      · rw [keeps.enList, own]
      · have up : net u.sends = true := by
          rw [← taken]
          exact success
        have mail : u.mail = s.mail := by rw [← taken]; rfl
        rw [introduce_mail, if_pos up, ← mail]
        exact mail_greet (by rw [own]) found

/-- A connection that does not complete greets nobody. -/
theorem connectionMade_mail (args : Args)
    (incomplete : ¬ Completes net notifiersOk self s) :
    (connectionMade args net notifiersOk self s).mail = s.mail := by
  have refused : ∀ u : State, (refuse net self u).mail = u.mail :=
    fun u => mail_ivshmemSendOneMsg net self (-1) none u
  unfold connectionMade
  cases recycled : s.recycled.get? (s.proxy self).id with
  | none =>
      by_cases sentinel : (s.proxy self).id = -1
      · simp only [recycled, if_pos sentinel]
        exact refused s
      · simp only [recycled, if_neg sentinel]
        split
        · rename_i made
          have down : ¬ net (createNotifiers args self s).sends = true :=
            fun up => incomplete ⟨sentinel, up, by rw [recycled]; exact made⟩
          rw [introduce_mail, if_neg down]
          rfl
        · exact refused s
  | some dead =>
      by_cases sentinel : (s.proxy self).id = -1
      · simp only [recycled, if_pos sentinel]
        exact refused _
      · cases enList : (s.proxy dead).enList with
        | none =>
            simp only [recycled, if_neg sentinel, enList]
            rfl
        | some fds =>
            simp only [recycled, if_neg sentinel, enList]
            have down : ¬ net s.sends = true := fun up => incomplete
              ⟨sentinel, up, by rw [recycled]; simp [enList]⟩
            rw [introduce_mail, if_neg (by exact down)]
            rfl

/-- connectionMade never writes a node name, only adds descriptors, keeps no
dead proxy, and gives a new proxy recycled or fresh notifiers if any. -/
structure Adds (args : Args) (client : Nat) (s t : State) : Prop where
  slotName : t.slotName = s.slotName
  nextFd : s.nextFd ≤ t.nextFd
  recycled : s.recycled = .empty → t.recycled = .empty
  given : ∀ fds, (t.proxy client).enList = some fds →
    Given args s t (s.proxy client).id fds

theorem Adds.of_keeps {client : Nat} {u t : State} (keeps : Keeps client u t)
    (slotName : u.slotName = s.slotName) (nextFd : s.nextFd ≤ u.nextFd)
    (recycled : s.recycled = .empty → u.recycled = .empty)
    (given : ∀ fds, (u.proxy client).enList = some fds →
      Given args s t (s.proxy client).id fds) : Adds args client s t := by
  refine ⟨keeps.slotName.trans slotName, ?_, fun empty => ?_,
    fun fds has => given fds (keeps.enList.symm.trans has)⟩
  · rw [keeps.nextFd]
    exact nextFd
  · rw [keeps.recycled]
    exact recycled empty

theorem connectionMade_adds (args : Args) (net : Nat → Bool)
    (notifiersOk : Bool) (self : Nat) (s : State)
    (bare : (s.proxy self).enList = none) :
    Adds args self s (connectionMade args net notifiersOk self s) := by
  have nothing : ∀ {t : State} fds, (s.proxy self).enList = some fds →
      Given args s t (s.proxy self).id fds := by
    intro t fds has
    rw [bare] at has
    cases has
  unfold connectionMade
  dsimp only
  split
  · rename_i dead found
    have occupied : s.recycled ≠ .empty := by
      intro empty
      rw [empty] at found
      cases found
    split
    · exact Adds.of_keeps (refuse_keeps net self self _) rfl
        (Nat.le_refl _) (fun empty => absurd empty occupied) nothing
    · split
      · exact Adds.of_keeps (Keeps.stop self _) rfl (Nat.le_refl _)
          (fun empty => absurd empty occupied) nothing
      · rename_i enList
        refine Adds.of_keeps (introduce_keeps args net self true _) rfl
          (Nat.le_refl _) (fun empty => absurd empty occupied)
          fun fds has => ?_
        rw [proxy_modify, Function.update_self] at has
        cases has
        exact .recycled dead found enList
  · rename_i absent
    split
    · exact Adds.of_keeps (refuse_keeps net self self _) rfl
        (Nat.le_refl _) id nothing
    · split
      · have keeps := introduce_keeps args net self false
          (createNotifiers args self s)
        refine Adds.of_keeps keeps rfl (Nat.le_add_right _ _) id
          fun fds has => ?_
        have own : ((createNotifiers args self s).proxy self).enList =
            some (List.range' s.nextFd args.nEvents) := by
          simp [createNotifiers, State.modify]
        rw [own] at has
        cases has
        refine .fresh absent rfl ?_
        rw [keeps.nextFd]
        exact Nat.le_refl _
      · exact Adds.of_keeps (refuse_keeps net self self _) rfl
          (Nat.le_refl _) id nothing

end Made

end FameZ.Server.HandOver
