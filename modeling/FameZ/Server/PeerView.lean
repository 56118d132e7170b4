/-
Module: FameZ.Server.PeerView
Purpose: Without recycling every live client's table is exact after every
  connect and disconnect.
Trusted boundary: none
Main exports: Within, ViewExact, peerView_exact
-/
import FameZ.Server.Tables

namespace FameZ.Server

/-!
Without recycling no list of notifiers is ever replaced: an id is deleted from
every table when its client leaves and comes back with the batch of the next
holder.  So a table has no notion of a complete list, and a vector is appended
to whatever the id already holds.
-/

/-- The connection does not exceed capacity and gets its event notifiers. -/
def Within (args : Args) (s : State) : Conn → Prop
  | .connect _ notifiersOk => s.clients.size < args.nClients ∧ notifiersOk = true
  | .disconnect _ => True

instance (args : Args) (s : State) (event : Conn) :
    Decidable (Within args s event) := by
  cases event <;> unfold Within <;> infer_instance

/-- The table of a client in which vectors are only ever appended. -/
def tableOf (s : State) (client : Nat) : Table := view (fun _ => false) s client

/-- What a client must hold: the notifiers of every live client, itself
included, those of the server unless it is silent, and nothing else. -/
structure ViewExact (args : Args) (s : State) (client : Nat) : Prop where
  live : ∀ id peer, s.clients.get? id = some peer →
    ∃ fds, (s.proxy peer).enList = some fds ∧ fds.length = args.nEvents ∧
      tableOf s client id = some fds
  server : tableOf s client args.serverId =
    if args.silent then none else some s.enList
  serverFull : args.silent = false → s.enList.length = args.nEvents
  dead : ∀ id, s.clients.get? id = none → id ≠ args.serverId →
    tableOf s client id = none

theorem patient_append (bound : Nat) : Patient (fun _ => false) bound :=
  fun _ _ => rfl

/-- Every live client's table is the server's roster. -/
structure Agreed (args : Args) (s : State) : Prop where
  linked : Linked args s
  unrecycled : ∀ id, s.recycled.get? id = none
  exact : ∀ client, client ∈ s.clients.values →
    tableOf s client = roster args s

namespace Agreed

variable {args : Args} {s t : State}

theorem init (args : Args) : Agreed args (init args) :=
  ⟨Linked.init args, fun _ => rfl, nofun⟩

/-- The roster is what an exact table holds. -/
theorem viewExact (agreed : Agreed args s) {client : Nat}
    (live : client ∈ s.clients.values) : ViewExact args s client := by
  have same := agreed.exact client live
  have serverList := agreed.linked.server
  refine ⟨?_, ?_, ?_, ?_⟩
  · intro id peer holds
    obtain ⟨fds, enListEq, full⟩ := notifiers_of_get? agreed.linked holds
    refine ⟨fds, enListEq, full, ?_⟩
    rw [same, roster, holds]
    exact enListEq
  · rw [same, roster, serverId_free agreed.linked]
    cases args.silent <;> simp
  · intro loud
    rwa [loud, if_neg Bool.false_ne_true] at serverList
  · intro id absent notServer
    rw [same, roster, absent]
    simp [notServer]

theorem joins (agreed : Agreed args s) {choice : Nat} {id : Int}
    {fds : List Nat} (linked : Linked args t)
    (joins : Joins args choice s t id fds false) : Agreed args t := by
  have absent : roster args s id = none := by
    have notServer : id ≠ args.serverId := by
      have high := joins.high
      simp only [Args.serverId]
      omega
    simp [roster, joins.free, notServer]
  refine ⟨linked, fun other => ?_, fun client live => ?_⟩
  · rw [joins.recycled, OrderedDict.get?_del, agreed.unrecycled, ite_self]
  · by_cases new : client = s.built
    · rw [new]
      exact view_newcomer agreed.linked (patient_append _) joins
    · have done := linked.mem_values.mp live
      rw [Completed, joins.others client new] at done
      have before := agreed.linked.mem_values.mpr done
      have held := agreed.exact client before
      have told := view_told agreed.linked (patient_append _) joins before
        (by rw [← tableOf, held]; exact absent)
      rw [tableOf, told, ← tableOf, held, roster_joins agreed.linked joins]

theorem leaves (agreed : Agreed args s) (norecycle : args.recycle = false)
    {leaver : Nat} (linked : Linked args t)
    (leaves : Leaves args leaver s t) : Agreed args t := by
  refine ⟨linked, fun id => ?_, fun client live => ?_⟩
  · rw [leaves.recycled, norecycle, if_neg Bool.false_ne_true]
    exact agreed.unrecycled id
  · have done := linked.mem_values.mp live
    have stays : client ≠ leaver := by
      rintro rfl
      rw [Completed, leaves.gone] at done
      cases done
    rw [Completed, leaves.others client stays] at done
    rw [tableOf, view_left norecycle agreed.linked leaves done live, ← tableOf,
      agreed.exact client (agreed.linked.mem_values.mpr done),
      roster_leaves agreed.linked leaves]

/-- A connection within capacity and a disconnect keep the agreement. -/
theorem step (agreed : Agreed args s) {net : Nat → Bool}
    (up : ∀ call, net call = true) (norecycle : args.recycle = false)
    {event : Conn} (within : Within args s event)
    (taken : connStep args net s event = some t) : Agreed args t := by
  have linked := agreed.linked.step up taken
  cases event with
  | connect choice notifiersOk =>
      rcases agreed.linked.connect_cases up taken with
        refused | ⟨id, fds, known, -, joins⟩
      · obtain ⟨room, notifiers⟩ := within
        rcases refused.reason with full | ⟨failed, -⟩
        · omega
        · rw [failed] at notifiers
          cases notifiers
      · cases known with
        | true =>
            obtain ⟨dead, recycled, -⟩ := joins.reused rfl
            rw [agreed.unrecycled] at recycled
            cases recycled
        | false => exact agreed.joins linked joins
  | disconnect leaver =>
      exact agreed.leaves norecycle linked
        (agreed.linked.disconnect_leaves up taken)

end Agreed

/-- Without recycling, over every run of connects within capacity and
disconnects in any order in which the sends succeed, every live client's folded
table is exact in every state reached. -/
theorem peerView_exact (args : Args) (net : Nat → Bool)
    (up : ∀ call, net call = true) (norecycle : args.recycle = false)
    (trace : List Conn)
    (within : Transition.Meets (connStep args net) (Within args) (init args)
      trace) :
    Transition.Always (connStep args net)
      (fun s => ∀ client ∈ s.clients.values, ViewExact args s client)
      (init args) trace := by
  have kept : ∀ s event t, Agreed args s → Within args s event →
      connStep args net s event = some t → Agreed args t :=
    fun _ _ _ agreed inside taken => agreed.step up norecycle inside taken
  refine ⟨fun client live => (Agreed.init args).viewExact live, ?_⟩
  exact Transition.along_of_invariant
    (fun s event t agreed inside taken =>
      have after := kept s event t agreed inside taken
      ⟨after, fun client live => after.viewExact live⟩)
    (Agreed.init args) within

/-- A run that reuses id 1. -/
theorem peerView_exact_reuse :
    Transition.Always
      (connStep { nClients := 2, recycle := false, silent := false,
                  smart := false } fun _ => true)
      (fun s => ∀ client ∈ s.clients.values,
        ViewExact { nClients := 2, recycle := false, silent := false,
                    smart := false } s client)
      (init { nClients := 2, recycle := false, silent := false,
              smart := false })
      [.connect 0 true, .connect 0 true, .disconnect 0, .connect 0 true] :=
  peerView_exact _ _ (fun _ => rfl) rfl _ (by decide)

end FameZ.Server
