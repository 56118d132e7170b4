/-
Module: FameZ.Server.Tables
Purpose: The tables of event notifiers that clients fold from their streams,
  and how a connect and a disconnect change them.
Trusted boundary: none
Main exports: Table, foldMsg, view, roster, view_newcomer, view_told, view_left
-/
import FameZ.Server.Broadcast

namespace FameZ.Server

/-!
A client learns the notifiers of its peers only from the messages on its
socket.  `view` is the table it ends up with; `roster` is what the server holds.
-/

/-- The event notifiers a client holds for each id. -/
abbrev Table := Int → Option (List Nat)

/-- Read one message: an id with a descriptor adds a vector to that id, an id
alone deletes it.  `restart` says at which length a list counts as complete,
so that the next descriptor begins a new one. -/
def foldMsg (restart : Nat → Bool) (table : Table) (msg : Msg) : Table :=
  match msg.fd with
  | none => Function.update table msg.data none
  | some fd =>
      let old := (table msg.data).getD []
      Function.update table msg.data
        (some (if restart old.length then [fd] else old ++ [fd]))

/-- The table a client has folded from what followed its three messages of
initial information. -/
def view (restart : Nat → Bool) (s : State) (client : Nat) : Table :=
  ((s.stream client).drop 3).foldl (foldMsg restart) fun _ => none

/-- No list of at most `bound` vectors is complete before its last one. -/
def Patient (restart : Nat → Bool) (bound : Nat) : Prop :=
  ∀ length, length < bound → restart length = false

theorem foldl_batch_some {restart : Nat → Bool} (id : Int) (fds : List Nat)
    (old : List Nat) (table : Table) (held : table id = some old)
    (patient : Patient restart (old.length + fds.length)) :
    (batch id fds).foldl (foldMsg restart) table =
      Function.update table id (some (old ++ fds)) := by
  induction fds generalizing old table with
  | nil => simp [batch, ← held]
  | cons fd rest inductionHypothesis =>
      have early : restart old.length = false :=
        patient old.length (by simp)
      have one : foldMsg restart table { data := id, fd := some fd } =
          Function.update table id (some (old ++ [fd])) := by
        simp [foldMsg, held, early]
      have later : Patient restart ((old ++ [fd]).length + rest.length) := by
        intro length below
        exact patient length (by simp at below ⊢; omega)
      rw [batch, List.map_cons, List.foldl_cons, ← batch, one,
        inductionHypothesis (old ++ [fd]) _ (Function.update_self ..) later]
      simp

/-- A batch for an id the table does not hold sets it. -/
theorem foldl_batch_none {restart : Nat → Bool} (id : Int) {fds : List Nat}
    (table : Table) (absent : table id = none) (nonempty : fds ≠ [])
    (patient : Patient restart fds.length) :
    (batch id fds).foldl (foldMsg restart) table =
      Function.update table id (some fds) := by
  cases fds with
  | nil => exact False.elim (nonempty rfl)
  | cons fd rest =>
      have early : restart 0 = false := patient 0 (by simp)
      have one : foldMsg restart table { data := id, fd := some fd } =
          Function.update table id (some [fd]) := by
        simp [foldMsg, absent, early]
      have later : Patient restart ([fd].length + rest.length) := by
        intro length below
        exact patient length (by simp at below ⊢; omega)
      rw [batch, List.map_cons, List.foldl_cons, ← batch, one,
        foldl_batch_some id rest [fd] _ (Function.update_self ..) later]
      simp

/-- The batches of several ids, none of them held before, in one stream. -/
theorem foldl_batches {restart : Nat → Bool} {bound : Nat}
    (patient : Patient restart bound) (entries : List (Int × Nat))
    (nodup : (entries.map Prod.fst).Nodup) (fdsOf : Nat → List Nat)
    (full : ∀ entry ∈ entries, fdsOf entry.2 ≠ [] ∧
      (fdsOf entry.2).length ≤ bound)
    (table : Table) (absent : ∀ entry ∈ entries, table entry.1 = none)
    (id : Int) :
    (entries.flatMap fun entry => batch entry.1 (fdsOf entry.2)).foldl
        (foldMsg restart) table id =
      match entries.find? fun entry => decide (entry.1 = id) with
      | some entry => some (fdsOf entry.2)
      | none => table id := by
  induction entries generalizing table with
  | nil => rfl
  | cons entry rest inductionHypothesis =>
      rw [List.map_cons, List.nodup_cons] at nodup
      obtain ⟨nonempty, short⟩ := full entry (List.mem_cons_self ..)
      have here := foldl_batch_none entry.1 table
        (absent entry (List.mem_cons_self ..)) nonempty
        (fun length below => patient length (by omega))
      rw [List.flatMap_cons, List.foldl_append, here, inductionHypothesis
        nodup.2 (fun other member => full other (List.mem_cons_of_mem _ member))]
      · by_cases same : entry.1 = id
        · have missing : rest.find? (fun other => decide (other.1 = id)) =
              none := by
            rw [List.find?_eq_none]
            intro other member equal
            simp only [decide_eq_true_eq] at equal
            exact nodup.1 (List.mem_map.mpr
              ⟨other, member, equal.trans same.symm⟩)
          rw [List.find?_cons_of_pos (by simp [same]), missing]
          simp [← same]
        · rw [List.find?_cons_of_neg (by simp [same])]
          cases rest.find? fun other => decide (other.1 = id) with
          | some other => rfl
          | none => simp [Function.update_of_ne (Ne.symm same)]
      · intro other member
        have differ : other.1 ≠ entry.1 := fun equal =>
          nodup.1 (List.mem_map.mpr ⟨other, member, equal⟩)
        rw [Function.update_of_ne differ]
        exact absent other (List.mem_cons_of_mem _ member)

/-- The notifiers the server holds: those of each registered client under its
id, and its own under `serverId` unless it is silent. -/
def roster (args : Args) (s : State) : Table := fun id =>
  match s.clients.get? id with
  | some client => (s.proxy client).enList
  | none =>
      if id = args.serverId ∧ args.silent = false then some s.enList else none

section Steps

variable {args : Args} {s t : State} {restart : Nat → Bool}

/-- What is appended to a stream is folded into the table. -/
theorem view_append {client : Nat} {msgs : List Msg}
    (greeted : 3 ≤ (s.stream client).length)
    (appended : t.stream client = s.stream client ++ msgs) :
    view restart t client =
      msgs.foldl (foldMsg restart) (view restart s client) := by
  rw [view, appended, List.drop_append_of_le_length greeted,
    List.foldl_append, ← view]

/-- The invariant gives the batches of the registered clients by entry. -/
theorem flatMap_values (linked : Linked args s) :
    (s.clients.values.flatMap fun other =>
        batch (s.proxy other).id ((s.proxy other).enList.getD [])) =
      s.clients.entries.flatMap fun entry =>
        batch entry.1 ((s.proxy entry.2).enList.getD []) := by
  rw [OrderedDict.values, List.flatMap_map]
  apply List.flatMap_congr
  intro entry member
  have holds := OrderedDict.get?_eq_some_iff.mpr member
  rw [(linked.registered.mp holds).2]

theorem notifiers_of_get? (linked : Linked args s) {id : Int} {client : Nat}
    (holds : s.clients.get? id = some client) :
    ∃ fds, (s.proxy client).enList = some fds ∧
      fds.length = args.nEvents :=
  linked.notifiers client (linked.registered.mp holds).1

theorem ne_nil_of_full {fds : List Nat} (full : fds.length = args.nEvents) :
    fds ≠ [] := by
  rintro rfl
  simp [Args.nEvents] at full

/-- No client holds the server's id. -/
theorem serverId_free (linked : Linked args s) :
    s.clients.get? args.serverId = none := by
  rcases holder : s.clients.get? args.serverId with _ | client
  · rfl
  · have range := (linked.inRange holder).2
    simp only [Args.serverId] at range
    omega

/-- A joining client is registered under a fresh id, which changes the roster
at that id only. -/
theorem roster_joins {choice : Nat} {id : Int} {fds : List Nat}
    {known : Bool} (linked : Linked args s)
    (joins : Joins args choice s t id fds known) :
    roster args t = Function.update (roster args s) id (some fds) := by
  funext other
  rw [roster, joins.clients, OrderedDict.get?_set]
  by_cases same : other = id
  · rw [if_pos same, same, Function.update_self]
    exact joins.enListEq
  · rw [if_neg same, Function.update_of_ne same, roster, joins.server]
    cases holder : s.clients.get? other with
    | none => rfl
    | some client =>
        have below := linked.below
          (OrderedDict.mem_values_iff.mpr ⟨other, holder⟩)
        exact congrArg Proxy.enList (joins.others client (by omega))

/-- The newcomer is told about everyone, the server and itself. -/
theorem view_newcomer {choice : Nat} {id : Int} {fds : List Nat}
    {known : Bool} (linked : Linked args s)
    (patient : Patient restart args.nEvents)
    (joins : Joins args choice s t id fds known) :
    view restart t s.built = roster args t := by
  have dropped : view restart t s.built =
      ((s.clients.entries.flatMap fun entry =>
          batch entry.1 ((s.proxy entry.2).enList.getD [])) ++
        batch args.serverId s.enList ++ batch id fds).foldl
        (foldMsg restart) fun _ => none := by
    rw [view, joins.mine, flatMap_values linked,
      List.drop_append_of_le_length (by simp)]
    rfl
  have others := foldl_batches patient s.clients.entries s.clients.nodup
    (fun client => (s.proxy client).enList.getD []) (by
      intro entry member
      obtain ⟨own, enListEq, full⟩ := notifiers_of_get? linked
        (OrderedDict.get?_eq_some_iff.mpr member)
      rw [enListEq, Option.getD_some]
      exact ⟨ne_nil_of_full full, by omega⟩)
    (fun _ => none) (fun _ _ => rfl)
  have serverFree := serverId_free linked
  -- the clients and the server make up the roster before the join
  have before : ((s.clients.entries.flatMap fun entry =>
          batch entry.1 ((s.proxy entry.2).enList.getD [])) ++
        batch args.serverId s.enList).foldl (foldMsg restart)
        (fun _ => none) = roster args s := by
    rw [List.foldl_append]
    have clients : (s.clients.entries.flatMap fun entry =>
          batch entry.1 ((s.proxy entry.2).enList.getD [])).foldl
        (foldMsg restart) (fun _ => none) =
        fun other => (s.clients.get? other).bind fun client =>
          (s.proxy client).enList := by
      funext other
      rw [others other, OrderedDict.get?]
      cases found : s.clients.entries.find? fun entry =>
          decide (entry.1 = other) with
      | none => rfl
      | some entry =>
          have holds := OrderedDict.get?_eq_some_iff.mpr
            (List.mem_of_find?_eq_some found)
          obtain ⟨own, enListEq, -⟩ := notifiers_of_get? linked holds
          simp [enListEq]
    rw [clients]
    have server := linked.server
    cases silent : args.silent with
    | true =>
        rw [silent, if_pos rfl, List.length_eq_zero_iff] at server
        funext other
        rw [server, roster, silent]
        simp only [batch, List.map_nil, List.foldl_nil]
        cases s.clients.get? other with
        | none => simp
        | some client => rfl
    | false =>
        rw [silent, if_neg Bool.false_ne_true] at server
        rw [foldl_batch_none _ _ (by simp [serverFree])
          (ne_nil_of_full server) (by rw [server]; exact patient)]
        funext other
        rw [roster, silent]
        by_cases isServer : other = args.serverId
        · subst isServer
          rw [Function.update_self, serverFree]
          simp
        · rw [Function.update_of_ne isServer]
          cases s.clients.get? other with
          | none => simp [isServer]
          | some client => rfl
  have absent : roster args s id = none := by
    have notServer : id ≠ args.serverId := by
      have high := joins.high
      simp only [Args.serverId]
      omega
    simp [roster, joins.free, notServer]
  rw [dropped, List.foldl_append, before, roster_joins linked joins]
  exact foldl_batch_none id _ absent (ne_nil_of_full joins.full)
    (by rw [joins.full]; exact patient)

/-- A client that is told about the newcomer adds it to its table. -/
theorem view_told {choice : Nat} {id : Int} {fds : List Nat}
    (linked : Linked args s) (patient : Patient restart args.nEvents)
    (joins : Joins args choice s t id fds false) {client : Nat}
    (live : client ∈ s.clients.values)
    (absent : view restart s client id = none) :
    view restart t client =
      Function.update (view restart s client) id (some fds) := by
  have below := linked.below live
  have appended := joins.told client (by omega)
  rw [if_pos ⟨rfl, live⟩] at appended
  rw [view_append (linked.greeted client (linked.mem_values.mp live)) appended]
  exact foldl_batch_none id _ absent (ne_nil_of_full joins.full)
    (by rw [joins.full]; exact patient)

/-- A client that gets no message keeps its table. -/
theorem view_untold {client : Nat} (quiet : t.stream client = s.stream client) :
    view restart t client = view restart s client := by
  rw [view, quiet, ← view]

/-- A client that is told about the leaver drops it from its table. -/
theorem view_left (norecycle : args.recycle = false)
    {leaver : Nat} (linked : Linked args s) (leaves : Leaves args leaver s t)
    {client : Nat} (before : Completed s client)
    (live : client ∈ t.clients.values) :
    view restart t client =
      Function.update (view restart s client) (s.proxy leaver).id none := by
  have appended := leaves.told client
  rw [if_pos ⟨norecycle, live⟩] at appended
  rw [view_append (linked.greeted client before) appended]
  rfl

/-- The roster loses the leaver's id. -/
theorem roster_leaves {leaver : Nat} (linked : Linked args s)
    (leaves : Leaves args leaver s t) :
    roster args t =
      Function.update (roster args s) (s.proxy leaver).id none := by
  have notServer : (s.proxy leaver).id ≠ args.serverId := by
    simp only [Args.serverId]
    rcases leaves.before with completed | stopped
    · have range := linked.ids.identities.inRange leaver completed
      omega
    · rw [linked.nameless leaver stopped]
      omega
  funext other
  rw [roster, leaves.clients, OrderedDict.get?_del]
  by_cases same : other = (s.proxy leaver).id
  · rw [if_pos same, same, Function.update_self]
    simp [notServer]
  · rw [if_neg same, Function.update_of_ne same, roster, leaves.server]
    cases holder : s.clients.get? other with
    | none => rfl
    | some client =>
        have differ : client ≠ leaver := fun equal =>
          same ((linked.registered.mp holder).2.symm.trans (by rw [equal]))
        exact congrArg Proxy.enList (leaves.others client differ)

end Steps

end FameZ.Server
