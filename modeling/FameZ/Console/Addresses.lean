/-
Module: FameZ.Console.Addresses
Purpose: Whom a typed line reaches, in every state that a client gets into.
Trusted boundary: none
Main exports: ordered, Addresses, filter_addressed, line_rings
-/
import FameZ.Console.Reading

namespace FameZ.Console

open PyText
open Client (Message Table)

/-! ### Lists in ascending order -/

/-- Ids in ascending order, each once. -/
abbrev Ascending (ids : List Int) : Prop := ids.Pairwise (· < ·)

theorem ascending_insertionSort {ids : List Int} (nodup : ids.Nodup) :
    Ascending (ids.insertionSort (· ≤ ·)) :=
  ((List.pairwise_insertionSort (· ≤ ·) ids).and
    ((List.perm_insertionSort (· ≤ ·) ids).nodup_iff.mpr nodup)).imp
      fun both => lt_of_le_of_ne both.1 both.2

theorem insertionSort_of_ascending {ids : List Int} (sorted : Ascending ids) :
    ids.insertionSort (· ≤ ·) = ids :=
  (sorted.imp le_of_lt).insertionSort_eq

/-- The first id of a name. -/
theorem find?_name {names : Int → Option Text} {ids : List Int}
    (sorted : Ascending ids) (named : ∀ id ∈ ids, names id ≠ none)
    (name : Text) (id : Int) :
    ((ids.map fun id => (id, (names id).getD [])).find? fun entry =>
        decide (entry.2 = name)).map Prod.fst = some id ↔
      id ∈ ids ∧ names id = some name ∧
        ∀ other ∈ ids, other < id → names other ≠ some name := by
  induction ids with
  | nil => simp
  | cons first rest inductionHypothesis =>
      rw [Ascending, List.pairwise_cons] at sorted
      rw [List.forall_mem_cons] at named
      obtain ⟨text, found⟩ := Option.ne_none_iff_exists'.mp named.1
      rw [List.map_cons, List.find?_cons]
      dsimp only
      rw [found, Option.getD_some]
      by_cases here : text = name
      · rw [decide_eq_true here]
        dsimp only
        rw [Option.map_some, Option.some.injEq]
        constructor
        · rintro rfl
          refine ⟨List.mem_cons_self .., by rw [found, here], ?_⟩
          intro other member before
          rcases List.mem_cons.mp member with same | later
          · omega
          · have after := sorted.1 other later
            omega
        · rintro ⟨member, -, least⟩
          rcases List.mem_cons.mp member with same | later
          · exact same.symm
          · exact absurd (by rw [found, here])
              (least first (List.mem_cons_self ..) (sorted.1 id later))
      · rw [decide_eq_false here]
        dsimp only
        rw [inductionHypothesis sorted.2 named.2]
        have notFirst : names first ≠ some name := by
          rw [found]
          exact fun same => here (Option.some.inj same)
        constructor
        · rintro ⟨member, same, least⟩
          refine ⟨List.mem_cons_of_mem _ member, same, ?_⟩
          intro other among before
          rcases List.mem_cons.mp among with rfl | later
          · exact notFirst
          · exact least other later before
        · rintro ⟨member, same, least⟩
          rcases List.mem_cons.mp member with rfl | later
          · exact absurd same notFirst
          · exact ⟨later, same, fun other among =>
              least other (List.mem_cons_of_mem _ among)⟩

/-! ### Targets -/

/-- The target of the server. -/
def NamesServer (dest : Text) : Prop :=
  lastOf 6 (dest.map lower) = "server".toList ∨
    lastOf 6 (dest.map lower) = "switch".toList

instance (dest : Text) : Decidable (NamesServer dest) :=
  inferInstanceAs (Decidable (_ ∨ _))

/-- The peers that the stream has announced and a client rings: before it has
joined there are none. -/
def Reading.live (r : Reading) : Table :=
  if r.joined = true then r.peers else .empty

/-- A name means the first peer with it, among those that are announced. -/
def FirstNamed (names : Int → Option Text) (ids : List Int) (name : Text)
    (id : Int) : Prop :=
  names id = some name ∧
    ∀ other ∈ ids, other < id → names other ≠ some name

instance (names : Int → Option Text) (ids : List Int) (name : Text)
    (id : Int) : Decidable (FirstNamed names ids name id) :=
  inferInstanceAs (Decidable (_ ∧ _))

/-- A target that is no number means a peer. -/
def Means (nClients : Nat) (own : Int) (names : Int → Option Text)
    (ids : List Int) (dest : Text) (id : Int) : Prop :=
  if NamesServer dest then id = nClients + 1
  else if dest.map lower = "all".toList then True
  else if dest.map lower = "others".toList then id ≠ own
  else FirstNamed names ids dest id

instance (nClients : Nat) (own : Int) (names : Int → Option Text)
    (ids : List Int) (dest : Text) (id : Int) :
    Decidable (Means nClients own names ids dest id) :=
  inferInstanceAs (Decidable
    (if NamesServer dest then id = nClients + 1
    else if dest.map lower = "all".toList then True
    else if dest.map lower = "others".toList then id ≠ own
    else FirstNamed names ids dest id))

/-- A target addresses a peer. -/
def Addresses (nClients : Nat) (own : Int) (names : Int → Option Text)
    (ids : List Int) (dest : Text) (id : Int) : Prop :=
  int? dest = some id ∨
    int? dest = none ∧ Means nClients own names ids dest id

instance (nClients : Nat) (own : Int) (names : Int → Option Text)
    (ids : List Int) (dest : Text) (id : Int) :
    Decidable (Addresses nClients own names ids dest id) :=
  inferInstanceAs (Decidable (_ ∨ _ ∧ _))

section

variable {nClients : Nat} {own : Int} {names : Int → Option Text}
  {r : Reading} {c d : Client.State} {dest : Text} {ids : List Int}
  {read : OrderedDict Int Text}

/-- What `parse_target` finds is in ascending order, and means what the target
means among the peers that are announced. -/
theorem targets_addresses (range : ∀ id ∈ ids, 1 ≤ id ∧ id ≤ nClients + 1)
    (nodup : ids.Nodup) (named : ∀ id ∈ ids, names id ≠ none)
    (listed : read.entries = listing names ids) {found : List Int}
    (parsed : targets dest (nClients + 1) (some own) read = .ok found) :
    Ascending found ∧
      ∀ id ∈ ids, id ∈ found ↔ Addresses nClients own names ids dest id := by
  have keys : read.keys = ids.insertionSort (· ≤ ·) := by
    rw [OrderedDict.keys, listed, listing, List.map_map]
    exact List.map_id _
  have sorted := ascending_insertionSort nodup
  have same (id : Int) : id ∈ ids.insertionSort (· ≤ ·) ↔ id ∈ ids :=
    List.mem_insertionSort _
  unfold Addresses
  unfold targets at parsed
  cases number : int? dest with
  | some n =>
      rw [number] at parsed
      dsimp only at parsed
      cases parsed
      constructor
      · split <;> simp [Ascending]
      · intro id member
        have within := range id member
        split
        · simp [eq_comm]
        · rename_i outside
          have other : n ≠ id := by
            rintro rfl
            exact outside within
          simp [other]
  | none =>
      rw [number] at parsed
      dsimp only at parsed
      simp only [reduceCtorEq, false_or, true_and]
      by_cases server : NamesServer dest
      · rw [if_pos (show _ ∨ _ from server)] at parsed
        cases parsed
        refine ⟨by simp [Ascending], fun id member => ?_⟩
        rw [Means, if_pos server, List.mem_singleton]
      rw [if_neg (show ¬ (_ ∨ _) from server)] at parsed
      by_cases all : dest.map lower = "all".toList
      · rw [if_pos all, keys, insertionSort_of_ascending sorted] at parsed
        cases parsed
        refine ⟨sorted, fun id member => ?_⟩
        rw [Means, if_neg server, if_pos all, same]
        exact iff_of_true member trivial
      rw [if_neg all] at parsed
      by_cases others : dest.map lower = "others".toList
      · rw [if_pos others, keys] at parsed
        split at parsed
        · cases parsed
          have left : Ascending ((ids.insertionSort (· ≤ ·)).erase own) :=
            sorted.sublist List.erase_sublist
          rw [insertionSort_of_ascending left]
          have once : (ids.insertionSort (· ≤ ·)).Nodup := sorted.imp ne_of_lt
          refine ⟨left, fun id member => ?_⟩
          rw [Means, if_neg server, if_neg all, if_pos others,
            once.mem_erase_iff, same]
          exact and_iff_left member
        · cases parsed
      · rw [if_neg others, listed] at parsed
        cases parsed
        constructor
        · cases ((listing names ids).find? fun entry =>
            decide (entry.2 = dest)).map Prod.fst <;> simp [Ascending]
        · intro id member
          rw [Option.mem_toList, listing,
            find?_name sorted fun id member => named id ((same id).mp member),
            Means, if_neg server, if_neg all, if_neg others, FirstNamed, same]
          simp only [same, and_iff_right member]

/-- Without a target there is an exception, which a client that knows itself
never meets. -/
theorem targets_error {raised : Raised} (listed : read.entries =
      listing names ids)
    (parsed : targets dest (nClients + 1) (some own) read = .error raised) :
    dest.map lower = "others".toList ∧ own ∉ ids := by
  have keys : read.keys = ids.insertionSort (· ≤ ·) := by
    rw [OrderedDict.keys, listed, listing, List.map_map]
    exact List.map_id _
  unfold targets at parsed
  cases number : int? dest with
  | some n =>
      rw [number] at parsed
      cases parsed
  | none =>
      rw [number] at parsed
      dsimp only at parsed
      split at parsed
      · cases parsed
      · split at parsed
        · cases parsed
        · split at parsed
          · rename_i others
            split at parsed
            · cases parsed
            · rename_i absent
              refine ⟨others, fun member => absent ?_⟩
              rw [keys]
              exact (List.mem_insertionSort _).mpr member
          · cases parsed

/-! ### Rings -/

/-- The effects of a message to a peer that is there. -/
def ring (own : Int) (text : Text) (peers : Table) (id : Int) :
    List Effect :=
  (Posting.mk own text
    (((peers.get? id).getD []).getD own.toNat 0)).effects

/-- A delivery is a ring of the peers that are there. -/
theorem flatMap_delivery (peers : Table) (text : Text) (found : List Int) :
    (found.flatMap fun id => delivery peers text (id, some own)) =
      (found.filter fun id => decide (id ∈ peers.keys)).flatMap
        (ring own text peers) := by
  induction found with
  | nil => rfl
  | cons id rest inductionHypothesis =>
      rw [List.flatMap_cons, inductionHypothesis, List.filter_cons]
      cases there : peers.get? id with
      | none =>
          rw [if_neg (by
            simpa using OrderedDict.get?_eq_none_iff.mp there)]
          rw [delivery]
          dsimp only
          rw [there]
          rfl
      | some fds =>
          have member : id ∈ peers.keys := by
            by_contra absent
            rw [OrderedDict.get?_eq_none_iff.mpr absent] at there
            cases there
          rw [if_pos (decide_eq_true member), List.flatMap_cons, delivery,
            ring]
          dsimp only
          rw [there]
          rfl

/-- The peers that are there and addressed, in ascending order. -/
def addressed (nClients : Nat) (own : Int) (names : Int → Option Text)
    (r : Reading) (dest : Text) : List Int :=
  (r.live.keys.insertionSort (· ≤ ·)).filter fun id =>
    decide (Addresses nClients own names r.announced.keys dest id)

theorem Told.announced_range (told : Told nClients own r c) :
    ∀ id ∈ r.announced.keys, 1 ≤ id ∧ id ≤ nClients + 1 := by
  intro id member
  obtain ⟨fds, found⟩ : ∃ fds, r.announced.get? id = some fds := by
    apply Option.ne_none_iff_exists'.mp
    intro absent
    exact OrderedDict.get?_eq_none_iff.mp absent member
  unfold Reading.announced at found
  cases way : r.arriving with
  | none =>
      rw [way] at found
      exact (told.peers id fds found).1
  | some batch =>
      obtain ⟨current, held⟩ := batch
      rw [way] at found
      dsimp only at found
      rw [OrderedDict.get?_set] at found
      split at found
      · rename_i same
        rw [same]
        exact (told.arriving current held way).range
      · exact (told.peers id fds found).1

theorem Reading.announced_of_live {id : Int} (member : id ∈ r.live.keys) :
    id ∈ r.announced.keys := by
  unfold Reading.live at member
  split at member
  · unfold Reading.announced
    cases r.arriving with
    | none => exact member
    | some batch =>
        by_contra absent
        have missing := OrderedDict.get?_eq_none_iff.mpr absent
        dsimp only at missing
        rw [OrderedDict.get?_set] at missing
        split at missing
        · cases missing
        · exact OrderedDict.get?_eq_none_iff.mp missing member
  · cases member

/-- What `parse_target` finds of the peers that are there. -/
theorem filter_addressed (told : Told nClients own r c)
    (named : ∀ id ∈ r.announced.keys, names id ≠ none)
    (listed : read.entries = listing names r.announced.keys)
    {found : List Int}
    (parsed : targets dest (nClients + 1) (some own) read = .ok found) :
    (found.filter fun id => decide (id ∈ r.live.keys)) =
      addressed nClients own names r dest := by
  obtain ⟨sorted, among⟩ := targets_addresses told.announced_range
    r.announced.nodup named listed parsed
  have live := ascending_insertionSort r.live.nodup
  apply (sorted.filter _).eq_of_mem_iff (live.filter _)
  intro id
  rw [List.mem_filter, List.mem_filter, decide_eq_true_eq,
    decide_eq_true_eq, List.mem_insertionSort, and_comm]
  exact and_congr_right fun there => among id (Reading.announced_of_live there)

/-! ### A line -/

variable {p q : Process} {msg : Text}

/-- Without notifiers there is no mail. -/
theorem Obeys.no_mail {spoofs : Prop} (obeys : Obeys nClients spoofs p q)
    (empty : p.client.id2enList = .empty) : q.mail = p.mail := by
  obtain ⟨client, routes, ⟨postings, mail, allows⟩, sources⟩ := obeys
  cases postings with
  | nil => simpa using mail
  | cons posting rest =>
      obtain ⟨route, -, allowed⟩ := allows posting (List.mem_cons_self ..)
      obtain ⟨fds, found, -⟩ := allowed.notifier
      rw [empty] at found
      cases found

theorem addressed_of_live_empty (empty : r.live = .empty) :
    addressed nClients own names r dest = [] := by
  rw [addressed, empty]
  rfl

theorem Told.live (told : Told nClients own r c) :
    c.id2enList = r.live := told.id2enList

theorem Told.sound (told : Told nClients own r c) (found : List Int) :
    Sound nClients c (routes [some own] found) := by
  refine ⟨fun id fds there => ?_, fun route member _ => ?_⟩
  · rw [told.live, Reading.live] at there
    split at there
    · exact (told.peers id fds there).2
    · cases there
  · have source := source_of_mem_routes member
    have range := told.range
    exact ⟨own, List.mem_singleton.mp source, range.1, by omega⟩

theorem mail_placeAndGo (knows : Knows nClients own r p.client)
    (named : ∀ id ∈ r.announced.keys, names id ≠ none) (dest msg : Text) :
    (placeAndGo nClients names dest msg none true p).2.mail =
      p.mail ++
        if Link.FitsSlot (Link.stamp msg 1) then
          (addressed nClients own names r dest).flatMap
            (ring own (Link.stamp msg 1) r.live)
        else [] := by
  have obeys := @placeAndGo_honest nClients names False p dest msg true
  cases knows with
  | fresh id firstpass id2fdList id2enList =>
      rw [obeys.no_mail id2enList, addressed_of_live_empty rfl]
      simp
  | told told =>
      have keys : p.client.id2fdList.keys = r.announced.keys := by
        rw [told.id2fdList]
      obtain ⟨read, reads, listed⟩ := @getNodenames_of_named names p.client
        (by rwa [keys])
      rw [keys] at listed
      have parsed : parseTarget names dest p.client =
          (targets dest (nClients + 1) (some own) read,
            { p.client with id2nodename := some read }) := by
        rw [parseTarget, reads]
        dsimp only
        rw [told.serverId, told.id]
        rfl
      cases found? : targets dest (nClients + 1) (some own) read with
      | error raised =>
          obtain ⟨-, absent⟩ := targets_error listed found?
          have outside : r.joined = false := by
            by_contra joined
            apply absent
            apply Reading.announced_of_live
            rw [Reading.live, if_pos (Bool.eq_true_of_not_eq_false joined)]
            by_contra missing
            exact told.own.mp (Bool.eq_true_of_not_eq_false joined)
              (OrderedDict.get?_eq_none_iff.mpr missing)
          have empty : r.live = .empty := by
            rw [Reading.live, outside]
            rfl
          rw [obeys.no_mail (told.live.trans empty),
            addressed_of_live_empty empty]
          simp
      | ok found =>
          rw [found?] at parsed
          have among := filter_addressed told named listed found?
          rw [placeAndGo, parsed]
          dsimp only [parseSource]
          rw [if_neg (List.cons_ne_nil _ _)]
          by_cases none? : found = []
          · subst none?
            rw [if_pos rfl, ← among]
            simp [Process.mail]
          · rw [if_neg none?]
            dsimp only
            have chosen : routes [p.client.id] found =
                routes [some own] found := by rw [told.id]
            have mail := @mail_sendEach nClients (routes [some own] found)
              { p with client := { p.client with id2nodename := some read } }
              ((told.renamed ⟨_, rfl⟩).sound found) msg
            rw [chosen, mail]
            dsimp only
            rw [told.live, ← among, ← flatMap_delivery, routes,
              List.flatMap_singleton, List.flatMap_map]
            rfl

/-- What a line orders: a message from the client's own slot to a target. -/
def ordered (cmd : Text) (args : List Text) : Option (Text × Text) :=
  let cmd := cmd.map lower
  if isOne cmd ["p", "ping"] then
    match args with
    | [dest] => some (dest, "ping".toList)
    | _ => none
  else if isOne cmd ["s", "send"] then
    match args with
    | dest :: words => some (dest, joined words)
    | [] => none
  else if isOne cmd ["l", "link"] then
    match args with
    | [] => none
    | words => some ("server".toList, "Link ".toList ++ joined words)
  else if isOne cmd ["r", "rfc"] then
    some ("server".toList, "Link RFC TTC=27us".toList)
  else none

/-- The commands for the server are no others. -/
theorem isOne_server {small : Text}
    (is : isOne small ["l", "link", "r", "rfc"] = true) :
    ¬ isOne small ["i", "int"] = true ∧ ¬ isOne small ["d", "dump"] = true ∧
      ¬ (isOne small ["h", "help"] = true ∨ '?' ∈ small) ∧
        ¬ isOne small ["w", "who"] = true := by
  simp only [isOne, List.any_cons, List.any_nil, Bool.or_false,
    Bool.or_eq_true, decide_eq_true_eq] at is
  rcases is with rfl | rfl | rfl | rfl <;> decide

theorem doCommand_ordered {cmd : Text} {args : List Text}
    (orders : ordered cmd args = some (dest, msg)) :
    doCommand nClients names cmd args p =
      andTrue (placeAndGo nClients names dest msg none true p) := by
  unfold ordered at orders
  unfold doCommand
  generalize cmd.map lower = small at orders ⊢
  dsimp only at orders ⊢
  by_cases ping : isOne small ["p", "ping"] = true
  · rw [if_pos ping] at orders ⊢
    split at orders
    · cases orders
      rfl
    · cases orders
  rw [if_neg ping] at orders ⊢
  by_cases send : isOne small ["s", "send"] = true
  · rw [if_pos send] at orders ⊢
    split at orders
    · cases orders
      rfl
    · cases orders
  rw [if_neg send] at orders ⊢
  by_cases link : isOne small ["l", "link"] = true
  · obtain ⟨int, dump, help, who⟩ := @isOne_server small (by
      simp only [isOne, List.any_cons, List.any_nil, Bool.or_false,
        Bool.or_eq_true] at link ⊢
      exact link.imp_right .inl)
    rw [if_pos link] at orders
    rw [if_neg int, if_neg dump, if_neg help, if_neg who, if_pos link]
    cases args with
    | nil => cases orders
    | cons word rest =>
        cases orders
        rfl
  rw [if_neg link] at orders
  by_cases rfc : isOne small ["r", "rfc"] = true
  · obtain ⟨int, dump, help, who⟩ := @isOne_server small (by
      simp only [isOne, List.any_cons, Bool.or_eq_true] at rfc ⊢
      exact .inr (.inr rfc))
    rw [if_pos rfc] at orders
    cases orders
    rw [if_neg int, if_neg dump, if_neg help, if_neg who, if_neg link,
      if_pos rfc]
  · rw [if_neg rfc] at orders
    cases orders

theorem mail_notOk (cmd : Text) (q : Process) : (notOk cmd q).mail = q.mail := by
  unfold notOk
  split
  · rw [mail_emit]
    simp [isMail]
  · rw [issuePrompt, mail_emit, mail_emit]
    simp [isMail]

/-- The mail of a line is that of its command. -/
theorem mail_lineReceived {line cmd : Text} {args : List Text}
    (typed : fields (strip line) = cmd :: args) :
    (lineReceived nClients names line p).mail =
      (doCommand nClients names cmd args p).2.mail := by
  rw [lineReceived, typed]
  dsimp only
  cases doCommand nClients names cmd args p with
  | mk result q =>
      cases result with
      | error raised =>
          dsimp only
          rw [mail_notOk, mail_emit]
          simp [isMail]
      | ok fine =>
          cases fine with
          | false => exact mail_notOk cmd q
          | true =>
              dsimp only
              rw [issuePrompt, mail_emit]
              simp [isMail]

/-- In every state that the server's messages and typed lines lead to, a line
that orders a message fills the client's own slot and rings, once for each peer
that is there and addressed and in ascending order, the notifier that the server
announced for this peer and slot; a message that does not fit is not sent to
anybody. -/
theorem line_rings {trace : List Label} {names : Int → Option Text}
    (sends : Sends nClients own .start (heard trace))
    (reached : Transition.run (step nClients) fresh trace = some p)
    (named : ∀ id ∈ (Reading.after nClients own
      (heard trace)).announced.keys, names id ≠ none)
    {bytes : List UInt8} {line cmd : Text} {args : List Text}
    (decoded : Utf8.decode bytes = some line)
    (typed : fields (strip line) = cmd :: args)
    (orders : ordered cmd args = some (dest, msg))
    (stepped : step nClients p (.line bytes names) = some q) :
    q.mail = p.mail ++
      if Link.FitsSlot (Link.stamp msg 1) then
        (addressed nClients own names
            (.after nClients own (heard trace)) dest).flatMap
          (ring own (Link.stamp msg 1)
            (Reading.after nClients own (heard trace)).live)
      else [] := by
  have knows := knows_of_reached sends reached
  rw [step] at stepped
  split at stepped
  · cases stepped
  · cases stepped
    rw [receiveLine, decoded]
    dsimp only
    rw [mail_lineReceived typed, doCommand_ordered orders]
    exact mail_placeAndGo knows named dest msg

/-- A broadcast of the only client goes to itself and the server. -/
theorem line_rings_all :
    let hi := Utf8.encode "send all hi".toList
    ∃ p q, Transition.run (step 1) fresh onlyClient = some p ∧
      step 1 p (.line hi hostNames) = some q ∧
      q.mail = p.mail ++
        if Link.FitsSlot (Link.stamp "hi".toList 1) then
          (addressed 1 1 hostNames (.after 1 1 (heard onlyClient))
              "all".toList).flatMap
            (ring 1 (Link.stamp "hi".toList 1)
              (Reading.after 1 1 (heard onlyClient)).live)
        else [] := by
  intro hi
  obtain ⟨p, reached⟩ : ∃ p, Transition.run (step 1) fresh onlyClient =
      some p := Option.isSome_iff_exists.mp (by decide +kernel)
  have both : (Transition.run (step 1) fresh
      (onlyClient ++ [.line hi hostNames])).isSome = true := by decide +kernel
  rw [Transition.run_append, reached, Option.bind_some,
    Transition.run_cons] at both
  cases stepped : step 1 p (.line hi hostNames) with
  | none => simp [stepped] at both
  | some q =>
      have decoded : Utf8.decode hi = some "send all hi".toList := by
        decide +kernel
      have typed : fields (strip "send all hi".toList) =
          "send".toList :: ["all".toList, "hi".toList] := by decide +kernel
      refine ⟨p, q, reached, stepped, line_rings sends_onlyClient reached
        (fun id _ => ?_) decoded typed rfl stepped⟩
      exact Option.some_ne_none _

end

end FameZ.Console
