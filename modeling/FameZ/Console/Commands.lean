/-
Module: FameZ.Console.Commands
Purpose: The command line of a Python client: how a typed line is taken apart,
  whom it names, and what it writes into mailslots and rings.
Trusted boundary: the translation of lineReceived in commander.py and of
  doCommand, place_and_go, parse_target and get_nodenames in twisted_client.py
Main exports: Raised, Effect, Process, parseTarget, sendPayload, placeAndGo,
  doCommand, lineReceived, Route, delivery, mail_sendEach
-/
import FameZ.Client.Stream
import FameZ.Link.Requests

namespace FameZ.Console

open PyText

/-! ### The process -/

/-- The exceptions of a command. -/
inductive Raised where
  | assertionError (text : Text)
  | attributeError
  | indexError
  | keyError
  | typeError
  | valueError
  | retrieveFailed
deriving DecidableEq

/-- What a command does to mailbox, notifiers and transports, and what it
reports.  A notifier is the descriptor it was built from. -/
inductive Effect where
  | fill (sender : Int) (text : Text)
  | incr (fd : Nat)
  | loseConnection
  | closeConsole
  | noSuchPeer (dest : Int)
  | placeAndGoFailed (dest : Int) (source : Option Int)
  | error (raised : Raised)
  | unrecognized (cmd : Text)
  | prompt (nodename : Option Text)
deriving DecidableEq

/-- A client, `_tracker`, and what it has done so far. -/
structure Process where
  client : Client.State
  tracker : Int
  effects : List Effect

def Process.emit (p : Process) (effects : List Effect) : Process :=
  { p with effects := p.effects ++ effects }

/-! ### Text -/

/-- `lower()` as far as it yields a letter of ASCII, which is what it is
compared to: the Kelvin sign is the only other character with that. -/
def lower (c : Char) : Char := if c = '\u212a' then 'k' else c.toLower

/-- `text[-n:]`. -/
def lastOf (n : Nat) (text : Text) : Text := text.drop (text.length - n)

/-- `' '.join(words)`. -/
def joined (words : List Text) : Text := [' '].intercalate words

/-- `'z%02d' % id`. -/
def nodenameOf (id : Int) : Text :=
  'z' :: (List.replicate (2 - (decimalInt id).length) '0' ++ decimalInt id)

/-- `items[i]`; a negative index counts from the end. -/
def index? {α : Type*} (items : List α) (i : Int) : Option α :=
  if 0 ≤ i then items[i.toNat]?
  else if -items.length ≤ i then items[(i + items.length).toNat]?
  else none

/-! ### Targets -/

/-- The loop of `get_nodenames`: what it read, and whether to the end. -/
def readNodenames (names : Int → Option Text) :
    List Int → OrderedDict Int Text → Bool × OrderedDict Int Text
  | [], id2nodename => (true, id2nodename)
  | id :: rest, id2nodename =>
      match names id with
      | none => (false, id2nodename)
      | some name => readNodenames names rest (id2nodename.set id name)

/-- `get_nodenames`.  `names` is what the mailbox holds during a command, and
`none` a name that `retrieve` raises on. -/
def getNodenames (names : Int → Option Text) (c : Client.State) :
    Except Raised Unit × Client.State :=
  match readNodenames names (c.id2fdList.keys.insertionSort (· ≤ ·))
      .empty with
  | (whole, id2nodename) =>
      (if whole = true then .ok () else .error .retrieveFailed,
        { c with id2nodename := some id2nodename })

/-- `parse_target` with the names at hand. -/
def targets (instr : Text) (serverId : Int) (own : Option Int)
    (id2nodename : OrderedDict Int Text) : Except Raised (List Int) :=
  match int? instr with
  | some id => .ok (if 1 ≤ id ∧ id ≤ serverId then [id] else [])
  | none =>
      let small := instr.map lower
      if lastOf 6 small = "server".toList ∨
          lastOf 6 small = "switch".toList then
        .ok [serverId]
      else if small = "all".toList then
        .ok (id2nodename.keys.insertionSort (· ≤ ·))
      else if small = "others".toList then
        -- remove(self.id)
        match own with
        | none => .error .valueError
        | some own =>
            if own ∈ id2nodename.keys then
              .ok ((id2nodename.keys.erase own).insertionSort (· ≤ ·))
            else .error .valueError
      else
        .ok ((id2nodename.entries.find? fun entry =>
          decide (entry.2 = instr)).map Prod.fst).toList

def parseTarget (names : Int → Option Text) (instr : Text)
    (c : Client.State) : Except Raised (List Int) × Client.State :=
  match getNodenames names c with
  | (.error raised, c) => (.error raised, c)
  | (.ok (), c) =>
      (targets instr c.serverId c.id (c.id2nodename.getD .empty), c)

/-- The sources of `place_and_go`; without a target it is the client. -/
def parseSource (names : Int → Option Text) (src : Option Text)
    (c : Client.State) : Except Raised (List (Option Int)) × Client.State :=
  match src with
  | none => (.ok [c.id], c)
  | some src =>
      match parseTarget names src c with
      | (.error raised, c) => (.error raised, c)
      | (.ok ids, c) => (.ok (ids.map some), c)

/-! ### Sending -/

/-- `send_payload` as `place_and_go` calls it; the slots are those of a mailbox
for `nClients`. -/
def sendPayload (nClients : Nat) (msg : Text) (resetTracker : Bool)
    (dest : Int) (source : Option Int) (p : Process) :
    Except Raised Unit × Process :=
  match p.client.id2enList.get? dest with
  | none => (.error .keyError, p)
  | some notifiers =>
      match source with
      | none => (.error .typeError, p)
      | some source =>
          match index? notifiers source with
          | none => (.error .indexError, p)
          | some fd =>
              let tracker := (if resetTracker then 0 else p.tracker) + 1
              let p := { p with tracker := tracker }
              let text := Link.stamp msg tracker
              if ¬ (1 ≤ source ∧ source ≤ nClients + 1) then
                (.error (.assertionError
                  ("Peer ID is out of domain 1 - ".toList ++
                    decimalInt (nClients + 1))), p)
              else if ¬ Link.FitsSlot text then
                (.error (.assertionError "Message too long".toList), p)
              else (.ok (), p.emit [.fill source text, .incr fd])

/-- A destination and a source. -/
abbrev Route := Int × Option Int

/-- The loops of `place_and_go`. -/
def sendEach (nClients : Nat) (msg : Text) (resetTracker : Bool) :
    List Route → Process → Process
  | [], p => p
  | route :: rest, p =>
      match sendPayload nClients msg resetTracker route.1 route.2 p with
      | (.ok (), p) => sendEach nClients msg resetTracker rest p
      | (.error .keyError, p) =>
          sendEach nClients msg resetTracker rest
            (p.emit [.noSuchPeer route.1])
      | (.error _, p) => p.emit [.placeAndGoFailed route.1 route.2]

def routes (sources : List (Option Int)) (dests : List Int) : List Route :=
  sources.flatMap fun S => dests.map fun D => (D, S)

def placeAndGo (nClients : Nat) (names : Int → Option Text)
    (dest msg : Text) (src : Option Text) (resetTracker : Bool)
    (p : Process) : Except Raised Unit × Process :=
  match parseTarget names dest p.client with
  | (.error raised, c) => (.error raised, { p with client := c })
  | (.ok destIndices, c) =>
      match parseSource names src c with
      | (.error raised, c) => (.error raised, { p with client := c })
      | (.ok srcIndices, c) =>
          let p := { p with client := c }
          if srcIndices = [] then
            (.error (.assertionError
              "missing or unknown source(s)".toList), p)
          else if destIndices = [] then
            (.error (.assertionError
              "missing or unknown destination(s)".toList), p)
          else
            (.ok (), sendEach nClients msg resetTracker
              (routes srcIndices destIndices) p)

/-! ### Commands -/

/-- `cmd in words`. -/
def isOne (cmd : Text) (words : List String) : Bool :=
  words.any fun word => decide (word.toList = cmd)

/-- What a command returns that ends with `return True`. -/
def andTrue {α : Type*} (result : Except Raised α × Process) :
    Except Raised Bool × Process :=
  (result.1.map fun _ => true, result.2)

/-- `doCommand` of a client, without what it prints. -/
def doCommand (nClients : Nat) (names : Int → Option Text) (cmd : Text)
    (args : List Text) (p : Process) : Except Raised Bool × Process :=
  let cmd := cmd.map lower
  if isOne cmd ["p", "ping"] then
    match args with
    | [dest] =>
        andTrue (placeAndGo nClients names dest "ping".toList none true p)
    | _ => (.error (.assertionError "Missing dest".toList), p)
  else if isOne cmd ["s", "send"] then
    match args with
    | dest :: words =>
        andTrue (placeAndGo nClients names dest (joined words) none true p)
    | [] => (.error (.assertionError "Missing dest".toList), p)
  else if isOne cmd ["i", "int"] then
    match args with
    | dest :: src :: words =>
        andTrue
          (placeAndGo nClients names dest (joined words) (some src) true p)
    | _ => (.error (.assertionError "Missing dest and/or src".toList), p)
  else if isOne cmd ["d", "dump"] then
    match p.client.id2nodename with
    | none => (.error .attributeError, p)
    | some _ => (.ok true, p)
  else if isOne cmd ["h", "help"] ∨ '?' ∈ cmd then (.ok true, p)
  else if isOne cmd ["w", "who"] then
    -- '%2d' % None
    if p.client.id = none then (.error .typeError, p)
    else
      match getNodenames names p.client with
      | (result, c) => andTrue (result, { p with client := c })
  else if isOne cmd ["l", "link"] then
    match args with
    | [] => (.error (.assertionError "Missing directive".toList), p)
    | words =>
        andTrue (placeAndGo nClients names "server".toList
          ("Link ".toList ++ joined words) none true p)
  else if isOne cmd ["r", "rfc"] then
    andTrue (placeAndGo nClients names "server".toList
      "Link RFC TTC=27us".toList none true p)
  else if isOne cmd ["q", "quit"] then
    (.ok false, p.emit [.loseConnection])
  else (.ok true, p.emit [.unrecognized cmd])

def issuePrompt (p : Process) : Process :=
  p.emit [.prompt (p.client.id.map nodenameOf)]

/-- `lineReceived` after a command that is not ok. -/
def notOk (cmd : Text) (p : Process) : Process :=
  if cmd = "q".toList ∨ cmd = "quit".toList then
    p.emit [.loseConnection, .closeConsole]
  else issuePrompt (p.emit [.unrecognized cmd])

/-- `lineReceived` for a line that is UTF-8. -/
def lineReceived (nClients : Nat) (names : Int → Option Text) (line : Text)
    (p : Process) : Process :=
  match fields (strip line) with
  | [] => issuePrompt p
  | cmd :: args =>
      match doCommand nClients names cmd args p with
      | (.ok true, p) => issuePrompt p
      | (.ok false, p) => notOk cmd p
      | (.error raised, p) => notOk cmd (p.emit [.error raised])

/-! ### Names -/

/-- Names that can all be read are read in the order of the ids. -/
theorem readNodenames_of_named {names : Int → Option Text} {ids : List Int}
    {id2nodename : OrderedDict Int Text}
    (nodup : (id2nodename.keys ++ ids).Nodup)
    (named : ∀ id ∈ ids, names id ≠ none) :
    ∃ read, readNodenames names ids id2nodename = (true, read) ∧
      read.entries = id2nodename.entries ++
        ids.map fun id => (id, (names id).getD []) := by
  induction ids generalizing id2nodename with
  | nil => exact ⟨id2nodename, rfl, by simp⟩
  | cons id rest inductionHypothesis =>
      rw [List.forall_mem_cons] at named
      obtain ⟨name, found⟩ := Option.ne_none_iff_exists'.mp named.1
      have new : id2nodename.get? id = none := by
        rw [OrderedDict.get?_eq_none_iff]
        intro member
        exact (List.nodup_append.mp nodup).2.2 id member id
          (List.mem_cons_self ..) rfl
      have entries := OrderedDict.entries_set_of_get?_none name new
      obtain ⟨read, reads, whole⟩ := @inductionHypothesis
        (id2nodename.set id name)
        (by rwa [OrderedDict.keys, entries, List.map_append,
          List.append_assoc]) named.2
      refine ⟨read, ?_, ?_⟩
      · rw [readNodenames, found]
        exact reads
      · rw [whole, entries, List.map_cons, found, List.append_assoc]
        rfl

/-- The names that a target is compared with: those of the peers that were
announced, in the order of their ids. -/
def listing (names : Int → Option Text) (ids : List Int) :
    List (Int × Text) :=
  (ids.insertionSort (· ≤ ·)).map fun id => (id, (names id).getD [])

theorem getNodenames_of_named {names : Int → Option Text}
    {c : Client.State} (named : ∀ id ∈ c.id2fdList.keys, names id ≠ none) :
    ∃ read, getNodenames names c =
        (.ok (), { c with id2nodename := some read }) ∧
      read.entries = listing names c.id2fdList.keys := by
  obtain ⟨read, reads, whole⟩ := @readNodenames_of_named names
    (c.id2fdList.keys.insertionSort (· ≤ ·)) .empty
    (by simpa [OrderedDict.keys, OrderedDict.empty] using
      (List.perm_insertionSort (· ≤ ·) _).nodup_iff.mpr c.id2fdList.nodup)
    (by simpa using named)
  refine ⟨read, ?_, whole⟩
  rw [getNodenames, reads]
  rfl

/-- Whatever it reads, `get_nodenames` changes nothing but the names. -/
theorem getNodenames_eq (names : Int → Option Text) (c : Client.State) :
    ∃ result read, getNodenames names c =
      (result, { c with id2nodename := some read }) := by
  rw [getNodenames]
  exact ⟨_, _, rfl⟩

/-! ### What leaves the process -/

/-- A message in a slot, and the notifier rung for it. -/
structure Posting where
  sender : Int
  text : Text
  fd : Nat
deriving DecidableEq

def Posting.effects (posting : Posting) : List Effect :=
  [.fill posting.sender posting.text, .incr posting.fd]

def isMail : Effect → Bool
  | .fill .. => true
  | .incr .. => true
  | _ => false

/-- The effects on mailbox and notifiers. -/
def Process.mail (p : Process) : List Effect := p.effects.filter isMail

@[simp] theorem client_emit (p : Process) (effects : List Effect) :
    (p.emit effects).client = p.client := rfl

@[simp] theorem effects_emit (p : Process) (effects : List Effect) :
    (p.emit effects).effects = p.effects ++ effects := rfl

theorem mail_emit (p : Process) (effects : List Effect) :
    (p.emit effects).mail = p.mail ++ effects.filter isMail :=
  List.filter_append ..

theorem filter_posting (posting : Posting) :
    posting.effects.filter isMail = posting.effects := rfl

/-- A posting that a route allows: from a slot of the mailbox, to the notifier
of its destination for that slot. -/
structure Allows (nClients : Nat) (notifiers : Client.Table) (route : Route)
    (posting : Posting) : Prop where
  source : route.2 = some posting.sender
  slot : 1 ≤ posting.sender ∧ posting.sender ≤ nClients + 1
  fits : Link.FitsSlot posting.text
  notifier : ∃ fds, notifiers.get? route.1 = some fds ∧
    index? fds posting.sender = some posting.fd

/-- `send_payload` raises, or it posts. -/
theorem sendPayload_cases (nClients : Nat) (msg : Text) (resetTracker : Bool)
    (dest : Int) (source : Option Int) (p : Process) :
    (∃ raised tracker,
      sendPayload nClients msg resetTracker dest source p =
        (.error raised, { p with tracker := tracker })) ∨
      ∃ posting tracker,
        sendPayload nClients msg resetTracker dest source p =
            (.ok (), { p with tracker := tracker }.emit posting.effects) ∧
          Allows nClients p.client.id2enList (dest, source) posting := by
  unfold sendPayload
  cases found : p.client.id2enList.get? dest with
  | none => exact .inl ⟨_, p.tracker, rfl⟩
  | some notifiers =>
      cases source with
      | none => exact .inl ⟨_, p.tracker, rfl⟩
      | some source =>
          dsimp only
          cases at? : index? notifiers source with
          | none => exact .inl ⟨_, p.tracker, rfl⟩
          | some fd =>
              dsimp only
              generalize (if resetTracker = true then 0 else p.tracker) + 1 =
                tracker
              by_cases slot : 1 ≤ source ∧ source ≤ nClients + 1
              · rw [if_neg (not_not.mpr slot)]
                by_cases fits : Link.FitsSlot (Link.stamp msg tracker)
                · rw [if_neg (not_not.mpr fits)]
                  exact .inr ⟨⟨source, _, fd⟩, tracker, rfl,
                    ⟨rfl, slot, fits, notifiers, found, at?⟩⟩
                · rw [if_pos fits]
                  exact .inl ⟨_, tracker, rfl⟩
              · rw [if_pos slot]
                exact .inl ⟨_, _, rfl⟩

/-- The postings of a process since an earlier state, each allowed by a
route. -/
def Posts (nClients : Nat) (routes : List Route) (p q : Process) : Prop :=
  ∃ postings : List Posting,
    q.mail = p.mail ++ postings.flatMap Posting.effects ∧
      ∀ posting ∈ postings, ∃ route ∈ routes,
        Allows nClients p.client.id2enList route posting

theorem Posts.refl (nClients : Nat) (routes : List Route) (p : Process) :
    Posts nClients routes p p :=
  ⟨[], by simp, fun _ member => absurd member List.not_mem_nil⟩

/-- Whatever is sent one after the other is a list of allowed postings. -/
theorem sendEach_posts (nClients : Nat) (msg : Text) (resetTracker : Bool)
    (routes : List Route) (p : Process) :
    (sendEach nClients msg resetTracker routes p).client = p.client ∧
      Posts nClients routes p
        (sendEach nClients msg resetTracker routes p) := by
  induction routes generalizing p with
  | nil => exact ⟨rfl, .refl ..⟩
  | cons route rest inductionHypothesis =>
      rw [sendEach]
      rcases sendPayload_cases nClients msg resetTracker route.1 route.2 p
        with ⟨raised, tracker, sent⟩ | ⟨posting, tracker, sent, allowed⟩
      · rw [sent]
        cases raised with
        | keyError =>
            obtain ⟨same, postings, mail, allows⟩ := inductionHypothesis
              ({ p with tracker := tracker }.emit [.noSuchPeer route.1])
            refine ⟨same, postings, ?_, fun posting member => ?_⟩
            · rw [mail, mail_emit]
              simp [isMail, Process.mail]
            · obtain ⟨other, later, allowed⟩ := allows posting member
              exact ⟨other, List.mem_cons_of_mem _ later, allowed⟩
        | _ => exact ⟨rfl, [], by simp [isMail, Process.mail],
            fun _ member => absurd member List.not_mem_nil⟩
      · rw [sent]
        obtain ⟨same, postings, mail, allows⟩ := inductionHypothesis
          ({ p with tracker := tracker }.emit posting.effects)
        refine ⟨same, posting :: postings, ?_, ?_⟩
        · rw [mail, mail_emit, filter_posting, List.flatMap_cons,
            List.append_assoc]
          rfl
        · rw [List.forall_mem_cons]
          refine ⟨⟨route, List.mem_cons_self .., allowed⟩,
            fun other member => ?_⟩
          obtain ⟨route, later, allowed⟩ := allows other member
          exact ⟨route, List.mem_cons_of_mem _ later, allowed⟩

/-- What a route brings when its destination is a peer. -/
def delivery (peers : Client.Table) (text : Text) (route : Route) :
    List Effect :=
  match peers.get? route.1, route.2 with
  | some fds, some S => [.fill S text, .incr (fds.getD S.toNat 0)]
  | _, _ => []

/-- The routes of a client whose notifiers are complete. -/
structure Sound (nClients : Nat) (c : Client.State) (routes : List Route) :
    Prop where
  full : ∀ id fds, c.id2enList.get? id = some fds →
    fds.length = nClients + 2
  sources : ∀ route ∈ routes, c.id2enList.get? route.1 ≠ none →
    ∃ S, route.2 = some S ∧ 1 ≤ S ∧ S ≤ nClients + 1

theorem index?_of_lt {fds : List Nat} {S : Int} (low : 1 ≤ S)
    (high : S < fds.length) : index? fds S = some (fds.getD S.toNat 0) := by
  rw [index?, if_pos (by omega), List.getD_eq_getElem?_getD,
    List.getElem?_eq_getElem (by omega)]
  rfl

/-- A message that fits goes to every destination that is a peer; one that does
not goes to none. -/
theorem mail_sendEach {nClients : Nat} {routes : List Route} {p : Process}
    (sound : Sound nClients p.client routes) (msg : Text) :
    (sendEach nClients msg true routes p).mail =
      p.mail ++
        if Link.FitsSlot (Link.stamp msg 1) then
          routes.flatMap
            (delivery p.client.id2enList (Link.stamp msg 1))
        else [] := by
  induction routes generalizing p with
  | nil => simp [sendEach]
  | cons route rest inductionHypothesis =>
      have later : Sound nClients p.client rest :=
        ⟨sound.full, fun other member =>
          sound.sources other (List.mem_cons_of_mem _ member)⟩
      rw [sendEach, List.flatMap_cons]
      cases found : p.client.id2enList.get? route.1 with
      | none =>
          have here : sendPayload nClients msg true route.1 route.2 p =
              (.error .keyError, p) := by
            rw [sendPayload, found]
          have nowhere : delivery p.client.id2enList (Link.stamp msg 1)
              route = [] := by
            rw [delivery, found]
          rw [here, nowhere]
          dsimp only
          rw [inductionHypothesis (p := p.emit [.noSuchPeer route.1]) later,
            mail_emit]
          simp [isMail]
      | some fds =>
          obtain ⟨S, source, low, high⟩ := sound.sources route
            (List.mem_cons_self ..) (by rw [found]; exact Option.some_ne_none _)
          have size := sound.full _ _ found
          have at? := @index?_of_lt fds S low (by omega)
          have there : delivery p.client.id2enList (Link.stamp msg 1) route =
              [.fill S (Link.stamp msg 1), .incr (fds.getD S.toNat 0)] := by
            rw [delivery, found, source]
          by_cases fits : Link.FitsSlot (Link.stamp msg 1)
          · have here : sendPayload nClients msg true route.1 route.2 p =
                (.ok (), { p with tracker := 1 }.emit
                  [.fill S (Link.stamp msg 1),
                    .incr (fds.getD S.toNat 0)]) := by
              rw [sendPayload, found, source]
              dsimp only
              rw [at?]
              dsimp only
              rw [if_neg (not_not.mpr ⟨low, high⟩)]
              exact if_neg (not_not.mpr fits)
            have after := @inductionHypothesis ({ p with tracker := 1 }.emit
              [.fill S (Link.stamp msg 1), .incr (fds.getD S.toNat 0)]) later
            rw [here]
            dsimp only
            rw [after, mail_emit, there, if_pos fits, if_pos fits,
              List.append_assoc]
            rfl
          · have here : sendPayload nClients msg true route.1 route.2 p =
                (.error (.assertionError "Message too long".toList),
                  { p with tracker := 1 }) := by
              rw [sendPayload, found, source]
              dsimp only
              rw [at?]
              dsimp only
              rw [if_neg (not_not.mpr ⟨low, high⟩)]
              exact if_pos fits
            rw [here, if_neg fits, List.append_nil]
            dsimp only
            rw [mail_emit]
            simp [isMail, Process.mail]

/-! ### What a line does -/

/-- The client up to the names it has read. -/
def Renamed (c d : Client.State) : Prop :=
  ∃ id2nodename, d = { c with id2nodename := id2nodename }

theorem Renamed.refl (c : Client.State) : Renamed c c := ⟨c.id2nodename, rfl⟩

theorem Renamed.trans {c d e : Client.State} (first : Renamed c d)
    (second : Renamed d e) : Renamed c e := by
  obtain ⟨_, rfl⟩ := first
  obtain ⟨read, rfl⟩ := second
  exact ⟨read, rfl⟩

theorem Renamed.id {c d : Client.State} (renamed : Renamed c d) :
    d.id = c.id := by
  obtain ⟨read, rfl⟩ := renamed
  rfl

theorem Renamed.id2enList {c d : Client.State} (renamed : Renamed c d) :
    d.id2enList = c.id2enList := by
  obtain ⟨read, rfl⟩ := renamed
  rfl

/-- What any command does: it may read names and post, from slots of others
only if it says so. -/
structure Obeys (nClients : Nat) (spoofs : Prop) (p q : Process) : Prop where
  client : Renamed p.client q.client
  posts : ∃ routes, Posts nClients routes p q ∧
    (¬ spoofs → ∀ route ∈ routes, route.2 = p.client.id)

section

variable {nClients : Nat} {names : Int → Option Text} {spoofs : Prop}
  {p q : Process}

/-- A command without mail. -/
theorem Obeys.silent (client : Renamed p.client q.client)
    (mail : q.mail = p.mail) : Obeys nClients spoofs p q :=
  ⟨client, [], ⟨[], by simp [mail],
      fun _ member => absurd member List.not_mem_nil⟩,
    fun _ _ member => absurd member List.not_mem_nil⟩

/-- Reports change nothing. -/
theorem Obeys.report (obeys : Obeys nClients spoofs p q)
    {effects : List Effect} (silent : effects.filter isMail = []) :
    Obeys nClients spoofs p (q.emit effects) := by
  obtain ⟨client, routes, ⟨postings, mail, allows⟩, sources⟩ := obeys
  refine ⟨client, routes, ⟨postings, ?_, allows⟩, sources⟩
  rw [mail_emit, silent, List.append_nil, mail]

theorem parseTarget_renamed (names : Int → Option Text) (instr : Text)
    (c : Client.State) : Renamed c (parseTarget names instr c).2 := by
  obtain ⟨result, read, names?⟩ := getNodenames_eq names c
  rw [parseTarget, names?]
  cases result with
  | error raised => exact ⟨_, rfl⟩
  | ok _ => exact ⟨_, rfl⟩

theorem parseSource_renamed (names : Int → Option Text) (src : Option Text)
    (c : Client.State) : Renamed c (parseSource names src c).2 := by
  cases src with
  | none => exact .refl c
  | some src =>
      have renamed := parseTarget_renamed names src c
      rw [parseSource]
      cases parsed : parseTarget names src c with
      | mk result d =>
          rw [parsed] at renamed
          cases result with
          | error raised => exact renamed
          | ok ids => exact renamed

theorem parseSource_none {c d : Client.State} {sources : List (Option Int)}
    (parsed : parseSource names none c = (.ok sources, d)) :
    sources = [c.id] := by
  cases parsed
  rfl

theorem source_of_mem_routes {sources : List (Option Int)}
    {dests : List Int} {route : Route}
    (member : route ∈ routes sources dests) : route.2 ∈ sources := by
  obtain ⟨S, source, among⟩ := List.mem_flatMap.mp member
  obtain ⟨D, -, rfl⟩ := List.mem_map.mp among
  exact source

/-- `place_and_go`, which spoofs if it is given a source. -/
theorem placeAndGo_obeys (dest msg : Text) (src : Option Text)
    (resetTracker : Bool) :
    Obeys nClients (src ≠ none) p
      (placeAndGo nClients names dest msg src resetTracker p).2 := by
  have renamed := parseTarget_renamed names dest p.client
  rw [placeAndGo]
  cases parsed : parseTarget names dest p.client with
  | mk result c =>
      rw [parsed] at renamed
      cases result with
      | error raised => exact .silent renamed rfl
      | ok dests =>
          dsimp only
          have again := parseSource_renamed names src c
          cases sourced : parseSource names src c with
          | mk result d =>
              rw [sourced] at again
              have both := renamed.trans again
              cases result with
              | error raised => exact .silent both rfl
              | ok sources =>
                  dsimp only
                  split
                  · exact .silent both rfl
                  · split
                    · exact .silent both rfl
                    · obtain ⟨same, postings, mail, allows⟩ :=
                        sendEach_posts nClients msg resetTracker
                          (routes sources dests) { p with client := d }
                      refine ⟨by rwa [same], routes sources dests,
                        ⟨postings, mail, ?_⟩, fun honest route member => ?_⟩
                      · rw [← both.id2enList]
                        exact allows
                      · have none? : src = none := not_not.mp honest
                        subst none?
                        have source := source_of_mem_routes member
                        rwa [parseSource_none sourced, List.mem_singleton,
                          renamed.id] at source

/-- A typed line takes the slots of others only with this command. -/
def Spoofs (cmd : Text) : Prop :=
  isOne (cmd.map lower) ["i", "int"] = true

instance (cmd : Text) : Decidable (Spoofs cmd) :=
  inferInstanceAs (Decidable (_ = true))

theorem placeAndGo_honest (dest msg : Text) (resetTracker : Bool) :
    Obeys nClients spoofs p
      (placeAndGo nClients names dest msg none resetTracker p).2 := by
  obtain ⟨client, routes, posts, sources⟩ :=
    @placeAndGo_obeys nClients names p dest msg none resetTracker
  exact ⟨client, routes, posts, fun _ => sources fun other => other rfl⟩

theorem placeAndGo_spoofs (spoof : spoofs) (dest msg : Text)
    (src : Option Text) (resetTracker : Bool) :
    Obeys nClients spoofs p
      (placeAndGo nClients names dest msg src resetTracker p).2 := by
  obtain ⟨client, routes, posts, -⟩ :=
    @placeAndGo_obeys nClients names p dest msg src resetTracker
  exact ⟨client, routes, posts, fun honest => absurd spoof honest⟩

theorem doCommand_obeys (cmd : Text) (args : List Text) :
    Obeys nClients (Spoofs cmd) p
      (doCommand nClients names cmd args p).2 := by
  have still : Obeys nClients (Spoofs cmd) p p := .silent (.refl _) rfl
  unfold doCommand
  dsimp only
  by_cases ping : isOne (cmd.map lower) ["p", "ping"] = true
  · rw [if_pos ping]
    split
    · exact placeAndGo_honest ..
    · exact still
  rw [if_neg ping]
  by_cases send : isOne (cmd.map lower) ["s", "send"] = true
  · rw [if_pos send]
    split
    · exact placeAndGo_honest ..
    · exact still
  rw [if_neg send]
  by_cases int : isOne (cmd.map lower) ["i", "int"] = true
  · rw [if_pos int]
    split
    · exact placeAndGo_spoofs int ..
    · exact still
  rw [if_neg int]
  by_cases dump : isOne (cmd.map lower) ["d", "dump"] = true
  · rw [if_pos dump]
    split
    · exact still
    · exact still
  rw [if_neg dump]
  by_cases help : isOne (cmd.map lower) ["h", "help"] = true ∨
      '?' ∈ cmd.map lower
  · rw [if_pos help]
    exact still
  rw [if_neg help]
  by_cases who : isOne (cmd.map lower) ["w", "who"] = true
  · rw [if_pos who]
    split
    · exact still
    · obtain ⟨result, read, names?⟩ := getNodenames_eq names p.client
      rw [names?]
      exact .silent ⟨read, rfl⟩ rfl
  rw [if_neg who]
  by_cases link : isOne (cmd.map lower) ["l", "link"] = true
  · rw [if_pos link]
    split
    · exact still
    · exact placeAndGo_honest ..
  rw [if_neg link]
  by_cases rfc : isOne (cmd.map lower) ["r", "rfc"] = true
  · rw [if_pos rfc]
    exact placeAndGo_honest ..
  rw [if_neg rfc]
  by_cases quit : isOne (cmd.map lower) ["q", "quit"] = true
  · rw [if_pos quit]
    exact still.report rfl
  · rw [if_neg quit]
    exact still.report rfl

theorem Obeys.notOk (obeys : Obeys nClients spoofs p q) (cmd : Text) :
    Obeys nClients spoofs p (notOk cmd q) := by
  unfold Console.notOk
  split
  · exact obeys.report rfl
  · exact (obeys.report rfl).report rfl

/-- The command of a line. -/
def command (line : Text) : Text := (fields (strip line)).headD []

theorem lineReceived_obeys (line : Text) :
    Obeys nClients (Spoofs (command line)) p
      (lineReceived nClients names line p) := by
  rw [lineReceived, command]
  cases words : fields (strip line) with
  | nil => exact Obeys.report (.silent (.refl _) rfl) rfl
  | cons cmd args =>
      dsimp only [List.headD]
      have obeys := @doCommand_obeys nClients names p cmd args
      cases done : doCommand nClients names cmd args p with
      | mk result q =>
          rw [done] at obeys
          cases result with
          | error raised => exact (obeys.report rfl).notOk cmd
          | ok fine =>
              cases fine with
              | true => exact obeys.report rfl
              | false => exact obeys.notOk cmd

end

end FameZ.Console
