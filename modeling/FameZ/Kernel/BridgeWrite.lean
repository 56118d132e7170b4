/-
Module: FameZ.Kernel.BridgeWrite
Purpose: A whole write to the bridge device, from the user's bytes to the slot
  and the doorbell, with every access inside its array.
Trusted boundary: the translation of famez_bridge_write and of
  famez_create_outgoing; copy_from_user copies everything and nobody else
  writes
Main exports: Adapter, Device, Waits, famezCreateOutgoing, famezBridgeWrite,
  Resolves, Sends, Written, famezBridgeWrite_written, submits_iff,
  echo_never_sends, swapped_address_sends
-/
import FameZ.Kernel.Bridge
import FameZ.Kernel.BridgeRead
import FameZ.Lib.CBuffer

namespace FameZ.Kernel.BridgeWrite

open CBuffer (put copyIn slice strchr)
open Outgoing (createOutgoing peerIdOf famezSidCidIsPeerId)
open Bridge (Ringer serverNames destination)
open BridgeRead (int)

/-! ### The state -/

/-- An adapter whose device is open: adapter_create found room for a buffer in
the slot, kzalloc gave a write buffer of that size, and the server has one of
the ids that a doorbell can name. -/
structure Adapter extends Bridge.Adapter where
  positive : 0 < maxBuflen
  allocated : maxBuflen < 2 ^ 31
  narrow : serverId < 2 ^ 16

/-- The slot of the adapter, its write buffer, and the doorbells so far. -/
structure State where
  slot : Mailslot
  wbuf : List UInt8
  rung : List Ringer
deriving Repr, DecidableEq

/-- Both buffers have the size that the adapter goes by. -/
structure Device where
  adapter : Adapter
  state : State
  wbufSize : state.wbuf.length = adapter.maxBuflen
  slotSize : state.slot.buf.length = adapter.maxBuflen

/-- For each attempt and each of its sleeps, whether the previous responder
clears the slot meanwhile.  A write makes three attempts. -/
structure Waits where
  first : List Bool
  second : List Bool
  third : List Bool

def Waits.attempts (waits : Waits) : List (List Bool) :=
  [waits.first, waits.second, waits.third]

/-! ### The result -/

def number : Bridge.Errno → Int
  | .e2big => -7
  | .ebadmsg => -74
  | .parse .einval => -22
  | .parse .erange => -34
  | .outgoing .enetunreach => -101
  | .outgoing .ebadslt => -57
  | .outgoing .e2big => -7
  | .outgoing .enodata => -61
  | .outgoing .erestartsys => -512
  | .outgoing .etimedout => -110

def eio : Int := -5

/-- An `int` that is compared with a `size_t`. -/
def asSize (ret : Int) : Nat := (ret % 2 ^ 64).toNat

/-- What becomes of the result of an attempt that is not repeated. -/
def settle (buflen successlen : Nat) (ret : Int) : Int :=
  if asSize ret = buflen then int successlen
  else if 0 ≤ ret then eio
  else ret

/-! ### famez_create_outgoing -/

/-- The loop of its wait, until the slot is idle or the sleeps are over. -/
def awaitIdle : List Bool → Mailslot → Mailslot
  | [], slot => slot
  | cleared :: sleeps, slot =>
      if slot.buflen = 0 then slot
      else awaitIdle sleeps
        (if cleared = true then { slot with buflen := 0 } else slot)

def famezCreateOutgoing (adapter : Adapter) (cid sid : Int)
    (bufbody buflen : Nat) (sleeps : List Bool) (s : State) :
    Option (Int × State) :=
  match createOutgoing adapter.serverId adapter.maxBuflen cid sid buflen with
  | .error errno => some (number (.outgoing errno), s)
  | .ok peerId =>
      let slot := awaitIdle sleeps s.slot
      if slot.buflen ≠ 0 then
        some (number (.outgoing .erestartsys), { s with slot := slot })
      else do
        let buf ← put slot.buf buflen 0
        let body ← slice s.wbuf bufbody buflen
        let buf ← copyIn buf body
        some (int buflen,
          { s with
            slot :=
              { slot with
                buflen := buflen
                lastResponder := peerId
                buf := buf }
            rung := s.rung ++
              [{ vector := adapter.myId, peer := UInt16.ofNat peerId }] })

/-! ### famez_bridge_write -/

/-- The characters of a string. -/
def chars (text : List UInt8) : List Char :=
  text.map fun byte => Char.ofNat byte.toNat

/-- The destination that the string at the front of the buffer stands for.  A
comma is overwritten. -/
def resolve (serverId : Nat) (wbuf : List UInt8) :
    Option (Except Bridge.Errno (Int × Int) × List UInt8) := do
  let name ← CBuffer.cstring wbuf 0
  if chars name ∈ serverNames then
    some (.ok (int serverId, famezSidCidIsPeerId), wbuf)
  else do
    let comma ← strchr 44 wbuf
    match comma with
    | some comma => do
        let wbuf ← put wbuf comma 0
        let first ← CBuffer.cstring wbuf 0
        match Kstrto.kstrtoint (chars first) with
        | .error error => some (.error (.parse error), wbuf)
        | .ok sid => do
            let second ← CBuffer.cstring wbuf (comma + 1)
            match Kstrto.kstrtoint (chars second) with
            | .error error => some (.error (.parse error), wbuf)
            | .ok cid => some (.ok (cid, sid), wbuf)
    | none =>
        match Kstrto.kstrtoint (chars name) with
        | .error error => some (.error (.parse error), wbuf)
        | .ok cid => some (.ok (cid, famezSidCidIsPeerId), wbuf)

/-- The attempts, one after another. -/
def submit (adapter : Adapter) (cid sid : Int)
    (bufbody buflen successlen : Nat) :
    List (List Bool) → State → Option (Int × State)
  | [], s => some (number (.outgoing .etimedout), s)
  | sleeps :: later, s => do
      let result ← famezCreateOutgoing adapter cid sid bufbody buflen sleeps s
      if result.1 = number (.outgoing .erestartsys) then
        submit adapter cid sid bufbody buflen successlen later result.2
      else some (settle buflen successlen result.1, result.2)

/-- `none` is an access outside an array. -/
def famezBridgeWrite (adapter : Adapter) (waits : Waits) (buf : List UInt8)
    (s : State) : Option (Int × State) :=
  if adapter.maxBuflen - 1 ≤ buf.length then some (number .e2big, s)
  else do
    let wbuf ← copyIn s.wbuf buf
    let wbuf ← put wbuf buf.length 0
    let colon ← strchr 58 wbuf
    match colon with
    | none => some (number .ebadmsg, { s with wbuf := wbuf })
    | some colon => do
        let wbuf ← put wbuf colon 0
        let bufbody := colon + 1
        let buflen := buf.length - bufbody
        let resolved ← resolve adapter.serverId wbuf
        let s := { s with wbuf := resolved.2 }
        match resolved.1 with
        | .error errno => some (number errno, s)
        | .ok (cid, sid) =>
            submit adapter cid sid bufbody buflen buf.length waits.attempts s

/-! ### When a write succeeds -/

/-- The peer that a text stands for: a name of the server, a peer id, or a pair
of a SID and a CID. -/
inductive Resolves (serverId : Nat) (text : List Char) (peer : Nat) : Prop where
  | keyword (name : text ∈ serverNames) (is : peer = serverId)
  | peerId (noName : text ∉ serverNames) (single : ',' ∉ text)
      (id : Kstrto.kstrtoint text = .ok peer)
  | pair {cid : Int} (comma : ',' ∈ text)
      (sid : Kstrto.kstrtoint (text.takeWhile fun c => decide (c ≠ ',')) =
        .ok 27)
      (parsed : Kstrto.kstrtoint
        (text.dropWhile fun c => decide (c ≠ ',')).tail = .ok cid)
      (quotient : cid.tdiv 100 = peer)
  | escape (comma : ',' ∈ text)
      (sid : Kstrto.kstrtoint (text.takeWhile fun c => decide (c ≠ ',')) =
        .ok famezSidCidIsPeerId)
      (id : Kstrto.kstrtoint
        (text.dropWhile fun c => decide (c ≠ ',')).tail = .ok peer)

/-- What a write needs to succeed. -/
structure Sends (device : Device) (waits : Waits)
    (buf header body : List UInt8) (peer : Nat) : Prop where
  short : buf.length < device.adapter.maxBuflen - 1
  split : buf = header ++ 58 :: body
  first : 58 ∉ header
  noNul : 0 ∉ header
  resolves : Resolves device.adapter.serverId (chars header) peer
  low : 1 ≤ peer
  high : peer ≤ device.adapter.serverId
  nonempty : body ≠ []
  idle : device.state.slot.buflen = 0 ∨
    ∃ sleeps ∈ waits.attempts, true ∈ sleeps

/-- The slot holds the body for a peer, its other fields and what is behind the
NUL unchanged. -/
structure Delivers (old slot : Mailslot) (body : List UInt8) (peer : Nat) :
    Prop where
  buflen : slot.buflen = body.length
  held : slot.buf.take body.length = body
  nul : slot.buf[body.length]? = some 0
  lastResponder : slot.lastResponder = peer
  behind : slot.buf.drop (body.length + 1) = old.buf.drop (body.length + 1)
  others : slot.peerId = old.peerId ∧ slot.peerSid = old.peerSid ∧
    slot.peerCid = old.peerCid

/-- A write that sends returns the full length, fills the slot and rings once;
any other returns an errno and leaves both alone. -/
inductive Written (device : Device) (waits : Waits) (buf : List UInt8) :
    Int × State → Prop where
  | sent {t : State} {header body : List UInt8} {peer : Nat}
      (sends : Sends device waits buf header body peer)
      (delivers : Delivers device.state.slot t.slot body peer)
      (rings : t.rung = device.state.rung ++
        [{ vector := device.adapter.myId, peer := UInt16.ofNat peer }]) :
      Written device waits buf (buf.length, t)
  | failed {ret : Int} {t : State}
      (fails : ∀ header body peer, ¬ Sends device waits buf header body peer)
      (negative : ret < 0) (slot : t.slot = device.state.slot)
      (rung : t.rung = device.state.rung) :
      Written device waits buf (ret, t)

/-! ### Results -/

/-- Every errno is a small negative number. -/
theorem number_range (errno : Bridge.Errno) :
    -2 ^ 31 ≤ number errno ∧ number errno < 0 := by
  cases errno with
  | e2big => decide
  | ebadmsg => decide
  | parse error => cases error <;> decide
  | outgoing errno => cases errno <;> decide

theorem number_neg (errno : Bridge.Errno) : number errno < 0 :=
  (number_range errno).2

theorem int_of_lt {value : Nat} (small : value < 2 ^ 31) : int value = value :=
  BridgeRead.int_eq_iff.mpr small

/-- A length is no errno. -/
theorem int_ne_erestartsys {value : Nat} (small : value < 2 ^ 31) :
    int value ≠ number (.outgoing .erestartsys) := by
  rw [int_of_lt small]
  have negative := number_neg (.outgoing .erestartsys)
  omega

theorem settle_sent {buflen successlen : Nat} (small : buflen < 2 ^ 31)
    (fits : successlen < 2 ^ 31) :
    settle buflen successlen (int buflen) = successlen := by
  have same : asSize buflen = buflen := by
    rw [asSize]
    omega
  rw [settle, int_of_lt small, if_pos same, int_of_lt fits]

/-- No errno is taken for a length. -/
theorem settle_errno {buflen successlen : Nat} {ret : Int}
    (small : buflen < 2 ^ 31) (negative : ret < 0) (errno : -2 ^ 31 ≤ ret) :
    settle buflen successlen ret = ret := by
  have differ : asSize ret ≠ buflen := by
    rw [asSize]
    omega
  rw [settle, if_neg differ, if_neg (Int.not_le.mpr negative)]

/-! ### The slot -/

section

variable {slot : Mailslot} {sleeps : List Bool}

theorem awaitIdle_idle
    (idle : slot.buflen = 0 ∨ true ∈ sleeps) :
    awaitIdle sleeps slot = { slot with buflen := 0 } := by
  induction sleeps generalizing slot with
  | nil =>
      rcases idle with empty | wrong
      · rw [awaitIdle, ← empty]
      · cases wrong
  | cons cleared rest inductionHypothesis =>
      by_cases empty : slot.buflen = 0
      · rw [awaitIdle, if_pos empty, ← empty]
      · rw [awaitIdle, if_neg empty]
        cases cleared with
        | true =>
            rw [if_pos rfl, inductionHypothesis (.inl rfl)]
        | false =>
            rw [if_neg Bool.false_ne_true]
            apply inductionHypothesis
            rcases idle with wrong | later
            · exact absurd wrong empty
            · rcases List.mem_cons.mp later with wrong | inside
              · cases wrong
              · exact .inr inside

theorem awaitIdle_busy (busy : true ∉ sleeps) :
    awaitIdle sleeps slot = slot := by
  induction sleeps with
  | nil => rfl
  | cons cleared rest inductionHypothesis =>
      rw [List.mem_cons, not_or] at busy
      cases cleared with
      | true => exact absurd rfl busy.1
      | false =>
          by_cases empty : slot.buflen = 0
          · rw [awaitIdle, if_pos empty]
          · rw [awaitIdle, if_neg empty, if_neg Bool.false_ne_true,
              inductionHypothesis busy.2]

end

/-- The slot with a message for a peer. -/
def filled (slot : Mailslot) (body : List UInt8) (peer : Nat) : Mailslot :=
  { slot with
    buflen := body.length
    lastResponder := peer
    buf := body ++ 0 :: slot.buf.drop (body.length + 1) }

/-- The slot is filled and the doorbell of the peer is rung. -/
def State.delivered (s : State) (adapter : Adapter) (body : List UInt8)
    (peer : Nat) : State :=
  { s with
    slot := filled s.slot body peer
    rung := s.rung ++
      [{ vector := adapter.myId, peer := UInt16.ofNat peer }] }

theorem delivers_filled {slot : Mailslot} {body : List UInt8} {peer : Nat} :
    Delivers slot (filled slot body peer) body peer where
  buflen := rfl
  held := List.take_left' rfl
  nul := by
    rw [filled, List.getElem?_append_right (Nat.le_refl _), Nat.sub_self]
    rfl
  lastResponder := rfl
  behind := by
    have split : body ++ 0 :: slot.buf.drop (body.length + 1) =
        (body ++ [0]) ++ slot.buf.drop (body.length + 1) := by
      rw [List.append_assoc]
      rfl
    rw [filled, split]
    exact List.drop_left' (List.length_append ..)
  others := ⟨rfl, rfl, rfl⟩

section

variable {adapter : Adapter} {cid sid : Int} {start : Nat}
  {body : List UInt8} {sleeps : List Bool} {s : State} {peer : Nat}

/-- An attempt that finds the slot idle. -/
theorem famezCreateOutgoing_idle
    (routed : createOutgoing adapter.serverId adapter.maxBuflen cid sid
      body.length = .ok peer)
    (idle : s.slot.buflen = 0 ∨ true ∈ sleeps)
    (room : body.length < s.slot.buf.length)
    (holds : slice s.wbuf start body.length = some body) :
    famezCreateOutgoing adapter cid sid start body.length sleeps s =
      some (int body.length, s.delivered adapter body peer) := by
  have stored : put s.slot.buf body.length 0 =
      some (s.slot.buf.set body.length 0) := if_pos room
  have copied : copyIn (s.slot.buf.set body.length 0) body =
      some (body ++ 0 :: s.slot.buf.drop (body.length + 1)) := by
    have fits : body.length ≤ (s.slot.buf.set body.length 0).length := by
      rw [List.length_set]
      exact Nat.le_of_lt room
    have front : (s.slot.buf.take body.length).length = body.length :=
      List.length_take_of_le (Nat.le_of_lt room)
    rw [CBuffer.copyIn_of_le fits, List.set_eq_take_append_cons_drop,
      if_pos room, List.drop_left' front]
  unfold famezCreateOutgoing
  rw [routed]
  dsimp only
  rw [awaitIdle_idle idle, if_neg (fun busy => busy rfl), stored]
  dsimp only [Option.bind_eq_bind, Option.bind_some]
  rw [holds]
  dsimp only [Option.bind_some]
  rw [copied]
  rfl

theorem famezCreateOutgoing_busy
    (routed : createOutgoing adapter.serverId adapter.maxBuflen cid sid
      body.length = .ok peer)
    (busy : s.slot.buflen ≠ 0) (waits : true ∉ sleeps) :
    famezCreateOutgoing adapter cid sid start body.length sleeps s =
      some (number (.outgoing .erestartsys), s) := by
  unfold famezCreateOutgoing
  rw [routed]
  dsimp only
  rw [awaitIdle_busy waits, if_pos busy]

/-- A write that finds no peer or nothing to send gives up at once. -/
theorem famezCreateOutgoing_error {errno : Outgoing.Errno}
    (refused : createOutgoing adapter.serverId adapter.maxBuflen cid sid
      body.length = .error errno) :
    famezCreateOutgoing adapter cid sid start body.length sleeps s =
      some (number (.outgoing errno), s) := by
  unfold famezCreateOutgoing
  rw [refused]

theorem createOutgoing_ne_erestartsys {serverId maxBuflen buflen : Nat} :
    createOutgoing serverId maxBuflen cid sid buflen ≠
      .error .erestartsys := by
  intro restarts
  unfold createOutgoing at restarts
  dsimp only at restarts
  split at restarts
  · cases restarts
  · split at restarts
    · cases restarts
    · split at restarts
      · cases restarts
      · split at restarts
        · cases restarts
        · cases restarts

/-! ### The attempts -/

variable {attempts : List (List Bool)} {successlen : Nat}

/-- An attempt that makes way for the next one. -/
theorem submit_restart {later : List (List Bool)} {t : State}
    (attempt : famezCreateOutgoing adapter cid sid start body.length sleeps s =
      some (number (.outgoing .erestartsys), t)) :
    submit adapter cid sid start body.length successlen (sleeps :: later) s =
      submit adapter cid sid start body.length successlen later t := by
  rw [submit, attempt, Option.bind_eq_bind, Option.bind_some]
  exact if_pos rfl

/-- An attempt that is the last one. -/
theorem submit_settle {later : List (List Bool)} {ret : Int} {t : State}
    (attempt : famezCreateOutgoing adapter cid sid start body.length sleeps s =
      some (ret, t)) (last : ret ≠ number (.outgoing .erestartsys)) :
    submit adapter cid sid start body.length successlen (sleeps :: later) s =
      some (settle body.length successlen ret, t) := by
  rw [submit, attempt, Option.bind_eq_bind, Option.bind_some]
  exact if_neg last

theorem submit_error {errno : Outgoing.Errno}
    (refused : createOutgoing adapter.serverId adapter.maxBuflen cid sid
      body.length = .error errno)
    (small : body.length < 2 ^ 31) (some? : attempts ≠ []) :
    submit adapter cid sid start body.length successlen attempts s =
      some (number (.outgoing errno), s) := by
  cases attempts with
  | nil => exact absurd rfl some?
  | cons sleeps later =>
      have noRestart : number (.outgoing errno) ≠
          number (.outgoing .erestartsys) := by
        cases errno with
        | erestartsys => exact absurd refused createOutgoing_ne_erestartsys
        | enetunreach => decide
        | ebadslt => decide
        | e2big => decide
        | enodata => decide
        | etimedout => decide
      rw [submit_settle (famezCreateOutgoing_error refused) noRestart,
        settle_errno small (number_neg _) (number_range _).1]

/-- The first attempt that finds the slot idle sends. -/
theorem submit_idle
    (routed : createOutgoing adapter.serverId adapter.maxBuflen cid sid
      body.length = .ok peer)
    (idle : s.slot.buflen = 0 ∧ attempts ≠ [] ∨
      ∃ sleeps ∈ attempts, true ∈ sleeps)
    (room : body.length < s.slot.buf.length)
    (holds : slice s.wbuf start body.length = some body)
    (small : body.length < 2 ^ 31) (fits : successlen < 2 ^ 31) :
    submit adapter cid sid start body.length successlen attempts s =
      some ((successlen : Int), s.delivered adapter body peer) := by
  induction attempts with
  | nil =>
      rcases idle with ⟨-, wrong⟩ | ⟨sleeps, wrong, -⟩
      · exact absurd rfl wrong
      · cases wrong
  | cons sleeps later inductionHypothesis =>
      by_cases now : s.slot.buflen = 0 ∨ true ∈ sleeps
      · rw [submit_settle (famezCreateOutgoing_idle routed now room holds)
          (int_ne_erestartsys small), settle_sent small fits]
      · rw [not_or] at now
        rw [submit_restart (famezCreateOutgoing_busy routed now.1 now.2)]
        apply inductionHypothesis
        rcases idle with ⟨wrong, -⟩ | ⟨others, member, clears⟩
        · exact absurd wrong now.1
        · rcases List.mem_cons.mp member with rfl | inside
          · exact absurd clears now.2
          · exact .inr ⟨others, inside, clears⟩

/-- A slot that stays busy times out. -/
theorem submit_busy
    (routed : createOutgoing adapter.serverId adapter.maxBuflen cid sid
      body.length = .ok peer)
    (busy : s.slot.buflen ≠ 0)
    (waits : ∀ sleeps ∈ attempts, true ∉ sleeps) :
    submit adapter cid sid start body.length successlen attempts s =
      some (number (.outgoing .etimedout), s) := by
  induction attempts with
  | nil => rfl
  | cons sleeps later inductionHypothesis =>
      rw [submit_restart (famezCreateOutgoing_busy routed busy
        (waits sleeps (List.mem_cons_self ..)))]
      apply inductionHypothesis
      intro others member
      exact waits others (List.mem_cons_of_mem _ member)

end

/-! ### The destination -/

theorem toNat_char (byte : UInt8) :
    (Char.ofNat byte.toNat).toNat = byte.toNat := by
  have valid : byte.toNat.isValidChar := by
    have small := byte.toNat_lt
    left
    omega
  rw [Char.ofNat, dif_pos valid]
  rfl

theorem comma_mem_chars {text : List UInt8} : ',' ∈ chars text ↔ 44 ∈ text := by
  rw [chars, List.mem_map]
  constructor
  · rintro ⟨byte, member, comma⟩
    have code : byte.toNat = 44 := by
      rw [← toNat_char byte, comma]
      rfl
    have same : byte = 44 := UInt8.toNat_inj.mp code
    rwa [same] at member
  · intro member
    exact ⟨44, member, rfl⟩

/-- The two halves of a pair. -/
theorem chars_pair {before behind : List UInt8} (first : 44 ∉ before) :
    ',' ∈ chars (before ++ 44 :: behind) ∧
      (chars (before ++ 44 :: behind)).takeWhile
        (fun c => decide (c ≠ ',')) = chars before ∧
      ((chars (before ++ 44 :: behind)).dropWhile
        fun c => decide (c ≠ ',')).tail = chars behind := by
  have whole : chars (before ++ 44 :: behind) =
      chars before ++ ',' :: chars behind := List.map_append
  have noComma : ∀ c ∈ chars before, decide (c ≠ ',') = true := by
    intro c member
    apply decide_eq_true
    rintro rfl
    exact first (comma_mem_chars.mp member)
  refine ⟨?_, ?_, ?_⟩
  · rw [whole]
    exact List.mem_append_right _ (List.mem_cons_self ..)
  · rw [whole, List.takeWhile_append_of_pos noComma,
      List.takeWhile_cons_of_neg (by simp), List.append_nil]
  · rw [whole, List.dropWhile_append_of_pos noComma,
      List.dropWhile_cons_of_neg (by simp)]
    rfl

theorem cstring_front {text after : List UInt8} (nulFree : 0 ∉ text) :
    CBuffer.cstring (text ++ 0 :: after) 0 = some text := by
  have front := @CBuffer.cstring_append [] after text nulFree
  rwa [List.nil_append, List.length_nil] at front

theorem noName_of_comma {text : List Char} (comma : ',' ∈ text) :
    text ∉ serverNames := by
  intro member
  have plain : ∀ name ∈ serverNames, ',' ∉ name := by decide
  exact plain text member comma

/-- The string is resolved inside the buffer, and what is behind it stays. -/
theorem resolve_eq {serverId : Nat} (narrow : serverId < 2 ^ 31)
    {text : List UInt8} (nulFree : 0 ∉ text) (after : List UInt8) :
    ∃ front, front.length = text.length ∧
      resolve serverId (text ++ 0 :: after) =
        some (destination serverId (chars text), front ++ 0 :: after) := by
  unfold resolve destination
  rw [cstring_front nulFree, Option.bind_eq_bind, Option.bind_some,
    int_of_lt narrow]
  by_cases name : chars text ∈ serverNames
  · rw [if_pos name, if_pos name]
    exact ⟨text, rfl, rfl⟩
  rw [if_neg name, if_neg name]
  by_cases comma : 44 ∈ text
  · obtain ⟨before, behind, rfl, first⟩ := List.eq_append_cons_of_mem comma
    have nulFreeBefore : 0 ∉ before := fun member =>
      nulFree (List.mem_append_left _ member)
    have nulFreeBehind : 0 ∉ behind := fun member =>
      nulFree (List.mem_append_right _ (List.mem_cons_of_mem _ member))
    obtain ⟨has, left, right⟩ := @chars_pair before behind first
    have second : CBuffer.cstring (before ++ 0 :: (behind ++ 0 :: after))
        (before.length + 1) = some behind := by
      have found := @CBuffer.cstring_append (before ++ [0]) after behind
        nulFreeBehind
      rwa [List.append_assoc, List.length_append] at found
    refine ⟨before ++ 0 :: behind, ?_, ?_⟩
    · rw [List.length_append, List.length_append]
      rfl
    rw [List.append_assoc, List.cons_append,
      CBuffer.strchr_found first nulFreeBefore, if_pos has, left, right,
      Option.bind_eq_bind, Option.bind_some]
    dsimp only
    rw [CBuffer.put_append, Option.bind_some, cstring_front nulFreeBefore,
      Option.bind_some, second, List.append_assoc, List.cons_append]
    cases Kstrto.kstrtoint (chars before) with
    | error error => rfl
    | ok sid =>
        dsimp only
        rw [Option.bind_some]
        cases Kstrto.kstrtoint (chars behind) with
        | error error => rfl
        | ok cid => rfl
  · refine ⟨text, rfl, ?_⟩
    rw [CBuffer.strchr_missing comma nulFree (by decide),
      if_neg (mt comma_mem_chars.mp comma), Option.bind_eq_bind,
      Option.bind_some]
    dsimp only
    cases Kstrto.kstrtoint (chars text) with
    | error error => rfl
    | ok cid => rfl

/-- The texts that a destination is made of. -/
theorem destination_ok {serverId : Nat} {text : List Char} {cid sid : Int}
    (ok : destination serverId text = .ok (cid, sid)) :
    text ∈ serverNames ∧ cid = serverId ∧ sid = famezSidCidIsPeerId ∨
      text ∉ serverNames ∧ ',' ∉ text ∧ Kstrto.kstrtoint text = .ok cid ∧
        sid = famezSidCidIsPeerId ∨
      ',' ∈ text ∧
        Kstrto.kstrtoint (text.takeWhile fun c => decide (c ≠ ',')) =
          .ok sid ∧
        Kstrto.kstrtoint (text.dropWhile fun c => decide (c ≠ ',')).tail =
          .ok cid := by
  unfold destination at ok
  by_cases name : text ∈ serverNames
  · rw [if_pos name] at ok
    cases ok
    exact .inl ⟨name, rfl, rfl⟩
  rw [if_neg name] at ok
  by_cases comma : ',' ∈ text
  · rw [if_pos comma] at ok
    split at ok
    · cases ok
    · rename_i first
      split at ok
      · cases ok
      · rename_i second
        cases ok
        exact .inr (.inr ⟨comma, first, second⟩)
  · rw [if_neg comma] at ok
    split at ok
    · cases ok
    · rename_i parsed
      cases ok
      exact .inr (.inl ⟨name, comma, parsed, rfl⟩)

section

variable {serverId peer : Nat} {text : List Char} {cid sid : Int}

theorem destination_name (name : text ∈ serverNames) :
    destination serverId text = .ok (serverId, famezSidCidIsPeerId) :=
  if_pos name

theorem destination_single (noName : text ∉ serverNames)
    (single : ',' ∉ text) (parsed : Kstrto.kstrtoint text = .ok cid) :
    destination serverId text = .ok (cid, famezSidCidIsPeerId) := by
  rw [destination, if_neg noName, if_neg single, parsed]

theorem destination_comma (comma : ',' ∈ text)
    (first : Kstrto.kstrtoint (text.takeWhile fun c => decide (c ≠ ',')) =
      .ok sid)
    (second : Kstrto.kstrtoint
      (text.dropWhile fun c => decide (c ≠ ',')).tail = .ok cid) :
    destination serverId text = .ok (cid, sid) := by
  rw [destination, if_neg (noName_of_comma comma), if_pos comma, first, second]

/-- An `int` whose 32 bits are a small number is that number. -/
theorem toNat_eq_iff {value : Int}
    (range : -2 ^ 31 ≤ value ∧ value < 2 ^ 31) (small : peer < 2 ^ 31) :
    (value % 2 ^ 32).toNat = peer ↔ value = peer := by
  omega

theorem peerIdOf_mark :
    peerIdOf cid famezSidCidIsPeerId = (cid % 2 ^ 32).toNat := by
  rw [peerIdOf, if_pos rfl]

theorem peerIdOf_link :
    peerIdOf cid 27 = (cid.tdiv 100 % 2 ^ 32).toNat := by
  rw [peerIdOf, if_neg (by decide)]

theorem tdiv_range (range : -2 ^ 31 ≤ cid ∧ cid < 2 ^ 31) :
    -2 ^ 31 ≤ cid.tdiv 100 ∧ cid.tdiv 100 < 2 ^ 31 := by
  obtain ⟨low, high⟩ := range
  rcases Int.le_total 0 cid with positive | negative
  · rw [Int.tdiv_eq_ediv_of_nonneg positive]
    omega
  · have back : cid = -(-cid) := (Int.neg_neg cid).symm
    rw [back, Int.neg_tdiv, Int.tdiv_eq_ediv_of_nonneg (by omega)]
    omega

/-- The peers that a text leads to. -/
theorem resolves_iff (narrow : serverId < 2 ^ 16) (high : peer ≤ serverId) :
    Resolves serverId text peer ↔
      ∃ cid sid, destination serverId text = .ok (cid, sid) ∧
        (sid = 27 ∨ sid = famezSidCidIsPeerId) ∧ peerIdOf cid sid = peer := by
  have small : peer < 2 ^ 31 := by
    omega
  constructor
  · intro resolves
    cases resolves with
    | keyword name same =>
        refine ⟨_, _, destination_name name, .inr rfl, ?_⟩
        rw [peerIdOf_mark, same]
        omega
    | peerId noName single id =>
        refine ⟨_, _, destination_single noName single id, .inr rfl, ?_⟩
        rw [peerIdOf_mark]
        exact (toNat_eq_iff (Kstrto.kstrtoint_range id) small).mpr rfl
    | pair comma sid parsed quotient =>
        refine ⟨_, _, destination_comma comma sid parsed, .inl rfl, ?_⟩
        rw [peerIdOf_link]
        exact (toNat_eq_iff (tdiv_range (Kstrto.kstrtoint_range parsed))
          small).mpr quotient
    | escape comma sid id =>
        refine ⟨_, _, destination_comma comma sid id, .inr rfl, ?_⟩
        rw [peerIdOf_mark]
        exact (toNat_eq_iff (Kstrto.kstrtoint_range id) small).mpr rfl
  · rintro ⟨cid, sid, ok, known, peerId⟩
    rcases destination_ok ok with ⟨name, rfl, rfl⟩ |
      ⟨noName, single, id, rfl⟩ | ⟨comma, first, second⟩
    · rw [peerIdOf_mark] at peerId
      exact .keyword name (by omega)
    · rw [peerIdOf_mark] at peerId
      have same := (toNat_eq_iff (Kstrto.kstrtoint_range id) small).mp peerId
      rw [same] at id
      exact .peerId noName single id
    · have range := Kstrto.kstrtoint_range second
      rcases known with rfl | rfl
      · rw [peerIdOf_link] at peerId
        exact .pair comma first second
          ((toNat_eq_iff (tdiv_range range) small).mp peerId)
      · rw [peerIdOf_mark] at peerId
        have same := (toNat_eq_iff range small).mp peerId
        rw [same] at second
        exact .escape comma first second

/-- The calls that get past the head. -/
theorem createOutgoing_ok_iff {maxBuflen buflen : Nat} :
    createOutgoing serverId maxBuflen cid sid buflen = .ok peer ↔
      (sid = 27 ∨ sid = famezSidCidIsPeerId) ∧ peerIdOf cid sid = peer ∧
        (1 ≤ peer ∧ peer ≤ serverId) ∧ buflen < maxBuflen ∧ buflen ≠ 0 := by
  unfold createOutgoing
  dsimp only
  constructor
  · intro passes
    split at passes
    · cases passes
    · split at passes
      · cases passes
      · split at passes
        · cases passes
        · split at passes
          · cases passes
          · rename_i known inside short nonempty
            cases passes
            refine ⟨?_, rfl, ?_, ?_, nonempty⟩
            · by_cases link : sid = 27
              · exact .inl link
              · exact .inr (of_not_not fun other => known ⟨link, other⟩)
            · omega
            · omega
  · rintro ⟨known, rfl, inside, short, nonempty⟩
    rw [if_neg (by omega), if_neg (by omega), if_neg (by omega),
      if_neg nonempty]

end

/-! ### The write -/

section

variable {device : Device} {waits : Waits} {buf header body : List UInt8}
  {peer : Nat} {cid sid : Int}

/-- The first colon of the buffer splits it, and the header holds no NUL. -/
structure Splits (buf header body : List UInt8) : Prop where
  whole : buf = header ++ 58 :: body
  first : 58 ∉ header
  noNul : 0 ∉ header

theorem Sends.splits (sends : Sends device waits buf header body peer) :
    Splits buf header body := ⟨sends.split, sends.first, sends.noNul⟩

theorem Splits.unique {otherHeader otherBody : List UInt8}
    (splits : Splits buf header body)
    (others : Splits buf otherHeader otherBody) :
    otherHeader = header ∧ otherBody = body :=
  CBuffer.split_unique (others.whole.symm.trans splits.whole) others.first
    splits.first

/-- A write that sends is routed to its peer. -/
theorem Sends.routed {otherHeader otherBody : List UInt8}
    (sends : Sends device waits buf otherHeader otherBody peer)
    (splits : Splits buf header body) :
    ∃ cid sid,
      destination device.adapter.serverId (chars header) = .ok (cid, sid) ∧
      createOutgoing device.adapter.serverId device.adapter.maxBuflen cid sid
        body.length = .ok peer := by
  obtain ⟨rfl, rfl⟩ := splits.unique sends.splits
  obtain ⟨cid, sid, ok, known, peerId⟩ :=
    (resolves_iff device.adapter.narrow sends.high).mp sends.resolves
  have short : otherBody.length < device.adapter.maxBuflen := by
    have fits := sends.short
    rw [sends.split, List.length_append, List.length_cons] at fits
    omega
  have nonempty : otherBody.length ≠ 0 := fun empty =>
    sends.nonempty (List.length_eq_zero_iff.mp empty)
  exact ⟨cid, sid, ok, createOutgoing_ok_iff.mpr
    ⟨known, peerId, ⟨sends.low, sends.high⟩, short, nonempty⟩⟩

/-- A write that is routed to a peer sends, once the slot is idle. -/
theorem sends_of_routed (short : buf.length < device.adapter.maxBuflen - 1)
    (splits : Splits buf header body)
    (ok : destination device.adapter.serverId (chars header) =
      .ok (cid, sid))
    (routed : createOutgoing device.adapter.serverId device.adapter.maxBuflen
      cid sid body.length = .ok peer)
    (idle : device.state.slot.buflen = 0 ∨
      ∃ sleeps ∈ waits.attempts, true ∈ sleeps) :
    Sends device waits buf header body peer := by
  obtain ⟨known, peerId, inside, -, nonempty⟩ :=
    createOutgoing_ok_iff.mp routed
  have resolves := (resolves_iff device.adapter.narrow inside.2).mpr
    ⟨cid, sid, ok, known, peerId⟩
  exact
    { short := short
      split := splits.whole
      first := splits.first
      noNul := splits.noNul
      resolves := resolves
      low := inside.1
      high := inside.2
      nonempty := fun empty => nonempty (congrArg List.length empty)
      idle := idle }

/-- The user's bytes fit the write buffer, with a NUL behind them. -/
theorem copied (short : buf.length < device.adapter.maxBuflen - 1) :
    ∃ old after,
      copyIn device.state.wbuf buf = some (buf ++ old :: after) := by
  have size := device.wbufSize
  have fits : buf.length ≤ device.state.wbuf.length := by
    omega
  rw [CBuffer.copyIn_of_le fits]
  cases left : device.state.wbuf.drop buf.length with
  | nil =>
      have all := List.drop_eq_nil_iff.mp left
      omega
  | cons old after => exact ⟨old, after, rfl⟩

/-- Without a colon in front of a NUL nothing is sent. -/
theorem famezBridgeWrite_noColon {after before behind : List UInt8}
    {old : UInt8} (short : buf.length < device.adapter.maxBuflen - 1)
    (holds : copyIn device.state.wbuf buf = some (buf ++ old :: after))
    (split : buf ++ 0 :: after = before ++ 0 :: behind)
    (missing : 58 ∉ before) (nulFree : 0 ∉ before) :
    famezBridgeWrite device.adapter waits buf device.state =
      some (number .ebadmsg,
        { device.state with wbuf := buf ++ 0 :: after }) := by
  rw [famezBridgeWrite, if_neg (Nat.not_le.mpr short), holds,
    Option.bind_eq_bind, Option.bind_some, CBuffer.put_append,
    Option.bind_eq_bind, Option.bind_some, split,
    CBuffer.strchr_missing missing nulFree (by decide), Option.bind_eq_bind,
    Option.bind_some]

/-- With a colon the text in front of it is resolved, and the body stays where
it was. -/
theorem famezBridgeWrite_colon {after : List UInt8} {old : UInt8}
    (short : buf.length < device.adapter.maxBuflen - 1)
    (holds : copyIn device.state.wbuf buf = some (buf ++ old :: after))
    (splits : Splits buf header body) :
    ∃ s : State, s.slot = device.state.slot ∧ s.rung = device.state.rung ∧
      slice s.wbuf (header.length + 1) body.length = some body ∧
      famezBridgeWrite device.adapter waits buf device.state =
        match destination device.adapter.serverId (chars header) with
        | .error errno => some (number errno, s)
        | .ok (cid, sid) =>
            submit device.adapter cid sid (header.length + 1) body.length
              buf.length waits.attempts s := by
  have narrow : device.adapter.serverId < 2 ^ 31 :=
    Nat.lt_trans device.adapter.narrow (by decide)
  obtain ⟨front, size, resolved⟩ := @resolve_eq device.adapter.serverId narrow
    header splits.noNul (body ++ 0 :: after)
  have whole : buf ++ 0 :: after = header ++ 58 :: (body ++ 0 :: after) := by
    rw [splits.whole, List.append_assoc]
    rfl
  have left : buf.length - (header.length + 1) = body.length := by
    rw [splits.whole, List.length_append, List.length_cons]
    omega
  have held : slice (front ++ 0 :: (body ++ 0 :: after)) (header.length + 1)
      body.length = some body := by
    have found := @CBuffer.slice_append (front ++ [0]) (0 :: after) body
    rwa [List.append_assoc, List.length_append, size] at found
  refine ⟨{ device.state with wbuf := front ++ 0 :: (body ++ 0 :: after) },
    rfl, rfl, held, ?_⟩
  rw [famezBridgeWrite, if_neg (Nat.not_le.mpr short), holds,
    Option.bind_eq_bind, Option.bind_some, CBuffer.put_append,
    Option.bind_eq_bind, Option.bind_some, whole,
    CBuffer.strchr_found splits.first splits.noNul, Option.bind_eq_bind,
    Option.bind_some]
  dsimp only
  rw [CBuffer.put_append, Option.bind_some, left, resolved, Option.bind_some]

/-- A write with a colon in front of any NUL. -/
theorem written_of_splits (short : buf.length < device.adapter.maxBuflen - 1)
    (splits : Splits buf header body) :
    ∃ result,
      famezBridgeWrite device.adapter waits buf device.state = some result ∧
        Written device waits buf result := by
  have allocated := device.adapter.allocated
  have bodyShort : body.length < buf.length := by
    rw [splits.whole, List.length_append, List.length_cons]
    omega
  obtain ⟨old, after, holds⟩ := @copied device buf short
  obtain ⟨s, slot, rung, held, returns⟩ :=
    @famezBridgeWrite_colon device waits buf header body after old short holds
      splits
  rw [returns]
  cases ok : destination device.adapter.serverId (chars header) with
  | error errno =>
      refine ⟨_, rfl, .failed ?_ (number_neg errno) slot rung⟩
      intro otherHeader otherBody peer sends
      obtain ⟨cid, sid, found, -⟩ := sends.routed splits
      rw [ok] at found
      cases found
  | ok ids =>
      obtain ⟨cid, sid⟩ := ids
      dsimp only
      cases routed : createOutgoing device.adapter.serverId
        device.adapter.maxBuflen cid sid body.length with
      | error errno =>
          refine ⟨_, submit_error routed (by omega) (List.cons_ne_nil _ _),
            .failed ?_ (number_neg _) slot rung⟩
          intro otherHeader otherBody peer sends
          obtain ⟨otherCid, otherSid, found, passes⟩ := sends.routed splits
          rw [ok] at found
          cases found
          rw [routed] at passes
          cases passes
      | ok peer =>
          by_cases idle : device.state.slot.buflen = 0 ∨
            ∃ sleeps ∈ waits.attempts, true ∈ sleeps
          · have now : s.slot.buflen = 0 ∧ waits.attempts ≠ [] ∨
                ∃ sleeps ∈ waits.attempts, true ∈ sleeps := by
              rw [slot]
              exact idle.imp_left fun empty => ⟨empty, List.cons_ne_nil _ _⟩
            have room : body.length < s.slot.buf.length := by
              rw [slot, device.slotSize]
              omega
            have delivers : Delivers device.state.slot
                (s.delivered device.adapter body peer).slot body
                peer := by
              rw [← slot]
              exact delivers_filled
            refine ⟨_, submit_idle routed now room held (by omega) (by omega),
              .sent (sends_of_routed short splits ok routed idle) delivers ?_⟩
            rw [← rung]
            rfl
          · have busy : s.slot.buflen ≠ 0 ∧
                ∀ sleeps ∈ waits.attempts, true ∉ sleeps := by
              rw [slot]
              exact ⟨fun empty => idle (.inl empty),
                fun sleeps member clears =>
                  idle (.inr ⟨sleeps, member, clears⟩)⟩
            refine ⟨_, submit_busy routed busy.1 busy.2,
              .failed ?_ (number_neg _) slot rung⟩
            intro otherHeader otherBody peer sends
            exact idle sends.idle

/-- Every write returns, with each access inside its array. -/
theorem famezBridgeWrite_written (device : Device) (waits : Waits)
    (buf : List UInt8) :
    ∃ result,
      famezBridgeWrite device.adapter waits buf device.state = some result ∧
        Written device waits buf result := by
  by_cases short : buf.length < device.adapter.maxBuflen - 1
  swap
  · refine ⟨_, if_pos (Nat.not_lt.mp short), ?_⟩
    apply Written.failed
    · intro header body peer sends
      exact short sends.short
    · exact number_neg .e2big
    · rfl
    · rfl
  obtain ⟨old, after, holds⟩ := @copied device buf short
  rcases CBuffer.split_or_nul 58 buf after with
    ⟨header, body, whole, first, noNul⟩ |
    ⟨before, behind, split, missing, nulFree⟩
  · exact written_of_splits short ⟨whole, first, noNul⟩
  · refine ⟨_, famezBridgeWrite_noColon short holds split missing nulFree, ?_⟩
    apply Written.failed
    · intro header body peer sends
      have found := @CBuffer.strchr_found header (body ++ 0 :: after) 58
        sends.first sends.noNul
      have none := @CBuffer.strchr_missing behind before 58 missing nulFree
        (by decide)
      rw [← split, sends.split, List.append_assoc, List.cons_append, found]
        at none
      cases none
    · exact number_neg .ebadmsg
    · rfl
    · rfl

end

/-- Adapter 3 of a server 15, with slots of 384 bytes. -/
def third : Device where
  adapter :=
    { serverId := 15
      maxBuflen := 512 - 128
      myId := 3
      positive := by decide
      allocated := by decide
      narrow := by decide }
  state :=
    { slot :=
        { buflen := 0
          peerId := 3
          lastResponder := 0
          peerSid := 0
          peerCid := 0
          buf := List.replicate 384 0 }
      wbuf := List.replicate 384 0
      rung := [] }
  wbufSize := List.length_replicate
  slotSize := List.length_replicate

set_option maxRecDepth 4000 in
example : (famezBridgeWrite third.adapter ⟨[], [], []⟩
    (Bridge.toBytes "1:hi".toList) third.state).map
      (fun done => (done.1, done.2.slot.buf.take 3, done.2.rung)) =
    some (4, [104, 105, 0], [{ vector := 3, peer := 1 }]) := by decide

/-! ### The submissions of Bridge -/

section

variable {device : Device} {waits : Waits} {buf header body : List UInt8}
  {peer : Nat}

/-- The string that the header is has all its characters. -/
theorem cstring_eq_chars (noNul : 0 ∉ header) :
    cstring header = chars header := by
  have nonzero : ∀ byte ∈ header, decide (byte ≠ 0) = true := by
    intro byte member
    apply decide_eq_true
    rintro rfl
    exact noNul member
  rw [cstring, List.takeWhile_eq_self_iff.mpr nonzero]
  rfl

/-- What a write that sends submits. -/
theorem Sends.submits (sends : Sends device waits buf header body peer) :
    Bridge.famezBridgeWrite device.adapter.toAdapter buf =
      .ok
        { ringer :=
            { vector := device.adapter.myId
              peer := UInt16.ofNat peer }
          body := body } := by
  obtain ⟨cid, sid, ok, routed⟩ := sends.routed sends.splits
  have split : Bridge.splitAtColon buf = some (header, body) := by
    rw [sends.split]
    exact Bridge.splitAtColon_append sends.first sends.noNul body
  rw [Bridge.famezBridgeWrite, if_neg (Nat.not_le.mpr sends.short), split]
  dsimp only
  rw [cstring_eq_chars sends.noNul, ok]
  dsimp only
  rw [routed]

/-- The writes that send are the submissions that find the slot idle. -/
theorem submits_iff {submission : Bridge.Submission} :
    Bridge.famezBridgeWrite device.adapter.toAdapter buf = .ok submission ∧
        (device.state.slot.buflen = 0 ∨
          ∃ sleeps ∈ waits.attempts, true ∈ sleeps) ↔
      ∃ header body peer, Sends device waits buf header body peer ∧
        submission =
          { ringer :=
              { vector := device.adapter.myId
                peer := UInt16.ofNat peer }
            body := body } := by
  constructor
  · rintro ⟨submits, idle⟩
    unfold Bridge.famezBridgeWrite at submits
    split at submits
    · cases submits
    · rename_i fits
      have short := Nat.not_le.mp fits
      split at submits
      · cases submits
      · rename_i header body split
        obtain ⟨whole, first, noNul⟩ := Bridge.splitAtColon_eq_some split
        rw [cstring_eq_chars noNul] at submits
        split at submits
        · cases submits
        · rename_i cid sid ok
          split at submits
          · cases submits
          · rename_i peer routed
            cases submits
            exact ⟨header, body, peer, sends_of_routed short
              ⟨whole, first, noNul⟩ ok routed idle, rfl⟩
  · rintro ⟨header, body, peer, sends, rfl⟩
    exact ⟨sends.submits, sends.idle⟩

/-- Whoever writes back what a read of a message stored sends nothing. -/
theorem echo_never_sends (sender : BridgeRead.Sender) (bytes : Memory)
    {buflen behind : Nat} {text : List UInt8}
    (returned : Bridge.famezBridgeRead sender.slot buflen = .ok text)
    (room : text.length ≤ buflen + behind) :
    ¬ Sends device waits
      ((BridgeRead.famezBridgeRead sender.slot buflen
        (BridgeRead.caller bytes buflen behind)).2.bytes.readBytes 0
          text.length) header body peer := by
  rw [BridgeRead.readBytes_of_returned bytes returned room,
    Bridge.famezBridgeRead_address returned]
  intro sends
  have cid := sender.cid
  obtain ⟨errno, fails⟩ := @Bridge.address_refused device.adapter.toAdapter
    sender.slot (by omega) (sender.slot.buf.take sender.slot.buflen)
  rw [sends.submits] at fails
  cases fails

/-- With the two numbers exchanged it does, if the slot is idle. -/
theorem swapped_address_sends (low : 1 ≤ peer)
    (high : peer ≤ device.adapter.serverId) (nonempty : body ≠ [])
    (fits : (Bridge.toBytes (Bridge.pair 27 (peer * 100))).length + 1 +
      body.length < device.adapter.maxBuflen - 1)
    (idle : device.state.slot.buflen = 0) :
    ∃ header, Sends device waits
      (Bridge.toBytes (Bridge.pair 27 (peer * 100)) ++ 58 :: body)
        header body peer := by
  have narrow := device.adapter.narrow
  have returns := Bridge.swapped_address_returns device.adapter.toAdapter low
    high (by omega) nonempty fits
  obtain ⟨header, sent, other, sends, same⟩ :=
    (@submits_iff device waits _ _).mp ⟨returns, .inl idle⟩
  have highest := sends.high
  injection same with rings bodies
  injection rings with _ peers
  have peers := congrArg UInt16.toNat peers
  have size : UInt16.size = 2 ^ 16 := rfl
  rw [UInt16.toNat_ofNat_of_lt' (by omega),
    UInt16.toNat_ofNat_of_lt' (by omega)] at peers
  subst bodies
  subst peers
  exact ⟨header, sends⟩

end

end FameZ.Kernel.BridgeWrite
