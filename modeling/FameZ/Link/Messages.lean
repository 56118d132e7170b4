/-
Module: FameZ.Link.Messages
Purpose: The five messages of the handshake as the texts that both languages
  format, and what the parser of the server and the Python clients makes of
  each.
Trusted boundary: none
Main exports: Msg, Msg.payload, Msg.render, csv, dictOf, csv2dict_csv,
  handleRequest_render, payload_injective
-/
import FameZ.Link.Requests

namespace FameZ.Link

open PyText
open Scanf (decimal decimal_injective isDigit_of_mem_decimal)

/-- The messages.  A tag is printed as Python's or C's `%d` of it. -/
inductive Msg where
  | linkRfc (ttc : Nat)
  | ctlWrite (pfmsid pfmcid sid cid : Int) (tag : Nat)
  | standaloneAck (tag : Nat)
  | peerAttribute
  | ack (cClass : Text) (sid0 cid0 : Int)
deriving DecidableEq

/-- The text without a tracker. -/
def Msg.payload : Msg → Text
  | .linkRfc ttc => "Link RFC TTC=".toList ++ decimal ttc ++ "us".toList
  | .ctlWrite pfmsid pfmcid sid cid tag =>
      "CTL-Write Space=0,PFMSID=".toList ++ decimalInt pfmsid ++
        ",PFMCID=".toList ++ decimalInt pfmcid ++ ",SID=".toList ++
        decimalInt sid ++ ",CID=".toList ++ decimalInt cid ++
        ",Tag=".toList ++ decimal tag
  | .standaloneAck tag =>
      "Standalone Acknowledgment Tag=".toList ++ decimal tag ++
        ",Reason=OK".toList
  | .peerAttribute => "Link CTL Peer-Attribute".toList
  | .ack cClass sid0 cid0 =>
      "Link CTL ACK C-Class=".toList ++ cClass ++ ",SID0=".toList ++
        decimalInt sid0 ++ ",CID0=".toList ++ decimalInt cid0

/-- The text, with a tracker or without. -/
def Msg.render (msg : Msg) : Option Int → Text
  | none => msg.payload
  | some tracker => stamp msg.payload tracker

/-! ### Comma separated values -/

/-- A text that fits between the separators. -/
def Clean (text : Text) : Prop :=
  ∀ c ∈ text, isSpace c = false ∧ c ≠ ',' ∧ c ≠ '='

instance (text : Text) : Decidable (Clean text) :=
  List.decidableBAll _ text

def csvItem (pair : Text × Text) : Text := pair.1 ++ '=' :: pair.2

def csv : List (Text × Text) → Text
  | [] => []
  | [pair] => csvItem pair
  | pair :: next :: rest => csvItem pair ++ ',' :: csv (next :: rest)

def dictOf (pairs : List (Text × Text)) : Attrs :=
  pairs.foldl (fun kv pair => kv.set pair.1 pair.2) .empty

/-- The pairs are clean. -/
def CleanPairs (pairs : List (Text × Text)) : Prop :=
  ∀ pair ∈ pairs, Clean pair.1 ∧ Clean pair.2

theorem Clean.visible {text : Text} (clean : Clean text) : Visible text :=
  fun c member => (clean c member).1

theorem clean_decimal (n : Nat) : Clean (decimal n) := by
  intro c member
  have digit := isDigit_of_mem_decimal member
  refine ⟨visible_decimal n c member, ?_, ?_⟩
  · rintro rfl
    exact absurd digit (by decide)
  · rintro rfl
    exact absurd digit (by decide)

theorem clean_decimalInt (value : Int) : Clean (decimalInt value) := by
  intro c member
  refine ⟨visible_decimalInt value c member, ?_, ?_⟩
  · rintro rfl
    exact not_mem_decimalInt value (by decide) (by decide) member
  · rintro rfl
    exact not_mem_decimalInt value (by decide) (by decide) member

theorem clean_append {first second : Text} (clean : Clean first)
    (cleanSecond : Clean second) : Clean (first ++ second) := by
  intro c member
  rcases List.mem_append.mp member with inside | inside
  · exact clean c inside
  · exact cleanSecond c inside

theorem mem_csvItem {pair : Text × Text} {c : Char}
    (clean : Clean pair.1 ∧ Clean pair.2) (member : c ∈ csvItem pair) :
    isSpace c = false ∧ c ≠ ',' := by
  rcases List.mem_append.mp member with inside | inside
  · exact ⟨(clean.1 c inside).1, (clean.1 c inside).2.1⟩
  · rcases List.mem_cons.mp inside with rfl | later
    · decide
    · exact ⟨(clean.2 c later).1, (clean.2 c later).2.1⟩

theorem visible_csv {pairs : List (Text × Text)} (clean : CleanPairs pairs) :
    Visible (csv pairs) := by
  induction pairs with
  | nil => exact fun c member => by cases member
  | cons pair rest inductionHypothesis =>
      have here : Visible (csvItem pair) := fun c member =>
        (mem_csvItem (clean pair (List.mem_cons_self ..)) member).1
      cases rest with
      | nil => exact here
      | cons next tail =>
          have later := inductionHypothesis fun other member =>
            clean other (List.mem_cons_of_mem _ member)
          rw [csv, visible_append]
          refine ⟨here, fun c member => ?_⟩
          rcases List.mem_cons.mp member with rfl | inside
          · rfl
          · exact later c inside

/-- The items come apart again. -/
theorem splitOn_csv {pairs : List (Text × Text)} (clean : CleanPairs pairs)
    (notEmpty : pairs ≠ []) :
    (csv pairs).splitOn ',' = pairs.map csvItem := by
  induction pairs with
  | nil => exact False.elim (notEmpty rfl)
  | cons pair rest inductionHypothesis =>
      have absent : ',' ∉ csvItem pair := fun member =>
        (mem_csvItem (clean pair (List.mem_cons_self ..)) member).2 rfl
      cases rest with
      | nil => exact List.splitOn_eq_singleton absent
      | cons next tail =>
          rw [csv, List.splitOn_append_cons_self_of_not_mem absent,
            inductionHypothesis
              (fun other member =>
                clean other (List.mem_cons_of_mem _ member))
              (List.cons_ne_nil _ _)]
          rfl

theorem splitOn_csvItem {pair : Text × Text}
    (clean : Clean pair.1 ∧ Clean pair.2) :
    (strip (csvItem pair)).splitOn '=' = [pair.1, pair.2] := by
  have visible : Visible (csvItem pair) := fun c member =>
    (mem_csvItem clean member).1
  rw [strip_of_visible visible, csvItem,
    List.splitOn_append_cons_self_of_not_mem
      (fun member => (clean.1 _ member).2.2 rfl),
    List.splitOn_eq_singleton (fun member => (clean.2 _ member).2.2 rfl)]

/-- What is printed as clean pairs reads back. -/
theorem csv2dict_csv {pairs : List (Text × Text)} (clean : CleanPairs pairs)
    (notEmpty : pairs ≠ []) : csv2dict (csv pairs) = dictOf pairs := by
  rw [csv2dict, strip_of_visible (visible_csv clean),
    splitOn_csv clean notEmpty, List.foldl_map, dictOf]
  generalize (OrderedDict.empty : Attrs) = kv
  clear notEmpty
  induction pairs generalizing kv with
  | nil => rfl
  | cons pair rest inductionHypothesis =>
      have here := clean pair (List.mem_cons_self ..)
      rw [List.foldl_cons, List.foldl_cons, splitOn_csvItem here]
      dsimp only
      rw [strip_of_visible here.1.visible, strip_of_visible here.2.visible]
      exact inductionHypothesis
        (fun other member => clean other (List.mem_cons_of_mem _ member)) _

/-! ### Different messages have different texts -/

/-- The class that is named has no separator in it. -/
def Msg.Plain : Msg → Prop
  | .ack cClass _ _ => ',' ∉ cClass ∧ '!' ∉ cClass
  | _ => True

/-- The text between the commas. -/
def Msg.items : Msg → List Text
  | .linkRfc ttc => ["Link RFC TTC=".toList ++ decimal ttc ++ "us".toList]
  | .ctlWrite pfmsid pfmcid sid cid tag =>
      ["CTL-Write Space=0".toList, "PFMSID=".toList ++ decimalInt pfmsid,
        "PFMCID=".toList ++ decimalInt pfmcid, "SID=".toList ++ decimalInt sid,
        "CID=".toList ++ decimalInt cid, "Tag=".toList ++ decimal tag]
  | .standaloneAck tag =>
      ["Standalone Acknowledgment Tag=".toList ++ decimal tag,
        "Reason=OK".toList]
  | .peerAttribute => ["Link CTL Peer-Attribute".toList]
  | .ack cClass sid0 cid0 =>
      ["Link CTL ACK C-Class=".toList ++ cClass,
        "SID0=".toList ++ decimalInt sid0, "CID0=".toList ++ decimalInt cid0]

theorem payload_eq_intercalate (msg : Msg) :
    msg.payload = [','].intercalate msg.items := by
  unfold Msg.payload
  cases msg with
  | linkRfc ttc => rw [Msg.items, List.intercalate_singleton]
  | ctlWrite pfmsid pfmcid sid cid tag =>
      simp only [Msg.items, List.intercalate_cons_cons,
        List.intercalate_singleton, List.append_assoc]
      rfl
  | standaloneAck tag =>
      simp only [Msg.items, List.intercalate_cons_cons,
        List.intercalate_singleton, List.append_assoc]
      rfl
  | peerAttribute => rw [Msg.items, List.intercalate_singleton]
  | ack cClass sid0 cid0 =>
      simp only [Msg.items, List.intercalate_cons_cons,
        List.intercalate_singleton, List.append_assoc]
      rfl

theorem not_mem_decimal {c : Char} (n : Nat) (digit : c.isDigit = false) :
    c ∉ decimal n := by
  intro member
  rw [isDigit_of_mem_decimal member] at digit
  cases digit

/-- A literal and a number after it. -/
theorem not_mem_field {c : Char} {literal : Text} (value : Int)
    (absent : c ∉ literal) (digit : c.isDigit = false) (sign : c ≠ '-') :
    c ∉ literal ++ decimalInt value := by
  rw [List.mem_append, not_or]
  exact ⟨absent, not_mem_decimalInt value digit sign⟩

theorem not_mem_items {msg : Msg} (plain : msg.Plain) :
    ∀ item ∈ msg.items, ',' ∉ item ∧ '!' ∉ item := by
  have field : ∀ (literal : Text) (value : Int),
      ',' ∉ literal → '!' ∉ literal →
        ',' ∉ literal ++ decimalInt value ∧ '!' ∉ literal ++ decimalInt value :=
    fun literal value comma bang =>
      ⟨not_mem_field value comma (by decide) (by decide),
        not_mem_field value bang (by decide) (by decide)⟩
  cases msg with
  | linkRfc ttc =>
      simp [Msg.items, not_mem_decimal ttc]
  | ctlWrite pfmsid pfmcid sid cid tag =>
      simp only [Msg.items, List.forall_mem_cons, List.not_mem_nil,
        false_imp_iff, implies_true, and_true]
      exact ⟨by decide, field _ pfmsid (by decide) (by decide),
        field _ pfmcid (by decide) (by decide),
        field _ sid (by decide) (by decide),
        field _ cid (by decide) (by decide),
        field _ tag (by decide) (by decide)⟩
  | standaloneAck tag =>
      simp only [Msg.items, List.forall_mem_cons, List.not_mem_nil,
        false_imp_iff, implies_true, and_true]
      exact ⟨field _ tag (by decide) (by decide), by decide⟩
  | peerAttribute => simp [Msg.items]
  | ack cClass sid0 cid0 =>
      simp only [Msg.items, List.forall_mem_cons, List.not_mem_nil,
        false_imp_iff, implies_true, and_true]
      refine ⟨?_, field _ sid0 (by decide) (by decide),
        field _ cid0 (by decide) (by decide)⟩
      simp only [List.mem_append, not_or]
      exact ⟨⟨by decide, plain.1⟩, by decide, plain.2⟩

theorem splitOn_payload {msg : Msg} (plain : msg.Plain) :
    msg.payload.splitOn ',' = msg.items := by
  rw [payload_eq_intercalate]
  apply List.splitOn_intercalate
  · exact fun item member => (not_mem_items plain item member).1
  · cases msg <;> exact List.cons_ne_nil _ _

/-- The token of the tracker starts with a character no payload has. -/
theorem bang_not_mem_payload {msg : Msg} (plain : msg.Plain) :
    '!' ∉ msg.payload := by
  rw [payload_eq_intercalate]
  intro member
  rcases mem_intercalate member with separator | ⟨item, isItem, inside⟩
  · exact absurd separator (by decide)
  · exact (not_mem_items plain item isItem).2 inside

theorem payload_injective {msg other : Msg} (plain : msg.Plain)
    (plainOther : other.Plain) (same : msg.payload = other.payload) :
    msg = other := by
  have items : msg.items = other.items := by
    rw [← splitOn_payload plain, same, splitOn_payload plainOther]
  have lengths := congrArg List.length items
  cases msg with
  | linkRfc ttc =>
      cases other with
      | linkRfc ttcOther =>
          simp only [Msg.items, List.cons.injEq, List.append_cancel_left_eq,
            List.append_cancel_right_eq, and_true] at items
          rw [decimal_injective items]
      | peerAttribute => simp [Msg.items] at items
      | _ => simp [Msg.items] at lengths
  | ctlWrite pfmsid pfmcid sid cid tag =>
      cases other with
      | ctlWrite pfmsidOther pfmcidOther sidOther cidOther tagOther =>
          simp only [Msg.items, List.cons.injEq, List.append_cancel_left_eq,
            true_and, and_true] at items
          obtain ⟨pfmsidEq, pfmcidEq, sidEq, cidEq, tagEq⟩ := items
          rw [decimalInt_injective pfmsidEq, decimalInt_injective pfmcidEq,
            decimalInt_injective sidEq, decimalInt_injective cidEq,
            decimal_injective tagEq]
      | _ => simp [Msg.items] at lengths
  | standaloneAck tag =>
      cases other with
      | standaloneAck tagOther =>
          simp only [Msg.items, List.cons.injEq, List.append_cancel_left_eq,
            and_true] at items
          rw [decimal_injective items]
      | _ => simp [Msg.items] at lengths
  | peerAttribute =>
      cases other with
      | peerAttribute => rfl
      | linkRfc ttcOther => simp [Msg.items] at items
      | _ => simp [Msg.items] at lengths
  | ack cClass sid0 cid0 =>
      cases other with
      | ack cClassOther sid0Other cid0Other =>
          simp only [Msg.items, List.cons.injEq, List.append_cancel_left_eq,
            and_true] at items
          obtain ⟨classEq, sid0Eq, cid0Eq⟩ := items
          rw [classEq, decimalInt_injective sid0Eq,
            decimalInt_injective cid0Eq]
      | _ => simp [Msg.items] at lengths

/-- A rendered text comes apart into payload and tracker. -/
theorem splitToken_render {msg : Msg} (plain : msg.Plain)
    (tracker : Option Int) :
    splitToken trackerToken (msg.render tracker) =
      msg.payload :: (tracker.map decimalInt).toList := by
  have absent := bang_not_mem_payload plain
  cases tracker with
  | none => exact splitToken_of_not_mem absent
  | some value =>
      have notInNumber : '!' ∉ decimalInt value :=
        not_mem_decimalInt value (by decide) (by decide)
      rw [Msg.render, stamp, List.append_assoc]
      have cut : splitToken ('!' :: "FZT=".toList) (msg.payload ++
          ('!' :: "FZT=".toList ++ decimalInt value)) =
          msg.payload :: splitToken ('!' :: "FZT=".toList)
            (decimalInt value) :=
        splitToken_append (decimalInt value) absent
      rw [splitToken_of_not_mem notInNumber] at cut
      exact cut

theorem render_injective {msg other : Msg} {tracker trackerOther : Option Int}
    (plain : msg.Plain) (plainOther : other.Plain)
    (same : msg.render tracker = other.render trackerOther) :
    msg = other := by
  have parts : msg.payload :: (tracker.map decimalInt).toList =
      other.payload :: (trackerOther.map decimalInt).toList := by
    rw [← splitToken_render plain, same, splitToken_render plainOther]
  exact payload_injective plain plainOther (List.cons.inj parts).1

/-! ### What the parser makes of them -/

/-- The tracker is taken off first. -/
theorem requestPayload_render {msg : Msg} (plain : msg.Plain)
    (tracker : Option Int) :
    requestPayload (msg.render tracker) = some (msg.payload, tracker) := by
  rw [requestPayload, splitToken_render plain]
  cases tracker with
  | none => rfl
  | some value =>
      simp only [Option.map_some, Option.toList_some, int?_decimalInt]

theorem handleRequest_render (si : ServerInvariant) {msg : Msg}
    (plain : msg.Plain) (tracker : Option Int) (env : Env) :
    handleRequest si (msg.render tracker) env =
      dispatch si msg.payload (env.follow tracker) := by
  rw [handleRequest_eq, requestPayload_render plain]

/-- The pairs of a CTL-Write. -/
def ctlWritePairs (pfmsid pfmcid sid cid : Int) (tag : Nat) :
    List (Text × Text) :=
  [("Space".toList, "0".toList), ("PFMSID".toList, decimalInt pfmsid),
    ("PFMCID".toList, decimalInt pfmcid), ("SID".toList, decimalInt sid),
    ("CID".toList, decimalInt cid), ("Tag".toList, decimal tag)]

def standaloneAckPairs (tag : Nat) : List (Text × Text) :=
  [("Tag".toList, decimal tag), ("Reason".toList, "OK".toList)]

/-- The pairs of an ACK, which become the attributes of the peer. -/
def ackPairs (cClass : Text) (sid0 cid0 : Int) : List (Text × Text) :=
  [("C-Class".toList, cClass), ("SID0".toList, decimalInt sid0),
    ("CID0".toList, decimalInt cid0)]

theorem cleanPairs_ctlWrite (pfmsid pfmcid sid cid : Int) (tag : Nat) :
    CleanPairs (ctlWritePairs pfmsid pfmcid sid cid tag) := by
  simp only [CleanPairs, ctlWritePairs, List.forall_mem_cons]
  exact ⟨by decide, ⟨by decide, clean_decimalInt pfmsid⟩,
    ⟨by decide, clean_decimalInt pfmcid⟩, ⟨by decide, clean_decimalInt sid⟩,
    ⟨by decide, clean_decimalInt cid⟩, ⟨by decide, clean_decimal tag⟩,
    List.forall_mem_nil _⟩

theorem cleanPairs_standaloneAck (tag : Nat) :
    CleanPairs (standaloneAckPairs tag) := by
  simp only [CleanPairs, standaloneAckPairs, List.forall_mem_cons]
  exact ⟨⟨by decide, clean_decimal tag⟩, by decide, List.forall_mem_nil _⟩

theorem cleanPairs_ack {cClass : Text} (clean : Clean cClass)
    (sid0 cid0 : Int) : CleanPairs (ackPairs cClass sid0 cid0) := by
  simp only [CleanPairs, ackPairs, List.forall_mem_cons]
  exact ⟨⟨by decide, clean⟩, ⟨by decide, clean_decimalInt sid0⟩,
    ⟨by decide, clean_decimalInt cid0⟩, List.forall_mem_nil _⟩

/-- The words of each payload. -/
theorem fields_ctlWrite (pfmsid pfmcid sid cid : Int) (tag : Nat) :
    fields (Msg.ctlWrite pfmsid pfmcid sid cid tag).payload =
      ["CTL-Write".toList, csv (ctlWritePairs pfmsid pfmcid sid cid tag)] := by
  have words : (Msg.ctlWrite pfmsid pfmcid sid cid tag).payload =
      "CTL-Write".toList ++
        ' ' :: csv (ctlWritePairs pfmsid pfmcid sid cid tag) := by
    unfold Msg.payload
    simp only [ctlWritePairs, csv, csvItem, List.append_assoc]
    rfl
  rw [words, fields_append _ (by decide) (by decide),
    fields_word
      (visible_csv (cleanPairs_ctlWrite pfmsid pfmcid sid cid tag)) (by
      simp [ctlWritePairs, csv, csvItem])]

theorem fields_standaloneAck (tag : Nat) :
    fields (Msg.standaloneAck tag).payload =
      ["Standalone".toList, "Acknowledgment".toList,
        csv (standaloneAckPairs tag)] := by
  have words : (Msg.standaloneAck tag).payload =
      "Standalone".toList ++ ' ' :: ("Acknowledgment".toList ++
        ' ' :: csv (standaloneAckPairs tag)) := by
    unfold Msg.payload
    simp only [standaloneAckPairs, csv, csvItem, List.append_assoc]
    rfl
  rw [words, fields_append _ (by decide) (by decide),
    fields_append _ (by decide) (by decide),
    fields_word (visible_csv (cleanPairs_standaloneAck tag)) (by
      simp [standaloneAckPairs, csv, csvItem])]

theorem fields_linkRfc (ttc : Nat) :
    fields (Msg.linkRfc ttc).payload =
      ["Link".toList, "RFC".toList,
        csv [("TTC".toList, decimal ttc ++ "us".toList)]] := by
  have words : (Msg.linkRfc ttc).payload =
      "Link".toList ++ ' ' :: ("RFC".toList ++
        ' ' :: csv [("TTC".toList, decimal ttc ++ "us".toList)]) := by
    unfold Msg.payload
    simp only [csv, csvItem, List.append_assoc]
    rfl
  have visible : Visible
      (csv [("TTC".toList, decimal ttc ++ "us".toList)]) := by
    apply visible_csv
    simp only [CleanPairs, List.forall_mem_cons]
    exact ⟨⟨by decide, clean_append (clean_decimal ttc) (by decide)⟩,
      List.forall_mem_nil _⟩
  rw [words, fields_append _ (by decide) (by decide),
    fields_append _ (by decide) (by decide),
    fields_word visible (by simp [csv, csvItem])]

/-- An ACK starts with three words whatever the class is. -/
theorem fields_ack (cClass : Text) (sid0 cid0 : Int) :
    fields (Msg.ack cClass sid0 cid0).payload =
      "Link".toList :: "CTL".toList :: "ACK".toList ::
        fields (csv (ackPairs cClass sid0 cid0)) := by
  have words : (Msg.ack cClass sid0 cid0).payload =
      "Link".toList ++ ' ' :: ("CTL".toList ++ ' ' :: ("ACK".toList ++
        ' ' :: csv (ackPairs cClass sid0 cid0))) := by
    unfold Msg.payload
    simp only [ackPairs, csv, csvItem, List.append_assoc]
    rfl
  rw [words, fields_append _ (by decide) (by decide),
    fields_append _ (by decide) (by decide),
    fields_append _ (by decide) (by decide)]

/-- The names are put together from the words. -/
theorem chelsea_ctlWrite (rest : List Text) :
    chelsea ("CTL-Write".toList :: rest) = (.ctlWrite, rest) := rfl

theorem chelsea_standaloneAck (rest : List Text) :
    chelsea ("Standalone".toList :: "Acknowledgment".toList :: rest) =
      (.standaloneAcknowledgment, rest) := rfl

theorem chelsea_linkRfc (rest : List Text) :
    chelsea ("Link".toList :: "RFC".toList :: rest) = (.linkRfc, rest) := rfl

theorem chelsea_linkCtl (rest : List Text) :
    chelsea ("Link".toList :: "CTL".toList :: rest) = (.linkCtl, rest) := rfl

/-! ### What the handlers make of them -/

/-- The attributes an ACK leaves. -/
def ackAttrs (cClass : Text) (sid0 cid0 : Int) : Attrs :=
  dictOf (ackPairs cClass sid0 cid0)

/-- The environment once a client took a CTL-Write. -/
def Env.configure (env : Env) (sid cid : Int) : Env :=
  { env with
    self := { env.self with
      sid0 := sid
      cid0 := cid
      linkState := some "configured".toList } }

theorem sendSa_ok (tag : Nat) (env : Env) :
    sendSa (decimal tag) "OK".toList env =
      post (Msg.standaloneAck tag).payload false env := by
  have text : "Standalone Acknowledgment Tag=".toList ++ decimal tag ++
      ",Reason=".toList ++ "OK".toList =
      (Msg.standaloneAck tag).payload := by
    unfold Msg.payload
    rw [List.append_assoc]
    rfl
  rw [sendSa, text, sendPayload]

/-- A client takes the ids and echoes the tag. -/
theorem dispatch_ctlWrite (si : ServerInvariant) (env : Env) {state : Text}
    (client : env.self.linkState = some state) (pfmsid pfmcid sid cid : Int)
    (tag : Nat) :
    dispatch si (Msg.ctlWrite pfmsid pfmcid sid cid tag).payload env =
      post (Msg.standaloneAck tag).payload false (env.configure sid cid) := by
  rw [dispatch, fields_ctlWrite, chelsea_ctlWrite]
  dsimp only [call]
  have read := csv2dict_csv (cleanPairs_ctlWrite pfmsid pfmcid sid cid tag)
    (List.cons_ne_nil _ _)
  have space : (dictOf (ctlWritePairs pfmsid pfmcid sid cid tag)).get?
      "Space".toList = some "0".toList := by
    simp [dictOf, ctlWritePairs, OrderedDict.get?_set]
  have sidRead : (dictOf (ctlWritePairs pfmsid pfmcid sid cid tag)).get?
      "SID".toList = some (decimalInt sid) := by
    simp [dictOf, ctlWritePairs, OrderedDict.get?_set]
  have cidRead : (dictOf (ctlWritePairs pfmsid pfmcid sid cid tag)).get?
      "CID".toList = some (decimalInt cid) := by
    simp [dictOf, ctlWritePairs, OrderedDict.get?_set]
  have tagRead : (dictOf (ctlWritePairs pfmsid pfmcid sid cid tag)).get?
      "Tag".toList = some (decimal tag) := by
    simp [dictOf, ctlWritePairs]
  have zero : int? "0".toList = some 0 := by decide
  unfold ctlWrite
  dsimp only
  rw [read, space, sidRead, cidRead, tagRead, Option.bind_some, zero]
  dsimp only
  rw [if_neg (by decide), Option.bind_some, int?_decimalInt,
    Option.bind_some, int?_decimalInt]
  dsimp only
  rw [client]
  exact sendSa_ok tag (env.configure sid cid)

/-- An acknowledgment of an outstanding tag, whatever its text. -/
theorem standaloneAcknowledgment_of_tagged (env : Env) {arg key head : Text}
    (rest : List Text) (named : (csv2dict arg).get? "Tag".toList = some key)
    (plain : '|' ∉ head)
    (tagged : env.globals.tagged.get? key =
      some (head ++ '|' :: "AfterACK=Link CTL Peer-Attribute".toList)) :
    standaloneAcknowledgment (arg :: rest) env =
      post Msg.peerAttribute.payload false
        { env with
          globals := { env.globals with
            tagged := env.globals.tagged.del key } } := by
  have parts : (head ++ '|' ::
      "AfterACK=Link CTL Peer-Attribute".toList).splitOn '|' =
      [head, "AfterACK=Link CTL Peer-Attribute".toList] := by
    rw [List.splitOn_append_cons_self_of_not_mem plain,
      List.splitOn_eq_singleton (by decide)]
  have after : (csv2dict (strip
      "AfterACK=Link CTL Peer-Attribute".toList)).get? "AfterACK".toList =
      some Msg.peerAttribute.payload := by
    decide
  unfold standaloneAcknowledgment
  dsimp only
  rw [named]
  dsimp only
  rw [tagged]
  dsimp only
  rw [parts]
  dsimp only
  rw [after]
  dsimp only
  rw [if_neg (by decide)]
  rfl

/-- The server forgets exactly the tag and asks for the attributes. -/
theorem dispatch_standaloneAck (si : ServerInvariant) (env : Env) {tag : Nat}
    {head : Text} (plain : '|' ∉ head)
    (tagged : env.globals.tagged.get? (decimal tag) =
      some (head ++ '|' :: "AfterACK=Link CTL Peer-Attribute".toList)) :
    dispatch si (Msg.standaloneAck tag).payload env =
      post Msg.peerAttribute.payload false
        { env with
          globals := { env.globals with
            tagged := env.globals.tagged.del (decimal tag) } } := by
  rw [dispatch, fields_standaloneAck, chelsea_standaloneAck]
  dsimp only [call]
  apply standaloneAcknowledgment_of_tagged env [] _ plain tagged
  rw [csv2dict_csv (cleanPairs_standaloneAck tag) (List.cons_ne_nil _ _)]
  simp [dictOf, standaloneAckPairs, OrderedDict.get?_set]

def afterAck : Text := "AfterACK=Link CTL Peer-Attribute".toList

/-- The environment once a response was tagged. -/
def Env.tagging (env : Env) (head : Text) : Env :=
  { env with
    globals := { env.globals with
      tagged := env.globals.tagged.set (decimal env.globals.nextTag)
        (head ++ '|' :: afterAck)
      nextTag := env.globals.nextTag + 1 } }

theorem bar_not_mem_ctlWrite (pfmsid pfmcid sid cid : Int) (tag : Nat) :
    '|' ∉ (Msg.ctlWrite pfmsid pfmcid sid cid tag).payload := by
  have number : ∀ value : Int, '|' ∉ decimalInt value := fun value =>
    not_mem_decimalInt value (by decide) (by decide)
  unfold Msg.payload
  simp only [List.mem_append, not_or]
  exact ⟨⟨⟨⟨⟨⟨⟨⟨⟨by decide, number pfmsid⟩, by decide⟩, number pfmcid⟩,
    by decide⟩, number sid⟩, by decide⟩, number cid⟩, by decide⟩,
    not_mem_decimal tag (by decide)⟩

/-- The tagged answer to a Link RFC. -/
theorem sendPayload_ctlWrite (si : ServerInvariant) (env : Env) :
    ∃ head, '|' ∉ head ∧
      sendPayload
        ("CTL-Write Space=0,PFMSID=".toList ++ decimalInt si.serverSid0 ++
          ",PFMCID=".toList ++ decimalInt si.serverCid0 ++
          ",SID=".toList ++ decimalInt env.self.sid0 ++
          ",CID=".toList ++ decimalInt env.self.cid0)
        (some "AfterACK=Link CTL Peer-Attribute".toList) false env =
      post (Msg.ctlWrite si.serverSid0 si.serverCid0 env.self.sid0
        env.self.cid0 env.globals.nextTag).payload false
        (env.tagging head) := by
  have number : ∀ value : Int, '|' ∉ decimalInt value := fun value =>
    not_mem_decimalInt value (by decide) (by decide)
  refine ⟨decimalInt env.self.sid0 ++ ".".toList ++
    decimalInt env.self.cid0 ++ "!".toList ++
    (Msg.ctlWrite si.serverSid0 si.serverCid0 env.self.sid0 env.self.cid0
      env.globals.nextTag).payload, ?_, ?_⟩
  · simp only [List.mem_append, not_or]
    exact ⟨⟨⟨⟨number _, by decide⟩, number _⟩, by decide⟩,
      bar_not_mem_ctlWrite _ _ _ _ _⟩
  · rw [sendPayload]
    unfold tagResponse
    dsimp only
    rw [List.append_assoc _ "|".toList]
    rfl

/-- The server offers its own ids and those of the proxy under a new tag. -/
theorem dispatch_linkRfc {si : ServerInvariant} (smart : si.smart = some true)
    (ttc : Nat) (env : Env) :
    ∃ head, '|' ∉ head ∧
      dispatch si (Msg.linkRfc ttc).payload env =
        post (Msg.ctlWrite si.serverSid0 si.serverCid0 env.self.sid0
          env.self.cid0 env.globals.nextTag).payload false
          (env.tagging head) := by
  have clean : CleanPairs [("TTC".toList, decimal ttc ++ "us".toList)] := by
    simp only [CleanPairs, List.forall_mem_cons]
    exact ⟨⟨by decide, clean_append (clean_decimal ttc) (by decide)⟩,
      List.forall_mem_nil _⟩
  have delay : (dictOf [("TTC".toList, decimal ttc ++ "us".toList)]).get?
      "TTC".toList = some (decimal ttc ++ "us".toList) :=
    OrderedDict.get?_set_self _ _ _
  have short : "us".toList <:+:
      (decimal ttc ++ "us".toList).map Char.toLower := by
    rw [List.map_append]
    exact (List.suffix_append _ _).isInfix
  obtain ⟨head, plain, answer⟩ := sendPayload_ctlWrite si env
  refine ⟨head, plain, ?_⟩
  rw [dispatch, fields_linkRfc, chelsea_linkRfc, ← answer]
  dsimp only [call]
  unfold linkRfc
  rw [smart]
  dsimp only
  rw [csv2dict_csv clean (List.cons_ne_nil _ _), delay]
  dsimp only
  rw [if_pos short]

/-- The ids a responder names: a fabric manager its own, a client those it was
given. -/
def responderIds (si : ServerInvariant) (self : Responder) : Int × Int :=
  match si.isPfm with
  | none => (self.sid0, self.cid0)
  | some _ => (si.serverSid0, si.serverCid0)

theorem ack_peerAttributes (si : ServerInvariant) (self : Responder) :
    "Link CTL ACK ".toList ++ peerAttributes si self =
      (Msg.ack si.cClass (responderIds si self).1
        (responderIds si self).2).payload := by
  unfold peerAttributes responderIds Msg.payload
  cases si.isPfm with
  | none =>
      simp only [List.append_assoc]
      rfl
  | some _ =>
      simp only [List.append_assoc]
      rfl

/-- A responder names its class and its ids. -/
theorem dispatch_peerAttribute (si : ServerInvariant) (env : Env) :
    dispatch si Msg.peerAttribute.payload env =
      post (Msg.ack si.cClass (responderIds si env.self).1
        (responderIds si env.self).2).payload false env := by
  have words : fields Msg.peerAttribute.payload =
      ["Link".toList, "CTL".toList, "Peer-Attribute".toList] := by decide
  rw [dispatch, words, chelsea_linkCtl, ← ack_peerAttributes]
  dsimp only [call]
  unfold linkCtl
  rw [if_pos rfl]
  rfl

/-- An ACK changes the attributes of the peer at most. -/
theorem dispatch_ack (si : ServerInvariant) (cClass : Text) (sid0 cid0 : Int)
    (env : Env) :
    ∃ result attrs, dispatch si (Msg.ack cClass sid0 cid0).payload env =
      (result, { env with self := { env.self with peerattrs := attrs } }) := by
  rw [dispatch, fields_ack, chelsea_linkCtl]
  dsimp only [call]
  unfold linkCtl
  rw [if_neg (by simp)]
  split
  · split
    · exact ⟨_, _, rfl⟩
    · exact ⟨_, env.self.peerattrs, rfl⟩
  · exact ⟨_, env.self.peerattrs, rfl⟩

/-- With a clean class they are what the ACK says. -/
theorem dispatch_ack_clean (si : ServerInvariant) {cClass : Text}
    (clean : Clean cClass) (sid0 cid0 : Int) (env : Env) :
    dispatch si (Msg.ack cClass sid0 cid0).payload env =
      (true,
        { env with
          self := { env.self with
            peerattrs := ackAttrs cClass sid0 cid0 } }) := by
  have pairs := cleanPairs_ack clean sid0 cid0
  rw [dispatch, fields_ack, chelsea_linkCtl,
    fields_word (visible_csv pairs) (by simp [ackPairs, csv, csvItem])]
  dsimp only [call]
  unfold linkCtl
  rw [if_neg (by simp)]
  dsimp only
  rw [if_pos rfl, csv2dict_csv pairs (List.cons_ne_nil _ _)]
  rfl

/-! ### Posting -/

/-- What `fill` takes of one text. -/
def fitting (text : Text) : List Text := if FitsSlot text then [text] else []

theorem fitting_of_fits {text : Text} (fits : FitsSlot text) :
    fitting text = [text] := if_pos fits

/-- The environment once a message was posted under a tracker. -/
def Env.posting (env : Env) (msg : Msg) (tracker : Int) : Env :=
  { globals := { env.globals with tracker := tracker }
    self := env.self
    sent := env.sent ++ fitting (msg.render (some tracker)) }

/-- Posting a response touches the tracker and the messages sent. -/
theorem post_eq (response : Text) (resetTracker : Bool) (env : Env) :
    (post response resetTracker env).2 =
      { globals := { env.globals with
          tracker := (if resetTracker then 0 else env.globals.tracker) + 1 }
        self := env.self
        sent := env.sent ++ fitting (stamp response
          ((if resetTracker then 0 else env.globals.tracker) + 1)) } := by
  unfold post
  dsimp only
  generalize (if resetTracker then 0 else env.globals.tracker) + 1 = tracker
  rw [fitting]
  split
  · rfl
  · rw [List.append_nil]

theorem post_msg (msg : Msg) (resetTracker : Bool) (env : Env) :
    (post msg.payload resetTracker env).2 =
      env.posting msg
        ((if resetTracker then 0 else env.globals.tracker) + 1) :=
  post_eq msg.payload resetTracker env

/-- The tracker that a process stamps on its answer to a message. -/
def Globals.answerTracker (globals : Globals) (ftz : Option Int) : Int :=
  (match ftz with
    | none => globals.tracker
    | some ftz => if ftz = 0 then globals.tracker else ftz) + 1

/-- Following a tracker changes that alone. -/
theorem follow_eq (env : Env) (ftz : Option Int) :
    ∃ tracker, tracker + 1 = env.globals.answerTracker ftz ∧
      env.follow ftz =
        { env with globals := { env.globals with tracker := tracker } } := by
  cases ftz with
  | none => exact ⟨env.globals.tracker, rfl, rfl⟩
  | some value =>
      rw [Globals.answerTracker, Env.follow]
      dsimp only
      split
      · exact ⟨env.globals.tracker, rfl, rfl⟩
      · exact ⟨value, rfl, rfl⟩

end FameZ.Link
