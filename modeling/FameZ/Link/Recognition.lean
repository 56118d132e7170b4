/-
Module: FameZ.Link.Recognition
Purpose: The requests that the link layer of the driver answers itself, from
  the text that Python formats through the bytes of the mailbox to the reply.
Trusted boundary: none
Main exports: Request, Request.send, loadSlot_fill, Recognised, Answerable,
  recognised_iff_answerable
-/
import FameZ.Link.Drivers
import FameZ.Mailbox.Layout

namespace FameZ.Link.Recognition

open PyText
open Scanf (decimal)
open Layout (Config InDomain slotAddr msMsglenOff msPeerIdOff msMsgOff)

/-! ### What Python sends -/

/-- The requests that `famez_link_request` is written to answer.  The tag of a
CTL-Write is added when it is sent. -/
inductive Request where
  | ping
  | peerAttribute
  | ctlWrite (pfmsid pfmcid sid cid : Int)
deriving Repr, DecidableEq

def Request.response : Request → Text
  | .ping => "ping".toList
  | .peerAttribute => "Link CTL Peer-Attribute".toList
  | .ctlWrite pfmsid pfmcid sid cid =>
      "CTL-Write Space=0,PFMSID=".toList ++ decimalInt pfmsid ++
        ",PFMCID=".toList ++ decimalInt pfmcid ++ ",SID=".toList ++
        decimalInt sid ++ ",CID=".toList ++ decimalInt cid

def Request.tag : Request → Option Text
  | .ctlWrite _ _ _ _ => some "AfterACK=Link CTL Peer-Attribute".toList
  | _ => none

/-- A REPL and the handlers send all of them through `send_payload`. -/
def Request.send (request : Request) (resetTracker : Bool) (env : Env) :
    Outcome :=
  sendPayload request.response request.tag resetTracker env

/-- The text that leaves under a tag and a tracker. -/
def Request.text (request : Request) (tag : Nat) (tracker : Int) : Text :=
  match request with
  | .ping => stamp "ping".toList tracker
  | .peerAttribute => Msg.peerAttribute.render (some tracker)
  | .ctlWrite pfmsid pfmcid sid cid =>
      (Msg.ctlWrite pfmsid pfmcid sid cid tag).render (some tracker)

theorem sent_send (request : Request) (resetTracker : Bool) (env : Env) :
    (request.send resetTracker env).2.sent =
      env.sent ++ fitting (request.text env.globals.nextTag
        ((if resetTracker then 0 else env.globals.tracker) + 1)) := by
  unfold Request.send Request.text
  cases request with
  | ping =>
      rw [Request.tag, sendPayload, post_eq]
      · rfl
      · intro _ _ _ _ wrong
        cases wrong
  | peerAttribute =>
      rw [Request.tag, sendPayload, post_eq]
      · rfl
      · intro _ _ _ _ wrong
        cases wrong
  | ctlWrite pfmsid pfmcid sid cid =>
      rw [Request.tag, sendPayload]
      unfold tagResponse
      dsimp only
      rw [post_eq]
      rfl

theorem ascii_text (request : Request) (tag : Nat) (tracker : Int) :
    Ascii (request.text tag tracker) := by
  have suffix := ascii_trackerText (some tracker)
  unfold Request.text
  cases request with
  | ping =>
      dsimp only
      rw [stamp, List.append_assoc]
      exact ascii_append (by decide) suffix
  | peerAttribute =>
      dsimp only
      rw [render_eq_append]
      exact ascii_append (by decide) suffix
  | ctlWrite pfmsid pfmcid sid cid =>
      dsimp only
      rw [render_eq_append]
      exact ascii_append (ascii_ctlWrite pfmsid pfmcid sid cid tag) suffix

/-! ### The slot that the driver reads -/

/-- `fill` writes a length, and a text with its NUL. -/
theorem fill_eq {config : Config} {senderId : Nat}
    (inDomain : InDomain config senderId) {msg : List UInt8}
    (short : msg.length < Layout.msMaxMsglen) (mem : Memory) :
    Layout.fill config senderId msg mem =
      (mem.writeWord (slotAddr senderId + msMsglenOff) msg.length).write
        (slotAddr senderId + msMsgOff) (msg ++ [0]) := by
  rw [Layout.fill, if_pos ⟨inDomain, short⟩, Memory.write_append]

/-- The driver finds the length, the text and the peer id of the slot. -/
theorem loadSlot_fill {config : Config} {senderId : Nat}
    (inDomain : InDomain config senderId) {text : Text} (fits : FitsSlot text)
    (ascii : Ascii text) (mem : Memory) :
    (Layout.loadSlot (Layout.fill config senderId (encode text) mem)
        (slotAddr senderId)).buflen = byteLength text ∧
      Kernel.cstring (Layout.loadSlot
        (Layout.fill config senderId (encode text) mem)
        (slotAddr senderId)).buf = text ∧
      (Layout.loadSlot (Layout.fill config senderId (encode text) mem)
        (slotAddr senderId)).peerId =
          mem.readWord (slotAddr senderId + msPeerIdOff) := by
  have short : (encode text).length < 384 := fits
  rw [fill_eq inDomain short]
  refine ⟨?_, ?_, ?_⟩
  · rw [Layout.loadSlot]
    dsimp only
    rw [Memory.readWord_write_of_disjoint
      (.inl (by simp only [msMsglenOff, msMsgOff]; omega)),
      Memory.readWord_writeWord, byteLength]
    exact Nat.mod_eq_of_lt (by omega)
  · rw [Layout.loadSlot]
    dsimp only
    obtain ⟨rest, read⟩ := Memory.readBytes_write_prefix
      (mem.writeWord (slotAddr senderId + msMsglenOff) (encode text).length)
      (slotAddr senderId + msMsgOff)
      (show (encode text ++ [0]).length ≤ Layout.msMaxMsglen by
        rw [List.length_append, List.length_singleton]
        exact short)
    rw [read, List.append_assoc, List.singleton_append]
    exact cstring_encode ascii rest
  · rw [Layout.loadSlot]
    dsimp only
    rw [Memory.readWord_write_of_disjoint
      (.inl (by simp only [msPeerIdOff, msMsgOff]; omega)), Memory.writeWord,
      Memory.readWord_write_of_disjoint
      (.inr (by
        simp only [Memory.length_wordBytes, msMsglenOff, msPeerIdOff]
        omega))]

/-! ### What the driver makes of them -/

/-- The reply that matches a request. -/
def Request.reply (request : Request) (tag : Nat) (core : Kernel.Core) :
    Text :=
  match request with
  | .ping => "pong".toList
  | .peerAttribute =>
      (Msg.ack core.baseCClassStr (int32 core.sid0) (int32 core.cid0)).payload
  | .ctlWrite _ _ _ _ => (Msg.standaloneAck tag).payload

/-- `IRQ_HANDLED` with the slot cleared and the matching reply submitted to
the sender. -/
structure Recognised (request : Request) (tag senderId : Nat)
    (core : Kernel.Core)
    (outcome : Kernel.Mailslot × Kernel.Core × Option Kernel.Reply) : Prop
    where
  cleared : outcome.1.buflen = 0
  handled : outcome.2.2 =
    some { peerId := senderId, text := request.reply tag core }

/-- No ping is recognised, and a tag is echoed if it fits `%d`. -/
def Request.Answerable (request : Request) (tag : Nat) : Prop :=
  match request with
  | .ping => False
  | .peerAttribute => True
  | .ctlWrite _ _ _ _ => tag < 2 ^ 31

theorem reply_ctlWrite_iff (tag : Nat) :
    "Standalone Acknowledgment Tag=".toList ++
        Scanf.formatInt (UInt32.ofNat tag) ++ ",Reason=OK".toList =
      (Msg.standaloneAck tag).payload ↔ tag < 2 ^ 31 := by
  unfold Msg.payload
  rw [List.append_left_inj, List.append_right_inj]
  exact formatInt_ofNat_iff tag

/-- A slot that holds the text of a request. -/
theorem recognised_iff_of_text {request : Request} {tag senderId : Nat}
    {tracker : Int} {slot : Kernel.Mailslot} (core : Kernel.Core)
    (length : slot.buflen = byteLength (request.text tag tracker))
    (text : Kernel.cstring slot.buf = request.text tag tracker) :
    Recognised request tag senderId core
        (Kernel.famezLinkRequest slot core) ↔
      request.Answerable tag ∧ slot.peerId % 2 ^ 32 = senderId := by
  cases request with
  | ping =>
      have stamped : Request.ping.text tag tracker =
          "ping".toList ++ trackerText (some tracker) := by
        rw [Request.text, stamp, List.append_assoc]
        rfl
      have longer : slot.buflen ≠ 4 := by
        rw [length, byteLength_of_ascii (ascii_text .ping tag tracker),
          stamped]
        simp [trackerText, trackerToken]
      rw [stamped] at text
      constructor
      · intro recognised
        have handled := recognised.handled
        rw [famezLinkRequest_of_ping core text longer] at handled
        cases handled
      · intro answerable
        exact False.elim answerable.1
  | peerAttribute =>
      have content : Kernel.cstring slot.buf =
          Msg.peerAttribute.render (some tracker) := text
      rw [famezLinkRequest_of_peerAttribute core content]
      constructor
      · intro recognised
        have handled := Option.some.inj recognised.handled
        exact ⟨trivial, congrArg Kernel.Reply.peerId handled⟩
      · intro answerable
        refine ⟨rfl, ?_⟩
        rw [← answerable.2]
        rfl
  | ctlWrite pfmsid pfmcid sid cid =>
      have content : Kernel.cstring slot.buf =
          (Msg.ctlWrite pfmsid pfmcid sid cid tag).render (some tracker) :=
        text
      rw [famezLinkRequest_of_ctlWrite core content]
      constructor
      · intro recognised
        have handled := Option.some.inj recognised.handled
        exact ⟨(reply_ctlWrite_iff tag).mp
          (congrArg Kernel.Reply.text handled),
          congrArg Kernel.Reply.peerId handled⟩
      · intro answerable
        refine ⟨rfl, ?_⟩
        rw [← answerable.2, (reply_ctlWrite_iff tag).mpr answerable.1]
        rfl

/-- Whatever Python sends, in any slot that is `fill`ed with it: the driver
recognises the request exactly if it is no ping, its tag is a positive number
of 32 bits and the slot names its owner. -/
theorem recognised_iff_answerable {config : Config} {senderId : Nat}
    (inDomain : InDomain config senderId) (request : Request)
    (resetTracker : Bool) {env : Env} (idle : env.sent = []) {text : Text}
    (sent : (request.send resetTracker env).2.sent = [text]) (mem : Memory)
    (core : Kernel.Core) :
    Recognised request env.globals.nextTag senderId core
        (Kernel.famezLinkRequest
          (Layout.loadSlot (Layout.fill config senderId (encode text) mem)
            (slotAddr senderId)) core) ↔
      request.Answerable env.globals.nextTag ∧
        mem.readWord (slotAddr senderId + msPeerIdOff) % 2 ^ 32 =
          senderId := by
  rw [sent_send, idle, List.nil_append] at sent
  generalize (if resetTracker then 0 else env.globals.tracker) + 1 =
    tracker at sent
  by_cases fits : FitsSlot (request.text env.globals.nextTag tracker)
  · rw [fitting_of_fits fits] at sent
    cases sent
    obtain ⟨length, content, peerId⟩ := loadSlot_fill inDomain fits
      (ascii_text request env.globals.nextTag tracker) mem
    rw [recognised_iff_of_text core length content, peerId]
  · rw [fitting, if_neg fits] at sent
    cases sent

/-! ### A ping and a CTL-Write -/

def twoClients : Config := ⟨2, true, by decide⟩

/-- A mailbox in which the slot of client 1 names it. -/
def ownedSlot : Memory :=
  Memory.writeWord (fun _ => 0) (slotAddr 1 + msPeerIdOff) 1

def process : Env where
  globals := initialGlobals
  self := ⟨27, 100, none, .empty⟩
  sent := []

/-- `ping` of a REPL is never answered with `pong`. -/
theorem stamped_ping_unrecognised :
    (Request.ping.send true process).2.sent = ["ping!FZT=1".toList] ∧
      ¬ Recognised .ping 1 1 Kernel.initialCore
        (Kernel.famezLinkRequest
          (Layout.loadSlot
            (Layout.fill twoClients 1 (encode "ping!FZT=1".toList) ownedSlot)
            (slotAddr 1)) Kernel.initialCore) := by
  refine ⟨by decide, fun recognised => ?_⟩
  have text : "ping!FZT=1".toList = Request.ping.text 1 1 := by decide
  obtain ⟨length, content, -⟩ := loadSlot_fill
    (show InDomain twoClients 1 by decide)
    (show FitsSlot "ping!FZT=1".toList by decide) (by decide) ownedSlot
  rw [text] at length content
  exact ((recognised_iff_of_text Kernel.initialCore length content).mp
    recognised).1

/-- The CTL-Write under the first tag. -/
theorem first_ctlWrite_recognised :
    Recognised (.ctlWrite 27 0 27 (-1)) 1 1 Kernel.initialCore
      (Kernel.famezLinkRequest
        (Layout.loadSlot
          (Layout.fill twoClients 1
            (encode ((Request.ctlWrite 27 0 27 (-1)).text 1 1)) ownedSlot)
          (slotAddr 1)) Kernel.initialCore) := by
  have fits : FitsSlot ((Request.ctlWrite 27 0 27 (-1)).text 1 1) := by
    rw [FitsSlot, byteLength_of_ascii (ascii_text _ 1 1)]
    decide
  have sent : ((Request.ctlWrite 27 0 27 (-1)).send true process).2.sent =
      [(Request.ctlWrite 27 0 27 (-1)).text 1 1] := by
    rw [sent_send]
    exact fitting_of_fits fits
  apply (recognised_iff_answerable (show InDomain twoClients 1 by decide)
    _ true (show process.sent = [] from rfl) sent ownedSlot
    Kernel.initialCore).mpr
  refine ⟨show 1 < 2 ^ 31 by decide, ?_⟩
  rw [ownedSlot, Memory.readWord_writeWord]
  rfl

end FameZ.Link.Recognition
