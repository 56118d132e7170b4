/-
Module: FameZ.Link.Requests
Purpose: The requests that the server and the Python clients parse and answer,
  as functions on their texts.
Trusted boundary: the translation of famez_requests.py and of the length check
  of fill
Main exports: Globals, Responder, ServerInvariant, Env, csv2dict, chelsea,
  sendPayload, handleRequest
-/
import FameZ.Lib.OrderedDict
import FameZ.Lib.PyText
import Mathlib.Data.List.Infix

namespace FameZ.Link

open PyText
open Scanf (decimal)

abbrev Attrs := OrderedDict Text Text

/-- The globals of famez_requests, one set a process. -/
structure Globals where
  nextTag : Nat
  tagged : Attrs
  tracker : Int
deriving DecidableEq

/-- A fresh import. -/
def initialGlobals : Globals :=
  { nextTag := 1, tagged := .empty, tracker := 0 }

/-- The attributes of a responder that requests use.  `linkState` is the entry
of `linkattrs`; the proxies of the server have none. -/
structure Responder where
  sid0 : Int
  cid0 : Int
  linkState : Option Text
  peerattrs : Attrs
deriving DecidableEq

/-- `responder.SI`.  `none` is an attribute that does not exist. -/
structure ServerInvariant where
  smart : Option Bool
  isPfm : Option Bool
  serverSid0 : Int
  serverCid0 : Int
  cClass : Text

/-- What a handler reads and changes.  `sent` are the messages it posted to the
requester. -/
structure Env where
  globals : Globals
  self : Responder
  sent : List Text
deriving DecidableEq

/-- The second part is what a handler leaves behind, whether it returns or
raises; `handle_request` makes False of an exception. -/
abbrev Outcome := Bool × Env

def trackerToken : Text := "!FZT=".toList

def msMaxMsglen : Nat := 384

/-- `msg.encode()`. -/
def encode (text : Text) : List UInt8 := text.flatMap String.utf8EncodeChar

def byteLength (text : Text) : Nat := (encode text).length

/-- What `fill` asserts of a message. -/
def FitsSlot (text : Text) : Prop := byteLength text < msMaxMsglen

instance (text : Text) : Decidable (FitsSlot text) :=
  inferInstanceAs (Decidable (_ < _))

/-! ### Building and taking apart -/

/-- Items without a value are skipped. -/
def csv2dict (text : Text) : Attrs :=
  ((strip text).splitOn ',').foldl
    (fun kv item =>
      match (strip item).splitOn '=' with
      | key :: value :: _ => kv.set (strip key) (strip value)
      | _ => kv)
    .empty

/-- The names of the module that start with an underscore.  What is no function
of two arguments raises a TypeError when it is called. -/
inductive Handler where
  | unprocessed
  | standaloneAcknowledgment
  | ctlWrite
  | linkRfc
  | linkCtl
  | ping
  | notCallable
deriving Repr, DecidableEq

def moduleGlobals : List (Text × Handler) :=
  [("_unprocessed".toList, .unprocessed),
    ("_next_tag".toList, .notCallable),
    ("_tagged".toList, .notCallable),
    ("_tracker".toList, .notCallable),
    ("_TRACKER_TOKEN".toList, .notCallable),
    ("_Standalone_Acknowledgment".toList, .standaloneAcknowledgment),
    ("_send_SA".toList, .notCallable),
    ("_CTL_Write".toList, .ctlWrite),
    ("_Link_RFC".toList, .linkRfc),
    ("_Link_CTL".toList, .linkCtl),
    ("_ping".toList, .ping)]

/-- The loop of `chelsea`, with the name put together so far. -/
def chelseaFrom (entry : Text) : List Text → Option (Handler × List Text)
  | [] => none
  | e :: rest =>
      let entry := entry ++ '_' :: replaceChar '-' '_' e
      match moduleGlobals.lookup entry with
      | some handler => some (handler, rest)
      | none => chelseaFrom entry rest

def chelsea (elements : List Text) : Handler × List Text :=
  (chelseaFrom [] elements).getD (.unprocessed, elements)

/-- The text with the next tracker on its end. -/
def stamp (response : Text) (tracker : Int) : Text :=
  response ++ trackerToken ++ decimalInt tracker

/-- `_tagged[str(_next_tag)] = ...`, with the tag added to the response. -/
def tagResponse (response tag : Text) (env : Env) : Text × Env :=
  let response := response ++ ",Tag=".toList ++ decimal env.globals.nextTag
  (response,
    { env with
      globals :=
        { env.globals with
          tagged := env.globals.tagged.set (decimal env.globals.nextTag)
            (decimalInt env.self.sid0 ++ ".".toList ++
              decimalInt env.self.cid0 ++ "!".toList ++ response ++
              "|".toList ++ tag)
          nextTag := env.globals.nextTag + 1 } })

/-- The tracker and the mailbox part of `send_payload`. -/
def post (response : Text) (resetTracker : Bool) (env : Env) : Outcome :=
  let tracker := (if resetTracker then 0 else env.globals.tracker) + 1
  let env := { env with globals := { env.globals with tracker := tracker } }
  let text := stamp response tracker
  if FitsSlot text then (true, { env with sent := env.sent ++ [text] })
  else (false, env)

def sendPayload (response : Text) (tag : Option Text) (resetTracker : Bool)
    (env : Env) : Outcome :=
  match tag with
  | none => post response resetTracker env
  | some tag =>
      match tagResponse response tag env with
      | (response, env) => post response resetTracker env

def sendSa (tag reason : Text) (env : Env) : Outcome :=
  sendPayload
    ("Standalone Acknowledgment Tag=".toList ++ tag ++ ",Reason=".toList ++
      reason) none false env

def sendLinkAck (details : Text) (nack : Bool) (env : Env) : Outcome :=
  sendPayload
    ((if nack then "Link CTL NAK ".toList else "Link CTL ACK ".toList) ++
      details) none false env

/-! ### Handlers -/

/-- `_Standalone_Acknowledgment`.  An entry that does not split in two raises
before it is deleted. -/
def standaloneAcknowledgment (args : List Text) (env : Env) : Outcome :=
  match args with
  | [] => (false, env)
  | arg :: _ =>
      match (csv2dict arg).get? "Tag".toList with
      | none => (false, env)
      | some key =>
          match env.globals.tagged.get? key with
          | none => (false, env)
          | some entry =>
              match entry.splitOn '|' with
              | [_, tag] =>
                  let env := { env with
                    globals := { env.globals with
                      tagged := env.globals.tagged.del key } }
                  match (csv2dict (strip tag)).get? "AfterACK".toList with
                  | none => (true, env)
                  | some afterAck =>
                      if afterAck = [] then (true, env)
                      else sendPayload afterAck none false env
              | _ => (false, env)

/-- `_CTL_Write`.  The assignments made before an exception stay. -/
def ctlWrite (args : List Text) (env : Env) : Outcome :=
  match args with
  | [] => (false, env)
  | arg :: _ =>
      let kv := csv2dict arg
      match (kv.get? "Space".toList).bind int? with
      | none => (false, env)
      | some space =>
          if space ≠ 0 then (false, env)
          else
            match (kv.get? "SID".toList).bind int? with
            | none => (false, env)
            | some sid =>
                let env := { env with self := { env.self with sid0 := sid } }
                match (kv.get? "CID".toList).bind int? with
                | none => (false, env)
                | some cid =>
                    let env := { env with
                      self := { env.self with cid0 := cid } }
                    match env.self.linkState, kv.get? "Tag".toList with
                    | none, _ => (false, env)
                    | some _, tag =>
                        let env := { env with
                          self := { env.self with
                            linkState := some "configured".toList } }
                        match tag with
                        | none => (false, env)
                        | some tag => sendSa tag "OK".toList env

def linkRfc (si : ServerInvariant) (args : List Text) (env : Env) :
    Outcome :=
  match si.smart, args with
  | some true, arg :: _ =>
      match (csv2dict arg).get? "TTC".toList with
      | none => (false, env)
      | some delay =>
          if "us".toList <:+: delay.map Char.toLower then
            sendPayload
              ("CTL-Write Space=0,PFMSID=".toList ++
                decimalInt si.serverSid0 ++ ",PFMCID=".toList ++
                decimalInt si.serverCid0 ++ ",SID=".toList ++
                decimalInt env.self.sid0 ++ ",CID=".toList ++
                decimalInt env.self.cid0)
              (some "AfterACK=Link CTL Peer-Attribute".toList) false env
          else (false, env)
  | _, _ => (false, env)

/-- The attributes a responder is asked for. -/
def peerAttributes (si : ServerInvariant) (self : Responder) : Text :=
  match si.isPfm with
  | none =>
      "C-Class=".toList ++ si.cClass ++ ",SID0=".toList ++
        decimalInt self.sid0 ++ ",CID0=".toList ++ decimalInt self.cid0
  | some _ =>
      "C-Class=".toList ++ si.cClass ++ ",SID0=".toList ++
        decimalInt si.serverSid0 ++ ",CID0=".toList ++
        decimalInt si.serverCid0

def linkCtl (si : ServerInvariant) (args : List Text) (env : Env) :
    Outcome :=
  if args = ["Peer-Attribute".toList] then
    sendLinkAck (peerAttributes si env.self) false env
  else
    match args with
    | [arg0, details] =>
        if arg0 = "ACK".toList then
          (true,
            { env with
              self := { env.self with peerattrs := csv2dict details } })
        else (false, env)
    | _ => (false, env)

def ping (env : Env) : Outcome := sendPayload "pong".toList none false env

def call (handler : Handler) (si : ServerInvariant) (args : List Text)
    (env : Env) : Outcome :=
  match handler with
  | .unprocessed => (false, env)
  | .standaloneAcknowledgment => standaloneAcknowledgment args env
  | .ctlWrite => ctlWrite args env
  | .linkRfc => linkRfc si args env
  | .linkCtl => linkCtl si args env
  | .ping => ping env
  | .notCallable => (false, env)

/-- The words of a payload, to its handler. -/
def dispatch (si : ServerInvariant) (payload : Text) (env : Env) : Outcome :=
  match chelsea (fields payload) with
  | (handler, args) => call handler si args env

/-- `_tracker = FTZ`, unless that is zero or missing. -/
def Env.follow (env : Env) (ftz : Option Int) : Env :=
  match ftz with
  | none => env
  | some ftz =>
      if ftz = 0 then env
      else { env with globals := { env.globals with tracker := ftz } }

/-- `handle_request`.  A tracker that is no number raises out of it. -/
def handleRequest (si : ServerInvariant) (request : Text) (env : Env) :
    Outcome :=
  match splitToken trackerToken request with
  | [] => (false, env)
  | [payload] => dispatch si payload env
  | payload :: ftz :: _ =>
      match int? ftz with
      | none => (false, env)
      | some ftz => dispatch si payload (env.follow (some ftz))

/-- What `handle_request` parses before it looks for a handler: the payload and
the tracker.  `none` is a tracker that is no number. -/
def requestPayload (request : Text) : Option (Text × Option Int) :=
  match splitToken trackerToken request with
  | [] => none
  | [payload] => some (payload, none)
  | payload :: ftz :: _ => (int? ftz).map fun ftz => (payload, some ftz)

theorem handleRequest_eq (si : ServerInvariant) (request : Text) (env : Env) :
    handleRequest si request env =
      match requestPayload request with
      | none => (false, env)
      | some (payload, ftz) => dispatch si payload (env.follow ftz) := by
  unfold handleRequest requestPayload
  generalize splitToken trackerToken request = parts
  match parts with
  | [] => rfl
  | [payload] => rfl
  | payload :: ftz :: rest =>
      dsimp only
      cases int? ftz with
      | none => rfl
      | some value => rfl

end FameZ.Link
