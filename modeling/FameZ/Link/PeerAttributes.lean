/-
Module: FameZ.Link.PeerAttributes
Purpose: The peer attributes of a driver on their way to the server: the class
  name of the adapter, the text that the driver formats of it, and the
  attributes that the server reads from that text.
Trusted boundary: the translation of the class name by famez_adapter.c and
  famez_register.c
Main exports: ClassName, famezAdapter, famezRegister, Survives,
  survives_iff_clean
-/
import FameZ.Lib.Utf8
import FameZ.Link.Drivers

namespace FameZ.Link.PeerAttributes

open PyText
open Scanf (decimal)

/-! ### The class name -/

/-- `Base_C_Class_str`: a C string in 32 bytes. -/
structure ClassName where
  bytes : List UInt8
  notNul : 0 ∉ bytes
  fits : bytes.length < 32

/-- The string as the driver prints it, one character a byte. -/
def ClassName.chars (name : ClassName) : Text :=
  name.bytes.map fun byte => Char.ofNat byte.toNat

/-- The string of `famez_adapter_create`. -/
def famezAdapter : ClassName where
  bytes := "FAME-Z Adapter".toList.map Char.toUInt8
  notNul := by decide
  fits := by decide

/-- The string of `fz_bridge_init`. -/
def bridge : ClassName where
  bytes := "Bridge".toList.map Char.toUInt8
  notNul := by decide
  fits := by decide

/-- The `strncpy` of `famez_register`. -/
def famezRegister (name : ClassName) (core : Kernel.Core) : Kernel.Core :=
  { core with baseCClassStr := name.chars }

/-! ### What the server receives -/

/-- The text that `retrieve` decodes from the bytes of a reply. -/
def received (reply : Kernel.Reply) : Option Text :=
  Utf8.decode (reply.text.map Char.toUInt8)

/-- The request goes to the ACK branch of `_Link_CTL`. -/
def ReachesAck (request : Text) : Prop :=
  ∃ payload ftz details, requestPayload request = some (payload, ftz) ∧
    chelsea (fields payload) = (.linkCtl, ["ACK".toList, details])

/-- The attributes of the proxy become what the driver has: its class as text
and its ids as numbers. -/
def Survives (si : ServerInvariant) (env : Env) (name : ClassName)
    (core : Kernel.Core) (reply : Kernel.Reply) : Prop :=
  ∃ cClass request, Utf8.decode name.bytes = some cClass ∧
    received reply = some request ∧ ReachesAck request ∧
    (handleRequest si request env).2.self.peerattrs =
      ackAttrs cClass (int32 core.sid0) (int32 core.cid0)

/-- The class is text in which nothing separates. -/
def Carries (name : ClassName) : Prop :=
  ∃ cClass, Utf8.decode name.bytes = some cClass ∧ Clean cClass

theorem toUInt8_ofNat (byte : UInt8) :
    (Char.ofNat byte.toNat).toUInt8 = byte := by
  have small : byte.toNat < 256 := byte.toNat_lt
  have valid : byte.toNat.isValidChar := .inl (by omega)
  have code : (Char.ofNat byte.toNat).val.toNat = byte.toNat := by
    rw [Char.ofNat, dif_pos valid]
    rfl
  apply UInt8.toNat_inj.mp
  rw [Char.toUInt8, UInt32.toNat_toUInt8, code]
  exact Nat.mod_eq_of_lt small

theorem toUInt8_chars (name : ClassName) :
    name.chars.map Char.toUInt8 = name.bytes := by
  rw [ClassName.chars, List.map_map]
  conv_rhs => rw [← List.map_id name.bytes]
  apply List.map_congr_left
  intro byte _
  exact toUInt8_ofNat byte

theorem encode_of_ascii {text : Text} (ascii : Ascii text) :
    encode text = text.map Char.toUInt8 := by
  induction text with
  | nil => rfl
  | cons c rest inductionHypothesis =>
      have later := inductionHypothesis fun other member =>
        ascii other (List.mem_cons_of_mem _ member)
      rw [encode] at later ⊢
      rw [List.flatMap_cons, encode_char (ascii c (List.mem_cons_self ..)).2,
        later]
      rfl

/-- The bytes of an ACK are those of its text, if the class is text. -/
theorem bytes_ack {name : ClassName} {cClass : Text}
    (decoded : Utf8.decode name.bytes = some cClass) (sid0 cid0 : Int) :
    (Msg.ack name.chars sid0 cid0).payload.map Char.toUInt8 =
      Utf8.encode (Msg.ack cClass sid0 cid0).payload := by
  have encoded := Utf8.decode_eq_some_iff.mp decoded
  have plain : ∀ {text : Text}, Ascii text →
      text.map Char.toUInt8 = Utf8.encode text :=
    fun ascii => (encode_of_ascii ascii).symm
  unfold Msg.payload
  simp only [List.map_append, Utf8.encode_append]
  rw [toUInt8_chars, ← encoded, plain (by decide), plain (by decide),
    plain (ascii_decimalInt sid0), plain (by decide),
    plain (ascii_decimalInt cid0)]

/-- What an adapter answers, as the server decodes it. -/
theorem received_ack {core : Kernel.Core} {name : ClassName}
    (named : core.baseCClassStr = name.chars) {slot : Kernel.Mailslot}
    {tracker : Option Int}
    (asked : Kernel.cstring slot.buf = Msg.peerAttribute.render tracker)
    {reply : Kernel.Reply}
    (replies : (Kernel.famezLinkRequest slot core).2.2 = some reply)
    {cClass : Text} (decoded : Utf8.decode name.bytes = some cClass) :
    received reply = some (Msg.ack cClass (int32 core.sid0)
      (int32 core.cid0)).payload := by
  rw [famezLinkRequest_of_peerAttribute core asked] at replies
  cases replies
  rw [received, named, bytes_ack decoded, Utf8.decode_encode]

/-! ### A clean class arrives -/

/-- The token of the tracker ends with an equals sign, which a clean class has
not. -/
theorem splitToken_ack {cClass : Text} (clean : Clean cClass)
    (sid0 cid0 : Int) :
    splitToken trackerToken (Msg.ack cClass sid0 cid0).payload =
      [(Msg.ack cClass sid0 cid0).payload] := by
  have parts : (Msg.ack cClass sid0 cid0).payload =
      "Link CTL ACK C-Class=".toList ++ cClass ++
        ',' :: ("SID0=".toList ++ decimalInt sid0 ++ ",CID0=".toList ++
          decimalInt cid0) := by
    unfold Msg.payload
    simp only [List.append_assoc]
    rfl
  have bang : ∀ value : Int, '!' ∉ decimalInt value := fun value =>
    not_mem_decimalInt value (by decide) (by decide)
  rw [parts]
  apply splitToken_of_guarded (show '!' ∉ "Link CTL ACK C-Class=".toList by
    decide) (show '=' ∈ '!' :: "FZT=".toList by decide)
    (fun member => (clean '=' member).2.2 rfl)
    (show ',' ∉ '!' :: "FZT=".toList by decide)
  simp only [List.mem_cons, List.mem_append, not_or]
  exact ⟨by decide, ⟨⟨by decide, bang sid0⟩, by decide⟩, bang cid0⟩

theorem requestPayload_ack {cClass : Text} (clean : Clean cClass)
    (sid0 cid0 : Int) :
    requestPayload (Msg.ack cClass sid0 cid0).payload =
      some ((Msg.ack cClass sid0 cid0).payload, none) := by
  rw [requestPayload, splitToken_ack clean]

theorem reachesAck_of_clean {cClass : Text} (clean : Clean cClass)
    (sid0 cid0 : Int) : ReachesAck (Msg.ack cClass sid0 cid0).payload := by
  have pairs := cleanPairs_ack clean sid0 cid0
  refine ⟨_, none, csv (ackPairs cClass sid0 cid0),
    requestPayload_ack clean sid0 cid0, ?_⟩
  rw [fields_ack, chelsea_linkCtl,
    fields_word (visible_csv pairs) (by simp [ackPairs, csv, csvItem])]

/-! ### Nothing else does -/

/-- The values of a dictionary are pieces of its text. -/
theorem mem_csv2dict {text key value : Text}
    (found : (csv2dict text).get? key = some value) {c : Char}
    (inside : c ∈ value) : c ∈ text ∧ c ≠ ',' ∧ c ≠ '=' := by
  have items : ∀ item ∈ (strip text).splitOn ',', ∀ d ∈ item,
      d ∈ text ∧ d ≠ ',' := fun item member d within =>
    have piece := mem_splitOn member within
    ⟨mem_of_mem_strip piece.1, piece.2⟩
  have initially : ∀ key value, (.empty : Attrs).get? key = some value →
      ∀ d ∈ value, d ∈ text ∧ d ≠ ',' ∧ d ≠ '=' := nofun
  rw [csv2dict] at found
  generalize (.empty : Attrs) = kv at found initially
  generalize (strip text).splitOn ',' = parts at found items
  -- over the items, with the values that are there already
  induction parts generalizing kv with
  | nil => exact initially key value found c inside
  | cons item rest inductionHypothesis =>
      rw [List.foldl_cons] at found
      apply inductionHypothesis _ _ found fun other member =>
        items other (List.mem_cons_of_mem _ member)
      intro otherKey otherValue foundOther d within
      split at foundOther
      · rename_i name raw others pieces
        rw [OrderedDict.get?_set] at foundOther
        split at foundOther
        · cases foundOther
          have piece := mem_splitOn (pieces ▸ List.mem_cons_of_mem _
            (List.mem_cons_self ..)) (mem_of_mem_strip within)
          have whole := items item (List.mem_cons_self ..) d
            (mem_of_mem_strip piece.1)
          exact ⟨whole.1, whole.2, piece.2⟩
        · exact initially _ _ foundOther d within
      · exact initially _ _ foundOther d within

theorem chelseaFrom_suffix {entry : Text} {elements args : List Text}
    {handler : Handler}
    (found : chelseaFrom entry elements = some (handler, args)) :
    args <:+ elements := by
  induction elements generalizing entry with
  | nil => cases found
  | cons e rest inductionHypothesis =>
      rw [chelseaFrom] at found
      split at found
      · cases found
        exact List.suffix_cons _ _
      · exact (inductionHypothesis found).trans (List.suffix_cons e rest)

/-- A handler gets words of the payload. -/
theorem chelsea_suffix {elements args : List Text} {handler : Handler}
    (found : chelsea elements = (handler, args)) : args <:+ elements := by
  rw [chelsea] at found
  cases parts : chelseaFrom [] elements with
  | none =>
      rw [parts] at found
      cases found
      exact List.suffix_refl _
  | some pair =>
      rw [parts, Option.getD_some] at found
      exact chelseaFrom_suffix (parts.trans (congrArg some found))

/-- The ACK branch sets the attributes to what its one word says. -/
theorem peerattrs_of_reachesAck (si : ServerInvariant) (env : Env)
    {request : Text} (reaches : ReachesAck request) :
    ∃ details, Visible details ∧
      (handleRequest si request env).2.self.peerattrs =
        csv2dict details := by
  obtain ⟨payload, ftz, details, parsed, dispatched⟩ := reaches
  refine ⟨details, ?_, ?_⟩
  · have words := chelsea_suffix dispatched
    exact visible_of_mem_fields (words.subset
      (List.mem_cons_of_mem _ (List.mem_cons_self ..)))
  · rw [handleRequest_eq, parsed]
    dsimp only
    rw [dispatch, dispatched]
    dsimp only [call]
    unfold linkCtl
    rw [if_neg (by simp)]
    dsimp only
    rw [if_pos rfl]

theorem clean_of_survives {si : ServerInvariant} {env : Env}
    {name : ClassName} {core : Kernel.Core} {reply : Kernel.Reply}
    (survives : Survives si env name core reply) : Carries name := by
  obtain ⟨cClass, request, decoded, -, reaches, attrs⟩ := survives
  obtain ⟨details, visible, read⟩ := peerattrs_of_reachesAck si env reaches
  have value : (ackAttrs cClass (int32 core.sid0) (int32 core.cid0)).get?
      "C-Class".toList = some cClass := by
    simp [ackAttrs, dictOf, ackPairs, OrderedDict.get?_set]
  rw [← attrs, read] at value
  refine ⟨cClass, decoded, fun c member => ?_⟩
  have piece := mem_csv2dict value member
  exact ⟨visible c piece.1, piece.2⟩

/-- The attributes survive exactly if the class is a word of text without a
comma and without an equals sign, whatever the ids are. -/
theorem survives_iff_clean (si : ServerInvariant) (env : Env)
    {name : ClassName} {core : Kernel.Core}
    (named : core.baseCClassStr = name.chars) {slot : Kernel.Mailslot}
    {tracker : Option Int}
    (asked : Kernel.cstring slot.buf = Msg.peerAttribute.render tracker)
    {reply : Kernel.Reply}
    (replies : (Kernel.famezLinkRequest slot core).2.2 = some reply) :
    Survives si env name core reply ↔ Carries name := by
  constructor
  · exact clean_of_survives
  · rintro ⟨cClass, decoded, clean⟩
    refine ⟨cClass, _, decoded, received_ack named asked replies decoded,
      reachesAck_of_clean clean _ _, ?_⟩
    rw [handleRequest_eq, requestPayload_ack clean]
    dsimp only
    rw [dispatch_ack_clean si clean]

/-! ### The two names of the drivers -/

/-- A manager that asked a driver for its attributes. -/
def manager : ServerInvariant :=
  { smart := some true, isPfm := some true, serverSid0 := 27, serverCid0 := 0,
    cClass := "Switch".toList }

def proxy : Env where
  globals := initialGlobals
  self := ⟨27, 100, none, .empty⟩
  sent := []

theorem decode_chars {text : Text} (ascii : Ascii text) :
    Utf8.decode (text.map Char.toUInt8) = some text := by
  rw [← encode_of_ascii ascii]
  exact Utf8.decode_encode text

/-- The name of `famez_adapter_create` has a space in it. -/
theorem fameZ_adapter_lost :
    ∃ reply, (Kernel.famezLinkRequest
        (posted 3 (Msg.peerAttribute.render (some 4)))
        Kernel.initialCore).2.2 = some reply ∧
      ¬ Survives manager proxy famezAdapter Kernel.initialCore reply := by
  have asked := cstring_posted 3
    (show Ascii (Msg.peerAttribute.render (some 4)) by decide)
  refine ⟨_, congrArg (·.2.2)
    (famezLinkRequest_of_peerAttribute Kernel.initialCore asked), ?_⟩
  intro survives
  obtain ⟨cClass, decoded, clean⟩ := clean_of_survives survives
  have text : Utf8.decode famezAdapter.bytes =
      some "FAME-Z Adapter".toList := decode_chars (by decide)
  rw [text] at decoded
  cases decoded
  exact absurd (clean ' ' (by decide)).1 (by decide)

/-- The name of the bridge driver arrives. -/
theorem bridge_survives :
    ∃ reply, Survives manager proxy bridge
      (famezRegister bridge Kernel.initialCore) reply := by
  have asked := cstring_posted 3
    (show Ascii (Msg.peerAttribute.render (some 4)) by decide)
  have replies := congrArg (·.2.2) (famezLinkRequest_of_peerAttribute
    (famezRegister bridge Kernel.initialCore) asked)
  exact ⟨_, (survives_iff_clean manager proxy rfl asked replies).mpr
    ⟨"Bridge".toList, decode_chars (by decide), by decide⟩⟩

end FameZ.Link.PeerAttributes
