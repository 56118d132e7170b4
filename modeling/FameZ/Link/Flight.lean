/-
Module: FameZ.Link.Flight
Purpose: The messages in flight as the messages of honest parties, each tag at
  most once and with its entry at the server.
Trusted boundary: none
Main exports: Item, Honest, TagsKept, Flight
-/
import FameZ.Link.Exchange

namespace FameZ.Link

open PyText
open Scanf (decimal decimal_injective)

/-! ### The messages in flight -/

/-- A mail as the message it carries. -/
structure Item where
  side : Side
  id : Nat
  msg : Msg
  tracker : Option Int
  configured : Bool

def Item.mail (item : Item) : Mail :=
  { side := item.side, id := item.id, text := item.msg.render item.tracker,
    configured := item.configured }

/-- The classes that clients name. -/
def clientClasses : List Text :=
  ["Debugger".toList, "FAME-Z Adapter".toList, "Bridge".toList]

/-- The messages that parties send. -/
inductive Honest (config : Config) : Side → Nat → Msg → Bool → Prop where
  | linkRfc {id ttc : Nat} {configured : Bool} :
      Honest config .server id (.linkRfc ttc) configured
  | standaloneAck {id tag : Nat} {configured : Bool} :
      Honest config .server id (.standaloneAck tag) configured
  | query {side : Side} {id : Nat} {configured : Bool} :
      Honest config side id .peerAttribute configured
  | answer {id : Nat} {cClass : Text} {sid0 cid0 : Int} {configured : Bool}
      (known : cClass ∈ clientClasses)
      (ids : configured = true →
        sid0 = Server.defaultSid ∧ cid0 = (id : Int) * 100) :
      Honest config .server id (.ack cClass sid0 cid0) configured
  | ctlWrite {id tag : Nat} {configured : Bool} :
      Honest config .client id
        (.ctlWrite Server.defaultSid (config.serverId * 100)
          Server.defaultSid ((id : Int) * 100) tag) configured
  | switch {id : Nat} {sid0 cid0 : Int} {configured : Bool} :
      Honest config .client id (.ack "Switch".toList sid0 cid0) configured

theorem Honest.plain {config : Config} {side : Side} {id : Nat} {msg : Msg}
    {configured : Bool} (honest : Honest config side id msg configured) :
    msg.Plain := by
  cases honest with
  | answer known =>
      have each : ∀ cClass ∈ clientClasses, ',' ∉ cClass ∧ '!' ∉ cClass := by
        decide
      exact each _ known
  | switch => exact ⟨by decide, by decide⟩
  | _ => trivial

/-- The tag a message carries. -/
def Msg.tag? : Msg → Option Nat
  | .ctlWrite _ _ _ _ tag => some tag
  | .standaloneAck tag => some tag
  | _ => none

def Item.tag? (item : Item) : Option Nat := item.msg.tag?

/-- Every tag in flight is there once and has its entry. -/
structure TagsKept (globals : Globals) (items : List Item) : Prop where
  fresh : ∀ item ∈ items, ∀ tag, item.tag? = some tag →
    tag < globals.nextTag
  entry : ∀ item ∈ items, ∀ tag, item.tag? = some tag →
    ∃ head, '|' ∉ head ∧
      globals.tagged.get? (decimal tag) = some (head ++ '|' :: afterAck)
  once : (items.filterMap Item.tag?).Nodup

namespace TagsKept

variable {globals after : Globals} {items rest : List Item} {item : Item}

theorem nil (globals : Globals) : TagsKept globals [] :=
  ⟨fun _ member => (by cases member), fun _ member => (by cases member),
    List.nodup_nil⟩

theorem perm {others : List Item} (kept : TagsKept globals items)
    (same : items.Perm others) : TagsKept globals others :=
  ⟨fun item member => kept.fresh item (same.mem_iff.mpr member),
    fun item member => kept.entry item (same.mem_iff.mpr member),
    (same.filterMap _).nodup_iff.mp kept.once⟩

theorem sublist (kept : TagsKept globals items)
    (fewer : rest.Sublist items) : TagsKept globals rest :=
  ⟨fun item member => kept.fresh item (fewer.subset member),
    fun item member => kept.entry item (fewer.subset member),
    kept.once.sublist (fewer.filterMap _)⟩

theorem tail (kept : TagsKept globals (item :: rest)) :
    TagsKept globals rest :=
  kept.sublist (List.sublist_cons_self item rest)

/-- Only the counter and the entries matter. -/
theorem of_eq (kept : TagsKept globals items)
    (nextTag : after.nextTag = globals.nextTag)
    (tagged : after.tagged = globals.tagged) : TagsKept after items := by
  refine ⟨?_, ?_, kept.once⟩
  · rw [nextTag]
    exact kept.fresh
  · rw [tagged]
    exact kept.entry

theorem untagged (kept : TagsKept globals rest)
    (noTag : item.tag? = none) : TagsKept globals (item :: rest) := by
  refine ⟨?_, ?_, ?_⟩
  · intro other member tag carries
    rcases List.mem_cons.mp member with rfl | later
    · rw [noTag] at carries
      cases carries
    · exact kept.fresh other later tag carries
  · intro other member tag carries
    rcases List.mem_cons.mp member with rfl | later
    · rw [noTag] at carries
      cases carries
    · exact kept.entry other later tag carries
  · rw [List.filterMap_cons_none noTag]
    exact kept.once

/-- The acknowledgment carries the tag on. -/
theorem passOn {other : Item} (kept : TagsKept globals (item :: rest))
    (same : other.tag? = item.tag?) :
    TagsKept globals (other :: rest) := by
  refine ⟨?_, ?_, ?_⟩
  · intro which member tag carries
    rcases List.mem_cons.mp member with rfl | later
    · exact kept.fresh item (List.mem_cons_self ..) tag (same ▸ carries)
    · exact kept.tail.fresh which later tag carries
  · intro which member tag carries
    rcases List.mem_cons.mp member with rfl | later
    · exact kept.entry item (List.mem_cons_self ..) tag (same ▸ carries)
    · exact kept.tail.entry which later tag carries
  · have once := kept.once
    rw [List.filterMap_cons] at once ⊢
    rw [same]
    exact once

/-- A new tag has no message in flight yet. -/
theorem issue (kept : TagsKept globals rest) {head : Text}
    (plain : '|' ∉ head) (carries : item.tag? = some globals.nextTag)
    (nextTag : after.nextTag = globals.nextTag + 1)
    (tagged : after.tagged = globals.tagged.set (decimal globals.nextTag)
      (head ++ '|' :: afterAck)) : TagsKept after (item :: rest) := by
  refine ⟨?_, ?_, ?_⟩
  · intro other member tag has
    rw [nextTag]
    rcases List.mem_cons.mp member with rfl | later
    · rw [carries] at has
      cases has
      exact Nat.lt_succ_self _
    · exact Nat.lt_succ_of_lt (kept.fresh other later tag has)
  · intro other member tag has
    rw [tagged]
    rcases List.mem_cons.mp member with rfl | later
    · rw [carries] at has
      cases has
      exact ⟨head, plain, OrderedDict.get?_set_self _ _ _⟩
    · have older := kept.fresh other later tag has
      have differ : decimal tag ≠ decimal globals.nextTag := fun same =>
        Nat.ne_of_lt older (decimal_injective same)
      rw [OrderedDict.get?_set_of_ne _ _ differ]
      exact kept.entry other later tag has
  · rw [List.filterMap_cons_some carries, List.nodup_cons]
    refine ⟨fun again => ?_, kept.once⟩
    obtain ⟨other, later, has⟩ := List.mem_filterMap.mp again
    exact Nat.lt_irrefl _ (kept.fresh other later _ has)

/-- A tag taken back is not in flight any more. -/
theorem untag (kept : TagsKept globals (item :: rest)) {tag : Nat}
    (carries : item.tag? = some tag)
    (nextTag : after.nextTag = globals.nextTag)
    (tagged : after.tagged = globals.tagged.del (decimal tag)) :
    TagsKept after rest := by
  have once := kept.once
  rw [List.filterMap_cons_some carries, List.nodup_cons] at once
  refine ⟨?_, ?_, once.2⟩
  · rw [nextTag]
    exact kept.tail.fresh
  · intro other later otherTag has
    have differ : decimal otherTag ≠ decimal tag := by
      intro same
      rw [decimal_injective same] at has
      exact once.1 (List.mem_filterMap.mpr ⟨other, later, has⟩)
    rw [tagged, OrderedDict.get?_del_of_ne _ differ]
    exact kept.tail.entry other later otherTag has

end TagsKept

/-- What is in flight. -/
structure Flight (config : Config) (globals : Globals) (items : List Item) :
    Prop where
  honest : ∀ item ∈ items,
    Honest config item.side item.id item.msg item.configured
  tags : TagsKept globals items

/-- The items of one text. -/
def Item.posts (item : Item) : List Item :=
  if FitsSlot (item.msg.render item.tracker) then [item] else []

theorem Item.map_mail_posts (item : Item) :
    item.posts.map Item.mail =
      (fitting (item.msg.render item.tracker)).map fun text =>
        { side := item.side, id := item.id, text := text,
          configured := item.configured } := by
  unfold Item.posts fitting
  split <;> rfl

namespace Flight

variable {config : Config} {globals after : Globals} {items rest : List Item}
  {item other : Item}

theorem perm {others : List Item} (flight : Flight config globals items)
    (same : items.Perm others) : Flight config globals others :=
  ⟨fun item member => flight.honest item (same.mem_iff.mpr member),
    flight.tags.perm same⟩

theorem sublist (flight : Flight config globals items)
    (fewer : rest.Sublist items) : Flight config globals rest :=
  ⟨fun item member => flight.honest item (fewer.subset member),
    flight.tags.sublist fewer⟩

theorem tail (flight : Flight config globals (item :: rest)) :
    Flight config globals rest :=
  flight.sublist (List.sublist_cons_self item rest)

/-- A message is posted behind the others, if it fits. -/
theorem post (flight : Flight config globals (item :: rest)) :
    Flight config globals (rest ++ item.posts) := by
  have behind : Flight config globals (rest ++ [item]) :=
    flight.perm (List.perm_append_singleton item rest).symm
  apply behind.sublist
  unfold Item.posts
  split
  · exact List.Sublist.refl _
  · rw [List.append_nil]
    exact List.sublist_append_left rest [item]

theorem honest_cons (flight : Flight config globals rest)
    (honest : Honest config item.side item.id item.msg item.configured)
    (tags : TagsKept after (item :: rest)) :
    Flight config after (item :: rest) := by
  refine ⟨fun which member => ?_, tags⟩
  rcases List.mem_cons.mp member with rfl | later
  · exact honest
  · exact flight.honest which later

end Flight

end FameZ.Link
