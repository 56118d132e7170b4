/-
Module: FameZ.Console.Words
Purpose: The words of a typed line, from the keyboard of one client through the
  bytes of the mailbox to the handler of another.
Trusted boundary: none
Main exports: requestPayload_stamp_iff, handleRequest_words, typed_words_arrive
-/
import FameZ.Console.Commands
import FameZ.Mailbox.Table

namespace FameZ.Console

open PyText
open Link (trackerToken stamp requestPayload handleRequest)

/-! ### The request -/

theorem int?_one : int? (decimalInt 1) = some 1 := int?_decimalInt 1

theorem splitToken_one :
    splitToken trackerToken (decimalInt 1) = [decimalInt 1] := by decide

/-- What is posted is taken apart again, unless the text looks as if it had a
tracker already. -/
theorem requestPayload_stamp_iff (msg : Text) :
    requestPayload (stamp msg 1) = some (msg, some 1) ↔
      ¬ trackerToken <:+: msg := by
  constructor
  · rintro parsed ⟨before, after, rfl⟩
    obtain ⟨first, others, parts, le⟩ := @splitToken_first_le trackerToken
      (by decide) before (after ++ trackerToken ++ decimalInt 1)
    have same : stamp (before ++ trackerToken ++ after) 1 =
        before ++ (trackerToken ++
          (after ++ trackerToken ++ decimalInt 1)) := by
      simp only [stamp, List.append_assoc]
    have payload : first = before ++ trackerToken ++ after := by
      rw [requestPayload, same, parts] at parsed
      cases others with
      | nil => cases parsed
      | cons ftz more =>
          dsimp only at parsed
          cases number : int? ftz with
          | none =>
              rw [number] at parsed
              cases parsed
          | some value =>
              rw [number] at parsed
              cases parsed
              rfl
    rw [payload, List.length_append, List.length_append] at le
    have some? : 0 < trackerToken.length := by decide
    omega
  · intro absent
    have parts : splitToken trackerToken (stamp msg 1) =
        [msg, decimalInt 1] := by
      rw [stamp, List.append_assoc]
      exact (splitToken_append_of_absent (decimalInt 1) (by decide)
        absent).trans (congrArg (msg :: ·) splitToken_one)
    rw [requestPayload, parts]
    dsimp only
    rw [int?_one]
    rfl

/-- The handler gets the words that were typed. -/
theorem handleRequest_words {words : List Text}
    (visible : ∀ word ∈ words, Visible word ∧ word ≠ [])
    (absent : ¬ trackerToken <:+: joined words) (si : Link.ServerInvariant)
    (env : Link.Env) :
    handleRequest si (stamp (joined words) 1) env =
      Link.call (Link.chelsea words).1 si (Link.chelsea words).2
        (env.follow (some 1)) := by
  rw [Link.handleRequest_eq, (requestPayload_stamp_iff _).mpr absent]
  dsimp only
  rw [Link.dispatch, joined, fields_intercalate visible]

/-! ### The mailbox -/

section

variable {config : Layout.Config}

/-- Every state of the mailbox stands for its table. -/
theorem represents_of_reached {file : Mapped.File} {ops : List (Mapped.Op config)}
    {s : Mapped.State config}
    (reached : Transition.run (Mapped.step config) (Mapped.initial config file)
      ops = some s) : Mapped.Represents s :=
  Transition.run_preserves
    (fun _ _ _ represents taken => (Mapped.step_refined represents taken).1)
    (Mapped.represents_initial config file) reached

/-- What others do to their slots does not show in this one. -/
theorem run_others (own : Mapped.Slot config) {ops : List (Mapped.Op config)}
    (others : ∀ op ∈ ops, op.slot ≠ own) (s : Mapped.State config) :
    ∃ t, Transition.run (Mapped.step config) s ops = some t ∧
      t.table own = s.table own := by
  induction ops generalizing s with
  | nil => exact ⟨s, rfl, rfl⟩
  | cons op rest inductionHypothesis =>
      rw [List.forall_mem_cons] at others
      obtain ⟨t, reached, same⟩ := inductionHypothesis others.2
        ⟨(Mapped.execute op s.mm).2, (s.table.apply op).2⟩
      refine ⟨t, reached, same.trans ?_⟩
      exact Function.update_of_ne others.1.symm _ _

/-- The words of a line that is typed in any state of the mailbox: whatever the
others do to their slots in the meantime, the one who is rung retrieves the text
that was filled, and hands exactly these words to the handler they name, unless
one of them contains the mark of a tracker; then it takes the line for another
one. -/
theorem typed_words_arrive {file : Mapped.File}
    {before between : List (Mapped.Op config)} {s : Mapped.State config}
    (reached : Transition.run (Mapped.step config) (Mapped.initial config file)
      before = some s)
    (own : Mapped.Slot config) (others : ∀ op ∈ between, op.slot ≠ own)
    {line cmd dest : Text} {words : List Text}
    (typed : fields (strip line) = cmd :: dest :: words)
    (fits : Link.FitsSlot (stamp (joined words) 1)) (polls : Nat)
    (si : Link.ServerInvariant) (env : Link.Env) :
    ∃ t, Transition.run (Mapped.step config) s
        (.fill own ⟨.str (stamp (joined words) 1), fits⟩ polls :: between) =
          some t ∧
      (Mapped.execute (.retrieve own false true) t.mm).1 =
        .ok (.mail (s.table own).nodename
          (.str (stamp (joined words) 1))) ∧
      (requestPayload (stamp (joined words) 1) =
          some (joined words, some 1) ↔
        ∀ word ∈ words, ¬ trackerToken <:+: word) ∧
      ((∀ word ∈ words, ¬ trackerToken <:+: word) →
        handleRequest si (stamp (joined words) 1) env =
          Link.call (Link.chelsea words).1 si (Link.chelsea words).2
            (env.follow (some 1))) := by
  have visible : ∀ word ∈ words, Visible word ∧ word ≠ [] := by
    intro word member
    apply visible_of_fields (strip line)
    rw [typed]
    exact List.mem_cons_of_mem _ (List.mem_cons_of_mem _ member)
  have absent : ¬ trackerToken <:+: joined words ↔
      ∀ word ∈ words, ¬ trackerToken <:+: word := by
    rw [joined, infix_intercalate (by decide) (by decide)]
    simp only [not_exists, not_and]
  have represents := represents_of_reached reached
  let filled : Mapped.Op config :=
    .fill own ⟨.str (stamp (joined words) 1), fits⟩ polls
  obtain ⟨t, onward, same⟩ := run_others own others
    ⟨(Mapped.execute filled s.mm).2, (s.table.apply filled).2⟩
  have stands : Mapped.Represents t :=
    Transition.run_preserves
      (fun _ _ _ represents taken =>
        (Mapped.step_refined represents taken).1)
      (@Mapped.step_refined config _ _ filled represents rfl).1 onward
  have entry : t.table own =
      { s.table own with pending := .str (stamp (joined words) 1) } :=
    same.trans (Function.update_self ..)
  refine ⟨t, onward, ?_, (requestPayload_stamp_iff _).trans absent,
    fun free => handleRequest_words visible (absent.mpr free) si env⟩
  have answer := (@Mapped.step_refined config _ _ (.retrieve own false true)
    stands rfl).2.answer
  rw [answer]
  change ((t.table own).pending.given false).map
    (Mapped.Reply.mail (t.table own).nodename) = _
  rw [entry]
  rfl

end

/-- Client 1 asks client 2 for its attributes, which writes to the server
meanwhile. -/
theorem typed_words_arrive_link :
    let config : Layout.Config := ⟨2, false, by decide⟩
    let file : Mapped.File := ⟨Mapped.filesize, fun _ => 7, Nat.le_refl _⟩
    let own : Mapped.Slot config := ⟨1, by decide⟩
    let other : Mapped.Slot config := ⟨2, by decide⟩
    let words := ["Link".toList, "CTL".toList, "Peer-Attribute".toList]
    let si : Link.ServerInvariant := ⟨none, none, 0, 0, "Debugger".toList⟩
    let env : Link.Env :=
      ⟨Link.initialGlobals, ⟨0, 0, some "up".toList, .empty⟩, []⟩
    ∃ t, Transition.run (Mapped.step config) (Mapped.initial config file)
        [.fill own ⟨.str (stamp (joined words) 1), by decide +kernel⟩ 11,
          .fill other ⟨.str "ping".toList, by decide⟩ 11] = some t ∧
      (Mapped.execute (.retrieve own false true) t.mm).1 =
        .ok (.mail ((Mapped.initial config file).table own).nodename
          (.str (stamp (joined words) 1))) ∧
      (requestPayload (stamp (joined words) 1) =
          some (joined words, some 1) ↔
        ∀ word ∈ words, ¬ trackerToken <:+: word) ∧
      ((∀ word ∈ words, ¬ trackerToken <:+: word) →
        handleRequest si (stamp (joined words) 1) env =
          Link.call (Link.chelsea words).1 si (Link.chelsea words).2
            (env.follow (some 1))) := by
  intro config file own other words si env
  have typed : fields (strip "send z02 Link CTL Peer-Attribute".toList) =
      "send".toList :: "z02".toList :: words := by decide +kernel
  have elsewhere : ∀ op ∈ [Mapped.Op.fill other
      ⟨.str "ping".toList, by decide⟩ 11], op.slot ≠ own := by
    intro op member
    rw [List.mem_singleton.mp member]
    exact fun same => absurd (congrArg Subtype.val same) (by decide)
  exact @typed_words_arrive config file [] _ _ rfl own elsewhere _ _ _ _ typed
    _ 11 si env

end FameZ.Console
