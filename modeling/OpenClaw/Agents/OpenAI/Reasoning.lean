import Mathlib.Data.List.Basic
import OpenClaw.Agents.OpenAI

/-!
# Reasoning at the end of a message

Reasoning is replayed only where something else follows it in its message.
-/

namespace OpenClaw.Agents.OpenAI

variable {parse : String → Option Js.Json} {blocks : List Block} {messages : List Message}

/-- Each reasoning item has something to follow it. -/
def Followed (parse : String → Option Js.Json) (blocks : List Block) : Prop :=
  ∀ before block after, blocks = before ++ block :: after →
    isReplayableReasoning parse block = true → hasFollowingNonThinkingBlock after = true

theorem dropReasoning_following (blocks : List Block) :
    hasFollowingNonThinkingBlock (dropReasoning parse blocks) =
      hasFollowingNonThinkingBlock blocks := by
  induction blocks with
  | nil => rfl
  | cons block blocks ih =>
    rw [dropReasoning]
    split
    case isTrue hdrop =>
      simp only [Bool.and_eq_true, Bool.not_eq_true'] at hdrop
      have hthinking : isThinkingBlock block = true := by
        cases block with
        | object type id name rest => exact (Bool.and_eq_true _ _ ▸ hdrop.1).1
        | other v => exact absurd hdrop.1 (by simp [isReplayableReasoning])
      rw [ih, hdrop.2, hasFollowingNonThinkingBlock, List.any_cons, hthinking]
      exact hdrop.2.symm
    case isFalse =>
      rw [hasFollowingNonThinkingBlock, List.any_cons]
      exact congrArg (_ || ·) ih

theorem followed_dropReasoning (blocks : List Block) :
    Followed parse (dropReasoning parse blocks) := by
  induction blocks with
  | nil => rintro before block after h; simp [dropReasoning] at h
  | cons first blocks ih =>
    rw [dropReasoning]
    split
    case isTrue => exact ih
    case isFalse hkept =>
      intro before block after h hreasoning
      cases before with
      | nil =>
        obtain ⟨rfl, rfl⟩ := List.cons.inj h
        rw [dropReasoning_following]
        simpa [hreasoning] using hkept
      | cons _ before => exact ih before block after (List.cons.inj h).2 hreasoning

theorem dropReasoning_eq_self (h : Followed parse blocks) :
    dropReasoning parse blocks = blocks := by
  induction blocks with
  | nil => rfl
  | cons block blocks ih =>
    have hrest : Followed parse blocks := fun before other after heq =>
      h (block :: before) other after (congrArg (block :: ·) heq)
    rw [dropReasoning, if_neg, ih hrest]
    intro hdrop
    simp only [Bool.and_eq_true, Bool.not_eq_true'] at hdrop
    have hfollowed := h [] block blocks rfl hdrop.1
    rw [hdrop.2] at hfollowed
    cases hfollowed

theorem filter_dropReasoning (blocks : List Block) :
    (dropReasoning parse blocks).filter (!isReplayableReasoning parse ·) =
      blocks.filter (!isReplayableReasoning parse ·) := by
  induction blocks with
  | nil => rfl
  | cons block blocks ih =>
    rw [dropReasoning]
    split
    case isTrue hdrop =>
      simp only [Bool.and_eq_true] at hdrop
      rw [ih, List.filter_cons_of_neg (by simp [hdrop.1])]
    case isFalse => rw [List.filter_cons, List.filter_cons, ih]

/-- The blocks of a message of the assistant. -/
def assistantBlocks : Message → List Block
  | .assistant msg => msg.content.getD []
  | _ => []

theorem dropReasoning_sublist (blocks : List Block) :
    (dropReasoning parse blocks).Sublist blocks := by
  induction blocks with
  | nil => exact .slnil
  | cons block blocks ih =>
    rw [dropReasoning]
    split
    · exact ih.cons block
    · exact ih.cons_cons block

def downgradeMessage (parse : String → Option Js.Json) (msg : Message) : Option Message :=
  (downgradeOpenAIReasoningBlocks parse [msg]).head?

theorem downgrade_eq (messages : List Message) : downgradeOpenAIReasoningBlocks parse messages =
    messages.filterMap (downgradeMessage parse) := by
  have hone (f : Message → Option Message) (messages : List Message) :
      messages.filterMap f = messages.filterMap fun msg => ([msg].filterMap f).head? := by
    refine List.filterMap_congr fun msg _ => ?_
    cases h : f msg <;> simp [h]
  exact hone _ messages

/-- What a message becomes, if anything of it is left. -/
structure Downgraded (parse : String → Option Js.Json) (msg : Message) (next : Option Message) :
    Prop where
  followed : ∀ msg' ∈ next, Followed parse (assistantBlocks msg')
  stable : ∀ msg' ∈ next, downgradeMessage parse msg' = some msg'
  others : next.toList.filter (!·.isAssistant) = [msg].filter (!·.isAssistant)
  kept : (next.toList.flatMap assistantBlocks).filter (!isReplayableReasoning parse ·) =
    (assistantBlocks msg).filter (!isReplayableReasoning parse ·)

theorem downgrade_message (parse : String → Option Js.Json) (msg : Message) :
    Downgraded parse msg (downgradeMessage parse msg) := by
  have hplain (h : downgradeMessage parse msg = some msg)
      (hfollowed : Followed parse (assistantBlocks msg)) :
      Downgraded parse msg (downgradeMessage parse msg) := by
    rw [h]
    refine ⟨?_, ?_, rfl, by simp⟩ <;> rintro _ ⟨⟩
    · exact hfollowed
    · exact h
  have hnone : Followed parse [] := fun before _ _ h => absurd h (by simp)
  cases msg with
  | toolResult msg => exact hplain rfl hnone
  | other value => exact hplain rfl hnone
  | assistant msg =>
    obtain ⟨content, stopReason, rest⟩ := msg
    cases content with
    | none => exact hplain rfl hnone
    | some content =>
      have hfollowed : Followed parse _ := followed_dropReasoning content
      have hkept : List.filter (!isReplayableReasoning parse ·) _ = _ :=
        filter_dropReasoning content
      have hsame := dropReasoning_eq_self hfollowed
      have hsub : (dropReasoning parse content).Sublist content := dropReasoning_sublist content
      have hstep : downgradeMessage parse (.assistant ⟨some content, stopReason, rest⟩) =
          if (dropReasoning parse content).length = content.length then
            some (.assistant ⟨some content, stopReason, rest⟩)
          else if (dropReasoning parse content).isEmpty then none
          else some (.assistant ⟨some (dropReasoning parse content), stopReason, rest⟩) := by
        unfold downgradeMessage downgradeOpenAIReasoningBlocks
        rw [List.filterMap_cons, List.filterMap_nil]
        dsimp only
        split_ifs <;> rfl
      by_cases hsize : (dropReasoning parse content).length = content.length
      · rw [hsub.eq_of_length hsize] at hfollowed
        exact hplain (hstep.trans (if_pos hsize)) hfollowed
      · rw [if_neg hsize] at hstep
        rw [hstep]
        split
        case isTrue hempty =>
          rw [List.isEmpty_iff.1 hempty] at hkept
          exact ⟨nofun, nofun, rfl, hkept⟩
        case isFalse =>
          refine ⟨?_, ?_, rfl, by simpa [assistantBlocks] using hkept⟩ <;> rintro _ ⟨⟩
          · exact hfollowed
          · unfold downgradeMessage downgradeOpenAIReasoningBlocks
            simp [hsame]

/-- Reasoning that is replayed has something to follow it in its message; nothing else is
dropped or moved, and downgrading again changes nothing. -/
theorem downgradeOpenAIReasoningBlocks_keeps (parse : String → Option Js.Json)
    (messages : List Message) :
    let out := downgradeOpenAIReasoningBlocks parse messages
    (∀ msg ∈ out, Followed parse (assistantBlocks msg)) ∧
      downgradeOpenAIReasoningBlocks parse out = out ∧
      out.filter (!·.isAssistant) = messages.filter (!·.isAssistant) ∧
      (out.flatMap assistantBlocks).filter (!isReplayableReasoning parse ·) =
        (messages.flatMap assistantBlocks).filter (!isReplayableReasoning parse ·) := by
  simp only [downgrade_eq]
  induction messages with
  | nil => exact ⟨nofun, rfl, rfl, rfl⟩
  | cons msg messages ih =>
    obtain ⟨hfollowed, hstable, hothers, hkept⟩ := ih
    have hmsg := downgrade_message parse msg
    have hcons : (msg :: messages).filterMap (downgradeMessage parse) =
        (downgradeMessage parse msg).toList ++ messages.filterMap (downgradeMessage parse) := by
      rw [List.filterMap_cons]
      cases downgradeMessage parse msg <;> rfl
    rw [hcons]
    refine ⟨fun msg' h => ?_, ?_, ?_, ?_⟩
    · rcases List.mem_append.1 h with h | h
      · exact hmsg.followed msg' (by simpa using h)
      · exact hfollowed msg' h
    · rw [List.filterMap_append, hstable]
      congr 1
      cases hnext : downgradeMessage parse msg with
      | none => rfl
      | some next => simp [hmsg.stable next hnext]
    · rw [List.filter_append, hmsg.others, hothers, ← List.filter_append]
      rfl
    · rw [List.flatMap_append, List.filter_append, hmsg.kept, hkept, ← List.filter_append]
      rfl

end OpenClaw.Agents.OpenAI
