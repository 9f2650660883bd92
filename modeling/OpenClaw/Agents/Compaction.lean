import OpenClaw.Agents.TranscriptRepair.Idempotent
import OpenClaw.Js.Double
import OpenClaw.Lib.Loop

/-!
# Pruning the history

`pruneHistoryForContextShare`: the oldest part of the history is dropped and the
pairing of the rest repaired, until the rest fits the budget or is not split any
more. A repair may add results and drop others, but after the first round no
result leads the history, so that each later round drops a message of another kind.
-/

namespace OpenClaw.Agents.Compaction

open Js (Number toDouble floorNat)
open Groups (lead groups flatten lead_append_flatten)

-- ---
-- Tokens
-- ---

def stripDetails : Message → Message
  | .toolResult msg => .toolResult { msg with rest := msg.rest.filter (·.1 ≠ "details") }
  | msg => msg

def stripToolResultDetails (messages : List Message) : List Message := messages.map stripDetails

section
variable (estimateTokens : Message → Nat)

def estimateMessagesTokens (messages : List Message) : Nat :=
  ((stripToolResultDetails messages).map estimateTokens).sum

def estimateCompactionMessageTokens (message : Message) : Nat :=
  estimateMessagesTokens estimateTokens [message]

-- ---
-- Chunks
-- ---

def DEFAULT_PARTS : Number := .fin 2

def normalizeParts (parts : Number) (messageCount : Nat) : Nat :=
  match parts with
  | .fin q => if q ≤ 1 then 1 else min (max 1 (floorNat q)) (max 1 messageCount)
  | _ => 1

/-- The loop over the messages. -/
def splitLoop (parts : Nat) (targetTokens : Rat) :
    List (List Message) → List Message → Nat → List Message → List (List Message)
  | chunks, current, _, [] => if current.isEmpty then chunks else chunks ++ [current]
  | chunks, current, currentTokens, message :: messages =>
    let messageTokens := estimateCompactionMessageTokens estimateTokens message
    if chunks.length < parts - 1 && !current.isEmpty &&
        targetTokens < (currentTokens + messageTokens : Nat) then
      splitLoop parts targetTokens (chunks ++ [current]) [message] messageTokens messages
    else
      splitLoop parts targetTokens chunks (current ++ [message]) (currentTokens + messageTokens)
        messages

def splitMessagesByTokenShare (messages : List Message) (parts : Number) : List (List Message) :=
  if messages.isEmpty then []
  else
    let normalizedParts := normalizeParts parts messages.length
    if normalizedParts ≤ 1 then [messages]
    else
      let totalTokens := estimateMessagesTokens estimateTokens messages
      splitLoop estimateTokens normalizedParts (toDouble (totalTokens / normalizedParts)) [] [] 0
        messages

-- ---
-- Pruning
-- ---

/-- The local variables of the loop. -/
structure PruneState where
  keptMessages : List Message
  allDroppedMessages : List Message
  droppedChunks : Nat
  droppedMessages : Nat
  droppedTokens : Nat

/-- One round. `now n` is the clock during the repair of round `n`. -/
def pruneBody (now : Nat → Nat → Number) (budgetTokens parts : Nat) (st : PruneState) :
    PruneState ⊕ PruneState :=
  if st.keptMessages.isEmpty || estimateMessagesTokens estimateTokens st.keptMessages ≤ budgetTokens
  then .inr st
  else
    match splitMessagesByTokenShare estimateTokens st.keptMessages (.fin parts) with
    | dropped :: next :: rest =>
      let repairReport :=
        repairToolUseResultPairing (now st.droppedChunks) (next :: rest).flatten none
      .inl {
        keptMessages := repairReport.messages
        allDroppedMessages := st.allDroppedMessages ++ dropped
        droppedChunks := st.droppedChunks + 1
        droppedMessages := st.droppedMessages + (dropped.length + repairReport.droppedOrphanCount)
        droppedTokens := st.droppedTokens + estimateMessagesTokens estimateTokens dropped }
    | _ => .inr st

structure PruneParams where
  messages : List Message
  maxContextTokens : Rat
  maxHistoryShare : Option Rat
  parts : Option Number

structure PruneResult where
  messages : List Message
  droppedMessagesList : List Message
  droppedChunks : Nat
  droppedMessages : Nat
  droppedTokens : Nat
  keptTokens : Nat
  budgetTokens : Nat

def budgetTokens (params : PruneParams) : Nat :=
  max 1 (floorNat (toDouble (params.maxContextTokens * params.maxHistoryShare.getD (1 / 2))))

def pruneParts (params : PruneParams) : Nat :=
  normalizeParts (params.parts.getD DEFAULT_PARTS) params.messages.length

/-- The loop, for at most `rounds` rounds. -/
def pruneHistoryForContextShare (now : Nat → Nat → Number) (params : PruneParams) (rounds : Nat) :
    Option PruneResult :=
  (Loop.rounds (pruneBody estimateTokens now (budgetTokens params) (pruneParts params)) rounds
    ⟨params.messages, [], 0, 0, 0⟩).map fun st =>
      { messages := st.keptMessages
        droppedMessagesList := st.allDroppedMessages
        droppedChunks := st.droppedChunks
        droppedMessages := st.droppedMessages
        droppedTokens := st.droppedTokens
        keptTokens := estimateMessagesTokens estimateTokens st.keptMessages
        budgetTokens := budgetTokens params }

end

end OpenClaw.Agents.Compaction

/-!
# Pruning comes to its end

The variant of the loop counts the messages that are no results, twice, and one
more where a result leads the history.
-/

namespace OpenClaw.Agents.Compaction

open Js (Number toDouble floorNat)
open Groups (lead groups flatten lead_append_flatten)

-- ---
-- Chunks
-- ---

section
variable {estimateTokens : Message → Nat}

theorem flatten_splitLoop (chunks : List (List Message)) (current messages : List Message) (n : Nat) :
    (splitLoop estimateTokens parts target chunks current n messages).flatten =
      chunks.flatten ++ (current ++ messages) := by
  induction messages generalizing chunks current n with
  | nil =>
    rw [splitLoop]
    split
    · rename_i hempty
      rw [List.isEmpty_iff.1 hempty, List.append_nil, List.append_nil]
    · rw [List.flatten_append, List.flatten_singleton, List.append_nil]
  | cons message messages ih =>
    rw [splitLoop]
    split
    · rw [ih, List.flatten_append, List.flatten_singleton, List.append_assoc]
      rfl
    · rw [ih, List.append_assoc]
      rfl

/-- No chunk is empty. -/
theorem splitLoop_ne_nil (hchunks : ∀ chunk ∈ chunks, chunk ≠ [])
    (h : chunk ∈ splitLoop estimateTokens parts target chunks current n messages) : chunk ≠ [] := by
  induction messages generalizing chunks current n with
  | nil =>
    rw [splitLoop] at h
    split at h
    · exact hchunks chunk h
    · rename_i hcurrent
      obtain h | h := List.mem_append.1 h
      · exact hchunks chunk h
      · rw [List.mem_singleton.1 h]
        exact fun heq => hcurrent (List.isEmpty_iff.2 heq)
  | cons message messages ih =>
    rw [splitLoop] at h
    split at h
    · rename_i hsplit
      simp only [Bool.and_eq_true, Bool.not_eq_true', List.isEmpty_eq_false_iff] at hsplit
      refine ih ?_ h
      intro chunk' hchunk'
      obtain hchunk' | hchunk' := List.mem_append.1 hchunk'
      · exact hchunks chunk' hchunk'
      · rw [List.mem_singleton.1 hchunk']
        exact hsplit.1.2
    · exact ih hchunks h

theorem flatten_splitMessagesByTokenShare (estimateTokens : Message → Nat) (messages : List Message) (parts : Number) :
    (splitMessagesByTokenShare estimateTokens messages parts).flatten = messages := by
  unfold splitMessagesByTokenShare
  split
  · rename_i hempty
    rw [List.isEmpty_iff.1 hempty]
    rfl
  · dsimp only
    split
    · exact List.flatten_singleton
    · exact flatten_splitLoop ..

theorem splitMessagesByTokenShare_ne_nil (estimateTokens : Message → Nat)
    (messages : List Message) (parts : Number)
    (h : chunk ∈ splitMessagesByTokenShare estimateTokens messages parts) : chunk ≠ [] := by
  unfold splitMessagesByTokenShare at h
  split at h
  · cases h
  · rename_i hsome
    dsimp only at h
    split at h
    · rw [List.mem_singleton.1 h]
      exact fun heq => hsome (List.isEmpty_iff.2 heq)
    · exact splitLoop_ne_nil (by simp) h

end

-- ---
-- Repairs
-- ---

/-- A repaired transcript starts with no result. -/
theorem head?_repaired (now : Nat → Number) (messages : List Message)
    (h : (repairToolUseResultPairing now messages none).messages.head? = some m) :
    m.isToolResult = false := by
  obtain ⟨hlead, -, -⟩ := repaired_turn now messages none
  generalize (repairToolUseResultPairing now messages none).messages = out at *
  cases out with
  | nil => cases h
  | cons first rest =>
    obtain rfl := Option.some.inj h
    cases hassistant : first.isAssistant with
    | true =>
      cases first with
      | assistant a => rfl
      | toolResult r => cases hassistant
      | other v => rfl
    | false =>
      have hmem : first ∈ lead Message.isAssistant (first :: rest) := by
        simp [lead, hassistant]
      rw [hlead, List.mem_filter] at hmem
      simpa [notToolResult] using hmem.2

-- ---
-- One round
-- ---

def others (messages : List Message) : List Message := messages.filter notToolResult

/-- What the loop runs down. -/
def variant (messages : List Message) : Nat :=
  2 * (others messages).length + if messages.head?.any Message.isToolResult then 1 else 0

section
variable {estimateTokens : Message → Nat} {now : Nat → Nat → Number}

/-- What a round drops and what the repair of the rest leaves. -/
theorem pruneBody_next (h : pruneBody estimateTokens now budget parts st = .inl st') :
    ∃ dropped rest, dropped ≠ [] ∧ st.keptMessages = dropped ++ rest ∧
      st'.keptMessages = (repairToolUseResultPairing (now st.droppedChunks) rest none).messages := by
  unfold pruneBody at h
  split at h
  · cases h
  · split at h
    · rename_i dropped next rest hsplit
      obtain rfl := Sum.inl.inj h
      refine ⟨dropped, (next :: rest).flatten, ?_, ?_, rfl⟩
      · refine splitMessagesByTokenShare_ne_nil estimateTokens st.keptMessages (.fin parts) ?_
        rw [hsplit]
        exact List.mem_cons_self
      · have hflatten := flatten_splitMessagesByTokenShare estimateTokens st.keptMessages
          (.fin parts)
        rw [hsplit] at hflatten
        exact hflatten.symm
    · cases h

theorem pruneBody_others (h : pruneBody estimateTokens now budget parts st = .inl st') :
    others st'.keptMessages <:+ others st.keptMessages := by
  obtain ⟨dropped, rest, -, hkept, hrepaired⟩ := pruneBody_next h
  have hothers := (repaired_lossless (now st.droppedChunks) rest none).others
  rw [others, others, hrepaired, hkept, hothers, List.filter_append]
  exact List.suffix_append ..

theorem pruneBody_variant (h : pruneBody estimateTokens now budget parts st = .inl st') :
    variant st'.keptMessages < variant st.keptMessages := by
  obtain ⟨dropped, rest, hdropped, hkept, hrepaired⟩ := pruneBody_next h
  obtain ⟨first, dropped, rfl⟩ := List.exists_cons_of_ne_nil hdropped
  have hle := (pruneBody_others h).length_le
  have hhead : st'.keptMessages.head?.any Message.isToolResult = false := by
    cases hfirst : st'.keptMessages.head? with
    | none => rfl
    | some m =>
      rw [hrepaired] at hfirst
      exact head?_repaired _ _ hfirst
  have hafter : variant st'.keptMessages = 2 * (others st'.keptMessages).length := by
    rw [variant, hhead]
    rfl
  rw [hafter]
  unfold variant
  cases hresult : first.isToolResult with
  | true =>
    have hled : st.keptMessages.head?.any Message.isToolResult = true := by
      rw [hkept]
      exact hresult
    rw [hled, if_pos rfl]
    omega
  | false =>
    have hothers := (repaired_lossless (now st.droppedChunks) rest none).others
    have hcount : (others st'.keptMessages).length < (others st.keptMessages).length := by
      rw [others, others, hrepaired, hothers, hkept, List.cons_append, List.filter_cons,
        if_pos (by simp [notToolResult, hresult]), List.length_cons, List.filter_append,
        List.length_append]
      omega
    omega

/-- When the loop stops, the rest fits or is not split. -/
theorem pruneBody_done (h : pruneBody estimateTokens now budget parts st = .inr done) :
    done = st ∧ (estimateMessagesTokens estimateTokens st.keptMessages ≤ budget ∨
      (splitMessagesByTokenShare estimateTokens st.keptMessages (.fin parts)).length ≤ 1) := by
  unfold pruneBody at h
  split at h
  · rename_i hfits
    refine ⟨(Sum.inr.inj h).symm, .inl ?_⟩
    obtain hempty | hfits := Bool.or_eq_true_iff.1 hfits
    · rw [List.isEmpty_iff.1 hempty]
      exact Nat.zero_le _
    · exact of_decide_eq_true hfits
  · split at h
    · cases h
    · rename_i hshort
      refine ⟨(Sum.inr.inj h).symm, .inr ?_⟩
      generalize splitMessagesByTokenShare estimateTokens st.keptMessages (.fin parts) = chunks at *
      cases chunks with
      | nil => exact Nat.zero_le _
      | cons dropped chunks =>
        cases chunks with
        | nil => exact Nat.le_refl _
        | cons next rest => exact absurd rfl (hshort dropped next rest)

end

-- ---
-- The loop
-- ---

theorem variant_lt (messages : List Message) : variant messages < 2 * messages.length + 2 := by
  have hle : (others messages).length ≤ messages.length := List.length_filter_le _ _
  unfold variant
  split <;> omega

theorem rounds_pruneBody_isSome (estimateTokens : Message → Nat) (now : Nat → Nat → Number)
    (budget parts : Nat) (st : PruneState) (hn : variant st.keptMessages < n) :
    (Loop.rounds (pruneBody estimateTokens now budget parts) n st).isSome = true :=
  Loop.rounds_isSome (fun st => variant st.keptMessages) (fun _ _ => pruneBody_variant) hn

/-- Pruning ends, with what fits the budget or is not split any more; of the messages
that are no results the last ones are left, as they were. -/
theorem pruneHistoryForContextShare_ends (estimateTokens : Message → Nat)
    (now : Nat → Nat → Number) (params : PruneParams) :
    ∃ result, pruneHistoryForContextShare estimateTokens now params
        (2 * params.messages.length + 2) = some result ∧
      (estimateMessagesTokens estimateTokens result.messages ≤ budgetTokens params ∨
        (splitMessagesByTokenShare estimateTokens result.messages
          (.fin (pruneParts params))).length ≤ 1) ∧
      others result.messages <:+ others params.messages := by
  obtain ⟨done, hdone⟩ := Option.isSome_iff_exists.1
    (rounds_pruneBody_isSome estimateTokens now (budgetTokens params) (pruneParts params)
      ⟨params.messages, [], 0, 0, 0⟩ (variant_lt params.messages))
  refine ⟨_, by rw [pruneHistoryForContextShare, hdone]; rfl, ?_⟩
  refine Loop.rounds_invariant (I := fun st => others st.keptMessages <:+ others params.messages)
    (P := fun st => (estimateMessagesTokens estimateTokens st.keptMessages ≤ budgetTokens params ∨
      (splitMessagesByTokenShare estimateTokens st.keptMessages
        (.fin (pruneParts params))).length ≤ 1) ∧
      others st.keptMessages <:+ others params.messages)
    List.suffix_rfl (fun st st' hst h => (pruneBody_others h).trans hst) ?_ hdone
  intro st done hst h
  obtain ⟨rfl, hexit⟩ := pruneBody_done h
  exact ⟨hexit, hst⟩

end OpenClaw.Agents.Compaction
