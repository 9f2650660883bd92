import OpenClaw.Agents.ToolCallId
import OpenClaw.Agents.TranscriptRepair.Turns

/-!
# Which call a result answers

A result takes the rewritten id of the first call with its raw id that is still
open. When the calls of its own turn are the only open ones, that is a call of
its turn, and the repaired transcript keeps the result there.
-/

namespace OpenClaw.Agents

open Js (Json)
open Groups

-- ---
-- Blocks
-- ---

section
variable (src : IdSource) (mode : ToolCallIdMode) {st : Resolver}

theorem rewriteBlock_none (h : Block.toolCall? b = none) : rewriteBlock src mode st b = (b, st) := by
  cases b with
  | other v => rfl
  | object type id name rest =>
    cases hid : nonEmptyString id with
    | none => simp [rewriteBlock, hid]
    | some rawId =>
      cases htype : isToolCallType type with
      | false => simp [rewriteBlock, hid, htype]
      | true => simp [Block.toolCall?, hid, htype] at h

theorem rewriteBlock_some (h : Block.toolCall? b = some call) :
    ∃ b', rewriteBlock src mode st b = (b', (resolveAssistantId src mode st call.id).2) ∧
      b'.toolCall? = some { call with id := (resolveAssistantId src mode st call.id).1 } := by
  cases b with
  | other v => cases h
  | object type id name rest =>
    cases hid : nonEmptyString id with
    | none => simp [Block.toolCall?, hid] at h
    | some rawId =>
      cases htype : isToolCallType type with
      | false => simp [Block.toolCall?, hid, htype] at h
      | true =>
        simp only [Block.toolCall?, hid, htype, ↓reduceIte, Option.some.injEq] at h
        subst h
        refine ⟨.object type (some (.str (resolveAssistantId src mode st rawId).1)) name rest,
          by simp only [rewriteBlock, hid, htype, ↓reduceIte], ?_⟩
        have hne : (resolveAssistantId src mode st rawId).1 ≠ "" := makeUniqueToolId_ne _ _
        simp [Block.toolCall?, htype, nonEmptyString_str hne]

def blockIds (content : List Block) : List String := (content.filterMap Block.toolCall?).map (·.id)

theorem blockIds_none (h : Block.toolCall? b = none) (content : List Block) :
    blockIds (b :: content) = blockIds content := by simp [blockIds, h]

theorem blockIds_some (h : Block.toolCall? b = some call) (content : List Block) :
    blockIds (b :: content) = call.id :: blockIds content := by simp [blockIds, h]

/-- Rewriting a message's blocks encounters its calls in order. -/
theorem rewriteBlocks_spec (h : Encountered calls answered st) (content : List Block) :
    let result := mapState (rewriteBlock src mode) st content
    (blockIds result.1).length = (blockIds content).length ∧
      Encountered (calls ++ (blockIds content).zip (blockIds result.1)) answered result.2 ∧
      (∀ r, (result.2.pendingByRawId r).length =
        (st.pendingByRawId r).length + (blockIds content).count r) ∧
      st.used <+: result.2.used := by
  induction content generalizing calls st with
  | nil => exact ⟨rfl, by simpa [blockIds] using h, by simp [blockIds], List.prefix_refl _⟩
  | cons b content ih =>
    simp only [mapState.cons]
    cases hcall : b.toolCall? with
    | none =>
      rw [rewriteBlock_none src mode hcall, blockIds_none hcall, blockIds_none hcall]
      exact ih h
    | some call =>
      obtain ⟨b', hb', hcall'⟩ := rewriteBlock_some src mode hcall
      obtain ⟨hlen, henc, hpending, hused⟩ :=
        ih (h.resolveAssistantId src mode call.id)
      rw [hb', blockIds_some hcall, blockIds_some hcall']
      refine ⟨by simp [hlen], ?_, fun r => ?_, (resolveAssistantId_used _ _ _ _).trans hused⟩
      · simpa using henc
      · rw [hpending, resolveAssistantId_pending, Nat.add_assoc, ← List.count_append,
          List.singleton_append]

-- ---
-- Messages
-- ---

/-- The raw ids a result resolves: one if both its fields agree. -/
def resolvedIds (message : ToolResultMessage) : List String :=
  let toolCallId := nonEmptyString message.toolCallId
  let toolUseId := nonEmptyString message.toolUseId
  if toolCallId.isSome ∧ toolCallId = toolUseId then toolCallId.toList
  else toolCallId.toList ++ toolUseId.toList

/-- The calls with a raw id that have no result yet, if each result with that
raw id answers one of them. -/
def openCalls (rawId : String) (messages : List Message) : Nat :=
  messages.foldl (fun n message => match message with
    | .assistant a => n + a.callIds.count rawId
    | .toolResult m => n - (resolvedIds m).count rawId
    | .other _ => n) 0

/-- The calls of a rewritten transcript: raw and rewritten id. -/
def callPairs (done : List (Message × Message)) : List (String × String) :=
  done.flatMap fun
    | (.assistant a, .assistant a') => a.callIds.zip a'.callIds
    | _ => []

theorem callPairs_append (done done' : List (Message × Message)) :
    callPairs (done ++ done') = callPairs done ++ callPairs done' := by simp [callPairs]

theorem overwriteId_some (field : Option Json) (h : next ≠ "") :
    nonEmptyString (overwriteId field (some next)) = some next := by
  simp [overwriteId, h, nonEmptyString_str]

theorem rewriteAssistant_spec (h : Encountered calls answered st) (a : AssistantMessage) :
    let result := rewriteAssistantToolCallIds src mode st a
    result.1.callIds.length = a.callIds.length ∧ result.1.stopReason = a.stopReason ∧
      Encountered (calls ++ a.callIds.zip result.1.callIds) answered result.2 ∧
      (∀ r, (result.2.pendingByRawId r).length =
        (st.pendingByRawId r).length + a.callIds.count r) ∧
      st.used <+: result.2.used := by
  obtain ⟨content, stopReason, rest⟩ := a
  cases content with
  | none =>
    exact ⟨rfl, rfl, by simpa [rewriteAssistantToolCallIds, AssistantMessage.callIds,
      extractToolCallsFromAssistant] using h, fun r => rfl, List.prefix_refl _⟩
  | some content =>
    obtain ⟨hlen, henc, hpending, hused⟩ := rewriteBlocks_spec src mode h content
    exact ⟨hlen, rfl, henc, hpending, hused⟩

/-- A result resolves its raw ids in turn, the one that names it first. -/
theorem rewriteToolResult_spec (h : Encountered calls answered st) (m : ToolResultMessage) :
    let result := rewriteToolResultIds src mode st m
    (∃ ids, Encountered calls (answered ++ ids) result.2 ∧
      ∀ id, extractToolResultId result.1 = some id → id ∈ ids) ∧
    (∀ rawId, extractToolResultId m = some rawId →
      extractToolResultId result.1 = some (resolveToolResultId src mode st rawId).1) ∧
    (∀ r, (result.2.pendingByRawId r).length =
      (st.pendingByRawId r).length - (resolvedIds m).count r) ∧
    st.used <+: result.2.used := by
  intro result
  cases hc : nonEmptyString m.toolCallId with
  | none =>
    have hresult : result = ({ m with
        toolUseId := overwriteId m.toolUseId
          (resolveOptional src mode st (nonEmptyString m.toolUseId)).1 },
        (resolveOptional src mode st (nonEmptyString m.toolUseId)).2) := by
      simp [result, rewriteToolResultIds, hc, resolveOptional, overwriteId]
    have hids : resolvedIds m = (nonEmptyString m.toolUseId).toList := by simp [resolvedIds, hc]
    rw [hresult, hids]
    refine ⟨⟨_, h.resolveOptional src mode _, fun id hid => ?_⟩, fun rawId hraw => ?_,
      resolveOptional_pending src mode st _, resolveOptional_used src mode _ _⟩
    · cases hu : nonEmptyString m.toolUseId with
      | none => simp [extractToolResultId, hc, hu, resolveOptional, overwriteId] at hid
      | some u =>
        have hne := h.resolveToolResultId_ne src mode u
        simp only [extractToolResultId, hc, hu, resolveOptional, overwriteId_some _ hne] at hid
        simpa [resolveOptional] using hid.symm
    · have hu : nonEmptyString m.toolUseId = some rawId := by simpa [extractToolResultId, hc] using hraw
      have hne := h.resolveToolResultId_ne src mode rawId
      simp [extractToolResultId, hc, hu, resolveOptional, overwriteId_some _ hne]
  | some c =>
    have hne := h.resolveToolResultId_ne src mode c
    have hraw : extractToolResultId m = some c := by simp [extractToolResultId, hc]
    by_cases hu : nonEmptyString m.toolUseId = some c
    · have hresult : result = ({ m with
          toolCallId := overwriteId m.toolCallId (some (resolveToolResultId src mode st c).1)
          toolUseId := overwriteId m.toolUseId (some (resolveToolResultId src mode st c).1) },
          (resolveToolResultId src mode st c).2) := by
        simp [result, rewriteToolResultIds, hc, hu, resolveOptional]
      have hids : resolvedIds m = [c] := by simp [resolvedIds, hc, hu]
      rw [hresult, hids]
      refine ⟨⟨_, h.resolveToolResultId src mode c, fun id hid => ?_⟩, fun rawId hrawId => ?_,
        resolveToolResultId_pending src mode st c, resolveToolResultId_used src mode _ _⟩
      · simp only [extractToolResultId, overwriteId_some _ hne, Option.some.injEq] at hid
        simp [← hid]
      · obtain rfl := Option.some.inj (hraw.symm.trans hrawId)
        simp [extractToolResultId, overwriteId_some _ hne]
    · -- two ids that differ are resolved one after the other
      let first := resolveToolResultId src mode st c
      have hfirstNe : first.1 ≠ "" := hne
      have hresult : result = ({ m with
          toolCallId := overwriteId m.toolCallId (some first.1)
          toolUseId := overwriteId m.toolUseId
            (resolveOptional src mode first.2 (nonEmptyString m.toolUseId)).1 },
          (resolveOptional src mode first.2 (nonEmptyString m.toolUseId)).2) := by
        simp [result, rewriteToolResultIds, hc, Ne.symm hu, resolveOptional, first]
      have hids : resolvedIds m = [c] ++ (nonEmptyString m.toolUseId).toList := by
        simp [resolvedIds, hc, Ne.symm hu]
      have hfirst := h.resolveToolResultId src mode c
      rw [hresult, hids]
      refine ⟨⟨[first.1] ++
          (resolveOptional src mode first.2 (nonEmptyString m.toolUseId)).1.toList,
          ?_, fun id hid => ?_⟩, fun rawId hrawId => ?_, fun r => ?_,
        (resolveToolResultId_used src mode _ _).trans (resolveOptional_used src mode _ _)⟩
      · rw [← List.append_assoc]
        exact hfirst.resolveOptional src mode _
      · simp only [extractToolResultId, overwriteId_some _ hfirstNe, Option.some.injEq] at hid
        simp [← hid]
      · obtain rfl := Option.some.inj (hraw.symm.trans hrawId)
        simp only [extractToolResultId, overwriteId_some _ hfirstNe, first]
      · rw [resolveOptional_pending, resolveToolResultId_pending, List.count_append, Nat.sub_sub]

/-- Rewriting keeps each message but for its ids, and an assistant's number of calls. -/
def SameRole : Message → Message → Prop
  | .assistant a, .assistant a' =>
    a'.callIds.length = a.callIds.length ∧ a'.stopReason = a.stopReason
  | .toolResult r, .toolResult r' => r'.toolName = r.toolName ∧ r'.rest = r.rest
  | .other v, .other v' => v' = v
  | _, _ => False

/-- The rewritten transcript so far, beside the state of the resolver. -/
structure Sanitized (done : List (Message × Message)) (st : Resolver) : Prop where
  encountered : ∃ answered, Encountered (callPairs done) answered st ∧
    ∀ m m', (.toolResult m, .toolResult m') ∈ done →
      ∀ id, extractToolResultId m' = some id → id ∈ answered
  openCalls : ∀ rawId, (st.pendingByRawId rawId).length = openCalls rawId (done.map (·.1))
  sameRole : ∀ p ∈ done, SameRole p.1 p.2

theorem Sanitized.empty : Sanitized [] {} where
  encountered := ⟨[], .empty, by simp⟩
  openCalls _ := rfl
  sameRole := by simp

theorem openCalls_append (rawId : String) (messages : List Message) (m : Message) :
    openCalls rawId (messages ++ [m]) = match m with
      | .assistant a => openCalls rawId messages + a.callIds.count rawId
      | .toolResult m => openCalls rawId messages - (resolvedIds m).count rawId
      | .other _ => openCalls rawId messages := by
  cases m <;> simp [openCalls]

theorem Sanitized.step (h : Sanitized done st) (m : Message) :
    Sanitized (done ++ [(m, (rewriteMessage src mode st m).1)]) (rewriteMessage src mode st m).2 := by
  obtain ⟨answered, henc, hanswered⟩ := h.encountered
  have hrole (hm : SameRole m (rewriteMessage src mode st m).1) :
      ∀ p ∈ done ++ [(m, (rewriteMessage src mode st m).1)], SameRole p.1 p.2 :=
    List.forall_mem_append.mpr ⟨h.sameRole, List.forall_mem_singleton.mpr hm⟩
  cases m with
  | assistant a =>
    obtain ⟨hlen, hstop, henc', hpending, -⟩ :=
      rewriteAssistant_spec src mode henc a
    refine ⟨⟨answered, ?_, fun m m' hmem => ?_⟩, fun r => ?_, hrole ⟨hlen, hstop⟩⟩
    · rw [callPairs_append]
      simpa [callPairs, rewriteMessage] using henc'
    · rcases List.mem_append.mp hmem with hmem | hmem
      · exact hanswered m m' hmem
      · cases List.mem_singleton.mp hmem
    · rw [List.map_append, List.map_singleton, openCalls_append]
      simpa [rewriteMessage, h.openCalls] using hpending r
  | toolResult m =>
    obtain ⟨⟨ids, henc', hids⟩, -, hpending, -⟩ :=
      rewriteToolResult_spec src mode henc m
    refine ⟨⟨answered ++ ids, ?_, fun m m' hmem id hid => ?_⟩, fun r => ?_, hrole ⟨rfl, rfl⟩⟩
    · rw [callPairs_append]
      simpa [callPairs, rewriteMessage] using henc'
    · rcases List.mem_append.mp hmem with hmem | hmem
      · exact List.mem_append_left _ (hanswered m m' hmem id hid)
      · cases List.mem_singleton.mp hmem
        exact List.mem_append_right _ (hids id hid)
    · rw [List.map_append, List.map_singleton, openCalls_append]
      simpa [rewriteMessage, h.openCalls] using hpending r
  | other v =>
    refine ⟨⟨answered, ?_, fun m m' hmem => ?_⟩, fun r => ?_, hrole rfl⟩
    · rw [callPairs_append]
      simpa [callPairs, rewriteMessage] using henc
    · rcases List.mem_append.mp hmem with hmem | hmem
      · exact hanswered m m' hmem
      · cases List.mem_singleton.mp hmem
    · rw [List.map_append, List.map_singleton, openCalls_append]
      exact h.openCalls r

theorem Sanitized.run (h : Sanitized done st) (messages : List Message) :
    Sanitized (done ++ messages.zip (mapState (rewriteMessage src mode) st messages).1)
      (mapState (rewriteMessage src mode) st messages).2 :=
  mapState.invariant h (fun _ _ m h => h.step src mode m) messages

theorem rewriteMessage_used (h : Sanitized done st) (m : Message) :
    st.used <+: (rewriteMessage src mode st m).2.used := by
  obtain ⟨answered, henc, -⟩ := h.encountered
  cases m with
  | assistant a => exact (rewriteAssistant_spec src mode henc a).2.2.2.2
  | toolResult m => exact (rewriteToolResult_spec src mode henc m).2.2.2
  | other v => exact List.prefix_refl _

theorem mapState_used (h : Sanitized done st) (messages : List Message) :
    st.used <+: (mapState (rewriteMessage src mode) st messages).2.used := by
  induction messages generalizing done st with
  | nil => exact List.prefix_refl _
  | cons m messages ih => exact (rewriteMessage_used src mode h m).trans (ih (h.step src mode m))

end

end OpenClaw.Agents
