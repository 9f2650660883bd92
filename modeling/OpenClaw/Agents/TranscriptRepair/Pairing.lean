import OpenClaw.Agents.TranscriptRepair

/-!
# What the repaired transcript pairs

The loop is a fold over the turns of the transcript: an assistant message and
the messages up to the next one. Each turn's part of the output is described
by one lemma, under the ids earlier turns have already answered.
-/

namespace OpenClaw.Agents

open Js (Json Number)
open Groups

-- ---
-- Results of a span
-- ---

def Message.resultFor? (id : String) : Message → Option ToolResultMessage
  | .toolResult r => if extractToolResultId r = some id then some r else none
  | _ => none

/-- The tool results for `id` among some messages, in order. -/
def resultsFor (id : String) (span : List Message) : List ToolResultMessage :=
  span.filterMap (Message.resultFor? id)

def notToolResult (m : Message) : Bool := !m.isToolResult

theorem mem_resultsFor {id : String} : r ∈ resultsFor id span ↔
    .toolResult r ∈ span ∧ extractToolResultId r = some id := by
  simp only [resultsFor, List.mem_filterMap]
  constructor
  · rintro ⟨m, hm, hr⟩
    cases m with
    | toolResult r' =>
      simp only [Message.resultFor?] at hr
      split at hr
      · cases hr; exact ⟨hm, by assumption⟩
      · cases hr
    | assistant a => cases hr
    | other v => cases hr
  · rintro ⟨hm, hid⟩
    exact ⟨_, hm, by simp [Message.resultFor?, hid]⟩

theorem normalizeToolResultName_id (m : ToolResultMessage) (name : Option String) :
    extractToolResultId (normalizeToolResultName m name).1 = extractToolResultId m := by
  unfold normalizeToolResultName
  repeat' split
  all_goals rfl

theorem normalizeToolResultName_same (h : (normalizeToolResultName m name).2 = false) :
    (normalizeToolResultName m name).1 = m := by
  unfold normalizeToolResultName at h ⊢
  repeat' split
  all_goals first
    | rfl
    | simp_all

theorem nonEmptyString_ne (h : nonEmptyString v = some s) : s ≠ "" := by
  unfold nonEmptyString at h
  split at h
  · split at h
    · cases h
    · cases h; assumption
  · cases h

theorem nonEmptyString_str (h : s ≠ "") : nonEmptyString (some (.str s)) = some s := by
  simp [nonEmptyString, Json.str?, h]

theorem callId_ne {id : String} (h : id ∈ AssistantMessage.callIds a) : id ≠ "" := by
  obtain ⟨call, hcall, rfl⟩ := List.mem_map.mp h
  obtain ⟨block, -, hblock⟩ := List.mem_filterMap.mp hcall
  cases block with
  | object type id name rest =>
    simp only [Block.toolCall?] at hblock
    split at hblock
    · rename_i hid
      split at hblock
      · cases hblock; exact nonEmptyString_ne hid
      · cases hblock
    · cases hblock
  | other v => cases hblock

theorem makeMissingToolResult_id {id : String} (h : id ≠ "") :
    extractToolResultId (makeMissingToolResult now id name) = some id := by
  simp [extractToolResultId, makeMissingToolResult, nonEmptyString_str h]

-- ---
-- The look-ahead
-- ---

section
variable {calls : List ToolCallLike} {seen : List String}

@[simp] theorem scanSpan_nil : scanSpan calls seen [] = {} := rfl

@[simp] theorem scanSpan_snoc (span : List Message) (m : Message) :
    scanSpan calls seen (span ++ [m]) = scanNext calls seen (scanSpan calls seen span) m := by
  simp [scanSpan]

/-- The messages kept behind the results are the ones that are not results. -/
theorem scanSpan_remainder (span : List Message) :
    (scanSpan calls seen span).remainder = span.filter notToolResult := by
  induction span using List.reverseRecOn with
  | nil => rfl
  | append_singleton span m ih =>
    rw [scanSpan_snoc, List.filter_append, ← ih]
    cases m with
    | toolResult r =>
      simp only [scanNext]
      repeat' split
      all_goals simp [notToolResult, Message.isToolResult]
    | assistant a => simp [scanNext, notToolResult, Message.isToolResult]
    | other v => simp [scanNext, notToolResult, Message.isToolResult]

theorem lookup_append_single (l : List (String × β)) (id id' : String) (b : β) :
    (l ++ [(id', b)]).lookup id = (l.lookup id).or (if id = id' then some b else none) := by
  rw [List.lookup_append, List.lookup_cons, List.lookup_nil]
  by_cases h : id = id' <;> simp [h, beq_eq_false_iff_ne.mpr]

/-- The result kept for a call is the first one in its span, with its name
repaired; ids that are already answered have none. -/
theorem scanSpan_lookup (span : List Message) (id : String) :
    (scanSpan calls seen span).spanResultsById.lookup id =
      if id ∈ calls.map (·.id) ∧ id ∉ seen then
        (resultsFor id span).head?.map fun m => (normalizeToolResultName m (toolCallName calls id)).1
      else none := by
  induction span using List.reverseRecOn with
  | nil => simp [resultsFor]
  | append_singleton span m ih =>
    rw [scanSpan_snoc]
    have skip (h : Message.resultFor? id m = none) :
        resultsFor id (span ++ [m]) = resultsFor id span := by simp [resultsFor, h]
    cases m with
    | assistant a => rw [skip rfl]; exact ih
    | other v => rw [skip rfl]; exact ih
    | toolResult r =>
      cases hid : extractToolResultId r with
      | none =>
        rw [skip (by simp [Message.resultFor?, hid])]
        simpa only [scanNext, hid] using ih
      | some id' =>
        simp only [scanNext, hid]
        by_cases hcall : id' ∈ calls.map (·.id)
        · by_cases hseen : id' ∈ seen
          · rw [if_pos hcall, if_pos hseen]
            by_cases heq : id = id'
            · subst heq
              rw [if_neg (by simp [hseen])] at ih ⊢
              exact ih
            · rw [skip (by simp [Message.resultFor?, hid, Ne.symm heq])]
              exact ih
          · rw [if_pos hcall, if_neg hseen]
            simp only
            by_cases heq : id = id'
            · subst heq
              have hnew : resultsFor id (span ++ [.toolResult r]) = resultsFor id span ++ [r] := by
                simp [resultsFor, Message.resultFor?, hid]
              have hboth : id ∈ calls.map (·.id) ∧ id ∉ seen := ⟨hcall, hseen⟩
              rw [if_pos hboth] at ih ⊢
              rw [hnew]
              cases hl : (scanSpan calls seen span).spanResultsById.lookup id with
              | none =>
                have hnil : resultsFor id span = [] := by simpa [hl] using ih.symm
                simp [hnil, lookup_append_single, hl]
              | some x =>
                rw [hl] at ih
                obtain ⟨m, hm, rfl⟩ := Option.map_eq_some_iff.mp ih.symm
                simp [hl, hm]
            · rw [skip (by simp [Message.resultFor?, hid, Ne.symm heq])]
              split
              · exact ih
              · rw [lookup_append_single, ih, if_neg heq, Option.or_none]
        · rw [if_neg hcall]
          by_cases heq : id = id'
          · subst heq
            rw [if_neg (by simp [hcall])] at ih ⊢
            exact ih
          · rw [skip (by simp [Message.resultFor?, hid, Ne.symm heq])]
            exact ih

/-- A look-ahead that reports no change saw only results of this turn's calls,
each with a clean name. -/
theorem scanSpan_unchanged (h : (scanSpan calls seen span).changed = false) :
    ∀ r, .toolResult r ∈ span → ∃ id, extractToolResultId r = some id ∧
      id ∈ calls.map (·.id) ∧ id ∉ seen ∧
      (normalizeToolResultName r (toolCallName calls id)).1 = r := by
  induction span using List.reverseRecOn with
  | nil => simp
  | append_singleton span m ih =>
    rw [scanSpan_snoc] at h
    intro r hr
    rcases List.mem_append.mp hr with hr | hr
    · refine ih ?_ r hr
      cases m with
      | assistant a => exact h
      | other v => exact h
      | toolResult r' =>
        simp only [scanNext] at h
        repeat' split at h
        all_goals simp_all
    · obtain rfl := List.mem_singleton.mp hr
      simp only [scanNext] at h
      split at h
      · rename_i id hid
        split at h
        · rename_i hcall
          split at h
          · simp at h
          · rename_i hseen
            simp only [Bool.or_eq_false_iff] at h
            exact ⟨id, hid, hcall, hseen, normalizeToolResultName_same h.2⟩
        · simp at h
      · simp at h

end

-- ---
-- Pushing results
-- ---

/-- Pushing results for the ids `wanted` added `results`: one for each of them
that was not answered yet. -/
structure Pushed (wanted : String → Prop) (st st' : RepairState)
    (results : List ToolResultMessage) : Prop where
  out : st'.out = st.out ++ results.map .toolResult
  seen : ∀ id, id ∈ st'.seenToolResultIds ↔ id ∈ st.seenToolResultIds ∨ wanted id
  nodup : (results.map extractToolResultId).Nodup
  ids : ∀ id, id ∈ results.map extractToolResultId ↔
    ∃ s, id = some s ∧ wanted s ∧ s ∉ st.seenToolResultIds
  changed : st.changed = true → st'.changed = true
  moved : st'.moved = st.moved

theorem Pushed.refl (st : RepairState) (h : ∀ id, ¬ wanted id) : Pushed wanted st st [] where
  out := by simp
  seen := by simp [h]
  nodup := by simp
  ids := by simp [h]
  changed := id
  moved := rfl

theorem Pushed.trans (h₁ : Pushed w₁ st st₁ rs₁) (h₂ : Pushed w₂ st₁ st₂ rs₂)
    (hw : ∀ id, w id ↔ w₁ id ∨ w₂ id) : Pushed w st st₂ (rs₁ ++ rs₂) where
  out := by rw [h₂.out, h₁.out, List.map_append, List.append_assoc]
  seen := by
    intro id
    rw [h₂.seen, h₁.seen, hw, or_assoc]
  nodup := by
    rw [List.map_append, List.nodup_append]
    refine ⟨h₁.nodup, h₂.nodup, ?_⟩
    rintro x hx y hy rfl
    obtain ⟨s, rfl, hs, -⟩ := (h₁.ids _).mp hx
    obtain ⟨t, ht, -, hnew⟩ := (h₂.ids _).mp hy
    obtain rfl := Option.some.inj ht
    exact hnew ((h₁.seen s).mpr (.inr hs))
  ids := by
    intro x
    rw [List.map_append, List.mem_append, h₁.ids, h₂.ids]
    constructor
    · rintro (⟨s, rfl, hs, hnew⟩ | ⟨s, rfl, hs, hnew⟩)
      · exact ⟨s, rfl, (hw s).mpr (.inl hs), hnew⟩
      · exact ⟨s, rfl, (hw s).mpr (.inr hs), fun h => hnew ((h₁.seen s).mpr (.inl h))⟩
    · rintro ⟨s, rfl, hs, hnew⟩
      by_cases h : w₁ s
      · exact .inl ⟨s, rfl, h, hnew⟩
      · refine .inr ⟨s, rfl, ((hw s).mp hs).resolve_left h, fun hmem => ?_⟩
        exact ((h₁.seen s).mp hmem).elim hnew h
  changed := fun h => h₂.changed (h₁.changed h)
  moved := h₂.moved.trans h₁.moved

theorem pushToolResult_pushed (st : RepairState) (hid : extractToolResultId r = some i) :
    ∃ rs, Pushed (· = i) st (pushToolResult st r) rs ∧ ∀ x ∈ rs, x = r := by
  by_cases hseen : i ∈ st.seenToolResultIds
  · refine ⟨[], ?_, by simp⟩
    simp only [pushToolResult, hid, if_pos hseen]
    constructor
    · simp
    · intro id
      constructor
      · exact .inl
      · rintro (h | rfl)
        · exact h
        · exact hseen
    · simp
    · simp [hseen]
    · exact fun _ => rfl
    · rfl
  · refine ⟨[r], ?_, by simp⟩
    simp only [pushToolResult, hid, if_neg hseen, RepairState.push]
    constructor
    · simp
    · simp
    · simp
    · intro x
      simp only [List.map_cons, hid, List.map_nil, List.mem_singleton]
      constructor
      · rintro rfl
        exact ⟨i, rfl, rfl, hseen⟩
      · rintro ⟨s, rfl, rfl, -⟩
        rfl
    · exact id
    · rfl

section
variable {spanResults : List (String × ToolResultMessage)}

/-- Results looked up by an id carry that id. -/
def Keyed (spanResults : List (String × ToolResultMessage)) : Prop :=
  ∀ id r, spanResults.lookup id = some r → extractToolResultId r = some id

theorem pushRetained_pushed (hk : Keyed spanResults) (calls : List ToolCallLike)
    (st : RepairState) :
    ∃ rs, Pushed (fun id => id ∈ calls.map (·.id) ∧ (spanResults.lookup id).isSome) st
        (pushRetained spanResults st calls) rs ∧
      ∀ r ∈ rs, ∃ call ∈ calls, spanResults.lookup call.id = some r := by
  induction calls generalizing st with
  | nil => exact ⟨[], .refl st (by simp), by simp⟩
  | cons call calls ih =>
    cases hl : spanResults.lookup call.id with
    | some result =>
      obtain ⟨rs₁, h₁, hrs₁⟩ := pushToolResult_pushed st (hk _ _ hl)
      obtain ⟨rs₂, h₂, hrs₂⟩ := ih (pushToolResult st result)
      refine ⟨rs₁ ++ rs₂, ?_, ?_⟩
      · simp only [pushRetained, hl]
        refine h₁.trans h₂ fun id => ?_
        by_cases heq : id = call.id
        · simp [heq, hl]
        · simp [heq]
      · intro r hr
        rcases List.mem_append.mp hr with hr | hr
        · exact ⟨call, by simp, hrs₁ r hr ▸ hl⟩
        · obtain ⟨c, hc, hcr⟩ := hrs₂ r hr
          exact ⟨c, List.mem_cons_of_mem _ hc, hcr⟩
    | none =>
      obtain ⟨rs, h, hrs⟩ := ih st
      refine ⟨rs, ?_, ?_⟩
      · simp only [pushRetained, hl]
        refine (Pushed.refl st (fun _ => not_false)).trans h fun id => ?_
        by_cases heq : id = call.id
        · simp [heq, hl]
        · simp [heq]
      · intro r hr
        obtain ⟨c, hc, hcr⟩ := hrs r hr
        exact ⟨c, List.mem_cons_of_mem _ hc, hcr⟩

theorem pushResults_pushed (now : Nat → Number) (hk : Keyed spanResults) (calls : List ToolCallLike)
    (hne : ∀ call ∈ calls, call.id ≠ "") (st : RepairState) :
    ∃ rs, Pushed (fun id => id ∈ calls.map (·.id)) st (pushResults now spanResults st calls) rs ∧
      ∀ r ∈ rs, ∃ call ∈ calls, spanResults.lookup call.id = some r ∨
        spanResults.lookup call.id = none ∧ ∃ t, r = makeMissingToolResult (now t) call.id call.name := by
  induction calls generalizing st with
  | nil => exact ⟨[], .refl st (by simp), by simp⟩
  | cons call calls ih =>
    obtain ⟨hcall, hcalls⟩ := List.forall_mem_cons.mp hne
    have hor (id : String) : id ∈ (call :: calls).map (·.id) ↔ id = call.id ∨ id ∈ calls.map (·.id) := by
      simp
    cases hl : spanResults.lookup call.id with
    | some result =>
      obtain ⟨rs₁, h₁, hrs₁⟩ := pushToolResult_pushed st (hk _ _ hl)
      obtain ⟨rs₂, h₂, hrs₂⟩ := ih hcalls (pushToolResult st result)
      refine ⟨rs₁ ++ rs₂, ?_, ?_⟩
      · simp only [pushResults, hl]
        exact h₁.trans h₂ hor
      · intro r hr
        rcases List.mem_append.mp hr with hr | hr
        · exact ⟨call, by simp, .inl (hrs₁ r hr ▸ hl)⟩
        · obtain ⟨c, hc, hcr⟩ := hrs₂ r hr
          exact ⟨c, List.mem_cons_of_mem _ hc, hcr⟩
    | none =>
      let missing := makeMissingToolResult (now st.added.length) call.id call.name
      let marked := { st with added := st.added ++ [missing], changed := true }
      obtain ⟨rs₁, h₁, hrs₁⟩ :=
        pushToolResult_pushed marked (makeMissingToolResult_id hcall : extractToolResultId missing = _)
      obtain ⟨rs₂, h₂, hrs₂⟩ := ih hcalls (pushToolResult marked missing)
      refine ⟨rs₁ ++ rs₂, ?_, ?_⟩
      · simp only [pushResults, hl]
        have hp := h₁.trans h₂ hor
        exact ⟨hp.out, hp.seen, hp.nodup, hp.ids, fun _ => hp.changed rfl, hp.moved⟩
      · intro r hr
        rcases List.mem_append.mp hr with hr | hr
        · exact ⟨call, by simp, .inr ⟨hl, st.added.length, hrs₁ r hr⟩⟩
        · obtain ⟨c, hc, hcr⟩ := hrs₂ r hr
          exact ⟨c, List.mem_cons_of_mem _ hc, hcr⟩

/-- Without a change every call had a result. -/
theorem pushResults_unchanged (now : Nat → Number) (hk : Keyed spanResults) (calls : List ToolCallLike)
    (hne : ∀ call ∈ calls, call.id ≠ "") (st : RepairState)
    (h : (pushResults now spanResults st calls).changed = false) :
    ∀ call ∈ calls, (spanResults.lookup call.id).isSome := by
  induction calls generalizing st with
  | nil => simp
  | cons call calls ih =>
    obtain ⟨hcall, hcalls⟩ := List.forall_mem_cons.mp hne
    cases hl : spanResults.lookup call.id with
    | some result =>
      simp only [pushResults, hl] at h
      refine List.forall_mem_cons.mpr ⟨by simp [hl], ih hcalls _ h⟩
    | none =>
      simp only [pushResults, hl] at h
      let missing := makeMissingToolResult (now st.added.length) call.id call.name
      let marked := { st with added := st.added ++ [missing], changed := true }
      obtain ⟨rs₁, h₁, -⟩ :=
        pushToolResult_pushed marked (makeMissingToolResult_id hcall : extractToolResultId missing = _)
      obtain ⟨rs₂, h₂, -⟩ := pushResults_pushed now hk calls hcalls (pushToolResult marked missing)
      rw [h₂.changed (h₁.changed rfl)] at h
      cases h

end

end OpenClaw.Agents
