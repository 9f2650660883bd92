import Mathlib.Data.List.Nodup
import OpenClaw.Agents.TranscriptRepair.Pairing

/-!
# Repair, turn by turn

A turn is an assistant message with the messages up to the next one. The
repaired transcript has the same turns, and each turn's results are its own.
-/

namespace OpenClaw.Agents

open Js (Json Number)
open Groups

-- ---
-- What a repaired turn looks like
-- ---

def turns (messages : List Message) : List (Message × List Message) :=
  groups Message.isAssistant messages

/-- The turn leaves a result for `id` in the output. -/
def answers (policy : ErroredAssistantResultPolicy) (turn : Message × List Message) (id : String) :
    Prop :=
  match turn.1 with
  | .assistant a =>
    id ∈ a.callIds ∧ (isErroredTurn a = false ∨ policy ≠ .drop ∧ resultsFor id turn.2 ≠ [])
  | _ => False

/-- A result the input has for `id` in this turn, with its name repaired. -/
def RealResult (a : AssistantMessage) (span : List Message) (id : String)
    (r : ToolResultMessage) : Prop :=
  ∃ m ∈ resultsFor id span,
    r = (normalizeToolResultName m (toolCallName (extractToolCallsFromAssistant a) id)).1

/-- The first real result of the call, or a synthetic one when the turn has none. -/
def ResultOf (now : Nat → Number) (a : AssistantMessage) (span : List Message)
    (call : ToolCallLike) (r : ToolResultMessage) : Prop :=
  RealResult a span call.id r ∨
    resultsFor call.id span = [] ∧ ∃ t, r = makeMissingToolResult (now t) call.id call.name

/-- The results in a turn's output are results for its own calls; those of an
errored turn are real. -/
structure TurnOwned (policy : ErroredAssistantResultPolicy) (a : AssistantMessage)
    (span span' : List Message) : Prop where
  rest : span'.filter notToolResult = span.filter notToolResult
  owned : ∀ r, .toolResult r ∈ span' → ∃ id ∈ a.callIds, extractToolResultId r = some id
  errored : isErroredTurn a = true → ∀ r, .toolResult r ∈ span' →
    policy ≠ .drop ∧ ∃ id ∈ a.callIds, RealResult a span id r

/-- The assistant message is followed at once by one result for each of its
calls that no earlier turn answered, and then by everything else of the turn. -/
def TurnPaired (now : Nat → Number) (answered : String → Prop) (a : AssistantMessage)
    (span span' : List Message) : Prop :=
  ∃ results : List ToolResultMessage,
    span' = results.map .toolResult ++ span.filter notToolResult ∧
    (results.map extractToolResultId).Nodup ∧
    (∀ id ∈ a.callIds, ¬ answered id → some id ∈ results.map extractToolResultId) ∧
    ∀ r ∈ results, ∃ call ∈ extractToolCallsFromAssistant a,
      extractToolResultId r = some call.id ∧ ResultOf now a span call r

/-- The first real result of a call no earlier turn answered stays in its turn. -/
def TurnKept (policy : ErroredAssistantResultPolicy) (answered : String → Prop)
    (a : AssistantMessage) (span span' : List Message) : Prop :=
  ∀ id ∈ a.callIds, ¬ answered id → (isErroredTurn a = true → policy ≠ .drop) →
    ∀ m, (resultsFor id span).head? = some m →
      .toolResult (normalizeToolResultName m (toolCallName (extractToolCallsFromAssistant a) id)).1 ∈ span'

theorem not_mem_rest {span : List Message} : .toolResult r ∉ span.filter notToolResult := by
  simp [notToolResult, Message.isToolResult]

theorem filter_rest (results : List ToolResultMessage) (span : List Message) :
    (results.map Message.toolResult ++ span.filter notToolResult).filter notToolResult =
      span.filter notToolResult := by
  have hnil : (results.map Message.toolResult).filter notToolResult = [] := by
    simp [List.filter_eq_nil_iff, notToolResult, Message.isToolResult]
  rw [List.filter_append, hnil, List.nil_append, List.filter_filter]
  simp

/-- What one turn of the loop does to the local variables. -/
structure TurnStep (now : Nat → Number) (policy : ErroredAssistantResultPolicy)
    (st st' : RepairState) (a : AssistantMessage) (span span' : List Message) : Prop where
  out : st'.out = st.out ++ .assistant a :: span'
  seen : ∀ id, id ∈ st'.seenToolResultIds ↔
    id ∈ st.seenToolResultIds ∨ answers policy (.assistant a, span) id
  changed : st.changed = true → st'.changed = true
  moved : (st.moved = true → st.changed = true) → st'.moved = true → st'.changed = true
  owned : TurnOwned policy a span span'
  paired : isErroredTurn a = false → TurnPaired now (· ∈ st.seenToolResultIds) a span span'
  kept : TurnKept policy (· ∈ st.seenToolResultIds) a span span'
  /-- A turn that reports no change already was as the pass leaves it, but for
  a second result to one call. -/
  unchanged : st'.changed = false → TurnOwned policy a span span ∧
    TurnKept policy (· ∈ st.seenToolResultIds) a span span ∧
    (isErroredTurn a = false → (∀ id ∈ a.callIds, (resultsFor id span).length ≤ 1) →
      TurnPaired now (· ∈ st.seenToolResultIds) a span span)

-- ---
-- A turn without calls
-- ---

/-- Messages outside a turn with calls: their tool results are orphans. -/
def repairLoose (st : RepairState) (span : List Message) : RepairState :=
  span.foldl (fun st m => match m with
    | .toolResult _ =>
      { st with droppedOrphanCount := st.droppedOrphanCount + 1, changed := true }
    | m => st.push m) st

structure LooseStep (st st' : RepairState) (span : List Message) : Prop where
  out : st'.out = st.out ++ span.filter notToolResult
  seen : st'.seenToolResultIds = st.seenToolResultIds
  changed : st.changed = true → st'.changed = true
  moved : st'.moved = st.moved
  unchanged : st'.changed = false → span.filter notToolResult = span

theorem repairLoose_step (span : List Message) (st : RepairState) :
    LooseStep st (repairLoose st span) span := by
  induction span using List.reverseRecOn with
  | nil => exact ⟨by simp [repairLoose], rfl, id, rfl, fun _ => rfl⟩
  | append_singleton span m ih =>
    have hstep : repairLoose st (span ++ [m]) = repairLoose (repairLoose st span) [m] := by
      simp [repairLoose]
    have hpush (hm : notToolResult m = true) (h : repairLoose st (span ++ [m]) =
        (repairLoose st span).push m) : LooseStep st (repairLoose st (span ++ [m])) (span ++ [m]) := by
      rw [h]
      refine ⟨?_, ih.seen, ih.changed, ih.moved, fun hu => ?_⟩
      · simp [RepairState.push, ih.out, hm]
      · have := ih.unchanged hu
        simp [this, hm]
    cases m with
    | assistant a => exact hpush rfl hstep
    | other v => exact hpush rfl hstep
    | toolResult r =>
      rw [hstep]
      refine ⟨?_, ih.seen, fun _ => rfl, ih.moved, fun hu => by cases hu⟩
      simp [repairLoose, ← ih.out, notToolResult, Message.isToolResult]

theorem emptyTurn_step (now : Nat → Number) (policy : ErroredAssistantResultPolicy)
    (st : RepairState) (span : List Message) (hcalls : extractToolCallsFromAssistant a = []) :
    TurnStep now policy st (repairLoose (st.push (.assistant a)) span) a span
      (span.filter notToolResult) := by
  have h := repairLoose_step span (st.push (.assistant a))
  have hids : a.callIds = [] := by simp [AssistantMessage.callIds, hcalls]
  have howned : TurnOwned policy a span (span.filter notToolResult) :=
    ⟨filter_rest [] span, fun r hr => absurd hr not_mem_rest, fun _ r hr => absurd hr not_mem_rest⟩
  have hpaired : TurnPaired now (· ∈ st.seenToolResultIds) a span (span.filter notToolResult) :=
    ⟨[], rfl, by simp, by simp [hids], by simp⟩
  have hkept (span' : List Message) : TurnKept policy (· ∈ st.seenToolResultIds) a span span' := by
    intro id hid
    rw [hids] at hid
    cases hid
  refine ⟨?_, ?_, h.changed, ?_, howned, fun _ => hpaired, hkept _, fun hu => ?_⟩
  · rw [h.out]; simp [RepairState.push]
  · intro id
    rw [h.seen]
    simp [RepairState.push, answers, hids]
  · intro hm hmoved
    rw [h.moved] at hmoved
    exact h.changed (hm hmoved)
  · have hspan := h.unchanged hu
    rw [hspan] at howned hpaired
    exact ⟨howned, hkept _, fun _ _ => hpaired⟩

-- ---
-- A turn with calls
-- ---

section
variable {a : AssistantMessage} {st : RepairState} {span : List Message}

theorem RealResult.id_eq {id : String} (h : RealResult a span id r) :
    extractToolResultId r = some id := by
  obtain ⟨m, hm, rfl⟩ := h
  rw [normalizeToolResultName_id]
  exact (mem_resultsFor.mp hm).2

/-- What the look-ahead finds for an id is a real result of a call not yet answered. -/
theorem scanSpan_real {id : String}
    (h : (scanSpan (extractToolCallsFromAssistant a) seen span).spanResultsById.lookup id = some r) :
    id ∈ a.callIds ∧ id ∉ seen ∧ RealResult a span id r := by
  rw [scanSpan_lookup] at h
  split at h
  · rename_i hid
    obtain ⟨m, hm, rfl⟩ := Option.map_eq_some_iff.mp h
    exact ⟨hid.1, hid.2, m, List.mem_of_mem_head? hm, rfl⟩
  · cases h

theorem scanSpan_keyed : Keyed (scanSpan (extractToolCallsFromAssistant a) seen span).spanResultsById :=
  fun _ _ h => (scanSpan_real h).2.2.id_eq

theorem scanSpan_isSome {id : String} (hid : id ∈ a.callIds) (hseen : id ∉ seen) :
    ((scanSpan (extractToolCallsFromAssistant a) seen span).spanResultsById.lookup id).isSome ↔
      resultsFor id span ≠ [] := by
  have hboth : id ∈ (extractToolCallsFromAssistant a).map (·.id) ∧ id ∉ seen := ⟨hid, hseen⟩
  rw [scanSpan_lookup, if_pos hboth]
  simp [List.head?_eq_none_iff, Option.isSome_iff_ne_none]

/-- The turn as it stands, when the look-ahead reports no change. -/
theorem scanSpan_unchanged_real
    (h : (scanSpan (extractToolCallsFromAssistant a) seen span).changed = false)
    (hr : .toolResult r ∈ span) : ∃ id ∈ a.callIds, id ∉ seen ∧ RealResult a span id r := by
  obtain ⟨id, hid, hcall, hseen, hname⟩ := scanSpan_unchanged h r hr
  exact ⟨id, hcall, hseen, r, mem_resultsFor.mpr ⟨hr, hid⟩, hname.symm⟩

theorem mem_results_append_rest {results : List ToolResultMessage}
    (h : .toolResult r ∈ results.map Message.toolResult ++ span.filter notToolResult) :
    r ∈ results := by
  rcases List.mem_append.mp h with h | h
  · obtain ⟨r', hr', heq⟩ := List.mem_map.mp h
    cases heq
    exact hr'
  · exact absurd h not_mem_rest

/-- The local variables once the look-ahead is counted and the assistant message pushed. -/
def enterTurn (st : RepairState) (a : AssistantMessage) (scanned : SpanState) : RepairState :=
  { st with
    out := st.out ++ [.assistant a]
    droppedDuplicateCount := st.droppedDuplicateCount + scanned.droppedDuplicateCount
    droppedOrphanCount := st.droppedOrphanCount + scanned.droppedOrphanCount
    changed := st.changed || scanned.changed }

/-- The state a turn pushes its results into. -/
structure Entered (st : RepairState) (a : AssistantMessage) (scanned : SpanState)
    (st₁ : RepairState) : Prop where
  out : st₁.out = st.out ++ [.assistant a]
  seen : st₁.seenToolResultIds = st.seenToolResultIds
  changed : st.changed = true ∨ scanned.changed = true → st₁.changed = true
  moved : st₁.moved = true → st.moved = true ∨ st₁.changed = true

theorem enterTurn_entered (st : RepairState) (a : AssistantMessage) (scanned : SpanState) :
    Entered st a scanned (enterTurn st a scanned) :=
  ⟨rfl, rfl, fun h => by simpa [enterTurn] using h, fun h => .inl h⟩

theorem unchanged_kept (policy : ErroredAssistantResultPolicy)
    (h : (scanSpan (extractToolCallsFromAssistant a) seen span).changed = false) :
    TurnKept policy (· ∈ seen) a span span := by
  intro id hid _ _ m hm
  obtain ⟨hmem, heq⟩ := mem_resultsFor.mp (List.mem_of_mem_head? hm)
  obtain ⟨id', hid', -, -, hname⟩ := scanSpan_unchanged h m hmem
  obtain rfl := Option.some.inj (heq.symm.trans hid')
  rwa [hname]

/-- A pass over the calls that keeps what the look-ahead found keeps each
first real result. -/
theorem pushed_kept (policy : ErroredAssistantResultPolicy) {rs : List ToolResultMessage}
    (hids : ∀ id ∈ a.callIds, id ∉ seen → resultsFor id span ≠ [] → ∃ r ∈ rs,
      extractToolResultId r = some id ∧
        (scanSpan (extractToolCallsFromAssistant a) seen span).spanResultsById.lookup id = some r) :
    TurnKept policy (· ∈ seen) a span (rs.map .toolResult ++ span.filter notToolResult) := by
  intro id hid hnew _ m hm
  obtain ⟨r, hr, -, hl⟩ := hids id hid hnew (List.ne_nil_of_mem (List.mem_of_mem_head? hm))
  rw [scanSpan_lookup, hm] at hl
  split at hl
  · obtain rfl := Option.some.inj hl
    exact List.mem_append_left _ (List.mem_map_of_mem hr)
  · cases hl

/-- Every turn with calls enters, pushes results, and pushes the rest. -/
theorem turnStep_of_pushed
    (he : Entered st a (scanSpan (extractToolCallsFromAssistant a) st.seenToolResultIds span) st₁)
    (hp : Pushed wanted st₁ st' rs)
    (hwanted : ∀ id, id ∈ st.seenToolResultIds ∨ wanted id ↔
      id ∈ st.seenToolResultIds ∨ answers policy (.assistant a, span) id)
    (howned : TurnOwned policy a span (rs.map .toolResult ++ span.filter notToolResult))
    (hpaired : isErroredTurn a = false → TurnPaired now (· ∈ st.seenToolResultIds) a span
      (rs.map .toolResult ++ span.filter notToolResult))
    (hkept : TurnKept policy (· ∈ st.seenToolResultIds) a span
      (rs.map .toolResult ++ span.filter notToolResult))
    (hunchanged : (scanSpan (extractToolCallsFromAssistant a) st.seenToolResultIds span).changed = false →
      st'.changed = false → TurnOwned policy a span span ∧
        (isErroredTurn a = false → (∀ id ∈ a.callIds, (resultsFor id span).length ≤ 1) →
          TurnPaired now (· ∈ st.seenToolResultIds) a span span)) :
    TurnStep now policy st
      (st'.pushAll (scanSpan (extractToolCallsFromAssistant a) st.seenToolResultIds span).remainder)
      a span (rs.map .toolResult ++ span.filter notToolResult) := by
  refine ⟨?_, fun id => ?_, fun hc => hp.changed (he.changed (.inl hc)), ?_, howned, hpaired,
    hkept, ?_⟩
  · simp only [RepairState.pushAll, hp.out, he.out, scanSpan_remainder]
    simp
  · have := hp.seen id
    rw [he.seen, hwanted] at this
    exact this
  · intro hm hmoved
    rcases he.moved (hp.moved.symm.trans hmoved) with h | h
    · exact hp.changed (he.changed (.inl (hm h)))
    · exact hp.changed h
  · intro hu
    have hscan : (scanSpan (extractToolCallsFromAssistant a) st.seenToolResultIds span).changed =
        false := by
      refine Bool.eq_false_iff.mpr fun h => ?_
      have := hp.changed (he.changed (.inr h))
      rw [show st'.changed = false from hu] at this
      cases this
    obtain ⟨howned, hpaired⟩ := hunchanged hscan hu
    exact ⟨howned, unchanged_kept policy hscan, hpaired⟩

theorem unchanged_owned (policy : ErroredAssistantResultPolicy)
    (h : (scanSpan (extractToolCallsFromAssistant a) seen span).changed = false)
    (hpolicy : isErroredTurn a = true → ∀ r, .toolResult r ∈ span → policy ≠ .drop) :
    TurnOwned policy a span span := by
  refine ⟨rfl, fun r hr => ?_, fun herr r hr => ⟨hpolicy herr r hr, ?_⟩⟩
  · obtain ⟨id, hid, -, hreal⟩ := scanSpan_unchanged_real h hr
    exact ⟨id, hid, hreal.id_eq⟩
  · obtain ⟨id, hid, -, hreal⟩ := scanSpan_unchanged_real h hr
    exact ⟨id, hid, hreal⟩

theorem erroredTurn_step (now : Nat → Number) (policy : ErroredAssistantResultPolicy)
    (herr : isErroredTurn a = true) :
    ∃ span', TurnStep now policy st
      (repairTurn now policy st a (extractToolCallsFromAssistant a) span) a span span' := by
  let scanned := scanSpan (extractToolCallsFromAssistant a) st.seenToolResultIds span
  have hok (h : isErroredTurn a = false) (P : Prop) : P := by
    rw [herr] at h
    cases h
  cases policy with
  | preserve =>
    have hkeyed : Keyed scanned.spanResultsById := scanSpan_keyed
    obtain ⟨rs, hp, hrs⟩ :=
      pushRetained_pushed hkeyed (extractToolCallsFromAssistant a) (enterTurn st a scanned)
    have hreal : ∀ r ∈ rs, ∃ id ∈ a.callIds, RealResult a span id r := by
      intro r hr
      obtain ⟨call, hcall, hl⟩ := hrs r hr
      obtain ⟨hid, -, hr⟩ := scanSpan_real hl
      exact ⟨_, hid, hr⟩
    refine ⟨rs.map .toolResult ++ span.filter notToolResult, ?_⟩
    have hturn : repairTurn now .preserve st a (extractToolCallsFromAssistant a) span =
        (pushRetained scanned.spanResultsById (enterTurn st a scanned)
          (extractToolCallsFromAssistant a)).pushAll scanned.remainder := by
      simp [repairTurn, herr, enterTurn, scanned, RepairState.push]
    rw [hturn]
    have hkept : TurnKept .preserve (· ∈ st.seenToolResultIds) a span
        (rs.map .toolResult ++ span.filter notToolResult) := by
      refine pushed_kept _ fun id hid hnew hsome => ?_
      have hmem := (hp.ids (some id)).mpr ⟨id, rfl, ⟨hid, (scanSpan_isSome hid hnew).mpr hsome⟩, hnew⟩
      obtain ⟨r, hr, heq⟩ := List.mem_map.mp hmem
      obtain ⟨call, -, hl⟩ := hrs r hr
      obtain rfl := Option.some.inj (heq.symm.trans (scanSpan_keyed _ _ hl))
      exact ⟨r, hr, heq, hl⟩
    refine turnStep_of_pushed (enterTurn_entered st a scanned) hp (fun id => ?_)
      ⟨filter_rest rs span, ?_, ?_⟩ (fun h => hok h _) hkept
      (fun hu _ => ⟨unchanged_owned _ hu (by simp), fun h => hok h _⟩)
    · change id ∈ st.seenToolResultIds ∨ (id ∈ a.callIds ∧ _) ↔ _
      by_cases hseen : id ∈ st.seenToolResultIds
      · simp [hseen]
      · by_cases hid : id ∈ a.callIds
        · have hsome : (scanned.spanResultsById.lookup id).isSome ↔ resultsFor id span ≠ [] :=
            scanSpan_isSome hid hseen
          simp only [hid, hsome]
          simp [answers, herr, hid]
        · simp [answers, hid]
    · intro r hr
      obtain ⟨id, hid, hr⟩ := hreal r (mem_results_append_rest hr)
      exact ⟨id, hid, hr.id_eq⟩
    · intro _ r hr
      exact ⟨by simp, hreal r (mem_results_append_rest hr)⟩
  | drop =>
    let dropped := { enterTurn st a scanned with
      changed := (enterTurn st a scanned).changed || !scanned.spanResultsById.isEmpty }
    have hturn : repairTurn now .drop st a (extractToolCallsFromAssistant a) span =
        dropped.pushAll scanned.remainder := by
      simp [repairTurn, herr, enterTurn, scanned, dropped, RepairState.push]
    have hp : Pushed (fun _ => False) (enterTurn st a scanned) dropped [] :=
      ⟨by simp [dropped], by simp [dropped], by simp, by simp, fun h => by simp [dropped, h], rfl⟩
    refine ⟨([] : List ToolResultMessage).map .toolResult ++ span.filter notToolResult, ?_⟩
    rw [hturn]
    refine turnStep_of_pushed (enterTurn_entered st a scanned) hp
      (fun id => by simp [answers, herr]) ⟨filter_rest [] span, ?_, ?_⟩
      (fun h => hok h _) (fun _ _ _ h => absurd rfl (h herr)) (fun hu hd => ⟨unchanged_owned _ hu fun _ r hr => ?_, fun h => hok h _⟩)
    · exact fun r hr => absurd hr not_mem_rest
    · exact fun _ r hr => absurd hr not_mem_rest
    · -- a result in the span would have been dropped, and the drop reported
      obtain ⟨id, hid, hseen, m, hm, -⟩ := scanSpan_unchanged_real hu hr
      have hsome := (scanSpan_isSome hid hseen).mpr (List.ne_nil_of_mem hm)
      have hempty : scanned.spanResultsById = [] := by
        simp only [dropped, Bool.or_eq_false_iff, Bool.not_eq_false', List.isEmpty_iff] at hd
        exact hd.2
      simp [scanned] at hempty
      simp [hempty] at hsome

theorem length_resultsFor_map (id : String) (results : List ToolResultMessage) :
    (resultsFor id (results.map .toolResult)).length =
      (results.map extractToolResultId).count (some id) := by
  induction results with
  | nil => rfl
  | cons x xs ih =>
    simp only [resultsFor, List.filterMap_map] at ih
    by_cases hx : extractToolResultId x = some id
    · simp [resultsFor, Message.resultFor?, List.filterMap_map, hx, ih]
    · simp [resultsFor, Message.resultFor?, List.filterMap_map, hx, ih]

theorem length_le_one_nodup {results : List ToolResultMessage}
    (hids : ∀ r ∈ results, ∃ id ∈ a.callIds, extractToolResultId r = some id)
    (h : ∀ id ∈ a.callIds, (resultsFor id (results.map .toolResult)).length ≤ 1) :
    (results.map extractToolResultId).Nodup := by
  refine List.nodup_iff_count_le_one.mpr fun x => ?_
  by_cases hx : x ∈ results.map extractToolResultId
  · obtain ⟨r, hr, rfl⟩ := List.mem_map.mp hx
    obtain ⟨id, hid, heq⟩ := hids r hr
    rw [heq, ← length_resultsFor_map]
    exact h id hid
  · rw [List.count_eq_zero_of_not_mem hx]
    exact Nat.zero_le 1

theorem eq_results_of_rest_nil (h : span.filter notToolResult = []) :
    ∃ results : List ToolResultMessage, span = results.map .toolResult := by
  induction span with
  | nil => exact ⟨[], rfl⟩
  | cons m span ih =>
    rw [List.filter_cons] at h
    cases m with
    | toolResult r =>
      obtain ⟨results, rfl⟩ := ih h
      exact ⟨r :: results, rfl⟩
    | assistant a => cases h
    | other v => cases h

/-- The pass leaves a turn alone only if its results already stand as it would put them. -/
theorem unchanged_paired (now : Nat → Number)
    (h : (scanSpan (extractToolCallsFromAssistant a) seen span).changed = false)
    (hall : ∀ id ∈ a.callIds, resultsFor id span ≠ [])
    (hrest : span.filter notToolResult = []) (hone : ∀ id ∈ a.callIds, (resultsFor id span).length ≤ 1) :
    TurnPaired now (· ∈ seen) a span span := by
  obtain ⟨results, rfl⟩ := eq_results_of_rest_nil hrest
  have hreal (r) (hr : r ∈ results) : ∃ id ∈ a.callIds, id ∉ seen ∧
      RealResult a (results.map .toolResult) id r :=
    scanSpan_unchanged_real h (List.mem_map_of_mem hr)
  refine ⟨results, by rw [hrest, List.append_nil], ?_, fun id hid _ => ?_, fun r hr => ?_⟩
  · refine length_le_one_nodup (fun r hr => ?_) hone
    obtain ⟨id, hid, -, hr⟩ := hreal r hr
    exact ⟨id, hid, hr.id_eq⟩
  · obtain ⟨r, hr⟩ := List.exists_mem_of_ne_nil _ (hall id hid)
    obtain ⟨hmem, heq⟩ := mem_resultsFor.mp hr
    obtain ⟨r', hr', hrr⟩ := List.mem_map.mp hmem
    cases hrr
    exact List.mem_map.mpr ⟨r, hr', heq⟩
  · obtain ⟨id, hid, -, hr⟩ := hreal r hr
    obtain ⟨call, hcall, rfl⟩ := List.mem_map.mp hid
    exact ⟨call, hcall, hr.id_eq, .inl hr⟩

theorem okTurn_step (now : Nat → Number) (policy : ErroredAssistantResultPolicy)
    (hok : isErroredTurn a = false) (hcalls : a.callIds ≠ []) :
    ∃ span', TurnStep now policy st
      (repairTurn now policy st a (extractToolCallsFromAssistant a) span) a span span' := by
  let scanned := scanSpan (extractToolCallsFromAssistant a) st.seenToolResultIds span
  have hkeyed : Keyed scanned.spanResultsById := scanSpan_keyed
  have hne : ∀ call ∈ extractToolCallsFromAssistant a, call.id ≠ "" :=
    fun call hcall => callId_ne (List.mem_map_of_mem hcall)
  let isMoved := !scanned.spanResultsById.isEmpty && !scanned.remainder.isEmpty
  let entered := enterTurn st a scanned
  let st₁ := { entered with
    moved := entered.moved || isMoved
    changed := entered.changed || isMoved }
  have he : Entered st a scanned st₁ := by
    have he := enterTurn_entered st a scanned
    refine ⟨he.out, he.seen, fun h => ?_, fun h => ?_⟩
    · simp [st₁, entered, he.changed h]
    · rcases (Bool.or_eq_true ..).mp h with h | h
      · exact .inl h
      · exact .inr (by simp [st₁, h])
  have hturn : repairTurn now policy st a (extractToolCallsFromAssistant a) span =
      (pushResults now scanned.spanResultsById st₁
        (extractToolCallsFromAssistant a)).pushAll scanned.remainder := by
    simp [repairTurn, hok, st₁, entered, isMoved, enterTurn, scanned, RepairState.push]
  obtain ⟨rs, hp, hrs⟩ := pushResults_pushed now hkeyed _ hne st₁
  have hresult : ∀ r ∈ rs, ∃ call ∈ extractToolCallsFromAssistant a,
      extractToolResultId r = some call.id ∧ ResultOf now a span call r := by
    intro r hr
    obtain ⟨call, hcall, hl | ⟨hl, t, rfl⟩⟩ := hrs r hr
    · obtain ⟨-, -, hreal⟩ := scanSpan_real hl
      exact ⟨call, hcall, hreal.id_eq, .inl hreal⟩
    · have hid : extractToolResultId (makeMissingToolResult (now t) call.id call.name) = some call.id :=
        makeMissingToolResult_id (hne call hcall)
      have hnew : call.id ∉ st.seenToolResultIds := by
        obtain ⟨s, hs, -, hnew⟩ := (hp.ids _).mp (List.mem_map_of_mem hr)
        rw [hid] at hs
        cases hs
        rwa [he.seen] at hnew
      refine ⟨call, hcall, hid, .inr ⟨?_, t, rfl⟩⟩
      by_contra hsome
      have := (scanSpan_isSome (List.mem_map_of_mem hcall) hnew).mpr hsome
      rw [show List.lookup _ (scanSpan _ _ _).spanResultsById = _ from hl] at this
      cases this
  refine ⟨rs.map .toolResult ++ span.filter notToolResult, ?_⟩
  rw [hturn]
  refine turnStep_of_pushed he hp (fun id => ?_) ⟨filter_rest rs span, ?_, ?_⟩ (fun _ => ?_) ?_ ?_
  · simp [answers, hok, AssistantMessage.callIds]
  · intro r hr
    obtain ⟨call, hcall, hid, -⟩ := hresult r (mem_results_append_rest hr)
    exact ⟨call.id, List.mem_map_of_mem hcall, hid⟩
  · intro herr
    rw [hok] at herr
    cases herr
  · refine ⟨rs, rfl, hp.nodup, fun id hid hnew => (hp.ids _).mpr ⟨id, rfl, hid, ?_⟩, hresult⟩
    rwa [he.seen]
  · refine pushed_kept _ fun id hid hnew hsome => ?_
    have hmem := (hp.ids (some id)).mpr ⟨id, rfl, hid, by rwa [he.seen]⟩
    obtain ⟨r, hr, heq⟩ := List.mem_map.mp hmem
    refine ⟨r, hr, heq, ?_⟩
    obtain ⟨r', hl⟩ := Option.isSome_iff_exists.mp ((scanSpan_isSome hid hnew).mpr hsome)
    obtain ⟨call, hcall, hl' | ⟨hl', t, rfl⟩⟩ := hrs r hr
    · obtain rfl := Option.some.inj (heq.symm.trans (scanSpan_keyed _ _ hl'))
      exact hl'
    · rw [makeMissingToolResult_id (hne call hcall)] at heq
      obtain rfl := Option.some.inj heq
      rw [show List.lookup _ (scanSpan _ _ _).spanResultsById = _ from hl'] at hl
      cases hl
  · intro hu hc
    have hall : ∀ id ∈ a.callIds, (scanned.spanResultsById.lookup id).isSome := by
      rintro id hid
      obtain ⟨call, hcall, rfl⟩ := List.mem_map.mp hid
      exact pushResults_unchanged now hkeyed _ hne st₁ hc call hcall
    have hrest : span.filter notToolResult = [] := by
      obtain ⟨id, hid⟩ := List.exists_mem_of_ne_nil _ hcalls
      obtain ⟨r, hr⟩ := Option.isSome_iff_exists.mp (hall id hid)
      have hmoved : isMoved = false := Bool.eq_false_iff.mpr fun h => by
        rw [hp.changed (by simp [st₁, h])] at hc
        cases hc
      have hrem : scanned.remainder = span.filter notToolResult := scanSpan_remainder span
      rw [← hrem]
      by_contra hne
      have hsome : scanned.spanResultsById ≠ [] := fun h => by simp [h] at hr
      simp [isMoved, hsome, hne] at hmoved
    refine ⟨unchanged_owned policy hu fun herr => ?_, fun _ hone => ?_⟩
    · rw [hok] at herr
      cases herr
    refine unchanged_paired now hu (fun id hid => ?_) hrest hone
    obtain ⟨r, hr⟩ := Option.isSome_iff_exists.mp (hall id hid)
    obtain ⟨-, -, m, hm, -⟩ := scanSpan_real hr
    exact List.ne_nil_of_mem hm

end

-- ---
-- The loop is a fold over the turns
-- ---

section
variable {now : Nat → Number} {policy : ErroredAssistantResultPolicy}

def repairGroup (now : Nat → Number) (policy : ErroredAssistantResultPolicy) (st : RepairState)
    (turn : Message × List Message) : RepairState :=
  match turn.1 with
  | .assistant a =>
    if (extractToolCallsFromAssistant a).isEmpty then
      repairLoose (st.push (.assistant a)) turn.2
    else repairTurn now policy st a (extractToolCallsFromAssistant a) turn.2
  | _ => st

theorem repairFrom_skip (l rest : List Message) (st : RepairState) :
    repairFrom now policy l.length st (l ++ rest) = repairFrom now policy 0 st rest := by
  induction l with
  | nil => rfl
  | cons m l ih => simpa [repairFrom] using ih

theorem repairFrom_loose (hl : ∀ m ∈ l, Message.isAssistant m = false) (rest : List Message)
    (st : RepairState) :
    repairFrom now policy 0 st (l ++ rest) = repairFrom now policy 0 (repairLoose st l) rest := by
  induction l generalizing st with
  | nil => rfl
  | cons m l ih =>
    obtain ⟨hm, hrest⟩ := List.forall_mem_cons.mp hl
    cases m with
    | assistant a => cases hm
    | toolResult r => simpa [repairFrom, repairLoose] using ih hrest _
    | other v => simpa [repairFrom, repairLoose] using ih hrest _

theorem repairFrom_flatten (h : Proper Message.isAssistant gs) (st : RepairState) :
    repairFrom now policy 0 st (flatten gs) = gs.foldl (repairGroup now policy) st := by
  induction gs generalizing st with
  | nil => rfl
  | cons g gs ih =>
    have hgs : Proper Message.isAssistant gs := fun x hx => h x (List.mem_cons_of_mem _ hx)
    obtain ⟨hhead, hbody⟩ := h g List.mem_cons_self
    obtain ⟨m, span⟩ := g
    cases m with
    | toolResult r => cases hhead
    | other v => cases hhead
    | assistant a =>
      rw [flatten_cons, List.foldl_cons, ← ih hgs]
      simp only [repairFrom, repairGroup]
      split
      · exact repairFrom_loose hbody _ _
      · rw [lead_lead_append hbody hgs]
        exact repairFrom_skip _ _ _

/-- A run over some turns, with the turns it puts out. -/
inductive TurnSteps (now : Nat → Number) (policy : ErroredAssistantResultPolicy) :
    RepairState → List (Message × List Message) → List (Message × List Message) → RepairState → Prop
  | nil : TurnSteps now policy st [] [] st
  | cons (step : TurnStep now policy st st' a span span')
      (steps : TurnSteps now policy st' gs outs st'') :
      TurnSteps now policy st ((.assistant a, span) :: gs) ((.assistant a, span') :: outs) st''

theorem repairGroup_step (now : Nat → Number) (policy : ErroredAssistantResultPolicy)
    (st : RepairState) (a : AssistantMessage) (span : List Message) :
    ∃ span', TurnStep now policy st (repairGroup now policy st (.assistant a, span)) a span span' := by
  simp only [repairGroup]
  split
  · rename_i hcalls
    exact ⟨_, emptyTurn_step now policy st span (List.isEmpty_iff.mp hcalls)⟩
  · rename_i hcalls
    cases herr : isErroredTurn a with
    | true => exact erroredTurn_step now policy herr
    | false =>
      refine okTurn_step now policy herr fun h => hcalls ?_
      simpa [AssistantMessage.callIds] using h

theorem foldl_turnSteps (now : Nat → Number) (policy : ErroredAssistantResultPolicy)
    (h : Proper Message.isAssistant gs) (st : RepairState) :
    ∃ outs, TurnSteps now policy st gs outs (gs.foldl (repairGroup now policy) st) := by
  induction gs generalizing st with
  | nil => exact ⟨[], .nil⟩
  | cons g gs ih =>
    obtain ⟨m, span⟩ := g
    cases m with
    | toolResult r => cases (h _ List.mem_cons_self).1
    | other v => cases (h _ List.mem_cons_self).1
    | assistant a =>
      obtain ⟨span', hstep⟩ := repairGroup_step now policy st a span
      obtain ⟨outs, hsteps⟩ := ih (fun x hx => h x (List.mem_cons_of_mem _ hx)) _
      exact ⟨_, .cons hstep hsteps⟩

namespace TurnSteps

theorem out (h : TurnSteps now policy st gs outs st') : st'.out = st.out ++ flatten outs := by
  induction h with
  | nil => simp
  | cons step _ ih => simp [ih, step.out]

theorem changed (h : TurnSteps now policy st gs outs st') (hc : st.changed = true) :
    st'.changed = true := by
  induction h with
  | nil => exact hc
  | cons step _ ih => exact ih (step.changed hc)

theorem moved (h : TurnSteps now policy st gs outs st')
    (hm : st.moved = true → st.changed = true) : st'.moved = true → st'.changed = true := by
  induction h with
  | nil => exact hm
  | cons step _ ih => exact ih (step.moved hm)

theorem length (h : TurnSteps now policy st gs outs st') : outs.length = gs.length := by
  induction h with
  | nil => rfl
  | cons _ _ ih => simp [ih]

theorem proper (h : TurnSteps now policy st gs outs st') (hgs : Proper Message.isAssistant gs) :
    Proper Message.isAssistant outs := by
  induction h with
  | nil => exact hgs
  | cons step _ ih =>
    intro g hg
    rcases List.mem_cons.mp hg with rfl | hg
    · refine ⟨rfl, fun m hm => ?_⟩
      cases m with
      | toolResult r => rfl
      | other v => rfl
      | assistant b =>
        -- an assistant message in the turn's output would be one of its input
        have hrest := step.owned.rest ▸ List.mem_filter.mpr ⟨hm, rfl⟩
        exact (hgs _ List.mem_cons_self).2 _ (List.mem_filter.mp hrest).1
    · exact ih (fun x hx => hgs x (List.mem_cons_of_mem _ hx)) g hg

/-- The run up to one turn, the turn's own step, and the run after it. -/
theorem split (h : TurnSteps now policy st (pre ++ (.assistant a, span) :: post) outs st') :
    ∃ pre' span' post' st₁ st₂, outs = pre' ++ (.assistant a, span') :: post' ∧
      pre'.length = pre.length ∧ TurnStep now policy st₁ st₂ a span span' ∧
      (∀ id, id ∈ st₁.seenToolResultIds ↔
        id ∈ st.seenToolResultIds ∨ ∃ t ∈ pre, answers policy t id) ∧
      (st₂.changed = true → st'.changed = true) := by
  induction pre generalizing st outs with
  | nil =>
    cases h with
    | cons step steps => exact ⟨[], _, _, _, _, rfl, rfl, step, by simp, steps.changed⟩
  | cons g pre ih =>
    cases h with
    | cons step steps =>
      obtain ⟨pre', span', post', st₁, st₂, rfl, hlen, hstep, hseen, hchanged⟩ := ih steps
      refine ⟨_ :: pre', span', post', st₁, st₂, rfl, by simp [hlen], hstep, fun id => ?_, hchanged⟩
      rw [hseen, step.seen]
      simp [or_assoc]

end TurnSteps

theorem TurnPaired.congr (h : TurnPaired now answered a span span')
    (hiff : ∀ id, answered id ↔ answered' id) : TurnPaired now answered' a span span' := by
  obtain rfl : answered = answered' := funext fun id => propext (hiff id)
  exact h

/-- The whole pass: its state, and the turns it put out. -/
theorem repairFrom_turns (now : Nat → Number) (policy : ErroredAssistantResultPolicy)
    (messages : List Message) :
    ∃ st₀ outs, LooseStep {} st₀ (lead Message.isAssistant messages) ∧
      TurnSteps now policy st₀ (turns messages) outs (repairFrom now policy 0 {} messages) := by
  let st₀ := repairLoose {} (lead Message.isAssistant messages)
  obtain ⟨outs, hsteps⟩ := foldl_turnSteps now policy
    (groups_proper messages : Proper Message.isAssistant (turns messages)) st₀
  refine ⟨st₀, outs, repairLoose_step _ _, ?_⟩
  rw [← repairFrom_flatten (groups_proper messages), ← repairFrom_loose
    (fun m hm => not_isHead_of_mem_lead hm), lead_append_flatten] at hsteps
  exact hsteps

end

-- ---
-- The repaired transcript
-- ---

/-- The lead of the output, its number of turns, and each of its turns: as the
step of the loop left it, or as it was if the pass changed nothing. -/
theorem repaired_turn (now : Nat → Number) (messages : List Message)
    (policy? : Option ErroredAssistantResultPolicy) :
    let report := repairToolUseResultPairing now messages policy?
    let policy := policy?.getD .preserve
    lead Message.isAssistant report.messages =
      (lead Message.isAssistant messages).filter notToolResult ∧
    (turns report.messages).length = (turns messages).length ∧
    ∀ pre a span post, turns messages = pre ++ (.assistant a, span) :: post →
      ∃ pre' span' post' st st', turns report.messages = pre' ++ (.assistant a, span') :: post' ∧
        pre'.length = pre.length ∧
        (∀ id, id ∈ st.seenToolResultIds ↔ ∃ turn ∈ pre, answers policy turn id) ∧
        (report.moved = true ∧ TurnStep now policy st st' a span span' ∨
          report.moved = false ∧ span' = span ∧ st'.changed = false ∧
            ∃ span₁, TurnStep now policy st st' a span span₁) := by
  intro report policy
  obtain ⟨st₀, outs, hloose, hsteps⟩ := repairFrom_turns now policy messages
  have hproper := hsteps.proper (groups_proper messages)
  have hst₀ : st₀.moved = true → st₀.changed = true := fun h => by
    rw [hloose.moved] at h
    cases h
  have hnil : ∀ id, id ∉ st₀.seenToolResultIds := by simp [hloose.seen]
  have hrest : ∀ m ∈ (lead Message.isAssistant messages).filter notToolResult,
      m.isAssistant = false :=
    fun m hm => not_isHead_of_mem_lead (List.mem_filter.mp hm).1
  cases hchanged : (repairFrom now policy 0 {} messages).changed with
  | true =>
    have hmoved : report.moved = true := by simp [report, repairToolUseResultPairing, policy, hchanged]
    have hout : report.messages =
        (lead Message.isAssistant messages).filter notToolResult ++ flatten outs := by
      simp only [report, repairToolUseResultPairing]
      rw [hchanged, Bool.true_or, if_pos rfl, hsteps.out, hloose.out, List.nil_append]
    have hturns : turns report.messages = outs := by
      rw [hout]
      exact groups_lead_append hrest hproper
    refine ⟨?_, by rw [hturns, hsteps.length], fun pre a span post h => ?_⟩
    · rw [hout]
      exact lead_lead_append hrest hproper
    · rw [h] at hsteps
      obtain ⟨pre', span', post', st₁, st₂, rfl, hlen, hstep, hseen, -⟩ := hsteps.split
      exact ⟨pre', span', post', st₁, st₂, hturns, hlen, fun id => by simp [hseen, hnil],
        .inl ⟨hmoved, hstep⟩⟩
  | false =>
    have hnotMoved : (repairFrom now policy 0 {} messages).moved = false :=
      Bool.eq_false_iff.mpr fun h => by
        rw [hsteps.moved hst₀ h] at hchanged
        cases hchanged
    have hmoved : report.moved = false := by
      simp [report, repairToolUseResultPairing, policy, hchanged, hnotMoved]
    have hout : report.messages = messages := by
      simp [report, repairToolUseResultPairing, policy, hchanged, hnotMoved]
    have hlead : st₀.changed = false := Bool.eq_false_iff.mpr fun h => by
      rw [hsteps.changed h] at hchanged
      cases hchanged
    refine ⟨by rw [hout, hloose.unchanged hlead], by rw [hout], fun pre a span post h => ?_⟩
    rw [h] at hsteps
    obtain ⟨pre', span', post', st₁, st₂, -, -, hstep, hseen, hafter⟩ := hsteps.split
    have hu : st₂.changed = false := Bool.eq_false_iff.mpr fun h => by
      rw [hafter h] at hchanged
      cases hchanged
    exact ⟨pre, span, post, st₁, st₂, by rw [hout, h], rfl, fun id => by simp [hseen, hnil],
      .inr ⟨hmoved, rfl, hu, _, hstep⟩⟩

/-- Behind each assistant message the repaired transcript has results for its
calls only. A turn that did not fail is followed at once by exactly one result
for each of its calls that no earlier turn answered. A transcript in which
nothing needed repair is returned as it is, second results included. -/
theorem repairToolUseResultPairing_paired (now : Nat → Number) (messages : List Message)
    (policy? : Option ErroredAssistantResultPolicy) :
    let report := repairToolUseResultPairing now messages policy?
    let policy := policy?.getD .preserve
    lead Message.isAssistant report.messages =
      (lead Message.isAssistant messages).filter notToolResult ∧
    (turns report.messages).length = (turns messages).length ∧
    ∀ pre a span post, turns messages = pre ++ (.assistant a, span) :: post →
      ∃ pre' span' post', turns report.messages = pre' ++ (.assistant a, span') :: post' ∧
        pre'.length = pre.length ∧ TurnOwned policy a span span' ∧
        (isErroredTurn a = false →
          (report.moved = true ∨ ∀ id ∈ a.callIds, (resultsFor id span).length ≤ 1) →
          TurnPaired now (fun id => ∃ turn ∈ pre, answers policy turn id) a span span') := by
  intro report policy
  obtain ⟨hlead, hlength, hturn⟩ := repaired_turn now messages policy?
  refine ⟨hlead, hlength, fun pre a span post h => ?_⟩
  obtain ⟨pre', span', post', st, st', hout, hlen, hseen, hcase⟩ := hturn pre a span post h
  refine ⟨pre', span', post', hout, hlen, ?_⟩
  rcases hcase with ⟨-, hstep⟩ | ⟨hmoved, rfl, hu, span₁, hstep⟩
  · exact ⟨hstep.owned, fun herr _ => (hstep.paired herr).congr hseen⟩
  · obtain ⟨howned, -, hpaired⟩ := hstep.unchanged hu
    refine ⟨howned, fun herr hor => ?_⟩
    have hone := hor.resolve_left (by simp [report, hmoved])
    exact (hpaired herr hone).congr hseen

/-- The first real result of a call stays in its turn, unless an earlier turn
answered the id. -/
theorem repaired_kept (now : Nat → Number) (policy? : Option ErroredAssistantResultPolicy)
    {id : String} (h : turns messages = pre ++ (.assistant a, span) :: post)
    (hid : id ∈ a.callIds) (hnew : ∀ turn ∈ pre, ¬ answers (policy?.getD .preserve) turn id)
    (hpolicy : isErroredTurn a = true → policy? ≠ some .drop)
    (hm : (resultsFor id span).head? = some m) :
    ∃ pre' span' post',
      turns (repairToolUseResultPairing now messages policy?).messages =
        pre' ++ (.assistant a, span') :: post' ∧ pre'.length = pre.length ∧
      .toolResult (normalizeToolResultName m
        (toolCallName (extractToolCallsFromAssistant a) id)).1 ∈ span' := by
  obtain ⟨-, -, hturn⟩ := repaired_turn now messages policy?
  obtain ⟨pre', span', post', st, st', hout, hlen, hseen, hcase⟩ := hturn pre a span post h
  refine ⟨pre', span', post', hout, hlen, ?_⟩
  have hnotSeen : id ∉ st.seenToolResultIds := fun hmem => by
    obtain ⟨turn, hmem, hans⟩ := (hseen id).mp hmem
    exact hnew turn hmem hans
  have hdrop : isErroredTurn a = true → policy?.getD .preserve ≠ .drop := fun herr heq => by
    cases policy? with
    | none => cases heq
    | some p => exact hpolicy herr (congrArg some heq)
  rcases hcase with ⟨-, hstep⟩ | ⟨-, rfl, hu, span₁, hstep⟩
  · exact hstep.kept id hid hnotSeen hdrop m hm
  · exact (hstep.unchanged hu).2.1 id hid hnotSeen hdrop m hm

/-- The pairing one might expect: no results but one for each call of a turn
that did not fail. -/
def StrictlyPaired (out : List Message) : Prop :=
  (∀ m ∈ lead Message.isAssistant out, m.isToolResult = false) ∧
  ∀ a span, (.assistant a, span) ∈ turns out →
    if isErroredTurn a then ∀ m ∈ span, m.isToolResult = false
    else ∃ results : List ToolResultMessage,
      span = results.map .toolResult ++ span.filter notToolResult ∧
      (results.map extractToolResultId).Nodup ∧
      ∀ id, some id ∈ results.map extractToolResultId ↔ id ∈ a.callIds

section

def readCall (stopReason : String) : AssistantMessage where
  content := some [.object (some (.str "toolCall")) (some (.str "call_1")) (some (.str "read")) []]
  stopReason := some (.str stopReason)
  rest := []

def readResult : ToolResultMessage where
  toolCallId := some (.str "call_1")
  toolUseId := none
  toolName := some (.str "read")
  rest := []

/-- An aborted turn keeps its result; a second turn with the same id gets none. -/
theorem not_strictlyPaired :
    ¬ StrictlyPaired (repairToolUseResultPairing (fun _ => .fin 0)
      [.assistant (readCall "aborted"), .toolResult readResult] none).messages ∧
    ¬ StrictlyPaired (repairToolUseResultPairing (fun _ => .fin 0)
      [.assistant (readCall "toolUse"), .toolResult readResult,
        .assistant (readCall "toolUse"), .toolResult readResult] none).messages := by
  constructor
  · rintro ⟨-, h⟩
    have hturn := h (readCall "aborted") [.toolResult readResult] List.mem_cons_self
    rw [if_pos (by rfl)] at hturn
    cases hturn _ List.mem_cons_self
  · rintro ⟨-, h⟩
    have hturn := h (readCall "toolUse") [] (List.mem_cons_of_mem _ List.mem_cons_self)
    rw [if_neg (by decide)] at hturn
    obtain ⟨results, hspan, -, hids⟩ := hturn
    obtain rfl : results = [] := by simpa using hspan.symm
    cases (hids "call_1").mpr List.mem_cons_self

/-- A result behind a user message moves up to its call. -/
theorem displaced_paired :
    ∃ span', (.assistant (readCall "toolUse"), span') ∈ turns (repairToolUseResultPairing
        (fun _ => .fin 0) [.assistant (readCall "toolUse"), .other .null, .toolResult readResult]
        none).messages ∧
      TurnPaired (fun _ => .fin 0) (fun id => ∃ turn ∈ [], answers .preserve turn id)
        (readCall "toolUse") [.other .null, .toolResult readResult] span' := by
  obtain ⟨-, -, h⟩ := repairToolUseResultPairing_paired (fun _ => .fin 0)
    [.assistant (readCall "toolUse"), .other .null, .toolResult readResult] none
  obtain ⟨pre', span', post', hturns, -, -, hpaired⟩ := h [] (readCall "toolUse")
    [.other .null, .toolResult readResult] [] rfl
  exact ⟨span', by simp [hturns], hpaired rfl (.inl rfl)⟩

end

end OpenClaw.Agents
