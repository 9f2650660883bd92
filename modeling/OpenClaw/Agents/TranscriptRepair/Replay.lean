import Mathlib.Data.List.Nodup
import OpenClaw.Agents.TranscriptRepair.Turns
import OpenClaw.Js.Text

/-!
# The pass over its own output

The second pass meets each turn with its results in place and the same ids answered, and
pushes the same results, as long as it does not clean the name of one.
-/

namespace OpenClaw.Agents

open Js (Json Number)
open Groups

-- ---
-- Names
-- ---

def CleanName (text : String) : Prop :=
  text ≠ "" ∧ Js.trim text = text

/-- The same message, whatever tool name it has. -/
def SameButName (m r : ToolResultMessage) : Prop :=
  { r with toolName := m.toolName } = m

theorem unknown_clean : CleanName "unknown" := by
  constructor <;> decide

theorem trimNonEmptyString_str (h : CleanName text) :
    trimNonEmptyString (some (.str text)) = some text := by
  simp [trimNonEmptyString, Json.str?, h.1, h.2]

theorem trimNonEmptyString_clean (h : trimNonEmptyString value = some text) : CleanName text := by
  unfold trimNonEmptyString at h
  cases hvalue : value.bind Json.str? with
  | none =>
    rw [hvalue] at h
    cases h
  | some raw =>
    simp only [hvalue] at h
    by_cases hblank : Js.trim raw = ""
    · rw [if_pos hblank] at h
      cases h
    · rw [if_neg hblank] at h
      obtain rfl := Option.some.inj h
      exact ⟨hblank, Js.trim_trim raw⟩

theorem normalizeToolResultName_sameButName (m : ToolResultMessage) (fallback : Option String) :
    SameButName m (normalizeToolResultName m fallback).1 := by
  unfold normalizeToolResultName
  repeat' split
  all_goals rfl

/-- A message is kept if it has a clean name or none; otherwise it gets a clean name. -/
theorem normalizeToolResultName_cases (m : ToolResultMessage) (fallback : Option String) :
    (∀ text, m.toolName.bind Json.str? = some text → CleanName text) ∧
        normalizeToolResultName m fallback = (m, false) ∨
      ∃ name, CleanName name ∧
        normalizeToolResultName m fallback = ({ m with toolName := some (.str name) }, true) := by
  cases hname : trimNonEmptyString m.toolName with
  | some name =>
    have hclean := trimNonEmptyString_clean hname
    by_cases hsame : m.toolName.bind Json.str? = some name
    · refine .inl ⟨fun text htext => ?_, by simp only [normalizeToolResultName, hname, if_pos hsame]⟩
      obtain rfl := Option.some.inj (hsame.symm.trans htext)
      exact hclean
    · exact .inr ⟨name, hclean, by simp only [normalizeToolResultName, hname, if_neg hsame]⟩
  | none =>
    cases hfallback : trimNonEmptyString (fallback.map .str) with
    | some name =>
      exact .inr ⟨name, trimNonEmptyString_clean hfallback,
        by simp only [normalizeToolResultName, hname, hfallback]⟩
    | none =>
      by_cases hstr : (m.toolName.bind Json.str?).isSome = true
      · exact .inr ⟨"unknown", unknown_clean,
          by simp only [normalizeToolResultName, hname, hfallback, if_pos hstr]⟩
      · refine .inl ⟨fun text htext => ?_,
          by simp only [normalizeToolResultName, hname, hfallback, if_neg hstr]⟩
        exact absurd (Option.isSome_of_eq_some htext) hstr

theorem normalizeToolResultName_of_clean {m : ToolResultMessage}
    (hname : m.toolName = some (.str text)) (h : CleanName text) (fallback : Option String) :
    normalizeToolResultName m fallback = (m, false) := by
  simp only [normalizeToolResultName, hname, trimNonEmptyString_str h]
  simp [Json.str?]

/-- What the repair of a name leaves, the repair leaves alone. -/
theorem normalizeToolResultName_normalized (m : ToolResultMessage) (fallback : Option String) :
    (normalizeToolResultName (normalizeToolResultName m fallback).1 fallback).1 =
      (normalizeToolResultName m fallback).1 := by
  obtain ⟨-, hkept⟩ | ⟨name, hclean, hnew⟩ := normalizeToolResultName_cases m fallback
  · rw [hkept, hkept]
  · rw [hnew, normalizeToolResultName_of_clean rfl hclean]

/-- A synthetic result is left alone exactly if its call has no name or a clean one. -/
theorem normalizeToolResultName_missing {id : String} {name fallback : Option String} :
    (normalizeToolResultName (makeMissingToolResult now id name) fallback).1 =
      makeMissingToolResult now id name ↔ ∀ text, name = some text → CleanName text := by
  constructor
  · rintro h text rfl
    obtain ⟨hclean, -⟩ | ⟨name, hclean, hnew⟩ :=
      normalizeToolResultName_cases (makeMissingToolResult now id (some text)) fallback
    · exact hclean text rfl
    · have hname := congrArg ToolResultMessage.toolName h
      rw [hnew] at hname
      cases hname
      exact hclean
  · intro h
    cases name with
    | none => rw [normalizeToolResultName_of_clean rfl unknown_clean]
    | some text => rw [normalizeToolResultName_of_clean rfl (h text rfl)]

-- ---
-- Pushing the same results again
-- ---

/-- Results for some calls in their order: one for each id that is not `seen` and that some
result is given for. -/
inductive Pushes (gives : ToolCallLike → ToolResultMessage → Prop) :
    List String → List ToolCallLike → List ToolResultMessage → List String → Prop
  | nil {seen : List String} : Pushes gives seen [] [] seen
  | skip {seen seen' : List String} {call : ToolCallLike} {calls : List ToolCallLike}
      {rs : List ToolResultMessage} (hskip : call.id ∈ seen ∨ ∀ r, ¬ gives call r)
      (rest : Pushes gives seen calls rs seen') : Pushes gives seen (call :: calls) rs seen'
  | give {seen seen' : List String} {call : ToolCallLike} {calls : List ToolCallLike}
      {r : ToolResultMessage} {rs : List ToolResultMessage} (hnew : call.id ∉ seen)
      (hgives : gives call r) (rest : Pushes gives (seen ++ [call.id]) calls rs seen') :
      Pushes gives seen (call :: calls) (r :: rs) seen'

/-- A result given for a call has its id, and calls with one id are given results alike. -/
structure GivesById (gives : ToolCallLike → ToolResultMessage → Prop) (calls : List ToolCallLike) :
    Prop where
  id : ∀ call ∈ calls, ∀ r, gives call r → extractToolResultId r = some call.id
  alike : ∀ call call', call.id = call'.id → (∃ r, gives call r) → ∃ r, gives call' r

theorem GivesById.tail (h : GivesById gives (call :: calls)) : GivesById gives calls :=
  ⟨fun c hc => h.id c (List.mem_cons_of_mem _ hc), h.alike⟩

namespace Pushes

variable {gives gives' : ToolCallLike → ToolResultMessage → Prop} {seen seen' : List String}

/-- Each result is given for the first call with its id. -/
theorem first (h : Pushes gives seen calls rs seen') (hgives : GivesById gives calls) :
    ∀ r ∈ rs, ∃ call ∈ calls, calls.find? (·.id = call.id) = some call ∧ call.id ∉ seen ∧
      gives call r := by
  induction h with
  | nil =>
    intro r hr
    cases hr
  | @skip seen _ c calls rs hskip _ ih =>
    intro r hr
    obtain ⟨call, hcall, hfirst, hnew, hr⟩ := ih hgives.tail r hr
    refine ⟨call, List.mem_cons_of_mem _ hcall, ?_, hnew, hr⟩
    have hne : c.id ≠ call.id := by
      rintro heq
      rcases hskip with hseen | hnone
      · exact hnew (heq ▸ hseen)
      · obtain ⟨r', hr'⟩ := hgives.alike call c heq.symm ⟨r, hr⟩
        exact hnone r' hr'
    rw [List.find?_cons_of_neg (by simpa using hne), hfirst]
  | @give seen _ c calls r₀ rs hnew hr₀ _ ih =>
    intro r hr
    rcases List.mem_cons.mp hr with rfl | hr
    · exact ⟨c, List.mem_cons_self, by simp, hnew, hr₀⟩
    · obtain ⟨call, hcall, hfirst, hnew', hr⟩ := ih hgives.tail r hr
      have hne : c.id ≠ call.id := by
        rintro heq
        exact hnew' (by simp [heq])
      refine ⟨call, List.mem_cons_of_mem _ hcall, ?_, fun hmem => ?_, hr⟩
      · rw [List.find?_cons_of_neg (by simpa using hne), hfirst]
      · exact hnew' (List.mem_append_left _ hmem)

/-- The first call with an id that is not `seen` has its result. -/
theorem given (h : Pushes gives seen calls rs seen') {call : ToolCallLike}
    (hfirst : calls.find? (·.id = call.id) = some call) (hnew : call.id ∉ seen)
    (hgives : ∃ r, gives call r) : ∃ r ∈ rs, gives call r := by
  induction h with
  | nil => cases hfirst
  | @skip seen _ c calls rs hskip _ ih =>
    by_cases heq : c.id = call.id
    · rw [List.find?_cons_of_pos (by simpa using heq)] at hfirst
      obtain rfl := Option.some.inj hfirst
      obtain ⟨r, hr⟩ := hgives
      exact absurd hr (hskip.resolve_left hnew r)
    · rw [List.find?_cons_of_neg (by simpa using heq)] at hfirst
      exact ih hfirst hnew
  | @give seen _ c calls r rs _ hr _ ih =>
    by_cases heq : c.id = call.id
    · rw [List.find?_cons_of_pos (by simpa using heq)] at hfirst
      obtain rfl := Option.some.inj hfirst
      exact ⟨r, List.mem_cons_self, hr⟩
    · rw [List.find?_cons_of_neg (by simpa using heq)] at hfirst
      obtain ⟨r', hmem, hr'⟩ := ih hfirst (by simpa [Ne.symm heq] using hnew)
      exact ⟨r', List.mem_cons_of_mem _ hmem, hr'⟩

/-- Every id that is not `seen` and that is given a result has one. -/
theorem has (h : Pushes gives seen calls rs seen') (hgives : GivesById gives calls)
    (hcall : call ∈ calls) (hnew : call.id ∉ seen) (hgiven : ∃ r, gives call r) :
    ∃ r ∈ rs, extractToolResultId r = some call.id := by
  cases hfirst : calls.find? (·.id = call.id) with
  | none => simpa using List.find?_eq_none.mp hfirst call hcall
  | some call' =>
    have heq : call'.id = call.id := by simpa using List.find?_some hfirst
    obtain ⟨r, hr, hr'⟩ := h.given (heq ▸ hfirst) (heq ▸ hnew)
      (hgives.alike call call' heq.symm hgiven)
    exact ⟨r, hr, heq ▸ hgives.id call' (List.mem_of_find?_eq_some hfirst) r hr'⟩

theorem ids_nodup (h : Pushes gives seen calls rs seen') (hgives : GivesById gives calls) :
    (rs.map extractToolResultId).Nodup := by
  induction h with
  | nil => exact List.nodup_nil
  | skip _ _ ih => exact ih hgives.tail
  | @give seen _ c calls r rs _ hr rest ih =>
    rw [List.map_cons, List.nodup_cons]
    refine ⟨fun hmem => ?_, ih hgives.tail⟩
    obtain ⟨r', hr', heq⟩ := List.mem_map.mp hmem
    obtain ⟨call, hcall, -, hnew, hgiven⟩ := rest.first hgives.tail r' hr'
    rw [hgives.id c List.mem_cons_self r hr, hgives.tail.id call hcall r' hgiven] at heq
    exact hnew (by simp [Option.some.inj heq])

/-- A second pass that is given the results of the first pushes them all again. -/
theorem replay (h : Pushes gives seen calls rs seen') (h' : Pushes gives' seen calls rs' seen'')
    (hgives : GivesById gives calls) {all : List ToolResultMessage} (hall : ∀ r ∈ rs, r ∈ all)
    (hnodup : (all.map extractToolResultId).Nodup)
    (honly : ∀ call ∈ calls, call.id ∉ seen → ∀ r, gives' call r ↔
      r ∈ all ∧ extractToolResultId r = some call.id)
    (hnone : ∀ call ∈ calls, call.id ∉ seen → (∀ r, ¬ gives call r) → ∀ r ∈ all,
      extractToolResultId r ≠ some call.id) : rs' = rs ∧ seen'' = seen' := by
  induction h generalizing rs' seen'' with
  | nil =>
    cases h'
    exact ⟨rfl, rfl⟩
  | @skip seen _ c calls rs hskip _ ih =>
    have honly' := fun c' hc' => honly c' (List.mem_cons_of_mem c hc')
    have hnone' := fun c' hc' => hnone c' (List.mem_cons_of_mem c hc')
    cases h' with
    | skip _ rest' => exact ih rest' hgives.tail hall honly' hnone'
    | give hnew hr' _ =>
      obtain ⟨hmem, hid⟩ := (honly c List.mem_cons_self hnew _).mp hr'
      exact absurd hid (hnone c List.mem_cons_self hnew (hskip.resolve_left hnew) _ hmem)
  | @give seen _ c calls r rs hnew hr rest ih =>
    have hid := hgives.id c List.mem_cons_self r hr
    have hmem := hall r List.mem_cons_self
    have hr₂ := (honly c List.mem_cons_self hnew r).mpr ⟨hmem, hid⟩
    cases h' with
    | skip hskip _ => exact absurd hr₂ (hskip.resolve_left hnew r)
    | give _ hr' rest' =>
      obtain ⟨hmem', hid'⟩ := (honly c List.mem_cons_self hnew _).mp hr'
      obtain rfl := List.inj_on_of_nodup_map hnodup hmem' hmem (hid'.trans hid.symm)
      have hlater (c' : ToolCallLike) (h : c'.id ∉ seen ++ [c.id]) : c'.id ∉ seen :=
        fun h' => h (List.mem_append_left _ h')
      obtain ⟨rfl, rfl⟩ := ih rest' hgives.tail (fun x hx => hall x (List.mem_cons_of_mem _ hx))
        (fun c' hc' h => honly c' (List.mem_cons_of_mem _ hc') (hlater c' h))
        (fun c' hc' h => hnone c' (List.mem_cons_of_mem _ hc') (hlater c' h))
      exact ⟨rfl, rfl⟩

end Pushes

-- ---
-- A turn
-- ---

/-- The results a turn gives its calls. -/
def turnGives (now : Nat → Number) (policy : ErroredAssistantResultPolicy) (a : AssistantMessage)
    (seen : List String) (span : List Message) (call : ToolCallLike) (r : ToolResultMessage) : Prop :=
  let found := (scanSpan (extractToolCallsFromAssistant a) seen span).spanResultsById.lookup call.id
  if isErroredTurn a then policy ≠ .drop ∧ found = some r
  else found = some r ∨ found = none ∧ ∃ t, r = makeMissingToolResult (now t) call.id call.name

section
variable {now : Nat → Number} {policy : ErroredAssistantResultPolicy} {a : AssistantMessage}
  {st : RepairState} {seen : List String} {span : List Message}

theorem turnGives_byId (now : Nat → Number) (policy : ErroredAssistantResultPolicy)
    (a : AssistantMessage) (seen : List String) (span : List Message) :
    GivesById (turnGives now policy a seen span) (extractToolCallsFromAssistant a) where
  id := by
    intro call hcall r hr
    simp only [turnGives] at hr
    split at hr
    · exact scanSpan_keyed _ _ hr.2
    · obtain hr | ⟨-, t, rfl⟩ := hr
      · exact scanSpan_keyed _ _ hr
      · exact makeMissingToolResult_id (callId_ne (List.mem_map_of_mem hcall))
  alike := by
    rintro call call' heq ⟨r, hr⟩
    cases herr : isErroredTurn a with
    | true =>
      simp only [turnGives, heq, herr, if_true] at hr ⊢
      exact ⟨r, hr⟩
    | false =>
      simp only [turnGives, heq, herr, Bool.false_eq_true, if_false] at hr ⊢
      obtain hr | ⟨hnone, -, -⟩ := hr
      · exact ⟨r, .inl hr⟩
      · exact ⟨_, .inr ⟨hnone, 0, rfl⟩⟩

/-- A turn that did not fail gives each of its calls a result. -/
theorem turnGives_ok (h : isErroredTurn a = false) : ∃ r, turnGives now policy a seen span call r := by
  simp only [turnGives, h, Bool.false_eq_true, if_false]
  cases hfound : (scanSpan (extractToolCallsFromAssistant a) seen span).spanResultsById.lookup call.id with
  | some r => exact ⟨r, .inl rfl⟩
  | none => exact ⟨_, .inr ⟨rfl, 0, rfl⟩⟩

/-- What is given for a call not yet answered: a result the turn has, or a synthetic one. -/
theorem turnGives_cases (h : turnGives now policy a seen span call r) :
    RealResult a span call.id r ∨ isErroredTurn a = false ∧
      (call.id ∈ a.callIds → call.id ∉ seen → resultsFor call.id span = []) ∧
      ∃ t, r = makeMissingToolResult (now t) call.id call.name := by
  simp only [turnGives] at h
  split at h
  · exact .inl (scanSpan_real h.2).2.2
  · rename_i herr
    obtain hr | ⟨hnone, t, rfl⟩ := h
    · exact .inl (scanSpan_real hr).2.2
    · refine .inr ⟨by simpa using herr, fun hid hseen => ?_, t, rfl⟩
      by_contra hsome
      have := (scanSpan_isSome hid hseen).mpr hsome
      rw [hnone] at this
      cases this

/-- A result is pushed unless its id is seen. -/
theorem pushToolResult_pushes (st : RepairState) (hid : extractToolResultId r = some i) :
    (i ∈ st.seenToolResultIds ∧ (pushToolResult st r).out = st.out ∧
        (pushToolResult st r).seenToolResultIds = st.seenToolResultIds) ∨
      (i ∉ st.seenToolResultIds ∧ (pushToolResult st r).out = st.out ++ [.toolResult r] ∧
        (pushToolResult st r).seenToolResultIds = st.seenToolResultIds ++ [i]) := by
  by_cases hseen : i ∈ st.seenToolResultIds
  · exact .inl ⟨hseen, by simp only [pushToolResult, hid, if_pos hseen], by
      simp only [pushToolResult, hid, if_pos hseen]⟩
  · exact .inr ⟨hseen, by simp only [pushToolResult, hid, if_neg hseen, RepairState.push], by
      simp only [pushToolResult, hid, if_neg hseen, RepairState.push]⟩

theorem pushes_cons {gives : ToolCallLike → ToolResultMessage → Prop} (st : RepairState)
    {st' : RepairState} (hgives : gives call r) (hid : extractToolResultId r = some call.id)
    (hrest : ∃ rs, Pushes gives (pushToolResult st r).seenToolResultIds calls rs
        st'.seenToolResultIds ∧ st'.out = (pushToolResult st r).out ++ rs.map .toolResult) :
    ∃ rs, Pushes gives st.seenToolResultIds (call :: calls) rs st'.seenToolResultIds ∧
      st'.out = st.out ++ rs.map .toolResult := by
  obtain ⟨rs, hrs, hout⟩ := hrest
  obtain ⟨hseen, hout', hseen'⟩ | ⟨hnew, hout', hseen'⟩ := pushToolResult_pushes st hid
  · rw [hseen'] at hrs
    exact ⟨rs, .skip (.inl hseen) hrs, by rw [hout, hout']⟩
  · rw [hseen'] at hrs
    exact ⟨r :: rs, .give hnew hgives hrs, by rw [hout, hout', List.map_cons, List.append_assoc,
      List.singleton_append]⟩

theorem pushRetained_pushes {found : List (String × ToolResultMessage)}
    {gives : ToolCallLike → ToolResultMessage → Prop} (hk : Keyed found)
    (hgives : ∀ call r, gives call r ↔ found.lookup call.id = some r) (calls : List ToolCallLike)
    (st : RepairState) :
    ∃ rs, Pushes gives st.seenToolResultIds calls rs (pushRetained found st calls).seenToolResultIds ∧
      (pushRetained found st calls).out = st.out ++ rs.map .toolResult := by
  induction calls generalizing st with
  | nil => exact ⟨[], .nil, by simp [pushRetained]⟩
  | cons call calls ih =>
    cases hl : found.lookup call.id with
    | some r =>
      simp only [pushRetained, hl]
      exact pushes_cons st ((hgives call r).mpr hl) (hk _ _ hl) (ih (pushToolResult st r))
    | none =>
      simp only [pushRetained, hl]
      obtain ⟨rs, hrs, hout⟩ := ih st
      refine ⟨rs, .skip (.inr fun r hr => ?_) hrs, hout⟩
      rw [(hgives call r).mp hr] at hl
      cases hl

theorem pushResults_pushes {found : List (String × ToolResultMessage)}
    {gives : ToolCallLike → ToolResultMessage → Prop} (now : Nat → Number) (hk : Keyed found)
    (hgives : ∀ call r, gives call r ↔ found.lookup call.id = some r ∨
      found.lookup call.id = none ∧ ∃ t, r = makeMissingToolResult (now t) call.id call.name)
    (calls : List ToolCallLike) (hne : ∀ call ∈ calls, call.id ≠ "") (st : RepairState) :
    ∃ rs, Pushes gives st.seenToolResultIds calls rs
        (pushResults now found st calls).seenToolResultIds ∧
      (pushResults now found st calls).out = st.out ++ rs.map .toolResult := by
  induction calls generalizing st with
  | nil => exact ⟨[], .nil, by simp [pushResults]⟩
  | cons call calls ih =>
    obtain ⟨hcall, hcalls⟩ := List.forall_mem_cons.mp hne
    cases hl : found.lookup call.id with
    | some r =>
      simp only [pushResults, hl]
      exact pushes_cons st ((hgives call r).mpr (.inl hl)) (hk _ _ hl) (ih hcalls (pushToolResult st r))
    | none =>
      simp only [pushResults, hl]
      have hmissing := (hgives call _).mpr (.inr ⟨hl, st.added.length, rfl⟩)
      let marked := { st with
        added := st.added ++ [makeMissingToolResult (now st.added.length) call.id call.name]
        changed := true }
      exact pushes_cons marked hmissing (makeMissingToolResult_id hcall) (ih hcalls _)

/-- Skipping every call pushes nothing. -/
theorem pushes_none {gives : ToolCallLike → ToolResultMessage → Prop} (hnone : ∀ call r, ¬ gives call r)
    (seen : List String) (calls : List ToolCallLike) : Pushes gives seen calls [] seen := by
  induction calls with
  | nil => exact .nil
  | cons call calls ih => exact .skip (.inr (hnone call)) ih

/-- The local variables of a turn that did not fail, before its results are pushed. -/
def enterOkTurn (st : RepairState) (a : AssistantMessage) (scanned : SpanState) : RepairState :=
  let isMoved := !scanned.spanResultsById.isEmpty && !scanned.remainder.isEmpty
  { enterTurn st a scanned with
    moved := (enterTurn st a scanned).moved || isMoved
    changed := (enterTurn st a scanned).changed || isMoved }

theorem repairTurn_ok (now : Nat → Number) (policy : ErroredAssistantResultPolicy)
    (hok : isErroredTurn a = false) :
    let scanned := scanSpan (extractToolCallsFromAssistant a) st.seenToolResultIds span
    repairTurn now policy st a (extractToolCallsFromAssistant a) span =
      (pushResults now scanned.spanResultsById (enterOkTurn st a scanned)
        (extractToolCallsFromAssistant a)).pushAll scanned.remainder := by
  simp [repairTurn, hok, enterOkTurn, enterTurn, RepairState.push]

theorem repairTurn_pushes (now : Nat → Number) (policy : ErroredAssistantResultPolicy)
    (st : RepairState) (a : AssistantMessage) (span : List Message) :
    let st' := repairTurn now policy st a (extractToolCallsFromAssistant a) span
    ∃ rs, Pushes (turnGives now policy a st.seenToolResultIds span) st.seenToolResultIds
        (extractToolCallsFromAssistant a) rs st'.seenToolResultIds ∧
      st'.out = st.out ++ .assistant a :: (rs.map .toolResult ++ span.filter notToolResult) := by
  intro st'
  let scanned := scanSpan (extractToolCallsFromAssistant a) st.seenToolResultIds span
  have hkeyed : Keyed scanned.spanResultsById := scanSpan_keyed
  have hrem : scanned.remainder = span.filter notToolResult := scanSpan_remainder span
  -- what every kind of turn does before and after its results
  have hturn {st₁ st₂ : RepairState} {rs : List ToolResultMessage}
      (hst' : st' = st₂.pushAll scanned.remainder) (hentered : st₁.out = st.out ++ [.assistant a])
      (hout : st₂.out = st₁.out ++ rs.map .toolResult) :
      st'.out = st.out ++ .assistant a :: (rs.map .toolResult ++ span.filter notToolResult) := by
    rw [hst']
    simp [RepairState.pushAll, hout, hentered, hrem]
  cases herr : isErroredTurn a with
  | true =>
    cases policy with
    | preserve =>
      have hgives (call r) : turnGives now .preserve a st.seenToolResultIds span call r ↔
          scanned.spanResultsById.lookup call.id = some r := by
        simp [turnGives, herr, scanned]
      have hst' : st' = (pushRetained scanned.spanResultsById (enterTurn st a scanned)
          (extractToolCallsFromAssistant a)).pushAll scanned.remainder := by
        simp [st', repairTurn, herr, enterTurn, scanned, RepairState.push]
      obtain ⟨rs, hrs, hout⟩ := pushRetained_pushes hkeyed hgives
        (extractToolCallsFromAssistant a) (enterTurn st a scanned)
      refine ⟨rs, ?_, hturn hst' rfl hout⟩
      rw [hst']
      exact hrs
    | drop =>
      let dropped := { enterTurn st a scanned with
        changed := (enterTurn st a scanned).changed || !scanned.spanResultsById.isEmpty }
      have hst' : st' = dropped.pushAll scanned.remainder := by
        simp [st', repairTurn, herr, enterTurn, scanned, dropped, RepairState.push]
      refine ⟨[], ?_, hturn hst' (show dropped.out = _ from rfl) (by simp)⟩
      rw [hst']
      exact pushes_none (fun call r hr => by simp [turnGives, herr] at hr) _ _
  | false =>
    have hgives (call r) : turnGives now policy a st.seenToolResultIds span call r ↔
        scanned.spanResultsById.lookup call.id = some r ∨ scanned.spanResultsById.lookup call.id = none ∧
          ∃ t, r = makeMissingToolResult (now t) call.id call.name := by
      simp [turnGives, herr, scanned]
    have hst' : st' = (pushResults now scanned.spanResultsById (enterOkTurn st a scanned)
        (extractToolCallsFromAssistant a)).pushAll scanned.remainder := repairTurn_ok now policy herr
    obtain ⟨rs, hrs, hout⟩ := pushResults_pushes now hkeyed hgives (extractToolCallsFromAssistant a)
      (fun call hcall => callId_ne (List.mem_map_of_mem hcall)) (enterOkTurn st a scanned)
    refine ⟨rs, ?_, hturn hst' rfl hout⟩
    rw [hst']
    exact hrs

/-- A turn puts out its assistant message, the results for its calls and then the rest. -/
theorem repairGroup_pushes (now : Nat → Number) (policy : ErroredAssistantResultPolicy)
    (st : RepairState) (a : AssistantMessage) (span : List Message) :
    let st' := repairGroup now policy st (.assistant a, span)
    ∃ rs, Pushes (turnGives now policy a st.seenToolResultIds span) st.seenToolResultIds
        (extractToolCallsFromAssistant a) rs st'.seenToolResultIds ∧
      st'.out = st.out ++ .assistant a :: (rs.map .toolResult ++ span.filter notToolResult) := by
  intro st'
  simp only [st', repairGroup]
  by_cases hcalls : (extractToolCallsFromAssistant a).isEmpty
  · rw [if_pos hcalls, List.isEmpty_iff.mp hcalls]
    have h := repairLoose_step span (st.push (.assistant a))
    rw [h.seen, h.out]
    exact ⟨[], .nil, by simp [RepairState.push]⟩
  · rw [if_neg hcalls]
    exact repairTurn_pushes now policy st a span

end

-- ---
-- A turn met again
-- ---

section
variable {now now' : Nat → Number} {policy : ErroredAssistantResultPolicy} {a : AssistantMessage}
  {seen seen' seen'' : List String} {span : List Message} {rs rs' : List ToolResultMessage}

theorem resultsFor_turn {id : String} (rs : List ToolResultMessage) (span : List Message) :
    resultsFor id (rs.map .toolResult ++ span.filter notToolResult) =
      rs.filter (extractToolResultId · = some id) := by
  have hrest : resultsFor id (span.filter notToolResult) = [] :=
    List.filterMap_eq_nil_iff.mpr fun m hm => by
      cases m with
      | toolResult r => exact absurd hm not_mem_rest
      | assistant b => rfl
      | other v => rfl
  have hresults : resultsFor id (rs.map .toolResult) = rs.filter (extractToolResultId · = some id) := by
    induction rs with
    | nil => rfl
    | cons r rs ih =>
      rw [List.filter_cons, ← ih]
      by_cases hid : extractToolResultId r = some id
      · simp [resultsFor, Message.resultFor?, hid]
      · simp [resultsFor, Message.resultFor?, hid]
  rw [resultsFor, List.filterMap_append]
  exact (congrArg₂ _ hresults hrest).trans (List.append_nil _)

/-- The result of an id in a turn as the pass leaves it. -/
theorem head?_resultsFor {id : String} (hnodup : (rs.map extractToolResultId).Nodup) :
    (resultsFor id (rs.map .toolResult ++ span.filter notToolResult)).head? = some r ↔
      r ∈ rs ∧ extractToolResultId r = some id := by
  rw [resultsFor_turn, List.head?_filter]
  constructor
  · intro h
    exact ⟨List.mem_of_find?_eq_some h, by simpa using List.find?_some h⟩
  · rintro ⟨hmem, hid⟩
    cases hfind : rs.find? (extractToolResultId · = some id) with
    | none => simpa [hid] using List.find?_eq_none.mp hfind r hmem
    | some r' =>
      have hid' : extractToolResultId r' = some id := by simpa using List.find?_some hfind
      rw [List.inj_on_of_nodup_map hnodup (List.mem_of_find?_eq_some hfind) hmem (hid'.trans hid.symm)]

/-- What the second pass finds in a turn the first pass left. -/
theorem scanSpan_again (span : List Message) (hnodup : (rs.map extractToolResultId).Nodup)
    (hclean : ∀ r ∈ rs, ∀ id, extractToolResultId r = some id →
      (normalizeToolResultName r (toolCallName (extractToolCallsFromAssistant a) id)).1 = r)
    {id : String} (hid : id ∈ a.callIds) (hnew : id ∉ seen) :
    (scanSpan (extractToolCallsFromAssistant a) seen
        (rs.map .toolResult ++ span.filter notToolResult)).spanResultsById.lookup id = some r ↔
      r ∈ rs ∧ extractToolResultId r = some id := by
  have hboth : id ∈ (extractToolCallsFromAssistant a).map (·.id) ∧ id ∉ seen := ⟨hid, hnew⟩
  rw [scanSpan_lookup, if_pos hboth, Option.map_eq_some_iff]
  constructor
  · rintro ⟨r', hr', rfl⟩
    obtain ⟨hmem, hid'⟩ := (head?_resultsFor hnodup).mp hr'
    rw [hclean r' hmem id hid']
    exact ⟨hmem, hid'⟩
  · rintro ⟨hmem, hid'⟩
    exact ⟨r, (head?_resultsFor hnodup).mpr ⟨hmem, hid'⟩, hclean r hmem id hid'⟩

/-- With the same ids answered before it, a turn the first pass left is left as it is. -/
theorem turn_again
    (h : Pushes (turnGives now policy a seen span) seen (extractToolCallsFromAssistant a) rs seen')
    (h' : Pushes (turnGives now' policy a seen (rs.map .toolResult ++ span.filter notToolResult)) seen
      (extractToolCallsFromAssistant a) rs' seen'')
    (hclean : ∀ r ∈ rs, ∀ id, extractToolResultId r = some id →
      (normalizeToolResultName r (toolCallName (extractToolCallsFromAssistant a) id)).1 = r) :
    rs' = rs ∧ seen'' = seen' := by
  have hgives := turnGives_byId now policy a seen span
  have hnodup := h.ids_nodup hgives
  -- a result of this turn with the call's id, if the call was given one
  have hnone (call) (hnone : ∀ r, ¬ turnGives now policy a seen span call r) (r) (hr : r ∈ rs) :
      extractToolResultId r ≠ some call.id := by
    intro hid
    obtain ⟨call', hcall', -, -, hr'⟩ := h.first hgives r hr
    have heq : call'.id = call.id :=
      Option.some.inj ((hgives.id call' hcall' r hr').symm.trans hid)
    obtain ⟨r', hr'⟩ := hgives.alike call' call heq ⟨r, hr'⟩
    exact hnone r' hr'
  refine h.replay h' hgives (fun r hr => hr) hnodup (fun call hcall hnew r => ?_)
    (fun call _ _ => hnone call)
  have hagain := scanSpan_again (r := r) span hnodup hclean (List.mem_map_of_mem hcall) hnew
  cases herr : isErroredTurn a with
  | true =>
    simp only [turnGives, herr, if_true]
    refine ⟨fun hr => hagain.mp hr.2, fun hr => ⟨?_, hagain.mpr hr⟩⟩
    obtain ⟨call', -, -, -, hr'⟩ := h.first hgives r hr.1
    simp only [turnGives, herr, if_true] at hr'
    exact hr'.1
  | false =>
    simp only [turnGives, herr, Bool.false_eq_true, if_false]
    obtain ⟨r₀, hr₀, hid₀⟩ := h.has hgives hcall hnew (turnGives_ok herr)
    have hfound := (scanSpan_again span hnodup hclean
      (List.mem_map_of_mem hcall) hnew).mpr ⟨hr₀, hid₀⟩
    refine ⟨fun hr => hagain.mp (hr.resolve_right fun hmissing => ?_), fun hr => .inl (hagain.mpr hr)⟩
    rw [hmissing.1] at hfound
    cases hfound

end

-- ---
-- A run over the turns
-- ---

/-- A run over some turns: the ids answered before and after it, and the turns it puts out. -/
inductive Passes (now : Nat → Number) (policy : ErroredAssistantResultPolicy) :
    List String → List (Message × List Message) → List (Message × List Message) → List String → Prop
  | nil {seen : List String} : Passes now policy seen [] [] seen
  | cons {seen seen' seen'' : List String} {a : AssistantMessage} {span : List Message}
      {rs : List ToolResultMessage} {gs outs : List (Message × List Message)}
      (pushes : Pushes (turnGives now policy a seen span) seen (extractToolCallsFromAssistant a) rs seen')
      (answered : ∀ id, id ∈ seen' ↔ id ∈ seen ∨ answers policy (.assistant a, span) id)
      (rest : Passes now policy seen' gs outs seen'') :
      Passes now policy seen ((.assistant a, span) :: gs)
        ((.assistant a, rs.map .toolResult ++ span.filter notToolResult) :: outs) seen''

theorem foldl_passes (now : Nat → Number) (policy : ErroredAssistantResultPolicy)
    (h : Proper Message.isAssistant gs) (st : RepairState) :
    ∃ outs, Passes now policy st.seenToolResultIds gs outs
        (gs.foldl (repairGroup now policy) st).seenToolResultIds ∧
      (gs.foldl (repairGroup now policy) st).out = st.out ++ flatten outs := by
  induction gs generalizing st with
  | nil => exact ⟨[], .nil, by simp⟩
  | cons g gs ih =>
    obtain ⟨m, span⟩ := g
    cases m with
    | toolResult r => cases (h _ List.mem_cons_self).1
    | other v => cases (h _ List.mem_cons_self).1
    | assistant a =>
      obtain ⟨rs, hrs, hout⟩ := repairGroup_pushes now policy st a span
      obtain ⟨_, hstep⟩ := repairGroup_step now policy st a span
      obtain ⟨outs, houts, hall⟩ := ih (fun x hx => h x (List.mem_cons_of_mem _ hx))
        (repairGroup now policy st (.assistant a, span))
      refine ⟨_, .cons hrs hstep.seen houts, ?_⟩
      rw [List.foldl_cons, hall, hout, flatten_cons]
      simp

/-- The calls of a turn whose synthetic results a second pass would leave alone: the first
with its id, not answered before and without a result in the turn. -/
def NamesClean (answered : String → Prop) (a : AssistantMessage) (span : List Message) : Prop :=
  isErroredTurn a = false → ∀ call,
    (extractToolCallsFromAssistant a).find? (·.id = call.id) = some call → ¬ answered call.id →
    resultsFor call.id span = [] → ∀ name, call.name = some name → CleanName name

section
variable {now now' : Nat → Number} {policy : ErroredAssistantResultPolicy} {a : AssistantMessage}
  {seen seen' seen'' : List String} {span : List Message} {rs : List ToolResultMessage}
  {gs outs outs' : List (Message × List Message)}

/-- The results of a turn have names a second pass leaves alone. -/
theorem NamesClean.results (h : NamesClean (· ∈ seen) a span)
    (hrs : Pushes (turnGives now policy a seen span) seen (extractToolCallsFromAssistant a) rs seen') :
    ∀ r ∈ rs, ∀ id, extractToolResultId r = some id →
      (normalizeToolResultName r (toolCallName (extractToolCallsFromAssistant a) id)).1 = r := by
  intro r hr id hid
  have hgives := turnGives_byId now policy a seen span
  obtain ⟨call, hcall, hfirst, hnew, hr⟩ := hrs.first hgives r hr
  obtain rfl : call.id = id := Option.some.inj ((hgives.id call hcall r hr).symm.trans hid)
  obtain ⟨m, -, rfl⟩ | ⟨hok, hnone, t, rfl⟩ := turnGives_cases hr
  · exact normalizeToolResultName_normalized m _
  · exact normalizeToolResultName_missing.mpr
      (h hok call hfirst hnew (hnone (List.mem_map_of_mem hcall) hnew))

theorem NamesClean.congr {answered answered' : String → Prop} (h : NamesClean answered a span)
    (hiff : ∀ id, answered id ↔ answered' id) : NamesClean answered' a span := by
  obtain rfl : answered = answered' := funext fun id => propext (hiff id)
  exact h

/-- A run over the turns a run has put out changes none of them. -/
theorem Passes.again (h : Passes now policy seen gs outs seen')
    (h' : Passes now' policy seen outs outs' seen'')
    (hnames : ∀ pre a span post, gs = pre ++ (.assistant a, span) :: post →
      NamesClean (fun id => id ∈ seen ∨ ∃ turn ∈ pre, answers policy turn id) a span) :
    outs' = outs := by
  induction h generalizing outs' seen'' with
  | nil =>
    cases h'
    rfl
  | @cons seen seen₁ _ a span rs gs outs hpushes hanswered _ ih =>
    cases h' with
    | cons hpushes' _ hrest' =>
      have hclean : NamesClean (· ∈ seen) a span :=
        (hnames [] a span gs rfl).congr (by simp)
      obtain ⟨rfl, rfl⟩ := turn_again hpushes hpushes' (hclean.results hpushes)
      rw [filter_rest, ih hrest' fun pre b span' post hgs => ?_]
      refine (hnames (_ :: pre) b span' post (by rw [hgs]; rfl)).congr fun id => ?_
      rw [hanswered]
      simp [or_assoc]

/-- A turn answers no more ids in the output than it did in the input. -/
theorem answers_of_output {id : String}
    (h : Pushes (turnGives now policy a seen span) seen (extractToolCallsFromAssistant a) rs seen')
    (hid : answers policy (.assistant a, rs.map .toolResult ++ span.filter notToolResult) id) :
    answers policy (.assistant a, span) id := by
  obtain ⟨hcall, hok | ⟨hpolicy, hne⟩⟩ := hid
  · exact ⟨hcall, .inl hok⟩
  · cases herr : isErroredTurn a with
    | false => exact ⟨hcall, .inl herr⟩
    | true =>
      refine ⟨hcall, .inr ⟨hpolicy, ?_⟩⟩
      obtain ⟨r, hr⟩ := List.exists_mem_of_ne_nil _ hne
      obtain ⟨hmem, hrid⟩ := mem_resultsFor.mp hr
      have hgives := turnGives_byId now policy a seen span
      obtain ⟨call, hcall', -, -, hr'⟩ := h.first hgives r (mem_results_append_rest hmem)
      obtain rfl : call.id = id := Option.some.inj ((hgives.id call hcall' r hr').symm.trans hrid)
      obtain ⟨m, hm, -⟩ | ⟨hok, -⟩ := turnGives_cases hr'
      · exact List.ne_nil_of_mem hm
      · rw [herr] at hok
        cases hok

/-- One turn of a run. -/
theorem Passes.split (h : Passes now policy seen (pre ++ (.assistant a, span) :: post) outs seen') :
    ∃ pre' rs post' seen₁ seen₂,
      outs = pre' ++ (.assistant a, rs.map .toolResult ++ span.filter notToolResult) :: post' ∧
      pre'.length = pre.length ∧
      Pushes (turnGives now policy a seen₁ span) seen₁ (extractToolCallsFromAssistant a) rs seen₂ ∧
      (∀ id, id ∈ seen₁ ↔ id ∈ seen ∨ ∃ turn ∈ pre, answers policy turn id) ∧
      ∀ id, (∃ turn ∈ pre', answers policy turn id) → ∃ turn ∈ pre, answers policy turn id := by
  induction pre generalizing seen outs with
  | nil =>
    cases h with
    | cons hpushes _ _ => exact ⟨[], _, _, _, _, rfl, rfl, hpushes, by simp, by simp⟩
  | cons g pre ih =>
    cases h with
    | cons hpushes hanswered hrest =>
      obtain ⟨pre', rs, post', seen₁, seen₂, rfl, hlen, hpushes', hseen, hout⟩ := ih hrest
      refine ⟨_ :: pre', rs, post', seen₁, seen₂, rfl, by simp [hlen], hpushes', fun id => ?_, ?_⟩
      · rw [hseen, hanswered]
        simp [or_assoc]
      · rintro id ⟨turn, hmem, hid⟩
        rcases List.mem_cons.mp hmem with rfl | hmem
        · exact ⟨_, List.mem_cons_self, answers_of_output hpushes hid⟩
        · obtain ⟨turn', hmem', hid'⟩ := hout id ⟨turn, hmem, hid⟩
          exact ⟨turn', List.mem_cons_of_mem _ hmem', hid'⟩

end

end OpenClaw.Agents
