import OpenClaw.Agents.ToolCallId.Ownership

/-!
# Results kept by sanitisation and repair

The results of a turn whose raw ids no earlier turn left open keep their calls
through both passes.
-/

namespace OpenClaw.Agents

open Js (Json Number)
open Groups

section
variable (src : IdSource) (mode : ToolCallIdMode)

/-- Every id the resolver hands out as new. -/
def allocatedIds (src : IdSource) (mode : ToolCallIdMode) (messages : List Message) : List String :=
  (mapState (rewriteMessage src mode) {} messages).2.used

/-- The rewritten transcript, split where the input is. -/
theorem sanitize_split (before after : List Message) (m : Message) :
    ∃ before' m' after' st, sanitizeToolCallIdsForCloudCodeAssist src mode (before ++ m :: after) =
        before' ++ m' :: after' ∧
      before'.length = before.length ∧ after'.length = after.length ∧
      Sanitized (before.zip before') st ∧ m' = (rewriteMessage src mode st m).1 ∧
      (rewriteMessage src mode st m).2.used <+: allocatedIds src mode (before ++ m :: after) := by
  let st := (mapState (rewriteMessage src mode) {} before).2
  have hst : Sanitized (before.zip (mapState (rewriteMessage src mode) {} before).1) st := by
    simpa using Sanitized.empty.run src mode before
  refine ⟨_, _, (mapState (rewriteMessage src mode) (rewriteMessage src mode st m).2 after).1, st,
    ?_, ?_, ?_, hst, rfl, ?_⟩
  · rw [sanitizeToolCallIdsForCloudCodeAssist, mapState.append, mapState.cons]
  · exact mapState.length _ _
  · exact mapState.length _ _
  · rw [allocatedIds, mapState.append, mapState.cons]
    exact mapState_used src mode (hst.step src mode m) after

/-- A result takes the rewritten id of the first call with its raw id that is
still open. -/
theorem encounter_order (before after : List Message) (m : ToolResultMessage)
    (hid : extractToolResultId m = some rawId) (hopen : 0 < openCalls rawId before) :
    ∃ before' m' after',
      sanitizeToolCallIdsForCloudCodeAssist src mode (before ++ .toolResult m :: after) =
        before' ++ .toolResult m' :: after' ∧
      before'.length = before.length ∧
      extractToolResultId m' = (rewritten (callPairs (before.zip before')) rawId)[
        (rewritten (callPairs (before.zip before')) rawId).length - openCalls rawId before]? := by
  obtain ⟨before', m', after', st, hout, hlen, -, hst, rfl, -⟩ :=
    sanitize_split src mode before after (.toolResult m)
  refine ⟨before', (rewriteToolResultIds src mode st m).1, after', hout, hlen, ?_⟩
  obtain ⟨answered, henc, -⟩ := hst.encountered
  obtain ⟨-, hresolved, -, -⟩ := rewriteToolResult_spec src mode henc m
  obtain ⟨taken, heq⟩ := henc.queue rawId
  have hcount := hst.openCalls rawId
  rw [List.map_fst_zip (Nat.le_of_eq hlen.symm)] at hcount
  rw [hresolved rawId hid, heq, List.length_append, ← hcount, Nat.add_sub_cancel]
  cases hqueue : st.pendingByRawId rawId with
  | nil =>
    rw [hqueue] at hcount
    rw [← hcount] at hopen
    cases hopen
  | cons next pending => simp [resolveToolResultId, hqueue]

/-- Without a call no call opens. -/
theorem openCalls_append_le (before : List Message) (h : ∀ m ∈ mid, m.isAssistant = false) :
    openCalls rawId (before ++ mid) ≤ openCalls rawId before := by
  induction mid using List.reverseRecOn with
  | nil => simp
  | append_singleton mid m ih =>
    obtain ⟨hmid, hm⟩ := List.forall_mem_append.mp h
    have hm := hm m (List.mem_singleton_self m)
    rw [← List.append_assoc, openCalls_append]
    cases m with
    | assistant a => cases hm
    | toolResult r => exact (Nat.sub_le _ _).trans (ih hmid)
    | other v => exact ih hmid

theorem callPairs_nil (h : ∀ p ∈ done, p.1.isAssistant = false) : callPairs done = [] := by
  simp only [callPairs, List.flatMap_eq_nil_iff]
  intro p hp
  obtain ⟨m, m'⟩ := p
  cases m with
  | assistant a => cases h _ hp
  | toolResult r => rfl
  | other v => rfl

theorem rewritten_zip_length (h : ids'.length = (ids : List String).length) (rawId : String) :
    (rewritten (ids.zip ids') rawId).length = ids.count rawId := by
  induction ids generalizing ids' with
  | nil => simp [rewritten]
  | cons id ids ih =>
    cases ids' with
    | nil => cases h
    | cons id' ids' =>
      have ih := ih (Nat.succ.inj h)
      simp only [rewritten, List.length_map] at ih
      by_cases hid : id = rawId <;> simp [rewritten, hid, ih]

theorem SameRole.isAssistant (h : SameRole m m') : m'.isAssistant = m.isAssistant := by
  cases m <;> cases m' <;> first | rfl | cases h

theorem exists_mem_zip {l : List α} {l' : List β} (hlen : l'.length = l.length) (hb : b ∈ l') :
    ∃ a ∈ l, (a, b) ∈ l.zip l' := by
  induction l generalizing l' with
  | nil =>
    obtain rfl := List.length_eq_zero_iff.mp hlen
    cases hb
  | cons a l ih =>
    cases l' with
    | nil => cases hb
    | cons b' l' =>
      rcases List.mem_cons.mp hb with rfl | hb
      · exact ⟨a, List.mem_cons_self, List.mem_cons_self⟩
      · obtain ⟨a', ha', hzip⟩ := ih (Nat.succ.inj hlen) hb
        exact ⟨a', List.mem_cons_of_mem _ ha', List.mem_cons_of_mem _ hzip⟩

theorem normalizeToolResultName_rest (m : ToolResultMessage) (name : Option String) :
    (normalizeToolResultName m name).1.rest = m.rest := by
  unfold normalizeToolResultName
  repeat' split
  all_goals rfl

/-- The state of the resolver within a turn. -/
theorem sanitize_turn (before mid after : List Message) (a : AssistantMessage)
    (m : ToolResultMessage) :
    ∃ before' a' mid' m' after' st, sanitizeToolCallIdsForCloudCodeAssist src mode
        (before ++ .assistant a :: (mid ++ .toolResult m :: after)) =
        before' ++ .assistant a' :: (mid' ++ .toolResult m' :: after') ∧
      before'.length = before.length ∧ mid'.length = mid.length ∧
      Sanitized (before.zip before' ++ (.assistant a, .assistant a') :: mid.zip mid') st ∧
      m' = (rewriteToolResultIds src mode st m).1 ∧
      st.used <+: allocatedIds src mode
        (before ++ .assistant a :: (mid ++ .toolResult m :: after)) := by
  let st₁ := (mapState (rewriteMessage src mode) {} before).2
  have h₁ : Sanitized (before.zip (mapState (rewriteMessage src mode) {} before).1) st₁ := by
    simpa using Sanitized.empty.run src mode before
  let st₂ := (rewriteMessage src mode st₁ (.assistant a)).2
  have h₂ := h₁.step src mode (.assistant a)
  let st₃ := (mapState (rewriteMessage src mode) st₂ mid).2
  have h₃ := h₂.run src mode mid
  refine ⟨(mapState (rewriteMessage src mode) {} before).1,
    (rewriteAssistantToolCallIds src mode st₁ a).1, (mapState (rewriteMessage src mode) st₂ mid).1,
    (rewriteToolResultIds src mode st₃ m).1,
    (mapState (rewriteMessage src mode) (rewriteMessage src mode st₃ (.toolResult m)).2 after).1,
    st₃, ?_, mapState.length _ _, mapState.length _ _, ?_, rfl, ?_⟩
  · rw [sanitizeToolCallIdsForCloudCodeAssist, mapState.append, mapState.cons, mapState.append,
      mapState.cons]
    rfl
  · rw [List.append_assoc, List.singleton_append] at h₃
    exact h₃
  · rw [allocatedIds, mapState.append, mapState.cons, mapState.append, mapState.cons]
    exact (rewriteMessage_used src mode h₃ _).trans (mapState_used src mode (h₃.step src mode _) after)

theorem callPairs_turn (before : List (Message × Message)) {mid : List Message}
    (hmid : ∀ x ∈ mid, x.isAssistant = false) (mid' : List Message) :
    callPairs (before ++ (.assistant a, .assistant a') :: mid.zip mid') =
      callPairs before ++ a.callIds.zip a'.callIds := by
  have hnil : callPairs (mid.zip mid') = [] :=
    callPairs_nil fun p hp => hmid _ (List.of_mem_zip hp).1
  rw [← List.singleton_append, callPairs_append, callPairs_append, hnil, List.append_nil]
  simp [callPairs]

/-- A queue that is no longer than the calls of the last turn holds these only. -/
theorem queue_in_turn {id : String} (henc : Encountered (calls ++ turnCalls) answered st)
    (hlen : (st.pendingByRawId rawId).length ≤ (rewritten turnCalls rawId).length)
    (hid : id ∈ st.pendingByRawId rawId) : (rawId, id) ∈ turnCalls := by
  obtain ⟨taken, heq⟩ := henc.queue rawId
  rw [rewritten_append] at heq
  have hsuffix := List.suffix_of_suffix_length_le ⟨taken, heq.symm⟩ (List.suffix_append _ _) hlen
  exact mem_rewritten.mp (hsuffix.subset hid)

/-- The first result for an id that still waits when it comes. -/
theorem resultsFor_first {id : String} {mid' : List Message} {answered : List String}
    (hanswered : ∀ m', .toolResult m' ∈ mid' →
      ∀ i, extractToolResultId m' = some i → i ∈ answered) (hid : id ∉ answered) (hm : extractToolResultId m = some id) (after : List Message) :
    (resultsFor id (mid' ++ .toolResult m :: after)).head? = some m := by
  have hnil : resultsFor id mid' = [] := by
    refine List.eq_nil_iff_forall_not_mem.mpr fun r hr => ?_
    obtain ⟨hmem, heq⟩ := mem_resultsFor.mp hr
    exact hid (hanswered r hmem id heq)
  simp only [resultsFor] at hnil
  simp [resultsFor, List.filterMap_append, hnil, Message.resultFor?, hm]

theorem countP_sameRole {l l' : List Message} (hlen : l'.length = l.length)
    (h : ∀ p ∈ l.zip l', SameRole p.1 p.2) :
    l'.countP Message.isAssistant = l.countP Message.isAssistant := by
  induction l generalizing l' with
  | nil => rw [List.length_eq_zero_iff.mp hlen]
  | cons m l ih =>
    cases l' with
    | nil => cases hlen
    | cons m' l' =>
      obtain ⟨hm, hl⟩ := List.forall_mem_cons.mp h
      rw [List.countP_cons, List.countP_cons, ih (Nat.succ.inj hlen) hl, hm.isAssistant]

/-- A real result stays with its own turn: if no earlier turn left a call with
its raw id open, and a call of its turn is still open, the sanitised result has
the rewritten id of that call, and the repaired transcript keeps it there. -/
theorem sanitized_result_kept (now : Nat → Number) (policy? : Option ErroredAssistantResultPolicy)
    {before mid after : List Message}
    (hfresh : (allocatedIds src mode
      (before ++ .assistant a :: (mid ++ .toolResult m :: after))).Nodup)
    (hmid : ∀ x ∈ mid, x.isAssistant = false) (hid : extractToolResultId m = some rawId)
    (hearlier : openCalls rawId before = 0)
    (hopen : 0 < openCalls rawId (before ++ .assistant a :: mid))
    (hpolicy : isErroredTurn a = true → policy? ≠ some .drop) :
    ∃ before' a' mid' m' after' id, sanitizeToolCallIdsForCloudCodeAssist src mode
        (before ++ .assistant a :: (mid ++ .toolResult m :: after)) =
        before' ++ .assistant a' :: (mid' ++ .toolResult m' :: after') ∧
      before'.length = before.length ∧ mid'.length = mid.length ∧
      (rawId, id) ∈ a.callIds.zip a'.callIds ∧ extractToolResultId m' = some id ∧
      ∃ pre span post, turns (repairToolUseResultPairing now
          (before' ++ .assistant a' :: (mid' ++ .toolResult m' :: after')) policy?).messages =
          pre ++ (.assistant a', span) :: post ∧
        pre.length = before.countP Message.isAssistant ∧
        ∃ r, .toolResult r ∈ span ∧ extractToolResultId r = some id ∧ r.rest = m.rest := by
  obtain ⟨before', a', mid', m', after', st, hout, hbefore, hmidLen, hst, rfl, hused⟩ :=
    sanitize_turn src mode before mid after a m
  have hnodup : st.used.Nodup := hused.sublist.nodup hfresh
  obtain ⟨answered, henc, hanswered⟩ := hst.encountered
  rw [callPairs_turn _ hmid] at henc
  obtain ⟨hlenIds, hstop⟩ : SameRole (.assistant a) (.assistant a') :=
    hst.sameRole (.assistant a, .assistant a') (by simp)
  -- the queue of the raw id holds calls of this turn only
  have hqueueLen := hst.openCalls rawId
  rw [List.map_append, List.map_cons, List.map_fst_zip (Nat.le_of_eq hbefore.symm),
    List.map_fst_zip (Nat.le_of_eq hmidLen.symm)] at hqueueLen
  have hturnLen : (st.pendingByRawId rawId).length ≤
      (rewritten (a.callIds.zip a'.callIds) rawId).length := by
    rw [hqueueLen, rewritten_zip_length hlenIds, ← List.singleton_append, ← List.append_assoc]
    refine (openCalls_append_le _ hmid).trans ?_
    simp [openCalls_append, hearlier]
  obtain ⟨id, queue, hqueue⟩ : ∃ id queue, st.pendingByRawId rawId = id :: queue := by
    refine List.exists_cons_of_length_pos ?_
    rw [hqueueLen]
    exact hopen
  have hwaits : id ∈ st.pendingByRawId rawId := by simp [hqueue]
  have hpair : (rawId, id) ∈ a.callIds.zip a'.callIds := queue_in_turn henc hturnLen hwaits
  have hcall : id ∈ a'.callIds := (List.of_mem_zip hpair).2
  obtain ⟨-, hresolved, -, -⟩ := rewriteToolResult_spec src mode henc m
  have hresult : extractToolResultId (rewriteToolResultIds src mode st m).1 = some id := by
    rw [hresolved rawId hid]
    simp [resolveToolResultId, hqueue]
  refine ⟨before', a', mid', _, after', id, hout, hbefore, hmidLen, hpair, hresult, ?_⟩
  -- the turn in the sanitised transcript
  have hmid' : ∀ x ∈ mid', x.isAssistant = false := fun x hx => by
    obtain ⟨y, hy, hzip⟩ := exists_mem_zip hmidLen hx
    have hrole := hst.sameRole (y, x) (List.mem_append_right _ (List.mem_cons_of_mem _ hzip))
    rw [hrole.isAssistant, hmid y hy]
  have hturns : turns (before' ++ .assistant a' ::
      (mid' ++ .toolResult (rewriteToolResultIds src mode st m).1 :: after')) =
      turns before' ++ (.assistant a', mid' ++ .toolResult (rewriteToolResultIds src mode st m).1 ::
        lead Message.isAssistant after') :: turns after' := by
    rw [turns, groups_append_head rfl, lead_append_of_forall hmid', groups_append_of_forall hmid']
    rfl
  have hnew : ∀ turn ∈ turns before', ¬ answers (policy?.getD .preserve) turn id := by
    intro turn hturn hans
    have hmem := head_mem_of_mem_groups hturn
    obtain ⟨head, body⟩ := turn
    cases head with
    | toolResult r => cases hans
    | other v => cases hans
    | assistant b' =>
      -- an earlier call with this id would be one of two allocated alike
      obtain ⟨y, hy, hzip⟩ := exists_mem_zip hbefore hmem
      have hrole := hst.sameRole (y, .assistant b') (List.mem_append_left _ hzip)
      cases y with
      | toolResult r => cases hrole
      | other v => cases hrole
      | assistant b =>
        obtain ⟨rawId', -, hzipId⟩ := exists_mem_zip hrole.1 hans.1
        have hearlierPair : (rawId', id) ∈ callPairs (before.zip before') :=
          List.mem_flatMap.mpr ⟨_, hzip, hzipId⟩
        have hall := henc.used.nodup hnodup
        rw [List.map_append] at hall
        exact (List.nodup_append.mp hall).2.2 id (List.mem_map_of_mem hearlierPair) id
          (List.mem_map_of_mem hpair) rfl
  have hfirst := resultsFor_first (fun m' (hm' : .toolResult m' ∈ mid') i hi => by
      obtain ⟨y, hy, hzip⟩ := exists_mem_zip hmidLen hm'
      have hmem := List.mem_append_right (before.zip before')
        (List.mem_cons_of_mem (.assistant a, .assistant a') hzip)
      have hrole := hst.sameRole _ hmem
      cases y with
      | assistant b => cases hrole
      | other v => cases hrole
      | toolResult r => exact hanswered r m' hmem i hi)
    (fun h => henc.answered_closed hnodup id h rawId hwaits) hresult (lead Message.isAssistant after')
  have herr : isErroredTurn a' = isErroredTurn a := by simp only [isErroredTurn, hstop]
  obtain ⟨pre, span, post, hrepaired, hpre, hkept⟩ :=
    repaired_kept now policy? hturns hcall hnew (fun h => hpolicy (herr ▸ h)) hfirst
  refine ⟨pre, span, post, hrepaired, ?_, _, hkept, ?_, ?_⟩
  · rw [hpre, turns, length_groups]
    exact countP_sameRole hbefore fun p hp => hst.sameRole p (List.mem_append_left _ hp)
  · rw [normalizeToolResultName_id, hresult]
  · rw [normalizeToolResultName_rest]
    rfl

/-- Results take rewritten ids in encounter order: each that of the first call
with its raw id still open. A result of a turn whose raw id no earlier turn left
open so keeps a call of its own turn, and survives the repair there. -/
theorem sanitizeThenRepair_keeps (src : IdSource) (mode : ToolCallIdMode) (messages : List Message)
    (now : Nat → Number) (policy? : Option ErroredAssistantResultPolicy)
    (hfresh : (allocatedIds src mode messages).Nodup) :
    let out := sanitizeToolCallIdsForCloudCodeAssist src mode messages
    (∀ before m after rawId, messages = before ++ .toolResult m :: after →
      extractToolResultId m = some rawId → 0 < openCalls rawId before →
      ∃ before' m' after', out = before' ++ .toolResult m' :: after' ∧
        before'.length = before.length ∧
        extractToolResultId m' = (rewritten (callPairs (before.zip before')) rawId)[
          (rewritten (callPairs (before.zip before')) rawId).length - openCalls rawId before]?) ∧
    (∀ before a mid m after rawId,
      messages = before ++ .assistant a :: (mid ++ .toolResult m :: after) →
      (∀ x ∈ mid, x.isAssistant = false) → extractToolResultId m = some rawId →
      openCalls rawId before = 0 → 0 < openCalls rawId (before ++ .assistant a :: mid) →
      (isErroredTurn a = true → policy? ≠ some .drop) →
      ∃ before' a' mid' m' after' id,
        out = before' ++ .assistant a' :: (mid' ++ .toolResult m' :: after') ∧
        before'.length = before.length ∧ mid'.length = mid.length ∧
        (rawId, id) ∈ a.callIds.zip a'.callIds ∧ extractToolResultId m' = some id ∧
        ∃ pre span post, turns (repairToolUseResultPairing now out policy?).messages =
            pre ++ (.assistant a', span) :: post ∧
          pre.length = before.countP Message.isAssistant ∧
          ∃ r, .toolResult r ∈ span ∧ extractToolResultId r = some id ∧ r.rest = m.rest) := by
  intro out
  constructor
  · rintro before m after rawId rfl hid hopen
    exact encounter_order src mode before after m hid hopen
  · rintro before a mid m after rawId rfl hmid hid hearlier hopen hpolicy
    obtain ⟨before', a', mid', m', after', id, hout, hrest⟩ :=
      sanitized_result_kept src mode now policy? hfresh hmid hid hearlier hopen hpolicy
    refine ⟨before', a', mid', m', after', id, hout, ?_⟩
    rw [show out = _ from hout]
    exact hrest

end

-- ---
-- Nearest calls
-- ---

/-- The rewritten id of the last call before index `k` with a raw id. -/
def nearestCall (raw out : List Message) (k : Nat) (rawId : String) : Option String :=
  (rewritten (callPairs ((raw.take k).zip (out.take k))) rawId).getLast?

/-- Each result has the id of the nearest call before it with its raw id. -/
def NearestOwned (raw out : List Message) : Prop :=
  ∀ (k : Nat) m m' rawId id, raw[k]? = some (.toolResult m) → out[k]? = some (.toolResult m') →
    extractToolResultId m = some rawId → nearestCall raw out k rawId = some id →
    extractToolResultId m' = some id

/-- No id of the transcripts below needs a hash. -/
def zeroDigest : IdSource where
  sha256Hex _ := String.ofList (List.replicate 64 '0')
  hexLength _ := by decide
  dateNow _ := 0

def twoReads : AssistantMessage where
  content := some [
    .object (some (.str "toolCall")) (some (.str "call_1")) (some (.str "read")) [],
    .object (some (.str "toolCall")) (some (.str "call_1")) (some (.str "read")) []]
  stopReason := some (.str "toolUse")
  rest := []

/-- Two calls of one turn are answered in order, and a call an earlier turn left
open takes the result of a later one. -/
theorem not_nearestOwned :
    ¬ NearestOwned [.assistant twoReads, .toolResult readResult, .toolResult readResult]
      (sanitizeToolCallIdsForCloudCodeAssist zeroDigest .strict
        [.assistant twoReads, .toolResult readResult, .toolResult readResult]) ∧
    ¬ NearestOwned
      [.assistant (readCall "toolUse"), .assistant (readCall "toolUse"), .toolResult readResult]
      (sanitizeToolCallIdsForCloudCodeAssist zeroDigest .strict
        [.assistant (readCall "toolUse"), .assistant (readCall "toolUse"),
          .toolResult readResult]) := by
  constructor
  · intro h
    have hid := h 1 readResult _ "call_1" "call12" rfl rfl rfl (by decide)
    revert hid
    decide
  · intro h
    have hid := h 2 readResult _ "call_1" "call12" rfl rfl rfl (by decide)
    revert hid
    decide

/-- Two turns with the same raw id, each with its result. -/
def reusedId : List Message :=
  [.assistant (readCall "toolUse"), .toolResult readResult,
    .assistant (readCall "toolUse"), .toolResult readResult]

theorem reusedId_kept :
    ∃ before' a' mid' m' after' id,
      sanitizeToolCallIdsForCloudCodeAssist zeroDigest .strict reusedId =
        before' ++ .assistant a' :: (mid' ++ .toolResult m' :: after') ∧
      before'.length = 2 ∧ mid'.length = 0 ∧
      ("call_1", id) ∈ (readCall "toolUse").callIds.zip a'.callIds ∧
      extractToolResultId m' = some id ∧
      ∃ pre span post, turns (repairToolUseResultPairing (fun _ => .fin 0)
          (sanitizeToolCallIdsForCloudCodeAssist zeroDigest .strict reusedId) none).messages =
          pre ++ (.assistant a', span) :: post ∧
        pre.length = 1 ∧ ∃ r, .toolResult r ∈ span ∧ extractToolResultId r = some id ∧ r.rest = [] :=
  (sanitizeThenRepair_keeps zeroDigest .strict reusedId (fun _ => .fin 0) none (by decide)).2
    [.assistant (readCall "toolUse"), .toolResult readResult] (readCall "toolUse") [] readResult []
    "call_1" rfl (by simp) rfl (by decide) (by decide) (by decide)

end OpenClaw.Agents
