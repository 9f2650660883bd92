import Mathlib.Data.List.Nodup
import Mathlib.Logic.Function.Basic
import OpenClaw.Agents.Messages
import OpenClaw.Lib.MapState

/-!
# Tool-call id sanitisation

`sanitizeToolCallIdsForCloudCodeAssist` gives every tool call a fresh id in the
provider's alphabet and rewrites the results to match. SHA-256 and the clock
are parameters. A message no id of which changes is returned as it is, so the
rewritten list stands for the input list too.
-/

namespace OpenClaw.Agents

open Js (Json)

inductive ToolCallIdMode
  | strict
  | strict9
  deriving DecidableEq

/-- SHA-256 in hexadecimal, and the clock read for the allocation after `n` others. -/
structure IdSource where
  sha256Hex : String → String
  hexLength : ∀ text, (sha256Hex text).length = 64
  dateNow : Nat → Nat

/-- `text.slice(0, n)` -/
def sliceTo (n : Nat) (text : String) : String := .ofList (text.toList.take n)

def isAlphanumeric (c : Char) : Bool :=
  ('a' ≤ c && c ≤ 'z') || ('A' ≤ c && c ≤ 'Z') || ('0' ≤ c && c ≤ '9')

section
variable (src : IdSource)

def shortHash (text : String) (length : Nat) : String := sliceTo length (src.sha256Hex text)

def sanitizeToolCallId (id : String) (mode : ToolCallIdMode) : String :=
  if id = "" then
    match mode with
    | .strict9 => "defaultid"
    | .strict => "defaulttoolid"
  else
    let alphanumericOnly := String.ofList (id.toList.filter isAlphanumeric)
    match mode with
    | .strict9 =>
      if alphanumericOnly.length ≥ 9 then sliceTo 9 alphanumericOnly
      else if alphanumericOnly.length > 0 then shortHash src alphanumericOnly 9
      else shortHash src "sanitized" 9
    | .strict => if alphanumericOnly.length > 0 then alphanumericOnly else "sanitizedtoolid"

/-- The first of `n` candidates from index `i` on that is not in use. -/
def firstUnused (used : List String) (candidate : Nat → String) (i : Nat) : Nat → Option String
  | 0 => none
  | n + 1 =>
    if candidate i ∉ used then some (candidate i) else firstUnused used candidate (i + 1) n

def strict9Candidate (id : String) (i : Nat) : String :=
  shortHash src (id ++ ":" ++ toString i) 9

def strictCandidate (candidate : String) (i : Nat) : String :=
  let suffix := "x" ++ toString i
  sliceTo (40 - suffix.length) candidate ++ suffix

def makeUniqueToolId (used : List String) (mode : ToolCallIdMode) (id : String) : String :=
  match mode with
  | .strict9 =>
    let base := sanitizeToolCallId src id .strict9
    let candidate := if base.length ≥ 9 then sliceTo 9 base else ""
    if candidate ≠ "" ∧ candidate ∉ used then candidate
    else
      match firstUnused used (strict9Candidate src id) 0 1000 with
      | some hashed => hashed
      | none => shortHash src (id ++ ":" ++ toString (src.dateNow used.length)) 9
  | .strict =>
    let base := sliceTo 40 (sanitizeToolCallId src id .strict)
    if base ∉ used then base
    else
      let hash := shortHash src id 8
      let maxBaseLen := 40 - hash.length
      let clippedBase := if base.length > maxBaseLen then sliceTo maxBaseLen base else base
      let candidate := clippedBase ++ hash
      if candidate ∉ used then candidate
      else
        match firstUnused used (strictCandidate candidate) 2 998 with
        | some next => next
        | none =>
          let ts := "t" ++ toString (src.dateNow used.length)
          sliceTo (40 - ts.length) candidate ++ ts

/-- `createOccurrenceAwareResolver`: its sets and maps. -/
structure Resolver where
  used : List String := []
  assistantOccurrences : String → Nat := fun _ => 0
  orphanToolResultOccurrences : String → Nat := fun _ => 0
  pendingByRawId : String → List String := fun _ => []

variable (mode : ToolCallIdMode)

def allocate (st : Resolver) (seed : String) : String × Resolver :=
  let next := makeUniqueToolId src st.used mode seed
  (next, { st with used := st.used ++ [next] })

def assistantSeed (id : String) (occurrence : Nat) : String :=
  if occurrence = 1 then id else id ++ ":" ++ toString occurrence

def toolResultSeed (id : String) (occurrence : Nat) : String :=
  id ++ ":tool_result:" ++ toString occurrence

def resolveAssistantId (st : Resolver) (id : String) : String × Resolver :=
  let occurrence := st.assistantOccurrences id + 1
  let st := { st with assistantOccurrences := Function.update st.assistantOccurrences id occurrence }
  let (next, st) := allocate src mode st (assistantSeed id occurrence)
  (next, { st with
    pendingByRawId := Function.update st.pendingByRawId id (st.pendingByRawId id ++ [next]) })

def resolveToolResultId (st : Resolver) (id : String) : String × Resolver :=
  match st.pendingByRawId id with
  | next :: pending =>
    (next, { st with pendingByRawId := Function.update st.pendingByRawId id pending })
  | [] =>
    let occurrence := st.orphanToolResultOccurrences id + 1
    let st := { st with
      orphanToolResultOccurrences := Function.update st.orphanToolResultOccurrences id occurrence }
    allocate src mode st (toolResultSeed id occurrence)

def rewriteBlock (st : Resolver) : Block → Block × Resolver
  | .object type id name rest =>
    match nonEmptyString id with
    | some rawId =>
      if isToolCallType type then
        let (nextId, st) := resolveAssistantId src mode st rawId
        (.object type (some (.str nextId)) name rest, st)
      else (.object type id name rest, st)
    | none => (.object type id name rest, st)
  | .other value => (.other value, st)

def rewriteAssistantToolCallIds (st : Resolver) (message : AssistantMessage) :
    AssistantMessage × Resolver :=
  match message.content with
  | none => (message, st)
  | some content =>
    let (next, st) := mapState (rewriteBlock src mode) st content
    ({ message with content := some next }, st)

def resolveOptional (st : Resolver) : Option String → Option String × Resolver
  | none => (none, st)
  | some id =>
    let (next, st) := resolveToolResultId src mode st id
    (some next, st)

/-- `...(nextId && { field: nextId })` -/
def overwriteId (field : Option Json) : Option String → Option Json
  | some next => if next = "" then field else some (.str next)
  | none => field

def rewriteToolResultIds (st : Resolver) (message : ToolResultMessage) :
    ToolResultMessage × Resolver :=
  let toolCallId := nonEmptyString message.toolCallId
  let toolUseId := nonEmptyString message.toolUseId
  let (nextToolCallId, nextToolUseId, st) :=
    if toolCallId.isSome ∧ toolCallId = toolUseId then
      let (shared, st) := resolveOptional src mode st toolCallId
      (shared, shared, st)
    else
      let (nextToolCallId, st) := resolveOptional src mode st toolCallId
      let (nextToolUseId, st) := resolveOptional src mode st toolUseId
      (nextToolCallId, nextToolUseId, st)
  ({ message with
    toolCallId := overwriteId message.toolCallId nextToolCallId
    toolUseId := overwriteId message.toolUseId nextToolUseId }, st)

def rewriteMessage (st : Resolver) : Message → Message × Resolver
  | .assistant message =>
    let (next, st) := rewriteAssistantToolCallIds src mode st message
    (.assistant next, st)
  | .toolResult message =>
    let (next, st) := rewriteToolResultIds src mode st message
    (.toolResult next, st)
  | .other value => (.other value, st)

def sanitizeToolCallIdsForCloudCodeAssist (messages : List Message) : List Message :=
  (mapState (rewriteMessage src mode) {} messages).1

end

end OpenClaw.Agents

/-!
# Encounter order

The resolver queues the rewritten ids of the calls with one raw id, and each
result with that raw id takes the first of the queue.
-/

namespace OpenClaw.Agents

open Js (Json)

-- ---
-- Allocated ids are not empty
-- ---

section
variable {src : IdSource} {mode : ToolCallIdMode}

theorem sliceTo_ne (hs : s ≠ "") (hn : 0 < n) : sliceTo n s ≠ "" := by
  simp only [sliceTo, ne_eq, String.ofList_eq_empty_iff, List.take_eq_nil_iff, not_or]
  exact ⟨Nat.ne_of_gt hn, by simpa using hs⟩

theorem append_ne_left (h : s ≠ "") (t : String) : s ++ t ≠ "" := by
  simp [h]

theorem append_ne_right (s : String) (h : t ≠ "") : s ++ t ≠ "" := by
  simp [h]

theorem shortHash_ne (text : String) (hn : 0 < n) : shortHash src text n ≠ "" := by
  refine sliceTo_ne (fun h => ?_) hn
  have := src.hexLength text
  rw [h] at this
  cases this

theorem firstUnused_spec (h : firstUnused used candidate i n = some next) :
    next ∉ used ∧ ∃ j, next = candidate j := by
  induction n generalizing i with
  | zero => cases h
  | succ n ih =>
    simp only [firstUnused] at h
    split at h
    · rename_i hused
      cases h
      exact ⟨hused, i, rfl⟩
    · exact ih h

theorem sanitizeToolCallId_strict_ne (id : String) : sanitizeToolCallId src id .strict ≠ "" := by
  simp only [sanitizeToolCallId]
  split
  · decide
  · split
    · rename_i h
      intro heq
      rw [heq] at h
      cases h
    · decide

theorem makeUniqueToolId_ne (used : List String) (id : String) :
    makeUniqueToolId src used mode id ≠ "" := by
  cases mode with
  | strict9 =>
    simp only [makeUniqueToolId]
    generalize (if (sanitizeToolCallId src id .strict9).length ≥ 9 then
      sliceTo 9 (sanitizeToolCallId src id .strict9) else "") = candidate
    split
    · rename_i h
      exact h.1
    · split
      · rename_i h
        obtain ⟨-, j, rfl⟩ := firstUnused_spec h
        exact shortHash_ne _ (Nat.succ_pos 8)
      · exact shortHash_ne _ (Nat.succ_pos 8)
  | strict =>
    simp only [makeUniqueToolId]
    generalize (if (sliceTo 40 (sanitizeToolCallId src id .strict)).length >
      40 - (shortHash src id 8).length then _ else _ : String) = clippedBase
    split
    · exact sliceTo_ne (sanitizeToolCallId_strict_ne id) (Nat.succ_pos 39)
    · split
      · exact append_ne_right _ (shortHash_ne _ (Nat.succ_pos 7))
      · split
        · rename_i h
          obtain ⟨-, j, rfl⟩ := firstUnused_spec h
          exact append_ne_right _ (append_ne_left (s := "x") (by decide) _)
        · exact append_ne_right _ (append_ne_left (s := "t") (by decide) _)

-- ---
-- The resolver
-- ---

/-- The rewritten ids of the calls with a raw id, in order. -/
def rewritten (calls : List (String × String)) (rawId : String) : List String :=
  (calls.filter (·.1 = rawId)).map (·.2)

theorem rewritten_append (calls calls' : List (String × String)) (rawId : String) :
    rewritten (calls ++ calls') rawId = rewritten calls rawId ++ rewritten calls' rawId := by
  simp [rewritten]

theorem mem_rewritten {id : String} : id ∈ rewritten calls rawId ↔ (rawId, id) ∈ calls := by
  simp [rewritten]

theorem rewritten_sublist (calls : List (String × String)) (rawId : String) :
    (rewritten calls rawId).Sublist (calls.map (·.2)) :=
  List.filter_sublist.map _

/-- After the calls `calls` (raw and rewritten id) and results that took the
ids `answered`, each queue holds the last of its calls, and nothing taken. -/
structure Encountered (calls : List (String × String)) (answered : List String)
    (st : Resolver) : Prop where
  queue : ∀ rawId, ∃ taken, rewritten calls rawId = taken ++ st.pendingByRawId rawId
  used : (calls.map (·.2)).Sublist st.used
  nonempty : ∀ call ∈ calls, call.2 ≠ ""
  answered_used : ∀ id ∈ answered, id ∈ st.used
  answered_closed : st.used.Nodup → ∀ id ∈ answered, ∀ rawId, id ∉ st.pendingByRawId rawId

theorem Encountered.empty : Encountered [] [] {} where
  queue _ := ⟨[], rfl⟩
  used := .slnil
  nonempty := by simp
  answered_used := by simp
  answered_closed := by simp

namespace Encountered

variable {st : Resolver} (h : Encountered calls answered st)
include h

theorem mem_calls {id : String} (hid : id ∈ st.pendingByRawId rawId) : (rawId, id) ∈ calls := by
  obtain ⟨taken, heq⟩ := h.queue rawId
  exact mem_rewritten.mp (heq ▸ List.mem_append_right _ hid)

theorem mem_used {id : String} (hid : id ∈ st.pendingByRawId rawId) : id ∈ st.used :=
  h.used.subset (List.mem_map_of_mem (h.mem_calls hid))

theorem pending_nodup (hused : st.used.Nodup) : (st.pendingByRawId rawId).Nodup := by
  obtain ⟨taken, heq⟩ := h.queue rawId
  have hnodup := ((rewritten_sublist calls rawId).trans h.used).nodup hused
  rw [heq] at hnodup
  exact (List.nodup_append.mp hnodup).2.1

/-- An id waits in one queue only. -/
theorem rawId_unique {id : String} (hused : st.used.Nodup) (hid : id ∈ st.pendingByRawId rawId)
    (hid' : id ∈ st.pendingByRawId rawId') : rawId = rawId' := by
  have hnodup := h.used.nodup hused
  have hinj := List.inj_on_of_nodup_map hnodup (h.mem_calls hid) (h.mem_calls hid') rfl
  exact congrArg Prod.fst hinj

variable (src mode)

theorem resolveAssistantId (rawId : String) :
    Encountered (calls ++ [(rawId, (resolveAssistantId src mode st rawId).1)]) answered
      (resolveAssistantId src mode st rawId).2 := by
  let next := (Agents.resolveAssistantId src mode st rawId).1
  refine ⟨fun rawId' => ?_, ?_, ?_, ?_, ?_⟩
  · obtain ⟨taken, heq⟩ := h.queue rawId'
    refine ⟨taken, ?_⟩
    rw [rewritten_append, heq, List.append_assoc]
    by_cases hraw : rawId' = rawId
    · subst hraw
      simp [Agents.resolveAssistantId, rewritten, allocate]
    · simp [Agents.resolveAssistantId, rewritten, allocate, hraw, Ne.symm hraw]
  · rw [List.map_append]
    exact h.used.append (List.Sublist.refl _)
  · intro call hcall
    rcases List.mem_append.mp hcall with hcall | hcall
    · exact h.nonempty call hcall
    · obtain rfl := List.mem_singleton.mp hcall
      exact makeUniqueToolId_ne _ _
  · exact fun id hid => List.mem_append_left _ (h.answered_used id hid)
  · intro hused id hid rawId' hpending
    have hsplit : (st.used ++ [next]).Nodup := hused
    obtain ⟨hbefore, -, hnew⟩ := List.nodup_append.mp hsplit
    have hclosed := h.answered_closed hbefore id hid
    by_cases hraw : rawId' = rawId
    · subst hraw
      have hmem : id ∈ st.pendingByRawId rawId' ++ [next] := by
        simpa [Agents.resolveAssistantId, allocate, next] using hpending
      rcases List.mem_append.mp hmem with hmem | hmem
      · exact hclosed _ hmem
      · exact hnew id (h.answered_used id hid) next (List.mem_singleton_self _)
          (List.mem_singleton.mp hmem)
    · have hmem : id ∈ st.pendingByRawId rawId' := by
        simpa [Agents.resolveAssistantId, allocate, hraw] using hpending
      exact hclosed _ hmem

/-- With a call waiting, the result takes the first of the queue. -/
theorem resolveToolResultId (rawId : String) :
    Encountered calls (answered ++ [(resolveToolResultId src mode st rawId).1])
      (resolveToolResultId src mode st rawId).2 := by
  cases hqueue : st.pendingByRawId rawId with
  | nil =>
    let next := (Agents.resolveToolResultId src mode st rawId).1
    have hst : (Agents.resolveToolResultId src mode st rawId).2.used = st.used ++ [next] := by
      simp [Agents.resolveToolResultId, hqueue, allocate, next]
    have hpending : (Agents.resolveToolResultId src mode st rawId).2.pendingByRawId =
        st.pendingByRawId := by
      simp [Agents.resolveToolResultId, hqueue, allocate]
    refine ⟨fun rawId' => ?_, ?_, h.nonempty, ?_, ?_⟩
    · rw [hpending]
      exact h.queue rawId'
    · rw [hst]
      exact h.used.trans (List.sublist_append_left _ _)
    · intro id hid
      rw [hst]
      rcases List.mem_append.mp hid with hid | hid
      · exact List.mem_append_left _ (h.answered_used id hid)
      · exact List.mem_append_right _ hid
    · intro hused id hid rawId' hmem
      rw [hst] at hused
      rw [hpending] at hmem
      obtain ⟨hbefore, -, hnew⟩ := List.nodup_append.mp hused
      rcases List.mem_append.mp hid with hid | hid
      · exact h.answered_closed hbefore id hid rawId' hmem
      · exact hnew id (h.mem_used hmem) next (List.mem_singleton_self _) (List.mem_singleton.mp hid)
  | cons next pending =>
    have hres : Agents.resolveToolResultId src mode st rawId = (next, { st with
        pendingByRawId := Function.update st.pendingByRawId rawId pending }) := by
      simp [Agents.resolveToolResultId, hqueue]
    have hfirst : next ∈ st.pendingByRawId rawId := by simp [hqueue]
    have hsub (rawId' : String) {id : String}
        (hmem : id ∈ Function.update st.pendingByRawId rawId pending rawId') :
        id ∈ st.pendingByRawId rawId' := by
      by_cases hraw : rawId' = rawId
      · subst hraw
        rw [Function.update_self] at hmem
        rw [hqueue]
        exact List.mem_cons_of_mem _ hmem
      · rwa [Function.update_of_ne hraw] at hmem
    rw [hres]
    refine ⟨fun rawId' => ?_, h.used, h.nonempty, fun id hid => ?_, fun hused id hid rawId' hmem => ?_⟩
    · obtain ⟨taken, heq⟩ := h.queue rawId'
      by_cases hraw : rawId' = rawId
      · subst hraw
        exact ⟨taken ++ [next], by simp [heq, hqueue]⟩
      · exact ⟨taken, by simp [heq, hraw]⟩
    · rcases List.mem_append.mp hid with hid | hid
      · exact h.answered_used id hid
      · obtain rfl := List.mem_singleton.mp hid
        exact h.mem_used hfirst
    · rcases List.mem_append.mp hid with hid | hid
      · exact h.answered_closed hused id hid rawId' (hsub rawId' hmem)
      · obtain rfl := List.mem_singleton.mp hid
        -- the id taken waits nowhere else, and once in its own queue
        obtain rfl := h.rawId_unique hused hfirst (hsub rawId' hmem)
        have hnodup : (st.pendingByRawId rawId).Nodup := h.pending_nodup hused
        rw [hqueue] at hnodup
        exact (List.nodup_cons.mp hnodup).1 (by simpa using hmem)

theorem resolveToolResultId_ne (rawId : String) :
    (Agents.resolveToolResultId src mode st rawId).1 ≠ "" := by
  cases hqueue : st.pendingByRawId rawId with
  | nil =>
    simp only [Agents.resolveToolResultId, hqueue]
    exact makeUniqueToolId_ne _ _
  | cons next pending =>
    have hfirst : next ∈ st.pendingByRawId rawId := by simp [hqueue]
    simp only [Agents.resolveToolResultId, hqueue]
    exact h.nonempty _ (h.mem_calls hfirst)

theorem resolveOptional (id : Option String) :
    Encountered calls (answered ++ (resolveOptional src mode st id).1.toList)
      (resolveOptional src mode st id).2 := by
  cases id with
  | none => simpa [Agents.resolveOptional] using h
  | some rawId => exact h.resolveToolResultId src mode rawId

end Encountered

-- ---
-- Queue lengths, and the ids in use
-- ---

variable (src mode)

theorem resolveAssistantId_pending (st : Resolver) (rawId r : String) :
    ((resolveAssistantId src mode st rawId).2.pendingByRawId r).length =
      (st.pendingByRawId r).length + [rawId].count r := by
  by_cases hr : r = rawId
  · subst hr
    simp [resolveAssistantId, allocate]
  · simp [resolveAssistantId, allocate, hr, Ne.symm hr]

theorem resolveToolResultId_pending (st : Resolver) (rawId r : String) :
    ((resolveToolResultId src mode st rawId).2.pendingByRawId r).length =
      (st.pendingByRawId r).length - [rawId].count r := by
  cases hqueue : st.pendingByRawId rawId with
  | nil =>
    by_cases hr : r = rawId
    · subst hr
      simp [resolveToolResultId, allocate, hqueue]
    · simp [resolveToolResultId, allocate, hqueue, Ne.symm hr]
  | cons next pending =>
    by_cases hr : r = rawId
    · subst hr
      simp [resolveToolResultId, hqueue]
    · simp [resolveToolResultId, hqueue, hr, Ne.symm hr]

theorem resolveOptional_pending (st : Resolver) (id : Option String) (r : String) :
    ((resolveOptional src mode st id).2.pendingByRawId r).length =
      (st.pendingByRawId r).length - id.toList.count r := by
  cases id with
  | none => simp [resolveOptional]
  | some rawId => exact resolveToolResultId_pending src mode st rawId r

theorem resolveAssistantId_used (st : Resolver) (rawId : String) :
    st.used <+: (resolveAssistantId src mode st rawId).2.used :=
  List.prefix_append _ _

theorem resolveToolResultId_used (st : Resolver) (rawId : String) :
    st.used <+: (resolveToolResultId src mode st rawId).2.used := by
  cases hqueue : st.pendingByRawId rawId with
  | nil =>
    simp only [resolveToolResultId, hqueue]
    exact List.prefix_append _ _
  | cons next pending =>
    simp only [resolveToolResultId, hqueue]
    exact List.prefix_refl _

theorem resolveOptional_used (st : Resolver) (id : Option String) :
    st.used <+: (resolveOptional src mode st id).2.used := by
  cases id with
  | none => exact List.prefix_refl _
  | some rawId => exact resolveToolResultId_used src mode st rawId

end

end OpenClaw.Agents
