import OpenClaw.Agents.ToolCallInputs
import OpenClaw.Agents.TranscriptRepair
import OpenClaw.Lib.Ledger

/-!
# The tool-result guard of a session

`installSessionToolResultGuard`: `appendMessage` of a session manager keeps the
tool calls that wait for their result, and writes synthetic results for them
before the next message that is no tool result. What was written is the log.
The clock, the hooks and how an oversized text is cut are parameters.
-/

namespace OpenClaw.Agents

open Js (Json Number)

-- ---
-- Pending tool calls
-- ---

/-- The map from ids to tool names, in insertion order. -/
abbrev PendingToolCalls := List (String × Option String)

namespace PendingToolCalls

def getToolName (pending : PendingToolCalls) (id : String) : Option String :=
  (pending.lookup id).join

def delete (pending : PendingToolCalls) (id : String) : PendingToolCalls :=
  pending.filter (·.1 ≠ id)

def set (pending : PendingToolCalls) (call : ToolCallLike) : PendingToolCalls :=
  if pending.any (·.1 = call.id) then
    pending.map fun entry => if entry.1 = call.id then (call.id, call.name) else entry
  else pending ++ [(call.id, call.name)]

def trackToolCalls (pending : PendingToolCalls) (calls : List ToolCallLike) : PendingToolCalls :=
  calls.foldl set pending

def getPendingIds (pending : PendingToolCalls) : List String :=
  pending.map (·.1)

def shouldFlushForSanitizedDrop (pending : PendingToolCalls) : Bool :=
  !pending.isEmpty

def shouldFlushBeforeNonToolResult (pending : PendingToolCalls) (isAssistant : Bool)
    (toolCallCount : Nat) : Bool :=
  !pending.isEmpty && (toolCallCount = 0 || !isAssistant)

def shouldFlushBeforeNewToolCalls (pending : PendingToolCalls) (toolCallCount : Nat) : Bool :=
  !pending.isEmpty && 0 < toolCallCount

end PendingToolCalls

-- ---
-- Options
-- ---

structure ToolResultMeta where
  toolCallId : Option String
  toolName : Option String
  isSynthetic : Bool

structure BeforeWriteResult where
  block : Bool
  message : Option Message

/-- `now n` is the clock read when the log has `n` messages; `cutText` is how the
texts of an oversized tool result are cut. -/
structure GuardOptions where
  now : Nat → Number
  cutText : List Json → List Json
  transformMessageForPersistence : Option (Message → Message)
  transformToolResultForPersistence : Option (Message → ToolResultMeta → Message)
  allowSyntheticToolResults : Bool
  allowedToolNames : Option (List String)
  beforeMessageWriteHook : Option (Message → Option BeforeWriteResult)

/-- The log of the session and the state of the guard. -/
structure GuardedSession where
  log : List Message
  pending : PendingToolCalls

section
variable (opts : GuardOptions)

def capToolResultSize : Message → Message
  | .toolResult msg =>
    .toolResult { msg with rest := msg.rest.map fun (key, value) =>
      match key, value with
      | "content", .arr content => (key, .arr (opts.cutText content))
      | _, _ => (key, value) }
  | msg => msg

def normalizePersistedToolResultName (message : ToolResultMessage) (fallbackName : Option String) :
    Message :=
  .toolResult (normalizeToolResultName message fallbackName).1

def persistMessage (message : Message) : Message :=
  match opts.transformMessageForPersistence with
  | some transformer => transformer message
  | none => message

def persistToolResult (message : Message) (info : ToolResultMeta) : Message :=
  match opts.transformToolResultForPersistence with
  | some transformer => transformer message info
  | none => message

/-- `none` when the message is blocked. -/
def applyBeforeWriteHook (msg : Message) : Option Message :=
  match opts.beforeMessageWriteHook with
  | none => some msg
  | some beforeWrite =>
    match beforeWrite msg with
    | none => some msg
    | some result => if result.block then none else some (result.message.getD msg)

-- ---
-- Appending and flushing
-- ---

def originalAppend (s : GuardedSession) : Option Message → GuardedSession
  | some message => { s with log := s.log ++ [message] }
  | none => s

def flushEntry (s : GuardedSession) (entry : String × Option String) : GuardedSession :=
  let synthetic := makeMissingToolResult (opts.now s.log.length) entry.1 entry.2
  originalAppend s (applyBeforeWriteHook opts
    (persistToolResult opts (persistMessage opts (.toolResult synthetic)) ⟨some entry.1, entry.2, true⟩))

def flushPendingToolResults (s : GuardedSession) : GuardedSession :=
  if s.pending.isEmpty then s
  else
    let flushed := if opts.allowSyntheticToolResults then s.pending.foldl (flushEntry opts) s else s
    { flushed with pending := [] }

def flushIf (condition : Bool) (s : GuardedSession) : GuardedSession :=
  if condition then flushPendingToolResults opts s else s

def appendToolResult (s : GuardedSession) (message : ToolResultMessage) : GuardedSession :=
  let id := extractToolResultId message
  let toolName := id.bind s.pending.getToolName
  let pending := match id with
    | some id => s.pending.delete id
    | none => s.pending
  let capped := capToolResultSize opts
    (persistMessage opts (normalizePersistedToolResultName message toolName))
  originalAppend { s with pending }
    (applyBeforeWriteHook opts (persistToolResult opts capped ⟨id, toolName, false⟩))

/-- The tool calls of an aborted or failed turn may be incomplete and get no
result. -/
def trackedToolCalls : Message → List ToolCallLike
  | .assistant msg => if isErroredTurn msg then [] else extractToolCallsFromAssistant msg
  | .toolResult _ | .other _ => []

def appendOther (s : GuardedSession) (message : Message) : GuardedSession :=
  let toolCalls := trackedToolCalls message
  let s := flushIf opts
    (s.pending.shouldFlushBeforeNonToolResult message.isAssistant toolCalls.length) s
  let s := flushIf opts (s.pending.shouldFlushBeforeNewToolCalls toolCalls.length) s
  match applyBeforeWriteHook opts (persistMessage opts message) with
  | none => s
  | some finalMessage =>
    { originalAppend s (some finalMessage) with pending := s.pending.trackToolCalls toolCalls }

def appendSanitized (s : GuardedSession) : Message → GuardedSession
  | .toolResult msg => appendToolResult opts s msg
  | message => appendOther opts s message

def guardedAppend (s : GuardedSession) : Message → GuardedSession
  | .assistant msg =>
    match sanitizeToolCallInputs [.assistant msg] opts.allowedToolNames with
    | [] => flushIf opts s.pending.shouldFlushForSanitizedDrop s
    | next :: _ => appendSanitized opts s next
  | message => appendSanitized opts s message

inductive GuardOp where
  | append (message : Message)
  | flush

def GuardOp.apply (s : GuardedSession) : GuardOp → GuardedSession
  | .append message => guardedAppend opts s message
  | .flush => flushPendingToolResults opts s

/-- A session that was loaded with `log` and then worked on. -/
def guardedRun (log : List Message) (ops : List GuardOp) : GuardedSession :=
  ops.foldl (GuardOp.apply opts) ⟨log, []⟩

end

end OpenClaw.Agents

/-!
# Every tool call gets its result

The log of a guarded session is answered, and the pending ids are those that
are open in it.
-/

namespace OpenClaw.Agents

open Ledger

variable {opts : GuardOptions} {s : GuardedSession} {log : List Message}

/-- A message as an entry of the ledger: the tool calls that are tracked, or the
call a result is for. -/
def Message.entry : Message → Entry String
  | .toolResult msg => .reply (extractToolResultId msg)
  | msg => .turn ((trackedToolCalls msg).map (·.id))

/-- The hooks drop no message, and leave the role and the ids of a message
alone. -/
structure KeepsEntries (opts : GuardOptions) : Prop where
  message : ∀ f, opts.transformMessageForPersistence = some f → ∀ msg, (f msg).entry = msg.entry
  toolResult : ∀ f, opts.transformToolResultForPersistence = some f →
    ∀ msg info, (f msg info).entry = msg.entry
  write : ∀ f, opts.beforeMessageWriteHook = some f → ∀ msg result, f msg = some result →
    result.block = false ∧ ∀ msg', result.message = some msg' → msg'.entry = msg.entry

theorem persistMessage_entry (h : KeepsEntries opts) (msg : Message) :
    (persistMessage opts msg).entry = msg.entry := by
  simp only [persistMessage]
  split
  · rename_i f hf
    exact h.message f hf msg
  · rfl

theorem persistToolResult_entry (h : KeepsEntries opts) (msg : Message) (info : ToolResultMeta) :
    (persistToolResult opts msg info).entry = msg.entry := by
  simp only [persistToolResult]
  split
  · rename_i f hf
    exact h.toolResult f hf msg info
  · rfl

theorem applyBeforeWriteHook_entry (h : KeepsEntries opts) (msg : Message) :
    ∃ written, applyBeforeWriteHook opts msg = some written ∧ written.entry = msg.entry := by
  simp only [applyBeforeWriteHook]
  split
  · exact ⟨msg, rfl, rfl⟩
  · rename_i f hf
    split
    · exact ⟨msg, rfl, rfl⟩
    · rename_i result hresult
      obtain ⟨hblock, hentry⟩ := h.write f hf msg result hresult
      rw [hblock]
      refine ⟨_, rfl, ?_⟩
      cases hmessage : result.message with
      | none => rfl
      | some msg' => exact hentry msg' hmessage

theorem capToolResultSize_entry (msg : Message) : (capToolResultSize opts msg).entry = msg.entry := by
  cases msg <;> rfl

theorem normalizePersistedToolResultName_entry (msg : ToolResultMessage) (fallbackName : Option String) :
    (normalizePersistedToolResultName msg fallbackName).entry = .reply (extractToolResultId msg) := by
  simp only [normalizePersistedToolResultName, normalizeToolResultName]
  split
  · split <;> rfl
  · split
    · rfl
    · split <;> rfl

theorem makeMissingToolResult_entry {id : String} (now : Js.Number) (name : Option String) (hid : id ≠ "") :
    (Message.toolResult (makeMissingToolResult now id name)).entry = .reply (some id) := by
  simp [Message.entry, makeMissingToolResult, extractToolResultId, nonEmptyString, Js.Json.str?, hid]

-- ---
-- The map of pending calls
-- ---

theorem mem_delete (pending : PendingToolCalls) (id id' : String) :
    id' ∈ (pending.delete id).getPendingIds ↔ id' ∈ pending.getPendingIds ∧ id' ≠ id := by
  simp only [PendingToolCalls.getPendingIds, PendingToolCalls.delete, List.mem_map, List.mem_filter,
    decide_eq_true_eq]
  constructor
  · rintro ⟨entry, ⟨hmem, hne⟩, rfl⟩
    exact ⟨⟨entry, hmem, rfl⟩, hne⟩
  · rintro ⟨⟨entry, hmem, rfl⟩, hne⟩
    exact ⟨entry, ⟨hmem, hne⟩, rfl⟩

theorem mem_set (pending : PendingToolCalls) (call : ToolCallLike) (id : String) :
    id ∈ (pending.set call).getPendingIds ↔ id ∈ pending.getPendingIds ∨ id = call.id := by
  simp only [PendingToolCalls.set, PendingToolCalls.getPendingIds]
  split
  · rename_i hfound
    simp only [List.any_eq_true, decide_eq_true_eq] at hfound
    have hids : (pending.map fun entry => if entry.1 = call.id then (call.id, call.name) else entry).map
        (·.1) = pending.map (·.1) := by
      rw [List.map_map]
      refine List.map_congr_left fun entry _ => ?_
      simp only [Function.comp_apply]
      split
      · exact Eq.symm ‹_›
      · rfl
    rw [hids]
    refine ⟨.inl, ?_⟩
    rintro (hmem | rfl)
    · exact hmem
    · obtain ⟨entry, hentry, hid⟩ := hfound
      exact hid ▸ List.mem_map_of_mem hentry
  · simp

theorem mem_trackToolCalls (pending : PendingToolCalls) (calls : List ToolCallLike) (id : String) :
    id ∈ (pending.trackToolCalls calls).getPendingIds ↔
      id ∈ pending.getPendingIds ∨ id ∈ calls.map (·.id) := by
  induction calls generalizing pending with
  | nil => simp [PendingToolCalls.trackToolCalls]
  | cons call calls ih =>
    rw [PendingToolCalls.trackToolCalls, List.foldl_cons, ← PendingToolCalls.trackToolCalls, ih, mem_set]
    simp [or_assoc]


-- ---
-- The invariant
-- ---

/-- What the guard keeps of the part of the log it wrote. -/
structure Settled (log₀ : List Message) (s : GuardedSession) : Prop where
  named : ∀ id ∈ s.pending.getPendingIds, id ≠ ""
  answered : ∃ log, s.log = log₀ ++ log ∧ Answered (log.map Message.entry) ∧
    ∀ id, id ∈ s.pending.getPendingIds ↔ Open (log.map Message.entry) id

theorem toolCall?_named {block : Block} (h : block.toolCall? = some call) : call.id ≠ "" := by
  cases block with
  | object type id name rest =>
    simp only [Block.toolCall?] at h
    split at h
    · rename_i found hfound
      split at h
      · cases h
        rintro rfl
        simp only [nonEmptyString] at hfound
        split at hfound
        · split at hfound
          · cases hfound
          · cases hfound
            contradiction
        · cases hfound
      · cases h
    · cases h
  | other value => cases h

theorem trackedToolCalls_named (msg : Message) : ∀ id ∈ (trackedToolCalls msg).map (·.id), id ≠ "" := by
  intro id hid
  obtain ⟨call, hcall, rfl⟩ := List.mem_map.mp hid
  cases msg with
  | assistant msg =>
    simp only [trackedToolCalls] at hcall
    split at hcall
    · cases hcall
    · obtain ⟨block, -, hblock⟩ := List.mem_filterMap.mp hcall
      exact toolCall?_named hblock
  | toolResult msg => cases hcall
  | other value => cases hcall

/-- The synthetic results for the pending calls, one after another. -/
theorem flushEntries (h : KeepsEntries opts) (pending : PendingToolCalls)
    (hnamed : ∀ id ∈ pending.getPendingIds, id ≠ "") :
    ∃ written, (pending.foldl (flushEntry opts) s).log = s.log ++ written ∧
      written.map Message.entry = pending.getPendingIds.map fun id => .reply (some id) := by
  induction pending generalizing s with
  | nil => exact ⟨[], by simp, rfl⟩
  | cons entry pending ih =>
    simp only [PendingToolCalls.getPendingIds, List.map_cons, List.forall_mem_cons] at hnamed
    obtain ⟨first, hfirst, hentry⟩ := applyBeforeWriteHook_entry h
      (persistToolResult opts (persistMessage opts
        (.toolResult (makeMissingToolResult (opts.now s.log.length) entry.1 entry.2)))
        ⟨some entry.1, entry.2, true⟩)
    rw [persistToolResult_entry h, persistMessage_entry h,
      makeMissingToolResult_entry _ _ hnamed.1] at hentry
    obtain ⟨written, hlog, hentries⟩ := ih (s := flushEntry opts s entry) hnamed.2
    refine ⟨first :: written, ?_, ?_⟩
    · rw [List.foldl_cons, hlog]
      simp [flushEntry, hfirst, originalAppend]
    · simp [PendingToolCalls.getPendingIds, hentry] at hentries ⊢
      exact hentries

/-- A flush answers what is open. -/
theorem Settled.flush (h : Settled log₀ s) (hopts : KeepsEntries opts)
    (hallow : opts.allowSyntheticToolResults = true) :
    Settled log₀ (flushPendingToolResults opts s) := by
  obtain ⟨log, hlog, hanswered, hopen⟩ := h.answered
  simp only [flushPendingToolResults, hallow, if_true]
  split
  · exact h
  · obtain ⟨written, hwritten, hentries⟩ := flushEntries (s := s) hopts s.pending h.named
    refine ⟨by simp [PendingToolCalls.getPendingIds], log ++ written, ?_, ?_, ?_⟩
    · simp only [hwritten, hlog, List.append_assoc]
    · rw [List.map_append, hentries]
      exact hanswered.replies _
    · intro id
      rw [List.map_append, hentries, open_replies, ← hopen id]
      simp [PendingToolCalls.getPendingIds]

theorem Settled.flushedIf (h : Settled log₀ s) (hopts : KeepsEntries opts)
    (hallow : opts.allowSyntheticToolResults = true) (condition : Bool) :
    Settled log₀ (flushIf opts condition s) := by
  cases condition
  · exact h
  · exact h.flush hopts hallow

theorem originalAppend_pending (message : Option Message) :
    (originalAppend s message).pending = s.pending := by
  cases message <;> rfl

theorem appendToolResult_pending {id : String} :
    id ∈ (appendToolResult opts s msg).pending.getPendingIds ↔
      id ∈ s.pending.getPendingIds ∧ extractToolResultId msg ≠ some id := by
  unfold appendToolResult
  rw [originalAppend_pending]
  cases extractToolResultId msg with
  | none => simp
  | some found => simp [mem_delete, eq_comm]

theorem appendToolResult_log (hopts : KeepsEntries opts) (msg : ToolResultMessage) :
    ∃ written, (appendToolResult opts s msg).log = s.log ++ [written] ∧
      written.entry = .reply (extractToolResultId msg) := by
  simp only [appendToolResult]
  generalize (extractToolResultId msg).bind s.pending.getToolName = toolName
  obtain ⟨written, hwritten, hentry⟩ := applyBeforeWriteHook_entry hopts
    (persistToolResult opts (capToolResultSize opts
      (persistMessage opts (normalizePersistedToolResultName msg toolName)))
      ⟨extractToolResultId msg, toolName, false⟩)
  rw [persistToolResult_entry hopts, capToolResultSize_entry, persistMessage_entry hopts,
    normalizePersistedToolResultName_entry] at hentry
  rw [hwritten]
  exact ⟨written, rfl, hentry⟩

/-- A tool result closes the call it is for. -/
theorem Settled.appendToolResult (h : Settled log₀ s) (hopts : KeepsEntries opts)
    (msg : ToolResultMessage) : Settled log₀ (appendToolResult opts s msg) := by
  obtain ⟨log, hlog, hanswered, hopen⟩ := h.answered
  obtain ⟨written, hwritten, hentry⟩ := appendToolResult_log (s := s) hopts msg
  refine ⟨fun id hid => h.named id (appendToolResult_pending.mp hid).1, log ++ [written], ?_, ?_,
    fun id => ?_⟩
  · rw [hwritten, hlog, List.append_assoc]
  · rw [List.map_append, List.map_singleton, hentry]
    exact hanswered.reply
  · rw [List.map_append, List.map_singleton, hentry, open_reply, ← hopen id]
    exact appendToolResult_pending

theorem flushPendingToolResults_pending : (flushPendingToolResults opts s).pending = [] := by
  simp only [flushPendingToolResults]
  split
  · rename_i hempty
    exact List.isEmpty_iff.mp hempty
  · rfl

theorem flushIf_pending : (flushIf opts (!s.pending.isEmpty) s).pending = [] := by
  cases hempty : s.pending.isEmpty with
  | true => exact List.isEmpty_iff.mp hempty
  | false => exact flushPendingToolResults_pending

/-- Whether the message makes tool calls or not, what is pending is flushed. -/
theorem flushes_pending (opts : GuardOptions) (s : GuardedSession) (isAssistant : Bool) (toolCallCount : Nat) :
    (flushIf opts
      ((flushIf opts (s.pending.shouldFlushBeforeNonToolResult isAssistant toolCallCount)
        s).pending.shouldFlushBeforeNewToolCalls toolCallCount)
      (flushIf opts (s.pending.shouldFlushBeforeNonToolResult isAssistant toolCallCount) s)).pending =
      [] := by
  cases toolCallCount with
  | zero =>
    simp only [PendingToolCalls.shouldFlushBeforeNonToolResult,
      PendingToolCalls.shouldFlushBeforeNewToolCalls, decide_true, Bool.true_or, Bool.and_true,
      flushIf_pending]
    exact flushIf_pending
  | succ count =>
    simp only [PendingToolCalls.shouldFlushBeforeNewToolCalls, Nat.zero_lt_succ, decide_true,
      Bool.and_true]
    exact flushIf_pending

/-- A turn comes when nothing is open, and opens its tool calls. -/
theorem Settled.appendOther (h : Settled log₀ s) (hopts : KeepsEntries opts)
    (hallow : opts.allowSyntheticToolResults = true) (hrole : msg.isToolResult = false) :
    Settled log₀ (appendOther opts s msg) := by
  have hentry : msg.entry = .turn ((trackedToolCalls msg).map (·.id)) := by
    cases msg with
    | toolResult msg => cases hrole
    | assistant msg => rfl
    | other value => rfl
  have hflushed := (h.flushedIf hopts hallow (s.pending.shouldFlushBeforeNonToolResult msg.isAssistant
    (trackedToolCalls msg).length)).flushedIf hopts hallow
    ((flushIf opts (s.pending.shouldFlushBeforeNonToolResult msg.isAssistant
      (trackedToolCalls msg).length) s).pending.shouldFlushBeforeNewToolCalls
      (trackedToolCalls msg).length)
  have hpending := flushes_pending opts s msg.isAssistant (trackedToolCalls msg).length
  simp only [OpenClaw.Agents.appendOther]
  generalize flushIf opts _ (flushIf opts _ s) = flushed at hflushed hpending ⊢
  obtain ⟨log, hlog, hanswered, hopen⟩ := hflushed.answered
  obtain ⟨written, hwritten, hwrittenEntry⟩ := applyBeforeWriteHook_entry hopts (persistMessage opts msg)
  rw [persistMessage_entry hopts, hentry] at hwrittenEntry
  rw [hwritten]
  have hnone (id : String) : ¬ Open (log.map Message.entry) id := by
    rw [← hopen id, hpending]
    exact List.not_mem_nil
  refine ⟨fun id hid => ?_, log ++ [written], ?_, ?_, fun id => ?_⟩
  · rw [hpending, mem_trackToolCalls] at hid
    obtain hid | hid := hid
    · cases hid
    · exact trackedToolCalls_named msg id hid
  · simp [originalAppend, hlog]
  · rw [List.map_append, List.map_singleton, hwrittenEntry]
    exact hanswered.turn hnone
  · rw [List.map_append, List.map_singleton, hwrittenEntry, open_turn, ← hopen id, mem_trackToolCalls]

theorem Settled.appendSanitized (h : Settled log₀ s) (hopts : KeepsEntries opts)
    (hallow : opts.allowSyntheticToolResults = true) (msg : Message) :
    Settled log₀ (appendSanitized opts s msg) := by
  cases msg with
  | toolResult msg => exact h.appendToolResult hopts msg
  | assistant msg => exact h.appendOther hopts hallow rfl
  | other value => exact h.appendOther hopts hallow rfl

theorem Settled.apply (h : Settled log₀ s) (hopts : KeepsEntries opts)
    (hallow : opts.allowSyntheticToolResults = true) (op : GuardOp) :
    Settled log₀ (op.apply opts s) := by
  cases op with
  | flush => exact h.flush hopts hallow
  | append msg =>
    cases msg with
    | assistant msg =>
      simp only [GuardOp.apply, guardedAppend]
      split
      · exact h.flushedIf hopts hallow _
      · exact h.appendSanitized hopts hallow _
    | toolResult msg => exact h.appendSanitized hopts hallow (.toolResult msg)
    | other value => exact h.appendSanitized hopts hallow (.other value)

/-- In what is written to a guarded session, whatever is appended and flushed,
each tool call that is tracked has its result before the next message that is
no tool result, and the pending ids are those without a result so far. -/
theorem guardedRun_settled (hopts : KeepsEntries opts) (hallow : opts.allowSyntheticToolResults = true)
    (log₀ : List Message) (ops : List GuardOp) :
    ∃ log, (guardedRun opts log₀ ops).log = log₀ ++ log ∧ Answered (log.map Message.entry) ∧
      ∀ id, id ∈ (guardedRun opts log₀ ops).pending.getPendingIds ↔ Open (log.map Message.entry) id := by
  have hrun (s : GuardedSession) (h : Settled log₀ s) : Settled log₀ (ops.foldl (GuardOp.apply opts) s) := by
    induction ops generalizing s with
    | nil => exact h
    | cons op ops ih => exact ih _ (h.apply hopts hallow op)
  refine (hrun ⟨log₀, []⟩ ⟨by simp [PendingToolCalls.getPendingIds], [], by simp, answered_nil, ?_⟩).answered
  intro id
  simp [PendingToolCalls.getPendingIds, not_open_nil]

-- ---
-- A turn that is interrupted
-- ---

/-- No hooks, and nothing is cut. -/
def plainOptions : GuardOptions where
  now n := .ofInt n
  cutText content := content
  transformMessageForPersistence := none
  transformToolResultForPersistence := none
  allowSyntheticToolResults := true
  allowedToolNames := none
  beforeMessageWriteHook := none

theorem plainOptions_keepsEntries : KeepsEntries plainOptions :=
  ⟨by simp [plainOptions], by simp [plainOptions], by simp [plainOptions]⟩

def toolCallBlock (id : String) : Block :=
  .object (some (.str "toolCall")) (some (.str id)) (some (.str "read")) [("arguments", .obj [])]

/-- Two tool calls, one result, and then another message. -/
def interruptedOps : List GuardOp := [
  .append (.assistant ⟨some [toolCallBlock "a", toolCallBlock "b"], none, []⟩),
  .append (.toolResult ⟨some (.str "b"), none, none, []⟩),
  .append (.other .null)]

example : ((guardedRun plainOptions [] interruptedOps).log.map Message.entry) =
    [.turn ["a", "b"], .reply (some "b"), .reply (some "a"), .turn []] := by decide

theorem guardedRun_settled_interrupted :
    ∃ log, (guardedRun plainOptions [] interruptedOps).log = [] ++ log ∧
      Answered (log.map Message.entry) ∧
      ∀ id, id ∈ (guardedRun plainOptions [] interruptedOps).pending.getPendingIds ↔
        Open (log.map Message.entry) id :=
  guardedRun_settled plainOptions_keepsEntries rfl [] interruptedOps

end OpenClaw.Agents
