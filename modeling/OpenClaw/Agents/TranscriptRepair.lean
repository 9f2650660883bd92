import OpenClaw.Agents.Messages
import OpenClaw.Lib.Groups

/-!
# Transcript repair

`repairToolUseResultPairing`: moves the tool results of an assistant turn
directly behind it, adds a synthetic result for each call without one, and
drops results that match no call of their turn. The clock is a parameter, read
once for each synthetic result.
-/

namespace OpenClaw.Agents

open Js (Json Number)

def makeMissingToolResult (now : Number) (toolCallId : String) (toolName : Option String) :
    ToolResultMessage where
  toolCallId := some (.str toolCallId)
  toolUseId := none
  toolName := some (.str (toolName.getD "unknown"))
  rest := [
    ("content", .arr [.obj [("type", .str "text"), ("text", .str "[openclaw] missing tool result in session history; inserted synthetic error result for transcript repair.")]]),
    ("isError", .bool true),
    ("timestamp", .num now)]

def trimNonEmptyString (value : Option Json) : Option String :=
  match value.bind Json.str? with
  | some s => if Js.trim s = "" then none else some (Js.trim s)
  | none => none

/-- The message, and whether it is a new object. -/
def normalizeToolResultName (message : ToolResultMessage) (fallbackName : Option String) :
    ToolResultMessage × Bool :=
  match trimNonEmptyString message.toolName with
  | some name =>
    if message.toolName.bind Json.str? = some name then (message, false)
    else ({ message with toolName := some (.str name) }, true)
  | none =>
    match trimNonEmptyString (fallbackName.map .str) with
    | some fallback => ({ message with toolName := some (.str fallback) }, true)
    | none =>
      if (message.toolName.bind Json.str?).isSome then
        ({ message with toolName := some (.str "unknown") }, true)
      else (message, false)

inductive ErroredAssistantResultPolicy
  | preserve
  | drop
  deriving DecidableEq

structure ToolUseRepairReport where
  messages : List Message
  added : List ToolResultMessage
  droppedDuplicateCount : Nat
  droppedOrphanCount : Nat
  moved : Bool

/-- The local variables of the main loop. -/
structure RepairState where
  out : List Message := []
  added : List ToolResultMessage := []
  seenToolResultIds : List String := []
  droppedDuplicateCount : Nat := 0
  droppedOrphanCount : Nat := 0
  moved : Bool := false
  changed : Bool := false

def RepairState.push (st : RepairState) (msg : Message) : RepairState :=
  { st with out := st.out ++ [msg] }

def RepairState.pushAll (st : RepairState) (msgs : List Message) : RepairState :=
  { st with out := st.out ++ msgs }

def pushToolResult (st : RepairState) (msg : ToolResultMessage) : RepairState :=
  match extractToolResultId msg with
  | some id =>
    if id ∈ st.seenToolResultIds then
      { st with droppedDuplicateCount := st.droppedDuplicateCount + 1, changed := true }
    else { st with seenToolResultIds := st.seenToolResultIds ++ [id] }.push (.toolResult msg)
  | none => st.push (.toolResult msg)

/-- The local variables of the look-ahead over one turn's span. -/
structure SpanState where
  spanResultsById : List (String × ToolResultMessage) := []
  remainder : List Message := []
  droppedDuplicateCount : Nat := 0
  droppedOrphanCount : Nat := 0
  changed : Bool := false

/-- `toolCallNamesById.get(id)`: the last call with the id gives the name. -/
def toolCallName (toolCalls : List ToolCallLike) (id : String) : Option String :=
  (toolCalls.reverse.find? (·.id = id)).bind (·.name)

def scanNext (toolCalls : List ToolCallLike) (seen : List String) (span : SpanState) :
    Message → SpanState
  | .toolResult toolResult =>
    match extractToolResultId toolResult with
    | some id =>
      if id ∈ toolCalls.map (·.id) then
        if id ∈ seen then
          { span with droppedDuplicateCount := span.droppedDuplicateCount + 1, changed := true }
        else
          let (normalized, isNew) := normalizeToolResultName toolResult (toolCallName toolCalls id)
          { span with
            changed := span.changed || isNew
            spanResultsById :=
              if (span.spanResultsById.lookup id).isSome then span.spanResultsById
              else span.spanResultsById ++ [(id, normalized)] }
      else { span with droppedOrphanCount := span.droppedOrphanCount + 1, changed := true }
    | none => { span with droppedOrphanCount := span.droppedOrphanCount + 1, changed := true }
  | next => { span with remainder := span.remainder ++ [next] }

def scanSpan (toolCalls : List ToolCallLike) (seen : List String) (span : List Message) : SpanState :=
  span.foldl (scanNext toolCalls seen) {}

def isErroredTurn (assistant : AssistantMessage) : Bool :=
  match assistant.stopReason.bind Json.str? with
  | some reason => reason = "error" || reason = "aborted"
  | none => false

/-- An errored turn keeps the real results it has, in the order of its calls. -/
def pushRetained (spanResults : List (String × ToolResultMessage)) (st : RepairState) :
    List ToolCallLike → RepairState
  | [] => st
  | call :: calls =>
    match spanResults.lookup call.id with
    | some result => pushRetained spanResults (pushToolResult st result) calls
    | none => pushRetained spanResults st calls

def pushResults (now : Nat → Number) (spanResults : List (String × ToolResultMessage))
    (st : RepairState) : List ToolCallLike → RepairState
  | [] => st
  | call :: calls =>
    match spanResults.lookup call.id with
    | some existing => pushResults now spanResults (pushToolResult st existing) calls
    | none =>
      let missing := makeMissingToolResult (now st.added.length) call.id call.name
      let st := { st with added := st.added ++ [missing], changed := true }
      pushResults now spanResults (pushToolResult st missing) calls

/-- An assistant message with tool calls, and the messages up to the next
assistant message. -/
def repairTurn (now : Nat → Number) (policy : ErroredAssistantResultPolicy) (st : RepairState)
    (assistant : AssistantMessage) (toolCalls : List ToolCallLike) (span : List Message) :
    RepairState :=
  let scanned := scanSpan toolCalls st.seenToolResultIds span
  let st := { st with
    droppedDuplicateCount := st.droppedDuplicateCount + scanned.droppedDuplicateCount
    droppedOrphanCount := st.droppedOrphanCount + scanned.droppedOrphanCount
    changed := st.changed || scanned.changed }
  let st := st.push (.assistant assistant)
  if isErroredTurn assistant then
    let st :=
      if policy ≠ .drop then pushRetained scanned.spanResultsById st toolCalls
      else { st with changed := st.changed || !scanned.spanResultsById.isEmpty }
    st.pushAll scanned.remainder
  else
    let isMoved := !scanned.spanResultsById.isEmpty && !scanned.remainder.isEmpty
    let st := { st with moved := st.moved || isMoved, changed := st.changed || isMoved }
    (pushResults now scanned.spanResultsById st toolCalls).pushAll scanned.remainder

/-- The main loop. `skip` counts the messages the look-ahead has consumed
(`i = j - 1`). -/
def repairFrom (now : Nat → Number) (policy : ErroredAssistantResultPolicy) :
    Nat → RepairState → List Message → RepairState
  | _, st, [] => st
  | skip + 1, st, _ :: rest => repairFrom now policy skip st rest
  | 0, st, .other value :: rest => repairFrom now policy 0 (st.push (.other value)) rest
  | 0, st, .toolResult _ :: rest =>
    repairFrom now policy 0
      { st with droppedOrphanCount := st.droppedOrphanCount + 1, changed := true } rest
  | 0, st, .assistant assistant :: rest =>
    let toolCalls := extractToolCallsFromAssistant assistant
    if toolCalls.isEmpty then repairFrom now policy 0 (st.push (.assistant assistant)) rest
    else
      let span := Groups.lead Message.isAssistant rest
      repairFrom now policy span.length (repairTurn now policy st assistant toolCalls span) rest

/-- Without a policy, results of errored turns are kept. -/
def repairToolUseResultPairing (now : Nat → Number) (messages : List Message)
    (erroredAssistantResultPolicy : Option ErroredAssistantResultPolicy) : ToolUseRepairReport :=
  let st := repairFrom now (erroredAssistantResultPolicy.getD .preserve) 0 {} messages
  let changedOrMoved := st.changed || st.moved
  { messages := if changedOrMoved then st.out else messages
    added := st.added
    droppedDuplicateCount := st.droppedDuplicateCount
    droppedOrphanCount := st.droppedOrphanCount
    moved := changedOrMoved }

end OpenClaw.Agents
