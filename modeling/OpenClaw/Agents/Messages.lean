import OpenClaw.Js.Value

/-!
# Agent messages

The messages of a session transcript, with the fields the transcript passes
read. A field that may be missing or of the wrong type is an optional JSON
value; the fields no pass reads are kept in `rest`.
-/

namespace OpenClaw.Agents

open Js (Json)

/-- An entry of an assistant's content. -/
inductive Block
  | object (type id name : Option Json) (rest : List (String × Json))
  | other (value : Json)

structure AssistantMessage where
  /-- `none` when the content is not an array. -/
  content : Option (List Block)
  stopReason : Option Json
  rest : List (String × Json)

structure ToolResultMessage where
  toolCallId : Option Json
  toolUseId : Option Json
  toolName : Option Json
  rest : List (String × Json)

/-- A list entry by its role. `other` is any other role, and any entry that is
not an object: the passes treat these alike. -/
inductive Message
  | assistant (msg : AssistantMessage)
  | toolResult (msg : ToolResultMessage)
  | other (value : Json)

def Message.isAssistant : Message → Bool
  | .assistant _ => true
  | _ => false

def Message.isToolResult : Message → Bool
  | .toolResult _ => true
  | _ => false

structure ToolCallLike where
  id : String
  name : Option String
  deriving DecidableEq

/-- `typeof value === "string" && value` -/
def nonEmptyString (value : Option Json) : Option String :=
  match value.bind Json.str? with
  | some s => if s = "" then none else some s
  | none => none

def isToolCallType (type : Option Json) : Bool :=
  match type.bind Json.str? with
  | some t => t = "toolCall" || t = "toolUse" || t = "functionCall"
  | none => false

def Block.toolCall? : Block → Option ToolCallLike
  | .object type id name _ =>
    match nonEmptyString id with
    | some id => if isToolCallType type then some { id, name := name.bind Json.str? } else none
    | none => none
  | .other _ => none

def extractToolCallsFromAssistant (msg : AssistantMessage) : List ToolCallLike :=
  (msg.content.getD []).filterMap Block.toolCall?

def extractToolResultId (msg : ToolResultMessage) : Option String :=
  match nonEmptyString msg.toolCallId with
  | some id => some id
  | none => nonEmptyString msg.toolUseId

/-- The ids of an assistant's tool calls, in order. -/
def AssistantMessage.callIds (msg : AssistantMessage) : List String :=
  (extractToolCallsFromAssistant msg).map (·.id)

end OpenClaw.Agents
