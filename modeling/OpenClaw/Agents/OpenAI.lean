import OpenClaw.Agents.Messages

/-!
# Replaying to OpenAI

A tool call may carry the id of its `function_call` item behind the id of the call,
`call_1|fc_1`. Where no reasoning that can be replayed stands before such a call in
its message, the item id is taken off the call, and off the results directly behind
the message.
-/

namespace OpenClaw.Agents.OpenAI

open Js (Json)

-- ---
-- Signatures
-- ---

structure OpenAIReasoningSignature where
  id : String
  type : String

def stringField (key : String) (candidate : Json) : String :=
  ((candidate.get? key).bind Json.str?).getD ""

def parseCandidate (candidate : Json) : Option OpenAIReasoningSignature :=
  let id := stringField "id" candidate
  let type := stringField "type" candidate
  if !"rs_".toList.isPrefixOf id.toList then none
  else if type = "reasoning" || "reasoning.".toList.isPrefixOf type.toList then some { id, type }
  else none

/-- `parse` is `JSON.parse`. -/
def parseOpenAIReasoningSignature (parse : String → Option Json) :
    Option Json → Option OpenAIReasoningSignature
  | some (.str value) =>
    let trimmed := (Js.trim value).toList
    if trimmed.head? = some '{' && trimmed.getLast? = some '}' then
      (parse (Js.trim value)).bind parseCandidate
    else none
  | some (.obj fields) => parseCandidate (.obj fields)
  | some (.arr items) => parseCandidate (.arr items)
  | _ => none

def isThinkingBlock : Block → Bool
  | .object type _ _ _ => type.bind Json.str? = some "thinking"
  | .other _ => false

/-- Thinking whose signature is that of a reasoning item. -/
def isReplayableReasoning (parse : String → Option Json) : Block → Bool
  | .object type id name rest =>
    isThinkingBlock (.object type id name rest) &&
      (parseOpenAIReasoningSignature parse (rest.lookup "thinkingSignature")).isSome
  | .other _ => false

-- ---
-- Ids
-- ---

structure Pairing where
  callId : String
  itemId : Option String

def splitOpenAIFunctionCallPairing (id : String) : Pairing :=
  let callId := id.toList.takeWhile (· ≠ '|')
  let itemId := id.toList.drop (callId.length + 1)
  -- no separator, or nothing before or behind it
  if callId = [] ∨ itemId = [] then { callId := id, itemId := none }
  else { callId := String.ofList callId, itemId := some (String.ofList itemId) }

/-- The call id of an id whose item id is to be stripped. -/
def strippedId (id : String) : Option String :=
  let pairing := splitOpenAIFunctionCallPairing id
  match pairing.itemId with
  | some itemId => if "fc_".toList.isPrefixOf itemId.toList then some pairing.callId else none
  | none => none

/-- The id of a tool call block, if it is a string. -/
def callId? : Block → Option String
  | .object type id _ _ => if isToolCallType type then id.bind Json.str? else none
  | .other _ => none

def withId (newId : String) : Block → Block
  | .object type _ name rest => .object type (some (.str newId)) name rest
  | .other value => .other value

-- ---
-- The pass
-- ---

/-- The ids rewritten in a message, each with its new id; a later entry replaces an
earlier one. -/
abbrev RewrittenIds := List (String × String)

section
variable (parse : String → Option Json)

/-- The loop over the content of an assistant message. -/
def rewriteContent : Bool → List Block → List Block × RewrittenIds
  | _, [] => ([], [])
  | seenReplayableReasoning, block :: blocks =>
    if isReplayableReasoning parse block then
      let (content, ids) := rewriteContent true blocks
      (block :: content, ids)
    else
      let (content, ids) := rewriteContent seenReplayableReasoning blocks
      match callId? block with
      | none => (block :: content, ids)
      | some id =>
        match strippedId id with
        | none => (block :: content, ids)
        | some newId =>
          if seenReplayableReasoning then (block :: content, ids)
          else (withId newId block :: content, (id, newId) :: ids)

def rewriteField (pending : RewrittenIds) (field : Option Json) : Option Json :=
  match field.bind Json.str? with
  | some id =>
    match pending.lookup id with
    | some newId => some (.str newId)
    | none => field
  | none => field

/-- The loop over the messages. -/
def rewriteMessages : RewrittenIds → List Message → List Message
  | _, [] => []
  | _, .assistant msg :: messages =>
    match msg.content with
    | none => .assistant msg :: rewriteMessages [] messages
    | some content =>
      let (nextContent, localRewrittenIds) := rewriteContent parse false content
      .assistant { msg with content := some nextContent } ::
        rewriteMessages localRewrittenIds messages
  | pending, .toolResult msg :: messages =>
    .toolResult { msg with
      toolCallId := rewriteField pending msg.toolCallId
      toolUseId := rewriteField pending msg.toolUseId } :: rewriteMessages pending messages
  | _, .other value :: messages => .other value :: rewriteMessages [] messages

def downgradeOpenAIFunctionCallReasoningPairs (messages : List Message) : List Message :=
  rewriteMessages parse [] messages

-- ---
-- Reasoning without its item
-- ---

def hasFollowingNonThinkingBlock (following : List Block) : Bool :=
  following.any fun block => !isThinkingBlock block

/-- The loop that drops the reasoning at the end of a message. -/
def dropReasoning : List Block → List Block
  | [] => []
  | block :: blocks =>
    if isReplayableReasoning parse block && !hasFollowingNonThinkingBlock blocks then
      dropReasoning blocks
    else block :: dropReasoning blocks

def downgradeOpenAIReasoningBlocks (messages : List Message) : List Message :=
  messages.filterMap fun
    | .assistant msg =>
      match msg.content with
      | none => some (.assistant msg)
      | some content =>
        let nextContent := dropReasoning parse content
        if nextContent.length = content.length then some (.assistant msg)
        else if nextContent.isEmpty then none
        else some (.assistant { msg with content := some nextContent })
    | msg => some msg

end

end OpenClaw.Agents.OpenAI
