import OpenClaw.Agents.Messages
import OpenClaw.Js.Text

/-!
# Tool-call inputs

`sanitizeToolCallInputs`: drops the tool calls of an assistant message that have
no input, no id or no acceptable name, and the message with its last block.
Names are trimmed, and the attachments of `sessions_spawn` are redacted.
-/

namespace OpenClaw.Agents

open Js (Json)

def TOOL_CALL_NAME_MAX_CHARS : Nat := 64

/-- `/^[A-Za-z0-9_:.-]+$/` -/
def isToolCallNameText (name : String) : Bool :=
  name ≠ "" && name.toList.all fun c =>
    c.isAlphanum || c = '_' || c = ':' || c = '.' || c = '-'

def isRawToolCallBlock : Block → Bool
  | .object type _ _ _ => isToolCallType type
  | .other _ => false

/-- `block[key] !== undefined && block[key] !== null` -/
def isPresent (key : String) (rest : List (String × Json)) : Bool :=
  match rest.lookup key with
  | some .null | none => false
  | some _ => true

def hasToolCallInput (rest : List (String × Json)) : Bool :=
  isPresent "input" rest || isPresent "arguments" rest

def hasNonEmptyStringField (value : Option Json) : Bool :=
  (value.bind Json.str?).any fun s => Js.trim s ≠ ""

def normalizeAllowedToolNames (allowedToolNames : Option (List String)) : Option (List String) :=
  match allowedToolNames with
  | none => none
  | some names =>
    let normalized := (names.filter (Js.trim · ≠ "")).map fun name => Js.toLowerCase (Js.trim name)
    if normalized.isEmpty then none else some normalized

def hasToolCallName (name : Option Json) (allowedToolNames : Option (List String)) : Bool :=
  match name.bind Json.str? with
  | none => false
  | some name =>
    let trimmed := Js.trim name
    if trimmed = "" then false
    else if TOOL_CALL_NAME_MAX_CHARS < trimmed.length || !isToolCallNameText trimmed then false
    else match allowedToolNames with
      | none => true
      | some allowed => allowed.contains (Js.toLowerCase trimmed)

-- ---
-- Redaction
-- ---

def redactAttachment : Json → Json
  | .obj fields =>
    if (fields.lookup "content").isSome then
      .obj (fields.filter (·.1 ≠ "content") ++ [("content", .str "__OPENCLAW_REDACTED__")])
    else .obj fields
  | item => item

def redactSessionsSpawnAttachmentsArgs : Json → Json
  | .obj fields =>
    .obj (fields.map fun (key, value) =>
      match key, value with
      | "attachments", .arr raw => (key, .arr (raw.map redactAttachment))
      | _, _ => (key, value))
  | value => value

def redactArgs (rest : List (String × Json)) : List (String × Json) :=
  rest.map fun (key, value) =>
    if key = "arguments" || key = "input" then (key, redactSessionsSpawnAttachmentsArgs value)
    else (key, value)

/-- A name that is not blank is trimmed. -/
def trimmedName (name : Option Json) : Option Json :=
  match name.bind Json.str? with
  | some s => if Js.trim s = "" then name else some (.str (Js.trim s))
  | none => name

def isSessionsSpawn (name : Option Json) : Bool :=
  (name.bind Json.str?).any fun s => Js.toLowerCase (Js.trim s) = "sessions_spawn"

def sanitizeToolCallBlock (type id name : Option Json) (rest : List (String × Json)) : Block :=
  if isSessionsSpawn name then .object type id (trimmedName name) (redactArgs rest)
  else .object type id (trimmedName name) rest

-- ---
-- Messages
-- ---

structure ToolCallInputRepairReport where
  messages : List Message
  droppedToolCalls : Nat
  droppedAssistantMessages : Nat

/-- `none` is a tool call that is dropped. -/
def repairBlock (allowedToolNames : Option (List String)) : Block → Option Block
  | .object type id name rest =>
    if isToolCallType type then
      if hasToolCallInput rest && hasNonEmptyStringField id && hasToolCallName name allowedToolNames then
        some (sanitizeToolCallBlock type id name rest)
      else none
    else some (.object type id name rest)
  | .other value => some (.other value)

/-- The message, unless it lost its last block, and how many tool calls it lost. -/
def repairMessage (allowedToolNames : Option (List String)) : Message → Option Message × Nat
  | .assistant msg =>
    match msg.content with
    | none => (some (.assistant msg), 0)
    | some content =>
      let nextContent := content.filterMap (repairBlock allowedToolNames)
      let droppedInMessage := content.length - nextContent.length
      if 0 < droppedInMessage && nextContent.isEmpty then (none, droppedInMessage)
      else (some (.assistant { msg with content := some nextContent }), droppedInMessage)
  | msg => (some msg, 0)

def repairToolCallInputs (allowedToolNames : Option (List String)) (messages : List Message) :
    ToolCallInputRepairReport :=
  let repaired := messages.map (repairMessage (normalizeAllowedToolNames allowedToolNames))
  { messages := repaired.filterMap (·.1)
    droppedToolCalls := (repaired.map (·.2)).sum
    droppedAssistantMessages := (repaired.filter (·.1.isNone)).length }

def sanitizeToolCallInputs (messages : List Message) (allowedToolNames : Option (List String)) :
    List Message :=
  (repairToolCallInputs allowedToolNames messages).messages

end OpenClaw.Agents

/-!
# What the repair of tool-call inputs leaves

The tool calls that stay can be used, everything else stays as it was and in its place, what
is counted is what went, and a repaired transcript is repaired already.
-/

namespace OpenClaw.Agents

open Js (Json)

variable {allowed : Option (List String)} {block block' : Block} {message message' : Message}

-- ---
-- Blocks
-- ---

/-- A tool call with an input, an id and a name that is allowed. -/
def IsUsable (allowed : Option (List String)) : Block → Prop
  | .object _ id name rest => hasToolCallInput rest = true ∧ hasNonEmptyStringField id = true ∧
      hasToolCallName name allowed = true
  | .other _ => False

/-- The same block; of a tool call the type and the id, and what is not its name or its
arguments. -/
inductive Kept : Block → Block → Prop
  | same (block : Block) : Kept block block
  | call {type id name name' : Option Json} {rest rest' : List (String × Json)}
      (htype : isToolCallType type = true) (hname : name' = trimmedName name)
      (hrest : rest' = rest ∨ isSessionsSpawn name = true ∧ rest' = redactArgs rest) :
    Kept (.object type id name rest) (.object type id name' rest')

theorem trimmedName_trimmedName (name : Option Json) :
    trimmedName (trimmedName name) = trimmedName name := by
  unfold trimmedName
  cases hname : name.bind Json.str? with
  | none => simp only [hname]
  | some text =>
    by_cases hblank : Js.trim text = ""
    · simp only [hblank, if_true, hname]
    · simp only [hblank, if_false, Option.bind_some, Json.str?, Js.trim_trim]

/-- Trimming does not change what a name is read as. -/
theorem str_trimmedName (name : Option Json) :
    ((trimmedName name).bind Json.str?).map Js.trim = (name.bind Json.str?).map Js.trim := by
  unfold trimmedName
  cases hname : name.bind Json.str? with
  | none => simp only [hname]
  | some text =>
    by_cases hblank : Js.trim text = ""
    · simp only [hblank, if_true, hname]
    · simp only [hblank, if_false, Option.bind_some, Json.str?, Option.map_some, Js.trim_trim]

theorem isSessionsSpawn_trimmedName (name : Option Json) :
    isSessionsSpawn (trimmedName name) = isSessionsSpawn name := by
  have hany : ∀ (p : String → Bool) (value : Option String),
      (value.any fun text => p (Js.trim text)) = (value.map Js.trim).any p := by
    intro p value
    cases value <;> rfl
  unfold isSessionsSpawn
  rw [hany fun text => decide (Js.toLowerCase text = "sessions_spawn"),
    hany fun text => decide (Js.toLowerCase text = "sessions_spawn"), str_trimmedName]

theorem hasToolCallName_trimmedName (name : Option Json) (allowed : Option (List String)) :
    hasToolCallName (trimmedName name) allowed = hasToolCallName name allowed := by
  have hread := str_trimmedName name
  cases hname : name.bind Json.str? with
  | none =>
    rw [hname, Option.map_none, Option.map_eq_none_iff] at hread
    simp only [hasToolCallName, hname, hread]
  | some text =>
    rw [hname, Option.map_some, Option.map_eq_some_iff] at hread
    obtain ⟨text', htext', htrim⟩ := hread
    simp only [hasToolCallName, hname, htext', htrim]

-- ---
-- Redaction
-- ---

/-- The values of an object changed, each by its key. -/
def mapValues (f : String → Json → Json) (fields : List (String × Json)) :
    List (String × Json) :=
  fields.map fun field => (field.1, f field.1 field.2)

theorem lookup_mapValues (f : String → Json → Json) (key : String)
    (fields : List (String × Json)) :
    (mapValues f fields).lookup key = (fields.lookup key).map (f key) := by
  induction fields with
  | nil => rfl
  | cons field fields ih =>
    obtain ⟨first, value⟩ := field
    rw [mapValues, List.map_cons, ← mapValues, List.lookup_cons, List.lookup_cons]
    by_cases hkey : key = first
    · subst hkey
      simp
    · have hbeq : (key == first) = false := by simpa using hkey
      simp only [hbeq, ih]

theorem mapValues_twice {f : String → Json → Json}
    (h : ∀ key value, f key (f key value) = f key value)
    (fields : List (String × Json)) : mapValues f (mapValues f fields) = mapValues f fields := by
  simp only [mapValues, List.map_map]
  refine List.map_congr_left fun field _ => ?_
  simp only [Function.comp_apply, h]

theorem redactAttachment_redactAttachment (item : Json) :
    redactAttachment (redactAttachment item) = redactAttachment item := by
  cases item with
  | obj fields =>
    by_cases hcontent : (fields.lookup "content").isSome = true
    · have hagain : ((fields.filter (·.1 ≠ "content") ++
          [("content", Json.str "__OPENCLAW_REDACTED__")]).lookup "content").isSome = true := by
        rw [List.lookup_isSome_iff]
        exact ⟨_, List.mem_append_right _ (List.mem_singleton_self _), by simp⟩
      simp only [redactAttachment, hcontent, hagain, if_true, List.filter_append, List.filter_filter,
        Bool.and_self]
      simp
    · simp only [redactAttachment, hcontent, Bool.false_eq_true, if_false]
  | null | bool | num | str | arr => rfl

/-- The attachments of a call, each without its content. -/
def redactField (key : String) (value : Json) : Json :=
  match value with
  | .arr raw => if key = "attachments" then .arr (raw.map redactAttachment) else value
  | _ => value

theorem redactSessionsSpawnAttachmentsArgs_obj (fields : List (String × Json)) :
    redactSessionsSpawnAttachmentsArgs (.obj fields) = .obj (mapValues redactField fields) := by
  rw [redactSessionsSpawnAttachmentsArgs, mapValues]
  congr 1
  refine List.map_congr_left ?_
  rintro ⟨key, value⟩ -
  by_cases hkey : key = "attachments"
  · subst hkey
    cases value <;> rfl
  · cases value <;> simp [redactField, hkey]

theorem redactField_twice (key : String) (value : Json) :
    redactField key (redactField key value) = redactField key value := by
  cases value with
  | arr raw =>
    by_cases hkey : key = "attachments"
    · have htwice : redactAttachment ∘ redactAttachment = redactAttachment :=
        funext redactAttachment_redactAttachment
      simp only [redactField, if_pos hkey, List.map_map, htwice]
    · simp only [redactField, if_neg hkey]
  | null | bool | num | str | obj => rfl

theorem redactSessionsSpawnAttachmentsArgs_twice (value : Json) :
    redactSessionsSpawnAttachmentsArgs (redactSessionsSpawnAttachmentsArgs value) =
      redactSessionsSpawnAttachmentsArgs value := by
  cases value with
  | obj fields =>
    rw [redactSessionsSpawnAttachmentsArgs_obj, redactSessionsSpawnAttachmentsArgs_obj,
      mapValues_twice redactField_twice]
  | null | bool | num | str | arr => rfl

/-- The arguments of a call, without the contents of its attachments. -/
def redactArgument (key : String) (value : Json) : Json :=
  if key = "arguments" || key = "input" then redactSessionsSpawnAttachmentsArgs value else value

theorem redactArgs_eq (rest : List (String × Json)) :
    redactArgs rest = mapValues redactArgument rest := by
  rw [redactArgs, mapValues]
  refine List.map_congr_left ?_
  rintro ⟨key, value⟩ -
  by_cases hkey : (key = "arguments" || key = "input") = true
  · simp only [redactArgument, if_pos hkey]
  · simp only [redactArgument, if_neg hkey]

theorem redactArgument_twice (key : String) (value : Json) :
    redactArgument key (redactArgument key value) = redactArgument key value := by
  unfold redactArgument
  split
  · exact redactSessionsSpawnAttachmentsArgs_twice value
  · rfl

theorem redactArgs_redactArgs (rest : List (String × Json)) :
    redactArgs (redactArgs rest) = redactArgs rest := by
  rw [redactArgs_eq, redactArgs_eq, mapValues_twice redactArgument_twice]

def isNonNull : Json → Bool
  | .null => false
  | .bool _ | .num _ | .str _ | .arr _ | .obj _ => true

theorem isPresent_eq (key : String) (rest : List (String × Json)) :
    isPresent key rest = (rest.lookup key).any isNonNull := by
  unfold isPresent
  cases rest.lookup key with
  | none => rfl
  | some value => cases value <;> rfl

/-- Redaction leaves what is there, and no more. -/
theorem hasToolCallInput_redactArgs (rest : List (String × Json)) :
    hasToolCallInput (redactArgs rest) = hasToolCallInput rest := by
  have hnull : ∀ key value, isNonNull (redactArgument key value) = isNonNull value := by
    intro key value
    unfold redactArgument
    split
    · cases value <;> rfl
    · rfl
  have hpresent : ∀ key, isPresent key (redactArgs rest) = isPresent key rest := by
    intro key
    rw [isPresent_eq, isPresent_eq, redactArgs_eq, lookup_mapValues]
    cases rest.lookup key with
    | none => rfl
    | some value => exact hnull key value
  rw [hasToolCallInput, hpresent, hpresent, ← hasToolCallInput]

-- ---
-- Repaired blocks
-- ---

/-- The arguments of a tool call after the repair. -/
def sanitizedRest (name : Option Json) (rest : List (String × Json)) : List (String × Json) :=
  if isSessionsSpawn name then redactArgs rest else rest

theorem sanitizeToolCallBlock_eq (type id name : Option Json) (rest : List (String × Json)) :
    sanitizeToolCallBlock type id name rest =
      .object type id (trimmedName name) (sanitizedRest name rest) := by
  unfold sanitizeToolCallBlock sanitizedRest
  split <;> rfl

theorem sanitizeToolCallBlock_kept {type : Option Json} (htype : isToolCallType type = true)
    (id name : Option Json) (rest : List (String × Json)) :
    Kept (.object type id name rest) (sanitizeToolCallBlock type id name rest) := by
  unfold sanitizeToolCallBlock
  split
  · rename_i hspawn
    exact .call htype rfl (.inr ⟨hspawn, rfl⟩)
  · exact .call htype rfl (.inl rfl)

theorem hasToolCallInput_sanitizedRest (name : Option Json) (rest : List (String × Json)) :
    hasToolCallInput (sanitizedRest name rest) = hasToolCallInput rest := by
  unfold sanitizedRest
  split
  · exact hasToolCallInput_redactArgs rest
  · rfl

theorem sanitizedRest_twice (name : Option Json) (rest : List (String × Json)) :
    sanitizedRest (trimmedName name) (sanitizedRest name rest) = sanitizedRest name rest := by
  unfold sanitizedRest
  rw [isSessionsSpawn_trimmedName]
  split
  · exact redactArgs_redactArgs rest
  · rfl

/-- A block goes just when it is a tool call that can not be used. -/
theorem repairBlock_none_iff :
    repairBlock allowed block = none ↔
      isRawToolCallBlock block = true ∧ ¬ IsUsable allowed block := by
  cases block with
  | other value => simp [repairBlock, isRawToolCallBlock]
  | object type id name rest =>
    by_cases htype : isToolCallType type = true
    · simp only [repairBlock, htype, if_true, isRawToolCallBlock, IsUsable, true_and]
      split
      · rename_i husable
        simp only [Bool.and_eq_true, and_assoc] at husable
        simp [husable]
      · rename_i husable
        simp only [Bool.and_eq_true, and_assoc] at husable
        exact iff_of_true rfl husable
    · simp [repairBlock, htype, isRawToolCallBlock]

/-- What stays of a block is usable if it is a tool call, and is repaired already. -/
theorem repairBlock_some (h : repairBlock allowed block = some block') :
    Kept block block' ∧ isRawToolCallBlock block' = isRawToolCallBlock block ∧
      (isRawToolCallBlock block = false → block' = block) ∧
      (isRawToolCallBlock block' = true → IsUsable allowed block') ∧
      repairBlock allowed block' = some block' := by
  cases block with
  | other value =>
    cases h
    exact ⟨.same _, rfl, fun _ => rfl, (fun hcall => nomatch hcall), rfl⟩
  | object type id name rest =>
    by_cases htype : isToolCallType type = true
    · simp only [repairBlock, htype, if_true] at h
      split at h
      · rename_i husable
        cases h
        have hkept := sanitizeToolCallBlock_kept htype id name rest
        rw [sanitizeToolCallBlock_eq] at hkept ⊢
        have hagain : (hasToolCallInput (sanitizedRest name rest) && hasNonEmptyStringField id &&
            hasToolCallName (trimmedName name) allowed) = true := by
          rw [hasToolCallInput_sanitizedRest, hasToolCallName_trimmedName]
          exact husable
        refine ⟨hkept, rfl, fun hnot => ?_, fun _ => ?_, ?_⟩
        · rw [isRawToolCallBlock, htype] at hnot
          cases hnot
        · simpa only [IsUsable, Bool.and_eq_true, and_assoc] using hagain
        · simp only [repairBlock, htype, if_true, hagain, sanitizeToolCallBlock_eq,
            trimmedName_trimmedName, sanitizedRest_twice]
      · cases h
    · simp only [repairBlock, htype, Bool.false_eq_true, if_false] at h
      cases h
      refine ⟨.same _, rfl, fun _ => rfl, fun hcall => absurd hcall htype, ?_⟩
      simp only [repairBlock, htype, Bool.false_eq_true, if_false]

-- ---
-- Contents
-- ---

/-- What is left of a list of blocks: in order, each kept, the ones that went being tool calls
that can not be used. -/
inductive Cleaned (allowed : Option (List String)) : List Block → List Block → Prop
  | nil : Cleaned allowed [] []
  | drop {content content' : List Block} {block : Block} (hcall : isRawToolCallBlock block = true)
      (hnot : ¬ IsUsable allowed block) (hrest : Cleaned allowed content content') :
    Cleaned allowed (block :: content) content'
  | keep {content content' : List Block} {block block' : Block} (hkept : Kept block block')
      (hcall : isRawToolCallBlock block' = isRawToolCallBlock block)
      (hother : isRawToolCallBlock block = false → block' = block)
      (husable : isRawToolCallBlock block' = true → IsUsable allowed block')
      (hrest : Cleaned allowed content content') :
    Cleaned allowed (block :: content) (block' :: content')

theorem cleaned_filterMap (allowed : Option (List String)) (content : List Block) :
    Cleaned allowed content (content.filterMap (repairBlock allowed)) ∧
      (content.filterMap (repairBlock allowed)).filterMap (repairBlock allowed) =
        content.filterMap (repairBlock allowed) := by
  induction content with
  | nil => exact ⟨.nil, rfl⟩
  | cons block content ih =>
    cases hblock : repairBlock allowed block with
    | none =>
      rw [List.filterMap_cons_none hblock]
      obtain ⟨hcall, hnot⟩ := repairBlock_none_iff.1 hblock
      exact ⟨.drop hcall hnot ih.1, ih.2⟩
    | some block' =>
      obtain ⟨hkept, hcall, hother, husable, hagain⟩ := repairBlock_some hblock
      rw [List.filterMap_cons_some hblock, List.filterMap_cons_some hagain, ih.2]
      exact ⟨.keep hkept hcall hother husable ih.1, rfl⟩

namespace Cleaned

variable {content content' : List Block}

theorem others (h : Cleaned allowed content content') :
    content'.filter (!isRawToolCallBlock ·) = content.filter (!isRawToolCallBlock ·) := by
  induction h with
  | nil => rfl
  | drop hcall _ _ ih => rw [ih, List.filter_cons_of_neg (by simp [hcall])]
  | @keep _ _ block _ _ hcall hother _ _ ih =>
    cases hraw : isRawToolCallBlock block with
    | true =>
      rw [List.filter_cons_of_neg (by simp [hcall, hraw]),
        List.filter_cons_of_neg (by simp [hraw]), ih]
    | false =>
      rw [hother hraw, List.filter_cons_of_pos (by simp [hraw]),
        List.filter_cons_of_pos (by simp [hraw]), ih]

theorem usable (h : Cleaned allowed content content') :
    ∀ block ∈ content', isRawToolCallBlock block = true → IsUsable allowed block := by
  induction h with
  | nil => exact fun block hblock => absurd hblock List.not_mem_nil
  | drop _ _ _ ih => exact ih
  | keep _ _ _ husable _ ih => exact List.forall_mem_cons.2 ⟨husable, ih⟩

/-- The blocks that went are the tool calls that went. -/
theorem lengths (h : Cleaned allowed content content') :
    content'.length ≤ content.length ∧
      content'.countP isRawToolCallBlock + (content.length - content'.length) =
        content.countP isRawToolCallBlock := by
  induction h with
  | nil => exact ⟨le_rfl, rfl⟩
  | drop hcall _ _ ih =>
    rw [List.length_cons, List.countP_cons_of_pos hcall]
    omega
  | @keep _ _ block block' _ hcall _ _ _ ih =>
    rw [List.length_cons, List.length_cons, List.countP_cons, List.countP_cons, hcall]
    omega

end Cleaned

-- ---
-- Messages
-- ---

/-- The blocks of an assistant message. -/
def contentBlocks : Message → List Block
  | .assistant msg => msg.content.getD []
  | .toolResult _ | .other _ => []

def hasContent : Message → Bool
  | .assistant msg => msg.content.isSome
  | .toolResult _ | .other _ => false

/-- What is left of a transcript: in order, each message with its blocks cleaned, and without
the messages that lost their last block. -/
inductive Repaired (allowed : Option (List String)) : List Message → List Message → Prop
  | nil : Repaired allowed [] []
  | same {messages messages' : List Message} {message : Message}
      (hother : hasContent message = false) (hrest : Repaired allowed messages messages') :
    Repaired allowed (message :: messages) (message :: messages')
  | drop {messages messages' : List Message} {msg : AssistantMessage} {content : List Block}
      (hcontent : msg.content = some content) (hne : content ≠ [])
      (hcleaned : Cleaned allowed content []) (hrest : Repaired allowed messages messages') :
    Repaired allowed (.assistant msg :: messages) messages'
  | keep {messages messages' : List Message} {msg : AssistantMessage} {content content' : List Block}
      (hcontent : msg.content = some content) (hcleaned : Cleaned allowed content content')
      (hrest : Repaired allowed messages messages') :
    Repaired allowed (.assistant msg :: messages)
      (.assistant { msg with content := some content' } :: messages')

/-- How many tool calls a transcript has. -/
def toolCallBlocks (messages : List Message) : Nat :=
  (messages.flatMap contentBlocks).countP isRawToolCallBlock

/-- One message: it is left alone, or loses its last block, or is cleaned; and then it is
clean. -/
theorem repairMessage_cases (allowed : Option (List String)) (message : Message) :
    (hasContent message = false ∧ repairMessage allowed message = (some message, 0)) ∨
    ∃ msg content, message = .assistant msg ∧ msg.content = some content ∧
      ((content ≠ [] ∧ Cleaned allowed content [] ∧
          repairMessage allowed message = (none, content.length)) ∨
        ∃ content', Cleaned allowed content content' ∧
          repairMessage allowed message = (some (.assistant { msg with content := some content' }),
            content.length - content'.length) ∧
          repairMessage allowed (.assistant { msg with content := some content' }) =
            (some (.assistant { msg with content := some content' }), 0)) := by
  cases message with
  | toolResult => exact .inl ⟨rfl, rfl⟩
  | other => exact .inl ⟨rfl, rfl⟩
  | assistant msg =>
    cases hcontent : msg.content with
    | none =>
      refine .inl ⟨by rw [hasContent, hcontent]; rfl, ?_⟩
      simp only [repairMessage, hcontent]
    | some content =>
      refine .inr ⟨msg, content, rfl, hcontent, ?_⟩
      obtain ⟨hcleaned, hagain⟩ := cleaned_filterMap allowed content
      have hempty : (decide (0 < content.length - (content.filterMap (repairBlock allowed)).length) &&
          (content.filterMap (repairBlock allowed)).isEmpty) = true ↔
          content ≠ [] ∧ content.filterMap (repairBlock allowed) = [] := by
        rw [Bool.and_eq_true, decide_eq_true_eq, List.isEmpty_iff]
        refine and_congr_left fun hnil => ?_
        rw [hnil, List.length_nil, Nat.sub_zero, List.length_pos_iff]
      by_cases hdropped : content ≠ [] ∧ content.filterMap (repairBlock allowed) = []
      · refine .inl ⟨hdropped.1, hdropped.2 ▸ hcleaned, ?_⟩
        simp only [repairMessage, hcontent, hempty.2 hdropped, if_true]
        rw [hdropped.2, List.length_nil, Nat.sub_zero]
      · refine .inr ⟨_, hcleaned, ?_, ?_⟩
        · simp only [repairMessage, hcontent, if_neg (mt hempty.1 hdropped)]
        · simp only [repairMessage, hagain, Nat.sub_self, Nat.lt_irrefl, decide_false,
            Bool.false_and, Bool.false_eq_true, if_false]

/-- What the repair of a transcript gives, and what it counts. -/
structure Report (allowed : Option (List String)) (messages messages' : List Message)
    (droppedToolCalls droppedAssistantMessages : Nat) : Prop where
  repaired : Repaired allowed messages messages'
  calls : toolCallBlocks messages' + droppedToolCalls = toolCallBlocks messages
  messages : messages'.length + droppedAssistantMessages = messages.length

theorem toolCallBlocks_cons (message : Message) (messages : List Message) :
    toolCallBlocks (message :: messages) =
      (contentBlocks message).countP isRawToolCallBlock + toolCallBlocks messages := by
  rw [toolCallBlocks, List.flatMap_cons, List.countP_append, ← toolCallBlocks]

theorem report_repairMessages (allowed : Option (List String)) (messages : List Message) :
    Report allowed messages ((messages.map (repairMessage allowed)).filterMap (·.1))
        ((messages.map (repairMessage allowed)).map (·.2)).sum
        ((messages.map (repairMessage allowed)).filter (·.1.isNone)).length ∧
      ((messages.map (repairMessage allowed)).filterMap (·.1)).map (repairMessage allowed) =
        ((messages.map (repairMessage allowed)).filterMap (·.1)).map fun message =>
          (some message, 0) := by
  induction messages with
  | nil => exact ⟨⟨.nil, rfl, rfl⟩, rfl⟩
  | cons message messages ih =>
    obtain ⟨⟨hrepaired, hcalls, hlength⟩, hagain⟩ := ih
    rcases repairMessage_cases allowed message with ⟨hother, hsame⟩ |
      ⟨msg, content, rfl, hcontent,
        ⟨hne, hcleaned, hdropped⟩ | ⟨content', hcleaned, hkept, hclean⟩⟩
    · simp only [List.map_cons, hsame, List.filterMap_cons, List.sum_cons, List.filter_cons,
        Option.isNone_some, Bool.false_eq_true, if_false]
      refine ⟨⟨.same hother hrepaired, ?_, ?_⟩, ?_⟩
      · rw [toolCallBlocks_cons, toolCallBlocks_cons]
        omega
      · rw [List.length_cons, List.length_cons]
        omega
      · rw [hagain]
    · have hcounted := hcleaned.lengths.2
      simp only [List.map_cons, hdropped, List.filterMap_cons, List.sum_cons, List.filter_cons,
        Option.isNone_none, if_true]
      refine ⟨⟨.drop hcontent hne hcleaned hrepaired, ?_, ?_⟩, hagain⟩
      · rw [toolCallBlocks_cons, contentBlocks, hcontent, Option.getD_some]
        rw [List.countP_nil, List.length_nil] at hcounted
        omega
      · rw [List.length_cons, List.length_cons]
        omega
    · have hcounted := hcleaned.lengths.2
      simp only [List.map_cons, hkept, List.filterMap_cons, List.sum_cons, List.filter_cons,
        Option.isNone_some, Bool.false_eq_true, if_false]
      refine ⟨⟨.keep hcontent hcleaned hrepaired, ?_, ?_⟩, ?_⟩
      · rw [toolCallBlocks_cons, toolCallBlocks_cons, contentBlocks, contentBlocks, hcontent,
          Option.getD_some, Option.getD_some]
        omega
      · rw [List.length_cons, List.length_cons]
        omega
      · rw [hclean, hagain]

namespace Repaired

variable {messages messages' : List Message}

theorem usable (h : Repaired allowed messages messages') :
    ∀ message ∈ messages', ∀ block ∈ contentBlocks message,
      isRawToolCallBlock block = true → IsUsable allowed block := by
  induction h with
  | nil => exact fun message hmessage => absurd hmessage List.not_mem_nil
  | @same _ _ message hother _ ih =>
    refine List.forall_mem_cons.2 ⟨fun block hblock => ?_, ih⟩
    cases message with
    | assistant msg =>
      rw [hasContent, Option.isSome_eq_false_iff, Option.isNone_iff_eq_none] at hother
      rw [contentBlocks, hother] at hblock
      cases hblock
    | toolResult => cases hblock
    | other => cases hblock
  | drop _ _ _ _ ih => exact ih
  | keep _ hcleaned _ ih => exact List.forall_mem_cons.2 ⟨hcleaned.usable, ih⟩

/-- The blocks that are no tool calls are all there, in order. -/
theorem others (h : Repaired allowed messages messages') :
    (messages'.flatMap contentBlocks).filter (!isRawToolCallBlock ·) =
      (messages.flatMap contentBlocks).filter (!isRawToolCallBlock ·) := by
  induction h with
  | nil => rfl
  | same _ _ ih =>
    rw [List.flatMap_cons, List.flatMap_cons, List.filter_append, List.filter_append, ih]
  | drop hcontent _ hcleaned _ ih =>
    rw [List.flatMap_cons, List.filter_append, ih, contentBlocks, hcontent, Option.getD_some,
      ← hcleaned.others]
    rfl
  | keep hcontent hcleaned _ ih =>
    rw [List.flatMap_cons, List.flatMap_cons, List.filter_append, List.filter_append, ih,
      contentBlocks, contentBlocks, hcontent, Option.getD_some, Option.getD_some, hcleaned.others]

/-- So are the other messages. -/
theorem otherMessages (h : Repaired allowed messages messages') :
    messages'.filter (!hasContent ·) = messages.filter (!hasContent ·) := by
  induction h with
  | nil => rfl
  | same hother _ ih =>
    rw [List.filter_cons_of_pos (by simp [hother]), List.filter_cons_of_pos (by simp [hother]), ih]
  | drop hcontent _ _ _ ih =>
    rw [List.filter_cons_of_neg (by simp [hasContent, hcontent]), ih]
  | keep hcontent _ _ ih =>
    rw [List.filter_cons_of_neg (by simp [hasContent]),
      List.filter_cons_of_neg (by simp [hasContent, hcontent]), ih]

end Repaired

/-- Messages that all stay give themselves, and nothing is counted. -/
theorem report_unchanged (messages : List Message) :
    (messages.map fun message => (some message, 0)).filterMap (·.1) = messages ∧
      ((messages.map fun message => ((some message, 0) : Option Message × Nat)).map (·.2)).sum =
        0 ∧
      ((messages.map fun message => ((some message, 0) : Option Message × Nat)).filter
        (·.1.isNone)).length = 0 := by
  induction messages with
  | nil => exact ⟨rfl, rfl, rfl⟩
  | cons message messages ih =>
    obtain ⟨hout, hsum, hlength⟩ := ih
    refine ⟨?_, ?_, ?_⟩
    · rw [List.map_cons, List.filterMap_cons, hout]
    · rw [List.map_cons, List.map_cons, List.sum_cons, hsum]
    · rw [List.map_cons, List.filter_cons_of_neg (by simp), hlength]

/-- The laws of the repair: what stays is usable, everything else stays in order, what is
counted is what went, and a second repair changes nothing. -/
theorem repairToolCallInputs_laws (names : Option (List String)) (messages : List Message) :
    (∀ message ∈ (repairToolCallInputs names messages).messages,
      ∀ block ∈ contentBlocks message, isRawToolCallBlock block = true →
        IsUsable (normalizeAllowedToolNames names) block) ∧
    Repaired (normalizeAllowedToolNames names) messages
      (repairToolCallInputs names messages).messages ∧
    ((repairToolCallInputs names messages).messages.flatMap contentBlocks).filter
        (!isRawToolCallBlock ·) =
      (messages.flatMap contentBlocks).filter (!isRawToolCallBlock ·) ∧
    (repairToolCallInputs names messages).messages.filter (!hasContent ·) =
      messages.filter (!hasContent ·) ∧
    toolCallBlocks (repairToolCallInputs names messages).messages +
        (repairToolCallInputs names messages).droppedToolCalls = toolCallBlocks messages ∧
    (repairToolCallInputs names messages).messages.length +
        (repairToolCallInputs names messages).droppedAssistantMessages = messages.length ∧
    repairToolCallInputs names (repairToolCallInputs names messages).messages =
      { messages := (repairToolCallInputs names messages).messages
        droppedToolCalls := 0
        droppedAssistantMessages := 0 } := by
  obtain ⟨hreport, hagain⟩ :=
    report_repairMessages (normalizeAllowedToolNames names) messages
  refine ⟨hreport.repaired.usable, hreport.repaired, hreport.repaired.others,
    hreport.repaired.otherMessages, hreport.calls, hreport.messages, ?_⟩
  obtain ⟨hout, hsum, hlength⟩ := report_unchanged ((messages.map
    (repairMessage (normalizeAllowedToolNames names))).filterMap (·.1))
  simp only [repairToolCallInputs, hagain, hout, hsum, hlength]

end OpenClaw.Agents
