import OpenClaw.Js.Value

/-!
# Tool-loop detection

The resolver of the loop-detection config, the history of tool calls with its
sliding window, and the detectors that read it. The digest of a call's
arguments and of its outcome goes through SHA-256 and through the runtime's
rendering of numbers, which are parameters.
-/

namespace OpenClaw.ToolLoopDetection

open Js (Json Number)

-- ---
-- Config
-- ---

structure DetectorConfig where
  genericRepeat : Option Bool := none
  knownPollNoProgress : Option Bool := none
  pingPong : Option Bool := none

structure ToolLoopDetectionConfig where
  enabled : Option Bool := none
  historySize : Option Number := none
  warningThreshold : Option Number := none
  criticalThreshold : Option Number := none
  globalCircuitBreakerThreshold : Option Number := none
  detectors : Option DetectorConfig := none

structure Detectors where
  genericRepeat : Bool
  knownPollNoProgress : Bool
  pingPong : Bool
  deriving DecidableEq

structure ResolvedLoopDetectionConfig where
  enabled : Bool
  historySize : Nat
  warningThreshold : Nat
  criticalThreshold : Nat
  globalCircuitBreakerThreshold : Nat
  detectors : Detectors
  deriving DecidableEq

def TOOL_CALL_HISTORY_SIZE : Nat := 30
def WARNING_THRESHOLD : Nat := 10
def CRITICAL_THRESHOLD : Nat := 20
def GLOBAL_CIRCUIT_BREAKER_THRESHOLD : Nat := 30

def DEFAULT_LOOP_DETECTION_CONFIG : ResolvedLoopDetectionConfig where
  enabled := false
  historySize := TOOL_CALL_HISTORY_SIZE
  warningThreshold := WARNING_THRESHOLD
  criticalThreshold := CRITICAL_THRESHOLD
  globalCircuitBreakerThreshold := GLOBAL_CIRCUIT_BREAKER_THRESHOLD
  detectors := { genericRepeat := true, knownPollNoProgress := true, pingPong := true }

def asPositiveInt (value : Option Number) (fallback : Nat) : Nat :=
  match value.bind Number.integer? with
  | some n => if n ≤ 0 then fallback else n.toNat
  | none => fallback

def resolveLoopDetectionConfig (config : Option ToolLoopDetectionConfig) :
    ResolvedLoopDetectionConfig :=
  let dflt := DEFAULT_LOOP_DETECTION_CONFIG
  let detectors := config.bind (·.detectors)
  let warningThreshold := asPositiveInt (config.bind (·.warningThreshold)) dflt.warningThreshold
  let critical := asPositiveInt (config.bind (·.criticalThreshold)) dflt.criticalThreshold
  let breaker := asPositiveInt (config.bind (·.globalCircuitBreakerThreshold))
    dflt.globalCircuitBreakerThreshold
  let criticalThreshold := if critical ≤ warningThreshold then warningThreshold + 1 else critical
  { enabled := (config.bind (·.enabled)).getD dflt.enabled
    historySize := asPositiveInt (config.bind (·.historySize)) dflt.historySize
    warningThreshold
    criticalThreshold
    globalCircuitBreakerThreshold :=
      if breaker ≤ criticalThreshold then criticalThreshold + 1 else breaker
    detectors :=
      { genericRepeat := (detectors.bind (·.genericRepeat)).getD dflt.detectors.genericRepeat
        knownPollNoProgress :=
          (detectors.bind (·.knownPollNoProgress)).getD dflt.detectors.knownPollNoProgress
        pingPong := (detectors.bind (·.pingPong)).getD dflt.detectors.pingPong } }

theorem asPositiveInt_pos (h : 0 < fallback) : 0 < asPositiveInt value fallback := by
  unfold asPositiveInt
  split
  · split <;> omega
  · exact h

/-- The resolved thresholds are positive and strictly ordered, whatever the
config says, and the window holds at least one call. -/
theorem resolveLoopDetectionConfig_ordered (config : Option ToolLoopDetectionConfig) :
    let r := resolveLoopDetectionConfig config
    0 < r.historySize ∧ 0 < r.warningThreshold ∧ r.warningThreshold < r.criticalThreshold ∧
      r.criticalThreshold < r.globalCircuitBreakerThreshold := by
  refine ⟨asPositiveInt_pos (by decide), asPositiveInt_pos (by decide), ?_, ?_⟩
  · simp only [resolveLoopDetectionConfig]
    split <;> omega
  · simp only [resolveLoopDetectionConfig]
    split <;> split <;> omega

-- ---
-- Digests
-- ---

/-- What the digests take from the runtime: the hex SHA-256 of a string and
the decimal text of a number. -/
structure Host where
  sha256 : String → String
  numberText : Number → String

section
variable (host : Host)

mutual
/-- Keys are sorted after their values are rendered, which gives the same text
as sorting them first. -/
def stableStringify : Json → String
  | .null => "null"
  | .bool b => if b then "true" else "false"
  | .num n => host.numberText n
  | .str s => Js.quote s
  | .arr items => "[" ++ ",".intercalate (stableItems items) ++ "]"
  | .obj fields =>
    "\x7b" ++ ",".intercalate (((stableFields fields).mergeSort fun a b => Js.strLe a.1 b.1).map
      fun (k, v) => Js.quote k ++ ":" ++ v) ++ "\x7d"
def stableItems : List Json → List String
  | [] => []
  | v :: rest => stableStringify v :: stableItems rest
def stableFields : List (String × Json) → List (String × String)
  | [] => []
  | (k, v) :: rest => (k, stableStringify v) :: stableFields rest
end

def digestStable (value : Json) : String := host.sha256 (stableStringify host value)

/-- The digest of an object literal, where a field may be `undefined`: it is
rendered by a template, so as the text `undefined`. -/
def digestStableFields (fields : List (String × Option Json)) : String :=
  let rendered := fields.map fun (k, v) => (k, (v.map (stableStringify host)).getD "undefined")
  host.sha256 ("\x7b" ++ ",".intercalate ((rendered.mergeSort fun a b => Js.strLe a.1 b.1).map
    fun (k, v) => Js.quote k ++ ":" ++ v) ++ "\x7d")

def hashToolCall (toolName : String) (params : Json) : String :=
  toolName ++ ":" ++ digestStable host params

def isPlainObject : Json → Bool
  | .obj _ => true
  | _ => false

def isKnownPollToolCall (toolName : String) (params : Json) : Bool :=
  if toolName = "command_status" then true
  else if toolName ≠ "process" || !isPlainObject params then false
  else
    let action := (params.get? "action").bind Json.str?
    action = some "poll" || action = some "log"

def extractTextContent (result : Json) : String :=
  match result.get? "content" with
  | some (.arr content) =>
    let texts := content.filterMap fun entry =>
      match (entry.get? "type").bind Json.str?, (entry.get? "text").bind Json.str? with
      | some _, some text => some text
      | _, _ => none
    Js.trim ("\n".intercalate texts)
  | _ => ""

/-- What a tool threw: an `Error` or any other value. -/
inductive Thrown
  | error (name message : String)
  | value (v : Json)

def formatErrorForHash : Thrown → String
  | .error name message => if message ≠ "" then message else name
  | .value (.str s) => s
  | .value (.num n) => host.numberText n
  | .value (.bool b) => if b then "true" else "false"
  | .value v => stableStringify host v

/-- `details.field ?? null` -/
def fieldOrNull (details : Json) (field : String) : Option Json :=
  some ((details.get? field).getD .null)

def hashToolOutcome (toolName : String) (params : Json) (result : Option Json)
    (error : Option Thrown) : Option String :=
  match error with
  | some err => some ("error:" ++ digestStable host (.str (formatErrorForHash host err)))
  | none =>
    match result with
    | none => none
    | some (.obj fields) =>
      let result := Json.obj fields
      let details := match result.get? "details" with
        | some (.obj d) => Json.obj d
        | _ => .obj []
      let text := some (Json.str (extractTextContent result))
      let action := if isKnownPollToolCall toolName params && toolName = "process" then
        (params.get? "action").bind Json.str? else none
      if action = some "poll" then
        some (digestStableFields host
          [("action", some (.str "poll")), ("status", details.get? "status"),
           ("exitCode", fieldOrNull details "exitCode"),
           ("exitSignal", fieldOrNull details "exitSignal"),
           ("aggregated", fieldOrNull details "aggregated"), ("text", text)])
      else if action = some "log" then
        some (digestStableFields host
          [("action", some (.str "log")), ("status", details.get? "status"),
           ("totalLines", fieldOrNull details "totalLines"),
           ("totalChars", fieldOrNull details "totalChars"),
           ("truncated", fieldOrNull details "truncated"),
           ("exitCode", fieldOrNull details "exitCode"),
           ("exitSignal", fieldOrNull details "exitSignal"), ("text", text)])
      else
        some (digestStableFields host [("details", some details), ("text", text)])
    | some other => some (digestStable host other)

end

-- ---
-- The history
-- ---

structure ToolCallRecord where
  toolName : String
  argsHash : String
  toolCallId : Option String := none
  resultHash : Option String := none
  deriving DecidableEq

def recordToolCall (host : Host) (history : List ToolCallRecord) (toolName : String)
    (params : Json) (toolCallId : Option String) (config : Option ToolLoopDetectionConfig) :
    List ToolCallRecord :=
  let resolved := resolveLoopDetectionConfig config
  let pushed : List ToolCallRecord :=
    history ++ [{ toolName, argsHash := hashToolCall host toolName params, toolCallId }]
  if pushed.length > resolved.historySize then pushed.drop 1 else pushed

/-- The record an outcome belongs to: same call id (when one is given), same
tool and arguments, no outcome yet. -/
def awaitsOutcome (toolName argsHash : String) (toolCallId : Option String)
    (call : ToolCallRecord) : Bool :=
  (toolCallId = none || toolCallId = some "" || call.toolCallId = toolCallId) &&
    (call.toolName = toolName && call.argsHash = argsHash) && call.resultHash = none

/-- The scan from the newest record, on the reversed history. -/
def setOutcome (toolName argsHash : String) (toolCallId : Option String) (resultHash : String) :
    List ToolCallRecord → Option (List ToolCallRecord)
  | [] => none
  | call :: older =>
    if awaitsOutcome toolName argsHash toolCallId call then
      some ({ call with resultHash := some resultHash } :: older)
    else (setOutcome toolName argsHash toolCallId resultHash older).map (call :: ·)

structure OutcomeParams where
  toolName : String
  toolParams : Json
  toolCallId : Option String := none
  result : Option Json := none
  error : Option Thrown := none

def recordToolCallOutcome (host : Host) (history : List ToolCallRecord) (params : OutcomeParams)
    (config : Option ToolLoopDetectionConfig) : List ToolCallRecord :=
  let resolved := resolveLoopDetectionConfig config
  match hashToolOutcome host params.toolName params.toolParams params.result params.error with
  | none => history
  | some resultHash =>
    if resultHash = "" then history
    else
      let argsHash := hashToolCall host params.toolName params.toolParams
      let recorded : List ToolCallRecord :=
        match setOutcome params.toolName argsHash params.toolCallId resultHash history.reverse with
        | some reversed => reversed.reverse
        | none => history ++ [{ toolName := params.toolName, argsHash,
                                toolCallId := params.toolCallId, resultHash := some resultHash }]
      recorded.drop (recorded.length - resolved.historySize)

-- ---
-- The detectors
-- ---

/-- The records of one call, newest first, as the streak loop reads them. -/
def noProgressLoop (toolName argsHash : String) :
    List ToolCallRecord → Nat → Option String → Nat × Option String
  | [], streak, latest => (streak, latest)
  | call :: older, streak, latest =>
    if call.toolName ≠ toolName ∨ call.argsHash ≠ argsHash then
      noProgressLoop toolName argsHash older streak latest
    else
      match call.resultHash with
      | none => noProgressLoop toolName argsHash older streak latest
      | some hash =>
        if hash = "" then noProgressLoop toolName argsHash older streak latest
        else
          match latest with
          | none => noProgressLoop toolName argsHash older 1 (some hash)
          | some latestHash =>
            if hash ≠ latestHash then (streak, latest)
            else noProgressLoop toolName argsHash older (streak + 1) latest

def getNoProgressStreak (history : List ToolCallRecord) (toolName argsHash : String) :
    Nat × Option String :=
  noProgressLoop toolName argsHash history.reverse 0 none

structure PingPong where
  count : Nat
  pairedToolName : Option String := none
  pairedSignature : Option String := none
  noProgressEvidence : Bool

/-- The length of the tail that alternates between `expected` and `other`,
newest first. -/
def alternatingTail (expected other : String) : List ToolCallRecord → Nat
  | [] => 0
  | call :: older => if call.argsHash ≠ expected then 0 else alternatingTail other expected older + 1

/-- The scan for equal outcomes on both sides of the alternation. -/
def stableOutcomes (signatureA signatureB : String) :
    List ToolCallRecord → Option String → Option String → Bool × Option String × Option String
  | [], hashA, hashB => (true, hashA, hashB)
  | call :: rest, hashA, hashB =>
    match call.resultHash with
    | none => (false, hashA, hashB)
    | some hash =>
      if hash = "" then (false, hashA, hashB)
      else if call.argsHash = signatureA then
        if hashA = none then stableOutcomes signatureA signatureB rest (some hash) hashB
        else if hashA ≠ some hash then (false, hashA, hashB)
        else stableOutcomes signatureA signatureB rest hashA hashB
      else if call.argsHash = signatureB then
        if hashB = none then stableOutcomes signatureA signatureB rest hashA (some hash)
        else if hashB ≠ some hash then (false, hashA, hashB)
        else stableOutcomes signatureA signatureB rest hashA hashB
      else (false, hashA, hashB)

def getPingPongStreak (history : List ToolCallRecord) (currentSignature : String) : PingPong :=
  match history.reverse with
  | [] => { count := 0, noProgressEvidence := false }
  | last :: older =>
    match older.find? (·.argsHash ≠ last.argsHash) with
    | none => { count := 0, noProgressEvidence := false }
    | some other =>
      if other.argsHash = "" ∨ other.toolName = "" then { count := 0, noProgressEvidence := false }
      else
        let tail := alternatingTail last.argsHash other.argsHash (last :: older)
        if tail < 2 then { count := 0, noProgressEvidence := false }
        else if currentSignature ≠ other.argsHash then { count := 0, noProgressEvidence := false }
        else
          let (stable, hashA, hashB) := stableOutcomes last.argsHash other.argsHash
            (history.drop (history.length - tail)) none none
          { count := tail + 1
            pairedToolName := some last.toolName
            pairedSignature := some last.argsHash
            noProgressEvidence := stable && hashA.isSome && hashB.isSome }

inductive Level
  | warning
  | critical
  deriving DecidableEq

inductive LoopDetectorKind
  | generic_repeat
  | known_poll_no_progress
  | global_circuit_breaker
  | ping_pong
  deriving DecidableEq

structure Stuck where
  level : Level
  detector : LoopDetectorKind
  count : Nat
  message : String
  pairedToolName : Option String := none
  warningKey : Option String := none
  deriving DecidableEq

def canonicalPairKey (signatureA signatureB : String) : String :=
  if Js.strLe signatureA signatureB then signatureA ++ "|" ++ signatureB
  else signatureB ++ "|" ++ signatureA

/-- `none` is `{ stuck: false }`. -/
def detectToolCallLoop (host : Host) (history : List ToolCallRecord) (toolName : String)
    (params : Json) (config : Option ToolLoopDetectionConfig) : Option Stuck :=
  let resolved := resolveLoopDetectionConfig config
  if !resolved.enabled then none
  else
    let currentHash := hashToolCall host toolName params
    let (streak, latestResultHash) := getNoProgressStreak history toolName currentHash
    let knownPollTool := isKnownPollToolCall toolName params
    let pingPong := getPingPongStreak history currentHash
    let latestHash := latestResultHash.getD "none"
    let streakKey (kind : String) := some s!"{kind}:{toolName}:{currentHash}:{latestHash}"
    let pingPongWarningKey := match pingPong.pairedSignature with
      | some signature => s!"pingpong:{canonicalPairKey currentHash signature}"
      | none => s!"pingpong:{toolName}:{currentHash}"
    let recentCount := history.countP fun h => h.toolName = toolName && h.argsHash = currentHash
    if streak ≥ resolved.globalCircuitBreakerThreshold then
      some {
        level := .critical
        detector := .global_circuit_breaker
        count := streak
        message := s!"CRITICAL: {toolName} has repeated identical no-progress outcomes {streak} times. Session execution blocked by global circuit breaker to prevent runaway loops."
        warningKey := streakKey "global" }
    else if knownPollTool && resolved.detectors.knownPollNoProgress &&
        streak ≥ resolved.criticalThreshold then
      some {
        level := .critical
        detector := .known_poll_no_progress
        count := streak
        message := s!"CRITICAL: Called {toolName} with identical arguments and no progress {streak} times. This appears to be a stuck polling loop. Session execution blocked to prevent resource waste."
        warningKey := streakKey "poll" }
    else if knownPollTool && resolved.detectors.knownPollNoProgress &&
        streak ≥ resolved.warningThreshold then
      some {
        level := .warning
        detector := .known_poll_no_progress
        count := streak
        message := s!"WARNING: You have called {toolName} {streak} times with identical arguments and no progress. Stop polling and either (1) increase wait time between checks, or (2) report the task as failed if the process is stuck."
        warningKey := streakKey "poll" }
    else if resolved.detectors.pingPong && pingPong.count ≥ resolved.criticalThreshold &&
        pingPong.noProgressEvidence then
      some {
        level := .critical
        detector := .ping_pong
        count := pingPong.count
        message := s!"CRITICAL: You are alternating between repeated tool-call patterns ({pingPong.count} consecutive calls) with no progress. This appears to be a stuck ping-pong loop. Session execution blocked to prevent resource waste."
        pairedToolName := pingPong.pairedToolName
        warningKey := some pingPongWarningKey }
    else if resolved.detectors.pingPong && pingPong.count ≥ resolved.warningThreshold then
      some {
        level := .warning
        detector := .ping_pong
        count := pingPong.count
        message := s!"WARNING: You are alternating between repeated tool-call patterns ({pingPong.count} consecutive calls). This looks like a ping-pong loop; stop retrying and report the task as failed."
        pairedToolName := pingPong.pairedToolName
        warningKey := some pingPongWarningKey }
    else if !knownPollTool && resolved.detectors.genericRepeat &&
        recentCount ≥ resolved.warningThreshold then
      some {
        level := .warning
        detector := .generic_repeat
        count := recentCount
        message := s!"WARNING: You have called {toolName} {recentCount} times with identical arguments. If this is not making progress, stop retrying and report the task as failed."
        warningKey := some s!"generic:{toolName}:{currentHash}" }
    else none

end OpenClaw.ToolLoopDetection
