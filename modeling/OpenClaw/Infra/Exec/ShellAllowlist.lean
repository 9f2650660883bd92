import OpenClaw.Infra.Exec.AllowAlways
import OpenClaw.Lib.OrderedSet

/-!
# The allowlist and shell commands

A command is let through if each of its segments is: by an entry of the allowlist, as a safe
bin or as a skill. A chain is evaluated part by part; what let each segment through is kept
along with the segments.
-/

namespace OpenClaw.Exec

open Js

variable (host : Host)

-- ---
-- Chains
-- ---

/-- `/\\(?:\r\n|\n|\r)/` -/
def hasShellLineContinuation : Text → Bool
  | [] => false
  | c :: rest =>
    (c = '\\' && (rest.head? = some '\n' || rest.head? = some '\r')) ||
      hasShellLineContinuation rest

inductive ShellChainOperator
  | and
  | or
  | semicolon
  deriving DecidableEq

structure ShellChainPart where
  part : Text
  opToNext : Option ShellChainOperator
  deriving DecidableEq

def isDoubleQuoteEscape (next : Option Char) : Bool :=
  next.any fun c => "\\\x22$`".toList.contains c

def isEscapedLineContinuation (next : Option Char) : Bool := next = some '\n' || next = some '\r'

structure ChainScan where
  parts : List ShellChainPart := []
  buf : Text := []
  inSingle : Bool := false
  inDouble : Bool := false
  escaped : Bool := false
  foundChain : Bool := false
  invalidChain : Bool := false
  /-- The last character that was read. -/
  prev : Option Char := none
  /-- The next character was read along with the last one. -/
  skip : Bool := false

def ChainScan.pushPart (s : ChainScan) (op : ShellChainOperator) : ChainScan :=
  let trimmed := trimChars s.buf
  if trimmed = [] then { s with buf := [], foundChain := true, invalidChain := true }
  else { s with buf := [], foundChain := true, parts := s.parts ++ [⟨trimmed, some op⟩] }

def scanChain (s : ChainScan) : Text → ChainScan
  | [] => s
  | ch :: rest =>
    let next := rest.head?
    let read := { s with prev := some ch, skip := false }
    let taken := { read with buf := s.buf ++ [ch] }
    if s.skip then scanChain read rest
    else if s.escaped then scanChain { taken with escaped := false } rest
    else if !s.inSingle && !s.inDouble && ch = '\\' then
      scanChain { taken with escaped := true } rest
    else if s.inSingle then scanChain { taken with inSingle := ch ≠ '\x27' } rest
    else if s.inDouble then
      if ch = '\\' && isEscapedLineContinuation next then { read with invalidChain := true }
      else if ch = '\\' && isDoubleQuoteEscape next then
        scanChain { taken with buf := taken.buf ++ next.toList, skip := true } rest
      else scanChain { taken with inDouble := ch ≠ '\x22' } rest
    else if ch = '\x27' then scanChain { taken with inSingle := true } rest
    else if ch = '\x22' then scanChain { taken with inDouble := true } rest
    -- A comment ends the command.
    else if ch = '#' && s.prev.all isSpace then read
    else if ch = '&' && next = some '&' then scanChain { read.pushPart .and with skip := true } rest
    else if ch = '|' && next = some '|' then scanChain { read.pushPart .or with skip := true } rest
    else if ch = ';' then scanChain (read.pushPart .semicolon) rest
    else scanChain taken rest

def splitCommandChainWithOperators (command : Text) : Option (List ShellChainPart) :=
  let s := scanChain {} command
  let trimmed := trimChars s.buf
  if !s.foundChain || trimmed = [] || s.invalidChain then none
  else some (s.parts ++ [⟨trimmed, none⟩])

def splitCommandChain (command : Text) : Option (List Text) :=
  (splitCommandChainWithOperators command).map (·.map (·.part))

-- ---
-- Arguments
-- ---

structure ArgvScan where
  tokens : List Text := []
  buf : Text := []
  inSingle : Bool := false
  inDouble : Bool := false
  escaped : Bool := false
  /-- The next character was read along with the last one. -/
  skip : Bool := false

def ArgvScan.pushToken (s : ArgvScan) : ArgvScan :=
  if s.buf = [] then s else { s with tokens := s.tokens ++ [s.buf], buf := [] }

def isArgvDoubleQuoteEscape (next : Option Char) : Bool :=
  next.any fun c => "\"$`

".toList.contains c

def scanArgv (s : ArgvScan) : Text → ArgvScan
  | [] => s
  | ch :: rest =>
    let next := rest.head?
    let taken := { s with buf := s.buf ++ [ch] }
    if s.skip then scanArgv { s with skip := false } rest
    else if s.escaped then scanArgv { taken with escaped := false } rest
    else if !s.inSingle && !s.inDouble && ch = '\\' then scanArgv { s with escaped := true } rest
    else if s.inSingle then
      if ch = '\x27' then scanArgv { s with inSingle := false } rest else scanArgv taken rest
    else if s.inDouble then
      if ch = '\\' && isArgvDoubleQuoteEscape next then
        scanArgv { s with buf := s.buf ++ next.toList, skip := true } rest
      else if ch = '\x22' then scanArgv { s with inDouble := false } rest
      else scanArgv taken rest
    else if ch = '\x27' then scanArgv { s with inSingle := true } rest
    else if ch = '\x22' then scanArgv { s with inDouble := true } rest
    else if ch = '#' && s.buf = [] then s
    else if isSpace ch then scanArgv s.pushToken rest
    else scanArgv taken rest

def splitShellArgs (raw : Text) : Option (List Text) :=
  let s := scanArgv {} raw
  if s.escaped || s.inSingle || s.inDouble then none else some s.pushToken.tokens

-- ---
-- Contexts
-- ---

inductive ExecSegmentSatisfiedBy
  | allowlist
  | safeBins
  | skills
  | skillPrelude
  deriving DecidableEq

structure SkillBinTrustEntry where
  name : Text
  resolvedPath : Text

/-- How a single command of a shell is read. -/
structure ShellSyntax where
  splitShellPipeline : Text → Option (List Text)
  /-- The arguments of a Windows command without unsupported tokens. -/
  windowsArgv : Text → Option (List Text)

/-- The allowlist, with entries of any kind, and the policy of safe bins are read through
functions. -/
structure ExecAllowlistContext (Entry : Type) where
  matchAllowlist : Option ExecutableResolution → Option (List Text) → Option Entry
  safeBins : List Text
  isTrustedSafeBinPath : Text → Bool
  /-- `validateSafeBinArgv` with the profile of the bin, where it has one. -/
  validateSafeBinArgv : Text → List Text → Bool
  cwd : Option Text
  env : Option ProcessEnv
  platform : Option Text
  skillBins : List SkillBinTrustEntry
  autoAllowSkills : Bool
  shell : ShellSyntax

structure ExecCommandAnalysis where
  ok : Bool
  segments : List ExecCommandSegment
  chains : Option (List (List ExecCommandSegment)) := none

variable {Entry : Type} (context : ExecAllowlistContext Entry)

-- ---
-- Analysis
-- ---

def analyzeFailure : ExecCommandAnalysis := { ok := false, segments := [] }

def segmentOf (raw : Text) (argv : List Text) : ExecCommandSegment :=
  { raw, argv, resolution := resolveCommandResolutionFromArgv host argv context.cwd context.env }

def parseSegmentsFromParts (parts : List Text) : Option (List ExecCommandSegment) :=
  parts.mapM fun raw =>
    ((splitShellArgs raw).filter (· ≠ [])).map (segmentOf host context raw)

def analyzePipeline (command : Text) : Option (List ExecCommandSegment) :=
  (context.shell.splitShellPipeline command).bind (parseSegmentsFromParts host context)

def analyzeShellCommand (command : Text) : ExecCommandAnalysis :=
  if isWindowsPlatform host context.platform then
    match (context.shell.windowsArgv command).filter (· ≠ []) with
    | none => analyzeFailure
    | some argv => { ok := true, segments := [segmentOf host context command argv] }
  else
    match splitCommandChain command with
    | some chainParts =>
      match chainParts.mapM (analyzePipeline host context) with
      | none => analyzeFailure
      | some chains => { ok := true, segments := chains.flatten, chains := some chains }
    | none =>
      match analyzePipeline host context command with
      | none => analyzeFailure
      | some segments => { ok := true, segments }

-- ---
-- Segments
-- ---

def isSafeBinUsage (argv : List Text) (resolution : Option ExecutableResolution) : Bool :=
  if isWindowsPlatform host (some (context.platform.getD host.platform.text)) then false
  else
    match resolution with
    | none => false
    | some resolution =>
      let execName := host.lower.toLowerCase resolution.executableName
      match resolution.resolvedPath.filter (· ≠ []) with
      | none => false
      | some resolvedPath =>
        execName ≠ [] && context.safeBins.contains execName &&
          context.isTrustedSafeBinPath resolvedPath &&
          context.validateSafeBinArgv execName (argv.drop 1)

def normalizeSkillBinName (value : Text) : Option Text :=
  (some (host.lower.toLowerCase (trimChars value))).filter (· ≠ [])

def normalizeSkillBinResolvedPath (value : Text) : Option Text :=
  (trimmed? (some value)).map fun trimmed =>
    let resolved := host.path.resolve host.cwd host.cwd trimmed
    if host.platform = .win32 then
      host.lower.toLowerCase (resolved.map fun c => if c = '\\' then '/' else c)
    else resolved

/-- The trusted pairs of a name and a path. -/
def buildSkillBinTrustIndex : List (Text × Text) :=
  context.skillBins.filterMap fun entry =>
    (normalizeSkillBinName host entry.name).bind fun name =>
      (normalizeSkillBinResolvedPath host entry.resolvedPath).map fun resolvedPath =>
        (name, resolvedPath)

def isSkillAutoAllowedSegment (segment : ExecCommandSegment) : Bool :=
  let skillBinTrust := buildSkillBinTrustIndex host context
  if !context.autoAllowSkills || skillBinTrust = [] then false
  else
    match segment.resolution.map (·.execution) with
    | none => false
    | some execution =>
      match execution.resolvedPath.filter (· ≠ []) with
      | none => false
      | some resolvedPath =>
        let rawExecutable := trimChars execution.rawExecutable
        if rawExecutable = [] || hasPathSeparator rawExecutable then false
        else
          match normalizeSkillBinName host execution.executableName,
              normalizeSkillBinResolvedPath host resolvedPath with
          | some executableName, some resolvedPath =>
            skillBinTrust.contains (executableName, resolvedPath)
          | _, _ => false

def resolveShellWrapperScriptArgv (shellScriptCandidatePath : Text) (effectiveArgv : List Text) :
    List Text :=
  let scriptBase := host.lower.toLowerCase (host.path.basename shellScriptCandidatePath)
  let cwdBase := (trimmed? context.cwd).getD host.cwd
  let resolveArgPath (arg : Text) :=
    if host.path.isAbsolute arg then arg else host.path.resolve host.cwd cwdBase arg
  let idx := (effectiveArgv.findIdx? fun arg => resolveArgPath arg = shellScriptCandidatePath).or
    (effectiveArgv.findIdx? fun arg =>
      host.lower.toLowerCase (host.path.basename arg) = scriptBase)
  shellScriptCandidatePath :: idx.elim [] fun idx => effectiveArgv.drop (idx + 1)

structure SegmentMatchEvaluation (Entry : Type) where
  effectiveArgv : List Text
  inlineCommand : Option Text
  matched : Option Entry

/-- The resolution of a path that is matched in place of the executable. -/
def pathResolution (path : Text) : ExecutableResolution :=
  { rawExecutable := path
    resolvedPath := some path
    resolvedRealPath := none
    executableName := host.path.basename path }

def resolveSegmentAllowlistMatch (segment : ExecCommandSegment) : SegmentMatchEvaluation Entry :=
  let effectiveArgv :=
    ((segment.resolution.bind (·.effectiveArgv)).filter (· ≠ [])).getD segment.argv
  let allowlistSegment := { segment with argv := effectiveArgv }
  let executableResolution := segment.resolution.map (·.policy)
  let candidatePath :=
    (resolveExecutableCandidatePathFromResolution host executableResolution context.cwd).filter
      (· ≠ [])
  let candidateResolution := executableResolution.map fun resolution =>
    match candidatePath with
    | some path => { resolution with resolvedPath := some path }
    | none => resolution
  let inlineCommand := extractShellWrapperInlineCommand host effectiveArgv
  let executableMatch :=
    if inlineCommand.any isDirectShellPositionalCarrierInvocation then none
    else context.matchAllowlist candidateResolution (some effectiveArgv)
  let shellPositionalArgvMatch :=
    ((resolveShellWrapperPositionalArgvCandidatePath host allowlistSegment context.cwd
      context.env).filter (· ≠ [])).bind fun path =>
        context.matchAllowlist (some (pathResolution host path)) none
  let shellScriptMatch :=
    if inlineCommand.isSome then none
    else
      ((resolveShellWrapperScriptCandidatePath host allowlistSegment context.cwd).filter
        (· ≠ [])).bind fun path =>
          context.matchAllowlist (some (pathResolution host path))
            (some (resolveShellWrapperScriptArgv host context path effectiveArgv))
  { effectiveArgv
    inlineCommand
    matched := (executableMatch.or shellPositionalArgvMatch).or shellScriptMatch }

def resolveSegmentSatisfaction (matched : Option Entry) (segment : ExecCommandSegment)
    (effectiveArgv : List Text) : Option ExecSegmentSatisfiedBy :=
  if matched.isSome then some .allowlist
  else if isSafeBinUsage host context effectiveArgv (segment.resolution.map (·.execution)) then
    some .safeBins
  else if isSkillAutoAllowedSegment host context segment then some .skills
  else none

/-- The matches, and for each segment that was looked at an entry and what let it through. -/
structure SegmentsEvaluation (Entry : Type) where
  satisfied : Bool
  allowlistMatches : List Entry
  segmentAllowlistEntries : List (Option Entry)
  segmentSatisfiedBy : List (Option ExecSegmentSatisfiedBy)

/-- What a segment comes to. -/
structure SegmentOutcome (Entry : Type) where
  allowlistMatches : List Entry
  entry : Option Entry
  satisfiedBy : Option ExecSegmentSatisfiedBy

/-- The loop of `evaluateShellWrapperInlineChain`, which gives up at the first part that is not
let through. -/
def inlineChainMatches (evaluate : List ExecCommandSegment → SegmentsEvaluation Entry) :
    List Text → Option (List Entry)
  | [] => some []
  | part :: rest =>
    let analysis := analyzeShellCommand host context part
    if !analysis.ok then none
    else
      let result := evaluate analysis.segments
      if !result.satisfied then none
      else (inlineChainMatches evaluate rest).map (result.allowlistMatches ++ ·)

/-- `resolveInlineChainFallback`; `nested` evaluates the segments of the inline command, as far
as the depth allows it. -/
def resolveInlineChainFallback
    (nested : Option (List ExecCommandSegment → SegmentsEvaluation Entry))
    (satisfiedBy : Option ExecSegmentSatisfiedBy) (inlineCommand : Option Text) :
    Option (List Entry) :=
  match nested, satisfiedBy, inlineCommand.filter (· ≠ []) with
  | some evaluate, none, some inlineCommand =>
    match splitCommandChain inlineCommand with
    | none => none
    | some chainParts =>
      if chainParts.length ≤ 1 || isWindowsPlatform host context.platform then none
      else inlineChainMatches host context evaluate chainParts
  | _, _, _ => none

def evaluateSegment (nested : Option (List ExecCommandSegment → SegmentsEvaluation Entry))
    (segment : ExecCommandSegment) : SegmentOutcome Entry :=
  if segment.resolution.bind (·.policyBlocked) = some true then ⟨[], none, none⟩
  else
    let evaluation := resolveSegmentAllowlistMatch host context segment
    let satisfiedBy :=
      resolveSegmentSatisfaction host context evaluation.matched segment evaluation.effectiveArgv
    match resolveInlineChainFallback host context nested satisfiedBy evaluation.inlineCommand with
    | some inlineMatches =>
      ⟨evaluation.matched.toList ++ inlineMatches, evaluation.matched, some .allowlist⟩
    | none => ⟨evaluation.matched.toList, evaluation.matched, satisfiedBy⟩

/-- The loop of `evaluateSegments`, up to the first segment that is not let through. -/
def evaluateEach (nested : Option (List ExecCommandSegment → SegmentsEvaluation Entry)) :
    List ExecCommandSegment → SegmentsEvaluation Entry
  | [] => ⟨true, [], [], []⟩
  | segment :: rest =>
    let outcome := evaluateSegment host context nested segment
    if outcome.satisfiedBy.isNone then
      ⟨false, outcome.allowlistMatches, [outcome.entry], [outcome.satisfiedBy]⟩
    else
      let result := evaluateEach nested rest
      ⟨result.satisfied, outcome.allowlistMatches ++ result.allowlistMatches,
        outcome.entry :: result.segmentAllowlistEntries,
        outcome.satisfiedBy :: result.segmentSatisfiedBy⟩

/-- With the number of inline commands that may be nested. -/
def evaluateSegments : Nat → List ExecCommandSegment → SegmentsEvaluation Entry
  | 0 => evaluateEach host context none
  | depth + 1 => evaluateEach host context (some (evaluateSegments depth))

def MAX_SHELL_WRAPPER_INLINE_EVAL_DEPTH : Nat := 3

structure ExecAllowlistEvaluation (Entry : Type) where
  allowlistSatisfied : Bool
  allowlistMatches : List Entry
  segmentAllowlistEntries : List (Option Entry)
  segmentSatisfiedBy : List (Option ExecSegmentSatisfiedBy)

/-- The loop over the groups of segments. -/
def evaluateGroups (hasChains : Bool) :
    List (List ExecCommandSegment) → ExecAllowlistEvaluation Entry
  | [] => ⟨true, [], [], []⟩
  | group :: rest =>
    let result := evaluateSegments host context (MAX_SHELL_WRAPPER_INLINE_EVAL_DEPTH - 1) group
    if !result.satisfied then
      if !hasChains then
        ⟨false, result.allowlistMatches, result.segmentAllowlistEntries, result.segmentSatisfiedBy⟩
      else ⟨false, [], [], []⟩
    else
      let evaluation := evaluateGroups hasChains rest
      if !evaluation.allowlistSatisfied then evaluation
      else
        ⟨true, result.allowlistMatches ++ evaluation.allowlistMatches,
          result.segmentAllowlistEntries ++ evaluation.segmentAllowlistEntries,
          result.segmentSatisfiedBy ++ evaluation.segmentSatisfiedBy⟩

def evaluateExecAllowlist (analysis : ExecCommandAnalysis) : ExecAllowlistEvaluation Entry :=
  if !analysis.ok || analysis.segments = [] then ⟨false, [], [], []⟩
  else evaluateGroups host context analysis.chains.isSome
    (analysis.chains.getD [analysis.segments])

-- ---
-- Skill preludes
-- ---

def resolveSkillPreludePath (rawPath : Text) : Text :=
  let expanded := if startsWithTilde rawPath then expandHomePrefix host rawPath none else rawPath
  if host.path.isAbsolute expanded then host.path.resolve host.cwd host.cwd expanded
  else host.path.resolve host.cwd ((trimmed? context.cwd).getD host.cwd) expanded

/-- The parts of a path in lower case that ends in `/skill.md`, the last one first. -/
def skillMarkdownParts (filePath : Text) : Option (List Text) :=
  let normalized := filePath.map fun c => if c = '\\' then '/' else c
  let lowerNormalized := host.lower.toLowerCase normalized
  if "/skill.md".toList.isSuffixOf lowerNormalized then
    some ((lowerNormalized.splitOn '/').filter (· ≠ [])).reverse
  else none

def isSkillMarkdownPreludePath (filePath : Text) : Bool :=
  match skillMarkdownParts host filePath with
  | some (_ :: first :: rest) =>
    first = "skills".toList || rest.head? = some "skills".toList
  | _ => false

def resolveSkillMarkdownPreludeId (filePath : Text) : Option Text :=
  match skillMarkdownParts host filePath with
  | some (_ :: skillId :: parent :: _) =>
    if parent = "skills".toList then trimmed? (some skillId) else none
  | _ => none

def executableNameIs (segment : ExecCommandSegment) (name : Text) : Bool :=
  segment.resolution.any fun resolution =>
    host.lower.toLowerCase resolution.execution.executableName = name

/-- The file that a plain `cat` shows. -/
def preludeReadPath (segment : ExecCommandSegment) : Option Text :=
  if executableNameIs host segment "cat".toList && segment.argv.length = 2 then
    ((trimmed? segment.argv[1]?).map (resolveSkillPreludePath host context)).filter
      (isSkillMarkdownPreludePath host)
  else none

def isSkillPreludeReadSegment (segment : ExecCommandSegment) : Bool :=
  (preludeReadPath host context segment).isSome

def isSkillPreludeMarkerSegment (segment : ExecCommandSegment) : Bool :=
  executableNameIs host segment "printf".toList && segment.argv.length = 2 &&
    (segment.argv[1]? = some "\\n---CMD---\\n".toList ||
      segment.argv[1]? = some "\n---CMD---\n".toList)

def isSkillPreludeSegment (segment : ExecCommandSegment) : Bool :=
  isSkillPreludeReadSegment host context segment || isSkillPreludeMarkerSegment host segment

def isSkillPreludeOnlyEvaluation (segments : List ExecCommandSegment) : Bool :=
  segments ≠ [] && segments.all (isSkillPreludeSegment host context)

def resolveSkillPreludeIds (segments : List ExecCommandSegment) : List Text :=
  segments.filterMap fun segment =>
    (preludeReadPath host context segment).bind (resolveSkillMarkdownPreludeId host)

def resolveAllowlistedSkillWrapperId (segment : ExecCommandSegment) : Option Text :=
  let execution := segment.resolution.map (·.execution)
  let executableName := normalizeExecutableToken host
    (((execution.map (·.executableName)).or segment.argv.head?).getD [])
  if "-wrapper".toList.isSuffixOf executableName then
    trimmed? (some (executableName.take (executableName.length - "-wrapper".toList.length)))
  else none

/-- The skill that a segment runs, by what let it through. -/
def trustedSkillId (segment : ExecCommandSegment) :
    Option ExecSegmentSatisfiedBy → Option Text
  | some .skills =>
    let execution := segment.resolution.map (·.execution)
    (some (normalizeExecutableToken host
      (((execution.map (·.executableName)).or segment.argv.head?).getD []))).filter (· ≠ [])
  | some .allowlist => resolveAllowlistedSkillWrapperId host segment
  | _ => none

def resolveTrustedSkillExecutionIds (analysis : ExecCommandAnalysis)
    (evaluation : ExecAllowlistEvaluation Entry) : List Text :=
  if !evaluation.allowlistSatisfied then []
  else (analysis.segments.zip evaluation.segmentSatisfiedBy).filterMap fun entry =>
    trustedSkillId host entry.1 entry.2

-- ---
-- Shell commands
-- ---

structure ChainEvaluation (Entry : Type) where
  analysis : ExecCommandAnalysis
  evaluation : ExecAllowlistEvaluation Entry
  opToNext : Option ShellChainOperator

def evaluatePart (part : ShellChainPart) : Option (ChainEvaluation Entry) :=
  let analysis := analyzeShellCommand host context part.part
  if !analysis.ok then none
  else some ⟨analysis, evaluateExecAllowlist host context analysis, part.opToNext⟩

/-- Which parts are let through as preludes, and the skills that are reached from the first of
them on. -/
def scanPreludes : List (ChainEvaluation Entry) → List Bool × List Text
  | [] => ([], [])
  | ⟨analysis, evaluation, opToNext⟩ :: rest =>
    let (allowed, reachableSkillIds) := scanPreludes rest
    let trustedSkillIds := resolveTrustedSkillExecutionIds host analysis evaluation
    if trustedSkillIds ≠ [] then (false :: allowed, reachableSkillIds ++ trustedSkillIds)
    else
      let isPreludeOnly := !evaluation.allowlistSatisfied &&
        isSkillPreludeOnlyEvaluation host context analysis.segments
      let preludeSkillIds :=
        if isPreludeOnly then resolveSkillPreludeIds host context analysis.segments else []
      let reachesTrustedSkillExecution := opToNext = some .and &&
        (if preludeSkillIds = [] then reachableSkillIds ≠ []
          else preludeSkillIds.any reachableSkillIds.contains)
      if isPreludeOnly && reachesTrustedSkillExecution then (true :: allowed, reachableSkillIds)
      else (false :: allowed, [])

structure ExecAllowlistAnalysis (Entry : Type) where
  analysisOk : Bool
  allowlistSatisfied : Bool
  allowlistMatches : List Entry
  segments : List ExecCommandSegment
  segmentAllowlistEntries : List (Option Entry)
  segmentSatisfiedBy : List (Option ExecSegmentSatisfiedBy)

def analysisFailure : ExecAllowlistAnalysis Entry := ⟨false, false, [], [], [], []⟩

/-- The parts put together, up to the first that is not let through. -/
def joinParts : List (ChainEvaluation Entry) → List Bool → ExecAllowlistAnalysis Entry
  | ⟨analysis, evaluation, _⟩ :: rest, skillPrelude :: preludes =>
    let effectiveSegmentSatisfiedBy :=
      if skillPrelude then analysis.segments.map fun _ => some .skillPrelude
      else evaluation.segmentSatisfiedBy
    let effectiveSegmentAllowlistEntries :=
      if skillPrelude then analysis.segments.map fun _ => none
      else evaluation.segmentAllowlistEntries
    if !evaluation.allowlistSatisfied && !skillPrelude then
      ⟨true, false, evaluation.allowlistMatches, analysis.segments,
        effectiveSegmentAllowlistEntries, effectiveSegmentSatisfiedBy⟩
    else
      let joined := joinParts rest preludes
      { joined with
        allowlistMatches := evaluation.allowlistMatches ++ joined.allowlistMatches
        segments := analysis.segments ++ joined.segments
        segmentAllowlistEntries :=
          effectiveSegmentAllowlistEntries ++ joined.segmentAllowlistEntries
        segmentSatisfiedBy := effectiveSegmentSatisfiedBy ++ joined.segmentSatisfiedBy }
  | _, _ => ⟨true, true, [], [], [], []⟩

/-- The parts of a chain, with the operators between them; `none` where the command is no
chain. -/
def chainPartsOf (command : Text) : Option (List ShellChainPart) :=
  if isWindowsPlatform host context.platform then none
  else splitCommandChainWithOperators command

def evaluateShellAllowlist (command : Text) : ExecAllowlistAnalysis Entry :=
  if hasShellLineContinuation command then analysisFailure
  else
    match chainPartsOf host context command with
    | none =>
      let analysis := analyzeShellCommand host context command
      if !analysis.ok then analysisFailure
      else
        let evaluation := evaluateExecAllowlist host context analysis
        ⟨true, evaluation.allowlistSatisfied, evaluation.allowlistMatches, analysis.segments,
          evaluation.segmentAllowlistEntries, evaluation.segmentSatisfiedBy⟩
    | some chainParts =>
      match chainParts.mapM (evaluatePart host context) with
      | none => analysisFailure
      | some evaluations => joinParts evaluations (scanPreludes host context evaluations).1

end OpenClaw.Exec
