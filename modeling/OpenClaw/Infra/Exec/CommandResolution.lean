import OpenClaw.Infra.Exec.ShellWrapper

/-!
# The trust plan of an argv

The argv behind its dispatch wrappers and shell multiplexers. A plan that is not
blocked ends at a token that names neither.
-/

namespace OpenClaw.Exec

open Js

section Plan

variable (host : Host)

structure ExecWrapperTrustPlan where
  argv : List Text
  policyArgv : List Text
  wrapperChain : List Text
  policyBlocked : Bool
  blockedWrapper : Option Text
  shellWrapperExecutable : Bool
  shellInlineCommand : Option Text

def blockedExecWrapperTrustPlan (argv policyArgv wrapperChain : List Text) (blockedWrapper : Text) :
    ExecWrapperTrustPlan where
  argv
  policyArgv
  wrapperChain
  policyBlocked := true
  blockedWrapper := some blockedWrapper
  shellWrapperExecutable := false
  shellInlineCommand := none

def finalizeExecWrapperTrustPlan (argv policyArgv wrapperChain : List Text) : ExecWrapperTrustPlan :=
  let rawExecutable := trimChars (argv.head?.getD [])
  let shellWrapperExecutable := rawExecutable ≠ [] && isShellWrapperExecutable host rawExecutable
  { argv
    policyArgv
    wrapperChain
    policyBlocked := false
    blockedWrapper := none
    shellWrapperExecutable
    shellInlineCommand := if shellWrapperExecutable then extractShellWrapperInlineCommand host argv else none }

/-- Where the loop stands between two rounds. -/
structure UnwrapState where
  current : List Text
  policyArgv : List Text
  sawShellMultiplexer : Bool
  wrapperChain : List Text

/-- The end of the loop: at the depth limit nothing may be left to unwrap. -/
def endUnwrap (maxDepth : Nat) (state : UnwrapState) : ExecWrapperTrustPlan :=
  let blocked := blockedExecWrapperTrustPlan state.current state.policyArgv state.wrapperChain
  let final := finalizeExecWrapperTrustPlan host state.current state.policyArgv state.wrapperChain
  if maxDepth ≤ state.wrapperChain.length then
    match unwrapKnownDispatchWrapperInvocation host state.current with
    | .blocked wrapper => blocked wrapper
    | .unwrapped wrapper _ => blocked wrapper
    | .notWrapper =>
      match unwrapKnownShellMultiplexerInvocation host state.current with
      | .blocked wrapper => blocked wrapper
      | .unwrapped wrapper _ => blocked wrapper
      | .notWrapper => final
  else final

/-- The rounds that are left. -/
def unwrapRounds (maxDepth : Nat) : Nat → UnwrapState → ExecWrapperTrustPlan
  | 0, state => endUnwrap host maxDepth state
  | rounds + 1, state =>
    let dispatchPlan := resolveDispatchWrapperTrustPlan host state.current (maxDepth - state.wrapperChain.length)
    if dispatchPlan.policyBlocked then
      blockedExecWrapperTrustPlan dispatchPlan.argv dispatchPlan.argv state.wrapperChain
        ((dispatchPlan.blockedWrapper <|> state.current.head?).getD "unknown".toList)
    else if dispatchPlan.wrappers ≠ [] then
      let next : UnwrapState :=
        { state with
          current := dispatchPlan.argv
          policyArgv := if state.sawShellMultiplexer then state.policyArgv else dispatchPlan.argv
          wrapperChain := state.wrapperChain ++ dispatchPlan.wrappers }
      if maxDepth ≤ next.wrapperChain.length then endUnwrap host maxDepth next else unwrapRounds maxDepth rounds next
    else
      match unwrapKnownShellMultiplexerInvocation host state.current with
      | .blocked wrapper => blockedExecWrapperTrustPlan state.current state.policyArgv state.wrapperChain wrapper
      | .unwrapped wrapper argv =>
        let next : UnwrapState :=
          { current := argv
            policyArgv := if state.sawShellMultiplexer then state.policyArgv else state.current
            sawShellMultiplexer := true
            wrapperChain := state.wrapperChain ++ [wrapper] }
        if maxDepth ≤ next.wrapperChain.length then endUnwrap host maxDepth next else unwrapRounds maxDepth rounds next
      | .notWrapper => endUnwrap host maxDepth state

def resolveExecWrapperTrustPlan (argv : List Text) : ExecWrapperTrustPlan :=
  unwrapRounds host MAX_DISPATCH_WRAPPER_DEPTH MAX_DISPATCH_WRAPPER_DEPTH ⟨argv, argv, false, []⟩

end Plan

-- ---
-- Plans that are not blocked
-- ---

variable {host : Host}

/-- The plan of an argv that is not that of a dispatch wrapper. -/
def IsFinal (host : Host) (plan : ExecWrapperTrustPlan) : Prop :=
  plan = finalizeExecWrapperTrustPlan host plan.argv plan.policyArgv plan.wrapperChain ∧
    unwrapKnownDispatchWrapperInvocation host plan.argv = .notWrapper

theorem endUnwrap_isFinal (h : (endUnwrap host maxDepth state).policyBlocked = false)
    (hends : unwrapKnownDispatchWrapperInvocation host state.current = .notWrapper ∨ maxDepth ≤ state.wrapperChain.length) :
    IsFinal host (endUnwrap host maxDepth state) := by
  unfold endUnwrap at h ⊢
  dsimp only at h ⊢
  split at h
  case isTrue hfull =>
    rw [if_pos hfull]
    split at h
    · cases h
    · cases h
    case h_3 hnot =>
      split at h
      · cases h
      · cases h
      · exact ⟨rfl, hnot⟩
  case isFalse hfull =>
    rw [if_neg hfull]
    exact ⟨rfl, hends.resolve_right hfull⟩

theorem unwrapRounds_isFinal {state : UnwrapState} (h : (unwrapRounds host maxDepth rounds state).policyBlocked = false)
    (hrounds : maxDepth ≤ rounds + state.wrapperChain.length) : IsFinal host (unwrapRounds host maxDepth rounds state) := by
  induction rounds generalizing state with
  | zero => exact endUnwrap_isFinal h (.inr (by simpa using hrounds))
  | succ rounds ih =>
    unfold unwrapRounds at h ⊢
    dsimp only at h ⊢
    split at h
    · cases h
    case isFalse hdispatch =>
      rw [if_neg hdispatch]
      have hnot := resolveDispatchWrapperTrustPlan_notWrapper (Bool.eq_false_iff.2 hdispatch)
      split at h
      case isTrue hwrappers =>
        rw [if_pos hwrappers]
        have hpos := List.length_pos_iff.2 hwrappers
        split at h
        case isTrue hfull =>
          rw [if_pos hfull]
          exact endUnwrap_isFinal h (.inl hnot)
        case isFalse hleft =>
          rw [if_neg hleft]
          refine ih h ?_
          rw [List.length_append]
          omega
      case isFalse hwrappers =>
        rw [if_neg hwrappers]
        rw [resolveDispatchWrapperTrustPlan_argv (not_not.1 hwrappers)] at hnot
        split at h
        · cases h
        case h_2 wrapper argv hunwrap =>
          split at h
          case isTrue hfull =>
            rw [if_pos hfull]
            exact endUnwrap_isFinal h (.inr hfull)
          case isFalse hleft =>
            rw [if_neg hleft]
            refine ih h ?_
            rw [List.length_append, List.length_singleton]
            omega
        · exact endUnwrap_isFinal h (.inl hnot)

theorem resolveExecWrapperTrustPlan_isFinal (h : (resolveExecWrapperTrustPlan host argv).policyBlocked = false) :
    IsFinal host (resolveExecWrapperTrustPlan host argv) :=
  unwrapRounds_isFinal h (Nat.le_add_right _ _)

/-- The name under which the first token of an argv is recognised. -/
def commandName (host : Host) (argv : List Text) : Text := normalizeExecutableToken host (trimChars (argv.head?.getD []))

theorem normalizeExecutableToken_nil (host : Host) : normalizeExecutableToken host [] = [] :=
  normalizeExecutableToken_plain host (by decide)

theorem commandName_eq_nil (h : trimmed? argv.head? = none) : commandName host argv = [] := by
  have hblank : trimChars (argv.head?.getD []) = [] := by
    by_contra hne
    have hsome := trimmed?_eq_some.mpr ⟨hne, rfl⟩
    rw [h] at hsome
    cases hsome
  rw [commandName, hblank, normalizeExecutableToken_nil]

/-- Behind its wrappers an argv names no dispatch wrapper. -/
theorem IsFinal.commandName_notMem {plan : ExecWrapperTrustPlan} (h : IsFinal host plan) :
    commandName host plan.argv ∉ DISPATCH_WRAPPER_NAMES := by
  rcases not_dispatchWrapper h.2 with hnone | hnot
  · rw [commandName_eq_nil hnone]
    decide
  · intro hmem
    rw [isDispatchWrapperExecutable_iff.2 hmem] at hnot
    cases hnot

end OpenClaw.Exec

/-!
# Command resolution

The file that the first token of an argv stands for, behind its wrappers.
-/

namespace OpenClaw.Exec

open Js

variable (host : Host)

-- ---
-- The home directory
-- ---

/-- `normalize` of `home-dir.ts` -/
def normalizeHome (value : Option Text) : Option Text :=
  (trimmed? value).filter fun trimmed => trimmed ≠ "undefined".toList ∧ trimmed ≠ "null".toList

/-- A replacement text for a tilde at the start, with the patterns for a dollar, for the
match and for what stands before and behind it. -/
def expandReplacement (after : Text) : Text → Text
  | [] => []
  | [c] => [c]
  | c :: d :: rest =>
    if c ≠ '$' then c :: expandReplacement after (d :: rest)
    else if d = '$' then '$' :: expandReplacement after rest
    else if d = '&' then '~' :: expandReplacement after rest
    else if d.toNat = 96 then expandReplacement after rest
    else if d.toNat = 39 then after ++ expandReplacement after rest
    else c :: expandReplacement after (d :: rest)

/-- `input.replace(/^~(?=$|[\\/])/, home)` -/
def replaceTilde (input home : Text) : Text :=
  match input with
  | '~' :: rest => if rest.head?.all isWindowsSeparator then expandReplacement rest home ++ rest else input
  | _ => input

def resolveRawOsHomeDir (env : ProcessEnv) : Option Text :=
  normalizeHome (env "HOME".toList) <|> normalizeHome (env "USERPROFILE".toList) <|> normalizeHome host.homedir

def resolveRawHomeDir (env : ProcessEnv) : Option Text :=
  match normalizeHome (env "OPENCLAW_HOME".toList) with
  | none => resolveRawOsHomeDir host env
  | some explicitHome =>
    if explicitHome = "~".toList ∨ "~/".toList.isPrefixOf explicitHome ∨ "~\\".toList.isPrefixOf explicitHome then
      (resolveRawOsHomeDir host env).map (replaceTilde explicitHome)
    else some explicitHome

def resolveEffectiveHomeDir (env : ProcessEnv) : Option Text :=
  (resolveRawHomeDir host env).map (host.path.resolve host.cwd host.cwd)

def startsWithTilde (text : Text) : Bool := text.head? = some '~'

def expandHomePrefix (input : Text) (env : Option ProcessEnv) : Text :=
  if startsWithTilde input then
    match (resolveEffectiveHomeDir host (env.getD host.env)).filter (· ≠ []) with
    | none => input
    | some home => replaceTilde input home
  else input

-- ---
-- Executable paths
-- ---

def isDriveLessWindowsRootedPath (value : Text) : Bool :=
  host.platform = .win32 &&
    match value with
    | ':' :: c :: _ => isWindowsSeparator c
    | _ => false

def hasPathSeparator (value : Text) : Bool := value.any isWindowsSeparator

def resolveExecutablePathCandidate (rawExecutable : Text) (cwd : Option Text) (env : Option ProcessEnv)
    (requirePathSeparator : Bool) : Option Text :=
  let expanded := if startsWithTilde rawExecutable then expandHomePrefix host rawExecutable env else rawExecutable
  if isDriveLessWindowsRootedPath host expanded then none
  else if hasPathSeparator expanded then
    if host.path.isAbsolute expanded then some expanded
    else some (host.path.resolve host.cwd ((trimmed? cwd).getD host.cwd) expanded)
  else if requirePathSeparator then none
  else some expanded

/-- A variable that may be spelled in two ways, of the given environment or of the process. -/
def envValue (env : Option ProcessEnv) (name spelling : Text) : Option Text :=
  env.bind (· name) <|> env.bind (· spelling) <|> host.env name <|> host.env spelling

def pathExtensions (env : Option ProcessEnv) : List Text :=
  (((envValue host env "PATHEXT".toList "Pathext".toList).getD ".EXE;.CMD;.BAT;.COM".toList).splitOn ';').map
    host.lower.toLowerCase

def resolveWindowsExecutableExtensions (executable : Text) (env : Option ProcessEnv) : List Text :=
  if host.platform ≠ .win32 then [[]]
  else if 0 < (host.path.extname executable).length then [[]]
  else [] :: pathExtensions host env

def isExecutableFile (filePath : Text) : Bool :=
  host.isFile filePath &&
    if host.platform = .win32 then
      let ext := host.lower.toLowerCase (host.path.extname filePath)
      ext = [] || ((pathExtensions host none).filter (· ≠ [])).contains ext
    else host.isAccessible filePath

def resolveExecutableFromPathEnv (executable pathEnv : Text) (env : Option ProcessEnv) : Option Text :=
  let entries := (pathEnv.splitOn host.path.delimiter).filter (· ≠ [])
  let extensions := resolveWindowsExecutableExtensions host executable env
  (entries.flatMap fun entry => extensions.map fun ext => host.path.join entry (executable ++ ext)).find?
    (isExecutableFile host)

def resolveExecutablePath (rawExecutable : Text) (cwd : Option Text) (env : Option ProcessEnv) : Option Text :=
  match (resolveExecutablePathCandidate host rawExecutable cwd env false).filter (· ≠ []) with
  | none => none
  | some candidate =>
    if hasPathSeparator candidate then if isExecutableFile host candidate then some candidate else none
    else resolveExecutableFromPathEnv host candidate ((envValue host env "PATH".toList "Path".toList).getD []) env

-- ---
-- Resolutions
-- ---

structure ExecutableResolution where
  rawExecutable : Text
  resolvedPath : Option Text
  resolvedRealPath : Option Text
  executableName : Text

structure CommandResolution where
  execution : ExecutableResolution
  policy : ExecutableResolution
  effectiveArgv : Option (List Text)
  wrapperChain : Option (List Text)
  policyBlocked : Option Bool
  blockedWrapper : Option Text

structure ExecCommandSegment where
  raw : Text
  argv : List Text
  resolution : Option CommandResolution

def buildExecutableResolution (rawExecutable : Text) (cwd : Option Text) (env : Option ProcessEnv) :
    ExecutableResolution :=
  let resolvedPath := resolveExecutablePath host rawExecutable cwd env
  { rawExecutable
    resolvedPath
    resolvedRealPath := (resolvedPath.filter (· ≠ [])).bind host.realpath
    executableName := ((resolvedPath.filter (· ≠ [])).map host.path.basename).getD rawExecutable }

def resolveCommandResolutionFromArgv (argv : List Text) (cwd : Option Text) (env : Option ProcessEnv) :
    Option CommandResolution :=
  let plan := resolveExecWrapperTrustPlan host argv
  match trimmed? plan.argv.head? with
  | none => none
  | some rawExecutable =>
    let execution := buildExecutableResolution host rawExecutable cwd env
    some
      { execution
        policy :=
          match trimmed? plan.policyArgv.head? with
          | some policyRawExecutable => buildExecutableResolution host policyRawExecutable cwd env
          | none => execution
        effectiveArgv := some plan.argv
        wrapperChain := some plan.wrapperChain
        policyBlocked := some plan.policyBlocked
        blockedWrapper := plan.blockedWrapper }

def resolveExecutableCandidatePathFromResolution (resolution : Option ExecutableResolution) (cwd : Option Text) :
    Option Text :=
  match resolution with
  | none => none
  | some resolution =>
    match resolution.resolvedPath.filter (· ≠ []) with
    | some resolvedPath => some resolvedPath
    | none =>
      match trimmed? (some resolution.rawExecutable) with
      | none => none
      | some raw => resolveExecutablePathCandidate host raw cwd none true

def resolveExecutionTargetCandidatePath (resolution : Option CommandResolution) (cwd : Option Text) : Option Text :=
  resolveExecutableCandidatePathFromResolution host (resolution.map (·.execution)) cwd

end OpenClaw.Exec
