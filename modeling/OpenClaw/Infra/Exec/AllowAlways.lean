import OpenClaw.Infra.Exec.CommandResolution
import OpenClaw.Infra.Exec.ShellWrapper

/-!
# Allow always

The patterns that an "allow always" decision persists: for a wrapped command those of
the executables behind the wrapper.
-/

namespace OpenClaw.Exec

open Js

variable (host : Host)

-- ---
-- Shell scripts
-- ---

/-- A name of the segment's executable meets the predicate. -/
def hasSegmentExecutableMatch (segment : ExecCommandSegment) (predicate : Text → Bool) : Bool :=
  let execution := segment.resolution.map (·.execution)
  [execution.map (·.executableName), execution.map (·.rawExecutable), segment.argv.head?].any fun candidate =>
    (trimmed? candidate).any predicate

def isShellWrapperSegment (segment : ExecCommandSegment) : Bool :=
  hasSegmentExecutableMatch segment (isShellWrapperExecutable host)

def SHELL_WRAPPER_OPTIONS_WITH_VALUE : List Text :=
  ["-c".toList, "--command".toList, "-o".toList, "-O".toList, "+O".toList]

def SHELL_WRAPPER_DISQUALIFYING_SCRIPT_OPTIONS : List Text :=
  ["--rcfile".toList, "--init-file".toList, "--startup-file".toList]

def hasDisqualifyingShellWrapperScriptOption (token : Text) : Bool :=
  SHELL_WRAPPER_DISQUALIFYING_SCRIPT_OPTIONS.any fun option =>
    token = option || (option ++ ['=']).isPrefixOf token

/-- The names of `POWERSHELL_OPTIONS_WITH_VALUE_RE`. -/
def POWERSHELL_OPTIONS_WITH_VALUE : List Text :=
  ["executionpolicy".toList, "ep".toList, "windowstyle".toList, "w".toList, "workingdirectory".toList, "wd".toList,
    "inputformat".toList, "outputformat".toList, "settingsfile".toList, "configurationfile".toList, "version".toList,
    "v".toList, "psconsolefile".toList, "pscf".toList, "encodedcommand".toList, "en".toList, "enc".toList,
    "encodedarguments".toList, "ea".toList]

def isPowerShellOptionWithValue : Text → Bool
  | '-' :: name => POWERSHELL_OPTIONS_WITH_VALUE.contains (name.map Char.toLower)
  | _ => false

/-- The arguments from the script on; `none` where the shell is not given one. -/
def scriptArguments (isPowerShell : Bool) : Bool → List Text → Option (List Text)
  | _, [] => some []
  | true, _ :: rest => scriptArguments isPowerShell false rest
  | false, raw :: rest =>
    let token := trimChars raw
    if token = [] then scriptArguments isPowerShell false rest
    else if token = "--".toList then some rest
    else if token = "-c".toList ∨ token = "--command".toList then none
    else if !isPowerShell && isFlagCluster 'c' token then none
    else if token = "-s".toList || (!isPowerShell && isFlagCluster 's' token) then none
    else if hasDisqualifyingShellWrapperScriptOption token then none
    else if token ∈ SHELL_WRAPPER_OPTIONS_WITH_VALUE then scriptArguments isPowerShell true rest
    else if isPowerShell && isPowerShellOptionWithValue token then scriptArguments isPowerShell true rest
    else if token.head? = some '-' ∨ token.head? = some '+' then scriptArguments isPowerShell false rest
    else some (raw :: rest)

def resolveShellWrapperScriptCandidatePath (segment : ExecCommandSegment) (cwd : Option Text) : Option Text :=
  if !isShellWrapperSegment host segment || segment.argv.length < 2 then none
  else
    let wrapperName := normalizeExecutableToken host (segment.argv.head?.getD [])
    let isPowerShell := POWERSHELL_WRAPPERS.contains wrapperName
    match (scriptArguments isPowerShell false (segment.argv.drop 1)).bind fun arguments => trimmed? arguments.head? with
    | none => none
    | some scriptToken =>
      if host.path.isAbsolute scriptToken then some scriptToken
      else
        let expanded := if startsWithTilde scriptToken then expandHomePrefix host scriptToken none else scriptToken
        some (host.path.resolve host.cwd ((cwd.filter fun cwd => trimChars cwd ≠ []).getD host.cwd) expanded)

-- ---
-- Positional carriers
-- ---

/-- `/[^\S\r\n]/` -/
def isShellWhitespace (c : Char) : Bool := isSpace c && c ≠ '\r' && c ≠ '\n'

/-- A parameter as `$n` or in braces, quoted or not. -/
def isPositionalParameter (names : List Char) (word : Text) : Bool :=
  let forms := names.flatMap fun name => [['$', name], "$\x7b".toList ++ name :: "\x7d".toList]
  forms.contains word || (forms.map fun form => '\x22' :: form ++ ['\x22']).contains word

def isDirectShellPositionalCarrierInvocation (command : Text) : Bool :=
  let words := ((trimChars command).splitOnP isShellWhitespace).filter (· ≠ [])
  let invocation :=
    match words with
    | word :: rest =>
      if word = "exec".toList then if rest.head? = some "--".toList then rest.drop 1 else rest else words
    | [] => []
  match invocation with
  | [] => false
  | word :: rest => isPositionalParameter ['0'] word && rest.all (isPositionalParameter "@*123456789".toList)

def POSITIONAL_CARRIER_SHELLS : List Text :=
  ["ash".toList, "bash".toList, "dash".toList, "fish".toList, "ksh".toList, "sh".toList, "zsh".toList]

/-- The executable that a shell is given behind its inline command, which does nothing but run it. -/
def carriedExecutable? (segment : ExecCommandSegment) : Option Text :=
  if !isShellWrapperSegment host segment || segment.argv.length < 4 then none
  else if normalizeExecutableToken host (segment.argv.head?.getD []) ∉ POSITIONAL_CARRIER_SHELLS then none
  else
    let inlineMatch := resolveInlineCommandMatch host segment.argv POSIX_INLINE_COMMAND_FLAGS true
    match inlineMatch.valueTokenIndex, inlineMatch.command with
    | some valueTokenIndex, some command =>
      if isDirectShellPositionalCarrierInvocation command then
        ((segment.argv.drop (valueTokenIndex + 1)).map trimChars).find? (0 < ·.length)
      else none
    | _, _ => none

def resolveShellWrapperPositionalArgvCandidatePath (segment : ExecCommandSegment) (cwd : Option Text)
    (env : Option ProcessEnv) : Option Text :=
  match carriedExecutable? host segment with
  | none => none
  | some carriedExecutable =>
    let carriedName := normalizeExecutableToken host carriedExecutable
    if isDispatchWrapperExecutable host carriedName || isShellWrapperExecutable host carriedName then none
    else
      resolveExecutionTargetCandidatePath host (resolveCommandResolutionFromArgv host [carriedExecutable] cwd env) cwd

-- ---
-- Patterns
-- ---

def escapeRegExpLiteral (input : Text) : Text :=
  input.flatMap fun c => if ".*+?^$\x7b\x7d()|[]\\".toList.contains c then ['\\', c] else [c]

def isWindowsPlatform (platform : Option Text) : Bool :=
  "win".toList.isPrefixOf (host.lower.toLowerCase (trimChars (platform.getD [])))

/-- `arg.replace(/\//g, "\\")` -/
def backslashed (arg : Text) : Text := arg.map fun c => if c = '/' then '\\' else c

def NUL : Char := Char.ofNat 0

def buildArgPatternFromArgv (argv : List Text) (platform : Option Text) : Option Text :=
  if isWindowsPlatform host (some (platform.getD host.platform.text)) then
    let args := argv.drop 1
    if args = [] then some ['^', NUL, NUL, '$']
    else some ('^' :: escapeRegExpLiteral (List.intercalate [NUL] (args.map backslashed)) ++ [NUL, '$'])
  else none

structure CollectParams where
  cwd : Option Text
  env : Option ProcessEnv
  platform : Option Text
  strictInlineEval : Bool
  /-- The segments of `analyzeShellCommand`, where it is `ok`. -/
  analyzeShellCommand : Text → Option (List ExecCommandSegment)

/-- What is persisted for a segment. -/
inductive SegmentPick where
  | nothing
  | executable (argv : List Text) (candidatePath : Text)
  | carried (executable : Text) (positionalArgvPath : Text)
  | script (scriptPath : Text)
  | inline (command : Text)

end OpenClaw.Exec

/-!
# Launchers are not persisted

A persisted launcher lets any later command through. The picks of a direct command keep
launchers out by the name of the command, the picks of a carried executable and of a script
only in part.
-/

namespace OpenClaw.Exec

open Js

/-- The path is that of a shell or of a dispatch wrapper. -/
def IsLauncher (host : Host) (path : Text) : Prop :=
  isShellWrapperExecutable host path ∨ isDispatchWrapperExecutable host path

/-- An executable that a pattern may let through, whatever it is run with. -/
def Persistable (host : Host) (strictInlineEval : Bool) (path : Text) : Prop :=
  ¬ IsLauncher host path ∧ (strictInlineEval = false → isInterpreterLikeAllowlistPattern host path = false)

/-- The path has the name of the executable that was asked for, or at least none of a launcher. -/
def KeepsName (host : Host) (path name : Text) : Prop :=
  normalizeExecutableToken host path = name ∨ ¬ IsLauncher host path

/-- What a pick must meet on top of what the code checks: a direct command is resolved
under its own name, a carried executable is no interpreter either, and a script is neither
a launcher nor an interpreter. -/
def SegmentPick.Sound (host : Host) (strictInlineEval : Bool) : SegmentPick → Prop
  | .nothing => True
  | .executable argv candidatePath => KeepsName host candidatePath (commandName host argv)
  | .carried carriedExecutable positionalArgvPath =>
    KeepsName host positionalArgvPath (normalizeExecutableToken host carriedExecutable) ∧
      (strictInlineEval = false → isInterpreterLikeAllowlistPattern host positionalArgvPath = false)
  | .script scriptPath => Persistable host strictInlineEval scriptPath
  | .inline _ => True

variable {host : Host} {params : CollectParams}

-- ---
-- Names
-- ---

variable {P : Text → Prop}

def sampleHost : Host where
  lower := .simple
  platform := .linux
  path := .posix
  cwd := "/work".toList
  env name := if name = "PATH".toList then some "/usr/bin:/bin".toList else none
  homedir := some "/home/user".toList
  isFile path := path = "/usr/bin/python3".toList || path = "/bin/sh".toList
  isAccessible _ := true
  realpath path := some path

def sampleParams : CollectParams where
  cwd := none
  env := none
  platform := none
  strictInlineEval := false
  analyzeShellCommand _ := none

end OpenClaw.Exec
