import OpenClaw.Infra.Exec.DispatchWrapper
import OpenClaw.Infra.Exec.Tokens

/-!
# Shell wrappers

Shells, the multiplexers that run one as an applet, and the command a shell is given inline.
-/

namespace OpenClaw.Exec

open Js

variable (host : Host)

def POSIX_SHELL_WRAPPER_NAMES : List Text :=
  ["ash".toList, "bash".toList, "dash".toList, "fish".toList, "ksh".toList, "sh".toList, "zsh".toList]

def WINDOWS_CMD_WRAPPER_NAMES : List Text := ["cmd".toList]

def POWERSHELL_WRAPPER_NAMES : List Text := ["powershell".toList, "pwsh".toList]

def SHELL_MULTIPLEXER_WRAPPER_NAMES : List Text := ["busybox".toList, "toybox".toList]

def withWindowsExeAliases (names : List Text) : List Text := names.flatMap fun name => [name, name ++ ".exe".toList]

def POWERSHELL_WRAPPERS : List Text := withWindowsExeAliases POWERSHELL_WRAPPER_NAMES

inductive ShellWrapperKind where
  | posix
  | cmd
  | powershell
  deriving DecidableEq

structure ShellWrapperSpec where
  kind : ShellWrapperKind
  names : List Text

def SHELL_WRAPPER_SPECS : List ShellWrapperSpec :=
  [⟨.posix, POSIX_SHELL_WRAPPER_NAMES⟩, ⟨.cmd, WINDOWS_CMD_WRAPPER_NAMES⟩, ⟨.powershell, POWERSHELL_WRAPPER_NAMES⟩]

def SHELL_WRAPPER_CANONICAL : List Text :=
  POSIX_SHELL_WRAPPER_NAMES ++ WINDOWS_CMD_WRAPPER_NAMES ++ POWERSHELL_WRAPPER_NAMES

def isShellWrapperExecutable (token : Text) : Bool :=
  SHELL_WRAPPER_CANONICAL.contains (normalizeExecutableToken host token)

def findShellWrapperSpec (baseExecutable : Text) : Option ShellWrapperSpec :=
  SHELL_WRAPPER_SPECS.find? (·.names.contains baseExecutable)

def unwrapKnownShellMultiplexerInvocation (argv : List Text) : WrapperUnwrapResult :=
  match trimmed? argv.head? with
  | none => .notWrapper
  | some token0 =>
    let wrapper := normalizeExecutableToken host token0
    if wrapper ∉ SHELL_MULTIPLEXER_WRAPPER_NAMES then .notWrapper
    else
      let applets := if (argv[1]?).map trimChars = some "--".toList then argv.drop 2 else argv.drop 1
      match trimmed? applets.head? with
      | none => .blocked wrapper
      | some applet => if isShellWrapperExecutable host applet then .unwrapped wrapper applets else .blocked wrapper

def extractPosixShellInlineCommand (argv : List Text) : Option Text :=
  (resolveInlineCommandMatch host argv POSIX_INLINE_COMMAND_FLAGS true).command

def extractCmdInlineCommand (argv : List Text) : Option Text :=
  let rest := argv.dropWhile fun item =>
    host.lower.toLowerCase (trimChars item) ∉ ["/c".toList, "/k".toList]
  trimmed? (some (List.intercalate [' '] (rest.drop 1)))

def extractPowerShellInlineCommand (argv : List Text) : Option Text :=
  (resolveInlineCommandMatch host argv POWERSHELL_INLINE_COMMAND_FLAGS false).command

def extractShellWrapperPayload (argv : List Text) (spec : ShellWrapperSpec) : Option Text :=
  match spec.kind with
  | .posix => extractPosixShellInlineCommand host argv
  | .cmd => extractCmdInlineCommand host argv
  | .powershell => extractPowerShellInlineCommand host argv

/-- `extractShellWrapperCommandInternal`, without a raw command, at a depth that leaves `left`. -/
def extractShellWrapperCommandInternal : Nat → List Text → Option Text
  | 0, _ => none
  | left + 1, argv =>
    match trimmed? argv.head? with
    | none => none
    | some token0 =>
      match unwrapKnownDispatchWrapperInvocation host argv with
      | .blocked _ => none
      | .unwrapped _ argv => extractShellWrapperCommandInternal left argv
      | .notWrapper =>
        match unwrapKnownShellMultiplexerInvocation host argv with
        | .blocked _ => none
        | .unwrapped _ argv => extractShellWrapperCommandInternal left argv
        | .notWrapper => (findShellWrapperSpec (normalizeExecutableToken host token0)).bind (extractShellWrapperPayload host argv)

def extractShellWrapperInlineCommand (argv : List Text) : Option Text :=
  extractShellWrapperCommandInternal host (MAX_DISPATCH_WRAPPER_DEPTH + 1) argv

end OpenClaw.Exec

/-!
# Inline evaluation

Interpreters, by name, and the arguments with which one evaluates code that is given inline.
-/

namespace OpenClaw.Exec

open Js

structure PrefixFlagSpec where
  label : Text
  start : Text

structure InterpreterFlagSpec where
  names : List Text
  exactFlags : List Text
  rawExactFlags : List Text := []
  rawPrefixFlags : List PrefixFlagSpec := []
  prefixFlags : List PrefixFlagSpec := []
  scanPastDoubleDash : Bool := false

structure PositionalInterpreterSpec where
  names : List Text
  fileFlags : List Text := []
  fileFlagPrefixes : List Text := []
  exactValueFlags : List Text := []
  exactOptionalValueFlags : List Text := []
  prefixValueFlags : List Text := []
  flag : Text

def FLAG_INTERPRETER_INLINE_EVAL_SPECS : List InterpreterFlagSpec :=
  [{ names := ["python".toList, "python2".toList, "python3".toList, "pypy".toList, "pypy3".toList]
     exactFlags := ["-c".toList] },
    { names := ["node".toList, "nodejs".toList, "bun".toList, "deno".toList]
      exactFlags := ["-e".toList, "--eval".toList, "-p".toList, "--print".toList] },
    { names := ["awk".toList, "gawk".toList, "mawk".toList, "nawk".toList]
      exactFlags := ["-e".toList, "--source".toList]
      prefixFlags := [⟨"--source".toList, "--source=".toList⟩] },
    { names := ["ruby".toList], exactFlags := ["-e".toList] },
    { names := ["perl".toList], exactFlags := ["-e".toList, "-E".toList] },
    { names := ["php".toList], exactFlags := ["-r".toList] },
    { names := ["lua".toList], exactFlags := ["-e".toList] },
    { names := ["osascript".toList], exactFlags := ["-e".toList] },
    { names := ["find".toList]
      exactFlags := ["-exec".toList, "-execdir".toList, "-ok".toList, "-okdir".toList]
      scanPastDoubleDash := true },
    { names := ["make".toList, "gmake".toList]
      exactFlags := ["-f".toList, "--file".toList, "--makefile".toList, "--eval".toList]
      rawExactFlags := ["-E".toList]
      rawPrefixFlags := [⟨"-E".toList, "-E".toList⟩]
      prefixFlags :=
        [⟨"-f".toList, "-f".toList⟩, ⟨"--file".toList, "--file=".toList⟩, ⟨"--makefile".toList, "--makefile=".toList⟩,
          ⟨"--eval".toList, "--eval=".toList⟩] },
    { names := ["sed".toList, "gsed".toList]
      exactFlags := []
      rawExactFlags := ["-e".toList]
      rawPrefixFlags := [⟨"-e".toList, "-e".toList⟩] }]

def POSITIONAL_INTERPRETER_INLINE_EVAL_SPECS : List PositionalInterpreterSpec :=
  [{ names := ["awk".toList, "gawk".toList, "mawk".toList, "nawk".toList]
     fileFlags := ["-f".toList, "--file".toList]
     fileFlagPrefixes := ["-f".toList, "--file=".toList]
     exactValueFlags :=
       ["-f".toList, "--file".toList, "-F".toList, "--field-separator".toList, "-v".toList, "--assign".toList,
         "-i".toList, "--include".toList, "-l".toList, "--load".toList, "-W".toList]
     prefixValueFlags :=
       ["-F".toList, "--field-separator=".toList, "-v".toList, "--assign=".toList, "--include=".toList,
         "--load=".toList]
     flag := "<program>".toList },
    { names := ["xargs".toList]
      exactValueFlags :=
        ["-a".toList, "--arg-file".toList, "-d".toList, "--delimiter".toList, "-E".toList, "-I".toList, "-L".toList,
          "--max-lines".toList, "-n".toList, "--max-args".toList, "-P".toList, "--max-procs".toList, "-s".toList,
          "--max-chars".toList]
      exactOptionalValueFlags := ["--eof".toList, "--replace".toList]
      prefixValueFlags :=
        ["-a".toList, "--arg-file=".toList, "-d".toList, "--delimiter=".toList, "-E".toList, "--eof=".toList,
          "-I".toList, "--replace=".toList, "-i".toList, "-L".toList, "--max-lines=".toList, "-l".toList, "-n".toList,
          "--max-args=".toList, "-P".toList, "--max-procs=".toList, "-s".toList, "--max-chars=".toList]
      flag := "<command>".toList },
    { names := ["sed".toList, "gsed".toList]
      fileFlags := ["-f".toList, "--file".toList]
      fileFlagPrefixes := ["-f".toList, "--file=".toList]
      exactValueFlags := ["-f".toList, "--file".toList, "-l".toList, "--line-length".toList]
      exactOptionalValueFlags := ["-i".toList, "--in-place".toList]
      prefixValueFlags := ["-f".toList, "--file=".toList, "--in-place=".toList, "--line-length=".toList]
      flag := "<program>".toList }]

def INTERPRETER_ALLOWLIST_NAMES : List Text :=
  FLAG_INTERPRETER_INLINE_EVAL_SPECS.flatMap (·.names) ++ POSITIONAL_INTERPRETER_INLINE_EVAL_SPECS.flatMap (·.names)

section Detection

variable (host : Host)

def isInterpreterLikeAllowlistPattern (pattern : Text) : Bool :=
  let trimmed := host.lower.toLowerCase (trimChars pattern)
  let basename := trimmed.rtakeWhile fun c => !isWindowsSeparator c
  let withoutExe := if ".exe".toList.isSuffixOf basename then basename.take (basename.length - 4) else basename
  let strippedWildcards := withoutExe.filter fun c => !"*?[]\x7b\x7d()".toList.contains c
  trimmed ≠ [] &&
    (INTERPRETER_ALLOWLIST_NAMES.contains (normalizeExecutableToken host trimmed) ||
      INTERPRETER_ALLOWLIST_NAMES.contains strippedWildcards)

end Detection

end OpenClaw.Exec
