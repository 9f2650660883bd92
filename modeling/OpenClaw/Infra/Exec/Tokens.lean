import OpenClaw.Js.Path

/-!
# Executable tokens

The name under which an executable is recognised, and the inline command of a shell.
-/

namespace OpenClaw.Exec

open Js

/-- `NodeJS.Platform` -/
inductive Platform where
  | aix
  | android
  | cygwin
  | darwin
  | freebsd
  | haiku
  | linux
  | netbsd
  | openbsd
  | sunos
  | win32
  deriving DecidableEq

def Platform.text : Platform → Text
  | .aix => "aix".toList
  | .android => "android".toList
  | .cygwin => "cygwin".toList
  | .darwin => "darwin".toList
  | .freebsd => "freebsd".toList
  | .haiku => "haiku".toList
  | .linux => "linux".toList
  | .netbsd => "netbsd".toList
  | .openbsd => "openbsd".toList
  | .sunos => "sunos".toList
  | .win32 => "win32".toList

abbrev ProcessEnv := Text → Option Text

/-- What the process runs on. -/
structure Host where
  lower : LowerCase
  platform : Platform
  path : PathModule
  cwd : Text
  env : ProcessEnv
  /-- `os.homedir()`, where it does not throw. -/
  homedir : Option Text
  /-- `fs.statSync(path).isFile()` -/
  isFile : Text → Bool
  /-- `fs.accessSync(path, X_OK)` does not throw. -/
  isAccessible : Text → Bool
  realpath : Text → Option Text

variable (host : Host)

-- ---
-- Names
-- ---

def WINDOWS_EXECUTABLE_SUFFIXES : List Text := [".exe".toList, ".cmd".toList, ".bat".toList, ".com".toList]

def stripWindowsExecutableSuffix (value : Text) : Text :=
  match WINDOWS_EXECUTABLE_SUFFIXES.find? (·.isSuffixOf value) with
  | some suffix => value.take (value.length - suffix.length)
  | none => value

def basenameLower (token : Text) : Text :=
  let win := windowsBasename token
  let posix := posixBasename token
  host.lower.toLowerCase (trimChars (if textLength win < textLength posix then win else posix))

def normalizeExecutableToken (token : Text) : Text := stripWindowsExecutableSuffix (basenameLower host token)

/-- A name that is plain: no path, no suffix, and in lower case already. -/
def IsPlainName (name : Text) : Prop :=
  windowsBasename name = name ∧ posixBasename name = name ∧ trimChars name = name ∧ (name.all fun c => c.toNat < 128) ∧
    name.map Char.toLower = name ∧ stripWindowsExecutableSuffix name = name

instance : DecidablePred IsPlainName := fun _ => inferInstanceAs (Decidable (_ ∧ _))

theorem normalizeExecutableToken_plain {name : Text} (h : IsPlainName name) : normalizeExecutableToken host name = name := by
  obtain ⟨hwindows, hposix, htrim, hascii, hlower, hsuffix⟩ := h
  have hascii : ∀ c ∈ name, c.toNat < 128 := fun c hc => of_decide_eq_true (List.all_eq_true.1 hascii c hc)
  have hbase : basenameLower host name = name := by
    unfold basenameLower
    dsimp only
    rw [hwindows, hposix, ite_self, htrim, host.lower.ascii name hascii, hlower]
  rw [normalizeExecutableToken, hbase, hsuffix]

-- ---
-- Inline commands
-- ---

def POSIX_INLINE_COMMAND_FLAGS : List Text := ["-lc".toList, "-c".toList, "--command".toList]

def POWERSHELL_INLINE_COMMAND_FLAGS : List Text :=
  ["-c".toList, "-command".toList, "--command".toList, "-f".toList, "-file".toList, "-encodedcommand".toList,
    "-enc".toList, "-e".toList]

/-- `/^-[^-]*c[^-]*$/i`, for a letter `c`. -/
def isFlagCluster (c : Char) (token : Text) : Bool :=
  match token with
  | '-' :: flags => flags.all (· ≠ '-') && flags.any fun flag => flag = c || flag = c.toUpper
  | _ => false

structure InlineCommandMatch where
  command : Option Text
  valueTokenIndex : Option Nat

/-- The tokens from the one at `i` on. -/
def inlineCommandMatchFrom (flags : List Text) (allowCombinedC : Bool) (i : Nat) : List Text → InlineCommandMatch
  | [] => ⟨none, none⟩
  | raw :: rest =>
    let token := trimChars raw
    let lower := host.lower.toLowerCase token
    let next : InlineCommandMatch := ⟨trimmed? rest.head?, if rest = [] then none else some (i + 1)⟩
    if token = [] then inlineCommandMatchFrom flags allowCombinedC (i + 1) rest
    else if lower = "--".toList then ⟨none, none⟩
    else if lower ∈ flags then next
    else if allowCombinedC ∧ isFlagCluster 'c' token then
      match trimmed? (some (token.drop ((lower.idxOf? 'c').elim 0 (· + 1)))) with
      | some inline => ⟨some inline, some i⟩
      | none => next
    else inlineCommandMatchFrom flags allowCombinedC (i + 1) rest

def resolveInlineCommandMatch (argv flags : List Text) (allowCombinedC : Bool) : InlineCommandMatch :=
  inlineCommandMatchFrom host flags allowCombinedC 1 (argv.drop 1)

end OpenClaw.Exec
