import OpenClaw.Infra.Exec.Tokens

/-!
# Dispatch wrappers

Executables that run another command, how the command is found behind them, and the
plan of unwrapping them, which ends at a token that names none.
-/

namespace OpenClaw.Exec

open Js

variable (host : Host)

-- ---
-- Options
-- ---

def MAX_DISPATCH_WRAPPER_DEPTH : Nat := 4

def ENV_OPTIONS_WITH_VALUE : List Text :=
  ["-u".toList, "--unset".toList, "-c".toList, "--chdir".toList, "-s".toList, "--split-string".toList,
    "--default-signal".toList, "--ignore-signal".toList, "--block-signal".toList]

def ENV_INLINE_VALUE_PREFIXES : List Text :=
  ["-u".toList, "-c".toList, "-s".toList, "--unset=".toList, "--chdir=".toList, "--split-string=".toList,
    "--default-signal=".toList, "--ignore-signal=".toList, "--block-signal=".toList]

def ENV_FLAG_OPTIONS : List Text := ["-i".toList, "--ignore-environment".toList, "-0".toList, "--null".toList]

def NICE_OPTIONS_WITH_VALUE : List Text := ["-n".toList, "--adjustment".toList, "--priority".toList]

def CAFFEINATE_OPTIONS_WITH_VALUE : List Text := ["-t".toList, "-w".toList]

def STDBUF_OPTIONS_WITH_VALUE : List Text :=
  ["-i".toList, "--input".toList, "-o".toList, "--output".toList, "-e".toList, "--error".toList]

def TIME_FLAG_OPTIONS : List Text :=
  ["-a".toList, "--append".toList, "-h".toList, "--help".toList, "-l".toList, "-p".toList, "-q".toList,
    "--quiet".toList, "-v".toList, "--verbose".toList, "-V".toList, "--version".toList]

def TIME_OPTIONS_WITH_VALUE : List Text := ["-f".toList, "--format".toList, "-o".toList, "--output".toList]

def BSD_SCRIPT_FLAG_OPTIONS : List Text :=
  ["-a".toList, "-d".toList, "-k".toList, "-p".toList, "-q".toList, "-r".toList]

def BSD_SCRIPT_OPTIONS_WITH_VALUE : List Text := ["-F".toList, "-t".toList]

def SANDBOX_EXEC_OPTIONS_WITH_VALUE : List Text := ["-f".toList, "-p".toList, "-d".toList]

def TIMEOUT_FLAG_OPTIONS : List Text :=
  ["--foreground".toList, "--preserve-status".toList, "-v".toList, "--verbose".toList]

def TIMEOUT_OPTIONS_WITH_VALUE : List Text :=
  ["-k".toList, "--kill-after".toList, "-s".toList, "--signal".toList]

def XCRUN_FLAG_OPTIONS : List Text :=
  ["-k".toList, "--kill-cache".toList, "-l".toList, "--log".toList, "-n".toList, "--no-cache".toList, "-r".toList,
    "--run".toList, "-v".toList, "--verbose".toList]

/-- `/[A-Za-z0-9_]/` -/
def isWordChar (c : Char) : Bool := c.isAlphanum || c = '_'

/-- `/^-[A-Za-z0-9_]+$/` -/
def isArchSelectorToken : Text → Bool
  | '-' :: name => name ≠ [] && name.all isWordChar
  | _ => false

def isKnownArchSelectorToken (token : Text) : Bool :=
  ["-arm64".toList, "-arm64e".toList, "-i386".toList, "-x86_64".toList, "-x86_64h".toList].contains token

def isKnownArchNameToken (token : Text) : Bool := isKnownArchSelectorToken ('-' :: token)

/-- `/^[A-Za-z_][A-Za-z0-9_]*=.*/` -/
def isEnvAssignment (token : Text) : Bool :=
  match token.span isWordChar with
  | (c :: _, '=' :: _) => c.isAlpha || c = '_'
  | _ => false

def hasEnvInlineValuePrefix (lower : Text) : Bool := ENV_INLINE_VALUE_PREFIXES.any (·.isPrefixOf lower)

/-- `/^-\d+$/` -/
def isDashNumber : Text → Bool
  | '-' :: digits => digits ≠ [] && digits.all Char.isDigit
  | _ => false

/-- `token.split("=", 2)[0]` -/
def optionFlag (token : Text) : Text := token.takeWhile (· ≠ '=')

def isDash (token : Text) : Bool := token = ['-']

def startsWithDash (token : Text) : Bool := token.head? = some '-'

-- ---
-- Scanning
-- ---

inductive WrapperScanDirective where
  | proceed
  | consumeNext
  | stop
  | invalid

/-- The arguments where the scan stops, with what `onToken` remembers. -/
def scanFrom (separators : List Text) (onToken : σ → Text → Text → WrapperScanDirective × σ) :
    σ → Bool → List Text → Option (List Text)
  | _, expectsOptionValue, [] => if expectsOptionValue then none else some []
  | state, expectsOptionValue, raw :: rest =>
    let token := trimChars raw
    if token = [] then scanFrom separators onToken state expectsOptionValue rest
    else if expectsOptionValue then scanFrom separators onToken state false rest
    else if token ∈ separators then some rest
    else
      match onToken state token (host.lower.toLowerCase token) with
      | (.stop, _) => some (raw :: rest)
      | (.invalid, _) => none
      | (.consumeNext, state) => scanFrom separators onToken state true rest
      | (.proceed, state) => scanFrom separators onToken state false rest

def scanWrapperInvocation (argv separators : List Text) (state : σ)
    (onToken : σ → Text → Text → WrapperScanDirective × σ)
    (adjustCommandIndex : List Text → Option (List Text)) : Option (List Text) :=
  ((scanFrom host separators onToken state false (argv.drop 1)).bind adjustCommandIndex).filter (· ≠ [])

/-- A scan that remembers nothing. -/
def scanPlain (argv separators : List Text) (onToken : Text → Text → WrapperScanDirective) : Option (List Text) :=
  scanWrapperInvocation host argv separators () (fun _ token lower => (onToken token lower, ())) some

def unwrapEnvInvocation (argv : List Text) : Option (List Text) :=
  scanPlain host argv ["--".toList, "-".toList] fun token lower =>
    if isEnvAssignment token then .proceed
    else if !startsWithDash token || isDash token then .stop
    else if optionFlag lower ∈ ENV_FLAG_OPTIONS then .proceed
    else if optionFlag lower ∈ ENV_OPTIONS_WITH_VALUE then if '=' ∈ lower then .proceed else .consumeNext
    else if hasEnvInlineValuePrefix lower then .proceed
    else .invalid

def envModifiersFrom : Bool → List Text → Bool
  | _, [] => false
  | expectsOptionValue, raw :: rest =>
    let token := trimChars raw
    let lower := host.lower.toLowerCase token
    if token = [] then envModifiersFrom expectsOptionValue rest
    else if expectsOptionValue then true
    else if token = "--".toList ∨ token = "-".toList then false
    else if isEnvAssignment token then true
    else if !startsWithDash token || isDash token then false
    else if optionFlag lower ∈ ENV_FLAG_OPTIONS then true
    else if optionFlag lower ∈ ENV_OPTIONS_WITH_VALUE then
      if '=' ∈ lower then true else envModifiersFrom true rest
    else true

def envInvocationUsesModifiers (argv : List Text) : Bool := envModifiersFrom host false (argv.drop 1)

def unwrapDashOptionInvocation (argv : List Text) (onFlag : Text → Text → WrapperScanDirective)
    (adjustCommandIndex : List Text → Option (List Text) := some) : Option (List Text) :=
  scanWrapperInvocation host argv ["--".toList] () (fun _ token lower =>
    (if !startsWithDash token || isDash token then .stop else onFlag (optionFlag lower) lower, ())) adjustCommandIndex

/-- Options with a value, which may stand behind an equals sign. -/
def valueOption (lower : Text) : WrapperScanDirective := if '=' ∈ lower then .proceed else .consumeNext

def unwrapNiceInvocation (argv : List Text) : Option (List Text) :=
  unwrapDashOptionInvocation host argv fun flag lower =>
    if isDashNumber lower then .proceed
    else if flag ∈ NICE_OPTIONS_WITH_VALUE then if '=' ∈ lower ∨ lower ≠ flag then .proceed else .consumeNext
    else if "-n".toList.isPrefixOf lower ∧ 2 < lower.length then .proceed
    else .invalid

def unwrapCaffeinateInvocation (argv : List Text) : Option (List Text) :=
  unwrapDashOptionInvocation host argv fun flag lower =>
    if flag ∈ ["-d".toList, "-i".toList, "-m".toList, "-s".toList, "-u".toList] then .proceed
    else if flag ∈ CAFFEINATE_OPTIONS_WITH_VALUE then if lower ≠ flag ∨ '=' ∈ lower then .proceed else .consumeNext
    else .invalid

def unwrapNohupInvocation (argv : List Text) : Option (List Text) :=
  scanPlain host argv ["--".toList] fun token lower =>
    if !startsWithDash token || isDash token then .stop
    else if lower = "--help".toList ∨ lower = "--version".toList then .proceed
    else .invalid

def unwrapSandboxExecInvocation (argv : List Text) : Option (List Text) :=
  unwrapDashOptionInvocation host argv fun flag lower =>
    if flag ∈ SANDBOX_EXEC_OPTIONS_WITH_VALUE then if lower ≠ flag ∨ '=' ∈ lower then .proceed else .consumeNext
    else .invalid

def unwrapStdbufInvocation (argv : List Text) : Option (List Text) :=
  unwrapDashOptionInvocation host argv fun flag lower =>
    if flag ∉ STDBUF_OPTIONS_WITH_VALUE then .invalid else valueOption lower

def unwrapTimeInvocation (argv : List Text) : Option (List Text) :=
  unwrapDashOptionInvocation host argv fun flag lower =>
    if flag ∈ TIME_FLAG_OPTIONS then .proceed
    else if flag ∈ TIME_OPTIONS_WITH_VALUE then valueOption lower
    else .invalid

def supportsScriptPositionalCommand : Bool := host.platform = .darwin || host.platform = .freebsd

/-- The arguments behind the first that is not blank, from the next that is not blank on. -/
def afterTranscript : Bool → List Text → Option (List Text)
  | _, [] => none
  | sawTranscript, raw :: rest =>
    if trimChars raw = [] then afterTranscript sawTranscript rest
    else if sawTranscript then some (raw :: rest)
    else afterTranscript true rest

def unwrapScriptInvocation (argv : List Text) : Option (List Text) :=
  if supportsScriptPositionalCommand host then
    scanWrapperInvocation host argv ["--".toList] () (fun _ token lower =>
      (if !startsWithDash lower || isDash lower then .stop
        else if optionFlag token ∈ BSD_SCRIPT_OPTIONS_WITH_VALUE then valueOption token
        else if optionFlag token ∈ BSD_SCRIPT_FLAG_OPTIONS then .proceed
        else .invalid, ())) (afterTranscript false)
  else none

def unwrapTimeoutInvocation (argv : List Text) : Option (List Text) :=
  unwrapDashOptionInvocation host argv (fun flag lower =>
    if flag ∈ TIMEOUT_FLAG_OPTIONS then .proceed
    else if flag ∈ TIMEOUT_OPTIONS_WITH_VALUE then valueOption lower
    else .invalid) fun command => if 1 < command.length then some (command.drop 1) else none

/-- The state says whether the name of an architecture is next. -/
def unwrapArchInvocation (argv : List Text) : Option (List Text) :=
  scanWrapperInvocation host argv [] false (fun expectsArchName token lower =>
    if expectsArchName then (if isKnownArchNameToken lower then .proceed else .invalid, false)
    else if !startsWithDash token || isDash token then (.stop, false)
    else if lower = "-32".toList ∨ lower = "-64".toList then (.proceed, false)
    else if lower = "-arch".toList then (.proceed, true)
    else if lower ∈ ["-c".toList, "-d".toList, "-e".toList, "-h".toList] then (.invalid, false)
    else (if isArchSelectorToken token && isKnownArchSelectorToken lower then .proceed else .invalid, false)) some

def supportsArchDispatchWrapper : Bool := host.platform = .darwin

def supportsXcrunDispatchWrapper : Bool := host.platform = .darwin

def unwrapXcrunInvocation (argv : List Text) : Option (List Text) :=
  scanPlain host argv [] fun token lower =>
    if !startsWithDash token || isDash token then .stop
    else if lower ∈ XCRUN_FLAG_OPTIONS then .proceed
    else .invalid

-- ---
-- The wrappers
-- ---

structure DispatchWrapperSpec where
  name : Text
  unwrap : Option (List Text → Option (List Text)) := none
  transparentUsage : List Text → Bool := fun _ => false

def DISPATCH_WRAPPER_SPECS : List DispatchWrapperSpec :=
  [{ name := "arch".toList
     unwrap := some fun argv => if supportsArchDispatchWrapper host then unwrapArchInvocation host argv else none
     transparentUsage := fun _ => supportsArchDispatchWrapper host },
    { name := "caffeinate".toList, unwrap := some (unwrapCaffeinateInvocation host), transparentUsage := fun _ => true },
    { name := "chrt".toList },
    { name := "doas".toList },
    { name := "env".toList
      unwrap := some (unwrapEnvInvocation host)
      transparentUsage := fun argv => !envInvocationUsesModifiers host argv },
    { name := "ionice".toList },
    { name := "nice".toList, unwrap := some (unwrapNiceInvocation host), transparentUsage := fun _ => true },
    { name := "nohup".toList, unwrap := some (unwrapNohupInvocation host), transparentUsage := fun _ => true },
    { name := "sandbox-exec".toList, unwrap := some (unwrapSandboxExecInvocation host), transparentUsage := fun _ => true },
    { name := "script".toList, unwrap := some (unwrapScriptInvocation host), transparentUsage := fun _ => true },
    { name := "setsid".toList },
    { name := "stdbuf".toList, unwrap := some (unwrapStdbufInvocation host), transparentUsage := fun _ => true },
    { name := "sudo".toList },
    { name := "taskset".toList },
    { name := "time".toList, unwrap := some (unwrapTimeInvocation host), transparentUsage := fun _ => true },
    { name := "timeout".toList, unwrap := some (unwrapTimeoutInvocation host), transparentUsage := fun _ => true },
    { name := "xcrun".toList
      unwrap := some fun argv => if supportsXcrunDispatchWrapper host then unwrapXcrunInvocation host argv else none
      transparentUsage := fun _ => supportsXcrunDispatchWrapper host }]

def dispatchWrapperSpec (wrapper : Text) : Option DispatchWrapperSpec :=
  (DISPATCH_WRAPPER_SPECS host).find? (·.name = wrapper)

inductive WrapperUnwrapResult where
  | notWrapper
  | blocked (wrapper : Text)
  | unwrapped (wrapper : Text) (argv : List Text)

def unwrapDispatchWrapper (wrapper : Text) (unwrapped : Option (List Text)) : WrapperUnwrapResult :=
  match unwrapped with
  | some argv => .unwrapped wrapper argv
  | none => .blocked wrapper

def isDispatchWrapperExecutable (token : Text) : Bool :=
  (dispatchWrapperSpec host (normalizeExecutableToken host token)).isSome

def unwrapKnownDispatchWrapperInvocation (argv : List Text) : WrapperUnwrapResult :=
  match trimmed? argv.head? with
  | none => .notWrapper
  | some token0 =>
    let wrapper := normalizeExecutableToken host token0
    match dispatchWrapperSpec host wrapper with
    | none => .notWrapper
    | some spec =>
      match spec.unwrap with
      | some unwrap => unwrapDispatchWrapper wrapper (unwrap argv)
      | none => .blocked wrapper

def isSemanticDispatchWrapperUsage (wrapper : Text) (argv : List Text) : Bool :=
  match dispatchWrapperSpec host wrapper with
  | none => true
  | some spec => spec.unwrap.isNone || !spec.transparentUsage argv

structure DispatchWrapperTrustPlan where
  argv : List Text
  wrappers : List Text
  policyBlocked : Bool
  blockedWrapper : Option Text := none

/-- The wrappers behind `wrappers`, at most `depth` of them; whether the argv was still
one of a wrapper there is left to the caller. -/
def unwrapDispatchFrom : Nat → List Text → List Text → DispatchWrapperTrustPlan
  | 0, current, wrappers => ⟨current, wrappers, false, none⟩
  | depth + 1, current, wrappers =>
    match unwrapKnownDispatchWrapperInvocation host current with
    | .blocked wrapper => ⟨current, wrappers, true, some wrapper⟩
    | .notWrapper => ⟨current, wrappers, false, none⟩
    | .unwrapped wrapper argv =>
      if argv = [] then ⟨current, wrappers, false, none⟩
      else if isSemanticDispatchWrapperUsage host wrapper current then ⟨current, wrappers ++ [wrapper], true, some wrapper⟩
      else unwrapDispatchFrom depth argv (wrappers ++ [wrapper])

def resolveDispatchWrapperTrustPlan (argv : List Text) (maxDepth : Nat) : DispatchWrapperTrustPlan :=
  let plan := unwrapDispatchFrom host maxDepth argv []
  if !plan.policyBlocked && maxDepth ≤ plan.wrappers.length then
    match unwrapKnownDispatchWrapperInvocation host plan.argv with
    | .blocked wrapper => { plan with policyBlocked := true, blockedWrapper := some wrapper }
    | .unwrapped wrapper _ => { plan with policyBlocked := true, blockedWrapper := some wrapper }
    | .notWrapper => plan
  else plan

-- ---
-- Where the unwrapping ends
-- ---

section Ends

variable {host : Host}

theorem scanWrapperInvocation_ne_nil {argv separators : List Text} {state : σ}
    {onToken : σ → Text → Text → WrapperScanDirective × σ} {adjust : List Text → Option (List Text)} :
    scanWrapperInvocation host argv separators state onToken adjust ≠ some [] := by
  intro h
  obtain ⟨-, hne⟩ := Option.filter_eq_some_iff.1 h
  exact of_decide_eq_true hne rfl

theorem ite_ne_nil {c : Prop} [Decidable c] {unwrapped : Option (List Text)} (h : unwrapped ≠ some []) :
    (if c then unwrapped else none) ≠ some [] := by
  split
  · exact h
  · nofun

/-- No wrapper is unwrapped to nothing. -/
theorem unwrap_ne_nil {spec : DispatchWrapperSpec} (hspec : spec ∈ DISPATCH_WRAPPER_SPECS host)
    (hunwrap : spec.unwrap = some unwrap) (argv : List Text) : unwrap argv ≠ some [] := by
  simp only [DISPATCH_WRAPPER_SPECS, List.mem_cons, List.not_mem_nil, or_false] at hspec
  rcases hspec with rfl | rfl | rfl | rfl | rfl | rfl | rfl | rfl | rfl | rfl | rfl | rfl | rfl | rfl | rfl | rfl | rfl
  all_goals
    first
    | cases hunwrap; done
    | obtain rfl := Option.some.inj hunwrap
      first
      | exact scanWrapperInvocation_ne_nil
      | exact ite_ne_nil scanWrapperInvocation_ne_nil

theorem unwrapped_ne_nil (h : unwrapKnownDispatchWrapperInvocation host current = .unwrapped wrapper argv) : argv ≠ [] := by
  unfold unwrapKnownDispatchWrapperInvocation at h
  split at h
  · cases h
  · dsimp only at h
    split at h
    · cases h
    case h_2 spec hspec =>
      split at h
      case h_1 unwrap hunwrap =>
        rintro rfl
        unfold unwrapDispatchWrapper at h
        split at h
        case h_1 rest hrest =>
          cases h
          exact unwrap_ne_nil (List.mem_of_find?_eq_some hspec) hunwrap _ hrest
        case h_2 => cases h
      · cases h

/-- A plan that is not blocked ends at no wrapper, or when `depth` more wrappers were unwrapped. -/
theorem unwrapDispatchFrom_ends (h : (unwrapDispatchFrom host depth current wrappers).policyBlocked = false) :
    unwrapKnownDispatchWrapperInvocation host (unwrapDispatchFrom host depth current wrappers).argv = .notWrapper ∨
      (unwrapDispatchFrom host depth current wrappers).wrappers.length = wrappers.length + depth := by
  induction depth generalizing current wrappers with
  | zero => exact .inr rfl
  | succ depth ih =>
    cases hunwrap : unwrapKnownDispatchWrapperInvocation host current with
    | notWrapper =>
      refine .inl ?_
      simp only [unwrapDispatchFrom, hunwrap]
    | blocked wrapper =>
      simp only [unwrapDispatchFrom, hunwrap] at h
      cases h
    | unwrapped wrapper argv =>
      simp only [unwrapDispatchFrom, hunwrap, if_neg (unwrapped_ne_nil hunwrap)] at h ⊢
      split at h
      · cases h
      case isFalse hplain =>
        rw [if_neg hplain]
        refine (ih h).imp_right fun hlength => ?_
        rw [hlength, List.length_append, List.length_singleton]
        omega

theorem unwrapDispatchFrom_length (host : Host) (depth : Nat) (current wrappers : List Text) :
    wrappers.length ≤ (unwrapDispatchFrom host depth current wrappers).wrappers.length := by
  induction depth generalizing current wrappers with
  | zero => exact Nat.le_refl _
  | succ depth ih =>
    unfold unwrapDispatchFrom
    split
    · exact Nat.le_refl _
    · exact Nat.le_refl _
    · split
      · exact Nat.le_refl _
      · split
        · simp
        · refine Nat.le_trans ?_ (ih _ _)
          simp

/-- The plan of an argv that is unwrapped has a wrapper more. -/
theorem unwrapDispatchFrom_argv (host : Host) (depth : Nat) (current wrappers : List Text) :
    (unwrapDispatchFrom host depth current wrappers).argv = current ∨
      wrappers.length < (unwrapDispatchFrom host depth current wrappers).wrappers.length := by
  cases depth with
  | zero => exact .inl rfl
  | succ depth =>
    unfold unwrapDispatchFrom
    split
    · exact .inl rfl
    · exact .inl rfl
    · split
      · exact .inl rfl
      · split
        · exact .inl rfl
        · refine .inr (Nat.lt_of_lt_of_le ?_ (unwrapDispatchFrom_length _ _ _ _))
          simp

theorem resolveDispatchWrapperTrustPlan_notWrapper
    (h : (resolveDispatchWrapperTrustPlan host argv maxDepth).policyBlocked = false) :
    unwrapKnownDispatchWrapperInvocation host (resolveDispatchWrapperTrustPlan host argv maxDepth).argv = .notWrapper := by
  unfold resolveDispatchWrapperTrustPlan at h ⊢
  dsimp only at h ⊢
  split at h
  case isTrue hfull =>
    rw [if_pos hfull]
    split at h
    · cases h
    · cases h
    case h_3 hnot =>
      rw [hnot]
  case isFalse hfull =>
    rw [if_neg hfull]
    refine (unwrapDispatchFrom_ends h).resolve_right fun hlength => hfull ?_
    simp [h, hlength]

/-- Where nothing is unwrapped the plan is about the argv itself. -/
theorem resolveDispatchWrapperTrustPlan_argv
    (h : (resolveDispatchWrapperTrustPlan host argv maxDepth).wrappers = []) :
    (resolveDispatchWrapperTrustPlan host argv maxDepth).argv = argv := by
  have hplan : (resolveDispatchWrapperTrustPlan host argv maxDepth).argv = (unwrapDispatchFrom host maxDepth argv []).argv ∧
      (resolveDispatchWrapperTrustPlan host argv maxDepth).wrappers = (unwrapDispatchFrom host maxDepth argv []).wrappers := by
    unfold resolveDispatchWrapperTrustPlan
    dsimp only
    split
    · split <;> exact ⟨rfl, rfl⟩
    · exact ⟨rfl, rfl⟩
  rw [hplan.1]
  refine (unwrapDispatchFrom_argv host maxDepth argv []).resolve_right fun hlonger => ?_
  rw [← hplan.2, h] at hlonger
  exact Nat.lt_irrefl _ hlonger

theorem not_dispatchWrapper (h : unwrapKnownDispatchWrapperInvocation host argv = .notWrapper) :
    trimmed? argv.head? = none ∨ isDispatchWrapperExecutable host (trimChars (argv.head?.getD [])) = false := by
  unfold unwrapKnownDispatchWrapperInvocation at h
  split at h
  case h_1 hnone => exact .inl hnone
  case h_2 token0 htoken =>
    obtain ⟨-, rfl⟩ := trimmed?_eq_some.1 htoken
    refine .inr ?_
    dsimp only at h
    split at h
    case h_1 hspec =>
      unfold isDispatchWrapperExecutable
      rw [hspec]
      rfl
    case h_2 =>
      split at h
      · unfold unwrapDispatchWrapper at h
        split at h <;> cases h
      · cases h

def DISPATCH_WRAPPER_NAMES : List Text :=
  ["arch".toList, "caffeinate".toList, "chrt".toList, "doas".toList, "env".toList, "ionice".toList, "nice".toList,
    "nohup".toList, "sandbox-exec".toList, "script".toList, "setsid".toList, "stdbuf".toList, "sudo".toList,
    "taskset".toList, "time".toList, "timeout".toList, "xcrun".toList]

theorem isDispatchWrapperExecutable_iff {token : Text} :
    isDispatchWrapperExecutable host token ↔ normalizeExecutableToken host token ∈ DISPATCH_WRAPPER_NAMES := by
  have hnames : DISPATCH_WRAPPER_NAMES = (DISPATCH_WRAPPER_SPECS host).map (·.name) := rfl
  unfold isDispatchWrapperExecutable dispatchWrapperSpec
  rw [List.find?_isSome, hnames, List.mem_map]
  simp only [decide_eq_true_eq]

end Ends

end OpenClaw.Exec
