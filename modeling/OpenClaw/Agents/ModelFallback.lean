import Mathlib.Data.List.Nodup
import OpenClaw.Js.Text

/-!
# Model fallback

A run is tried with one model after the other. Candidates whose provider is in cooldown
may be skipped; what a run throws decides whether the next candidate is tried.
-/

namespace OpenClaw.ModelFallback

open Js (trim)

-- ---
-- Candidates
-- ---

structure ModelCandidate where
  provider : String
  model : String
  deriving DecidableEq

def DEFAULT_PROVIDER : String := "anthropic"
def DEFAULT_MODEL : String := "claude-opus-4-6"

def modelKey (toLowerCase : String → String) (provider model : String) : String :=
  let providerId := trim provider
  let modelId := trim model
  if providerId = "" then modelId
  else if modelId = "" then providerId
  else if ((toLowerCase providerId) ++ "/").isPrefixOf (toLowerCase modelId) then modelId
  else providerId ++ "/" ++ modelId

/-- What is read from the config, and how references are read. -/
structure ModelRefs where
  toLowerCase : String → String
  /-- `resolveConfiguredModelRef`, where there is a config. -/
  primary : Option ModelCandidate
  normalizeModelRef : String → String → ModelCandidate
  /-- The reference of `resolveModelRefFromString`. -/
  resolveModelRefFromString : String → Option ModelCandidate
  configuredFallbacks : List String
  fallbacksOverride : Option (List String)

section
variable (refs : ModelRefs)

/-- `addExplicitCandidate`; the allowlist has no say in it. -/
def addExplicitCandidate (candidates : List ModelCandidate) (candidate : ModelCandidate) :
    List ModelCandidate :=
  let key := modelKey refs.toLowerCase candidate.provider candidate.model
  if candidate.provider = "" || candidate.model = "" then candidates
  else if candidates.any fun c => modelKey refs.toLowerCase c.provider c.model = key then candidates
  else candidates ++ [candidate]

def resolveFallbackCandidates (provider model : String) : List ModelCandidate :=
  let defaultProvider := (refs.primary.map (·.provider)).getD DEFAULT_PROVIDER
  let defaultModel := (refs.primary.map (·.model)).getD DEFAULT_MODEL
  let providerRaw := if trim provider = "" then defaultProvider else trim provider
  let modelRaw := if trim model = "" then defaultModel else trim model
  let normalizedPrimary := refs.normalizeModelRef providerRaw modelRaw
  let configuredPrimary := refs.normalizeModelRef defaultProvider defaultModel
  let modelFallbacks :=
    match refs.fallbacksOverride with
    | some fallbacks => fallbacks
    | none =>
      if normalizedPrimary.provider ≠ configuredPrimary.provider then
        let isConfiguredFallback := refs.configuredFallbacks.any fun raw =>
          refs.resolveModelRefFromString raw = some normalizedPrimary
        if isConfiguredFallback then refs.configuredFallbacks else []
      else refs.configuredFallbacks
  let candidates := addExplicitCandidate refs [] normalizedPrimary
  let candidates := (modelFallbacks.filterMap refs.resolveModelRefFromString).foldl
    (addExplicitCandidate refs) candidates
  match refs.fallbacksOverride, refs.primary with
  | none, some primary =>
    if primary.provider ≠ "" && primary.model ≠ "" then addExplicitCandidate refs candidates primary
    else candidates
  | _, _ => candidates

end

-- ---
-- Errors
-- ---

inductive FailoverReason
  | auth
  | auth_permanent
  | format
  | rate_limit
  | overloaded
  | billing
  | timeout
  | model_not_found
  | session_expired
  | unknown
  deriving DecidableEq

def FailoverReason.text : FailoverReason → String
  | .auth => "auth"
  | .auth_permanent => "auth_permanent"
  | .format => "format"
  | .rate_limit => "rate_limit"
  | .overloaded => "overloaded"
  | .billing => "billing"
  | .timeout => "timeout"
  | .model_not_found => "model_not_found"
  | .session_expired => "session_expired"
  | .unknown => "unknown"

structure FallbackAttempt where
  provider : String
  model : String
  error : String
  reason : Option FailoverReason := none
  status : Option Nat := none
  code : Option String := none
  deriving DecidableEq

/-- What `describeFailoverError` gives. -/
structure DescribedError where
  message : String
  reason : Option FailoverReason := none
  status : Option Nat := none
  code : Option String := none

/-- What is read off a thrown value. An object that has no text makes the reading throw. -/
structure ErrorReader (E : Type) where
  isFailoverError : E → Bool
  /-- An object whose `name` is `AbortError`. -/
  hasAbortName : E → Bool
  isTimeoutError : E → Bool
  coerceToFailoverError : E → ModelCandidate → Except E (Option E)
  describeFailoverError : E → Except E DescribedError
  /-- `err.message` or `String(err)` -/
  errMessage : E → Except E String
  isLikelyContextOverflowError : String → Bool
  /-- The message of a `LiveSessionModelSwitchError`. -/
  liveSessionModelSwitch : E → Option String
  /-- `new FailoverError(message, …)` -/
  failoverError : String → FailoverReason → ModelCandidate → E
  isError : E → Bool
  /-- Neither `undefined`, `null`, `false`, `0` nor an empty text. -/
  isTruthy : E → Bool

section
variable {E : Type} (errors : ErrorReader E)

def isFallbackAbortError (err : E) : Bool := !errors.isFailoverError err && errors.hasAbortName err

def shouldRethrowAbort (err : E) : Bool :=
  isFallbackAbortError errors err && !errors.isTimeoutError err

end

def shouldAllowCooldownProbeForReason (reason : FailoverReason) : Bool :=
  reason = .rate_limit || reason = .overloaded || reason = .billing || reason = .unknown

def shouldUseTransientCooldownProbeSlot (reason : FailoverReason) : Bool :=
  reason = .rate_limit || reason = .overloaded || reason = .unknown

def shouldPreserveTransientCooldownProbeSlot : Option FailoverReason → Bool
  | some reason => reason = .model_not_found || reason = .format || reason = .auth ||
      reason = .auth_permanent || reason = .session_expired
  | none => false

-- ---
-- Cooldown
-- ---

/-- What the auth store, the clock and the probe throttle say at a candidate. -/
structure CooldownView where
  profileCount : Nat
  isAnyProfileAvailable : Bool
  isProbeThrottleOpen : Bool
  /-- The soonest expiry is within the margin, or there is none. -/
  isNearExpiry : Bool
  profilesUnavailableReason : Option FailoverReason

inductive CooldownDecision
  | skip (reason : FailoverReason) (error : String)
  | attempt (reason : FailoverReason) (markProbe : Bool)

def shouldProbePrimaryDuringCooldown (isPrimary hasFallbackCandidates : Bool)
    (view : CooldownView) : Bool :=
  isPrimary && hasFallbackCandidates && view.isProbeThrottleOpen && view.isNearExpiry

def resolveCooldownDecision (candidate : ModelCandidate)
    (isPrimary requestedModel hasFallbackCandidates : Bool) (view : CooldownView) :
    CooldownDecision :=
  let shouldProbe := shouldProbePrimaryDuringCooldown isPrimary hasFallbackCandidates view
  let inferredReason := view.profilesUnavailableReason.getD .unknown
  let issue :=
    s!"Provider {candidate.provider} has {inferredReason.text} issue (skipping all models)"
  if inferredReason = .auth || inferredReason = .auth_permanent then .skip inferredReason issue
  else if inferredReason = .billing then
    let shouldProbeSingleProviderBilling :=
      isPrimary && !hasFallbackCandidates && view.isProbeThrottleOpen
    if isPrimary && (shouldProbe || shouldProbeSingleProviderBilling) then
      .attempt inferredReason true
    else .skip inferredReason issue
  else
    let shouldAttemptDespiteCooldown :=
      (isPrimary && (!requestedModel || shouldProbe)) ||
        (!isPrimary && (inferredReason = .rate_limit || inferredReason = .overloaded ||
          inferredReason = .unknown))
    if !shouldAttemptDespiteCooldown then
      .skip inferredReason
        s!"Provider {candidate.provider} is in cooldown (all profiles unavailable)"
    else .attempt inferredReason (isPrimary && shouldProbe)

-- ---
-- Runs
-- ---

/-- What a run is called with. What it does may depend on the candidate's place, and so on
all that happened before. -/
structure FallbackParams (E T : Type) where
  provider : String
  model : String
  errors : ErrorReader E
  /-- The views of an auth store, where there is a config. -/
  views : Option (Nat → CooldownView)
  /-- `run`, with `allowTransientCooldownProbe` where that is set. -/
  run : Nat → ModelCandidate → Bool → Except E T
  /-- What `onError` throws, if it does. -/
  onError : Nat → ModelCandidate → E → Option E
  soonestCooldownExpiry : Option Nat

structure FallbackState (E : Type) where
  attempts : List FallbackAttempt := []
  lastError : Option E := none
  cooldownProbeUsedProviders : List String := []

/-- A call of `run`. -/
structure FallbackCall where
  index : Nat
  candidate : ModelCandidate
  allowTransientCooldownProbe : Bool
  deriving DecidableEq

structure FallbackSummaryError (E : Type) where
  message : String
  attempts : List FallbackAttempt
  soonestCooldownExpiry : Option Nat
  cause : Option E

inductive FallbackEnding (E T : Type)
  | returned (index : Nat) (result : T) (candidate : ModelCandidate)
      (attempts : List FallbackAttempt)
  /-- Thrown in the turn of a candidate. -/
  | raised (index : Nat) (error : E)
  /-- The last error, thrown after all candidates, with the attempts that were recorded. -/
  | failed (error : E) (attempts : List FallbackAttempt)
  | summary (error : FallbackSummaryError E)

structure FallbackOutcome (E T : Type) where
  calls : List FallbackCall
  ending : FallbackEnding E T

/-- What becomes of a candidate before it is run. -/
inductive Admission
  | skipped (attempt : FallbackAttempt)
  /-- With the provider whose probe it takes up. -/
  | admitted (allowTransientCooldownProbe : Bool) (transientProbeProvider : Option String)

/-- How a run settles. -/
inductive RunResult (E T : Type)
  | ok (result : T)
  | error (error : E)
  | rethrown (error : E)

section
variable {E T : Type} (params : FallbackParams E T)

def cooldownAdmission (total index : Nat) (candidate : ModelCandidate)
    (usedProviders : List String) : Admission :=
  match params.views with
  | none => .admitted false none
  | some views =>
    let view := views index
    if view.profileCount = 0 || view.isAnyProfileAvailable then .admitted false none
    else
      let requestedModel := params.provider = candidate.provider && params.model = candidate.model
      match resolveCooldownDecision candidate (index = 0) requestedModel (1 < total) view with
      | .skip reason error => .skipped
          { provider := candidate.provider, model := candidate.model, error, reason := some reason }
      | .attempt reason _ =>
        if shouldAllowCooldownProbeForReason reason then
          let isTransientCooldownReason := shouldUseTransientCooldownProbeSlot reason
          if isTransientCooldownReason && usedProviders.contains candidate.provider then .skipped
            { provider := candidate.provider
              model := candidate.model
              error :=
                s!"Provider {candidate.provider} is in cooldown (probe already attempted this run)"
              reason := some reason }
          else .admitted true (if isTransientCooldownReason then some candidate.provider else none)
        else .admitted false none

def runFallbackCandidate (index : Nat) (candidate : ModelCandidate) (options : Bool) :
    RunResult E T :=
  match params.run index candidate options with
  | .ok result => .ok result
  | .error err =>
    match params.errors.coerceToFailoverError err candidate with
    | .error thrown => .rethrown thrown
    | .ok normalizedFailover =>
      if shouldRethrowAbort params.errors err && normalizedFailover.isNone then .rethrown err
      else .error (normalizedFailover.getD err)

/-- The probe slots in use once a probe failed with `err`. -/
def probeSlotsAfter (transientProbeProvider : Option String) (used : List String) (err : E) :
    Except E (List String) :=
  match transientProbeProvider with
  | none => .ok used
  | some provider => do
    let described ← params.errors.describeFailoverError err
    pure (if shouldPreserveTransientCooldownProbeSlot described.reason then used
      else provider :: used)

/-- The state with the attempt of a candidate that failed. -/
def recordFailure (s : FallbackState E) (candidate : ModelCandidate)
    (lastError describedError : E) : Except E (FallbackState E) := do
  let described ← params.errors.describeFailoverError describedError
  pure
    { s with
      lastError := some lastError
      attempts := s.attempts ++
        [{ provider := candidate.provider
           model := candidate.model
           error := described.message
           reason := some (described.reason.getD .unknown)
           status := described.status
           code := described.code }] }

/-- What a failure that is neither an abort nor an overflow leaves, or what is thrown. -/
def failOver (total index : Nat) (candidate : ModelCandidate) (s : FallbackState E)
    (err normalized : E) : Except E (FallbackState E) :=
  match params.errors.liveSessionModelSwitch err with
  | some switchMsg =>
    let switchNormalized := params.errors.failoverError switchMsg .overloaded candidate
    recordFailure params s candidate switchNormalized switchNormalized
  | none =>
    let isKnownFailover := params.errors.isFailoverError normalized
    if !isKnownFailover && index + 1 = total then throw err
    else do
      let error := if isKnownFailover then normalized else err
      let s ← recordFailure params s candidate error normalized
      match params.onError index candidate error with
      | some thrown => throw thrown
      | none => pure s

/-- How the failure of a candidate is taken: the state the next candidate is tried in, or what
is thrown. -/
def handleFailure (total index : Nat) (candidate : ModelCandidate)
    (transientProbeProvider : Option String) (s : FallbackState E) (err : E) :
    Except E (FallbackState E) := do
  let used ← probeSlotsAfter params transientProbeProvider s.cooldownProbeUsedProviders err
  let errMessage ← params.errors.errMessage err
  if params.errors.isLikelyContextOverflowError errMessage then throw err
  else do
    let normalized ← params.errors.coerceToFailoverError err candidate
    failOver params total index candidate { s with cooldownProbeUsedProviders := used } err
      (normalized.getD err)

def formatAttempt (attempt : FallbackAttempt) : String :=
  attempt.provider ++ "/" ++ attempt.model ++ ": " ++ attempt.error ++
    match attempt.reason with
    | some reason => " (" ++ reason.text ++ ")"
    | none => ""

def fallbackFailureMessage (count : Nat) (summary : String) : String :=
  s!"All models failed ({count}): {summary}"

def throwFallbackFailureSummary (total : Nat) (s : FallbackState E) : FallbackEnding E T :=
  match s.lastError.filter fun err => s.attempts.length ≤ 1 && params.errors.isTruthy err with
  | some lastError => .failed lastError s.attempts
  | none => .summary
      { message := fallbackFailureMessage
          (if s.attempts = [] then total else s.attempts.length)
          (if s.attempts = [] then "unknown"
            else " | ".intercalate (s.attempts.map formatAttempt))
        attempts := s.attempts
        soonestCooldownExpiry := params.soonestCooldownExpiry
        cause := s.lastError.filter params.errors.isError }

/-- The loop from the candidate at `index` on. -/
def runCandidatesFrom (total : Nat) :
    Nat → List ModelCandidate → FallbackState E → FallbackOutcome E T
  | _, [], s => ⟨[], throwFallbackFailureSummary params total s⟩
  | index, candidate :: rest, s =>
    match cooldownAdmission params total index candidate s.cooldownProbeUsedProviders with
    | .skipped attempt =>
      runCandidatesFrom total (index + 1) rest { s with attempts := s.attempts ++ [attempt] }
    | .admitted options transientProbeProvider =>
      let call : FallbackCall := ⟨index, candidate, options⟩
      match runFallbackCandidate params index candidate options with
      | .ok result => ⟨[call], .returned index result candidate s.attempts⟩
      | .rethrown err => ⟨[call], .raised index err⟩
      | .error err =>
        match handleFailure params total index candidate transientProbeProvider s err with
        | .error thrown => ⟨[call], .raised index thrown⟩
        | .ok s =>
          let outcome := runCandidatesFrom total (index + 1) rest s
          { outcome with calls := call :: outcome.calls }

def runCandidates (candidates : List ModelCandidate) : FallbackOutcome E T :=
  runCandidatesFrom params candidates.length 0 candidates {}

def runWithModelFallback (refs : ModelRefs) : FallbackOutcome E T :=
  runCandidates params (resolveFallbackCandidates refs params.provider params.model)

end

-- ---
-- The candidates
-- ---

section
variable (refs : ModelRefs)

/-- No candidate is nameless or has the key of another. -/
def DistinctKeyed (candidates : List ModelCandidate) : Prop :=
  (candidates.map fun c => modelKey refs.toLowerCase c.provider c.model).Nodup

theorem DistinctKeyed.nodup (h : DistinctKeyed refs candidates) : candidates.Nodup := h.of_map _

theorem addExplicitCandidate_distinct (h : DistinctKeyed refs candidates) :
    DistinctKeyed refs (addExplicitCandidate refs candidates candidate) := by
  unfold addExplicitCandidate
  dsimp only
  split
  · exact h
  · split
    · exact h
    · rename_i hnew
      simp only [DistinctKeyed, List.map_append, List.map_cons, List.map_nil]
      refine List.Nodup.append h (List.nodup_singleton _) ?_
      rintro key hin hkey
      obtain ⟨c, hc, rfl⟩ := List.mem_map.mp hin
      exact hnew (List.any_eq_true.mpr ⟨c, hc, by simpa using hkey⟩)

theorem foldl_addExplicitCandidate_distinct (more : List ModelCandidate)
    (h : DistinctKeyed refs candidates) :
    DistinctKeyed refs (more.foldl (addExplicitCandidate refs) candidates) := by
  induction more generalizing candidates with
  | nil => exact h
  | cons c more ih => exact ih (addExplicitCandidate_distinct refs h)

theorem resolveFallbackCandidates_distinct :
    DistinctKeyed refs (resolveFallbackCandidates refs provider model) := by
  have hfirst : DistinctKeyed refs [] := List.nodup_nil
  unfold resolveFallbackCandidates
  dsimp only
  split
  · split
    · exact addExplicitCandidate_distinct refs
        (foldl_addExplicitCandidate_distinct refs _ (addExplicitCandidate_distinct refs hfirst))
    · exact foldl_addExplicitCandidate_distinct refs _ (addExplicitCandidate_distinct refs hfirst)
  · exact foldl_addExplicitCandidate_distinct refs _ (addExplicitCandidate_distinct refs hfirst)

end

-- ---
-- What is thrown in a candidate's turn
-- ---

section
variable {E T : Type} (params : FallbackParams E T)

/-- What the run of a call gave. -/
def answer (call : FallbackCall) : Except E T :=
  params.run call.index call.candidate call.allowTransientCooldownProbe

/-- The user aborted the run. -/
def UserAbort (candidate : ModelCandidate) (err : E) : Prop :=
  shouldRethrowAbort params.errors err = true ∧
    params.errors.coerceToFailoverError err candidate = .ok none

/-- The error tells of a context that is too long. -/
def ContextOverflow (err : E) : Prop :=
  ∃ message, params.errors.errMessage err = .ok message ∧
    params.errors.isLikelyContextOverflowError message = true

/-- The error is no failover error and cannot be made one. -/
def Unrecognized (candidate : ModelCandidate) (err : E) : Prop :=
  ∃ normalized, params.errors.coerceToFailoverError err candidate = .ok normalized ∧
    params.errors.isFailoverError (normalized.getD err) = false

/-- Taking an error throws one of its own: `onError`, or the reading of an object without
text. -/
def HandlingThrows (index : Nat) (candidate : ModelCandidate) (thrown : E) : Prop :=
  ∃ err, params.errors.errMessage err = .error thrown ∨
    params.errors.describeFailoverError err = .error thrown ∨
    params.errors.coerceToFailoverError err candidate = .error thrown ∨
    params.onError index candidate err = some thrown

/-- Why the turn of a candidate ends the loop with an error. -/
def Raises (total index : Nat) (candidate : ModelCandidate) (thrown : E) : Prop :=
  UserAbort params candidate thrown ∨ ContextOverflow params thrown ∨
    HandlingThrows params index candidate thrown ∨
    index + 1 = total ∧ Unrecognized params candidate thrown

/-- The candidates that were recorded. -/
def named (attempts : List FallbackAttempt) : List ModelCandidate :=
  attempts.map fun attempt => ⟨attempt.provider, attempt.model⟩

theorem named_snoc (attempts : List FallbackAttempt) (attempt : FallbackAttempt) :
    named (attempts ++ [attempt]) = named attempts ++ [⟨attempt.provider, attempt.model⟩] := by
  simp [named]

theorem cooldownAdmission_skipped
    (h : cooldownAdmission params total index candidate used = .skipped attempt) :
    (⟨attempt.provider, attempt.model⟩ : ModelCandidate) = candidate := by
  unfold cooldownAdmission at h
  dsimp only at h
  repeat' split at h
  all_goals first
    | (obtain rfl := Admission.skipped.inj h; rfl)
    | cases h

theorem runFallbackCandidate_ok (h : runFallbackCandidate params index candidate options = .ok r) :
    answer params ⟨index, candidate, options⟩ = .ok r := by
  unfold runFallbackCandidate at h
  unfold answer
  cases hrun : params.run index candidate options with
  | ok r' =>
    simp only [hrun, RunResult.ok.injEq] at h
    rw [h]
  | error err =>
    simp only [hrun] at h
    repeat' split at h
    all_goals cases h

theorem runFallbackCandidate_error
    (h : runFallbackCandidate params index candidate options = .error err) :
    ∃ err', answer params ⟨index, candidate, options⟩ = .error err' := by
  unfold runFallbackCandidate at h
  unfold answer
  cases hrun : params.run index candidate options with
  | ok r' => simp [hrun] at h
  | error err' => exact ⟨err', rfl⟩

theorem runFallbackCandidate_rethrown
    (h : runFallbackCandidate params index candidate options = .rethrown err) :
    (∃ err', answer params ⟨index, candidate, options⟩ = .error err') ∧
      (UserAbort params candidate err ∨ HandlingThrows params index candidate err) := by
  unfold runFallbackCandidate at h
  unfold answer
  cases hrun : params.run index candidate options with
  | ok r' => simp [hrun] at h
  | error err' =>
    refine ⟨⟨err', rfl⟩, ?_⟩
    simp only [hrun] at h
    cases hcoerce : params.errors.coerceToFailoverError err' candidate with
    | error thrown =>
      simp only [hcoerce, RunResult.rethrown.injEq] at h
      subst h
      exact .inr ⟨err', .inr (.inr (.inl hcoerce))⟩
    | ok normalized =>
      simp only [hcoerce] at h
      split at h
      · rename_i habort
        simp only [Bool.and_eq_true, Option.isNone_iff_eq_none] at habort
        obtain rfl := RunResult.rethrown.inj h
        exact .inl ⟨habort.1, habort.2 ▸ hcoerce⟩
      · cases h

/-- Recording a failure names the candidate, or throws what describing the error throws. -/
theorem recordFailure_cases (s : FallbackState E) (candidate : ModelCandidate) (last err : E) :
    (∃ s', recordFailure params s candidate last err = .ok s' ∧
        named s'.attempts = named s.attempts ++ [candidate]) ∨
      ∃ thrown, recordFailure params s candidate last err = .error thrown ∧
        params.errors.describeFailoverError err = .error thrown := by
  cases hdescribed : params.errors.describeFailoverError err with
  | error thrown => exact .inr ⟨thrown, by simp [recordFailure, hdescribed], rfl⟩
  | ok described =>
    refine .inl ⟨_, by rw [recordFailure, hdescribed]; rfl, ?_⟩
    rw [named_snoc]

theorem probeSlotsAfter_error (h : probeSlotsAfter params provider used err = .error thrown) :
    params.errors.describeFailoverError err = .error thrown := by
  cases provider with
  | none => cases h
  | some provider =>
    cases hdescribed : params.errors.describeFailoverError err with
    | error thrown' => simpa [probeSlotsAfter, hdescribed] using h
    | ok described => simp [probeSlotsAfter, hdescribed] at h

theorem failOver_cases (total index : Nat) (candidate : ModelCandidate) (s : FallbackState E)
    (err : E) (hcoerce : params.errors.coerceToFailoverError err candidate = .ok normalized) :
    (∃ s', failOver params total index candidate s err (normalized.getD err) = .ok s' ∧
        named s'.attempts = named s.attempts ++ [candidate]) ∨
      ∃ thrown, failOver params total index candidate s err (normalized.getD err) = .error thrown ∧
        Raises params total index candidate thrown := by
  unfold failOver
  cases params.errors.liveSessionModelSwitch err with
  | some switchMsg =>
    dsimp only
    rcases recordFailure_cases params s candidate _ _ with hs | ⟨thrown, hthrown, hdescribed⟩
    · exact .inl hs
    · exact .inr ⟨thrown, hthrown, .inr (.inr (.inl ⟨_, .inr (.inl hdescribed)⟩))⟩
  | none =>
    dsimp only
    split
    · rename_i hlast
      simp only [Bool.and_eq_true, Bool.not_eq_true', decide_eq_true_eq] at hlast
      exact .inr ⟨err, rfl, .inr (.inr (.inr ⟨hlast.2, normalized, hcoerce, hlast.1⟩))⟩
    · rcases recordFailure_cases params s candidate _ _ with
        ⟨s', hs', hnamed⟩ | ⟨thrown, hthrown, hdescribed⟩
      · rw [hs']
        cases hon : params.onError index candidate _ with
        | none => exact .inl ⟨s', by simp only [bind, Except.bind]; rfl, hnamed⟩
        | some thrown =>
          exact .inr ⟨thrown, by simp only [bind, Except.bind]; rfl,
            .inr (.inr (.inl ⟨_, .inr (.inr (.inr hon))⟩))⟩
      · rw [hthrown]
        exact .inr ⟨thrown, rfl, .inr (.inr (.inl ⟨_, .inr (.inl hdescribed)⟩))⟩

/-- A failure is recorded under its candidate, or ends the loop. -/
theorem handleFailure_cases (total index : Nat) (candidate : ModelCandidate)
    (provider : Option String) (s : FallbackState E) (err : E) :
    (∃ s', handleFailure params total index candidate provider s err = .ok s' ∧
        named s'.attempts = named s.attempts ++ [candidate]) ∨
      ∃ thrown, handleFailure params total index candidate provider s err = .error thrown ∧
        Raises params total index candidate thrown := by
  unfold handleFailure
  cases hused : probeSlotsAfter params provider s.cooldownProbeUsedProviders err with
  | error thrown =>
    have hdescribed := probeSlotsAfter_error params hused
    exact .inr ⟨thrown, rfl, .inr (.inr (.inl ⟨err, .inr (.inl hdescribed)⟩))⟩
  | ok used =>
    cases hmessage : params.errors.errMessage err with
    | error thrown => exact .inr ⟨thrown, rfl, .inr (.inr (.inl ⟨err, .inl hmessage⟩))⟩
    | ok message =>
      simp only [bind, Except.bind]
      split
      · rename_i hover
        exact .inr ⟨err, rfl, .inr (.inl ⟨message, hmessage, hover⟩)⟩
      · cases hcoerce : params.errors.coerceToFailoverError err candidate with
        | error thrown =>
          exact .inr ⟨thrown, rfl, .inr (.inr (.inl ⟨err, .inr (.inr (.inl hcoerce))⟩))⟩
        | ok normalized => exact failOver_cases params _ _ _ _ _ hcoerce

-- ---
-- The loop
-- ---

/-- What an ending says, where the candidates before `index` have been named already. -/
def Accounted (candidates : List ModelCandidate) (calls : List FallbackCall) :
    FallbackEnding E T → Prop
  | .returned index result candidate attempts =>
    candidates[index]? = some candidate ∧ named attempts = candidates.take index ∧
      ∃ call, calls.getLast? = some call ∧ call.index = index ∧ call.candidate = candidate ∧
        answer params call = .ok result
  | .raised index thrown => ∃ candidate, candidates[index]? = some candidate ∧
      Raises params candidates.length index candidate thrown
  | .failed _ attempts => attempts.length ≤ 1 ∧ named attempts = candidates
  | .summary error => named error.attempts = candidates ∧
      (error.attempts ≠ [] → error.message = fallbackFailureMessage error.attempts.length
        (" | ".intercalate (error.attempts.map formatAttempt)))

/-- Candidates are tried in their order up to the first success, and the ending accounts for
each of them. -/
structure Orderly (candidates : List ModelCandidate) (outcome : FallbackOutcome E T) : Prop where
  tried : ∀ call ∈ outcome.calls, candidates[call.index]? = some call.candidate
  increasing : (outcome.calls.map (·.index)).Pairwise (· < ·)
  stops : ∀ call ∈ outcome.calls, ∀ result, answer params call = .ok result →
    ∃ attempts, outcome.ending = .returned call.index result call.candidate attempts
  accounted : Accounted params candidates outcome.calls outcome.ending

theorem Accounted.cons {calls : List FallbackCall} {ending : FallbackEnding E T}
    (h : Accounted params candidates calls ending) (call : FallbackCall) :
    Accounted params candidates (call :: calls) ending := by
  cases ending with
  | returned index result candidate attempts =>
    obtain ⟨hplace, hnamed, last, hlast, hcall⟩ := h
    exact ⟨hplace, hnamed, last, by rw [List.getLast?_cons, hlast]; rfl, hcall⟩
  | raised | failed | summary => exact h

/-- A call that failed before the others. -/
theorem Orderly.cons {outcome : FallbackOutcome E T} (h : Orderly params candidates outcome)
    (hlate : ∀ later ∈ outcome.calls, call.index < later.index)
    (hplace : candidates[call.index]? = some call.candidate)
    (hfailed : answer params call = .error err) :
    Orderly params candidates { outcome with calls := call :: outcome.calls } where
  tried := by
    rintro later hlater
    rcases List.mem_cons.mp hlater with rfl | hlater
    · exact hplace
    · exact h.tried later hlater
  increasing := by
    refine List.pairwise_cons.mpr ⟨?_, h.increasing⟩
    rintro index hindex
    obtain ⟨later, hlater, rfl⟩ := List.mem_map.mp hindex
    exact hlate later hlater
  stops := by
    rintro later hlater result hresult
    rcases List.mem_cons.mp hlater with rfl | hlater
    · rw [hfailed] at hresult
      cases hresult
    · exact h.stops later hlater result hresult
  accounted := h.accounted.cons params call

theorem Orderly.of_returned {call : FallbackCall}
    (hplace : candidates[call.index]? = some call.candidate)
    (hok : answer params call = .ok result)
    (hnamed : named attempts = candidates.take call.index) :
    Orderly params candidates
      ⟨[call], .returned call.index result call.candidate attempts⟩ where
  tried := by simpa using hplace
  increasing := List.pairwise_singleton _ _
  stops := by
    rintro later hlater result' hresult
    obtain rfl := List.mem_singleton.mp hlater
    obtain rfl := Except.ok.inj (hok.symm.trans hresult)
    exact ⟨attempts, rfl⟩
  accounted := ⟨hplace, hnamed, call, rfl, rfl, rfl, hok⟩

theorem Orderly.of_raised {call : FallbackCall}
    (hplace : candidates[call.index]? = some call.candidate)
    (hfailed : answer params call = .error err)
    (hraises : Raises params candidates.length call.index call.candidate thrown) :
    Orderly params candidates ⟨[call], .raised call.index thrown⟩ where
  tried := by simpa using hplace
  increasing := List.pairwise_singleton _ _
  stops := by
    rintro later hlater result hresult
    obtain rfl := List.mem_singleton.mp hlater
    rw [hfailed] at hresult
    cases hresult
  accounted := ⟨call.candidate, hplace, hraises⟩

/-- After the last candidate, the ending names all of them. -/
theorem throwFallbackFailureSummary_orderly {s : FallbackState E}
    (hnamed : named s.attempts = candidates) :
    Orderly params candidates
      ⟨[], throwFallbackFailureSummary params candidates.length s⟩ where
  tried := fun call hcall => absurd hcall List.not_mem_nil
  increasing := List.Pairwise.nil
  stops := fun call hcall => absurd hcall List.not_mem_nil
  accounted := by
    unfold throwFallbackFailureSummary
    split
    · rename_i err herr
      have hfew := (Option.filter_eq_some_iff.mp herr).2
      simp only [Bool.and_eq_true, decide_eq_true_eq] at hfew
      exact ⟨hfew.1, hnamed⟩
    · refine ⟨hnamed, ?_⟩
      intro hsome
      simp only [if_neg hsome]

/-- From the candidate at `earlier.length` on, with the candidates before it recorded. -/
theorem runCandidatesFrom_orderly (rest earlier : List ModelCandidate) (s : FallbackState E)
    (hcandidates : earlier ++ rest = candidates) (hnamed : named s.attempts = earlier) :
    (∀ call ∈ (runCandidatesFrom params candidates.length earlier.length rest s).calls,
        earlier.length ≤ call.index) ∧
      Orderly params candidates
        (runCandidatesFrom params candidates.length earlier.length rest s) := by
  induction rest generalizing earlier s with
  | nil =>
    obtain rfl := (List.append_nil earlier).symm.trans hcandidates
    exact ⟨fun call hcall => absurd hcall List.not_mem_nil,
      throwFallbackFailureSummary_orderly params hnamed⟩
  | cons candidate rest ih =>
    have hplace : candidates[earlier.length]? = some candidate := by simp [← hcandidates]
    have hnext (s' : FallbackState E) (hs' : named s'.attempts = earlier ++ [candidate]) :=
      ih (earlier ++ [candidate]) s' (by simpa using hcandidates) hs'
    simp only [List.length_append, List.length_singleton] at hnext
    unfold runCandidatesFrom
    cases hadmission : cooldownAdmission params candidates.length earlier.length candidate
      s.cooldownProbeUsedProviders with
    | skipped attempt =>
      have hskipped := hnext { s with attempts := s.attempts ++ [attempt] }
        (by rw [named_snoc, hnamed, cooldownAdmission_skipped params hadmission])
      exact ⟨fun call hcall => Nat.le_of_succ_le (hskipped.1 call hcall), hskipped.2⟩
    | admitted options provider =>
      dsimp only
      cases hrun : runFallbackCandidate params earlier.length candidate options with
      | ok result =>
        refine ⟨by simp, ?_⟩
        have hok := runFallbackCandidate_ok params hrun
        refine Orderly.of_returned params hplace hok ?_
        rw [hnamed, ← hcandidates, List.take_left]
      | rethrown err =>
        obtain ⟨⟨err', hfailed⟩, hwhy⟩ := runFallbackCandidate_rethrown params hrun
        refine ⟨by simp, ?_⟩
        exact Orderly.of_raised params hplace hfailed
          (hwhy.imp id fun hthrows => .inr (.inl hthrows))
      | error err =>
        obtain ⟨err', hfailed⟩ := runFallbackCandidate_error params hrun
        rcases handleFailure_cases params candidates.length earlier.length candidate provider s err
          with ⟨s', hs', hnamed'⟩ | ⟨thrown, hthrown, hraises⟩
        · have hlater := hnext s' (hnamed'.trans (by rw [hnamed]))
          simp only [hs']
          refine ⟨?_, hlater.2.cons params ?_ hplace hfailed⟩
          · rintro call hcall
            rcases List.mem_cons.mp hcall with rfl | hcall
            · exact le_rfl
            · exact Nat.le_of_succ_le (hlater.1 call hcall)
          · exact fun later hlater' => hlater.1 later hlater'
        · simp only [hthrown]
          refine ⟨by simp, ?_⟩
          exact Orderly.of_raised params hplace hfailed hraises

theorem runCandidates_orderly (candidates : List ModelCandidate) :
    Orderly params candidates (runCandidates params candidates) :=
  (runCandidatesFrom_orderly params candidates [] {} rfl rfl).2

theorem runWithModelFallback_orderly (refs : ModelRefs) :
    (resolveFallbackCandidates refs params.provider params.model).Nodup ∧
      Orderly params (resolveFallbackCandidates refs params.provider params.model)
        (runWithModelFallback params refs) :=
  ⟨DistinctKeyed.nodup refs (resolveFallbackCandidates_distinct refs),
    runCandidates_orderly params _⟩

end

-- ---
-- Errors of the handling itself
-- ---

inductive Thrown
  /-- An object without a prototype. -/
  | bare
  | typeError
  | plain
  | failover
  deriving DecidableEq

def Thrown.text : Thrown → Except Thrown String
  | .bare => .error .typeError
  | .typeError => .ok "Cannot convert object to primitive value"
  | .plain => .ok "unexpected reply"
  | .failover => .ok "failover"

def thrownReader : ErrorReader Thrown where
  isFailoverError := fun err => err = .failover
  hasAbortName := fun _ => false
  isTimeoutError := fun _ => false
  coerceToFailoverError := fun err _ => .ok (if err = .failover then some err else none)
  describeFailoverError := fun err => err.text.map fun message => { message }
  errMessage := Thrown.text
  isLikelyContextOverflowError := fun _ => false
  liveSessionModelSwitch := fun _ => none
  failoverError := fun _ _ _ => .failover
  isError := fun err => err ≠ .bare
  isTruthy := fun _ => true

/-- The first candidate fails with `err`. -/
def failingParams (err : Thrown) (onError : Option Thrown) : FallbackParams Thrown Unit where
  provider := "anthropic"
  model := "claude-opus-4-6"
  errors := thrownReader
  views := none
  run := fun index _ _ => if index = 0 then .error err else .ok ()
  onError := fun _ _ _ => onError
  soonestCooldownExpiry := none

def twoRefs : ModelRefs where
  toLowerCase := fun text => text
  primary := none
  normalizeModelRef := ModelCandidate.mk
  resolveModelRefFromString := fun raw => some ⟨"openai", raw⟩
  configuredFallbacks := []
  fallbacksOverride := some ["gpt-5"]

/-- The first of two candidates raises an error that is no abort and no overflow. -/
def RaisedAtFirst (params : FallbackParams Thrown Unit) : Prop :=
  (runWithModelFallback params twoRefs).ending = .raised 0 .typeError ∧
    (resolveFallbackCandidates twoRefs params.provider params.model).length = 2 ∧
    ∀ candidate, ¬UserAbort params candidate .typeError ∧
      ¬ContextOverflow params .typeError

theorem candidates_twoRefs : resolveFallbackCandidates twoRefs "anthropic" "claude-opus-4-6" =
    [⟨"anthropic", "claude-opus-4-6"⟩, ⟨"openai", "gpt-5"⟩] := by decide +kernel

/-- Where `onError` throws, or the error has no text, the second candidate is never tried. -/
theorem raised_without_abort_or_overflow :
    RaisedAtFirst (failingParams .plain (some .typeError)) ∧
      RaisedAtFirst (failingParams .bare none) := by
  constructor
  all_goals
    refine ⟨?_, congrArg List.length candidates_twoRefs, ?_⟩
    · rw [runWithModelFallback]
      unfold failingParams
      rw [candidates_twoRefs]
      rfl
    · rintro candidate
      refine ⟨?_, ?_⟩
      · rintro ⟨habort, -⟩
        cases habort
      · rintro ⟨message, -, hover⟩
        cases hover

end OpenClaw.ModelFallback
