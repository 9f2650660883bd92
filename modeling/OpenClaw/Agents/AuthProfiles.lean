import Mathlib.Data.Rat.Floor
import OpenClaw.Js.Value
import OpenClaw.Lib.Members

/-!
# Usage of auth profiles

A profile that fails is set aside for a while: in the cooldown lane for failures
that pass, in the disable lane for billing and permanent auth failures. A rate limit
may concern one model only. Times are milliseconds; an absent field is `none`.
-/

namespace OpenClaw.AuthProfiles

open Members

-- ---
-- Stores
-- ---

inductive AuthProfileFailureReason
  | auth
  | auth_permanent
  | format
  | overloaded
  | rate_limit
  | billing
  | timeout
  | model_not_found
  | session_expired
  | unknown
  deriving DecidableEq

structure ProfileUsageStats where
  lastUsed : Option Rat := none
  cooldownUntil : Option Rat := none
  cooldownReason : Option AuthProfileFailureReason := none
  cooldownModel : Option String := none
  disabledUntil : Option Rat := none
  disabledReason : Option AuthProfileFailureReason := none
  errorCount : Option Nat := none
  failureCounts : Option (List (AuthProfileFailureReason × Nat)) := none
  lastFailureAt : Option Rat := none
  deriving DecidableEq

/-- The profiles, with their providers, and what is known of their use. -/
structure AuthProfileStore where
  profiles : List (String × String)
  usageStats : Option (List (String × ProfileUsageStats))

def AuthProfileStore.stats? (store : AuthProfileStore) (profileId : String) : Option ProfileUsageStats :=
  store.usageStats.bind (·.lookup profileId)

def updateUsageStatsEntry (store : AuthProfileStore) (profileId : String)
    (updater : Option ProfileUsageStats → ProfileUsageStats) : AuthProfileStore :=
  { store with
    usageStats := some (assign (store.usageStats.getD []) profileId (updater (store.stats? profileId))) }

def resetUsageStats (existing : Option ProfileUsageStats) (lastUsed : Option Rat) : ProfileUsageStats :=
  { existing.getD {} with
    errorCount := some 0
    cooldownUntil := none
    cooldownReason := none
    cooldownModel := none
    disabledUntil := none
    disabledReason := none
    failureCounts := none
    lastUsed := if lastUsed.isSome then lastUsed else (existing.getD {}).lastUsed }

-- ---
-- Providers
-- ---

def normalizeProviderId (provider : String) : String :=
  let normalized := Js.toLowerCase (Js.trim provider)
  if normalized = "z.ai" || normalized = "z-ai" then "zai"
  else if normalized = "opencode-zen" then "opencode"
  else if normalized = "opencode-go-auth" then "opencode-go"
  else if normalized = "kimi" || normalized = "kimi-code" || normalized = "kimi-coding" then "kimi"
  else if normalized = "bedrock" || normalized = "aws-bedrock" then "amazon-bedrock"
  else if normalized = "bytedance" || normalized = "doubao" then "volcengine"
  else normalized

def isAuthCooldownBypassedForProvider (provider : Option String) : Bool :=
  let normalized := normalizeProviderId (provider.getD "")
  normalized = "openrouter" || normalized = "kilocode"

-- ---
-- Windows
-- ---

/-- The truth value of an optional string. -/
def isTruthy (value : Option String) : Bool := value.any (· ≠ "")

def resolveProfileUnusableUntil (stats : ProfileUsageStats) : Option Rat :=
  match stats.cooldownUntil.filter (0 < ·), stats.disabledUntil.filter (0 < ·) with
  | some cooldown, some disabled => some (max cooldown disabled)
  | some cooldown, none => some cooldown
  | none, disabled => disabled

def isActiveUnusableWindow (limit : Option Rat) (now : Rat) : Bool :=
  limit.any fun limit => 0 < limit && now < limit

def shouldBypassModelScopedCooldown (stats : ProfileUsageStats) (now : Rat) (forModel : Option String) : Bool :=
  isTruthy forModel && stats.cooldownReason = some .rate_limit && isTruthy stats.cooldownModel &&
    stats.cooldownModel ≠ forModel && !isActiveUnusableWindow stats.disabledUntil now

def isProfileInCooldown (store : AuthProfileStore) (profileId : String) (now : Rat) (forModel : Option String) :
    Bool :=
  if isAuthCooldownBypassedForProvider (store.profiles.lookup profileId) then false
  else match store.stats? profileId with
    | none => false
    | some stats =>
      if shouldBypassModelScopedCooldown stats now forModel then false
      else (resolveProfileUnusableUntil stats).any (now < ·)

-- ---
-- Expiry
-- ---

/-- One turn of the loop of `clearExpiredCooldowns`, with `profileMutated`. -/
def clearExpiredStats (ts : Rat) (stats : ProfileUsageStats) : ProfileUsageStats × Bool :=
  let cooldownExpired := stats.cooldownUntil.any fun limit => 0 < limit && limit ≤ ts
  let disabledExpired := stats.disabledUntil.any fun limit => 0 < limit && limit ≤ ts
  let stats := if cooldownExpired then
      { stats with cooldownUntil := none, cooldownReason := none, cooldownModel := none }
    else stats
  let stats := if disabledExpired then { stats with disabledUntil := none, disabledReason := none } else stats
  let profileMutated := cooldownExpired || disabledExpired
  if profileMutated && (resolveProfileUnusableUntil stats).isNone then
    ({ stats with errorCount := some 0, failureCounts := none }, profileMutated)
  else (stats, profileMutated)

/-- The store, and whether any profile was modified. -/
def clearExpiredCooldowns (store : AuthProfileStore) (ts : Rat) : AuthProfileStore × Bool :=
  match store.usageStats with
  | none => (store, false)
  | some usageStats =>
    ({ store with usageStats := some (usageStats.map fun entry => (entry.1, (clearExpiredStats ts entry.2).1)) },
      usageStats.any fun entry => (clearExpiredStats ts entry.2).2)

-- ---
-- Failures
-- ---

structure ResolvedAuthCooldownConfig where
  billingBackoffMs : Rat
  billingMaxMs : Rat
  authPermanentBackoffMs : Rat
  authPermanentMaxMs : Rat
  failureWindowMs : Rat

inductive DisabledFailureReason
  | billing
  | auth_permanent

def DisabledFailureReason.toReason : DisabledFailureReason → AuthProfileFailureReason
  | .billing => .billing
  | .auth_permanent => .auth_permanent

def disabledFailureReason : AuthProfileFailureReason → Option DisabledFailureReason
  | .billing => some .billing
  | .auth_permanent => some .auth_permanent
  | _ => none

def calculateAuthProfileCooldownMs (errorCount : Nat) : Rat :=
  let normalized := max 1 errorCount
  if normalized ≤ 1 then 30000
  else if normalized ≤ 2 then 60000
  else 5 * 60000

def calculateDisabledLaneBackoffMs (errorCount : Nat) (baseMs maxMs : Rat) : Rat :=
  let normalized := max 1 errorCount
  let baseMs := max 60000 baseMs
  let maxMs := max baseMs maxMs
  let exponent := min (normalized - 1) 10
  min maxMs (baseMs * 2 ^ exponent)

/-- With `DISABLED_FAILURE_BACKOFF_POLICIES`. -/
def resolveDisabledFailureBackoffMs (reason : DisabledFailureReason) (errorCount : Nat)
    (cfgResolved : ResolvedAuthCooldownConfig) : Rat :=
  match reason with
  | .billing => calculateDisabledLaneBackoffMs errorCount cfgResolved.billingBackoffMs cfgResolved.billingMaxMs
  | .auth_permanent =>
    calculateDisabledLaneBackoffMs errorCount cfgResolved.authPermanentBackoffMs cfgResolved.authPermanentMaxMs

def keepActiveWindowOrRecompute (existingUntil : Option Rat) (now recomputedUntil : Rat) : Rat :=
  match existingUntil with
  | some limit => if now < limit then limit else recomputedUntil
  | none => recomputedUntil

/-- The scope of the cooldown after a failure that passes. -/
def nextCooldownModel (existing : ProfileUsageStats) (now : Rat) (reason : AuthProfileFailureReason)
    (modelId : Option String) : Option String :=
  if existing.cooldownUntil.any (now < ·) then
    if isTruthy existing.cooldownModel && isTruthy modelId && existing.cooldownModel ≠ modelId then none
    else if reason = .rate_limit && !isTruthy modelId && isTruthy existing.cooldownModel then none
    else if reason ≠ .rate_limit then none
    else existing.cooldownModel
  else if reason = .rate_limit then modelId
  else none

def shouldResetCounters (existing : ProfileUsageStats) (now windowMs : Rat) : Bool :=
  (existing.lastFailureAt.any fun lastFailureAt => 0 < lastFailureAt && windowMs < now - lastFailureAt) ||
    (resolveProfileUnusableUntil existing).any (· ≤ now)

def computeNextProfileUsageStats (existing : ProfileUsageStats) (now : Rat) (reason : AuthProfileFailureReason)
    (cfgResolved : ResolvedAuthCooldownConfig) (modelId : Option String) : ProfileUsageStats :=
  let reset := shouldResetCounters existing now cfgResolved.failureWindowMs
  let nextErrorCount := (if reset then 0 else existing.errorCount.getD 0) + 1
  let counts := if reset then [] else existing.failureCounts.getD []
  let failureCounts := assign counts reason ((counts.lookup reason).getD 0 + 1)
  let updatedStats := { existing with
    errorCount := some nextErrorCount
    failureCounts := some failureCounts
    lastFailureAt := some now }
  match disabledFailureReason reason with
  | some disabled =>
    let backoffMs := resolveDisabledFailureBackoffMs disabled ((failureCounts.lookup disabled.toReason).getD 1) cfgResolved
    { updatedStats with
      disabledUntil := some (keepActiveWindowOrRecompute existing.disabledUntil now (now + backoffMs))
      disabledReason := some disabled.toReason }
  | none =>
    let backoffMs := calculateAuthProfileCooldownMs nextErrorCount
    { updatedStats with
      cooldownUntil := some (keepActiveWindowOrRecompute existing.cooldownUntil now (now + backoffMs))
      cooldownReason := some reason
      cooldownModel := nextCooldownModel existing now reason modelId }

/-- What `markAuthProfileFailure` records, without a probe of the provider. -/
def recordFailure (store : AuthProfileStore) (profileId : String) (now : Rat) (reason : AuthProfileFailureReason)
    (cfgResolved : ResolvedAuthCooldownConfig) (modelId : Option String) : AuthProfileStore :=
  updateUsageStatsEntry store profileId fun existing =>
    computeNextProfileUsageStats (existing.getD {}) now reason cfgResolved modelId

end OpenClaw.AuthProfiles

/-!
# Cooldown windows

What failures and expiry do to the windows of one profile, over any run of them: an
active window stays as it is, and a cooldown that another model may bypass was caused
by rate limits of one model alone.
-/

namespace OpenClaw.AuthProfiles

open Members

-- ---
-- Runs
-- ---

inductive UsageEvent
  | failure (profileId : String) (now : Rat) (reason : AuthProfileFailureReason)
      (cfgResolved : ResolvedAuthCooldownConfig) (modelId : Option String)
  | clearExpired (ts : Rat)

def UsageEvent.time : UsageEvent → Rat
  | .failure _ now _ _ _ => now
  | .clearExpired ts => ts

def AuthProfileStore.handle (store : AuthProfileStore) : UsageEvent → AuthProfileStore
  | .failure profileId now reason cfgResolved modelId => recordFailure store profileId now reason cfgResolved modelId
  | .clearExpired ts => (clearExpiredCooldowns store ts).1

def AuthProfileStore.run (store : AuthProfileStore) (events : List UsageEvent) : AuthProfileStore :=
  events.foldl AuthProfileStore.handle store

/-- What an update of the profile starts from. -/
def AuthProfileStore.stats (store : AuthProfileStore) (profileId : String) : ProfileUsageStats :=
  (store.stats? profileId).getD {}

/-- A failure of the profile outside the disable lane. -/
def UsageEvent.isCooldownFailure (profileId : String) : UsageEvent → Bool
  | .failure failed _ reason _ _ => failed = profileId && (disabledFailureReason reason).isNone
  | .clearExpired _ => false

def UsageEvent.isRateLimitOf (model : String) : UsageEvent → Bool
  | .failure _ _ reason _ modelId => reason = .rate_limit && modelId = some model
  | .clearExpired _ => false

/-- What an event does to the stats of one profile. -/
def UsageEvent.update (profileId : String) (stats : ProfileUsageStats) : UsageEvent → ProfileUsageStats
  | .failure failed now reason cfgResolved modelId =>
    if failed = profileId then computeNextProfileUsageStats stats now reason cfgResolved modelId else stats
  | .clearExpired ts => (clearExpiredStats ts stats).1

theorem stats_updateUsageStatsEntry (store : AuthProfileStore) (failed profileId : String)
    (updater : Option ProfileUsageStats → ProfileUsageStats) :
    (updateUsageStatsEntry store failed updater).stats? profileId =
      if profileId = failed then some (updater (store.stats? failed)) else store.stats? profileId := by
  unfold updateUsageStatsEntry AuthProfileStore.stats?
  rw [Option.bind_some, lookup_assign]
  cases store.usageStats <;> rfl

theorem lookup_map_values {κ α β : Type} [BEq κ] (f : α → β) (members : List (κ × α)) (key : κ) :
    (members.map fun member => (member.1, f member.2)).lookup key = (members.lookup key).map f := by
  induction members with
  | nil => rfl
  | cons member members ih =>
    rw [List.map_cons, List.lookup_cons, List.lookup_cons]
    cases key == member.1 with
    | true => rfl
    | false => exact ih

theorem stats_clearExpiredCooldowns (store : AuthProfileStore) (ts : Rat) (profileId : String) :
    (clearExpiredCooldowns store ts).1.stats? profileId =
      (store.stats? profileId).map fun stats => (clearExpiredStats ts stats).1 := by
  unfold clearExpiredCooldowns AuthProfileStore.stats?
  cases h : store.usageStats with
  | none => simp [h]
  | some usageStats => exact lookup_map_values (fun stats => (clearExpiredStats ts stats).1) usageStats profileId

theorem stats_handle (store : AuthProfileStore) (event : UsageEvent) (profileId : String) :
    (store.handle event).stats profileId = event.update profileId (store.stats profileId) := by
  unfold AuthProfileStore.stats
  cases event with
  | failure failed now reason cfgResolved modelId =>
    rw [AuthProfileStore.handle, recordFailure, stats_updateUsageStatsEntry, UsageEvent.update]
    by_cases hprofile : failed = profileId
    · simp [hprofile]
    · simp [hprofile, Ne.symm hprofile]
  | clearExpired ts =>
    rw [AuthProfileStore.handle, stats_clearExpiredCooldowns, UsageEvent.update]
    cases store.stats? profileId <;> rfl

theorem run_append (store : AuthProfileStore) (before after : List UsageEvent) :
    store.run (before ++ after) = (store.run before).run after := List.foldl_append

theorem run_concat (store : AuthProfileStore) (events : List UsageEvent) (event : UsageEvent) :
    store.run (events ++ [event]) = (store.run events).handle event := run_append store events [event]

-- ---
-- Windows
-- ---

/-- The fields of the cooldown lane. -/
structure Cooldown where
  limit : Option Rat
  reason : Option AuthProfileFailureReason
  model : Option String

def ProfileUsageStats.cooldown (stats : ProfileUsageStats) : Cooldown :=
  ⟨stats.cooldownUntil, stats.cooldownReason, stats.cooldownModel⟩

/-- What an event can do to the cooldown of a profile. -/
inductive CooldownChange (event : UsageEvent) (profileId : String) (before after : Cooldown) : Prop
  | untouched (hlane : event.isCooldownFailure profileId = false) (hafter : after = before)
  | cleared (hlane : event.isCooldownFailure profileId = false) (hlimit : before.limit = some limit)
      (hexpired : limit ≤ event.time) (hafter : after = ⟨none, none, none⟩)
  | kept (hlane : event.isCooldownFailure profileId = true) (hlimit : before.limit = some limit)
      (hactive : event.time < limit) (hafter : after.limit = some limit)
      (hmodel : ∀ model, model ≠ "" → after.model = some model →
        before.model = some model ∧ event.isRateLimitOf model = true)
  | opened (hlane : event.isCooldownFailure profileId = true)
      (hexpired : ∀ limit, before.limit = some limit → limit ≤ event.time) (hafter : after.limit = some limit)
      (hmodel : ∀ model, after.model = some model → event.isRateLimitOf model = true)

/-- The scope of an active cooldown is kept for a rate limit of the same model only. -/
theorem nextCooldownModel_active (hactive : stats.cooldownUntil.any (now < ·) = true) (hne : model ≠ "")
    (h : nextCooldownModel stats now reason modelId = some model) :
    stats.cooldownModel = some model ∧ reason = .rate_limit ∧ modelId = some model := by
  rw [nextCooldownModel, if_pos hactive] at h
  split at h
  case isTrue => cases h
  case isFalse hsame =>
    split at h
    case isTrue => cases h
    case isFalse hknown =>
      split at h
      case isTrue => cases h
      case isFalse hreason =>
        have htruthy : isTruthy stats.cooldownModel = true := by simp [h, isTruthy, hne]
        have hreason : reason = .rate_limit := not_not.1 hreason
        simp only [htruthy, hreason, Bool.and_true, Bool.true_and, decide_true, Bool.not_eq_true',
          Bool.not_eq_false, ne_eq, decide_not] at hknown hsame
        rw [hknown] at hsame
        simp only [Bool.true_and, Bool.not_eq_true', decide_eq_false_iff_not, not_not] at hsame
        exact ⟨h, hreason, hsame ▸ h⟩

theorem nextCooldownModel_expired (hexpired : ¬ stats.cooldownUntil.any (now < ·) = true)
    (h : nextCooldownModel stats now reason modelId = some model) : reason = .rate_limit ∧ modelId = some model := by
  rw [nextCooldownModel, if_neg hexpired] at h
  split at h
  case isTrue hreason => exact ⟨hreason, h⟩
  case isFalse => cases h

theorem failure_cooldownChange (stats : ProfileUsageStats) (profileId : String) (now : Rat)
    (reason : AuthProfileFailureReason) (cfgResolved : ResolvedAuthCooldownConfig) (modelId : Option String) :
    CooldownChange (.failure profileId now reason cfgResolved modelId) profileId stats.cooldown
      (computeNextProfileUsageStats stats now reason cfgResolved modelId).cooldown := by
  cases hlane : disabledFailureReason reason with
  | some disabled =>
    refine .untouched (by simp [UsageEvent.isCooldownFailure, hlane]) ?_
    simp only [computeNextProfileUsageStats, hlane, ProfileUsageStats.cooldown]
  | none =>
    have hfailure : (UsageEvent.failure profileId now reason cfgResolved modelId).isCooldownFailure profileId = true := by
      simp [UsageEvent.isCooldownFailure, hlane]
    by_cases hactive : stats.cooldownUntil.any (now < ·) = true
    · obtain ⟨limit, hlimit, hnow⟩ := (Option.any_eq_true _ _).1 hactive
      refine .kept hfailure hlimit (of_decide_eq_true hnow) ?_ fun model hne hmodel => ?_
      · simp only [computeNextProfileUsageStats, hlane, ProfileUsageStats.cooldown, hlimit,
          keepActiveWindowOrRecompute, if_pos (of_decide_eq_true hnow)]
      · simp only [computeNextProfileUsageStats, hlane, ProfileUsageStats.cooldown] at hmodel
        obtain ⟨hbefore, hreason, hid⟩ := nextCooldownModel_active hactive hne hmodel
        exact ⟨hbefore, by simp [UsageEvent.isRateLimitOf, hreason, hid]⟩
    · obtain ⟨limit, hafter⟩ : ∃ limit,
          (computeNextProfileUsageStats stats now reason cfgResolved modelId).cooldown.limit = some limit := by
        simp only [computeNextProfileUsageStats, hlane, ProfileUsageStats.cooldown]
        exact ⟨_, rfl⟩
      refine .opened hfailure (fun limit hlimit => ?_) hafter fun model hmodel => ?_
      · refine not_lt.1 fun hnow => hactive ?_
        have hlt : now < limit := hnow
        simpa [show stats.cooldownUntil = some limit from hlimit] using hlt
      · simp only [computeNextProfileUsageStats, hlane, ProfileUsageStats.cooldown] at hmodel
        obtain ⟨hreason, hid⟩ := nextCooldownModel_expired hactive hmodel
        simp [UsageEvent.isRateLimitOf, hreason, hid]

theorem clearExpiredStats_cooldown (ts : Rat) (stats : ProfileUsageStats) :
    (clearExpiredStats ts stats).1.cooldown =
      if stats.cooldownUntil.any (fun limit => 0 < limit && limit ≤ ts) then ⟨none, none, none⟩ else stats.cooldown := by
  unfold clearExpiredStats ProfileUsageStats.cooldown
  simp only
  split <;> split <;> split <;> rfl

theorem clearExpiredStats_disabledUntil (ts : Rat) (stats : ProfileUsageStats) :
    (clearExpiredStats ts stats).1.disabledUntil =
      if stats.disabledUntil.any (fun limit => 0 < limit && limit ≤ ts) then none else stats.disabledUntil := by
  unfold clearExpiredStats
  simp only
  split <;> split <;> split <;> rfl

/-- The one statement about the cooldown lane that every run is followed by. -/
theorem update_cooldownChange (event : UsageEvent) (profileId : String) (stats : ProfileUsageStats) :
    CooldownChange event profileId stats.cooldown (event.update profileId stats).cooldown := by
  cases event with
  | failure failed now reason cfgResolved modelId =>
    rw [UsageEvent.update]
    split
    case isTrue hprofile => exact hprofile ▸ failure_cooldownChange stats failed now reason cfgResolved modelId
    case isFalse hprofile => exact .untouched (by simp [UsageEvent.isCooldownFailure, hprofile]) rfl
  | clearExpired ts =>
    rw [UsageEvent.update, clearExpiredStats_cooldown]
    split
    case isTrue hexpired =>
      obtain ⟨limit, hlimit, hts⟩ := (Option.any_eq_true _ _).1 hexpired
      exact .cleared rfl hlimit (of_decide_eq_true (Bool.and_eq_true_iff.1 hts).2) rfl
    case isFalse => exact .untouched rfl rfl

theorem update_cooldownUntil (event : UsageEvent) (profileId : String) {stats : ProfileUsageStats}
    (hlimit : stats.cooldownUntil = some limit) (hactive : event.time < limit) :
    (event.update profileId stats).cooldownUntil = some limit := by
  cases update_cooldownChange event profileId stats with
  | untouched _ hafter => exact (congrArg Cooldown.limit hafter).trans hlimit
  | cleared _ hbefore hexpired =>
    cases hlimit.symm.trans hbefore
    exact absurd hactive (not_lt.2 hexpired)
  | kept _ hbefore _ hafter =>
    cases hlimit.symm.trans hbefore
    exact hafter
  | opened _ hexpired => exact absurd hactive (not_lt.2 (hexpired limit hlimit))

theorem update_disabledUntil (event : UsageEvent) (profileId : String) {stats : ProfileUsageStats}
    (hlimit : stats.disabledUntil = some limit) (hactive : event.time < limit) :
    (event.update profileId stats).disabledUntil = some limit := by
  cases event with
  | failure failed now reason cfgResolved modelId =>
    have hnow : now < limit := hactive
    rw [UsageEvent.update]
    split
    case isTrue =>
      cases hlane : disabledFailureReason reason with
      | none => simpa only [computeNextProfileUsageStats, hlane] using hlimit
      | some disabled =>
        simp only [computeNextProfileUsageStats, hlane, hlimit, keepActiveWindowOrRecompute, if_pos hnow]
    case isFalse => exact hlimit
  | clearExpired ts =>
    have hts : ts < limit := hactive
    rw [UsageEvent.update, clearExpiredStats_disabledUntil, hlimit, if_neg]
    simp [not_le.2 hts]

-- ---
-- Runs
-- ---

/-- No window is open, as for a profile that never failed or was used since. -/
structure ProfileUsageStats.NoWindows (stats : ProfileUsageStats) : Prop where
  cooldownUntil : stats.cooldownUntil = none
  cooldownModel : stats.cooldownModel = none
  disabledUntil : stats.disabledUntil = none

theorem run_cooldownUntil (profileId : String) (store : AuthProfileStore) (events : List UsageEvent)
    (hlimit : (store.stats profileId).cooldownUntil = some limit) (hactive : ∀ event ∈ events, event.time < limit) :
    ((store.run events).stats profileId).cooldownUntil = some limit := by
  induction events generalizing store with
  | nil => exact hlimit
  | cons event events ih =>
    obtain ⟨hevent, hactive⟩ := List.forall_mem_cons.1 hactive
    refine ih (store.handle event) ?_ hactive
    rw [stats_handle]
    exact update_cooldownUntil event profileId hlimit hevent

theorem run_disabledUntil (profileId : String) (store : AuthProfileStore) (events : List UsageEvent)
    (hlimit : (store.stats profileId).disabledUntil = some limit) (hactive : ∀ event ∈ events, event.time < limit) :
    ((store.run events).stats profileId).disabledUntil = some limit := by
  induction events generalizing store with
  | nil => exact hlimit
  | cons event events ih =>
    obtain ⟨hevent, hactive⟩ := List.forall_mem_cons.1 hactive
    refine ih (store.handle event) ?_ hactive
    rw [stats_handle]
    exact update_disabledUntil event profileId hlimit hevent

/-- The cooldown of the profile was opened by `opening`, after the events `before`, and
is the same window ever since. -/
structure OpenedBy (store : AuthProfileStore) (profileId : String) (before : List UsageEvent) (opening : UsageEvent)
    (after : List UsageEvent) (limit : Rat) : Prop where
  lane : opening.isCooldownFailure profileId = true
  expired : ∀ old, ((store.run before).stats profileId).cooldownUntil = some old → old ≤ opening.time
  window : ∀ rest, rest <+: after →
    ((store.run (before ++ opening :: rest)).stats profileId).cooldownUntil = some limit

/-- The failures of the cooldown lane since the window opened are rate limits of one model. -/
def LimitedTo (profileId model : String) (events : List UsageEvent) : Prop :=
  ∀ event ∈ events, event.isCooldownFailure profileId = true → event.isRateLimitOf model = true

/-- The scope of a cooldown tells what opened it and what failed since. -/
theorem run_scope (store : AuthProfileStore) (profileId : String) (hfresh : (store.stats profileId).NoWindows)
    (events : List UsageEvent) (hne : model ≠ "")
    (hmodel : ((store.run events).stats profileId).cooldownModel = some model) :
    ∃ before opening after limit, events = before ++ opening :: after ∧
      OpenedBy store profileId before opening after limit ∧ LimitedTo profileId model (opening :: after) := by
  induction events using List.reverseRecOn generalizing model with
  | nil =>
    rw [AuthProfileStore.run, List.foldl_nil, hfresh.cooldownModel] at hmodel
    cases hmodel
  | append_singleton events event ih =>
    have hchange := update_cooldownChange event profileId ((store.run events).stats profileId)
    rw [← stats_handle, ← run_concat] at hchange
    -- the window stays, and the event is in its scope
    have hextend : ((store.run events).stats profileId).cooldownModel = some model →
        ((store.run (events ++ [event])).stats profileId).cooldownUntil =
          ((store.run events).stats profileId).cooldownUntil →
        (event.isCooldownFailure profileId = true → event.isRateLimitOf model = true) →
        ∃ before opening after limit, events ++ [event] = before ++ opening :: after ∧
          OpenedBy store profileId before opening after limit ∧ LimitedTo profileId model (opening :: after) := by
      intro hbefore hsame hscope
      obtain ⟨before, opening, after, limit, rfl, hopened, hlimited⟩ := ih hne hbefore
      refine ⟨before, opening, after ++ [event], limit, by simp, ⟨hopened.lane, hopened.expired, ?_⟩, ?_⟩
      · intro rest hrest
        rcases List.prefix_concat_iff.1 hrest with rfl | hrest
        · rw [← hopened.window after (List.prefix_refl after), ← hsame]
          simp
        · exact hopened.window rest hrest
      · intro other hother
        rw [← List.cons_append, List.mem_append, List.mem_singleton] at hother
        rcases hother with hother | rfl
        · exact hlimited other hother
        · exact hscope
    cases hchange with
    | untouched hlane hafter =>
      refine hextend ?_ (congrArg Cooldown.limit hafter) fun h => ?_
      · rw [← hmodel]
        exact (congrArg Cooldown.model hafter).symm
      · rw [hlane] at h
        cases h
    | cleared _ _ _ hafter =>
      rw [show ((store.run (events ++ [event])).stats profileId).cooldownModel = none from
        congrArg Cooldown.model hafter] at hmodel
      cases hmodel
    | kept hlane hlimit _ hafter hscope =>
      obtain ⟨hbefore, hrate⟩ := hscope model hne hmodel
      exact hextend hbefore (hafter.trans hlimit.symm) fun _ => hrate
    | @opened limit hlane hexpired hafter hscope =>
      refine ⟨events, event, [], limit, rfl, ⟨hlane, hexpired, ?_⟩, ?_⟩
      · rintro rest hrest
        rw [List.prefix_nil.1 hrest]
        exact hafter
      · rintro other hother -
        rw [List.mem_singleton.1 hother]
        exact hscope model hmodel

/-- A profile that no disable window sets aside is in a cooldown. -/
theorem resolveProfileUnusableUntil_cooldown (h : (resolveProfileUnusableUntil stats).any (now < ·) = true)
    (hdisabled : isActiveUnusableWindow stats.disabledUntil now = false) :
    ∃ limit, stats.cooldownUntil = some limit ∧ now < limit := by
  have hexpired : ∀ limit, stats.disabledUntil.filter (0 < ·) = some limit → ¬ now < limit := by
    intro limit hlimit hnow
    obtain ⟨hlimit, hpos⟩ := Option.filter_eq_some_iff.1 hlimit
    rw [isActiveUnusableWindow, hlimit, Option.any_some, hpos, Bool.true_and] at hdisabled
    exact of_decide_eq_false hdisabled hnow
  unfold resolveProfileUnusableUntil at h
  cases hcooldown : stats.cooldownUntil.filter (0 < ·) with
  | none =>
    rw [hcooldown] at h
    obtain ⟨limit, hlimit, hnow⟩ := (Option.any_eq_true _ _).1 h
    exact absurd (of_decide_eq_true hnow) (hexpired limit hlimit)
  | some limit =>
    refine ⟨limit, (Option.filter_eq_some_iff.1 hcooldown).1, ?_⟩
    rw [hcooldown] at h
    cases hlimit : stats.disabledUntil.filter (0 < ·) with
    | none => simpa [hlimit] using h
    | some disabled =>
      have hmax : now < limit ∨ now < disabled := by simpa [hlimit] using h
      exact hmax.resolve_right (hexpired disabled hlimit)

/-- Where a model is let through, the profile is in a cooldown for any other caller, and
only that cooldown is bypassed. -/
theorem isProfileInCooldown_bypass {store : AuthProfileStore}
    (hclosed : isProfileInCooldown store profileId now none = true)
    (hopen : isProfileInCooldown store profileId now (some model) = false) :
    (∃ limited, (store.stats profileId).cooldownModel = some limited ∧ limited ≠ "" ∧ limited ≠ model) ∧
      (∃ limit, (store.stats profileId).cooldownUntil = some limit ∧ now < limit) ∧
      isActiveUnusableWindow (store.stats profileId).disabledUntil now = false := by
  unfold isProfileInCooldown at hclosed hopen
  split at hclosed
  case isTrue => cases hclosed
  case isFalse hprovider =>
    rw [if_neg hprovider] at hopen
    unfold AuthProfileStore.stats
    cases hstats : store.stats? profileId with
    | none =>
      rw [hstats] at hclosed
      cases hclosed
    | some stats =>
      rw [hstats] at hclosed hopen
      simp only [Option.getD_some] at hclosed hopen ⊢
      have hnone : shouldBypassModelScopedCooldown stats now none = false := rfl
      rw [hnone] at hclosed
      cases hbypass : shouldBypassModelScopedCooldown stats now (some model) with
      | false =>
        rw [hbypass] at hopen
        exact absurd (hclosed.symm.trans hopen) nofun
      | true =>
        simp only [shouldBypassModelScopedCooldown, Bool.and_eq_true, Bool.not_eq_true'] at hbypass
        obtain ⟨⟨⟨-, htruthy⟩, hother⟩, hdisabled⟩ := hbypass
        obtain ⟨limited, hlimited, hne⟩ := (Option.any_eq_true _ _).1 htruthy
        refine ⟨⟨limited, hlimited, of_decide_eq_true hne, ?_⟩,
          resolveProfileUnusableUntil_cooldown hclosed hdisabled, hdisabled⟩
        rintro rfl
        exact of_decide_eq_true hother hlimited

/-- Over any run of failures and expiries from a profile without windows: an active
window stays as it is for as long as it is active; and where the cooldown of the
profile is bypassed for a model, the failures of the cooldown lane since the window
opened were rate limits of one other model, and no disable window is active. -/
theorem cooldown_windows (store : AuthProfileStore) (profileId : String)
    (hfresh : (store.stats profileId).NoWindows) (events : List UsageEvent) :
    (∀ before after limit, events = before ++ after → (∀ event ∈ after, event.time < limit) →
      (((store.run before).stats profileId).cooldownUntil = some limit →
        ((store.run events).stats profileId).cooldownUntil = some limit) ∧
      (((store.run before).stats profileId).disabledUntil = some limit →
        ((store.run events).stats profileId).disabledUntil = some limit)) ∧
    ∀ now model, isProfileInCooldown (store.run events) profileId now none = true →
      isProfileInCooldown (store.run events) profileId now (some model) = false →
        (∃ before opening after limit limited, events = before ++ opening :: after ∧
          OpenedBy store profileId before opening after limit ∧ now < limit ∧
          limited ≠ model ∧ LimitedTo profileId limited (opening :: after)) ∧
        isActiveUnusableWindow ((store.run events).stats profileId).disabledUntil now = false := by
  constructor
  · rintro before after limit rfl hactive
    rw [run_append]
    exact ⟨fun hlimit => run_cooldownUntil profileId _ after hlimit hactive,
      fun hlimit => run_disabledUntil profileId _ after hlimit hactive⟩
  · intro now model hclosed hopen
    obtain ⟨⟨limited, hscope, hne, hother⟩, ⟨limit, hlimit, hnow⟩, hdisabled⟩ :=
      isProfileInCooldown_bypass hclosed hopen
    obtain ⟨before, opening, after, limit', rfl, hopened, hlimited⟩ := run_scope store profileId hfresh events hne hscope
    have hsame := hopened.window after (List.prefix_refl after)
    cases hlimit.symm.trans hsame
    exact ⟨⟨before, opening, after, limit, limited, rfl, hopened, hnow, hother, hlimited⟩, hdisabled⟩

/-- One rate limit of one model, and another model asks. -/
theorem cooldown_windows_rateLimit :
    ∃ limited, limited ≠ "o3" ∧
      LimitedTo "main" limited [.failure "main" 1000 .rate_limit ⟨1, 1, 1, 1, 1⟩ (some "gpt")] := by
  have hclosed : isProfileInCooldown (AuthProfileStore.run ⟨[("main", "openai")], none⟩
      [.failure "main" 1000 .rate_limit ⟨1, 1, 1, 1, 1⟩ (some "gpt")]) "main" 2000 none = true := by decide +kernel
  have hopen : isProfileInCooldown (AuthProfileStore.run ⟨[("main", "openai")], none⟩
      [.failure "main" 1000 .rate_limit ⟨1, 1, 1, 1, 1⟩ (some "gpt")]) "main" 2000 (some "o3") = false := by
    decide
  obtain ⟨⟨before, opening, after, limit, limited, hevents, -, -, hother, hlimited⟩, -⟩ :=
    (cooldown_windows _ "main" ⟨rfl, rfl, rfl⟩ _).2 2000 "o3" hclosed hopen
  cases before with
  | nil => exact ⟨limited, hother, hevents ▸ hlimited⟩
  | cons event before => simp at hevents

end OpenClaw.AuthProfiles
