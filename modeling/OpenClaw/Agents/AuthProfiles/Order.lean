import OpenClaw.Agents.AuthProfiles
import OpenClaw.Lib.OrderedSet
import OpenClaw.Lib.Stable

/-!
# The order of auth profiles

The profiles of a provider in the order they are tried in: as configured, or by type and last
use, with those in cooldown at the end. Profiles that are used in this order take turns.
-/

namespace OpenClaw.AuthProfiles

open Members

-- ---
-- Credentials
-- ---

inductive CredentialType
  | oauth
  | token
  | api_key
  deriving DecidableEq

/-- The `expires` of a token. -/
inductive TokenExpiry
  | finite (time : Rat)
  /-- Neither absent nor a finite number. -/
  | malformed

/-- Values that are no text are absent; of a reference, whether `coerceSecretRef` finds one. -/
inductive AuthProfileCredential
  | api_key (provider : String) (key : Option String) (keyRef : Bool)
  | token (provider : String) (token : Option String) (tokenRef : Bool)
      (expires : Option TokenExpiry)
  | oauth (provider : String) (access refresh : Option String)

namespace AuthProfileCredential

def provider : AuthProfileCredential → String
  | api_key provider _ _ | token provider _ _ _ | oauth provider _ _ => provider

def type : AuthProfileCredential → CredentialType
  | api_key .. => .api_key
  | token .. => .token
  | oauth .. => .oauth

end AuthProfileCredential

structure OrderedAuthStore where
  profiles : List (String × AuthProfileCredential)
  order : Option (List (String × List String)) := none
  usageStats : Option (List (String × ProfileUsageStats)) := none

/-- What is read of the store to tell a profile in cooldown. -/
def OrderedAuthStore.usage (store : OrderedAuthStore) : AuthProfileStore where
  profiles := store.profiles.map fun entry => (entry.1, entry.2.provider)
  usageStats := store.usageStats

/-- What is read of `cfg.auth`. -/
structure AuthConfig where
  /-- The provider and the mode of each. -/
  profiles : List (String × String × CredentialType) := []
  order : List (String × List String) := []

def normalizeProviderIdForAuth (provider : String) : String :=
  let normalized := normalizeProviderId provider
  if normalized = "volcengine-plan" then "volcengine"
  else if normalized = "byteplus-plan" then "byteplus"
  else normalized

def findNormalizedProviderValue (entries : List (String × α)) (provider : String) : Option α :=
  (entries.find? fun entry => normalizeProviderId entry.1 = normalizeProviderId provider).map (·.2)

def normalizeSecretInputString (value : Option String) : Option String :=
  (value.map Js.trim).filter (· ≠ "")

inductive AuthCredentialReasonCode
  | ok
  | missing_credential
  | invalid_expires
  | expired
  deriving DecidableEq

/-- The reason; the credential is eligible if it is `ok`. -/
def evaluateStoredCredentialEligibility (now : Rat) :
    AuthProfileCredential → AuthCredentialReasonCode
  | .api_key _ key keyRef =>
    if (normalizeSecretInputString key).isNone && !keyRef then .missing_credential else .ok
  | .token _ token tokenRef expires =>
    if (normalizeSecretInputString token).isNone && !tokenRef then .missing_credential
    else match expires with
      | none => .ok
      | some .malformed => .invalid_expires
      | some (.finite time) =>
        if time ≤ 0 then .invalid_expires else if time ≤ now then .expired else .ok
  | .oauth _ access refresh =>
    if (normalizeSecretInputString access).isNone &&
        (normalizeSecretInputString refresh).isNone then
      .missing_credential
    else .ok

inductive AuthProfileEligibilityReasonCode
  | credential (code : AuthCredentialReasonCode)
  | profile_missing
  | provider_mismatch
  | mode_mismatch
  deriving DecidableEq

def resolveAuthProfileEligibility (cfg : AuthConfig) (store : OrderedAuthStore) (provider : String)
    (now : Rat) (profileId : String) : AuthProfileEligibilityReasonCode :=
  let providerAuthKey := normalizeProviderIdForAuth provider
  match store.profiles.lookup profileId with
  | none => .profile_missing
  | some cred =>
    if normalizeProviderIdForAuth cred.provider ≠ providerAuthKey then .provider_mismatch
    else
      let eligibility := .credential (evaluateStoredCredentialEligibility now cred)
      match cfg.profiles.lookup profileId with
      | none => eligibility
      | some (provider, mode) =>
        if normalizeProviderIdForAuth provider ≠ providerAuthKey then .provider_mismatch
        else if mode ≠ cred.type && !(mode = .oauth && cred.type = .token) then .mode_mismatch
        else eligibility

-- ---
-- The order
-- ---

/-- The readings of the clock during a call. -/
structure OrderClock where
  now : Rat
  /-- When it is asked whether a profile is in cooldown. -/
  checked : String → Rat
  /-- At the start of `orderProfilesByMode`. -/
  ordered : Rat

def listProfilesForProvider (store : OrderedAuthStore) (provider : String) : List String :=
  (store.profiles.filter fun entry =>
    normalizeProviderIdForAuth entry.2.provider = normalizeProviderIdForAuth provider).map (·.1)

def explicitOrder (cfg : AuthConfig) (store : OrderedAuthStore) (provider : String) :
    Option (List String) :=
  let providerKey := normalizeProviderId provider
  (findNormalizedProviderValue (store.order.getD []) providerKey).or
    (findNormalizedProviderValue cfg.order providerKey)

def explicitProfiles (cfg : AuthConfig) (provider : String) : List String :=
  (cfg.profiles.filter fun entry =>
    normalizeProviderIdForAuth entry.2.1 = normalizeProviderIdForAuth provider).map (·.1)

def baseOrder (cfg : AuthConfig) (store : OrderedAuthStore) (provider : String) : List String :=
  (explicitOrder cfg store provider).getD
    (if explicitProfiles cfg provider = [] then listProfilesForProvider store provider
      else explicitProfiles cfg provider)

def isValidProfile (cfg : AuthConfig) (store : OrderedAuthStore) (provider : String) (now : Rat)
    (profileId : String) : Bool :=
  resolveAuthProfileEligibility cfg store (normalizeProviderIdForAuth provider) now profileId =
    .credential .ok

def allBaseProfilesMissing (cfg : AuthConfig) (store : OrderedAuthStore) (provider : String) :
    Bool :=
  (baseOrder cfg store provider).all fun profileId => (store.profiles.lookup profileId).isNone

def filteredProfiles (cfg : AuthConfig) (store : OrderedAuthStore) (provider : String)
    (now : Rat) : List String :=
  let filtered := (baseOrder cfg store provider).filter (isValidProfile cfg store provider now)
  if filtered = [] && explicitProfiles cfg provider ≠ [] &&
      allBaseProfilesMissing cfg store provider then
    (listProfilesForProvider store provider).filter (isValidProfile cfg store provider now)
  else filtered

section
variable (store : OrderedAuthStore) (clock : OrderClock)

/-- `isProfileInCooldown`, asked without a model. -/
def inCooldown (profileId : String) : Bool :=
  isProfileInCooldown store.usage profileId (clock.checked profileId) none

def cooldownUntil (now : Rat) (profileId : String) : Rat :=
  (resolveProfileUnusableUntil ((store.usage.stats? profileId).getD {})).getD now

def sortCooldowns (now : Rat) (profileIds : List String) : List String :=
  profileIds.insertionSort fun a b => cooldownUntil store now a ≤ cooldownUntil store now b

def typeScore (profileId : String) : Nat :=
  match (store.profiles.lookup profileId).map AuthProfileCredential.type with
  | some .oauth => 0
  | some .token => 1
  | some .api_key => 2
  | none => 3

/-- When a profile was last used, `0` if never. -/
def lastUsedIn (usageStats : Option (List (String × ProfileUsageStats))) (profileId : String) :
    Rat :=
  ((usageStats.bind (·.lookup profileId)).bind (·.lastUsed)).getD 0

def lastUsed (profileId : String) : Rat := lastUsedIn store.usageStats profileId

def compareScored (a b : String) : Rat :=
  if typeScore store a ≠ typeScore store b then (typeScore store a : Rat) - typeScore store b
  else lastUsed store a - lastUsed store b

def orderProfilesByMode (order : List String) : List String :=
  (order.filter fun profileId => !inCooldown store clock profileId).insertionSort
      (fun a b => compareScored store a b ≤ 0) ++
    sortCooldowns store clock.ordered (order.filter (inCooldown store clock))

end

def preferFirst (preferredProfile : Option String) (order : List String) : List String :=
  match preferredProfile with
  | none => order
  | some preferred =>
    if preferred ≠ "" && order.contains preferred then preferred :: order.filter (· ≠ preferred)
    else order

def clearExpired (store : OrderedAuthStore) (now : Rat) : OrderedAuthStore :=
  { store with usageStats := (clearExpiredCooldowns store.usage now).1.usageStats }

/-- The order, and the store whose expired cooldowns are cleared. -/
def resolveAuthProfileOrder (cfg : AuthConfig) (store : OrderedAuthStore) (provider : String)
    (preferredProfile : Option String) (clock : OrderClock) : List String × OrderedAuthStore :=
  let store := clearExpired store clock.now
  if baseOrder cfg store provider = [] then ([], store)
  else
    let deduped := OrderedSet.ofList (filteredProfiles cfg store provider clock.now)
    if (explicitOrder cfg store provider).any (· ≠ []) then
      let available := deduped.filter fun profileId => !inCooldown store clock profileId
      let cooldownSorted :=
        sortCooldowns store clock.now (deduped.filter (inCooldown store clock))
      (preferFirst preferredProfile (available ++ cooldownSorted), store)
    else (preferFirst preferredProfile (orderProfilesByMode store clock deduped), store)

-- ---
-- Uses
-- ---

/-- The store that a caller holds, and the one on disk, of which the ids of the profiles and
the usage are read. -/
structure AuthStores where
  memory : OrderedAuthStore
  diskProfiles : List String
  diskStats : Option (List (String × ProfileUsageStats))

def usedStats (stats : Option (List (String × ProfileUsageStats))) (profileId : String)
    (time : Rat) : Option (List (String × ProfileUsageStats)) :=
  (updateUsageStatsEntry ⟨[], stats⟩ profileId fun existing =>
    resetUsageStats existing (some time)).usageStats

/-- Where the store on disk cannot be locked, the store in memory is saved. -/
def markAuthProfileUsed (locked : Bool) (profileId : String) (time : Rat) (stores : AuthStores) :
    AuthStores :=
  if locked then
    let updated := if profileId ∈ stores.diskProfiles then
        usedStats stores.diskStats profileId time
      else stores.diskStats
    { stores with memory := { stores.memory with usageStats := updated }, diskStats := updated }
  else if (stores.memory.profiles.lookup profileId).isSome then
    let updated := usedStats stores.memory.usageStats profileId time
    { memory := { stores.memory with usageStats := updated }
      diskProfiles := stores.memory.profiles.map (·.1)
      diskStats := updated }
  else stores

-- ---
-- What is ordered
-- ---

/-- The eligible profiles of the base order; where none of these is in the store but the
config has profiles of the provider, the eligible profiles of the store. -/
def Ordered (cfg : AuthConfig) (store : OrderedAuthStore) (provider : String) (now : Rat)
    (profileId : String) : Prop :=
  isValidProfile cfg store provider now profileId = true ∧
    if baseOrder cfg store provider ≠ [] ∧ explicitProfiles cfg provider ≠ [] ∧
        allBaseProfilesMissing cfg store provider = true then
      profileId ∈ listProfilesForProvider store provider
    else profileId ∈ baseOrder cfg store provider

/-- What comes after a profile in cooldown is in cooldown, unless that profile is preferred. -/
def CooldownLast (waits : String → Bool) (preferredProfile : Option String)
    (order : List String) : Prop :=
  order.Pairwise fun a b => preferredProfile = some a ∨ (waits a = true → waits b = true)

section
variable {cfg : AuthConfig} {store : OrderedAuthStore} {provider : String}

theorem isValidProfile_of_missing (h : store.profiles.lookup profileId = none) :
    isValidProfile cfg store provider now profileId = false := by
  simp [isValidProfile, resolveAuthProfileEligibility, h]

theorem filter_isValidProfile_of_missing (h : allBaseProfilesMissing cfg store provider = true) :
    (baseOrder cfg store provider).filter (isValidProfile cfg store provider now) = [] := by
  refine List.filter_eq_nil_iff.mpr ?_
  intro profileId hbase
  have hmissing := List.all_eq_true.mp h profileId hbase
  simp [isValidProfile_of_missing (Option.isNone_iff_eq_none.mp hmissing)]

theorem mem_filteredProfiles (hbase : baseOrder cfg store provider ≠ []) :
    profileId ∈ filteredProfiles cfg store provider now ↔
      Ordered cfg store provider now profileId := by
  unfold filteredProfiles Ordered
  dsimp only
  by_cases hmissing : allBaseProfilesMissing cfg store provider = true
  · rw [filter_isValidProfile_of_missing hmissing]
    by_cases hexplicit : explicitProfiles cfg provider = []
    · have hnot (hmem : profileId ∈ baseOrder cfg store provider) :
          isValidProfile cfg store provider now profileId = false := by
        have hnone := List.all_eq_true.mp hmissing profileId hmem
        exact isValidProfile_of_missing (Option.isNone_iff_eq_none.mp hnone)
      simp only [hexplicit]
      simpa using fun hvalid hmem => by simp [hnot hmem] at hvalid
    · simp [hbase, hexplicit, hmissing, and_comm]
  · simp [hmissing, and_comm]

theorem mem_preferFirst (preferredProfile : Option String) (order : List String) :
    profileId ∈ preferFirst preferredProfile order ↔ profileId ∈ order := by
  cases preferredProfile with
  | none => rfl
  | some preferred =>
    rw [preferFirst]
    split
    · rename_i hpreferred
      simp only [Bool.and_eq_true, List.contains_iff_mem] at hpreferred
      by_cases heq : profileId = preferred
      · simp [heq, hpreferred.2]
      · simp [heq]
    · rfl

theorem preferFirst_nodup (preferredProfile : Option String) (h : order.Nodup) :
    (preferFirst preferredProfile order).Nodup := by
  cases preferredProfile with
  | none => exact h
  | some preferred =>
    rw [preferFirst]
    split
    · exact List.nodup_cons.mpr ⟨by simp, h.filter _⟩
    · exact h

theorem preferFirst_cooldownLast (preferredProfile : Option String)
    (h : CooldownLast waits none order) :
    CooldownLast waits preferredProfile (preferFirst preferredProfile order) := by
  have hweak (l : List String) (hl : l.Sublist order) :
      CooldownLast waits preferredProfile l :=
    (List.Pairwise.sublist hl h).imp fun hlast => .inr (hlast.resolve_left nofun)
  cases preferredProfile with
  | none => exact h
  | some preferred =>
    rw [preferFirst]
    split
    · exact List.pairwise_cons.mpr ⟨fun _ _ => .inl rfl, hweak _ List.filter_sublist⟩
    · exact hweak _ (List.Sublist.refl _)

theorem append_cooldownLast (havailable : ∀ a ∈ available, waits a = false)
    (hcooldown : ∀ a ∈ cooldown, waits a = true) :
    CooldownLast waits none (available ++ cooldown) := by
  have hfirst (a b : String) (ha : a ∈ available) (hin : waits a = true) : waits b = true := by
    simp [havailable a ha] at hin
  refine List.pairwise_append.mpr ⟨?_, ?_, ?_⟩
  · exact List.pairwise_of_forall_mem_list fun a ha b _ => .inr (hfirst a b ha)
  · exact List.pairwise_of_forall_mem_list fun _ _ b hb => .inr fun _ => hcooldown b hb
  · exact fun a ha b _ => .inr (hfirst a b ha)

/-- The available profiles, and after them those in cooldown. -/
theorem resolveAuthProfileOrder_parts (preferredProfile : Option String) (clock : OrderClock)
    (hbase : baseOrder cfg store provider ≠ []) :
    ∃ available cooldown,
      (resolveAuthProfileOrder cfg store provider preferredProfile clock).1 =
        preferFirst preferredProfile (available ++ cooldown) ∧
      available.Perm ((OrderedSet.ofList (filteredProfiles cfg store provider clock.now)).filter
        fun profileId => !inCooldown (clearExpired store clock.now) clock profileId) ∧
      cooldown.Perm ((OrderedSet.ofList (filteredProfiles cfg store provider clock.now)).filter
        (inCooldown (clearExpired store clock.now) clock)) := by
  have hbase' : baseOrder cfg (clearExpired store clock.now) provider ≠ [] := hbase
  unfold resolveAuthProfileOrder
  simp only [if_neg hbase']
  split
  · exact ⟨_, _, rfl, List.Perm.refl _, List.perm_insertionSort _ _⟩
  · exact ⟨_, _, rfl, List.perm_insertionSort _ _, List.perm_insertionSort _ _⟩

theorem resolveAuthProfileOrder_orders (cfg : AuthConfig) (store : OrderedAuthStore)
    (provider : String) (preferredProfile : Option String) (clock : OrderClock) :
    (resolveAuthProfileOrder cfg store provider preferredProfile clock).1.Nodup ∧
      (∀ profileId,
        profileId ∈ (resolveAuthProfileOrder cfg store provider preferredProfile clock).1 ↔
          Ordered cfg store provider clock.now profileId) ∧
      CooldownLast (inCooldown (clearExpired store clock.now) clock) preferredProfile
        (resolveAuthProfileOrder cfg store provider preferredProfile clock).1 := by
  by_cases hbase : baseOrder cfg store provider = []
  · have hempty : (resolveAuthProfileOrder cfg store provider preferredProfile clock).1 = [] := by
      have hbase' : baseOrder cfg (clearExpired store clock.now) provider = [] := hbase
      simp [resolveAuthProfileOrder, hbase']
    rw [hempty]
    refine ⟨List.nodup_nil, ?_, List.Pairwise.nil⟩
    simp [Ordered, hbase]
  · obtain ⟨available, cooldown, hparts, havailable, hcooldown⟩ :=
      resolveAuthProfileOrder_parts preferredProfile clock hbase
    have hperm := havailable.append hcooldown
    rw [hparts]
    refine ⟨preferFirst_nodup preferredProfile (hperm.nodup_iff.mpr ?_), ?_, ?_⟩
    · have hnodup := OrderedSet.nodup_ofList (filteredProfiles cfg store provider clock.now)
      refine List.Nodup.append (hnodup.filter _) (hnodup.filter _) ?_
      intro profileId hout hin
      simp only [List.mem_filter, Bool.not_eq_true'] at hout hin
      simp [hout.2] at hin
    · intro profileId
      rw [mem_preferFirst, hperm.mem_iff, ← mem_filteredProfiles hbase]
      have hdeduped := OrderedSet.mem_foldl_add (b := profileId) []
        (filteredProfiles cfg store provider clock.now)
      simp only [List.not_mem_nil, false_or] at hdeduped
      rw [← hdeduped, List.mem_append, List.mem_filter, List.mem_filter]
      cases inCooldown (clearExpired store clock.now) clock profileId <;>
        simp [OrderedSet.ofList]
    · refine preferFirst_cooldownLast preferredProfile (append_cooldownLast ?_ ?_)
      · intro profileId hmem
        simpa using (List.mem_filter.mp (havailable.mem_iff.mp hmem)).2
      · intro profileId hmem
        exact (List.mem_filter.mp (hcooldown.mem_iff.mp hmem)).2

end

-- ---
-- The first profile
-- ---

section
variable (store : OrderedAuthStore)

theorem compareScored_le : compareScored store a b ≤ 0 ↔
    typeScore store a < typeScore store b ∨
      typeScore store a = typeScore store b ∧ lastUsed store a ≤ lastUsed store b := by
  unfold compareScored
  split
  · rename_i hne
    rw [sub_nonpos, Nat.cast_le]
    exact ⟨fun h => .inl (lt_of_le_of_ne h hne), fun h => (h.resolve_right fun h => hne h.1).le⟩
  · rename_i heq
    rw [sub_nonpos]
    simp [not_not.mp heq]

instance compareScored_total : Std.Total fun a b => compareScored store a b ≤ 0 where
  total a b := by
    rw [compareScored_le, compareScored_le]
    rcases lt_trichotomy (typeScore store a) (typeScore store b) with h | h | h
    · exact .inl (.inl h)
    · exact (le_total (lastUsed store a) (lastUsed store b)).imp (.inr ⟨h, ·⟩) (.inr ⟨h.symm, ·⟩)
    · exact .inr (.inl h)

instance compareScored_trans : IsTrans String fun a b => compareScored store a b ≤ 0 where
  trans a b c := by
    simp only [compareScored_le]
    rintro (hab | ⟨hab, hab'⟩) (hbc | ⟨hbc, hbc'⟩)
    · exact .inl (hab.trans hbc)
    · exact .inl (hbc ▸ hab)
    · exact .inl (hab ▸ hbc)
    · exact .inr ⟨hab.trans hbc, hab'.trans hbc'⟩

/-- The first of the profiles was used no later than an available one of the same type. -/
theorem lastUsed_head_le {clock : OrderClock} {order : List String}
    (hhead : (orderProfilesByMode store clock order).head? = some first)
    (hother : other ∈ order) (havailable : inCooldown store clock other = false)
    (htype : typeScore store other = typeScore store first) :
    lastUsed store first ≤ lastUsed store other := by
  have hmem : other ∈ order.filter fun profileId => !inCooldown store clock profileId := by
    simp [hother, havailable]
  have hsorted := (List.mem_insertionSort fun a b => compareScored store a b ≤ 0).mpr hmem
  unfold orderProfilesByMode at hhead
  rw [List.head?_append_of_ne_nil _ (List.ne_nil_of_mem hsorted)] at hhead
  by_cases hne : other = first
  · rw [hne]
  · have hle := Stable.rel_of_head hhead hmem hne
    rw [compareScored_le, htype] at hle
    exact (hle.resolve_left (lt_irrefl _)).2

end

-- ---
-- Last uses
-- ---

theorem lastUsedIn_usedStats (stats : Option (List (String × ProfileUsageStats)))
    (used : String) (time : Rat) (profileId : String) :
    lastUsedIn (usedStats stats used time) profileId =
      if profileId = used then time else lastUsedIn stats profileId := by
  have hstats := stats_updateUsageStatsEntry ⟨[], stats⟩ used profileId
    fun existing => resetUsageStats existing (some time)
  unfold AuthProfileStore.stats? at hstats
  unfold lastUsedIn usedStats
  rw [hstats]
  split
  · simp [resetUsageStats]
  · rfl

theorem lastUsedIn_clearExpired (store : OrderedAuthStore) (now : Rat) (profileId : String) :
    lastUsedIn (clearExpired store now).usageStats profileId =
      lastUsedIn store.usageStats profileId := by
  have hstats := stats_clearExpiredCooldowns store.usage now profileId
  unfold AuthProfileStore.stats? at hstats
  unfold lastUsedIn clearExpired
  rw [hstats]
  show _ = ((store.usage.usageStats.bind _).bind _).getD 0
  cases store.usage.usageStats.bind (·.lookup profileId) with
  | none => rfl
  | some stats =>
    have hkept : (clearExpiredStats now stats).1.lastUsed = stats.lastUsed := by
      unfold clearExpiredStats
      dsimp only
      repeat' split
      all_goals rfl
    simp [hkept]

-- ---
-- Runs
-- ---

/-- A use of the profile that is first in the order. -/
structure ProfileUse where
  profileId : String
  time : Rat
  /-- Whether the store on disk could be locked. -/
  locked : Bool
  /-- The readings of the clock as the profiles were ordered. -/
  clock : OrderClock
  /-- The stores as the profiles were ordered. -/
  stores : AuthStores

/-- The order of the profiles at a use. -/
def ProfileUse.order (cfg : AuthConfig) (provider : String) (use : ProfileUse) : List String :=
  (resolveAuthProfileOrder cfg use.stores.memory provider none use.clock).1

/-- The store whose profiles were ordered. -/
def ProfileUse.ordered (use : ProfileUse) : OrderedAuthStore :=
  clearExpired use.stores.memory use.clock.now

/-- The store that the use is written to has the profile. -/
def ProfileUse.Recorded (use : ProfileUse) : Prop :=
  use.locked = true → use.profileId ∈ use.stores.diskProfiles

/-- The profile could have been used as well: it is in the order, is not in cooldown and has
the type of the one that was used. -/
structure ProfileUse.Offers (cfg : AuthConfig) (provider : String) (use : ProfileUse)
    (other : String) : Prop where
  listed : other ∈ use.order cfg provider
  available : inCooldown use.ordered use.clock other = false
  type : typeScore use.ordered other = typeScore use.ordered use.profileId

def ProfileUse.after (use : ProfileUse) : AuthStores :=
  markAuthProfileUsed use.locked use.profileId use.time { use.stores with memory := use.ordered }

/-- Changes that are no uses, such as failures or new credentials. -/
def SameUses (stores stores' : AuthStores) : Prop :=
  ∀ profileId,
    lastUsed stores'.memory profileId = lastUsed stores.memory profileId ∧
      lastUsedIn stores'.diskStats profileId = lastUsedIn stores.diskStats profileId

/-- Uses of the first profile each time, without an explicit order or a preference. -/
inductive UsageRun (cfg : AuthConfig) (provider : String) :
    AuthStores → List ProfileUse → AuthStores → Prop
  | refl : UsageRun cfg provider stores [] stores
  | used (use : ProfileUse) :
      explicitOrder cfg use.stores.memory provider = none →
      (use.order cfg provider).head? = some use.profileId →
      UsageRun cfg provider use.after uses stores' →
      UsageRun cfg provider use.stores (use :: uses) stores'
  | changed : SameUses stores stores' → UsageRun cfg provider stores' uses stores'' →
      UsageRun cfg provider stores uses stores''

/-- What holds of the last use of a profile, in memory and on disk. -/
def LastUse (P : Rat → Prop) (stores : AuthStores) (profileId : String) : Prop :=
  P (lastUsed stores.memory profileId) ∧ P (lastUsedIn stores.diskStats profileId)

theorem LastUse.mark {P : Rat → Prop} (h : LastUse P stores profileId)
    (hused : used = profileId → P time) (locked : Bool) :
    LastUse P (markAuthProfileUsed locked used time stores) profileId := by
  have husedStats (stats : Option (List (String × ProfileUsageStats)))
      (hstats : P (lastUsedIn stats profileId)) :
      P (lastUsedIn (usedStats stats used time) profileId) := by
    rw [lastUsedIn_usedStats]
    split
    · rename_i heq
      exact hused heq.symm
    · exact hstats
  unfold markAuthProfileUsed
  split
  · dsimp only [LastUse, lastUsed]
    split
    · exact ⟨husedStats _ h.2, husedStats _ h.2⟩
    · exact ⟨h.2, h.2⟩
  · split
    · exact ⟨husedStats _ h.1, husedStats _ h.1⟩
    · exact h

theorem LastUse.after {P : Rat → Prop} {use : ProfileUse} (h : LastUse P use.stores profileId)
    (hused : use.profileId = profileId → P use.time) : LastUse P use.after profileId := by
  have hordered : LastUse P { use.stores with memory := use.ordered } profileId := by
    refine ⟨?_, h.2⟩
    rw [lastUsed, ProfileUse.ordered, lastUsedIn_clearExpired]
    exact h.1
  exact hordered.mark hused use.locked

/-- A use that is recorded is the last one of its profile. -/
theorem lastUse_of_recorded {use : ProfileUse} (hrecorded : use.Recorded)
    (hstored : (use.stores.memory.profiles.lookup use.profileId).isSome) :
    LastUse (· = use.time) use.after use.profileId := by
  unfold ProfileUse.after markAuthProfileUsed
  split
  · rename_i hlocked
    simp [LastUse, lastUsed, hrecorded hlocked, lastUsedIn_usedStats]
  · have hkept : ((use.ordered).profiles.lookup use.profileId).isSome := hstored
    simp [LastUse, lastUsed, hkept, lastUsedIn_usedStats]

section
variable {cfg : AuthConfig} {provider : String}

/-- A bound on the last use of a profile stays where its uses meet it. -/
theorem UsageRun.lastUse {P : Rat → Prop} (hrun : UsageRun cfg provider stores uses stores')
    (h : LastUse P stores profileId)
    (hused : ∀ use ∈ uses, use.profileId = profileId → P use.time) :
    LastUse P stores' profileId := by
  induction hrun with
  | refl => exact h
  | used use _ _ _ ih =>
    exact ih (h.after (hused use List.mem_cons_self))
      fun later hlater => hused later (List.mem_cons_of_mem _ hlater)
  | changed hsame _ ih =>
    refine ih ?_ hused
    rw [LastUse, (hsame profileId).1, (hsame profileId).2]
    exact h

theorem UsageRun.split (hrun : UsageRun cfg provider stores (before ++ after) stores') :
    ∃ middle, UsageRun cfg provider stores before middle ∧
      UsageRun cfg provider middle after stores' := by
  generalize huses : before ++ after = uses at hrun
  induction hrun generalizing before with
  | refl =>
    obtain ⟨rfl, rfl⟩ := List.append_eq_nil_iff.mp huses
    exact ⟨_, .refl, .refl⟩
  | used use hexplicit hhead hrest ih =>
    cases before with
    | nil =>
      obtain rfl := huses
      exact ⟨_, .refl, .used use hexplicit hhead hrest⟩
    | cons first before =>
      obtain ⟨rfl, htail⟩ := List.cons.inj huses
      obtain ⟨middle, hfront, hback⟩ := ih htail
      exact ⟨middle, .used first hexplicit hhead hfront, hback⟩
  | changed hsame _ ih =>
    obtain ⟨middle, hfront, hback⟩ := ih huses
    exact ⟨middle, .changed hsame hfront, hback⟩

/-- A run that begins with a use comes to it without others. -/
theorem UsageRun.first (hrun : UsageRun cfg provider stores (use :: uses) stores') :
    UsageRun cfg provider stores [] use.stores ∧
      explicitOrder cfg use.stores.memory provider = none ∧
      (use.order cfg provider).head? = some use.profileId ∧
      UsageRun cfg provider use.after uses stores' := by
  generalize huses : use :: uses = all at hrun
  induction hrun with
  | refl => cases huses
  | used first hexplicit hhead hrest _ =>
    obtain ⟨rfl, rfl⟩ := List.cons.inj huses
    exact ⟨.refl, hexplicit, hhead, hrest⟩
  | changed hsame _ ih =>
    obtain ⟨hcome, hrest⟩ := ih huses
    exact ⟨.changed hsame hcome, hrest⟩

theorem lookup_of_isValidProfile {store : OrderedAuthStore}
    (h : isValidProfile cfg store provider now profileId = true) :
    (store.profiles.lookup profileId).isSome := by
  cases hlookup : store.profiles.lookup profileId with
  | none => simp [isValidProfile_of_missing hlookup] at h
  | some => rfl

theorem UsageRun.stored (hrun : UsageRun cfg provider stores (use :: uses) stores') :
    (use.stores.memory.profiles.lookup use.profileId).isSome := by
  have hlisted := List.mem_of_head? hrun.first.2.2.1
  have horders := (resolveAuthProfileOrder_orders cfg use.stores.memory provider none use.clock).2.1
  exact lookup_of_isValidProfile ((horders use.profileId).mp hlisted).1

/-- The profile that is used was used no later than any other that could have been. -/
theorem UsageRun.head_oldest (hrun : UsageRun cfg provider stores (use :: uses) stores')
    (hoffers : use.Offers cfg provider other) :
    lastUsed use.stores.memory use.profileId ≤ lastUsed use.stores.memory other := by
  obtain ⟨-, hexplicit, hhead, -⟩ := hrun.first
  obtain ⟨hlisted, havailable, htype⟩ := hoffers
  have horders := (resolveAuthProfileOrder_orders cfg use.stores.memory provider none use.clock).2.1
  have hbase : baseOrder cfg use.ordered provider ≠ [] := by
    intro hempty
    unfold ProfileUse.order resolveAuthProfileOrder at hhead
    rw [ProfileUse.ordered] at hempty
    simp [hempty] at hhead
  have hexplicit' : explicitOrder cfg use.ordered provider = none := hexplicit
  have horder : use.order cfg provider = orderProfilesByMode use.ordered use.clock
      (OrderedSet.ofList (filteredProfiles cfg use.ordered provider use.clock.now)) := by
    unfold ProfileUse.order resolveAuthProfileOrder
    rw [← ProfileUse.ordered, if_neg hbase, hexplicit']
    rfl
  have hmem : other ∈ OrderedSet.ofList
      (filteredProfiles cfg use.ordered provider use.clock.now) := by
    have hordered := (horders other).mp hlisted
    have hfiltered : other ∈ filteredProfiles cfg use.ordered provider use.clock.now :=
      (mem_filteredProfiles hbase).mpr hordered
    exact (OrderedSet.mem_foldl_add [] _).mpr (.inr hfiltered)
  rw [horder] at hhead
  have hle := lastUsed_head_le use.ordered hhead hmem havailable htype
  rw [lastUsed, lastUsed, ProfileUse.ordered, lastUsedIn_clearExpired,
    lastUsedIn_clearExpired] at hle
  exact hle

/-- Between two uses of a profile, one that was last used before the first of them and could
have been used at the second has its turn. -/
theorem UsageRun.turn {first second : ProfileUse}
    (hrun : UsageRun cfg provider stores (before ++ first :: (between ++ second :: after)) stores')
    (hincreasing : (before ++ first :: (between ++ second :: after)).Pairwise
      fun use later => use.time < later.time)
    (hpast : LastUse (· < first.time) stores other) (hrecorded : first.Recorded)
    (hagain : second.profileId = first.profileId) (hne : other ≠ first.profileId)
    (hoffers : second.Offers cfg provider other) :
    ∃ use ∈ between, use.profileId = other := by
  by_contra hnever
  obtain ⟨start, hbefore, hrest⟩ := hrun.split
  have hstored := hrest.stored
  obtain ⟨hcome, -, -, hrest⟩ := hrest.first
  obtain ⟨middle, hbetween, hlast⟩ := hrest.split
  obtain ⟨hreach, -⟩ := hlast.first
  obtain ⟨-, hafter, hearlier⟩ := List.pairwise_append.mp hincreasing
  have hlater (use : ProfileUse) (huse : use ∈ between) : first.time < use.time :=
    (List.pairwise_cons.mp hafter).1 use (List.mem_append_left _ huse)
  -- The other profile was not used since.
  have hother : LastUse (· < first.time) second.stores other := by
    refine hreach.lastUse (hbetween.lastUse ?_ ?_) (by simp)
    · refine (hcome.lastUse (hbefore.lastUse hpast ?_) (by simp)).after ?_
      · exact fun use huse _ => hearlier use huse first List.mem_cons_self
      · exact fun heq => absurd heq.symm hne
    · exact fun use huse heq => absurd ⟨use, huse, heq⟩ hnever
  -- The profile was.
  have hused : LastUse (first.time ≤ ·) second.stores first.profileId := by
    refine hreach.lastUse (hbetween.lastUse ?_ ?_) (by simp)
    · have hrecord := lastUse_of_recorded hrecorded hstored
      exact ⟨hrecord.1.ge, hrecord.2.ge⟩
    · exact fun use huse _ => (hlater use huse).le
  have hle := hlast.head_oldest hoffers
  rw [hagain] at hle
  exact absurd (hused.1.trans hle) (not_le.mpr hother.1)

end

/-- The eligible profiles in an order with the cooldowns last; and turns, wherever the first
profile is used each time. -/
theorem resolveAuthProfileOrder_orders_and_rotates :
    (∀ (cfg : AuthConfig) (store : OrderedAuthStore) (provider : String)
        (preferredProfile : Option String) (clock : OrderClock),
      (resolveAuthProfileOrder cfg store provider preferredProfile clock).1.Nodup ∧
        (∀ profileId,
          profileId ∈ (resolveAuthProfileOrder cfg store provider preferredProfile clock).1 ↔
            Ordered cfg store provider clock.now profileId) ∧
        CooldownLast (inCooldown (clearExpired store clock.now) clock) preferredProfile
          (resolveAuthProfileOrder cfg store provider preferredProfile clock).1) ∧
      ∀ (cfg : AuthConfig) (provider : String) (stores stores' : AuthStores)
        (before between after : List ProfileUse) (first second : ProfileUse) (other : String),
        UsageRun cfg provider stores (before ++ first :: (between ++ second :: after)) stores' →
        ((before ++ first :: (between ++ second :: after)).Pairwise
          fun use later => use.time < later.time) →
        LastUse (· < first.time) stores other → first.Recorded →
        second.profileId = first.profileId → other ≠ first.profileId →
        second.Offers cfg provider other → ∃ use ∈ between, use.profileId = other :=
  ⟨resolveAuthProfileOrder_orders,
    fun _ _ _ _ _ _ _ _ _ _ hrun hincreasing hpast hrecorded hagain hne hoffers =>
      hrun.turn hincreasing hpast hrecorded hagain hne hoffers⟩

-- ---
-- Two profiles
-- ---

def clockAt (time : Rat) : OrderClock := ⟨time, fun _ => time, time⟩

def twoProfiles : List (String × AuthProfileCredential) :=
  [("openai:a", .api_key "openai" (some "sk-a") false),
    ("openai:b", .api_key "openai" (some "sk-b") false)]

/-- With the profiles that are on disk, and the same usage there. -/
def twoStores (diskProfiles : List String)
    (usageStats : Option (List (String × ProfileUsageStats))) : AuthStores :=
  ⟨{ profiles := twoProfiles, usageStats }, diskProfiles, usageStats⟩

def useAt (stores : AuthStores) (time : Rat) (profileId : String) : ProfileUse :=
  { profileId, time, locked := true, clock := clockAt time, stores }

def useA (stores : AuthStores) : ProfileUse := useAt stores 1 "openai:a"
def thenA (stores : AuthStores) : ProfileUse := useAt (useA stores).after 2 "openai:a"
def thenB (stores : AuthStores) : ProfileUse := useAt (useA stores).after 2 "openai:b"
def againA (stores : AuthStores) : ProfileUse := useAt (thenB stores).after 3 "openai:a"

def freshStores : AuthStores := twoStores ["openai:a", "openai:b"] none

theorem resolveAuthProfileOrder_rotates_fresh :
    ∃ use ∈ [thenB freshStores], use.profileId = "openai:b" := by
  have hrun : UsageRun {} "openai" freshStores
      ([] ++ useA freshStores :: ([thenB freshStores] ++ againA freshStores :: []))
      (againA freshStores).after :=
    .used (useA freshStores) (by decide +kernel) (by decide +kernel)
      (.used (thenB freshStores) (by decide +kernel) (by decide +kernel)
        (.used (againA freshStores) (by decide +kernel) (by decide +kernel) .refl))
  refine resolveAuthProfileOrder_orders_and_rotates.2 {} "openai" freshStores
    (againA freshStores).after [] [thenB freshStores] [] (useA freshStores) (againA freshStores)
    "openai:b" hrun ?_ ?_ ?_ rfl (by decide) ⟨?_, ?_, ?_⟩
  · decide
  · exact ⟨by decide, by decide⟩
  · intro _
    decide
  · decide +kernel
  · decide
  · decide

/-- The store holds a key, but the order that it keeps names another. -/
def driftedStore : OrderedAuthStore :=
  { profiles := twoProfiles, order := some [("openai", ["openai:gone"])] }

/-- A last use that lies ahead. -/
def aheadStores : AuthStores :=
  twoStores ["openai:a", "openai:b"] (some [("openai:b", { lastUsed := some 100 })])

/-- The profiles are those of another agent. -/
def inheritedStores : AuthStores := twoStores [] none

/-- An explicit order of which nothing is left gives no profiles, and a profile is used again
before another where that is said to have been used later, or where the use is not recorded. -/
theorem not_orders_and_rotates :
    ((resolveAuthProfileOrder {} driftedStore "openai" none (clockAt 1)).1 = [] ∧
        allBaseProfilesMissing {} driftedStore "openai" = true ∧
        (listProfilesForProvider driftedStore "openai").filter
          (isValidProfile {} driftedStore "openai" 1) = ["openai:a", "openai:b"]) ∧
      ∀ stores ∈ [aheadStores, inheritedStores],
        UsageRun {} "openai" stores [useA stores, thenA stores] (thenA stores).after ∧
          (useA stores).Offers {} "openai" "openai:b" ∧
          (thenA stores).Offers {} "openai" "openai:b" := by
  refine ⟨⟨by decide, by decide, by decide⟩, ?_⟩
  intro stores hstores
  simp only [List.mem_cons, List.not_mem_nil, or_false] at hstores
  rcases hstores with rfl | rfl
  all_goals
    refine ⟨.used (useA _) ?_ ?_ (.used (thenA _) ?_ ?_ .refl), ⟨?_, ?_, ?_⟩, ⟨?_, ?_, ?_⟩⟩
    all_goals decide +kernel

end OpenClaw.AuthProfiles
