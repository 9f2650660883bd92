import OpenClaw.Infra.DeviceBootstrap

/-!
# The history of bootstrap tokens

Over a whole history a token verifies for one device only and within the profile it was issued
with, and what has been redeemed stays redeemed.
-/

namespace OpenClaw.DeviceBootstrap

open Js Members DevicePairing

-- ---
-- Profiles that are normal
-- ---

/-- Two profiles with the same roles and scopes. -/
structure SameProfile (profile other : DeviceBootstrapProfile) : Prop where
  roles (role : Text) : role ∈ profile.roles ↔ role ∈ other.roles
  scopes (scope : Text) : scope ∈ profile.scopes ↔ scope ∈ other.scopes

/-- A profile that normalizing does not change. -/
def IsNormal (profile : DeviceBootstrapProfile) : Prop :=
  SameProfile (normalizeDeviceBootstrapProfile (some profile.input)) profile

theorem mem_normalizeBootstrapRoles {roles : Option (List Text)} :
    role ∈ normalizeBootstrapRoles roles ↔ role ∈ trimmedSet (roles.getD []) := by
  cases roles <;> simp [normalizeBootstrapRoles]

theorem mem_trimmedSet_normalizeScopes {scopes : Option (List Text)} :
    scope ∈ trimmedSet (normalizeDeviceAuthScopes scopes) ↔
      scope ∈ normalizeDeviceAuthScopes scopes := by
  have htrimmed (text : Text) (h : text ∈ normalizeDeviceAuthScopes scopes) :
      text ≠ [] ∧ trimChars text = text := by
    rcases mem_normalizeDeviceAuthScopes.mp h with hmem | ⟨rfl, -⟩ | ⟨rfl, -⟩
    · obtain ⟨hne, raw, -, rfl⟩ := mem_trimmedSet.mp hmem
      exact ⟨hne, trimChars_trimChars raw⟩
    · decide
    · decide
  rw [mem_trimmedSet]
  constructor
  · rintro ⟨-, text, hmem, rfl⟩
    rwa [(htrimmed text hmem).2]
  · intro h
    exact ⟨(htrimmed scope h).1, scope, h, (htrimmed scope h).2⟩

theorem admin_ne_read : OPERATOR_ADMIN_SCOPE ≠ OPERATOR_READ_SCOPE := by decide

theorem admin_ne_write : OPERATOR_ADMIN_SCOPE ≠ OPERATOR_WRITE_SCOPE := by decide

theorem write_ne_read : OPERATOR_WRITE_SCOPE ≠ OPERATOR_READ_SCOPE := by decide

theorem admin_mem_normalizeScopes {scopes : Option (List Text)} :
    OPERATOR_ADMIN_SCOPE ∈ normalizeDeviceAuthScopes scopes ↔
      OPERATOR_ADMIN_SCOPE ∈ trimmedSet (scopes.getD []) := by
  rw [mem_normalizeDeviceAuthScopes]
  simp only [admin_ne_read, admin_ne_write, false_and, or_false]

theorem write_mem_normalizeScopes {scopes : Option (List Text)} :
    OPERATOR_WRITE_SCOPE ∈ normalizeDeviceAuthScopes scopes ↔
      OPERATOR_WRITE_SCOPE ∈ trimmedSet (scopes.getD []) ∨
        OPERATOR_ADMIN_SCOPE ∈ trimmedSet (scopes.getD []) := by
  rw [mem_normalizeDeviceAuthScopes]
  simp only [write_ne_read, false_and, true_and, false_or]

theorem mem_normalizeScopes_idem {scopes : Option (List Text)} :
    scope ∈ normalizeDeviceAuthScopes (some (normalizeDeviceAuthScopes scopes)) ↔
      scope ∈ normalizeDeviceAuthScopes scopes := by
  rw [mem_normalizeDeviceAuthScopes, Option.getD_some]
  simp only [mem_trimmedSet_normalizeScopes, admin_mem_normalizeScopes, write_mem_normalizeScopes]
  constructor
  · rintro (h | ⟨rfl, hadmin | hwrite | hadmin⟩ | ⟨rfl, hadmin⟩)
    · exact h
    · exact mem_normalizeDeviceAuthScopes.mpr (.inr (.inl ⟨rfl, .inl hadmin⟩))
    · exact mem_normalizeDeviceAuthScopes.mpr (.inr (.inl ⟨rfl, .inr hwrite⟩))
    · exact mem_normalizeDeviceAuthScopes.mpr (.inr (.inl ⟨rfl, .inl hadmin⟩))
    · exact write_mem_normalizeScopes.mpr (.inr hadmin)
  · exact .inl

@[simp] theorem normalize_roles (input : DeviceBootstrapProfileInput) :
    (normalizeDeviceBootstrapProfile (some input)).roles = normalizeBootstrapRoles input.roles :=
  rfl

@[simp] theorem normalize_scopes (input : DeviceBootstrapProfileInput) :
    (normalizeDeviceBootstrapProfile (some input)).scopes =
      normalizeDeviceAuthScopes (some (input.scopes.getD [])) := rfl

theorem mem_normalizeRoles_idem {roles : Option (List Text)} :
    role ∈ normalizeBootstrapRoles (some (normalizeBootstrapRoles roles)) ↔
      role ∈ normalizeBootstrapRoles roles := by
  rw [mem_normalizeBootstrapRoles, Option.getD_some, mem_trimmedSet]
  constructor
  · rintro ⟨hne, text, htext, rfl⟩
    have hmem := mem_normalizeBootstrapRoles.mp htext
    obtain ⟨-, raw, -, rfl⟩ := mem_trimmedSet.mp hmem
    rwa [trimChars_trimChars]
  · intro h
    obtain ⟨hne, raw, -, rfl⟩ := mem_trimmedSet.mp (mem_normalizeBootstrapRoles.mp h)
    exact ⟨hne, _, h, trimChars_trimChars raw⟩

theorem isNormal_normalize (input : Option DeviceBootstrapProfileInput) :
    IsNormal (normalizeDeviceBootstrapProfile input) := by
  refine ⟨fun role => ?_, fun scope => ?_⟩
  · rw [normalize_roles]
    exact mem_normalizeRoles_idem
  · have hidem : scope ∈ normalizeDeviceAuthScopes (some (normalizeDeviceAuthScopes
        (some ((input.bind (·.scopes)).getD [])))) ↔ _ := mem_normalizeScopes_idem
    exact hidem

theorem isNormal_setup : IsNormal PAIRING_SETUP_BOOTSTRAP_PROFILE where
  roles role := by
    have hroles :
        (normalizeDeviceBootstrapProfile (some PAIRING_SETUP_BOOTSTRAP_PROFILE.input)).roles =
          PAIRING_SETUP_BOOTSTRAP_PROFILE.roles := by decide
    rw [hroles]
  scopes scope := by
    have hscopes :
        (normalizeDeviceBootstrapProfile (some PAIRING_SETUP_BOOTSTRAP_PROFILE.input)).scopes =
          PAIRING_SETUP_BOOTSTRAP_PROFILE.scopes := by decide
    rw [hscopes]

theorem isNormal_issued (params : IssueParams) :
    IsNormal (resolveIssuedBootstrapProfile params) := by
  unfold resolveIssuedBootstrapProfile
  split
  · exact isNormal_normalize _
  · split
    · exact isNormal_normalize _
    · exact isNormal_setup

-- ---
-- What profiles allow
-- ---

theorem trimmedSet_subset {texts more : List Text} (h : ∀ text ∈ texts, text ∈ more) :
    ∀ text ∈ trimmedSet texts, text ∈ trimmedSet more := by
  intro text hmem
  obtain ⟨hne, raw, hraw, rfl⟩ := mem_trimmedSet.mp hmem
  exact mem_trimmedSet.mpr ⟨hne, raw, h raw hraw, rfl⟩

/-- A profile allows what a part of it allows. -/
theorem allowsRequest_mono {profile larger : DeviceBootstrapProfile}
    (hroles : ∀ role ∈ profile.roles, role ∈ larger.roles)
    (hscopes : ∀ scope ∈ profile.scopes, scope ∈ larger.scopes)
    (h : bootstrapProfileAllowsRequest profile role requested) :
    bootstrapProfileAllowsRequest larger role requested := by
  unfold bootstrapProfileAllowsRequest at h ⊢
  rw [Bool.and_eq_true, List.contains_iff_mem, roleScopesAllow_iff] at h ⊢
  exact ⟨hroles role h.1, fun scope hscope =>
    (h.2 scope hscope).mono (trimmedSet_subset hscopes)⟩

theorem resolveBootstrapProfileScopes_subset {scopes more : List Text}
    (h : ∀ scope ∈ scopes, scope ∈ more) (role : Text) :
    ∀ scope ∈ resolveBootstrapProfileScopes role scopes,
      scope ∈ resolveBootstrapProfileScopes role more := by
  unfold resolveBootstrapProfileScopes
  split
  · intro scope hmem
    obtain ⟨hscope, hkeep⟩ := List.mem_filter.mp hmem
    exact List.mem_filter.mpr ⟨h scope hscope, hkeep⟩
  · intro scope hmem
    obtain ⟨hscope, hkeep⟩ := List.mem_filter.mp hmem
    exact List.mem_filter.mpr ⟨h scope hscope, hkeep⟩

theorem satisfiesProfile_iff {actual required : DeviceBootstrapProfile} :
    bootstrapProfileSatisfiesProfile actual required ↔
      ∀ role ∈ required.roles, role ∈ actual.roles ∧
        ∀ scope ∈ trimmedSet (resolveBootstrapProfileScopes role required.scopes),
          ScopeSatisfied role (trimmedSet actual.scopes) scope := by
  unfold bootstrapProfileSatisfiesProfile bootstrapProfileAllowsRequest
  simp only [List.all_eq_true, Bool.and_eq_true, Bool.or_eq_true, List.contains_iff_mem,
    decide_eq_true_eq, List.length_eq_zero_iff, roleScopesAllow_iff]
  refine forall₂_congr fun role _ => and_congr_right fun hrole => ?_
  constructor
  · rintro (hnil | ⟨-, hall⟩)
    · simp [hnil]
    · exact hall
  · exact fun hall => .inr ⟨hrole, hall⟩

/-- What is redeemed of a profile stays so when more is redeemed. -/
theorem satisfiesProfile_mono {actual larger required smaller : DeviceBootstrapProfile}
    (hroles : ∀ role ∈ actual.roles, role ∈ larger.roles)
    (hscopes : ∀ scope ∈ actual.scopes, scope ∈ larger.scopes)
    (hrequiredRoles : ∀ role ∈ smaller.roles, role ∈ required.roles)
    (hrequiredScopes : ∀ scope ∈ smaller.scopes, scope ∈ required.scopes)
    (h : bootstrapProfileSatisfiesProfile actual required) :
    bootstrapProfileSatisfiesProfile larger smaller := by
  rw [satisfiesProfile_iff] at h ⊢
  intro role hrole
  obtain ⟨hactual, hall⟩ := h role (hrequiredRoles role hrole)
  refine ⟨hroles role hactual, fun scope hscope => ?_⟩
  refine (hall scope ?_).mono (trimmedSet_subset hscopes)
  exact trimmedSet_subset (resolveBootstrapProfileScopes_subset hrequiredScopes role) scope hscope

-- ---
-- Histories
-- ---

inductive Call
  | issue (token : Text) (params : IssueParams)
  | verify (params : VerifyParams)
  | redeem (params : RedeemParams)
  | revoke (token : Text)
  | clear
  | restore (record : DeviceBootstrapTokenRecord)
  deriving DecidableEq

inductive Answer
  | issued (expiresAtMs : Rat)
  | verified (result : VerifyResult)
  | redeemed (result : RedeemResult)
  | revoked (record : Option DeviceBootstrapTokenRecord)
  | cleared (removed : Nat)
  | restored
  deriving DecidableEq

def perform (file : DeviceBootstrapStateFile) (now : Rat) : Call → Answer × DeviceBootstrapStateFile
  | .issue token params =>
    let issued := issueDeviceBootstrapToken file now token params
    (.issued issued.1, issued.2)
  | .verify params =>
    let verified := verifyDeviceBootstrapToken file now params
    (.verified verified.1, verified.2)
  | .redeem params =>
    let redeemed := redeemDeviceBootstrapTokenProfile file now params
    (.redeemed redeemed.1, redeemed.2)
  | .revoke token =>
    let revoked := revokeDeviceBootstrapToken file now token
    (.revoked revoked.1, revoked.2)
  | .clear =>
    let cleared := clearDeviceBootstrapTokens file now
    (.cleared cleared.1, cleared.2)
  | .restore record => (.restored, restoreDeviceBootstrapToken file now record)

/-- A call with its answer. -/
structure Entry where
  call : Call
  answer : Answer
  deriving DecidableEq

/-- The token that is issued, with its profile. -/
def Entry.issued? (entry : Entry) : Option (Text × DeviceBootstrapProfile) :=
  match entry.call with
  | .issue token params => some (token, resolveIssuedBootstrapProfile params)
  | _ => none

/-- The token that is verified, with the device and the key. -/
def Entry.verified? (entry : Entry) : Option (Text × Text × Text) :=
  match entry.call, entry.answer with
  | .verify params, .verified .ok =>
    some (trimChars params.token, trimChars params.deviceId, trimChars params.publicKey)
  | _, _ => none

/-- The token that is redeemed, with whether it is so fully. -/
def Entry.redeemed? (entry : Entry) : Option (Text × Bool) :=
  match entry.call, entry.answer with
  | .redeem params, .redeemed ⟨true, fullyRedeemed⟩ => some (trimChars params.token, fullyRedeemed)
  | _, _ => none

/-- The file, with the records that may be restored and the tokens that were issued. -/
structure System where
  file : DeviceBootstrapStateFile
  /-- The record that the last revoke of a token returned, unless it has been restored since. -/
  returned : Text → Option DeviceBootstrapTokenRecord
  issued : List Text

def System.start : System := ⟨[], fun _ => none, []⟩

/-- Tokens are generated anew, and a record is restored once after it was revoked. -/
def System.Admits (system : System) : Call → Prop
  | .issue token _ => token ≠ [] ∧ trimChars token = token ∧ token ∉ system.issued
  | .restore record => system.returned record.token = some record
  | _ => True

def System.step (system : System) (now : Rat) (call : Call) : System where
  file := (perform system.file now call).2
  returned :=
    match call, (perform system.file now call).1 with
    | .revoke _, .revoked (some record) =>
      Function.update system.returned record.token (some record)
    | .restore record, _ => Function.update system.returned record.token none
    | _, _ => system.returned
  issued :=
    match call with
    | .issue token _ => system.issued ++ [token]
    | _ => system.issued

/-- The calls, at their times, are ones that are made. -/
def System.Proper : List (Rat × Call) → System → Prop
  | [], _ => True
  | (now, call) :: calls, system => system.Admits call ∧ Proper calls (system.step now call)

def System.log : List (Rat × Call) → System → List Entry
  | [], _ => []
  | (now, call) :: calls, system =>
    ⟨call, (perform system.file now call).1⟩ :: log calls (system.step now call)

-- ---
-- What a record keeps of the history
-- ---

structure RecordOk (past : List Entry) (token : Text) (record : DeviceBootstrapTokenRecord) :
    Prop where
  token_eq : record.token = token
  issued : ∃ entry ∈ past, ∃ profile, entry.issued? = some (token, profile) ∧
    SameProfile (resolvePersistedBootstrapProfile record) profile
  bound : ∀ entry ∈ past, ∀ deviceId publicKey,
    entry.verified? = some (token, deviceId, publicKey) →
      deviceId ≠ [] ∧ record.deviceId = some deviceId ∧ record.publicKey = some publicKey
  redeemed : ∀ entry ∈ past, entry.redeemed? = some (token, true) →
    bootstrapProfileSatisfiesProfile (resolvePersistedRedeemedProfile record)
      (resolvePersistedBootstrapProfile record)

theorem SameProfile.symm (h : SameProfile profile other) : SameProfile other profile :=
  ⟨fun role => (h.roles role).symm, fun scope => (h.scopes scope).symm⟩

theorem SameProfile.trans (h : SameProfile profile other) (h' : SameProfile other third) :
    SameProfile profile third :=
  ⟨fun role => (h.roles role).trans (h'.roles role),
    fun scope => (h.scopes scope).trans (h'.scopes scope)⟩

theorem SameProfile.satisfies {actual actual' required required' : DeviceBootstrapProfile}
    (hactual : SameProfile actual actual') (hrequired : SameProfile required required')
    (h : bootstrapProfileSatisfiesProfile actual required) :
    bootstrapProfileSatisfiesProfile actual' required' :=
  satisfiesProfile_mono (fun role => (hactual.roles role).mp)
    (fun scope => (hactual.scopes scope).mp) (fun role => (hrequired.roles role).mpr)
    (fun scope => (hrequired.scopes scope).mpr) h

/-- A profile that has been stored is read as it was. -/
theorem persisted_some {record : DeviceBootstrapTokenRecord} (h : record.profile = some profile)
    (hnormal : IsNormal profile) :
    SameProfile (resolvePersistedBootstrapProfile record) profile := by
  unfold resolvePersistedBootstrapProfile
  rw [h]
  exact hnormal

theorem redeemed_some {record : DeviceBootstrapTokenRecord}
    (h : record.redeemedProfile = some profile) (hnormal : IsNormal profile) :
    SameProfile (resolvePersistedRedeemedProfile record) profile := by
  unfold resolvePersistedRedeemedProfile
  rw [h]
  exact hnormal

theorem isNormal_persisted (record : DeviceBootstrapTokenRecord) :
    IsNormal (resolvePersistedBootstrapProfile record) := isNormal_normalize _

theorem isNormal_redeemed (record : DeviceBootstrapTokenRecord) :
    IsNormal (resolvePersistedRedeemedProfile record) := isNormal_normalize _

theorem RecordOk.load (h : RecordOk past token record) :
    RecordOk past token (loadRecord token record) where
  token_eq := by
    unfold loadRecord
    dsimp only
    split
    · rfl
    · exact h.token_eq
  issued := by
    obtain ⟨entry, hentry, profile, hissued, hsame⟩ := h.issued
    exact ⟨entry, hentry, profile, hissued,
      (persisted_some rfl (isNormal_persisted record)).trans hsame⟩
  bound := h.bound
  redeemed entry hentry hfull :=
    SameProfile.satisfies (redeemed_some rfl (isNormal_redeemed record)).symm
      (persisted_some rfl (isNormal_persisted record)).symm (h.redeemed entry hentry hfull)

/-- A record keeps what it does through an entry that says nothing of its token. -/
theorem RecordOk.more (h : RecordOk past token record)
    (hverified : ∀ deviceId publicKey, entry.verified? ≠ some (token, deviceId, publicKey))
    (hredeemed : entry.redeemed? ≠ some (token, true)) :
    RecordOk (past ++ [entry]) token record where
  token_eq := h.token_eq
  issued := by
    obtain ⟨other, hother, rest⟩ := h.issued
    exact ⟨other, List.mem_append_left _ hother, rest⟩
  bound other hother deviceId publicKey hsome := by
    rcases List.mem_append.mp hother with hpast | hnew
    · exact h.bound other hpast deviceId publicKey hsome
    · rw [List.mem_singleton.mp hnew] at hsome
      exact absurd hsome (hverified deviceId publicKey)
  redeemed other hother hsome := by
    rcases List.mem_append.mp hother with hpast | hnew
    · exact h.redeemed other hpast hsome
    · rw [List.mem_singleton.mp hnew] at hsome
      exact absurd hsome hredeemed

-- ---
-- The invariant
-- ---

structure Inv (past : List Entry) (system : System) : Prop where
  file : ∀ entry ∈ system.file, RecordOk past entry.1 entry.2
  returned : ∀ token record, system.returned token = some record →
    RecordOk past token record ∧ token ∉ system.file.map Prod.fst
  issued : ∀ entry ∈ past, ∀ token profile, entry.issued? = some (token, profile) →
    token ∈ system.issued
  verified : ∀ entry ∈ past, ∀ token pair, entry.verified? = some (token, pair) →
    token ∈ system.issued
  redeemed : ∀ entry ∈ past, ∀ token full, entry.redeemed? = some (token, full) →
    token ∈ system.issued

theorem inv_start : Inv [] System.start where
  file := List.forall_mem_nil _
  returned _ _ h := by cases h
  issued := List.forall_mem_nil _
  verified := List.forall_mem_nil _
  redeemed := List.forall_mem_nil _

theorem mem_loadState {file : DeviceBootstrapStateFile} (h : entry ∈ loadState file now) :
    ∃ raw ∈ file, entry = (raw.1, loadRecord raw.1 raw.2) := by
  obtain ⟨raw, hraw, rfl⟩ := List.mem_map.mp (List.mem_of_mem_filter h)
  exact ⟨raw, hraw, rfl⟩

theorem Inv.loaded (h : Inv past system) (hmem : entry ∈ loadState system.file now) :
    RecordOk past entry.1 entry.2 := by
  obtain ⟨raw, hraw, rfl⟩ := mem_loadState hmem
  exact (h.file raw hraw).load

theorem keys_loadState {file : DeviceBootstrapStateFile} (h : token ∉ file.map Prod.fst)
    (now : Rat) :
    token ∉ (loadState file now).map Prod.fst := by
  intro hmem
  obtain ⟨entry, hentry, rfl⟩ := List.mem_map.mp hmem
  obtain ⟨raw, hraw, rfl⟩ := mem_loadState hentry
  exact h (List.mem_map.mpr ⟨raw, hraw, rfl⟩)

/-- The record that is found is that of the token provided. -/
theorem Inv.found (h : Inv past system)
    (hfound : findToken (loadState system.file now) provided = some (tokenKey, record)) :
    tokenKey = provided ∧ (tokenKey, record) ∈ loadState system.file now ∧
      RecordOk past provided record := by
  have hmem := List.mem_of_find?_eq_some hfound
  have hok := h.loaded hmem
  have hsame := List.find?_some hfound
  simp only [verifyPairingToken, Bool.and_eq_true, decide_eq_true_eq] at hsame
  have hkey : tokenKey = provided := hok.token_eq.symm.trans hsame.2.symm
  subst hkey
  exact ⟨rfl, hmem, hok⟩

-- ---
-- Single calls
-- ---

theorem verify_cases (file : DeviceBootstrapStateFile) (now : Rat) (params : VerifyParams) :
    (verifyDeviceBootstrapToken file now params = (tokenInvalid, file)) ∨
    ∃ tokenKey record,
      findToken (loadState file now) (trimChars params.token) = some (tokenKey, record) ∧
      trimChars params.deviceId ≠ [] ∧
      bootstrapProfileAllowsRequest (resolvePersistedBootstrapProfile record)
        (trimChars params.role) params.scopes ∧
      (record.isBound → record.deviceId.map trimChars = some (trimChars params.deviceId) ∧
        record.publicKey.map trimChars = some (trimChars params.publicKey)) ∧
      verifyDeviceBootstrapToken file now params =
        (.ok, assign (loadState file now) tokenKey
          { record with
            profile := some (resolvePersistedBootstrapProfile record)
            deviceId := some (trimChars params.deviceId)
            publicKey := some (trimChars params.publicKey)
            lastUsedAtMs := some now }) := by
  unfold verifyDeviceBootstrapToken
  dsimp only
  split
  · exact .inl rfl
  · split
    · exact .inl rfl
    case h_2 tokenKey record hfound =>
      split
      · exact .inl rfl
      case isFalse hids =>
        split
        · exact .inl rfl
        case isFalse hallowed =>
          simp only [Bool.or_eq_true, not_or, Bool.not_eq_true', Bool.not_eq_false] at hallowed
          split
          case isTrue hbound =>
            split
            · exact .inl rfl
            case isFalse hsame =>
              simp only [not_or, not_not] at hsame
              exact .inr ⟨tokenKey, record, hfound, fun h => hids (.inl h), hallowed.2,
                fun _ => hsame, rfl⟩
          case isFalse hbound =>
            exact .inr ⟨tokenKey, record, hfound, fun h => hids (.inl h), hallowed.2,
              fun h => absurd h hbound, rfl⟩

theorem redeem_cases (file : DeviceBootstrapStateFile) (now : Rat) (params : RedeemParams) :
    (redeemDeviceBootstrapTokenProfile file now params = (⟨false, false⟩, file)) ∨
    ∃ tokenKey record redeemed,
      findToken (loadState file now) (trimChars params.token) = some (tokenKey, record) ∧
      IsNormal redeemed ∧
      (∀ role ∈ (resolvePersistedRedeemedProfile record).roles, role ∈ redeemed.roles) ∧
      (∀ scope ∈ (resolvePersistedRedeemedProfile record).scopes, scope ∈ redeemed.scopes) ∧
      redeemDeviceBootstrapTokenProfile file now params =
        (⟨true,
            bootstrapProfileSatisfiesProfile redeemed (resolvePersistedBootstrapProfile record)⟩,
          assign (loadState file now) tokenKey
            { record with
              profile := some (resolvePersistedBootstrapProfile record)
              redeemedProfile := some redeemed }) := by
  unfold redeemDeviceBootstrapTokenProfile
  dsimp only
  split
  · exact .inl rfl
  · split
    · exact .inl rfl
    case h_2 tokenKey record hfound =>
      have hnormal := isNormal_redeemed record
      refine .inr ⟨tokenKey, record, _, hfound, isNormal_normalize _, fun role hrole => ?_,
        fun scope hscope => ?_, rfl⟩
      · rw [normalize_roles, mem_normalizeBootstrapRoles]
        have hrole' := (hnormal.roles role).mpr hrole
        rw [normalize_roles, mem_normalizeBootstrapRoles] at hrole'
        exact trimmedSet_subset (fun text => List.mem_append_left _) role hrole'
      · rw [normalize_scopes, mem_normalizeDeviceAuthScopes]
        have hscope' := (hnormal.scopes scope).mpr hscope
        rw [normalize_scopes, mem_normalizeDeviceAuthScopes] at hscope'
        have hmore : ∀ text ∈ trimmedSet (resolvePersistedRedeemedProfile record).scopes,
            text ∈ trimmedSet ((resolvePersistedRedeemedProfile record).scopes ++
              resolveBootstrapProfileScopes params.role params.scopes) :=
          trimmedSet_subset fun text => List.mem_append_left _
        exact hscope'.imp (hmore _) (Or.imp (And.imp_right (Or.imp (hmore _) (hmore _)))
          (And.imp_right (hmore _)))

theorem revoke_cases (file : DeviceBootstrapStateFile) (now : Rat) (token : Text) :
    (revokeDeviceBootstrapToken file now token = (none, file)) ∨
    ∃ tokenKey record,
      findToken (loadState file now) (trimChars token) = some (tokenKey, record) ∧
      revokeDeviceBootstrapToken file now token =
        (some record, remove (loadState file now) tokenKey) := by
  unfold revokeDeviceBootstrapToken
  dsimp only
  split
  · exact .inl rfl
  · split
    · exact .inl rfl
    case h_2 tokenKey record hfound => exact .inr ⟨tokenKey, record, hfound, rfl⟩

-- ---
-- The invariant along a history
-- ---

/-- What an entry says of a token is in accord with what was said before. -/
structure TokenLaw (past : List Entry) (entry : Entry) : Prop where
  /-- A token verifies for a role and scopes of the profile it was issued with. -/
  allowed {params : VerifyParams} (hcall : entry.call = .verify params)
    (hok : entry.answer = .verified .ok) :
    ∃ earlier ∈ past, ∃ profile, earlier.issued? = some (trimChars params.token, profile) ∧
      bootstrapProfileAllowsRequest profile (trimChars params.role) params.scopes
  /-- It verifies for one device and key. -/
  bound {token : Text} {pair pair' : Text × Text}
    (hverified : entry.verified? = some (token, pair)) :
    ∀ earlier ∈ past, earlier.verified? = some (token, pair') → pair = pair'
  /-- Once it is fully redeemed it stays so. -/
  redeemed {token : Text} {full : Bool} (hredeemed : entry.redeemed? = some (token, full)) :
    ∀ earlier ∈ past, earlier.redeemed? = some (token, true) → full = true

/-- The entry says nothing that a record has to keep. -/
structure Entry.IsQuiet (entry : Entry) : Prop where
  issued : entry.issued? = none
  verified : entry.verified? = none
  redeemed : entry.redeemed? = none

theorem tokenLaw_of_none {entry : Entry} (hverified : entry.verified? = none)
    (hredeemed : entry.redeemed? = none) (past : List Entry) : TokenLaw past entry where
  allowed hcall hok := by
    rw [Entry.verified?, hcall, hok] at hverified
    cases hverified
  bound hsome := by
    rw [hverified] at hsome
    cases hsome
  redeemed hsome := by
    rw [hredeemed] at hsome
    cases hsome

theorem RecordOk.quiet (h : RecordOk past token record) (hquiet : entry.IsQuiet) :
    RecordOk (past ++ [entry]) token record :=
  h.more (by simp [hquiet.verified]) (by simp [hquiet.redeemed])

/-- The tokens that a history with one entry more speaks of. -/
theorem Inv.known (h : Inv past system) {next : System}
    (hmore : ∀ token ∈ system.issued, token ∈ next.issued)
    (hissued : ∀ token profile, entry.issued? = some (token, profile) → token ∈ next.issued)
    (hverified : ∀ token pair, entry.verified? = some (token, pair) → token ∈ next.issued)
    (hredeemed : ∀ token full, entry.redeemed? = some (token, full) → token ∈ next.issued)
    (hfile : ∀ member ∈ next.file, RecordOk (past ++ [entry]) member.1 member.2)
    (hreturned : ∀ token record, next.returned token = some record →
      RecordOk (past ++ [entry]) token record ∧ token ∉ next.file.map Prod.fst) :
    Inv (past ++ [entry]) next where
  file := hfile
  returned := hreturned
  issued other hother token profile hsome := by
    rcases List.mem_append.mp hother with hpast | hnew
    · exact hmore token (h.issued other hpast token profile hsome)
    · rw [List.mem_singleton.mp hnew] at hsome
      exact hissued token profile hsome
  verified other hother token pair hsome := by
    rcases List.mem_append.mp hother with hpast | hnew
    · exact hmore token (h.verified other hpast token pair hsome)
    · rw [List.mem_singleton.mp hnew] at hsome
      exact hverified token pair hsome
  redeemed other hother token full hsome := by
    rcases List.mem_append.mp hother with hpast | hnew
    · exact hmore token (h.redeemed other hpast token full hsome)
    · rw [List.mem_singleton.mp hnew] at hsome
      exact hredeemed token full hsome

/-- A call that says nothing leaves the invariant, if each record that is kept was kept before. -/
theorem Inv.quiet (h : Inv past system) (hquiet : entry.IsQuiet) {next : System}
    (hissued : next.issued = system.issued)
    (hfile : ∀ member ∈ next.file, RecordOk past member.1 member.2)
    (hreturned : ∀ token record, next.returned token = some record →
      RecordOk past token record ∧ token ∉ next.file.map Prod.fst) :
    Inv (past ++ [entry]) next := by
  refine h.known (fun token hmem => hissued ▸ hmem) ?_ ?_ ?_
    (fun member hmem => (hfile member hmem).quiet hquiet)
    (fun token record hsome => ⟨(hreturned token record hsome).1.quiet hquiet,
      (hreturned token record hsome).2⟩)
  · simp [hquiet.issued]
  · simp [hquiet.verified]
  · simp [hquiet.redeemed]

/-- A call that writes the record of a token that is in the file. -/
theorem Inv.write (h : Inv past system)
    (hfound : findToken (loadState system.file now) token = some (tokenKey, record))
    (hnew : RecordOk (past ++ [entry]) token written)
    (hissued : entry.issued? = none)
    (hverified : ∀ other pair, entry.verified? = some (other, pair) → other = token)
    (hredeemed : ∀ other full, entry.redeemed? = some (other, full) → other = token) :
    Inv (past ++ [entry])
      ⟨assign (loadState system.file now) tokenKey written, system.returned, system.issued⟩ := by
  obtain ⟨rfl, hmem, hok⟩ := h.found hfound
  have hknown : tokenKey ∈ system.issued := by
    obtain ⟨earlier, hearlier, profile, hsome, -⟩ := hok.issued
    exact h.issued earlier hearlier tokenKey profile hsome
  have hother {other : Text} {kept : DeviceBootstrapTokenRecord} (hne : other ≠ tokenKey)
      (hkept : RecordOk past other kept) : RecordOk (past ++ [entry]) other kept :=
    hkept.more (fun deviceId publicKey hsome => hne (hverified other _ hsome))
      (fun hsome => hne (hredeemed other _ hsome))
  refine h.known (fun _ hmem => hmem) (by simp [hissued]) (fun other pair hsome => ?_)
    (fun other full hsome => ?_) (fun member hmember => ?_) (fun other kept hsome => ?_)
  · exact hverified other pair hsome ▸ hknown
  · exact hredeemed other full hsome ▸ hknown
  · rcases mem_assign_iff.mp hmember with ⟨hold, hne⟩ | rfl
    · exact hother hne (h.loaded hold)
    · exact hnew
  · obtain ⟨hkept, hkeys⟩ := h.returned other kept hsome
    have hne : other ≠ tokenKey := by
      rintro rfl
      exact keys_loadState hkeys now (List.mem_map_of_mem hmem)
    refine ⟨hother hne hkept, fun hkey => ?_⟩
    rcases mem_keys_assign.mp hkey with hold | rfl
    · exact keys_loadState hkeys now hold
    · exact hne rfl

theorem verified?_trimmed {entry : Entry}
    (h : entry.verified? = some (token, deviceId, publicKey)) :
    trimChars deviceId = deviceId ∧ trimChars publicKey = publicKey := by
  unfold Entry.verified? at h
  split at h
  · cases h
    exact ⟨trimChars_trimChars _, trimChars_trimChars _⟩
  · cases h

theorem inv_issue (h : Inv past system) (now : Rat) (params : IssueParams)
    (hadmits : system.Admits (.issue token params)) :
    TokenLaw past ⟨.issue token params, (perform system.file now (.issue token params)).1⟩ ∧
      Inv (past ++ [⟨.issue token params, (perform system.file now (.issue token params)).1⟩])
        (system.step now (.issue token params)) := by
  obtain ⟨-, -, hfresh⟩ := hadmits
  have hknown {other : Text} {record : DeviceBootstrapTokenRecord}
      (hok : RecordOk past other record) :
      other ≠ token := by
    rintro rfl
    obtain ⟨earlier, hearlier, profile, hsome, -⟩ := hok.issued
    exact hfresh (h.issued earlier hearlier other profile hsome)
  have hkeep {other : Text} {record : DeviceBootstrapTokenRecord} (hok : RecordOk past other record)
      (answer : Answer) : RecordOk (past ++ [⟨.issue token params, answer⟩]) other record :=
    hok.more (fun _ _ hsome => by cases hsome) (fun hsome => by cases hsome)
  refine ⟨tokenLaw_of_none rfl rfl past,
    h.known (fun other hmem => List.mem_append_left _ hmem) ?_ (fun _ _ hsome => by cases hsome)
      (fun _ _ hsome => by cases hsome) (fun member hmember => ?_) fun other record hsome => ?_⟩
  · rintro other profile ⟨⟩
    exact List.mem_append_right _ List.mem_cons_self
  · rcases mem_assign_iff.mp hmember with ⟨hold, -⟩ | rfl
    · exact hkeep (h.loaded hold) _
    · refine ⟨rfl, ⟨_, List.mem_append_right _ List.mem_cons_self, _, rfl,
        persisted_some rfl (isNormal_issued params)⟩,
        fun earlier hearlier deviceId publicKey hsome => ?_,
        fun earlier hearlier hsome => ?_⟩
      · rcases List.mem_append.mp hearlier with hpast | hnew
        · exact absurd (h.verified earlier hpast token _ hsome) hfresh
        · rw [List.mem_singleton.mp hnew] at hsome
          cases hsome
      · rcases List.mem_append.mp hearlier with hpast | hnew
        · exact absurd (h.redeemed earlier hpast token _ hsome) hfresh
        · rw [List.mem_singleton.mp hnew] at hsome
          cases hsome
  · obtain ⟨hok, hkeys⟩ := h.returned other record hsome
    refine ⟨hkeep hok _, fun hkey => ?_⟩
    rcases mem_keys_assign.mp hkey with hold | hsame
    · exact keys_loadState hkeys now hold
    · exact hknown hok hsame

theorem inv_verify (h : Inv past system) (now : Rat) (params : VerifyParams) :
    TokenLaw past ⟨.verify params, (perform system.file now (.verify params)).1⟩ ∧
      Inv (past ++ [⟨.verify params, (perform system.file now (.verify params)).1⟩])
        (system.step now (.verify params)) := by
  rcases verify_cases system.file now params with
    hfails | ⟨tokenKey, record, hfound, hdevice, hallowed, hbound, hok⟩
  · have hquiet :
        (⟨.verify params, (perform system.file now (.verify params)).1⟩ : Entry).IsQuiet := by
      simp only [perform, hfails]
      exact ⟨rfl, rfl, rfl⟩
    refine ⟨tokenLaw_of_none hquiet.verified hquiet.redeemed past,
      h.quiet hquiet rfl (fun member hmem => h.file member ?_)
      fun token record hsome => ?_⟩
    · simpa only [System.step, perform, hfails] using hmem
    · simpa only [System.step, perform, hfails] using h.returned token record hsome
  · obtain ⟨-, -, hrecord⟩ := h.found hfound
    -- whoever verified before is the one that the record is bound to
    have hsame (earlier : Entry) (hearlier : earlier ∈ past) (deviceId publicKey : Text)
        (hsome : earlier.verified? = some (trimChars params.token, deviceId, publicKey)) :
        deviceId = trimChars params.deviceId ∧ publicKey = trimChars params.publicKey := by
      obtain ⟨hne, hid, hkey⟩ := hrecord.bound earlier hearlier deviceId publicKey hsome
      obtain ⟨htrimId, htrimKey⟩ := verified?_trimmed hsome
      have hisBound : record.isBound := by
        have hdeviceSome : trimmed? record.deviceId = some deviceId :=
          trimmed?_eq_some.mpr ⟨hne, by rw [hid]; exact htrimId⟩
        rw [DeviceBootstrapTokenRecord.isBound, hdeviceSome]
        rfl
      have hagrees := hbound hisBound
      rw [hid, hkey, Option.map_some, Option.map_some, htrimId, htrimKey] at hagrees
      exact ⟨Option.some.inj hagrees.1, Option.some.inj hagrees.2⟩
    have hanswer : (perform system.file now (.verify params)).1 = .verified .ok := by
      simp only [perform, hok]
    have hstep : system.step now (.verify params) = ⟨assign (loadState system.file now) tokenKey
        { record with
          profile := some (resolvePersistedBootstrapProfile record)
          deviceId := some (trimChars params.deviceId)
          publicKey := some (trimChars params.publicKey)
          lastUsedAtMs := some now }, system.returned, system.issued⟩ := by
      simp only [System.step, perform, hok]
    rw [hanswer, hstep]
    refine ⟨⟨?_, ?_, fun hsome => by cases hsome⟩, h.write hfound ⟨hrecord.token_eq, ?_, ?_, ?_⟩ rfl
      ?_ (fun _ _ hsome => by cases hsome)⟩
    · rintro _ ⟨⟩ -
      obtain ⟨earlier, hearlier, profile, hissued, hprofile⟩ := hrecord.issued
      exact ⟨earlier, hearlier, profile, hissued, allowsRequest_mono
        (fun role => (hprofile.roles role).mp) (fun scope => (hprofile.scopes scope).mp) hallowed⟩
    · rintro token pair ⟨deviceId, publicKey⟩ ⟨⟩ earlier hearlier hsome
      obtain ⟨rfl, rfl⟩ := hsame earlier hearlier deviceId publicKey hsome
      rfl
    · obtain ⟨earlier, hearlier, profile, hissued, hprofile⟩ := hrecord.issued
      exact ⟨earlier, List.mem_append_left _ hearlier, profile, hissued,
        (persisted_some rfl (isNormal_persisted record)).trans hprofile⟩
    · intro earlier hearlier deviceId publicKey hsome
      rcases List.mem_append.mp hearlier with hpast | hnew
      · obtain ⟨rfl, rfl⟩ := hsame earlier hpast deviceId publicKey hsome
        exact ⟨hdevice, rfl, rfl⟩
      · rw [List.mem_singleton.mp hnew] at hsome
        cases hsome
        exact ⟨hdevice, rfl, rfl⟩
    · intro earlier hearlier hsome
      rcases List.mem_append.mp hearlier with hpast | hnew
      · exact SameProfile.satisfies ⟨fun _ => Iff.rfl, fun _ => Iff.rfl⟩
          (persisted_some rfl (isNormal_persisted record)).symm
            (hrecord.redeemed earlier hpast hsome)
      · rw [List.mem_singleton.mp hnew] at hsome
        cases hsome
    · rintro other pair ⟨⟩
      rfl

theorem inv_redeem (h : Inv past system) (now : Rat) (params : RedeemParams) :
    TokenLaw past ⟨.redeem params, (perform system.file now (.redeem params)).1⟩ ∧
      Inv (past ++ [⟨.redeem params, (perform system.file now (.redeem params)).1⟩])
        (system.step now (.redeem params)) := by
  rcases redeem_cases system.file now params with
    hfails | ⟨tokenKey, record, redeemed, hfound, hnormal, hroles, hscopes, hok⟩
  · have hquiet :
        (⟨.redeem params, (perform system.file now (.redeem params)).1⟩ : Entry).IsQuiet := by
      simp only [perform, hfails]
      exact ⟨rfl, rfl, rfl⟩
    refine ⟨tokenLaw_of_none hquiet.verified hquiet.redeemed past,
      h.quiet hquiet rfl (fun member hmem => h.file member ?_) fun token record hsome => ?_⟩
    · simpa only [System.step, perform, hfails] using hmem
    · simpa only [System.step, perform, hfails] using h.returned token record hsome
  · obtain ⟨-, -, hrecord⟩ := h.found hfound
    -- what was fully redeemed before is so with what is redeemed now
    have hstays (earlier : Entry) (hearlier : earlier ∈ past)
        (hsome : earlier.redeemed? = some (trimChars params.token, true)) :
        bootstrapProfileSatisfiesProfile redeemed (resolvePersistedBootstrapProfile record) :=
      satisfiesProfile_mono hroles hscopes (fun _ hmem => hmem) (fun _ hmem => hmem)
        (hrecord.redeemed earlier hearlier hsome)
    have hanswer : (perform system.file now (.redeem params)).1 = .redeemed
        ⟨true, bootstrapProfileSatisfiesProfile redeemed
          (resolvePersistedBootstrapProfile record)⟩ := by
      simp only [perform, hok]
    have hstep : system.step now (.redeem params) = ⟨assign (loadState system.file now) tokenKey
        { record with
          profile := some (resolvePersistedBootstrapProfile record)
          redeemedProfile := some redeemed }, system.returned, system.issued⟩ := by
      simp only [System.step, perform, hok]
    rw [hanswer, hstep]
    refine ⟨⟨fun hcall => ?_, fun hsome => ?_, ?_⟩, h.write hfound ⟨hrecord.token_eq, ?_, ?_, ?_⟩
      rfl (fun other pair hsome => ?_) ?_⟩
    · cases hcall
    · cases hsome
    · rintro token full ⟨⟩ earlier hearlier hsome
      exact hstays earlier hearlier hsome
    · obtain ⟨earlier, hearlier, profile, hissued, hprofile⟩ := hrecord.issued
      exact ⟨earlier, List.mem_append_left _ hearlier, profile, hissued,
        (persisted_some rfl (isNormal_persisted record)).trans hprofile⟩
    · intro earlier hearlier deviceId publicKey hsome
      rcases List.mem_append.mp hearlier with hpast | hnew
      · exact hrecord.bound earlier hpast deviceId publicKey hsome
      · rw [List.mem_singleton.mp hnew] at hsome
        cases hsome
    · intro earlier hearlier hsome
      have hfull : bootstrapProfileSatisfiesProfile redeemed
          (resolvePersistedBootstrapProfile record) := by
        rcases List.mem_append.mp hearlier with hpast | hnew
        · exact hstays earlier hpast hsome
        · rw [List.mem_singleton.mp hnew] at hsome
          exact (Prod.mk.inj (Option.some.inj hsome)).2
      exact SameProfile.satisfies (redeemed_some rfl hnormal).symm
        (persisted_some rfl (isNormal_persisted record)).symm hfull
    · cases hsome
    · rintro other full ⟨⟩
      rfl

theorem inv_revoke (h : Inv past system) (now : Rat) (token : Text) :
    TokenLaw past ⟨.revoke token, (perform system.file now (.revoke token)).1⟩ ∧
      Inv (past ++ [⟨.revoke token, (perform system.file now (.revoke token)).1⟩])
        (system.step now (.revoke token)) := by
  refine ⟨tokenLaw_of_none rfl rfl past, ?_⟩
  have hquiet : (⟨.revoke token, (perform system.file now (.revoke token)).1⟩ : Entry).IsQuiet :=
    ⟨rfl, rfl, rfl⟩
  rcases revoke_cases system.file now token with hfails | ⟨tokenKey, record, hfound, hok⟩
  · refine h.quiet hquiet rfl (fun member hmem => h.file member ?_) fun token record hsome => ?_
    · simpa only [System.step, perform, hfails] using hmem
    · simp only [System.step, perform, hfails] at hsome ⊢
      exact h.returned token record hsome
  · obtain ⟨rfl, -, hrecord⟩ := h.found hfound
    have hstep : system.step now (.revoke token) =
        ⟨remove (loadState system.file now) (trimChars token),
          Function.update system.returned record.token (some record), system.issued⟩ := by
      simp only [System.step, perform, hok]
    rw [hstep]
    refine h.quiet hquiet rfl (fun member hmem => h.loaded (List.mem_of_mem_filter hmem))
      fun other kept hsome => ?_
    dsimp only at hsome ⊢
    by_cases hother : other = record.token
    · subst hother
      rw [Function.update_self] at hsome
      cases hsome
      rw [hrecord.token_eq]
      refine ⟨hrecord, fun hkey => ?_⟩
      obtain ⟨member, hmem, hmemKey⟩ := List.mem_map.mp hkey
      simp [remove, hmemKey] at hmem
    · rw [Function.update_of_ne hother] at hsome
      obtain ⟨hkept, hkeys⟩ := h.returned other kept hsome
      refine ⟨hkept, fun hkey => keys_loadState hkeys now ?_⟩
      obtain ⟨member, hmem, rfl⟩ := List.mem_map.mp hkey
      exact List.mem_map_of_mem (List.mem_of_mem_filter hmem)

theorem inv_clear (h : Inv past system) (now : Rat) :
    TokenLaw past ⟨.clear, (perform system.file now .clear).1⟩ ∧
      Inv (past ++ [⟨.clear, (perform system.file now .clear).1⟩]) (system.step now .clear) := by
  refine ⟨tokenLaw_of_none rfl rfl past, h.quiet ⟨rfl, rfl, rfl⟩ rfl (List.forall_mem_nil _)
    fun token record hsome => ?_⟩
  exact ⟨(h.returned token record hsome).1, List.not_mem_nil⟩

theorem inv_restore (h : Inv past system) (now : Rat)
    (hadmits : system.Admits (.restore record)) :
    TokenLaw past ⟨.restore record, (perform system.file now (.restore record)).1⟩ ∧
      Inv (past ++ [⟨.restore record, (perform system.file now (.restore record)).1⟩])
        (system.step now (.restore record)) := by
  obtain ⟨hrecord, -⟩ := h.returned record.token record hadmits
  refine ⟨tokenLaw_of_none rfl rfl past, h.quiet ⟨rfl, rfl, rfl⟩ rfl (fun member hmem => ?_)
    fun other kept hsome => ?_⟩
  · rcases mem_assign_iff.mp hmem with ⟨hold, -⟩ | rfl
    · exact h.loaded hold
    · exact hrecord
  · have hother : other ≠ record.token := by
      rintro rfl
      have hnone :
          Function.update system.returned record.token none record.token = some kept := hsome
      rw [Function.update_self] at hnone
      cases hnone
    have hsome' : Function.update system.returned record.token none other = some kept := hsome
    rw [Function.update_of_ne hother] at hsome'
    obtain ⟨hkept, hkeys⟩ := h.returned other kept hsome'
    refine ⟨hkept, fun hkey => ?_⟩
    rcases mem_keys_assign.mp hkey with hold | hsame
    · exact keys_loadState hkeys now hold
    · exact hother hsame

theorem inv_step (h : Inv past system) (now : Rat) (hadmits : system.Admits call) :
    TokenLaw past ⟨call, (perform system.file now call).1⟩ ∧
      Inv (past ++ [⟨call, (perform system.file now call).1⟩]) (system.step now call) := by
  cases call with
  | issue token params => exact inv_issue h now params hadmits
  | verify params => exact inv_verify h now params
  | redeem params => exact inv_redeem h now params
  | revoke token => exact inv_revoke h now token
  | clear => exact inv_clear h now
  | restore record => exact inv_restore h now hadmits

theorem tokenLaw_run {calls : List (Rat × Call)} (h : Inv past system)
    (hproper : System.Proper calls system)
    (hsplit : System.log calls system = before ++ entry :: rest) :
    TokenLaw (past ++ before) entry := by
  induction calls generalizing past system before with
  | nil => simp [System.log] at hsplit
  | cons call calls ih =>
    obtain ⟨now, call⟩ := call
    obtain ⟨hlaw, hinv⟩ := inv_step h now hproper.1
    rw [System.log] at hsplit
    cases before with
    | nil =>
      obtain ⟨rfl, -⟩ := List.cons.inj hsplit
      rw [List.append_nil]
      exact hlaw
    | cons first before =>
      obtain ⟨rfl, hrest⟩ := List.cons.inj hsplit
      rw [List.append_cons]
      exact ih hinv hproper.2 hrest

/-- In every history each answer is in accord with those before it. -/
theorem tokenLaw_of_proper (calls : List (Rat × Call)) (hproper : System.Proper calls .start)
    (past rest : List Entry) (entry : Entry)
    (hsplit : System.log calls .start = past ++ entry :: rest) : TokenLaw past entry :=
  tokenLaw_run inv_start hproper hsplit

def sampleToken : Text := "t0ken".toList

def sampleVerify : Call :=
  .verify ⟨sampleToken, "device".toList, "key".toList, "node".toList, []⟩

def sampleRedeem : Call := .redeem ⟨sampleToken, "node".toList, []⟩

def sampleRecord : DeviceBootstrapTokenRecord where
  token := sampleToken
  ts := 0
  deviceId := some "device".toList
  publicKey := some "key".toList
  profile := some ⟨["node".toList], []⟩
  redeemedProfile := some ⟨["node".toList], []⟩
  issuedAtMs := 0
  lastUsedAtMs := some 0

def sampleIssue : Call := .issue sampleToken ⟨none, some ["node".toList], none⟩

theorem tokenLaw_sample :
    TokenLaw
      [⟨sampleIssue, .issued 600000⟩, ⟨sampleVerify, .verified .ok⟩,
        ⟨sampleRedeem, .redeemed ⟨true, true⟩⟩, ⟨.revoke sampleToken, .revoked (some sampleRecord)⟩,
        ⟨.restore sampleRecord, .restored⟩]
      ⟨sampleVerify, .verified .ok⟩ := by
  refine tokenLaw_of_proper
    [(0, sampleIssue), (0, sampleVerify), (0, sampleRedeem), (0, .revoke sampleToken),
      (0, .restore sampleRecord), (0, sampleVerify)]
    ⟨⟨by decide, by decide, List.not_mem_nil⟩, trivial, trivial, trivial, ?_, trivial, trivial⟩ _ []
    _ (by decide +kernel)
  show (System.step _ 0 (.revoke sampleToken)).returned sampleToken = some sampleRecord
  decide +kernel

/-- The token that a call redeems, with whether the answer says that it is fully redeemed. -/
def Entry.fullyRedeemed? (entry : Entry) : Option (Text × Bool) :=
  match entry.call, entry.answer with
  | .redeem params, .redeemed result => some (trimChars params.token, result.fullyRedeemed)
  | _, _ => none

/-- Where the token is gone, the answer is that it is not fully redeemed. -/
theorem not_fullyRedeemed_stays :
    ¬ ∀ calls : List (Rat × Call), System.Proper calls .start →
      (System.log calls .start).Pairwise fun earlier later => ∀ token full,
        earlier.fullyRedeemed? = some (token, true) → later.fullyRedeemed? = some (token, full) →
          full = true := by
  intro h
  have hpairs := h [(0, sampleIssue), (0, sampleRedeem), (0, .clear), (0, sampleRedeem)]
    ⟨⟨by decide, by decide, List.not_mem_nil⟩, trivial, trivial, trivial, trivial⟩
  have hlog : System.log [(0, sampleIssue), (0, sampleRedeem), (0, .clear), (0, sampleRedeem)]
      .start = [⟨sampleIssue, .issued 600000⟩, ⟨sampleRedeem, .redeemed ⟨true, true⟩⟩,
        ⟨.clear, .cleared 1⟩, ⟨sampleRedeem, .redeemed ⟨false, false⟩⟩] := by decide +kernel
  rw [hlog] at hpairs
  have hlater := (List.pairwise_cons.mp (List.pairwise_cons.mp hpairs).2).1
  have hfull := hlater ⟨sampleRedeem, .redeemed ⟨false, false⟩⟩
    (List.mem_cons_of_mem _ List.mem_cons_self) sampleToken false (by decide) (by decide)
  cases hfull

end OpenClaw.DeviceBootstrap
