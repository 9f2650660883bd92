import OpenClaw.Lib.Members
import OpenClaw.Shared.DeviceAuth

/-!
# Bootstrap tokens of devices

Tokens that are issued with a profile of roles and scopes, are bound to the device that first
verifies with one, and record which part of the profile has been redeemed.
-/

namespace OpenClaw.DeviceBootstrap

open Js Members DevicePairing

-- ---
-- Profiles
-- ---

structure DeviceBootstrapProfile where
  roles : List Text
  scopes : List Text
  deriving DecidableEq

structure DeviceBootstrapProfileInput where
  roles : Option (List Text) := none
  scopes : Option (List Text) := none
  deriving DecidableEq

def PAIRING_SETUP_BOOTSTRAP_PROFILE : DeviceBootstrapProfile where
  roles := ["node".toList, "operator".toList]
  scopes := ["operator.read".toList, "operator.talk.secrets".toList, "operator.write".toList]

def normalizeBootstrapRoles (roles : Option (List Text)) : List Text :=
  match roles with
  | none => []
  | some roles => toSorted (trimmedSet roles)

def normalizeDeviceBootstrapProfile (input : Option DeviceBootstrapProfileInput) :
    DeviceBootstrapProfile where
  roles := normalizeBootstrapRoles (input.bind (·.roles))
  scopes := normalizeDeviceAuthScopes (some ((input.bind (·.scopes)).getD []))

/-- A profile, as it is given to `normalizeDeviceBootstrapProfile`. -/
def DeviceBootstrapProfile.input (profile : DeviceBootstrapProfile) : DeviceBootstrapProfileInput :=
  ⟨some profile.roles, some profile.scopes⟩

-- ---
-- Records
-- ---

def DEVICE_BOOTSTRAP_TOKEN_TTL_MS : Rat := 10 * 60 * 1000

structure DeviceBootstrapTokenRecord where
  token : Text
  ts : Rat
  deviceId : Option Text := none
  publicKey : Option Text := none
  profile : Option DeviceBootstrapProfile := none
  redeemedProfile : Option DeviceBootstrapProfile := none
  roles : Option (List Text) := none
  scopes : Option (List Text) := none
  issuedAtMs : Rat
  lastUsedAtMs : Option Rat := none
  deriving DecidableEq

/-- The records by token, as they are in the file. -/
abbrev DeviceBootstrapStateFile := List (Text × DeviceBootstrapTokenRecord)

def resolvePersistedBootstrapProfile (record : DeviceBootstrapTokenRecord) :
    DeviceBootstrapProfile :=
  normalizeDeviceBootstrapProfile
    (some ((record.profile.map (·.input)).getD ⟨record.roles, record.scopes⟩))

def resolvePersistedRedeemedProfile (record : DeviceBootstrapTokenRecord) :
    DeviceBootstrapProfile :=
  normalizeDeviceBootstrapProfile (record.redeemedProfile.map (·.input))

structure IssueParams where
  profile : Option DeviceBootstrapProfileInput := none
  roles : Option (List Text) := none
  scopes : Option (List Text) := none
  deriving DecidableEq

def resolveIssuedBootstrapProfile (params : IssueParams) : DeviceBootstrapProfile :=
  match params.profile with
  | some profile => normalizeDeviceBootstrapProfile (some profile)
  | none =>
    if params.roles.isSome || params.scopes.isSome then
      normalizeDeviceBootstrapProfile (some ⟨params.roles, params.scopes⟩)
    else PAIRING_SETUP_BOOTSTRAP_PROFILE

-- ---
-- What a profile allows
-- ---

def bootstrapProfileAllowsRequest (allowedProfile : DeviceBootstrapProfile) (requestedRole : Text)
    (requestedScopes : List Text) : Bool :=
  allowedProfile.roles.contains requestedRole &&
    roleScopesAllow requestedRole requestedScopes allowedProfile.scopes

def resolveBootstrapProfileScopes (role : Text) (scopes : List Text) : List Text :=
  if role = OPERATOR_ROLE then scopes.filter isOperatorScope
  else scopes.filter (!isOperatorScope ·)

def bootstrapProfileSatisfiesProfile (actualProfile requiredProfile : DeviceBootstrapProfile) :
    Bool :=
  requiredProfile.roles.all fun requiredRole =>
    let requiredScopes := resolveBootstrapProfileScopes requiredRole requiredProfile.scopes
    actualProfile.roles.contains requiredRole &&
      (requiredScopes.length = 0 ||
        bootstrapProfileAllowsRequest actualProfile requiredRole requiredScopes)

-- ---
-- The file
-- ---

def loadRecord (tokenKey : Text) (record : DeviceBootstrapTokenRecord) :
    DeviceBootstrapTokenRecord where
  token := if trimChars record.token = [] then tokenKey else record.token
  profile := some (resolvePersistedBootstrapProfile record)
  redeemedProfile := some (resolvePersistedRedeemedProfile record)
  deviceId := record.deviceId
  publicKey := record.publicKey
  issuedAtMs := record.issuedAtMs
  ts := record.ts
  lastUsedAtMs := record.lastUsedAtMs

/-- The records, less those that have expired. -/
def loadState (file : DeviceBootstrapStateFile) (now : Rat) : DeviceBootstrapStateFile :=
  (file.map fun entry => (entry.1, loadRecord entry.1 entry.2)).filter fun entry =>
    ¬ DEVICE_BOOTSTRAP_TOKEN_TTL_MS < now - entry.2.ts

def verifyPairingToken (provided expected : Text) : Bool :=
  trimChars provided ≠ [] && trimChars expected ≠ [] && provided = expected

def findToken (state : DeviceBootstrapStateFile) (providedToken : Text) :
    Option (Text × DeviceBootstrapTokenRecord) :=
  state.find? fun entry => verifyPairingToken providedToken entry.2.token

-- ---
-- Calls
-- ---

/-- A token is issued; which one it is, `generatePairingToken` says. -/
def issueDeviceBootstrapToken (file : DeviceBootstrapStateFile) (now : Rat) (token : Text)
    (params : IssueParams) : Rat × DeviceBootstrapStateFile :=
  let record : DeviceBootstrapTokenRecord :=
    { token
      ts := now
      profile := some (resolveIssuedBootstrapProfile params)
      redeemedProfile := some (normalizeDeviceBootstrapProfile none)
      issuedAtMs := now }
  (now + DEVICE_BOOTSTRAP_TOKEN_TTL_MS, assign (loadState file now) token record)

def clearDeviceBootstrapTokens (file : DeviceBootstrapStateFile) (now : Rat) :
    Nat × DeviceBootstrapStateFile :=
  ((loadState file now).length, [])

/-- The record that is removed, if there is one. -/
def revokeDeviceBootstrapToken (file : DeviceBootstrapStateFile) (now : Rat) (token : Text) :
    Option DeviceBootstrapTokenRecord × DeviceBootstrapStateFile :=
  let providedToken := trimChars token
  if providedToken = [] then (none, file)
  else
    let state := loadState file now
    match findToken state providedToken with
    | none => (none, file)
    | some (tokenKey, record) => (some record, remove state tokenKey)

def restoreDeviceBootstrapToken (file : DeviceBootstrapStateFile) (now : Rat)
    (record : DeviceBootstrapTokenRecord) : DeviceBootstrapStateFile :=
  assign (loadState file now) record.token record

structure RedeemParams where
  token : Text
  role : Text
  scopes : List Text
  deriving DecidableEq

structure RedeemResult where
  recorded : Bool
  fullyRedeemed : Bool
  deriving DecidableEq

def redeemDeviceBootstrapTokenProfile (file : DeviceBootstrapStateFile) (now : Rat)
    (params : RedeemParams) : RedeemResult × DeviceBootstrapStateFile :=
  let providedToken := trimChars params.token
  if providedToken = [] then (⟨false, false⟩, file)
  else
    let state := loadState file now
    match findToken state providedToken with
    | none => (⟨false, false⟩, file)
    | some (tokenKey, record) =>
      let issuedProfile := resolvePersistedBootstrapProfile record
      let redeemedProfile := normalizeDeviceBootstrapProfile (some
        { roles := some ((resolvePersistedRedeemedProfile record).roles ++ [params.role])
          scopes := some ((resolvePersistedRedeemedProfile record).scopes ++
            resolveBootstrapProfileScopes params.role params.scopes) })
      (⟨true, bootstrapProfileSatisfiesProfile redeemedProfile issuedProfile⟩,
        assign state tokenKey
          { record with profile := some issuedProfile, redeemedProfile := some redeemedProfile })

structure VerifyParams where
  token : Text
  deviceId : Text
  publicKey : Text
  role : Text
  scopes : List Text
  deriving DecidableEq

inductive VerifyResult
  | ok
  | failed (reason : Text)
  deriving DecidableEq

def tokenInvalid : VerifyResult := .failed "bootstrap_token_invalid".toList

/-- The device and the key that a record is bound to, where it is to any. -/
def DeviceBootstrapTokenRecord.isBound (record : DeviceBootstrapTokenRecord) : Bool :=
  (trimmed? record.deviceId).isSome || (trimmed? record.publicKey).isSome

def verifyDeviceBootstrapToken (file : DeviceBootstrapStateFile) (now : Rat)
    (params : VerifyParams) : VerifyResult × DeviceBootstrapStateFile :=
  let state := loadState file now
  let providedToken := trimChars params.token
  if providedToken = [] then (tokenInvalid, file)
  else
    match findToken state providedToken with
    | none => (tokenInvalid, file)
    | some (tokenKey, record) =>
      let deviceId := trimChars params.deviceId
      let publicKey := trimChars params.publicKey
      let role := trimChars params.role
      let allowedProfile := resolvePersistedBootstrapProfile record
      let bound : DeviceBootstrapTokenRecord :=
        { record with
          profile := some allowedProfile
          deviceId := some deviceId
          publicKey := some publicKey
          lastUsedAtMs := some now }
      if deviceId = [] ∨ publicKey = [] ∨ role = [] then (tokenInvalid, file)
      else if allowedProfile.roles.length = 0 ||
          !bootstrapProfileAllowsRequest allowedProfile role params.scopes then
        (tokenInvalid, file)
      else if record.isBound then
        if record.deviceId.map trimChars ≠ some deviceId ∨
            record.publicKey.map trimChars ≠ some publicKey then
          (tokenInvalid, file)
        else (.ok, assign state tokenKey bound)
      else (.ok, assign state tokenKey bound)

end OpenClaw.DeviceBootstrap
