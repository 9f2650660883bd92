import OpenClaw.Lib.Members
import OpenClaw.Lib.Transition
import OpenClaw.Shared.DeviceAuth

/-!
# Device pairing

Devices ask to be paired, are approved or rejected, and then hold a token for each of
their roles. A store on disk has the pending requests and the paired devices. Every
operation runs under one lock: it loads the store without the requests that have
expired, and persists what it changed, or leaves the store as it was.

A pending request carries the requests that were merged into it, which the code does
not keep. Random ids and tokens are inputs of the operations, and so is the clock.
-/

namespace OpenClaw.DevicePairing

open Js OrderedSet Members

-- ---
-- Records
-- ---

/-- What a client says about itself. -/
structure ClientMetadata where
  displayName : Option Text
  platform : Option Text
  deviceFamily : Option Text
  clientId : Option Text
  clientMode : Option Text
  remoteIp : Option Text
  deriving DecidableEq

/-- A request as it comes in. -/
structure Incoming where
  deviceId : Text
  publicKey : Text
  metadata : ClientMetadata
  role : Option Text
  roles : Option (List Text)
  scopes : Option (List Text)
  silent : Option Bool
  deriving DecidableEq

structure DevicePairingPendingRequest where
  requestId : Text
  deviceId : Text
  publicKey : Text
  metadata : ClientMetadata
  role : Option Text
  roles : Option (List Text)
  scopes : Option (List Text)
  silent : Option Bool
  isRepair : Bool
  ts : Int
  merged : List Incoming
  deriving DecidableEq

structure DeviceAuthToken where
  token : Text
  role : Text
  scopes : List Text
  createdAtMs : Int
  rotatedAtMs : Option Int
  revokedAtMs : Option Int
  lastUsedAtMs : Option Int
  deriving DecidableEq

structure PairedDevice where
  deviceId : Text
  publicKey : Text
  metadata : ClientMetadata
  role : Option Text
  roles : Option (List Text)
  scopes : Option (List Text)
  approvedScopes : Option (List Text)
  tokens : Option (List (Text × DeviceAuthToken))
  createdAtMs : Int
  approvedAtMs : Int
  deriving DecidableEq

structure DevicePairingStateFile where
  pendingById : List (Text × DevicePairingPendingRequest)
  pairedByDeviceId : List (Text × PairedDevice)

-- ---
-- Roles and scopes
-- ---

def PENDING_TTL_MS : Int := 5 * 60 * 1000

def normalizeDeviceId (deviceId : Text) : Text := trimChars deviceId

def normalizeRole (role : Option Text) : Option Text := trimmed? role

/-- An item is a list of roles; a single role is the list of it. -/
def mergeRoles (items : List (Option (List Text))) : Option (List Text) :=
  let roles := trimmedSet (items.flatMap (·.getD []))
  if roles.length = 0 then none else some roles

def oneRole (role : Option Text) : Option (List Text) := role.map ([·])

def mergeScopes (items : List (Option (List Text))) : Option (List Text) :=
  let scopes := trimmedSet (items.flatMap (·.getD []))
  if scopes.length = 0 then if items.any Option.isSome then some [] else none else some scopes

theorem mem_mergeRoles {items : List (Option (List Text))} :
    role ∈ (mergeRoles items).getD [] ↔ ∃ item ∈ items, role ∈ trimmedSet (item.getD []) := by
  rw [← mem_trimmedSet_flatMap, mergeRoles]
  split
  case isTrue hnone => simp [List.length_eq_zero_iff.1 hnone]
  case isFalse => rfl

theorem nodup_mergeRoles (items : List (Option (List Text))) : ((mergeRoles items).getD []).Nodup := by
  unfold mergeRoles
  dsimp only
  split
  · exact List.nodup_nil
  · exact nodup_ofList _

theorem trimmedSet_mergeRoles {items : List (Option (List Text))} :
    role ∈ trimmedSet ((mergeRoles items).getD []) ↔ ∃ item ∈ items, role ∈ trimmedSet (item.getD []) := by
  rw [← mem_trimmedSet_flatMap, mergeRoles]
  split
  case isTrue hnone => simp [List.length_eq_zero_iff.1 hnone]
  case isFalse => rw [Option.getD_some, mem_trimmedSet_trimmedSet]

theorem mem_trimmedSet_oneRole {role : Option Text} :
    text ∈ trimmedSet ((oneRole role).getD []) ↔ normalizeRole role = some text := by
  rw [normalizeRole, trimmed?_eq_some, mem_trimmedSet]
  cases role with
  | none => simp [oneRole, trimChars, eq_comm]
  | some role => simp [oneRole]

theorem trimmedSet_mergeScopes {items : List (Option (List Text))} :
    scope ∈ trimmedSet ((mergeScopes items).getD []) ↔ ∃ item ∈ items, scope ∈ trimmedSet (item.getD []) := by
  rw [← mem_trimmedSet_flatMap, mergeScopes]
  split
  case isTrue hnone => split <;> simp [List.length_eq_zero_iff.1 hnone]
  case isFalse => rw [Option.getD_some, mem_trimmedSet_trimmedSet]

theorem mergeScopes_eq_none {items : List (Option (List Text))} (h : mergeScopes items = none) :
    ∀ item ∈ items, item = none := by
  unfold mergeScopes at h
  dsimp only at h
  split at h
  · split at h
    · cases h
    case isFalse hany => simpa using hany
  · cases h

/-- What scopes imply, they imply one by one. -/
theorem mem_normalize_mergeScopes {items : List (Option (List Text))} :
    scope ∈ normalizeDeviceAuthScopes (mergeScopes items) ↔ ∃ item ∈ items, scope ∈ normalizeDeviceAuthScopes item := by
  simp only [mem_normalizeDeviceAuthScopes, trimmedSet_mergeScopes]
  grind

def sameStringSet (left right : List Text) : Bool :=
  if left.length ≠ right.length then false else left.all (· ∈ right)

def resolveRequestedRoles (role : Option Text) (roles : Option (List Text)) : List Text :=
  (mergeRoles [roles, oneRole role]).getD []

def resolveRequestedScopes (scopes : Option (List Text)) : List Text := normalizeDeviceAuthScopes scopes

def resolveRoleScopedDeviceTokenScopes (role : Text) (scopes : Option (List Text)) : List Text :=
  let normalized := normalizeDeviceAuthScopes scopes
  if role = OPERATOR_ROLE then normalized.filter isOperatorScope
  else normalized.filter fun scope => !isOperatorScope scope

def resolveApprovedTokenScopes (role : Text) (pending : DevicePairingPendingRequest)
    (existingToken : Option DeviceAuthToken) (approvedScopes : Option (List Text)) (existing : Option PairedDevice) :
    List Text :=
  let requestedScopes := resolveRoleScopedDeviceTokenScopes role pending.scopes
  if 0 < requestedScopes.length then requestedScopes
  else
    resolveRoleScopedDeviceTokenScopes role
      ((existingToken.map (·.scopes)).or <| approvedScopes.or <|
        (existing.bind (·.approvedScopes)).or (existing.bind (·.scopes)))

/-- The scopes a device was approved for; an old record has only `scopes`. -/
def resolveApprovedDeviceScopeBaseline (device : PairedDevice) : Option (List Text) :=
  match device.approvedScopes.or device.scopes with
  | none => none
  | some baseline => some (normalizeDeviceAuthScopes (some baseline))

def scopesWithinApprovedDeviceBaseline (role : Text) (scopes : List Text) (approvedScopes : Option (List Text)) : Bool :=
  match approvedScopes with
  | none => false
  | some approvedScopes => roleScopesAllow role scopes approvedScopes

-- ---
-- Requests
-- ---

def pruneExpiredPending (pendingById : List (Text × DevicePairingPendingRequest)) (nowMs ttlMs : Int) :
    List (Text × DevicePairingPendingRequest) :=
  pendingById.filter fun member => ¬ ttlMs < nowMs - member.2.ts

def loadState (file : DevicePairingStateFile) (now : Int) : DevicePairingStateFile :=
  { file with pendingById := pruneExpiredPending file.pendingById now PENDING_TTL_MS }

def samePendingApprovalSnapshot (existing : DevicePairingPendingRequest) (incoming : Incoming) : Bool :=
  if existing.publicKey ≠ incoming.publicKey then false
  else if normalizeRole existing.role ≠ normalizeRole incoming.role then false
  else if !sameStringSet (resolveRequestedRoles existing.role existing.roles)
      (resolveRequestedRoles incoming.role incoming.roles) ||
    !sameStringSet (resolveRequestedScopes existing.scopes) (resolveRequestedScopes incoming.scopes) then false
  else true

def refreshPendingDevicePairingRequest (existing : DevicePairingPendingRequest) (incoming : Incoming) (isRepair : Bool)
    (now : Int) : DevicePairingPendingRequest :=
  { existing with
    publicKey := incoming.publicKey
    metadata :=
      { displayName := incoming.metadata.displayName.or existing.metadata.displayName
        platform := incoming.metadata.platform.or existing.metadata.platform
        deviceFamily := incoming.metadata.deviceFamily.or existing.metadata.deviceFamily
        clientId := incoming.metadata.clientId.or existing.metadata.clientId
        clientMode := incoming.metadata.clientMode.or existing.metadata.clientMode
        remoteIp := incoming.metadata.remoteIp.or existing.metadata.remoteIp }
    silent := some (existing.silent = some true && incoming.silent = some true)
    isRepair := existing.isRepair || isRepair
    ts := now
    merged := existing.merged ++ [incoming] }

def resolveSupersededPendingSilent (existing : List DevicePairingPendingRequest) (incomingSilent : Option Bool) : Bool :=
  incomingSilent = some true && existing.all (·.silent = some true)

def buildPendingDevicePairingRequest (requestId deviceId : Text) (isRepair : Bool) (req : Incoming) (now : Int)
    (merged : List Incoming) : DevicePairingPendingRequest :=
  let role := normalizeRole req.role
  { requestId
    deviceId
    publicKey := req.publicKey
    metadata := req.metadata
    role
    roles := mergeRoles [req.roles, oneRole role]
    scopes := mergeScopes [req.scopes]
    silent := req.silent
    isRepair
    ts := now
    merged }

/-- The request that takes the place of the pending ones, the latest of them first. -/
def buildReplacement (requestId deviceId : Text) (isRepair : Bool) (existing : List DevicePairingPendingRequest)
    (incoming : Incoming) (now : Int) : DevicePairingPendingRequest :=
  let latestPending := existing.head?
  let mergedRoles :=
    mergeRoles ((existing.flatMap fun pending => [pending.roles, oneRole pending.role]) ++
      [incoming.roles, oneRole incoming.role])
  let mergedScopes := mergeScopes (existing.map (·.scopes) ++ [incoming.scopes])
  buildPendingDevicePairingRequest requestId deviceId isRepair
    { incoming with
      role := (normalizeRole incoming.role).or (latestPending.bind (·.role))
      roles := mergedRoles
      scopes := mergedScopes
      silent := some (resolveSupersededPendingSilent existing incoming.silent) }
    now (existing.flatMap (·.merged) ++ [incoming])

/-- The pending requests, the one that stands for the incoming request, and whether it
was created. -/
def reconcilePendingPairingRequests (pendingById : List (Text × DevicePairingPendingRequest))
    (existing : List DevicePairingPendingRequest) (incoming : Incoming)
    (canRefreshSingle : DevicePairingPendingRequest → Incoming → Bool)
    (refreshSingle : DevicePairingPendingRequest → Incoming → DevicePairingPendingRequest)
    (buildReplacement : List DevicePairingPendingRequest → Incoming → DevicePairingPendingRequest) :
    List (Text × DevicePairingPendingRequest) × DevicePairingPendingRequest × Bool :=
  let single := if existing.length = 1 then existing.head? else none
  match single.filter (canRefreshSingle · incoming) with
  | some single =>
    let refreshed := refreshSingle single incoming
    (assign pendingById refreshed.requestId refreshed, refreshed, false)
  | none =>
    let kept := existing.foldl (fun pendingById existing => remove pendingById existing.requestId) pendingById
    let request := buildReplacement existing incoming
    (assign kept request.requestId request, request, true)

/-- The pending requests of a device, the latest first. -/
def pendingForDevice (state : DevicePairingStateFile) (deviceId : Text) : List DevicePairingPendingRequest :=
  ((state.pendingById.map Prod.snd).filter (·.deviceId = deviceId)).insertionSort fun left right => right.ts ≤ left.ts

def requestDevicePairing (file : DevicePairingStateFile) (req : Incoming) (requestId : Text) (now : Int) :
    Except String (DevicePairingPendingRequest × Bool) × DevicePairingStateFile :=
  let state := loadState file now
  let deviceId := normalizeDeviceId req.deviceId
  if deviceId = [] then (.error "deviceId required", file)
  else
    let isRepair := (state.pairedByDeviceId.lookup deviceId).isSome
    let existing := pendingForDevice state deviceId
    let reconciled :=
      reconcilePendingPairingRequests state.pendingById existing req samePendingApprovalSnapshot
        (fun existing incoming => refreshPendingDevicePairingRequest existing incoming isRepair now)
        (fun existing incoming => buildReplacement requestId deviceId isRepair existing incoming now)
    (.ok reconciled.2, { state with pendingById := reconciled.1 })

/-- `rejectPendingPairingRequest` -/
def rejectDevicePairing (file : DevicePairingStateFile) (requestId : Text) (now : Int) :
    Option (Text × Text) × DevicePairingStateFile :=
  let state := loadState file now
  match state.pendingById.lookup requestId with
  | none => (none, file)
  | some pending =>
    (some (requestId, pending.deviceId), { state with pendingById := remove state.pendingById requestId })

-- ---
-- Approval
-- ---

inductive ApproveDevicePairingResult where
  | approved (requestId : Text) (device : PairedDevice)
  | forbidden (missingScope : Text)

def operatorScopes (scopes : Option (List Text)) : List Text :=
  (normalizeDeviceAuthScopes scopes).filter isOperatorScope

/-- The scope that is missing where a request for operator scopes is forbidden. -/
def forbiddenScope (pending : DevicePairingPendingRequest) (callerScopes : Option (List Text)) : Option Text :=
  let requestedRoles := (mergeRoles [pending.roles, oneRole pending.role]).getD []
  match operatorScopes pending.scopes with
  | [] => none
  | scope :: scopes =>
    match callerScopes with
    | none => some scope
    | some callerScopes =>
      if OPERATOR_ROLE ∉ requestedRoles then some scope
      else resolveMissingRequestedScope OPERATOR_ROLE (scope :: scopes) callerScopes

/-- The token that an approval mints for a role. -/
def mintApprovedToken (pending : DevicePairingPendingRequest) (existing : Option PairedDevice)
    (approvedScopes : Option (List Text)) (newToken : Text → Text) (now : Int)
    (tokens : List (Text × DeviceAuthToken)) (role : Text) : List (Text × DeviceAuthToken) :=
  let existingToken := tokens.lookup role
  assign tokens role
    { token := newToken role
      role
      scopes := resolveApprovedTokenScopes role pending existingToken approvedScopes existing
      createdAtMs := (existingToken.map (·.createdAtMs)).getD now
      rotatedAtMs := existingToken.map fun _ => now
      revokedAtMs := none
      lastUsedAtMs := existingToken.bind (·.lastUsedAtMs) }

def approvedDevice (pending : DevicePairingPendingRequest) (existing : Option PairedDevice) (newToken : Text → Text)
    (now : Int) : PairedDevice :=
  let requestedRoles := (mergeRoles [pending.roles, oneRole pending.role]).getD []
  let roles :=
    mergeRoles [existing.bind (·.roles), oneRole (existing.bind (·.role)), pending.roles, oneRole pending.role]
  let approvedScopes :=
    mergeScopes [(existing.bind (·.approvedScopes)).or (existing.bind (·.scopes)), pending.scopes]
  let tokens := (existing.bind (·.tokens)).getD []
  { deviceId := pending.deviceId
    publicKey := pending.publicKey
    metadata := pending.metadata
    role := pending.role
    roles
    scopes := approvedScopes
    approvedScopes
    tokens := some (requestedRoles.foldl (mintApprovedToken pending existing approvedScopes newToken now) tokens)
    createdAtMs := (existing.map (·.createdAtMs)).getD now
    approvedAtMs := now }

def approveDevicePairing (file : DevicePairingStateFile) (requestId : Text) (callerScopes : Option (List Text))
    (newToken : Text → Text) (now : Int) : Option ApproveDevicePairingResult × DevicePairingStateFile :=
  let state := loadState file now
  match state.pendingById.lookup requestId with
  | none => (none, file)
  | some pending =>
    match forbiddenScope pending callerScopes with
    | some missingScope => (some (.forbidden missingScope), file)
    | none =>
      let device := approvedDevice pending (state.pairedByDeviceId.lookup pending.deviceId) newToken now
      (some (.approved requestId device),
        { pendingById := remove state.pendingById requestId
          pairedByDeviceId := assign state.pairedByDeviceId device.deviceId device })

-- ---
-- Paired devices
-- ---

/-- What a call changes: an outer `none` is a key that the patch does not have. -/
structure MetadataPatch where
  publicKey : Option Text
  displayName : Option (Option Text)
  platform : Option (Option Text)
  deviceFamily : Option (Option Text)
  clientId : Option (Option Text)
  clientMode : Option (Option Text)
  remoteIp : Option (Option Text)
  role : Option Text
  scopes : Option (List Text)
  tokens : Option (Option (List (Text × DeviceAuthToken)))

def patchDevice (existing : PairedDevice) (patch : MetadataPatch) : PairedDevice :=
  { existing with
    publicKey := patch.publicKey.getD existing.publicKey
    metadata :=
      { displayName := patch.displayName.getD existing.metadata.displayName
        platform := patch.platform.getD existing.metadata.platform
        deviceFamily := patch.deviceFamily.getD existing.metadata.deviceFamily
        clientId := patch.clientId.getD existing.metadata.clientId
        clientMode := patch.clientMode.getD existing.metadata.clientMode
        remoteIp := patch.remoteIp.getD existing.metadata.remoteIp }
    tokens := patch.tokens.getD existing.tokens
    role := patch.role.or existing.role
    roles := mergeRoles [existing.roles, oneRole existing.role, oneRole patch.role]
    scopes := mergeScopes [existing.scopes, patch.scopes] }

def updatePairedDeviceMetadata (file : DevicePairingStateFile) (deviceId : Text) (patch : MetadataPatch) (now : Int) :
    DevicePairingStateFile :=
  let state := loadState file now
  match state.pairedByDeviceId.lookup (normalizeDeviceId deviceId) with
  | none => file
  | some existing =>
    -- The key is the id as it was given, not the one that was looked up.
    { state with pairedByDeviceId := assign state.pairedByDeviceId deviceId (patchDevice existing patch) }

/-- `removePairedDevice` and `clearDevicePairing`: the id of the device that was there. -/
def removePairedDevice (file : DevicePairingStateFile) (deviceId : Text) (now : Int) :
    Option Text × DevicePairingStateFile :=
  let state := loadState file now
  let normalized := normalizeDeviceId deviceId
  if normalized = [] ∨ (state.pairedByDeviceId.lookup normalized).isNone then (none, file)
  else (some normalized, { state with pairedByDeviceId := remove state.pairedByDeviceId normalized })

def getPairedDeviceFromState (state : DevicePairingStateFile) (deviceId : Text) : Option PairedDevice :=
  state.pairedByDeviceId.lookup (normalizeDeviceId deviceId)

def verifyPairingToken (provided expected : Text) : Bool :=
  if (trimChars provided).length = 0 ∨ (trimChars expected).length = 0 then false else provided = expected

/-- A time that is set and not zero. -/
def isSet (time : Option Int) : Bool := time.any (· ≠ 0)

/-- The device, with another token for a role, is put back under its own id. -/
def putToken (state : DevicePairingStateFile) (device : PairedDevice) (role : Text) (token : DeviceAuthToken) :
    DevicePairingStateFile :=
  let device := { device with tokens := some (assign (device.tokens.getD []) role token) }
  { state with pairedByDeviceId := assign state.pairedByDeviceId device.deviceId device }

def verifyDeviceToken (file : DevicePairingStateFile) (deviceId token : Text) (role : Text) (scopes : List Text)
    (now : Int) : Except String Unit × DevicePairingStateFile :=
  let state := loadState file now
  match getPairedDeviceFromState state deviceId with
  | none => (.error "device-not-paired", file)
  | some device =>
    match normalizeRole (some role) with
    | none => (.error "role-missing", file)
    | some role =>
      match (device.tokens.getD []).lookup role with
      | none => (.error "token-missing", file)
      | some entry =>
        if isSet entry.revokedAtMs then (.error "token-revoked", file)
        else if !verifyPairingToken token entry.token then (.error "token-mismatch", file)
        else
          let approvedScopes := resolveApprovedDeviceScopeBaseline device
          if !scopesWithinApprovedDeviceBaseline role entry.scopes approvedScopes then (.error "scope-mismatch", file)
          else
            let requestedScopes := normalizeDeviceAuthScopes (some scopes)
            if !roleScopesAllow role requestedScopes entry.scopes then (.error "scope-mismatch", file)
            else (.ok (), putToken state device role { entry with lastUsedAtMs := some now })

def buildDeviceAuthToken (role : Text) (scopes : List Text) (existing : Option DeviceAuthToken) (now : Int)
    (rotatedAtMs : Option Int) (newToken : Text) : DeviceAuthToken where
  token := newToken
  role := role
  scopes := scopes
  createdAtMs := (existing.map (·.createdAtMs)).getD now
  rotatedAtMs := rotatedAtMs
  revokedAtMs := none
  lastUsedAtMs := existing.bind (·.lastUsedAtMs)

structure DeviceTokenUpdateContext where
  device : PairedDevice
  role : Text
  existing : Option DeviceAuthToken

def resolveDeviceTokenUpdateContext (state : DevicePairingStateFile) (deviceId role : Text) :
    Option DeviceTokenUpdateContext :=
  match getPairedDeviceFromState state deviceId with
  | none => none
  | some device =>
    match normalizeRole (some role) with
    | none => none
    | some role => some ⟨device, role, (device.tokens.getD []).lookup role⟩

/-- The token that `ensureDeviceToken` answers with, and whether it was minted. -/
def ensureDeviceToken (file : DevicePairingStateFile) (deviceId role : Text) (scopes : List Text) (newToken : Text)
    (now : Int) : Option (DeviceAuthToken × Bool) × DevicePairingStateFile :=
  let state := loadState file now
  let requestedScopes := normalizeDeviceAuthScopes (some scopes)
  match resolveDeviceTokenUpdateContext state deviceId role with
  | none => (none, file)
  | some context =>
    let approvedScopes := resolveApprovedDeviceScopeBaseline context.device
    if !scopesWithinApprovedDeviceBaseline context.role requestedScopes approvedScopes then (none, file)
    else
      let usable := context.existing.filter fun existing =>
        !isSet existing.revokedAtMs &&
          (scopesWithinApprovedDeviceBaseline context.role existing.scopes approvedScopes &&
            roleScopesAllow context.role requestedScopes existing.scopes)
      match usable with
      | some existing => (some (existing, false), file)
      | none =>
        let next :=
          buildDeviceAuthToken context.role requestedScopes context.existing now (context.existing.map fun _ => now)
            newToken
        (some (next, true), putToken state context.device context.role next)

inductive RotateDeviceTokenDenyReason where
  | unknownDeviceOrRole
  | missingApprovedScopeBaseline
  | scopeOutsideApprovedBaseline

def rotateDeviceToken (file : DevicePairingStateFile) (deviceId role : Text) (scopes : Option (List Text))
    (newToken : Text) (now : Int) : Except RotateDeviceTokenDenyReason DeviceAuthToken × DevicePairingStateFile :=
  let state := loadState file now
  match resolveDeviceTokenUpdateContext state deviceId role with
  | none => (.error .unknownDeviceOrRole, file)
  | some context =>
    let requestedScopes :=
      normalizeDeviceAuthScopes (scopes.or <| (context.existing.map (·.scopes)).or context.device.scopes)
    match resolveApprovedDeviceScopeBaseline context.device with
    | none => (.error .missingApprovedScopeBaseline, file)
    | some approvedScopes =>
      if !scopesWithinApprovedDeviceBaseline context.role requestedScopes (some approvedScopes) then
        (.error .scopeOutsideApprovedBaseline, file)
      else
        let next := buildDeviceAuthToken context.role requestedScopes context.existing now (some now) newToken
        (.ok next, putToken state context.device context.role next)

def revokeDeviceToken (file : DevicePairingStateFile) (deviceId role : Text) (now : Int) :
    Option DeviceAuthToken × DevicePairingStateFile :=
  let state := loadState file now
  match state.pairedByDeviceId.lookup (normalizeDeviceId deviceId) with
  | none => (none, file)
  | some device =>
    match normalizeRole (some role) with
    | none => (none, file)
    | some role =>
      match (device.tokens.getD []).lookup role with
      | none => (none, file)
      | some token =>
        let entry := { token with revokedAtMs := some now }
        (some entry, putToken state device role entry)

-- ---
-- Steps
-- ---

/-- The store, and the tokens that were minted for a device by the calls that ensure or
rotate one, as long as the device is paired. -/
structure State where
  file : DevicePairingStateFile
  minted : List (Text × DeviceAuthToken)

inductive Label where
  | requestDevicePairing (req : Incoming) (requestId : Text) (now : Int)
  | approveDevicePairing (requestId : Text) (callerScopes : Option (List Text)) (newToken : Text → Text) (now : Int)
  | rejectDevicePairing (requestId : Text) (now : Int)
  | removePairedDevice (deviceId : Text) (now : Int)
  | updatePairedDeviceMetadata (deviceId : Text) (patch : MetadataPatch) (now : Int)
  | verifyDeviceToken (deviceId token role : Text) (scopes : List Text) (now : Int)
  | ensureDeviceToken (deviceId role : Text) (scopes : List Text) (newToken : Text) (now : Int)
  | rotateDeviceToken (deviceId role : Text) (scopes : Option (List Text)) (newToken : Text) (now : Int)
  | revokeDeviceToken (deviceId role : Text) (now : Int)

/-- The ids of new requests are random: none is that of a request in the store. -/
def step (s : State) : Label → Option State
  | .requestDevicePairing req requestId now =>
    if requestId ∈ s.file.pendingById.map Prod.fst then none
    else some { s with file := (requestDevicePairing s.file req requestId now).2 }
  | .approveDevicePairing requestId callerScopes newToken now =>
    some { s with file := (approveDevicePairing s.file requestId callerScopes newToken now).2 }
  | .rejectDevicePairing requestId now => some { s with file := (rejectDevicePairing s.file requestId now).2 }
  | .removePairedDevice deviceId now =>
    some
      { file := (removePairedDevice s.file deviceId now).2
        minted := s.minted.filter (·.1 ≠ normalizeDeviceId deviceId) }
  | .updatePairedDeviceMetadata deviceId patch now =>
    some { s with file := updatePairedDeviceMetadata s.file deviceId patch now }
  | .verifyDeviceToken deviceId token role scopes now =>
    some { s with file := (verifyDeviceToken s.file deviceId token role scopes now).2 }
  | .ensureDeviceToken deviceId role scopes newToken now =>
    let ensured := ensureDeviceToken s.file deviceId role scopes newToken now
    some
      { file := ensured.2
        minted := s.minted ++ ((ensured.1.filter (·.2)).map fun answer => (normalizeDeviceId deviceId, answer.1)).toList }
  | .rotateDeviceToken deviceId role scopes newToken now =>
    let rotated := rotateDeviceToken s.file deviceId role scopes newToken now
    some
      { file := rotated.2
        minted := s.minted ++ (rotated.1.toOption.map fun entry => (normalizeDeviceId deviceId, entry)).toList }
  | .revokeDeviceToken deviceId role now => some { s with file := (revokeDeviceToken s.file deviceId role now).2 }

/-- A paired device is stored under its own id, without white space at its ends. -/
def Stored (paired : List (Text × PairedDevice)) : Prop :=
  ∀ member ∈ paired, member.1 = member.2.deviceId ∧ normalizeDeviceId member.1 = member.1

instance (paired : List (Text × PairedDevice)) : Decidable (Stored paired) := by
  unfold Stored
  infer_instance

/-- Nothing is pending; devices may have been paired before, also without `approvedScopes`. -/
def Initial (s : State) : Prop :=
  s.file.pendingById = [] ∧ (s.file.pairedByDeviceId.map Prod.fst).Nodup ∧ Stored s.file.pairedByDeviceId ∧
    s.minted = []

def system : Transition.System State Label where
  init := Initial
  step := step

end OpenClaw.DevicePairing
