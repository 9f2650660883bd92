import OpenClaw.Infra.DevicePairing.Pending

/-!
# The approved baseline

The scopes a device was approved for bound its tokens. They grow by approvals, as long
as the metadata of a device is updated under its own id and names no scope of its own
for a device whose record has no `approvedScopes`: there the scopes of the record are
the baseline, and an update merges those it names into them.
-/

namespace OpenClaw.DevicePairing

open Js OrderedSet Members Transition

variable {file file' : DevicePairingStateFile} {paired : List (Text × PairedDevice)} {s s' : State}
  {device device' : PairedDevice} {deviceId key role scope : Text} {token : DeviceAuthToken} {now : Int}

-- ---
-- Baselines
-- ---

/-- The scopes that the calls for tokens hold a device to. -/
def effectiveBaseline (file : DevicePairingStateFile) (deviceId : Text) : List Text :=
  ((getPairedDeviceFromState file deviceId).bind resolveApprovedDeviceScopeBaseline).getD []

/-- The token is within the baseline of the device it was minted for. -/
def MintedWithin (file : DevicePairingStateFile) (deviceId : Text) (token : DeviceAuthToken) : Prop :=
  ∃ device, file.pairedByDeviceId.lookup deviceId = some device ∧
    scopesWithinApprovedDeviceBaseline token.role token.scopes (resolveApprovedDeviceScopeBaseline device)

theorem resolveApprovedDeviceScopeBaseline_eq (device : PairedDevice) :
    resolveApprovedDeviceScopeBaseline device =
      (device.approvedScopes.or device.scopes).map fun baseline => normalizeDeviceAuthScopes (some baseline) := by
  unfold resolveApprovedDeviceScopeBaseline
  cases device.approvedScopes.or device.scopes <;> rfl

/-- The baseline of a record is that of its scopes, none where it has none. -/
theorem baseline_getD (device : PairedDevice) :
    (resolveApprovedDeviceScopeBaseline device).getD [] =
      normalizeDeviceAuthScopes (device.approvedScopes.or device.scopes) := by
  rw [resolveApprovedDeviceScopeBaseline_eq]
  cases device.approvedScopes.or device.scopes <;> rfl

/-- What is within a baseline is within one that has more scopes. -/
structure BaselineGrows (device device' : PairedDevice) : Prop where
  isSome : (resolveApprovedDeviceScopeBaseline device).isSome → (resolveApprovedDeviceScopeBaseline device').isSome
  scopes : ∀ scope ∈ (resolveApprovedDeviceScopeBaseline device).getD [],
    scope ∈ (resolveApprovedDeviceScopeBaseline device').getD []

theorem BaselineGrows.of_eq (h : resolveApprovedDeviceScopeBaseline device' = resolveApprovedDeviceScopeBaseline device) :
    BaselineGrows device device' :=
  ⟨fun hsome => h ▸ hsome, fun _ hscope => h ▸ hscope⟩

theorem trimmedSet_mono {scopes scopes' : List Text} (h : ∀ scope ∈ scopes, scope ∈ scopes') :
    ∀ scope ∈ trimmedSet scopes, scope ∈ trimmedSet scopes' := by
  intro scope hscope
  obtain ⟨hne, text, htext, heq⟩ := mem_trimmedSet.1 hscope
  exact mem_trimmedSet.2 ⟨hne, text, h text htext, heq⟩

theorem BaselineGrows.within (h : BaselineGrows device device') {scopes : List Text}
    (hwithin : scopesWithinApprovedDeviceBaseline role scopes (resolveApprovedDeviceScopeBaseline device)) :
    scopesWithinApprovedDeviceBaseline role scopes (resolveApprovedDeviceScopeBaseline device') := by
  cases hbaseline : resolveApprovedDeviceScopeBaseline device with
  | none => simp [hbaseline, scopesWithinApprovedDeviceBaseline] at hwithin
  | some granted =>
    obtain ⟨granted', hgranted'⟩ := Option.isSome_iff_exists.1 (h.isSome (by rw [hbaseline]; rfl))
    have hsub := h.scopes
    rw [hbaseline, hgranted'] at hsub
    rw [hbaseline] at hwithin
    rw [hgranted']
    refine roleScopesAllow_iff.2 fun scope hscope => ?_
    exact (roleScopesAllow_iff.1 hwithin scope hscope).mono (trimmedSet_mono hsub)

-- ---
-- Records put into the store
-- ---

/-- Records are stored under their own ids, each under one. -/
structure PairedSound (paired : List (Text × PairedDevice)) : Prop where
  nodup : (paired.map Prod.fst).Nodup
  stored : Stored paired

theorem PairedSound.assign (h : PairedSound paired) (hkey : key = device.deviceId)
    (hnormal : normalizeDeviceId key = key) : PairedSound (assign paired key device) := by
  refine ⟨nodup_assign h.nodup key device, fun member hmember => ?_⟩
  rcases mem_assign hmember with hmember | rfl
  · exact h.stored member hmember
  · exact ⟨hkey, hnormal⟩

theorem PairedSound.remove (h : PairedSound paired) (key : Text) : PairedSound (remove paired key) :=
  ⟨nodup_remove h.nodup key, fun member hmember => h.stored member (List.mem_of_mem_filter hmember)⟩

theorem PairedSound.of_lookup (h : PairedSound paired) (hlookup : paired.lookup key = some device) :
    device.deviceId = key ∧ normalizeDeviceId key = key := by
  obtain ⟨hkey, hnormal⟩ := h.stored _ (mem_of_lookup hlookup)
  exact ⟨hkey.symm, hnormal⟩

/-- How a step changes the paired devices, apart from taking one away: one is put under
its id, in the place of one, if any, whose baseline its own has grown from. -/
inductive Changed (paired : List (Text × PairedDevice)) : List (Text × PairedDevice) → Prop
  | same : Changed paired paired
  | put (key : Text) (device : PairedDevice) (hkey : key = device.deviceId) (hnormal : normalizeDeviceId key = key)
      (hgrows : ∀ existing, paired.lookup key = some existing → BaselineGrows existing device) :
      Changed paired (assign paired key device)

theorem Changed.sound (h : Changed paired paired') (hsound : PairedSound paired) : PairedSound paired' := by
  cases h with
  | same => exact hsound
  | put key device hkey hnormal => exact hsound.assign hkey hnormal

theorem Changed.lookup (h : Changed paired paired') (hlookup : paired.lookup key = some device) :
    ∃ device', paired'.lookup key = some device' ∧ BaselineGrows device device' := by
  cases h with
  | same => exact ⟨device, hlookup, .of_eq rfl⟩
  | put other device' hkey hnormal hgrows =>
    rw [lookup_assign]
    by_cases heq : key = other
    · rw [if_pos heq]
      exact ⟨device', rfl, hgrows device (heq ▸ hlookup)⟩
    · rw [if_neg heq]
      exact ⟨device, hlookup, .of_eq rfl⟩

theorem MintedWithin.changed (h : MintedWithin file deviceId token)
    (hchanged : Changed file.pairedByDeviceId file'.pairedByDeviceId) : MintedWithin file' deviceId token := by
  obtain ⟨device, hlookup, hwithin⟩ := h
  obtain ⟨device', hlookup', hgrows⟩ := hchanged.lookup hlookup
  exact ⟨device', hlookup', hgrows.within hwithin⟩

/-- The effective baselines of all devices stay as they are. -/
def SameBaselines (file file' : DevicePairingStateFile) : Prop :=
  ∀ deviceId, effectiveBaseline file' deviceId = effectiveBaseline file deviceId

/-- A token for a role is put into a device's record. -/
theorem changed_putToken {state : DevicePairingStateFile} (h : PairedSound state.pairedByDeviceId)
    (hdevice : getPairedDeviceFromState state deviceId = some device) (role : Text) (token : DeviceAuthToken) :
    Changed state.pairedByDeviceId (putToken state device role token).pairedByDeviceId ∧
      SameBaselines state (putToken state device role token) := by
  obtain ⟨hkey, hnormal⟩ := h.of_lookup hdevice
  constructor
  · refine .put _ _ rfl (by rw [hkey]; exact hnormal) fun existing hexisting => ?_
    have hsame : existing = device := by
      have hmine : state.pairedByDeviceId.lookup device.deviceId = some device := by rw [hkey]; exact hdevice
      exact Option.some.inj (hexisting.symm.trans hmine)
    rw [hsame]
    exact .of_eq rfl
  · intro other
    unfold effectiveBaseline getPairedDeviceFromState putToken
    dsimp only
    rw [lookup_assign]
    split
    case isTrue heq =>
      rw [heq, hkey]
      have hmine : state.pairedByDeviceId.lookup (normalizeDeviceId deviceId) = some device := hdevice
      rw [hmine]
      rfl
    case isFalse => rfl

-- ---
-- The operations on tokens
-- ---

/-- The paired devices change at most by a token of one of them. -/
def TokensOnly (file file' : DevicePairingStateFile) : Prop :=
  Changed file.pairedByDeviceId file'.pairedByDeviceId ∧ SameBaselines file file'

theorem TokensOnly.of_paired_eq (h : file'.pairedByDeviceId = file.pairedByDeviceId) : TokensOnly file file' := by
  refine ⟨h ▸ .same, fun deviceId => ?_⟩
  rw [effectiveBaseline, getPairedDeviceFromState, h, effectiveBaseline, getPairedDeviceFromState]

theorem tokensOnly_putToken (h : PairedSound file.pairedByDeviceId)
    (hdevice : getPairedDeviceFromState (loadState file now) deviceId = some device) (role : Text)
    (token : DeviceAuthToken) : TokensOnly file (putToken (loadState file now) device role token) := by
  have hloaded : PairedSound (loadState file now).pairedByDeviceId := h
  exact changed_putToken hloaded hdevice role token

theorem tokensOnly_verifyDeviceToken (h : PairedSound file.pairedByDeviceId) (deviceId token role : Text)
    (scopes : List Text) (now : Int) : TokensOnly file (verifyDeviceToken file deviceId token role scopes now).2 := by
  unfold verifyDeviceToken
  dsimp only
  cases hdevice : getPairedDeviceFromState (loadState file now) deviceId with
  | none => exact .of_paired_eq rfl
  | some device =>
    dsimp only
    repeat' split
    all_goals first | exact .of_paired_eq rfl | exact tokensOnly_putToken h hdevice _ _

theorem tokensOnly_revokeDeviceToken (h : PairedSound file.pairedByDeviceId) (deviceId role : Text) (now : Int) :
    TokensOnly file (revokeDeviceToken file deviceId role now).2 := by
  unfold revokeDeviceToken
  dsimp only
  cases hdevice : (loadState file now).pairedByDeviceId.lookup (normalizeDeviceId deviceId) with
  | none => exact .of_paired_eq rfl
  | some device =>
    dsimp only
    repeat' split
    all_goals first | exact .of_paired_eq rfl | exact tokensOnly_putToken h hdevice _ _

theorem resolveDeviceTokenUpdateContext_device {state : DevicePairingStateFile} {context : DeviceTokenUpdateContext}
    (h : resolveDeviceTokenUpdateContext state deviceId role = some context) :
    getPairedDeviceFromState state deviceId = some context.device := by
  unfold resolveDeviceTokenUpdateContext at h
  split at h
  · cases h
  case h_2 device hdevice =>
    split at h
    · cases h
    · cases h
      exact hdevice

theorem tokensOnly_ensureDeviceToken (h : PairedSound file.pairedByDeviceId) (deviceId role : Text)
    (scopes : List Text) (newToken : Text) (now : Int) :
    TokensOnly file (ensureDeviceToken file deviceId role scopes newToken now).2 ∧
      ∀ token, (ensureDeviceToken file deviceId role scopes newToken now).1 = some (token, true) →
        MintedWithin file (normalizeDeviceId deviceId) token := by
  unfold ensureDeviceToken
  dsimp only
  split
  · exact ⟨.of_paired_eq rfl, fun token htoken => nomatch htoken⟩
  case h_2 context hcontext =>
    have hdevice := resolveDeviceTokenUpdateContext_device hcontext
    split
    · exact ⟨.of_paired_eq rfl, fun token htoken => nomatch htoken⟩
    case isFalse hwithin =>
      split
      · refine ⟨.of_paired_eq rfl, fun token htoken => ?_⟩
        simp at htoken
      · refine ⟨tokensOnly_putToken h hdevice _ _, fun token htoken => ?_⟩
        cases htoken
        exact ⟨context.device, hdevice, by simpa [buildDeviceAuthToken] using hwithin⟩

theorem tokensOnly_rotateDeviceToken (h : PairedSound file.pairedByDeviceId) (deviceId role : Text)
    (scopes : Option (List Text)) (newToken : Text) (now : Int) :
    TokensOnly file (rotateDeviceToken file deviceId role scopes newToken now).2 ∧
      ∀ token, (rotateDeviceToken file deviceId role scopes newToken now).1 = .ok token →
        MintedWithin file (normalizeDeviceId deviceId) token := by
  unfold rotateDeviceToken
  dsimp only
  split
  · exact ⟨.of_paired_eq rfl, fun token htoken => nomatch htoken⟩
  case h_2 context hcontext =>
    have hdevice := resolveDeviceTokenUpdateContext_device hcontext
    split
    · exact ⟨.of_paired_eq rfl, fun token htoken => nomatch htoken⟩
    case h_2 approvedScopes hbaseline =>
      split
      · exact ⟨.of_paired_eq rfl, fun token htoken => nomatch htoken⟩
      case isFalse hwithin =>
        refine ⟨tokensOnly_putToken h hdevice _ _, fun token htoken => ?_⟩
        cases htoken
        exact ⟨context.device, hdevice, by rw [hbaseline]; simpa [buildDeviceAuthToken] using hwithin⟩

-- ---
-- Approvals and metadata
-- ---

/-- A device whose scopes are merged with others keeps its baseline. -/
theorem BaselineGrows.of_merge (scopes : Option (List Text))
    (h : device'.approvedScopes.or device'.scopes = mergeScopes [device.approvedScopes.or device.scopes, scopes]) :
    BaselineGrows device device' := by
  constructor
  case isSome =>
    rw [resolveApprovedDeviceScopeBaseline_eq, resolveApprovedDeviceScopeBaseline_eq, Option.isSome_map, Option.isSome_map, h]
    intro hsome
    rw [Option.isSome_iff_ne_none]
    intro hnone
    rw [mergeScopes_eq_none hnone _ List.mem_cons_self] at hsome
    cases hsome
  case scopes =>
    intro scope hscope
    rw [baseline_getD] at hscope ⊢
    rw [h, mem_normalize_mergeScopes]
    exact ⟨_, List.mem_cons_self, hscope⟩

theorem approvedDevice_baseline (pending : DevicePairingPendingRequest) (existing : Option PairedDevice)
    (newToken : Text → Text) (now : Int) :
    (approvedDevice pending existing newToken now).approvedScopes.or (approvedDevice pending existing newToken now).scopes =
      mergeScopes [(existing.bind (·.approvedScopes)).or (existing.bind (·.scopes)), pending.scopes] := by
  rw [approvedDevice]
  exact Option.or_self

theorem effectiveBaseline_assign (file : DevicePairingStateFile) (device : PairedDevice) (deviceId key : Text)
    (pendingById : List (Text × DevicePairingPendingRequest)) :
    effectiveBaseline ⟨pendingById, assign file.pairedByDeviceId key device⟩ deviceId =
      if normalizeDeviceId deviceId = key then normalizeDeviceAuthScopes (device.approvedScopes.or device.scopes)
      else effectiveBaseline file deviceId := by
  unfold effectiveBaseline getPairedDeviceFromState
  dsimp only
  rw [lookup_assign]
  split
  · rw [Option.bind_some, baseline_getD]
  · rfl

theorem effectiveBaseline_eq (file : DevicePairingStateFile) (deviceId : Text) :
    effectiveBaseline file deviceId =
      normalizeDeviceAuthScopes (((file.pairedByDeviceId.lookup (normalizeDeviceId deviceId)).bind (·.approvedScopes)).or
        ((file.pairedByDeviceId.lookup (normalizeDeviceId deviceId)).bind (·.scopes))) := by
  unfold effectiveBaseline getPairedDeviceFromState
  cases file.pairedByDeviceId.lookup (normalizeDeviceId deviceId) with
  | none => rfl
  | some device => rw [Option.bind_some, baseline_getD]; rfl

/-- The request that is approved, and names the scope. -/
def ApprovedNaming (file : DevicePairingStateFile) (label : Label) (deviceId scope : Text) : Prop :=
  ∃ requestId callerScopes newToken now pending, label = .approveDevicePairing requestId callerScopes newToken now ∧
    (loadState file now).pendingById.lookup requestId = some pending ∧ forbiddenScope pending callerScopes = none ∧
    pending.deviceId = normalizeDeviceId deviceId ∧ scope ∈ resolveRequestedScopes pending.scopes

theorem changed_approveDevicePairing (hpending : PendingSound file.pendingById)
    (requestId : Text) (callerScopes : Option (List Text)) (newToken : Text → Text) (now : Int) :
    Changed file.pairedByDeviceId (approveDevicePairing file requestId callerScopes newToken now).2.pairedByDeviceId ∧
      ∀ deviceId scope,
        scope ∈ effectiveBaseline (approveDevicePairing file requestId callerScopes newToken now).2 deviceId →
          scope ∈ effectiveBaseline file deviceId ∨
            ApprovedNaming file (.approveDevicePairing requestId callerScopes newToken now) deviceId scope := by
  unfold approveDevicePairing
  dsimp only
  split
  · exact ⟨.same, fun _ _ => .inl⟩
  case h_2 pending hlookup =>
    split
    · exact ⟨.same, fun _ _ => .inl⟩
    case h_2 hforbidden =>
      have hnormal : normalizeDeviceId pending.deviceId = pending.deviceId :=
        hpending.normal _ ((loadState_sublist file now).subset (mem_of_lookup hlookup))
      constructor
      · refine .put _ _ rfl hnormal fun existing hexisting => .of_merge pending.scopes ?_
        rw [approvedDevice_baseline]
        have hsame : (loadState file now).pairedByDeviceId.lookup pending.deviceId = some existing := hexisting
        rw [hsame]
        rfl
      · intro deviceId scope hscope
        rw [effectiveBaseline_assign] at hscope
        split at hscope
        case isTrue hid =>
          rw [approvedDevice_baseline, mem_normalize_mergeScopes] at hscope
          obtain ⟨item, hitem, hscope⟩ := hscope
          rcases List.mem_cons.1 hitem with rfl | hitem
          · refine .inl ?_
            have hid : normalizeDeviceId deviceId = pending.deviceId := hid
            rw [effectiveBaseline_eq, hid]
            exact hscope
          · rw [List.mem_singleton.1 hitem] at hscope
            exact .inr ⟨requestId, callerScopes, newToken, now, pending, rfl, hlookup, hforbidden, hid.symm, hscope⟩
        case isFalse => exact .inl hscope

/-- The metadata of a paired device is updated under its own id, and a device without
`approvedScopes` gets no scope that is not in its baseline. -/
def Honest (s : State) : Label → Prop
  | .updatePairedDeviceMetadata deviceId patch _ =>
    ∀ existing ∈ s.file.pairedByDeviceId.lookup (normalizeDeviceId deviceId),
      normalizeDeviceId deviceId = deviceId ∧
        (existing.approvedScopes.isSome ∨
          ∀ scope ∈ normalizeDeviceAuthScopes patch.scopes, scope ∈ effectiveBaseline s.file deviceId)
  | _ => True

instance (s : State) (label : Label) : Decidable (Honest s label) := by
  cases label <;> unfold Honest <;> infer_instance

theorem changed_updatePairedDeviceMetadata (hsound : PairedSound file.pairedByDeviceId) (patch : MetadataPatch) (now : Int)
    (hhonest : ∀ existing ∈ file.pairedByDeviceId.lookup (normalizeDeviceId deviceId),
      normalizeDeviceId deviceId = deviceId ∧ (existing.approvedScopes.isSome ∨
        ∀ scope ∈ normalizeDeviceAuthScopes patch.scopes, scope ∈ effectiveBaseline file deviceId)) :
    Changed file.pairedByDeviceId (updatePairedDeviceMetadata file deviceId patch now).pairedByDeviceId ∧
      ∀ other scope, scope ∈ effectiveBaseline (updatePairedDeviceMetadata file deviceId patch now) other →
        scope ∈ effectiveBaseline file other := by
  unfold updatePairedDeviceMetadata
  dsimp only
  split
  · exact ⟨.same, fun _ _ => id⟩
  case h_2 existing hexisting =>
    obtain ⟨hid, hscopes⟩ := hhonest existing hexisting
    have hlookup : file.pairedByDeviceId.lookup deviceId = some existing := hid ▸ hexisting
    obtain ⟨hkey, -⟩ := hsound.of_lookup hlookup
    -- A record with `approvedScopes` keeps them; another has its scopes merged.
    have hmerge : (patchDevice existing patch).approvedScopes.or (patchDevice existing patch).scopes =
        existing.approvedScopes.or (mergeScopes [existing.scopes, patch.scopes]) := rfl
    constructor
    · refine .put _ _ hkey.symm hid fun other hother => ?_
      obtain rfl : other = existing := Option.some.inj (hother.symm.trans hlookup)
      cases happroved : other.approvedScopes with
      | some approvedScopes =>
        refine .of_eq ?_
        rw [resolveApprovedDeviceScopeBaseline_eq, resolveApprovedDeviceScopeBaseline_eq, hmerge, happroved]
        rfl
      | none =>
        refine .of_merge patch.scopes ?_
        rw [hmerge, happroved]
        rfl
    · intro other scope hscope
      rw [effectiveBaseline_assign] at hscope
      split at hscope
      case isTrue heq =>
        rw [hmerge] at hscope
        have hmine : normalizeDeviceAuthScopes (existing.approvedScopes.or existing.scopes) = effectiveBaseline file other := by
          rw [effectiveBaseline_eq, heq, hlookup]
          rfl
        have hsame : effectiveBaseline file deviceId = effectiveBaseline file other := by
          rw [effectiveBaseline_eq, effectiveBaseline_eq, heq, hid]
        rw [← hmine]
        cases happroved : existing.approvedScopes with
        | some approvedScopes =>
          rw [happroved] at hscope
          exact hscope
        | none =>
          rw [happroved] at hscope hscopes hmine
          rw [Option.none_or, mem_normalize_mergeScopes] at hscope
          obtain ⟨item, hitem, hscope⟩ := hscope
          rcases List.mem_cons.1 hitem with rfl | hitem
          · exact hscope
          · rw [List.mem_singleton.1 hitem] at hscope
            rw [hmine, ← hsame]
            exact hscopes.resolve_left Bool.false_ne_true scope hscope
      case isFalse => exact hscope

-- ---
-- Every step
-- ---

structure BaselineSound (s : State) : Prop where
  paired : PairedSound s.file.pairedByDeviceId
  pending : PendingSound s.file.pendingById
  minted : ∀ entry ∈ s.minted, MintedWithin s.file entry.1 entry.2

/-- A baseline grows by approvals only. -/
def GrowsByApproval (s s' : State) (label : Label) : Prop :=
  ∀ deviceId scope, scope ∈ effectiveBaseline s'.file deviceId →
    scope ∈ effectiveBaseline s.file deviceId ∨ ApprovedNaming s.file label deviceId scope

theorem BaselineSound.changed (h : BaselineSound s)
    (hchanged : Changed s.file.pairedByDeviceId file'.pairedByDeviceId)
    (hpending : PendingSound file'.pendingById)
    {minted : List (Text × DeviceAuthToken)} (hminted : ∀ entry ∈ minted, MintedWithin s.file entry.1 entry.2) :
    BaselineSound ⟨file', minted⟩ where
  paired := hchanged.sound h.paired
  pending := hpending
  minted entry hentry := (hminted entry hentry).changed hchanged

theorem GrowsByApproval.of_same {minted : List (Text × DeviceAuthToken)} (h : SameBaselines s.file file') (label : Label) :
    GrowsByApproval s ⟨file', minted⟩ label := by
  intro deviceId scope hscope
  exact .inl (h deviceId ▸ hscope)

theorem requestDevicePairing_paired (file : DevicePairingStateFile) (req : Incoming) (requestId : Text) (now : Int) :
    (requestDevicePairing file req requestId now).2.pairedByDeviceId = file.pairedByDeviceId := by
  rcases requestDevicePairing_cases file req requestId now with
    ⟨heq, -⟩ | ⟨single, isRepair, -, -, heq⟩ | ⟨existing, request, -, -, heq⟩ <;> rw [heq] <;> rfl

theorem rejectDevicePairing_paired (file : DevicePairingStateFile) (requestId : Text) (now : Int) :
    (rejectDevicePairing file requestId now).2.pairedByDeviceId = file.pairedByDeviceId := by
  unfold rejectDevicePairing
  dsimp only
  split <;> rfl

theorem sound_removePairedDevice (h : BaselineSound s) (deviceId : Text) (now : Int)
    (hpending : PendingSound (removePairedDevice s.file deviceId now).2.pendingById) :
    BaselineSound ⟨(removePairedDevice s.file deviceId now).2, s.minted.filter (·.1 ≠ normalizeDeviceId deviceId)⟩ ∧
      ∀ other scope, scope ∈ effectiveBaseline (removePairedDevice s.file deviceId now).2 other →
        scope ∈ effectiveBaseline s.file other := by
  have hfilter : ∀ entry ∈ s.minted.filter (·.1 ≠ normalizeDeviceId deviceId),
      MintedWithin s.file entry.1 entry.2 ∧ entry.1 ≠ normalizeDeviceId deviceId := by
    intro entry hentry
    obtain ⟨hentry, hne⟩ := List.mem_filter.1 hentry
    exact ⟨h.minted entry hentry, of_decide_eq_true hne⟩
  unfold removePairedDevice at hpending ⊢
  dsimp only at hpending ⊢
  split
  · exact ⟨⟨h.paired, h.pending, fun entry hentry => (hfilter entry hentry).1⟩, fun _ _ => id⟩
  case isFalse hpaired =>
    rw [if_neg hpaired] at hpending
    refine ⟨⟨h.paired.remove _, hpending, fun entry hentry => ?_⟩, fun other scope hscope => ?_⟩
    · obtain ⟨⟨device, hlookup, hwithin⟩, hne⟩ := hfilter entry hentry
      refine ⟨device, ?_, hwithin⟩
      rw [lookup_remove, if_neg hne]
      exact hlookup
    · rw [effectiveBaseline, getPairedDeviceFromState, lookup_remove] at hscope
      split at hscope
      · exact absurd hscope List.not_mem_nil
      · exact hscope

theorem baseline_step (h : BaselineSound s) {label : Label} (hhonest : Honest s label) (hstep : step s label = some s') :
    BaselineSound s' ∧ GrowsByApproval s s' label := by
  have hpending := (step_pendingSound h.pending hstep).1
  cases label with
  | requestDevicePairing req requestId now =>
    simp only [step, Option.ite_none_left_eq_some] at hstep
    obtain ⟨-, heq⟩ := hstep
    cases heq
    have htokens := TokensOnly.of_paired_eq (requestDevicePairing_paired s.file req requestId now)
    exact ⟨h.changed htokens.1 hpending h.minted, .of_same htokens.2 _⟩
  | approveDevicePairing requestId callerScopes newToken now =>
    cases hstep
    obtain ⟨hchanged, hgrows⟩ := changed_approveDevicePairing h.pending requestId callerScopes newToken now
    exact ⟨h.changed hchanged hpending h.minted, hgrows⟩
  | rejectDevicePairing requestId now =>
    cases hstep
    have htokens := TokensOnly.of_paired_eq (rejectDevicePairing_paired s.file requestId now)
    exact ⟨h.changed htokens.1 hpending h.minted, .of_same htokens.2 _⟩
  | removePairedDevice deviceId now =>
    cases hstep
    obtain ⟨hsound, hless⟩ := sound_removePairedDevice h deviceId now hpending
    exact ⟨hsound, fun other scope hscope => .inl (hless other scope hscope)⟩
  | updatePairedDeviceMetadata deviceId patch now =>
    cases hstep
    obtain ⟨hchanged, hless⟩ := changed_updatePairedDeviceMetadata h.paired patch now hhonest
    exact ⟨h.changed hchanged hpending h.minted, fun other scope hscope => .inl (hless other scope hscope)⟩
  | verifyDeviceToken deviceId token role scopes now =>
    cases hstep
    have htokens := tokensOnly_verifyDeviceToken h.paired deviceId token role scopes now
    exact ⟨h.changed htokens.1 hpending h.minted, .of_same htokens.2 _⟩
  | ensureDeviceToken deviceId role scopes newToken now =>
    cases hstep
    obtain ⟨htokens, hminted⟩ := tokensOnly_ensureDeviceToken h.paired deviceId role scopes newToken now
    refine ⟨h.changed htokens.1 hpending (List.forall_mem_append.2 ⟨h.minted, ?_⟩), .of_same htokens.2 _⟩
    intro entry hentry
    obtain ⟨answer, hanswer, rfl⟩ := Option.map_eq_some_iff.1 (Option.mem_toList.1 hentry)
    obtain ⟨hanswer, hnew⟩ := Option.filter_eq_some_iff.1 hanswer
    exact hminted answer.1 (by rw [hanswer, ← hnew])
  | rotateDeviceToken deviceId role scopes newToken now =>
    cases hstep
    obtain ⟨htokens, hminted⟩ := tokensOnly_rotateDeviceToken h.paired deviceId role scopes newToken now
    refine ⟨h.changed htokens.1 hpending (List.forall_mem_append.2 ⟨h.minted, ?_⟩), .of_same htokens.2 _⟩
    intro entry hentry
    obtain ⟨token, htoken, rfl⟩ := Option.map_eq_some_iff.1 (Option.mem_toList.1 hentry)
    refine hminted token ?_
    generalize (rotateDeviceToken s.file deviceId role scopes newToken now).1 = rotated at htoken
    cases rotated with
    | error reason => cases htoken
    | ok entry => exact congrArg Except.ok (Option.some.inj htoken)
  | revokeDeviceToken deviceId role now =>
    cases hstep
    have htokens := tokensOnly_revokeDeviceToken h.paired deviceId role now
    exact ⟨h.changed htokens.1 hpending h.minted, .of_same htokens.2 _⟩

/-- Every device is stored under its own id, every token minted for one is within its
baseline, and every step lets a baseline grow by approvals only. -/
theorem approvedBaseline_kept (h : system.ReachableBy Honest s) :
    Stored s.file.pairedByDeviceId ∧
      (∀ entry ∈ s.minted, MintedWithin s.file entry.1 entry.2) ∧
      ∀ label s', Honest s label → step s label = some s' → GrowsByApproval s s' label := by
  have hsound : BaselineSound s := by
    refine h.invariant (I := BaselineSound) ?_ fun s label s' hsound hhonest hstep =>
      (baseline_step hsound hhonest hstep).1
    rintro s ⟨hpending, hnodup, hstored, hminted⟩
    refine ⟨⟨hnodup, hstored⟩, ?_, ?_⟩
    · rw [hpending]
      constructor <;> simp
    · rw [hminted]
      exact fun _ hmem => absurd hmem List.not_mem_nil
  exact ⟨hsound.paired.stored, hsound.minted, fun label s' hhonest hstep => (baseline_step hsound hhonest hstep).2⟩

section Samples

private def legacyDevice : PairedDevice where
  deviceId := "device".toList
  publicKey := "key".toList
  metadata := ⟨none, none, none, none, none, none⟩
  role := some OPERATOR_ROLE
  roles := none
  scopes := some [OPERATOR_READ_SCOPE]
  approvedScopes := none
  tokens := none
  createdAtMs := 0
  approvedAtMs := 0

private def scopesPatch (scopes : List Text) : MetadataPatch where
  publicKey := none
  displayName := none
  platform := none
  deviceFamily := none
  clientId := none
  clientMode := none
  remoteIp := none
  role := none
  scopes := some scopes
  tokens := none

private def legacyState : State := ⟨⟨[], [("device".toList, legacyDevice)]⟩, []⟩

private theorem initial_legacyState : Initial legacyState := by
  refine ⟨rfl, List.nodup_singleton _, List.forall_mem_singleton.2 ⟨rfl, by decide⟩, rfl⟩

/-- An operator's token is minted, and the device's metadata is updated. -/
theorem approvedBaseline_kept_sample :
    ∃ s, system.runBy Honest legacyState
        [.ensureDeviceToken "device".toList OPERATOR_ROLE [OPERATOR_READ_SCOPE] "token".toList 1,
          .updatePairedDeviceMetadata "device".toList (scopesPatch [OPERATOR_READ_SCOPE]) 2] = some s ∧
      Stored s.file.pairedByDeviceId ∧ ∀ entry ∈ s.minted, MintedWithin s.file entry.1 entry.2 := by
  have hrun : (system.runBy Honest legacyState
      [.ensureDeviceToken "device".toList OPERATOR_ROLE [OPERATOR_READ_SCOPE] "token".toList 1,
        .updatePairedDeviceMetadata "device".toList (scopesPatch [OPERATOR_READ_SCOPE]) 2]).isSome := by decide
  obtain ⟨s, hs⟩ := Option.isSome_iff_exists.1 hrun
  have hkept := approvedBaseline_kept (.runBy (.init initial_legacyState) hs)
  exact ⟨s, hs, hkept.1, hkept.2.1⟩

/-- An update of metadata makes an administrator of a device without `approvedScopes`,
and stores one under an id with white space. -/
theorem not_approvedBaseline_kept :
    (∃ s label s', system.Reachable s ∧ step s label = some s' ∧ ¬ GrowsByApproval s s' label) ∧
      ∃ s, system.Reachable s ∧ ¬ Stored s.file.pairedByDeviceId := by
  have hreachable : system.Reachable legacyState := .init initial_legacyState
  constructor
  · refine ⟨legacyState, .updatePairedDeviceMetadata "device".toList (scopesPatch [OPERATOR_ADMIN_SCOPE]) 1, _,
      hreachable, rfl, fun hgrows => ?_⟩
    rcases hgrows "device".toList OPERATOR_ADMIN_SCOPE (by decide) with hold | ⟨_, _, _, _, _, hlabel, _⟩
    · exact absurd hold (by decide)
    · cases hlabel
  · refine ⟨_, .step (a := .updatePairedDeviceMetadata " device".toList (scopesPatch []) 1) hreachable rfl, ?_⟩
    decide

end Samples

end OpenClaw.DevicePairing
