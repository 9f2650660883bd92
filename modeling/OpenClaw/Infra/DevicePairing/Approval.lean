import OpenClaw.Infra.DevicePairing

/-!
# The tokens an approval mints

An approval is refused where the request names operator scopes that the caller does not
have. A request that names none gets the operator scopes the device had before, and
nobody asks whether the caller has those.
-/

namespace OpenClaw.DevicePairing

open Js OrderedSet Members

variable {file file' : DevicePairingStateFile} {pending : DevicePairingPendingRequest} {existing : Option PairedDevice}
  {callerScopes : Option (List Text)} {newToken : Text → Text} {now : Int} {role scope requestId : Text}
  {device : PairedDevice}

def requestedRoles (pending : DevicePairingPendingRequest) : List Text :=
  (mergeRoles [pending.roles, oneRole pending.role]).getD []

/-- The caller's scopes allow the scope; a caller without scopes allows none. -/
def callerAllows (callerScopes : Option (List Text)) (scope : Text) : Bool :=
  roleScopesAllow OPERATOR_ROLE [scope] (callerScopes.getD [])

/-- The scopes a device has as an operator: those of its token, else those it was approved for. -/
def inheritedScopes (existing : Option PairedDevice) : Option (List Text) :=
  (((existing.bind (·.tokens)).getD []).lookup OPERATOR_ROLE |>.map (·.scopes)).or
    ((existing.bind (·.approvedScopes)).or (existing.bind (·.scopes)))

/-- Each operator scope of a token for a requested role is one the caller allows. -/
def MintsWithin (pending : DevicePairingPendingRequest) (callerScopes : Option (List Text)) (device : PairedDevice) :
    Prop :=
  ∀ role ∈ requestedRoles pending, ∀ token ∈ (device.tokens.getD []).lookup role,
    ∀ scope ∈ token.scopes, isOperatorScope scope → callerAllows callerScopes scope

instance : Decidable (MintsWithin pending callerScopes device) := by
  unfold MintsWithin
  infer_instance

-- ---
-- The tokens
-- ---

theorem mem_operatorScopes {scopes : Option (List Text)} :
    scope ∈ operatorScopes scopes ↔ scope ∈ normalizeDeviceAuthScopes scopes ∧ isOperatorScope scope :=
  List.mem_filter

theorem resolveRoleScopedDeviceTokenScopes_operator (scopes : Option (List Text)) :
    resolveRoleScopedDeviceTokenScopes OPERATOR_ROLE scopes = operatorScopes scopes := rfl

theorem not_operator_of_mem {scopes : Option (List Text)} (hrole : role ≠ OPERATOR_ROLE)
    (h : scope ∈ resolveRoleScopedDeviceTokenScopes role scopes) : ¬ isOperatorScope scope := by
  simp only [resolveRoleScopedDeviceTokenScopes, if_neg hrole, List.mem_filter] at h
  simpa using h.2

theorem not_operator_of_mem_approved {existingToken : Option DeviceAuthToken} {approvedScopes : Option (List Text)}
    (hrole : role ≠ OPERATOR_ROLE)
    (h : scope ∈ resolveApprovedTokenScopes role pending existingToken approvedScopes existing) :
    ¬ isOperatorScope scope := by
  unfold resolveApprovedTokenScopes at h
  dsimp only at h
  split at h
  · exact not_operator_of_mem hrole h
  · exact not_operator_of_mem hrole h

/-- A role's token is minted from the token the device had for it. -/
theorem lookup_mintApprovedToken (pending : DevicePairingPendingRequest) (existing : Option PairedDevice)
    (approvedScopes : Option (List Text)) (newToken : Text → Text) (now : Int) {roles : List Text} (hnodup : roles.Nodup)
    (tokens : List (Text × DeviceAuthToken)) (role : Text) :
    ((roles.foldl (mintApprovedToken pending existing approvedScopes newToken now) tokens).lookup role).map (·.scopes) =
      if role ∈ roles then some (resolveApprovedTokenScopes role pending (tokens.lookup role) approvedScopes existing)
      else (tokens.lookup role).map (·.scopes) := by
  induction roles generalizing tokens with
  | nil => simp
  | cons first roles ih =>
    obtain ⟨hfirst, hnodup⟩ := List.nodup_cons.1 hnodup
    have hmint : ∀ role, (mintApprovedToken pending existing approvedScopes newToken now tokens first).lookup role =
        if role = first then (mintApprovedToken pending existing approvedScopes newToken now tokens first).lookup first
        else tokens.lookup role := by
      intro role
      simp only [mintApprovedToken, lookup_assign]
      split <;> simp
    rw [List.foldl_cons, ih hnodup, hmint]
    by_cases heq : role = first
    · subst heq
      simp [hfirst, mintApprovedToken, lookup_assign]
    · simp [heq]

theorem tokens_approvedDevice (existing : Option PairedDevice) (newToken : Text → Text) (now : Int)
    (hrole : role ∈ requestedRoles pending) :
    (((approvedDevice pending existing newToken now).tokens.getD []).lookup role).map (·.scopes) =
      some (resolveApprovedTokenScopes role pending (((existing.bind (·.tokens)).getD []).lookup role)
        (mergeScopes [(existing.bind (·.approvedScopes)).or (existing.bind (·.scopes)), pending.scopes]) existing) := by
  refine (lookup_mintApprovedToken pending existing _ newToken now (nodup_mergeRoles _) _ role).trans ?_
  exact if_pos hrole

/-- Where the request names no operator scope, the operator's are those the device had. -/
theorem mem_inherited (hnone : operatorScopes pending.scopes = []) :
    scope ∈ resolveApprovedTokenScopes OPERATOR_ROLE pending
        (((existing.bind (·.tokens)).getD []).lookup OPERATOR_ROLE)
        (mergeScopes [(existing.bind (·.approvedScopes)).or (existing.bind (·.scopes)), pending.scopes]) existing ↔
      scope ∈ operatorScopes (inheritedScopes existing) := by
  have hpending : ¬ (scope ∈ normalizeDeviceAuthScopes pending.scopes ∧ isOperatorScope scope) := by
    rw [← mem_operatorScopes, hnone]
    exact List.not_mem_nil
  unfold resolveApprovedTokenScopes inheritedScopes
  rw [resolveRoleScopedDeviceTokenScopes_operator, hnone]
  cases ((existing.bind (·.tokens)).getD []).lookup OPERATOR_ROLE with
  | some token => rfl
  | none =>
    generalize (existing.bind (·.approvedScopes)).or (existing.bind (·.scopes)) = base
    have hmerged : scope ∈ normalizeDeviceAuthScopes (mergeScopes [base, pending.scopes]) ∧ isOperatorScope scope ↔
        scope ∈ normalizeDeviceAuthScopes base ∧ isOperatorScope scope := by
      rw [mem_normalize_mergeScopes]
      simp only [List.mem_cons, List.not_mem_nil, or_false, exists_eq_or_imp, exists_eq_left]
      tauto
    cases hmerge : mergeScopes [base, pending.scopes] with
    | none => rw [mergeScopes_eq_none hmerge base List.mem_cons_self]; rfl
    | some approvedScopes =>
      rw [← mem_operatorScopes, ← mem_operatorScopes, hmerge] at hmerged
      exact hmerged

theorem mem_requested (hsome : operatorScopes pending.scopes ≠ []) (existingToken : Option DeviceAuthToken)
    (approvedScopes : Option (List Text)) (existing : Option PairedDevice) :
    resolveApprovedTokenScopes OPERATOR_ROLE pending existingToken approvedScopes existing =
      operatorScopes pending.scopes := by
  unfold resolveApprovedTokenScopes
  rw [resolveRoleScopedDeviceTokenScopes_operator]
  exact if_pos (List.length_pos_of_ne_nil hsome)

/-- The scopes that a request names are checked. -/
theorem callerAllows_of_not_forbidden (h : forbiddenScope pending callerScopes = none)
    (hscope : scope ∈ operatorScopes pending.scopes) : callerAllows callerScopes scope := by
  unfold forbiddenScope at h
  dsimp only at h
  cases hscopes : operatorScopes pending.scopes with
  | nil => simp [hscopes] at hscope
  | cons first scopes =>
    rw [hscopes] at h hscope
    cases callerScopes with
    | none => cases h
    | some callerScopes =>
      dsimp only at h
      split at h
      · cases h
      · simpa [callerAllows] using List.find?_eq_none.1 h scope hscope

-- ---
-- Every approval
-- ---

/-- The request names operator scopes, or is not for an operator, or the caller allows
what the device has as one. -/
def Covered (pending : DevicePairingPendingRequest) (existing : Option PairedDevice) (callerScopes : Option (List Text)) :
    Prop :=
  operatorScopes pending.scopes ≠ [] ∨ OPERATOR_ROLE ∉ requestedRoles pending ∨
    ∀ scope ∈ operatorScopes (inheritedScopes existing), callerAllows callerScopes scope

theorem mintsWithin_approvedDevice_iff (h : forbiddenScope pending callerScopes = none) (existing : Option PairedDevice)
    (newToken : Text → Text) (now : Int) :
    MintsWithin pending callerScopes (approvedDevice pending existing newToken now) ↔
      Covered pending existing callerScopes := by
  constructor
  · intro hwithin
    by_cases hnone : operatorScopes pending.scopes = []
    · by_cases hrole : OPERATOR_ROLE ∈ requestedRoles pending
      · refine .inr (.inr fun scope hscope => ?_)
        obtain ⟨token, htoken, hscopes⟩ := Option.map_eq_some_iff.1 (tokens_approvedDevice existing newToken now hrole)
        refine hwithin OPERATOR_ROLE hrole token htoken scope ?_ (mem_operatorScopes.1 hscope).2
        rw [hscopes]
        exact (mem_inherited hnone).2 hscope
      · exact .inr (.inl hrole)
    · exact .inl hnone
  · intro hcovered role hrole token htoken scope hscope hoperator
    obtain ⟨minted, hminted, hscopes⟩ := Option.map_eq_some_iff.1 (tokens_approvedDevice existing newToken now hrole)
    obtain rfl : minted = token := Option.some.inj (hminted.symm.trans htoken)
    rw [hscopes] at hscope
    by_cases hoperatorRole : role = OPERATOR_ROLE
    · subst hoperatorRole
      by_cases hnone : operatorScopes pending.scopes = []
      · exact ((hcovered.resolve_left (not_not_intro hnone)).resolve_left (not_not_intro hrole)) scope
          ((mem_inherited hnone).1 hscope)
      · rw [mem_requested hnone] at hscope
        exact callerAllows_of_not_forbidden h hscope
    · exact absurd hoperator (not_operator_of_mem_approved hoperatorRole hscope)

/-- The request that an approval is for, and what it approves. -/
theorem approveDevicePairing_approved
    (h : approveDevicePairing file requestId callerScopes newToken now = (some (.approved approvedId device), file')) :
    ∃ pending, (loadState file now).pendingById.lookup requestId = some pending ∧
      forbiddenScope pending callerScopes = none ∧
      device = approvedDevice pending (file.pairedByDeviceId.lookup pending.deviceId) newToken now := by
  unfold approveDevicePairing at h
  dsimp only at h
  cases hpending : (loadState file now).pendingById.lookup requestId with
  | none =>
    rw [hpending] at h
    cases h
  | some pending =>
    rw [hpending] at h
    dsimp only at h
    cases hforbidden : forbiddenScope pending callerScopes with
    | some missingScope =>
      rw [hforbidden] at h
      cases h
    | none =>
      rw [hforbidden] at h
      cases h
      exact ⟨pending, rfl, hforbidden, rfl⟩

theorem approveDevicePairing_within_iff
    (h : approveDevicePairing file requestId callerScopes newToken now = (some (.approved approvedId device), file'))
    (hpending : (loadState file now).pendingById.lookup requestId = some pending) :
    MintsWithin pending callerScopes device ↔
      Covered pending (file.pairedByDeviceId.lookup pending.deviceId) callerScopes := by
  obtain ⟨other, hother, hforbidden, rfl⟩ := approveDevicePairing_approved h
  obtain rfl : other = pending := Option.some.inj (hother.symm.trans hpending)
  exact mintsWithin_approvedDevice_iff hforbidden _ newToken now

theorem approveDevicePairing_of_not_forbidden (hpending : (loadState file now).pendingById.lookup requestId = some pending)
    (hforbidden : forbiddenScope pending callerScopes = none) (newToken : Text → Text) :
    (approveDevicePairing file requestId callerScopes newToken now).1 =
      some (.approved requestId
        (approvedDevice pending (file.pairedByDeviceId.lookup pending.deviceId) newToken now)) := by
  unfold approveDevicePairing
  dsimp only
  rw [hpending]
  dsimp only
  rw [hforbidden]
  rfl

section Samples

private def operatorRequest (scopes : Option (List Text)) : Incoming where
  deviceId := "device".toList
  publicKey := "key".toList
  metadata := ⟨none, none, none, none, none, none⟩
  role := some OPERATOR_ROLE
  roles := none
  scopes := scopes
  silent := none

/-- A device that an administrator approved asks again, and names no scopes. -/
private def repairRun : List Label :=
  [.requestDevicePairing (operatorRequest (some [OPERATOR_ADMIN_SCOPE])) "first".toList 0,
    .approveDevicePairing "first".toList (some [OPERATOR_ADMIN_SCOPE]) id 1,
    .requestDevicePairing (operatorRequest none) "repair".toList 2]

private theorem initial_empty : Initial ⟨⟨[], []⟩, []⟩ :=
  ⟨rfl, List.nodup_nil, fun _ hmem => absurd hmem List.not_mem_nil, rfl⟩

theorem approveDevicePairing_within_sample :
    ∃ file pending device,
      (approveDevicePairing file "first".toList (some [OPERATOR_ADMIN_SCOPE]) id 1).1 =
        some (.approved "first".toList device) ∧
      (MintsWithin pending (some [OPERATOR_ADMIN_SCOPE]) device ↔
        Covered pending (file.pairedByDeviceId.lookup pending.deviceId) (some [OPERATOR_ADMIN_SCOPE])) := by
  have hpending : ((loadState (requestDevicePairing ⟨[], []⟩ (operatorRequest (some [OPERATOR_ADMIN_SCOPE]))
      "first".toList 0).2 1).pendingById.lookup "first".toList).any
      fun pending => forbiddenScope pending (some [OPERATOR_ADMIN_SCOPE]) = none := by decide
  obtain ⟨pending, hpending, hforbidden⟩ := (Option.any_eq_true _ _).1 hpending
  have happroved := approveDevicePairing_of_not_forbidden hpending (of_decide_eq_true hforbidden) id
  exact ⟨_, pending, _, happroved, approveDevicePairing_within_iff (Prod.ext happroved rfl) hpending⟩

/-- The token of the repair has the scopes of an administrator; nobody approved them now. -/
theorem not_approveDevicePairing_within :
    ∃ s, system.Reachable s ∧ ∃ pending device,
      (approveDevicePairing s.file "repair".toList none id 3).1 = some (.approved "repair".toList device) ∧
      (loadState s.file 3).pendingById.lookup "repair".toList = some pending ∧
      ¬ MintsWithin pending none device := by
  have hrun : (system.run ⟨⟨[], []⟩, []⟩ repairRun).any fun s =>
      ((loadState s.file 3).pendingById.lookup "repair".toList).any fun pending =>
        decide (forbiddenScope pending none = none ∧
          ¬ MintsWithin pending none
            (approvedDevice pending (s.file.pairedByDeviceId.lookup pending.deviceId) id 3)) := by decide
  obtain ⟨s, hs, hrepair⟩ := (Option.any_eq_true _ _).1 hrun
  obtain ⟨pending, hpending, hexceeds⟩ := (Option.any_eq_true _ _).1 hrepair
  obtain ⟨hforbidden, hexceeds⟩ := of_decide_eq_true hexceeds
  exact ⟨s, .run (.init initial_empty) hs, pending, _, approveDevicePairing_of_not_forbidden hpending hforbidden id,
    hpending, hexceeds⟩

end Samples

end OpenClaw.DevicePairing
