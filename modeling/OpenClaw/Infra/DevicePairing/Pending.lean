import OpenClaw.Infra.DevicePairing

/-!
# Pending requests

A device has one pending request. A request for what is pending already refreshes it,
and any other takes its place under a new id with all that was asked for, so what an id
stands for never changes. The request stays silent as long as all that went into it were.
-/

namespace OpenClaw.DevicePairing

open Js OrderedSet Members Transition

variable {file : DevicePairingStateFile} {pendingById pendingById' : List (Text × DevicePairingPendingRequest)}
  {pending request : DevicePairingPendingRequest} {s s' : State} {requestId deviceId : Text} {now : Int}

-- ---
-- The invariant
-- ---

/-- A silent request has only silent requests in it. -/
def DevicePairingPendingRequest.SilentSound (pending : DevicePairingPendingRequest) : Prop :=
  pending.silent = some true → ∀ incoming ∈ pending.merged, incoming.silent = some true

structure PendingSound (pendingById : List (Text × DevicePairingPendingRequest)) : Prop where
  nodup : (pendingById.map Prod.fst).Nodup
  keyed : ∀ member ∈ pendingById, member.2.requestId = member.1
  normal : ∀ member ∈ pendingById, normalizeDeviceId member.2.deviceId = member.2.deviceId
  single : (pendingById.map (·.2.deviceId)).Nodup
  silent : ∀ member ∈ pendingById, member.2.SilentSound

theorem PendingSound.sublist (h : PendingSound pendingById) (hsub : pendingById'.Sublist pendingById) :
    PendingSound pendingById' where
  nodup := h.nodup.sublist (hsub.map _)
  keyed member hmember := h.keyed member (hsub.subset hmember)
  normal member hmember := h.normal member (hsub.subset hmember)
  single := h.single.sublist (hsub.map _)
  silent member hmember := h.silent member (hsub.subset hmember)

/-- What the approver of a request is shown. -/
structure Shown where
  deviceId : Text
  publicKey : Text
  role : Option Text
  roles : Option (List Text)
  scopes : Option (List Text)

def DevicePairingPendingRequest.shown (pending : DevicePairingPendingRequest) : Shown :=
  ⟨pending.deviceId, pending.publicKey, pending.role, pending.roles, pending.scopes⟩

theorem loadState_sublist (file : DevicePairingStateFile) (now : Int) :
    (loadState file now).pendingById.Sublist file.pendingById := List.filter_sublist

-- ---
-- Refreshing
-- ---

theorem mem_pendingForDevice {state : DevicePairingStateFile} :
    pending ∈ pendingForDevice state deviceId ↔
      (∃ requestId, (requestId, pending) ∈ state.pendingById) ∧ pending.deviceId = deviceId := by
  unfold pendingForDevice
  rw [(List.perm_insertionSort _ _).mem_iff, List.mem_filter, List.mem_map]
  simp

theorem refresh_shown {incoming : Incoming} (h : samePendingApprovalSnapshot pending incoming) (isRepair : Bool)
    (now : Int) : (refreshPendingDevicePairingRequest pending incoming isRepair now).shown = pending.shown := by
  unfold samePendingApprovalSnapshot at h
  split at h
  · cases h
  case isFalse hkey =>
    have hkey : pending.publicKey = incoming.publicKey := not_not.1 hkey
    simp [refreshPendingDevicePairingRequest, DevicePairingPendingRequest.shown, hkey]

theorem refresh_silent {incoming : Incoming} (h : pending.SilentSound) (isRepair : Bool) (now : Int) :
    (refreshPendingDevicePairingRequest pending incoming isRepair now).SilentSound := by
  intro hsilent
  simp only [refreshPendingDevicePairingRequest, Option.some.injEq, Bool.and_eq_true, decide_eq_true_eq] at hsilent
  exact List.forall_mem_append.2 ⟨h hsilent.1, List.forall_mem_singleton.2 hsilent.2⟩

theorem replacement_silent {existing : List DevicePairingPendingRequest} (h : ∀ pending ∈ existing, pending.SilentSound)
    (requestId deviceId : Text) (isRepair : Bool) (incoming : Incoming) (now : Int) :
    (buildReplacement requestId deviceId isRepair existing incoming now).SilentSound := by
  intro hsilent
  simp only [buildReplacement, buildPendingDevicePairingRequest, resolveSupersededPendingSilent, Option.some.injEq,
    Bool.and_eq_true, decide_eq_true_eq, List.all_eq_true] at hsilent
  obtain ⟨hincoming, hexisting⟩ := hsilent
  refine List.forall_mem_append.2 ⟨?_, List.forall_mem_singleton.2 hincoming⟩
  intro merged hmerged
  obtain ⟨pending, hpending, hmerged⟩ := List.mem_flatMap.1 hmerged
  exact h pending hpending (hexisting pending hpending) merged hmerged

-- ---
-- Replacing
-- ---

theorem mem_resolveRequestedRoles {role : Option Text} {roles : Option (List Text)} :
    text ∈ resolveRequestedRoles role roles ↔ text ∈ trimmedSet (roles.getD []) ∨ normalizeRole role = some text := by
  rw [resolveRequestedRoles, mem_mergeRoles, ← mem_trimmedSet_oneRole]
  simp

theorem exists_mem_flatMap {l : List α} {f : α → List β} {p : β → Prop} :
    (∃ b, b ∈ l.flatMap f ∧ p b) ↔ ∃ a ∈ l, ∃ b ∈ f a, p b := by
  simp only [List.mem_flatMap]
  grind

section Replacement

variable (requestId deviceId : Text) (isRepair : Bool) (existing : List DevicePairingPendingRequest) (incoming : Incoming)
  (now : Int)

theorem buildReplacement_role :
    (buildReplacement requestId deviceId isRepair existing incoming now).role =
      normalizeRole ((normalizeRole incoming.role).or (existing.head?.bind (·.role))) := by
  rw [buildReplacement, buildPendingDevicePairingRequest]

theorem buildReplacement_roles :
    (buildReplacement requestId deviceId isRepair existing incoming now).roles =
      mergeRoles
        [mergeRoles ((existing.flatMap fun pending => [pending.roles, oneRole pending.role]) ++
            [incoming.roles, oneRole incoming.role]),
          oneRole (buildReplacement requestId deviceId isRepair existing incoming now).role] := by
  rw [buildReplacement, buildPendingDevicePairingRequest]

theorem buildReplacement_scopes :
    (buildReplacement requestId deviceId isRepair existing incoming now).scopes =
      mergeScopes [mergeScopes (existing.map (·.scopes) ++ [incoming.scopes])] := by
  rw [buildReplacement, buildPendingDevicePairingRequest]

/-- The replacement asks for every role that was asked for before. -/
theorem replacement_roles (role : Text)
    (hrequest : request = buildReplacement requestId deviceId isRepair existing incoming now) :
    role ∈ resolveRequestedRoles request.role request.roles ↔
      (∃ pending ∈ existing, role ∈ resolveRequestedRoles pending.role pending.roles) ∨
        role ∈ resolveRequestedRoles incoming.role incoming.roles := by
  have hrole : normalizeRole request.role = some role →
      (∃ pending ∈ existing, role ∈ resolveRequestedRoles pending.role pending.roles) ∨
        role ∈ resolveRequestedRoles incoming.role incoming.roles := by
    intro hrole
    rw [hrequest, buildReplacement_role, normalizeRole, normalizeRole, trimmed?_trimmed?] at hrole
    cases hincoming : normalizeRole incoming.role with
    | some own =>
      rw [hincoming, Option.some_or, ← hincoming, normalizeRole, trimmed?_trimmed?] at hrole
      exact .inr (mem_resolveRequestedRoles.2 (.inr hrole))
    | none =>
      rw [hincoming, Option.none_or] at hrole
      cases hlatest : existing.head? with
      | none =>
        rw [hlatest] at hrole
        cases hrole
      | some latest =>
        rw [hlatest] at hrole
        exact .inl ⟨latest, List.mem_of_mem_head? hlatest, mem_resolveRequestedRoles.2 (.inr hrole)⟩
  have hroles : role ∈ trimmedSet (request.roles.getD []) ↔
      ((∃ pending ∈ existing, role ∈ resolveRequestedRoles pending.role pending.roles) ∨
        role ∈ resolveRequestedRoles incoming.role incoming.roles) ∨ normalizeRole request.role = some role := by
    rw [hrequest, buildReplacement_roles, trimmedSet_mergeRoles]
    simp only [List.mem_cons, List.not_mem_nil, or_false, exists_eq_left, trimmedSet_mergeRoles, List.mem_append,
      or_and_right, exists_or, exists_mem_flatMap, mem_trimmedSet_oneRole, mem_resolveRequestedRoles]
  rw [mem_resolveRequestedRoles, hroles]
  exact ⟨fun h => h.elim (Or.rec id hrole) hrole, fun h => .inl (.inl h)⟩

theorem replacement_scopes (scope : Text)
    (hrequest : request = buildReplacement requestId deviceId isRepair existing incoming now) :
    scope ∈ trimmedSet (request.scopes.getD []) ↔
      (∃ pending ∈ existing, scope ∈ trimmedSet (pending.scopes.getD [])) ∨
        scope ∈ trimmedSet (incoming.scopes.getD []) := by
  rw [hrequest, buildReplacement_scopes, trimmedSet_mergeScopes]
  simp only [List.mem_cons, List.not_mem_nil, or_false, exists_eq_left, trimmedSet_mergeScopes, List.mem_append,
    or_and_right, exists_or, List.mem_map, exists_exists_and_eq_and]

end Replacement

-- ---
-- A request
-- ---

/-- What a request does to the requests that are pending. -/
theorem requestDevicePairing_cases (file : DevicePairingStateFile) (req : Incoming) (requestId : Text) (now : Int) :
    (requestDevicePairing file req requestId now).2 = file ∧
        (requestDevicePairing file req requestId now).1 = .error "deviceId required" ∨
      (∃ single isRepair, pendingForDevice (loadState file now) (normalizeDeviceId req.deviceId) = [single] ∧
        samePendingApprovalSnapshot single req ∧
        requestDevicePairing file req requestId now =
          (.ok (refreshPendingDevicePairingRequest single req isRepair now, false),
            { loadState file now with
              pendingById := assign (loadState file now).pendingById single.requestId
                (refreshPendingDevicePairingRequest single req isRepair now) })) ∨
      ∃ existing request, existing = pendingForDevice (loadState file now) (normalizeDeviceId req.deviceId) ∧
        (∃ isRepair, request =
          buildReplacement requestId (normalizeDeviceId req.deviceId) isRepair existing req now) ∧
        requestDevicePairing file req requestId now =
          (.ok (request, true),
            { loadState file now with
              pendingById := assign
                ((loadState file now).pendingById.filter (·.1 ∉ existing.map (·.requestId))) requestId request }) := by
  unfold requestDevicePairing
  dsimp only
  split
  · exact .inl ⟨rfl, rfl⟩
  · refine .inr ?_
    generalize ((loadState file now).pairedByDeviceId.lookup (normalizeDeviceId req.deviceId)).isSome = isRepair
    generalize pendingForDevice (loadState file now) (normalizeDeviceId req.deviceId) = existing
    unfold reconcilePendingPairingRequests
    dsimp only
    split
    case h_1 single hsingle =>
      obtain ⟨hone, hsame⟩ := Option.filter_eq_some_iff.1 hsingle
      refine .inl ⟨single, isRepair, ?_, hsame, rfl⟩
      split at hone
      case isTrue hlength =>
        obtain ⟨only, rfl⟩ := List.length_eq_one_iff.1 hlength
        rw [Option.some.inj hone]
      case isFalse => cases hone
    case h_2 =>
      refine .inr ⟨existing, _, rfl, ⟨isRepair, rfl⟩, ?_⟩
      have hkept : existing.foldl (fun pendingById existing => remove pendingById existing.requestId)
          (loadState file now).pendingById =
            (loadState file now).pendingById.filter (·.1 ∉ existing.map (·.requestId)) := by
        have hremove := foldl_remove (existing.map (·.requestId)) (loadState file now).pendingById
        rw [List.foldl_map] at hremove
        exact hremove.trans (List.filter_congr fun member _ => decide_eq_decide.2 Iff.rfl)
      rw [hkept]
      rfl

/-- The requests of other devices, which a replacement leaves alone. -/
theorem deviceId_ne_of_kept {member : Text × DevicePairingPendingRequest} (h : PendingSound file.pendingById)
    (hmember : member ∈ file.pendingById.filter (·.1 ∉ (pendingForDevice file deviceId).map (·.requestId))) :
    member.2.deviceId ≠ deviceId := by
  obtain ⟨hmember, hkept⟩ := List.mem_filter.1 hmember
  intro hdevice
  refine of_decide_eq_true hkept (List.mem_map.2 ⟨member.2, ?_, h.keyed member hmember⟩)
  exact mem_pendingForDevice.2 ⟨⟨member.1, hmember⟩, hdevice⟩

/-- A request is put in the place of one for the same device. -/
theorem PendingSound.refresh (h : PendingSound pendingById) (hlookup : pendingById.lookup requestId = some pending)
    (hid : request.requestId = requestId) (hdevice : request.deviceId = pending.deviceId) (hsilent : request.SilentSound) :
    PendingSound (assign pendingById requestId request) := by
  have hkey : requestId ∈ pendingById.map Prod.fst := lookup_isSome_iff.1 (Option.isSome_iff_exists.2 ⟨_, hlookup⟩)
  constructor
  case nodup => exact nodup_assign h.nodup requestId request
  case keyed =>
    intro member hmember
    rcases mem_assign hmember with hmember | rfl
    · exact h.keyed member hmember
    · exact hid
  case normal =>
    intro member hmember
    rcases mem_assign hmember with hmember | rfl
    · exact h.normal member hmember
    · rw [hdevice]
      exact h.normal _ (mem_of_lookup hlookup)
  case single =>
    have hsame : (assign pendingById requestId request).map (·.2.deviceId) = pendingById.map (·.2.deviceId) := by
      rw [assign, if_pos hkey, List.map_map]
      refine List.map_congr_left fun member hmember => ?_
      rw [Function.comp_apply]
      split
      case isTrue heq =>
        have hmine : pendingById.lookup member.1 = some member.2 := lookup_of_mem h.nodup hmember
        rw [heq, hlookup] at hmine
        rw [hdevice, Option.some.inj hmine]
      case isFalse => rfl
    rw [hsame]
    exact h.single
  case silent =>
    intro member hmember
    rcases mem_assign hmember with hmember | rfl
    · exact h.silent member hmember
    · exact hsilent

/-- A request is added for a device that has none. -/
theorem PendingSound.add (h : PendingSound pendingById) (hfresh : requestId ∉ pendingById.map Prod.fst)
    (hid : request.requestId = requestId) (hnormal : normalizeDeviceId request.deviceId = request.deviceId)
    (hdevice : ∀ member ∈ pendingById, member.2.deviceId ≠ request.deviceId) (hsilent : request.SilentSound) : PendingSound (assign pendingById requestId request) := by
  have hassign : assign pendingById requestId request = pendingById ++ [(requestId, request)] := if_neg hfresh
  constructor
  case nodup => exact nodup_assign h.nodup requestId request
  case keyed =>
    rw [hassign]
    exact List.forall_mem_append.2 ⟨h.keyed, List.forall_mem_singleton.2 hid⟩
  case normal =>
    rw [hassign]
    exact List.forall_mem_append.2 ⟨h.normal, List.forall_mem_singleton.2 hnormal⟩
  case single =>
    rw [hassign, List.map_append]
    refine h.single.append (List.nodup_singleton _) ?_
    intro deviceId hdeviceId hsame
    obtain ⟨member, hmember, rfl⟩ := List.mem_map.1 hdeviceId
    exact hdevice member hmember (List.mem_singleton.1 hsame)
  case silent =>
    rw [hassign]
    exact List.forall_mem_append.2 ⟨h.silent, List.forall_mem_singleton.2 hsilent⟩

theorem lookup_of_mem_pendingForDevice (h : PendingSound file.pendingById) (hmem : pending ∈ pendingForDevice file deviceId) :
    file.pendingById.lookup pending.requestId = some pending ∧ pending.deviceId = deviceId := by
  obtain ⟨⟨requestId, hmember⟩, hdevice⟩ := mem_pendingForDevice.1 hmem
  have hid : pending.requestId = requestId := h.keyed _ hmember
  exact ⟨hid ▸ lookup_of_mem h.nodup hmember, hdevice⟩

/-- What an id stands for that is still there is what it was. -/
def SameShown (pendingById pendingById' : List (Text × DevicePairingPendingRequest)) : Prop :=
  ∀ requestId pending pending', pendingById.lookup requestId = some pending →
    pendingById'.lookup requestId = some pending' → pending'.shown = pending.shown

theorem SameShown.of_sublist (h : PendingSound pendingById) (hsub : pendingById'.Sublist pendingById) :
    SameShown pendingById pendingById' := by
  intro requestId pending pending' hlookup hlookup'
  have hmine : pendingById.lookup requestId = some pending' := lookup_of_mem h.nodup (hsub.subset (mem_of_lookup hlookup'))
  rw [Option.some.inj (hlookup.symm.trans hmine)]

theorem requestDevicePairing_sound (h : PendingSound file.pendingById) (req : Incoming)
    (hfresh : requestId ∉ file.pendingById.map Prod.fst) (now : Int) :
    PendingSound (requestDevicePairing file req requestId now).2.pendingById ∧
      SameShown file.pendingById (requestDevicePairing file req requestId now).2.pendingById := by
  have hloaded := h.sublist (loadState_sublist file now)
  rcases requestDevicePairing_cases file req requestId now with
    ⟨heq, -⟩ | ⟨single, isRepair, hsingle, hsame, heq⟩ | ⟨existing, request, hexisting, ⟨isRepair, hrequest⟩, heq⟩
  · rw [heq]
    exact ⟨h, .of_sublist h (.refl _)⟩
  · rw [heq]
    have hmem : single ∈ pendingForDevice (loadState file now) (normalizeDeviceId req.deviceId) :=
      hsingle ▸ List.mem_singleton_self single
    obtain ⟨hlookup, -⟩ := lookup_of_mem_pendingForDevice hloaded hmem
    have hshown := refresh_shown hsame isRepair now
    refine ⟨hloaded.refresh hlookup rfl rfl (refresh_silent ?_ isRepair now), ?_⟩
    · exact hloaded.silent _ (mem_of_lookup hlookup)
    · intro other pending pending' hold hnew
      rw [lookup_assign] at hnew
      split at hnew
      case isTrue heq =>
        rw [← Option.some.inj hnew, hshown]
        have hmine := lookup_of_mem h.nodup ((loadState_sublist file now).subset (mem_of_lookup hlookup))
        rw [heq] at hold
        rw [Option.some.inj (hold.symm.trans hmine)]
      case isFalse => exact SameShown.of_sublist h (loadState_sublist file now) other pending pending' hold hnew
  · rw [heq]
    have hsub : ((loadState file now).pendingById.filter (·.1 ∉ existing.map (·.requestId))).Sublist file.pendingById :=
      List.filter_sublist.trans (loadState_sublist file now)
    have hsilent : request.SilentSound := by
      rw [hrequest]
      refine replacement_silent (fun pending hpending => ?_) requestId _ isRepair req now
      exact hloaded.silent _ (mem_of_lookup (lookup_of_mem_pendingForDevice hloaded (hexisting ▸ hpending)).1)
    have hdevice : request.deviceId = normalizeDeviceId req.deviceId := by rw [hrequest]; rfl
    have hnormal : normalizeDeviceId request.deviceId = request.deviceId := by rw [hdevice]; exact trimChars_trimChars _
    refine ⟨(h.sublist hsub).add (fun hmem => hfresh ((hsub.map _).subset hmem)) (hrequest ▸ rfl) hnormal ?_ hsilent, ?_⟩
    · intro member hmember
      rw [hexisting] at hmember
      rw [hdevice]
      exact deviceId_ne_of_kept hloaded hmember
    · intro other pending pending' hold hnew
      rw [lookup_assign] at hnew
      split at hnew
      case isTrue heq =>
        subst heq
        exact absurd (List.mem_map_of_mem (mem_of_lookup hold)) hfresh
      case isFalse => exact SameShown.of_sublist h hsub other pending pending' hold hnew

-- ---
-- The other operations
-- ---

/-- Besides a request, the operations only take requests away. -/
theorem step_sublist (hstep : step s label = some s')
    (hlabel : ∀ req requestId now, label ≠ .requestDevicePairing req requestId now) :
    s'.file.pendingById.Sublist s.file.pendingById := by
  have hload := loadState_sublist s.file
  have hremove : ∀ now requestId,
      (remove (loadState s.file now).pendingById requestId).Sublist s.file.pendingById :=
    fun now requestId => List.filter_sublist.trans (hload now)
  cases label with
  | requestDevicePairing req requestId now => exact absurd rfl (hlabel req requestId now)
  | approveDevicePairing requestId callerScopes newToken now =>
    cases hstep
    unfold approveDevicePairing
    dsimp only
    split
    · exact .refl _
    · split
      · exact .refl _
      · exact hremove now requestId
  | rejectDevicePairing requestId now =>
    cases hstep
    unfold rejectDevicePairing
    dsimp only
    split
    · exact .refl _
    · exact hremove now requestId
  | removePairedDevice deviceId now =>
    cases hstep
    unfold removePairedDevice
    dsimp only
    split
    · exact .refl _
    · exact hload now
  | updatePairedDeviceMetadata deviceId patch now =>
    cases hstep
    unfold updatePairedDeviceMetadata
    dsimp only
    split
    · exact .refl _
    · exact hload now
  | verifyDeviceToken deviceId token role scopes now =>
    cases hstep
    unfold verifyDeviceToken
    dsimp only
    repeat' split
    all_goals first | exact .refl _ | exact hload now
  | ensureDeviceToken deviceId role scopes newToken now =>
    cases hstep
    unfold ensureDeviceToken
    dsimp only
    repeat' split
    all_goals first | exact .refl _ | exact hload now
  | rotateDeviceToken deviceId role scopes newToken now =>
    cases hstep
    unfold rotateDeviceToken
    dsimp only
    repeat' split
    all_goals first | exact .refl _ | exact hload now
  | revokeDeviceToken deviceId role now =>
    cases hstep
    unfold revokeDeviceToken
    dsimp only
    repeat' split
    all_goals first | exact .refl _ | exact hload now

theorem step_pendingSound (h : PendingSound s.file.pendingById) (hstep : step s label = some s') :
    PendingSound s'.file.pendingById ∧ SameShown s.file.pendingById s'.file.pendingById := by
  by_cases hrequest : ∃ req requestId now, label = .requestDevicePairing req requestId now
  · obtain ⟨req, requestId, now, rfl⟩ := hrequest
    simp only [step, Option.ite_none_left_eq_some] at hstep
    obtain ⟨hfresh, heq⟩ := hstep
    cases heq
    exact requestDevicePairing_sound h req hfresh now
  · have hsub := step_sublist hstep fun req requestId now heq => hrequest ⟨req, requestId, now, heq⟩
    exact ⟨h.sublist hsub, .of_sublist h hsub⟩

theorem pendingSound_of_reachable (h : system.Reachable s) : PendingSound s.file.pendingById := by
  refine h.invariant (I := fun s => PendingSound s.file.pendingById) ?_ fun s label s' hsound hstep =>
    (step_pendingSound hsound hstep).1
  rintro s ⟨hempty, -⟩
  rw [hempty]
  constructor <;> simp

-- ---
-- Every run
-- ---

theorem pendingPairing_kept (h : system.Reachable s) :
    (s.file.pendingById.map (·.2.deviceId)).Nodup ∧
      (∀ label s', step s label = some s' → SameShown s.file.pendingById s'.file.pendingById) ∧
      (∀ req requestId now request, (requestDevicePairing s.file req requestId now).1 = .ok (request, true) →
        (∀ role, role ∈ resolveRequestedRoles request.role request.roles ↔
          (∃ pending ∈ pendingForDevice (loadState s.file now) (normalizeDeviceId req.deviceId),
              role ∈ resolveRequestedRoles pending.role pending.roles) ∨
            role ∈ resolveRequestedRoles req.role req.roles) ∧
        ∀ scope, scope ∈ trimmedSet (request.scopes.getD []) ↔
          (∃ pending ∈ pendingForDevice (loadState s.file now) (normalizeDeviceId req.deviceId),
              scope ∈ trimmedSet (pending.scopes.getD [])) ∨
            scope ∈ trimmedSet (req.scopes.getD [])) ∧
      ∀ member ∈ s.file.pendingById, member.2.silent = some true →
        ∀ incoming ∈ member.2.merged, incoming.silent = some true := by
  have hsound := pendingSound_of_reachable h
  refine ⟨hsound.single, fun label s' hstep => (step_pendingSound hsound hstep).2, ?_, hsound.silent⟩
  intro req requestId now request hcreated
  rcases requestDevicePairing_cases s.file req requestId now with
    ⟨-, heq⟩ | ⟨single, isRepair, -, -, heq⟩ | ⟨existing, made, hexisting, ⟨isRepair, hmade⟩, heq⟩
  · rw [heq] at hcreated
    cases hcreated
  · rw [heq] at hcreated
    cases hcreated
  · rw [heq] at hcreated
    cases hcreated
    rw [← hexisting]
    exact ⟨fun role => replacement_roles _ _ _ _ _ _ role hmade, fun scope => replacement_scopes _ _ _ _ _ _ scope hmade⟩

private def pairingRequest (role : String) : Incoming where
  deviceId := "device".toList
  publicKey := "key".toList
  metadata := ⟨none, none, none, none, none, none⟩
  role := some role.toList
  roles := none
  scopes := none
  silent := some true

/-- A device that asks for one role and then for another. -/
theorem pendingPairing_kept_sample :
    ∃ s, system.run ⟨⟨[], []⟩, []⟩
        [.requestDevicePairing (pairingRequest "node") "first".toList 0,
          .requestDevicePairing (pairingRequest "operator") "second".toList 1] = some s ∧
      (s.file.pendingById.map (·.2.deviceId)).Nodup ∧
      ∀ member ∈ s.file.pendingById, member.2.silent = some true →
        ∀ incoming ∈ member.2.merged, incoming.silent = some true := by
  have hrun : (system.run ⟨⟨[], []⟩, []⟩
      [.requestDevicePairing (pairingRequest "node") "first".toList 0,
        .requestDevicePairing (pairingRequest "operator") "second".toList 1]).isSome := by decide
  obtain ⟨s, hs⟩ := Option.isSome_iff_exists.1 hrun
  have hinit : Initial ⟨⟨[], []⟩, []⟩ := ⟨rfl, List.nodup_nil, fun _ hmem => absurd hmem List.not_mem_nil, rfl⟩
  have hkept := pendingPairing_kept (.run (.init hinit) hs)
  exact ⟨s, hs, hkept.1, hkept.2.2.2⟩

end OpenClaw.DevicePairing
