import OpenClaw.Cron.Service.Details
import OpenClaw.Cron.Service.Ids

/-!
# What a refused update leaves

A patch is merged into the stored job itself, one field after the other, and the checks that
refuse it stand between the fields and behind them. What was set before the check that
refuses stays set.
-/

namespace OpenClaw.Cron

open Js

-- ---
-- Fields
-- ---

/-- The patch leaves the field out or gives it the value it has. -/
def Keeps (field : Option α) (stored : α) : Prop :=
  ∀ value, field = some value → value = stored

theorem patched_eq_iff {field : Option α} : patched field stored = stored ↔ Keeps field stored := by
  cases field with
  | none => simp [patched, Keeps]
  | some value => simp [patched, Keeps]

theorem or_eq_iff {field : Option α} {stored : Option α} :
    (field <|> stored) = stored ↔ Keeps (field.map some) stored := by
  cases field with
  | none => simp [Keeps]
  | some value => simp [Keeps]

/-- What a field that may be refused is set to, or why it is refused. -/
def errorOf (field : Option (Except PatchError α)) : Option PatchError :=
  match field with
  | some (.error err) => some err
  | some (.ok _) | none => none

def valueOf (field : Option (Except PatchError α)) (stored : α) : α :=
  match field with
  | some (.ok value) => value
  | some (.error _) | none => stored

theorem valueOf_eq_iff {field : Option (Except PatchError α)} (h : errorOf field = none) :
    valueOf field stored = stored ↔ Keeps field (.ok stored) := by
  cases field with
  | none => simp [valueOf, Keeps]
  | some result =>
    cases result with
    | error err => cases h
    | ok value => simp [valueOf, Keeps]

theorem patched_cases (field : Option (Except PatchError α)) (stored : α) :
    (∃ err, errorOf field = some err ∧ patched field (.ok stored) = .error err) ∨
      errorOf field = none ∧ patched field (.ok stored) = .ok (valueOf field stored) := by
  cases field with
  | none => exact .inr ⟨rfl, rfl⟩
  | some result =>
    cases result with
    | error err => exact .inl ⟨err, rfl, rfl⟩
    | ok value => exact .inr ⟨rfl, rfl⟩

-- ---
-- The check that refuses
-- ---

section
variable (env : PatchEnv) (patch : JobDetailsPatch) (job : JobDetails)

def sessionTargetOf : CronSessionTarget := patched patch.sessionTarget job.sessionTarget

def payloadOf : CronPayload := valueOf (patch.payload.map (mergeCronPayload job.payload)) job.payload

def mergedDelivery : Option CronDelivery :=
  patched (patch.delivery.map fun patch => some (mergeCronDelivery job.delivery patch)) job.delivery

/-- A job of the main session keeps no delivery but a webhook. -/
def settledDelivery : Option CronDelivery :=
  if isMainWithoutWebhook (sessionTargetOf patch job) (mergedDelivery patch job) then none
  else mergedDelivery patch job

def agentIdOf : Option Text :=
  patched (patch.agentId.map (normalizeOptionalAgentId env.lower)) job.agentId

/-- The failure destination of a job of the main session without a webhook. -/
def hasDestinationOfMain : Bool :=
  isMainWithoutWebhook (sessionTargetOf patch job) (mergedDelivery patch job) &&
    ((mergedDelivery patch job).bind (·.failureDestination)).isSome

/-- The first check that refuses the patch. -/
def refusedBy : Option PatchError :=
  (errorOf (patch.name.map normalizeRequiredName)).or <|
  (errorOf (patch.payload.map (mergeCronPayload job.payload))).or <|
  (if hasDestinationOfMain patch job then some .destinationOfMain else none).or <|
  (assertSupportedJobSpec (sessionTargetOf patch job) (payloadOf patch job)).or <|
  (assertMainSessionAgentId env (sessionTargetOf patch job) (agentIdOf env patch job)).or <|
  (assertDeliverySupport env (sessionTargetOf patch job) (settledDelivery patch job)).2.or <|
  (assertFailureDestinationSupport env (sessionTargetOf patch job) (settledDelivery patch job)).2

/-- The delivery as it is when a check refuses. -/
def deliveryAt (err : PatchError) : Option CronDelivery :=
  match err with
  | .nameRequired | .textRequired | .messageRequired => job.delivery
  | .destinationOfMain => mergedDelivery patch job
  | .payloadOfMain | .payloadOfIsolated | .agentOfMain _ | .webhookUrl | .channelOfMain =>
    settledDelivery patch job
  | .failureDestinationOfMain | .failureWebhookUrl =>
    (assertDeliverySupport env (sessionTargetOf patch job) (settledDelivery patch job)).1

end

/-- The fields that are set before the payload. -/
structure FirstKept (patch : JobPatch) (job : CronJob JobDetails) : Prop where
  name : Keeps (patch.name.map normalizeRequiredName) (.ok job.details.name)
  description : Keeps (patch.description.map normalizeOptionalText) job.details.description
  enabled : Keeps patch.enabled job.enabled
  deleteAfterRun : Keeps (patch.deleteAfterRun.map some) job.deleteAfterRun
  schedule : Keeps (patch.schedule.map (patchSchedule job.schedule)) job.schedule
  sessionTarget : Keeps patch.sessionTarget job.details.sessionTarget
  wakeMode : Keeps patch.wakeMode job.details.wakeMode

/-- The fields that are merged before the first check of the delivery, besides the delivery. -/
structure MergedKept (patch : JobPatch) (job : CronJob JobDetails) : Prop where
  payload : Keeps (patch.payload.map (mergeCronPayload job.details.payload)) (.ok job.details.payload)
  failureAlert :
    Keeps (patch.failureAlert.map (mergeCronFailureAlert job.details.failureAlert)) job.details.failureAlert

/-- The fields that are set before the assertions. -/
structure LastKept (env : PatchEnv) (patch : JobPatch) (job : CronJob JobDetails) : Prop where
  state : Keeps (patch.state.map (· job.state)) job.state
  agentId : Keeps (patch.agentId.map (normalizeOptionalAgentId env.lower)) job.details.agentId
  sessionKey : Keeps (patch.sessionKey.map normalizeOptionalText) job.details.sessionKey

/-- Every field that is set before the check that refuses has the value it had. -/
def KeptUpTo (env : PatchEnv) (patch : JobPatch) (job : CronJob JobDetails) (err : PatchError) :
    Prop :=
  deliveryAt env patch.toJobDetailsPatch job.details err = job.details.delivery ∧
  match err with
  | .nameRequired => True
  | .textRequired | .messageRequired => FirstKept patch job
  | .destinationOfMain => FirstKept patch job ∧ MergedKept patch job
  | .payloadOfMain | .payloadOfIsolated | .agentOfMain _ | .webhookUrl | .channelOfMain
  | .failureDestinationOfMain | .failureWebhookUrl =>
    FirstKept patch job ∧ MergedKept patch job ∧ LastKept env patch job

-- ---
-- How far a refused patch gets
-- ---

section
variable {env : PatchEnv} {patch : JobDetailsPatch} {job : JobDetails}

def firstSet (patch : JobDetailsPatch) (job : JobDetails) : JobDetails :=
  { job with
    name := valueOf (patch.name.map normalizeRequiredName) job.name
    description := patched (patch.description.map normalizeOptionalText) job.description
    sessionTarget := sessionTargetOf patch job
    wakeMode := patched patch.wakeMode job.wakeMode }

def mergedSet (patch : JobDetailsPatch) (job : JobDetails) : JobDetails :=
  { firstSet patch job with
    payload := payloadOf patch job
    delivery := mergedDelivery patch job
    failureAlert :=
      patched (patch.failureAlert.map (mergeCronFailureAlert job.failureAlert)) job.failureAlert }

def lastSet (env : PatchEnv) (patch : JobDetailsPatch) (job : JobDetails) : JobDetails :=
  { mergedSet patch job with
    delivery := settledDelivery patch job
    agentId := agentIdOf env patch job
    sessionKey := patched (patch.sessionKey.map normalizeOptionalText) job.sessionKey }

/-- The steps of the merge, each under the checks before it. -/
theorem patchDetails_cases (env : PatchEnv) (patch : JobDetailsPatch) (job : JobDetails) :
    (∃ err, errorOf (patch.name.map normalizeRequiredName) = some err ∧
      patchDetails env patch job = (job, some err)) ∨
    errorOf (patch.name.map normalizeRequiredName) = none ∧
      ((∃ err, errorOf (patch.payload.map (mergeCronPayload job.payload)) = some err ∧
        patchDetails env patch job = (firstSet patch job, some err)) ∨
      errorOf (patch.payload.map (mergeCronPayload job.payload)) = none ∧
        (hasDestinationOfMain patch job = true ∧
          patchDetails env patch job = (mergedSet patch job, some .destinationOfMain) ∨
        hasDestinationOfMain patch job = false ∧
          patchDetails env patch job =
            ({ lastSet env patch job with delivery := (assertJob env (lastSet env patch job)).1 },
              (assertJob env (lastSet env patch job)).2))) := by
  obtain ⟨err, herr, hname⟩ | ⟨hok, hname⟩ :=
    patched_cases (patch.name.map normalizeRequiredName) job.name
  · exact .inl ⟨err, herr, by simp only [patchDetails, hname]⟩
  refine .inr ⟨hok, ?_⟩
  obtain ⟨err, herr, hpayload⟩ | ⟨hok', hpayload⟩ :=
    patched_cases (patch.payload.map (mergeCronPayload job.payload)) job.payload
  · exact .inl ⟨err, herr, by simp only [patchDetails, hname, hpayload]; rfl⟩
  refine .inr ⟨hok', ?_⟩
  cases hmain : hasDestinationOfMain patch job with
  | true =>
    have hcheck := (Bool.and_eq_true ..).mp hmain
    refine .inl ⟨rfl, ?_⟩
    simp only [patchDetails, hname, hpayload]
    rw [if_pos]
    · rfl
    · exact hcheck
  | false =>
    refine .inr ⟨rfl, ?_⟩
    simp only [patchDetails, hname, hpayload]
    rw [if_neg]
    · rfl
    · exact fun hcheck => Bool.false_ne_true (hmain.symm.trans ((Bool.and_eq_true _ _).mpr hcheck))

theorem errorOf_name {field : Option (Option Text)}
    (h : errorOf (field.map normalizeRequiredName) = some err) : err = .nameRequired := by
  cases field with
  | none => cases h
  | some raw =>
    simp only [Option.map_some, normalizeRequiredName] at h
    cases hname : trimmed? raw with
    | none =>
      rw [hname] at h
      exact (Option.some.inj h).symm
    | some name =>
      rw [hname] at h
      cases h

theorem buildPayloadFromPatch_error {patch : CronPayloadPatch}
    (h : buildPayloadFromPatch patch = .error err) : err = .textRequired ∨ err = .messageRequired := by
  cases patch with
  | systemEvent text =>
    simp only [buildPayloadFromPatch] at h
    split at h
    · cases h
    · exact .inl (Except.error.inj h).symm
  | agentTurn turn =>
    simp only [buildPayloadFromPatch] at h
    split at h
    · cases h
    · exact .inr (Except.error.inj h).symm

theorem errorOf_payload {field : Option CronPayloadPatch}
    (h : errorOf (field.map (mergeCronPayload existing)) = some err) :
    err = .textRequired ∨ err = .messageRequired := by
  cases field with
  | none => cases h
  | some patch =>
    have herr : mergeCronPayload existing patch = .error err := by
      simp only [Option.map_some, errorOf] at h
      split at h
      · rename_i heq
        obtain rfl := Option.some.inj h
        exact Option.some.inj heq
      · cases h
      · cases h
    cases existing with
    | systemEvent text =>
      cases patch with
      | systemEvent text => cases herr
      | agentTurn turn =>
        rw [mergeCronPayload] at herr
        exact buildPayloadFromPatch_error herr
    | agentTurn turn =>
      cases patch with
      | systemEvent text =>
        rw [mergeCronPayload] at herr
        exact buildPayloadFromPatch_error herr
      | agentTurn turn => cases herr

-- ---
-- The assertions
-- ---

theorem assertSupportedJobSpec_error {sessionTarget : CronSessionTarget} {payload : CronPayload}
    (h : assertSupportedJobSpec sessionTarget payload = some err) :
    err = .payloadOfMain ∨ err = .payloadOfIsolated := by
  unfold assertSupportedJobSpec at h
  split at h
  · exact .inl (Option.some.inj h).symm
  · exact .inr (Option.some.inj h).symm
  · cases h
  · cases h

theorem assertMainSessionAgentId_error {sessionTarget : CronSessionTarget} {agentId : Option Text}
    (h : assertMainSessionAgentId env sessionTarget agentId = some err) :
    ∃ agentId, err = .agentOfMain agentId := by
  unfold assertMainSessionAgentId at h
  split at h
  · cases h
  · split at h
    · cases h
    · split at h
      · exact ⟨_, (Option.some.inj h).symm⟩
      · cases h

/-- Either nothing is written, or the URL of a webhook is and nothing is thrown. -/
theorem assertDeliverySupport_cases (env : PatchEnv) (sessionTarget : CronSessionTarget)
    (delivery : Option CronDelivery) :
    (assertDeliverySupport env sessionTarget delivery).1 = delivery ∧
        (∀ err, (assertDeliverySupport env sessionTarget delivery).2 = some err →
          err = .webhookUrl ∨ err = .channelOfMain) ∨
      ∃ webhook target, delivery = some webhook ∧ webhook.mode = .webhook ∧
        assertDeliverySupport env sessionTarget delivery =
          (some { webhook with «to» := some target }, none) := by
  cases delivery with
  | none => exact .inl ⟨rfl, fun err h => by cases h⟩
  | some delivery =>
    cases hmode : delivery.mode with
    | none =>
      refine .inl ?_
      simp only [assertDeliverySupport, hmode]
      exact ⟨trivial, fun err h => by cases h⟩
    | webhook =>
      cases hurl : normalizeHttpWebhookUrl env delivery.«to» with
      | none =>
        refine .inl ?_
        simp only [assertDeliverySupport, hmode, hurl]
        exact ⟨trivial, fun err h => .inl (Option.some.inj h).symm⟩
      | some target =>
        exact .inr ⟨delivery, target, rfl, hmode, by simp only [assertDeliverySupport, hmode, hurl]⟩
    | announce =>
      refine .inl ?_
      simp only [assertDeliverySupport, hmode]
      refine ⟨trivial, fun err h => ?_⟩
      split at h
      · cases h
      · exact .inr (Option.some.inj h).symm

/-- A delivery that is refused is left as it is. -/
theorem assertDeliverySupport_error {sessionTarget : CronSessionTarget}
    {delivery : Option CronDelivery}
    (h : (assertDeliverySupport env sessionTarget delivery).2 = some err) :
    (err = .webhookUrl ∨ err = .channelOfMain) ∧
      (assertDeliverySupport env sessionTarget delivery).1 = delivery := by
  obtain ⟨hkept, herr⟩ | ⟨webhook, target, -, -, hwritten⟩ :=
    assertDeliverySupport_cases env sessionTarget delivery
  · exact ⟨herr err h, hkept⟩
  · rw [hwritten] at h
    cases h

theorem assertFailureDestinationSupport_error {sessionTarget : CronSessionTarget}
    {delivery : Option CronDelivery}
    (h : (assertFailureDestinationSupport env sessionTarget delivery).2 = some err) :
    (err = .failureDestinationOfMain ∨ err = .failureWebhookUrl) ∧
      (assertFailureDestinationSupport env sessionTarget delivery).1 = delivery := by
  unfold assertFailureDestinationSupport at h ⊢
  cases delivery with
  | none => cases h
  | some delivery =>
    cases hdestination : delivery.failureDestination with
    | none =>
      simp only [hdestination] at h
      cases h
    | some destination =>
      simp only [hdestination] at h ⊢
      by_cases hmain : sessionTarget = .main ∧ delivery.mode ≠ .webhook
      · rw [if_pos hmain] at h ⊢
        exact ⟨.inl (Option.some.inj h).symm, rfl⟩
      · rw [if_neg hmain] at h ⊢
        by_cases hmode : destination.mode ≠ some .webhook
        · rw [if_pos hmode] at h
          cases h
        · rw [if_neg hmode] at h ⊢
          cases hurl : normalizeHttpWebhookUrl env destination.«to» with
          | none =>
            rw [hurl] at h
            exact ⟨.inr (Option.some.inj h).symm, rfl⟩
          | some target =>
            rw [hurl] at h
            cases h

/-- Trimming the URL of a delivery does not matter to its failure destination. -/
theorem assertFailureDestinationSupport_trimmed (env : PatchEnv)
    (sessionTarget : CronSessionTarget) (delivery : Option CronDelivery) :
    (assertFailureDestinationSupport env sessionTarget
        (assertDeliverySupport env sessionTarget delivery).1).2 =
      (assertFailureDestinationSupport env sessionTarget delivery).2 := by
  obtain ⟨hkept, -⟩ | ⟨webhook, target, rfl, hmode, hwritten⟩ :=
    assertDeliverySupport_cases env sessionTarget delivery
  · rw [hkept]
  · rw [hwritten]
    simp only [assertFailureDestinationSupport]
    cases webhook.failureDestination with
    | none => rfl
    | some destination =>
      simp only [hmode, ne_eq, not_true_eq_false, and_false, if_false]
      split
      · rfl
      · cases normalizeHttpWebhookUrl env destination.«to» with
        | none => rfl
        | some target => rfl

theorem assertJob_refused (env : PatchEnv) (job : JobDetails) :
    (assertJob env job).2 = (assertSupportedJobSpec job.sessionTarget job.payload).or
      ((assertMainSessionAgentId env job.sessionTarget job.agentId).or
      ((assertDeliverySupport env job.sessionTarget job.delivery).2.or
      (assertFailureDestinationSupport env job.sessionTarget job.delivery).2)) := by
  rw [← Option.or_assoc, ← assertFailureDestinationSupport_trimmed]
  unfold assertJob
  cases (assertSupportedJobSpec job.sessionTarget job.payload).or
      (assertMainSessionAgentId env job.sessionTarget job.agentId) with
  | some err => rfl
  | none =>
    cases hdelivery : assertDeliverySupport env job.sessionTarget job.delivery with
    | mk delivery thrown =>
      cases thrown with
      | some err => rfl
      | none => rfl

/-- The delivery a refusing assertion leaves. -/
theorem assertJob_delivery {job : JobDetails} (h : (assertJob env job).2 = some err) :
    err.stage = .assertion ∧ (assertJob env job).1 =
      if err = .failureDestinationOfMain ∨ err = .failureWebhookUrl then
        (assertDeliverySupport env job.sessionTarget job.delivery).1
      else job.delivery := by
  unfold assertJob at h ⊢
  cases hfirst : (assertSupportedJobSpec job.sessionTarget job.payload).or
      (assertMainSessionAgentId env job.sessionTarget job.agentId) with
  | some err' =>
    simp only [hfirst] at h ⊢
    obtain rfl := Option.some.inj h
    rcases Option.or_eq_some_iff.mp hfirst with hspec | ⟨-, hagent⟩
    · rcases assertSupportedJobSpec_error hspec with rfl | rfl
      · exact ⟨rfl, rfl⟩
      · exact ⟨rfl, rfl⟩
    · obtain ⟨agentId, rfl⟩ := assertMainSessionAgentId_error hagent
      exact ⟨rfl, by simp⟩
  | none =>
    simp only [hfirst] at h ⊢
    cases hdelivery : assertDeliverySupport env job.sessionTarget job.delivery with
    | mk delivery thrown =>
      cases thrown with
      | some err' =>
        simp only [hdelivery] at h ⊢
        obtain rfl := Option.some.inj h
        obtain ⟨herr, hkept⟩ := assertDeliverySupport_error (congrArg Prod.snd hdelivery)
        rw [hdelivery] at hkept
        rcases herr with rfl | rfl
        · exact ⟨rfl, hkept⟩
        · exact ⟨rfl, hkept⟩
      | none =>
        simp only [hdelivery] at h ⊢
        obtain ⟨herr, hkept⟩ := assertFailureDestinationSupport_error h
        rw [if_pos herr]
        refine ⟨?_, hkept⟩
        rcases herr with rfl | rfl
        · rfl
        · rfl

-- ---
-- A refused patch
-- ---

/-- The fields as they are when a check refuses. -/
def detailsAt (env : PatchEnv) (patch : JobDetailsPatch) (job : JobDetails) (err : PatchError) :
    JobDetails :=
  match err with
  | .nameRequired => job
  | .textRequired | .messageRequired => firstSet patch job
  | .destinationOfMain => mergedSet patch job
  | .payloadOfMain | .payloadOfIsolated | .agentOfMain _ | .webhookUrl | .channelOfMain
  | .failureDestinationOfMain | .failureWebhookUrl =>
    { lastSet env patch job with delivery := deliveryAt env patch job err }

theorem patchDetails_thrown (env : PatchEnv) (patch : JobDetailsPatch) (job : JobDetails) :
    (patchDetails env patch job).2 = refusedBy env patch job := by
  unfold refusedBy
  obtain ⟨err, hname, h⟩ | ⟨hname, ⟨err, hpayload, h⟩ | ⟨hpayload, ⟨hmain, h⟩ | ⟨hmain, h⟩⟩⟩ :=
    patchDetails_cases env patch job
  · rw [h, hname, Option.some_or]
  · rw [h, hname, hpayload, Option.none_or, Option.some_or]
  · rw [h, hname, hpayload, if_pos hmain, Option.none_or, Option.none_or, Option.some_or]
  · rw [h, hname, hpayload, hmain, if_neg Bool.false_ne_true, Option.none_or, Option.none_or,
      Option.none_or]
    exact assertJob_refused env (lastSet env patch job)

theorem patchDetails_refused (h : refusedBy env patch job = some err) :
    (patchDetails env patch job).1 = detailsAt env patch job err ∧
      (err.stage ≠ .name → errorOf (patch.name.map normalizeRequiredName) = none) ∧
      (err.stage = .assertion ∨ err = .destinationOfMain →
        errorOf (patch.payload.map (mergeCronPayload job.payload)) = none) := by
  rw [← patchDetails_thrown] at h
  obtain ⟨err', hname, hjob⟩ | ⟨hname, ⟨err', hpayload, hjob⟩ | ⟨hpayload, ⟨hmain, hjob⟩ | ⟨hmain, hjob⟩⟩⟩ :=
    patchDetails_cases env patch job
  · rw [hjob] at h ⊢
    obtain rfl := Option.some.inj h
    obtain rfl := errorOf_name hname
    exact ⟨rfl, fun hne => absurd rfl hne, fun hlate => by rcases hlate with h | h <;> cases h⟩
  · rw [hjob] at h ⊢
    obtain rfl := Option.some.inj h
    rcases errorOf_payload hpayload with rfl | rfl
    · exact ⟨rfl, fun _ => hname, fun hlate => by rcases hlate with h | h <;> cases h⟩
    · exact ⟨rfl, fun _ => hname, fun hlate => by rcases hlate with h | h <;> cases h⟩
  · rw [hjob] at h ⊢
    obtain rfl := Option.some.inj h
    exact ⟨rfl, fun _ => hname, fun _ => hpayload⟩
  · rw [hjob] at h ⊢
    obtain ⟨hstage, hdelivery⟩ := assertJob_delivery h
    refine ⟨?_, fun _ => hname, fun _ => hpayload⟩
    rw [hdelivery]
    cases err with
    | nameRequired | textRequired | messageRequired | destinationOfMain => cases hstage
    | failureDestinationOfMain | failureWebhookUrl => rfl
    | payloadOfMain | payloadOfIsolated | webhookUrl | channelOfMain => rfl
    | agentOfMain agentId =>
      rw [if_neg (by rintro (h | h) <;> cases h)]
      rfl

end

-- ---
-- What is kept
-- ---

section
variable {env : PatchEnv} {patch : JobPatch} {job : CronJob JobDetails}

/-- What a patch sets besides the details. -/
def setAround (patch : JobPatch) (job : CronJob JobDetails) (details : JobDetails)
    (state : CronJobState) : CronJob JobDetails :=
  { job with
    details
    enabled := patch.enabled.getD job.enabled
    deleteAfterRun := patch.deleteAfterRun <|> job.deleteAfterRun
    schedule := (patch.schedule.map (patchSchedule job.schedule)).getD job.schedule
    state }

theorem setAround_eq_iff (details : JobDetails) (state : CronJobState) :
    setAround patch job details state = job ↔
      (Keeps patch.enabled job.enabled ∧ Keeps (patch.deleteAfterRun.map some) job.deleteAfterRun ∧
        Keeps (patch.schedule.map (patchSchedule job.schedule)) job.schedule) ∧
      details = job.details ∧ state = job.state := by
  rw [← patched_eq_iff, ← or_eq_iff, ← patched_eq_iff]
  obtain ⟨id, enabled, deleteAfterRun, createdAtMs, updatedAtMs, schedule, jobState, jobDetails⟩ := job
  simp only [setAround, patched, CronJob.mk.injEq, true_and]
  constructor
  · rintro ⟨henabled, hdelete, hschedule, hstate, hdetails⟩
    exact ⟨⟨henabled, hdelete, hschedule⟩, hdetails, hstate⟩
  · rintro ⟨⟨henabled, hdelete, hschedule⟩, hdetails, hstate⟩
    exact ⟨henabled, hdelete, hschedule, hstate, hdetails⟩

theorem firstSet_eq_iff {patch : JobDetailsPatch} {job : JobDetails}
    (hname : errorOf (patch.name.map normalizeRequiredName) = none) :
    firstSet patch job = job ↔
      Keeps (patch.name.map normalizeRequiredName) (.ok job.name) ∧
      Keeps (patch.description.map normalizeOptionalText) job.description ∧
      Keeps patch.sessionTarget job.sessionTarget ∧ Keeps patch.wakeMode job.wakeMode := by
  rw [← valueOf_eq_iff hname, ← patched_eq_iff, ← patched_eq_iff, ← patched_eq_iff]
  obtain ⟨agentId, sessionKey, name, description, sessionTarget, wakeMode, payload, delivery,
    failureAlert⟩ := job
  simp only [firstSet, sessionTargetOf, JobDetails.mk.injEq, true_and, and_true]

theorem mergedSet_eq_iff {patch : JobDetailsPatch} {job : JobDetails}
    (hpayload : errorOf (patch.payload.map (mergeCronPayload job.payload)) = none) :
    mergedSet patch job = job ↔ firstSet patch job = job ∧
      (Keeps (patch.payload.map (mergeCronPayload job.payload)) (.ok job.payload) ∧
        Keeps (patch.failureAlert.map (mergeCronFailureAlert job.failureAlert)) job.failureAlert) ∧
      mergedDelivery patch job = job.delivery := by
  rw [← valueOf_eq_iff hpayload, ← patched_eq_iff]
  obtain ⟨agentId, sessionKey, name, description, sessionTarget, wakeMode, payload, delivery,
    failureAlert⟩ := job
  simp only [mergedSet, firstSet, payloadOf, JobDetails.mk.injEq, true_and, and_true]
  tauto

theorem lastSet_eq_iff {patch : JobDetailsPatch} {job : JobDetails} (delivery : Option CronDelivery)
    (hpayload : errorOf (patch.payload.map (mergeCronPayload job.payload)) = none) :
    { lastSet env patch job with delivery } = job ↔ firstSet patch job = job ∧
      (Keeps (patch.payload.map (mergeCronPayload job.payload)) (.ok job.payload) ∧
        Keeps (patch.failureAlert.map (mergeCronFailureAlert job.failureAlert)) job.failureAlert) ∧
      (Keeps (patch.agentId.map (normalizeOptionalAgentId env.lower)) job.agentId ∧
        Keeps (patch.sessionKey.map normalizeOptionalText) job.sessionKey) ∧
      delivery = job.delivery := by
  rw [← valueOf_eq_iff hpayload, ← patched_eq_iff, ← patched_eq_iff, ← patched_eq_iff]
  obtain ⟨agentId, sessionKey, name, description, sessionTarget, wakeMode, payload, jobDelivery,
    failureAlert⟩ := job
  simp only [lastSet, mergedSet, firstSet, payloadOf, agentIdOf, JobDetails.mk.injEq, true_and,
    and_true]
  tauto

theorem firstKept_iff : FirstKept patch job ↔
    (Keeps patch.enabled job.enabled ∧ Keeps (patch.deleteAfterRun.map some) job.deleteAfterRun ∧
      Keeps (patch.schedule.map (patchSchedule job.schedule)) job.schedule) ∧
    Keeps (patch.name.map normalizeRequiredName) (.ok job.details.name) ∧
    Keeps (patch.description.map normalizeOptionalText) job.details.description ∧
    Keeps patch.sessionTarget job.details.sessionTarget ∧
    Keeps patch.wakeMode job.details.wakeMode := by
  constructor
  · rintro ⟨hname, hdescription, henabled, hdelete, hschedule, htarget, hwake⟩
    exact ⟨⟨henabled, hdelete, hschedule⟩, hname, hdescription, htarget, hwake⟩
  · rintro ⟨⟨henabled, hdelete, hschedule⟩, hname, hdescription, htarget, hwake⟩
    exact ⟨hname, hdescription, henabled, hdelete, hschedule, htarget, hwake⟩

theorem toCronJobPatch_details (env : PatchEnv) (patch : JobPatch) (job : JobDetails) :
    (patch.toCronJobPatch env).details job =
      ((patchDetails env patch.toJobDetailsPatch job).1,
        (refusedBy env patch.toJobDetailsPatch job).map PatchError.stage) := by
  rw [← patchDetails_thrown]
  rfl

/-- A job as far as a patch was merged into it. -/
def jobAt (env : PatchEnv) (patch : JobPatch) (job : CronJob JobDetails) (err : PatchError) :
    CronJob JobDetails :=
  let details := detailsAt env patch.toJobDetailsPatch job.details err
  match err.stage with
  | .name => job
  | .merge => setAround patch job details job.state
  | .assertion => setAround patch job details ((patch.state.getD id) job.state)

theorem applyJobPatch_refused
    (h : refusedBy env patch.toJobDetailsPatch job.details = some err) :
    applyJobPatch job (patch.toCronJobPatch env) = (jobAt env patch job err, false) := by
  obtain ⟨hdetails, -⟩ := patchDetails_refused h
  unfold applyJobPatch jobAt
  rw [toCronJobPatch_details, h, hdetails]
  cases hstage : err.stage with
  | name => simp [hstage]
  | merge => simp [hstage, setAround, JobPatch.toCronJobPatch]
  | assertion => simp [hstage, setAround, JobPatch.toCronJobPatch, CronJob.setState]

theorem applyJobPatch_accepted (h : refusedBy env patch.toJobDetailsPatch job.details = none) :
    (applyJobPatch job (patch.toCronJobPatch env)).2 = true := by
  unfold applyJobPatch
  rw [toCronJobPatch_details, h]
  simp

theorem state_eq_iff {state : CronJobState} {f : Option (CronJobState → CronJobState)} :
    (f.getD id) state = state ↔ Keeps (f.map (· state)) state := by
  cases f with
  | none => simp [Keeps]
  | some f => simp [Keeps]

/-- A patch that is refused leaves the job as it was exactly if every field it set before the
check that refuses has the value it had. -/
theorem applyJobPatch_kept_iff (h : refusedBy env patch.toJobDetailsPatch job.details = some err) :
    (applyJobPatch job (patch.toCronJobPatch env)).1 = job ↔ KeptUpTo env patch job err := by
  obtain ⟨-, hname, hpayload⟩ := patchDetails_refused h
  rw [applyJobPatch_refused h]
  cases err with
  | nameRequired => simp [jobAt, PatchError.stage, KeptUpTo, deliveryAt]
  | textRequired | messageRequired =>
    simp only [jobAt, PatchError.stage, KeptUpTo, deliveryAt, detailsAt, true_and]
    rw [setAround_eq_iff, firstSet_eq_iff (hname (by simp [PatchError.stage])), firstKept_iff]
    simp only [and_true]
  | destinationOfMain =>
    simp only [jobAt, PatchError.stage, KeptUpTo, deliveryAt, detailsAt]
    rw [setAround_eq_iff, mergedSet_eq_iff (hpayload (.inr rfl)),
      firstSet_eq_iff (hname (by simp [PatchError.stage])), firstKept_iff]
    constructor
    · rintro ⟨haround, ⟨hfirst, ⟨hpayload, halert⟩, hdelivery⟩, -⟩
      exact ⟨hdelivery, ⟨haround, hfirst⟩, hpayload, halert⟩
    · rintro ⟨hdelivery, ⟨haround, hfirst⟩, hpayload, halert⟩
      exact ⟨haround, ⟨hfirst, ⟨hpayload, halert⟩, hdelivery⟩, rfl⟩
  | payloadOfMain | payloadOfIsolated | agentOfMain agentId | webhookUrl | channelOfMain
  | failureDestinationOfMain | failureWebhookUrl =>
    simp only [jobAt, PatchError.stage, KeptUpTo, detailsAt]
    rw [setAround_eq_iff, lastSet_eq_iff _ (hpayload (.inl rfl)),
      firstSet_eq_iff (hname (by simp [PatchError.stage])), firstKept_iff, state_eq_iff]
    constructor
    · rintro ⟨haround, ⟨hfirst, ⟨hpayload, halert⟩, ⟨hagent, hkey⟩, hdelivery⟩, hstate⟩
      exact ⟨hdelivery, ⟨haround, hfirst⟩, ⟨hpayload, halert⟩, hstate, hagent, hkey⟩
    · rintro ⟨hdelivery, ⟨haround, hfirst⟩, ⟨hpayload, halert⟩, hstate, hagent, hkey⟩
      exact ⟨haround, ⟨hfirst, ⟨hpayload, halert⟩, ⟨hagent, hkey⟩, hdelivery⟩, hstate⟩

theorem loaded_load (s : CronService D) : s.load.loaded = s.loaded := by
  unfold CronService.load CronService.loaded
  cases hstore : s.store with
  | none => rfl
  | some jobs => simp [hstore]

/-- What a refused update leaves in the store. -/
theorem jobOf_update (deps : CronDeps JobDetails) (s : CronService JobDetails) {id : String}
    (nowMs : Int)
    (hjob : jobOf id s.loaded = some job)
    (hrefused : (applyJobPatch job (patch.toCronJobPatch env)).2 = false) :
    jobOf id (s.update deps id (patch.toCronJobPatch env) nowMs).loaded =
      some (applyJobPatch job (patch.toCronJobPatch env)).1 := by
  have hthrows : updatedJob deps (patch.toCronJobPatch env) nowMs job =
      ((applyJobPatch job (patch.toCronJobPatch env)).1, false) := by
    simp [updatedJob, hrefused]
  have hfound : s.load.loaded.find? (·.id = id) = some job := by
    rw [loaded_load]
    exact hjob
  unfold CronService.update
  simp only [hfound, hthrows, Bool.false_eq_true, if_false]
  change jobOf id (updateJob id _ s.load.loaded) = _
  rw [jobOf_updateJob (updatedJob_id deps _ _), loaded_load, hjob, Option.map_some, hthrows]

/-- A job in the store stays as it was when `applyJobPatch` throws exactly if every field that
is set before the check that throws is left out of the patch or has the value it had. -/
theorem update_atomic_iff (deps : CronDeps JobDetails) (env : PatchEnv)
    (s : CronService JobDetails) (id : String) (patch : JobPatch) (nowMs : Int)
    (job : CronJob JobDetails) (hjob : jobOf id s.loaded = some job) :
    ((applyJobPatch job (patch.toCronJobPatch env)).2 = false →
        jobOf id (s.update deps id (patch.toCronJobPatch env) nowMs).loaded = some job) ↔
      ∀ err, refusedBy env patch.toJobDetailsPatch job.details = some err →
        KeptUpTo env patch job err := by
  cases hrefused : refusedBy env patch.toJobDetailsPatch job.details with
  | none =>
    rw [applyJobPatch_accepted hrefused]
    constructor
    · intro _ err herr
      cases herr
    · intro _ hthrown
      cases hthrown
  | some err =>
    have hthrown : (applyJobPatch job (patch.toCronJobPatch env)).2 = false := by
      rw [applyJobPatch_refused hrefused]
    rw [jobOf_update deps s nowMs hjob hthrown, Option.some_inj, applyJobPatch_kept_iff hrefused]
    constructor
    · intro h err' herr'
      obtain rfl := Option.some.inj herr'
      exact h hthrown
    · exact fun h _ => h err rfl

end

section

def reportJob : CronJob JobDetails where
  id := "job"
  enabled := true
  deleteAfterRun := none
  createdAtMs := some (.ofInt 0)
  updatedAtMs := 0
  schedule := .every (some (.num (.ofInt 60000))) (some (.num (.ofInt 0)))
  state := plainState
  details := {
    agentId := none
    sessionKey := none
    name := "report".toList
    description := none
    sessionTarget := .isolated
    wakeMode := .now
    payload := .agentTurn ⟨"report".toList, none, none, none, none, none, none, none, none⟩
    delivery := some ⟨.announce, none, none, none, none, none, none⟩
    failureAlert := none }

/-- `{ sessionTarget }` -/
def retarget (sessionTarget : CronSessionTarget) : JobPatch where
  name := none
  description := none
  sessionTarget := some sessionTarget
  wakeMode := none
  payload := none
  delivery := none
  failureAlert := none
  agentId := none
  sessionKey := none
  enabled := none
  deleteAfterRun := none
  schedule := none
  state := none

def plainPatchEnv : PatchEnv where
  lower := .simple
  defaultAgentId := none
  isHttpUrl _ := false

def detailedDeps : CronDeps JobDetails where
  toScheduleEnv := plainDeps.toScheduleEnv
  cronEnabled := true
  maxConcurrentRuns := none
  maxMissedJobsPerRestart := none
  missedJobStaggerMs := none
  retry := ⟨none, [], []⟩
  check := .ok

def reportService : CronService JobDetails where
  store := some [reportJob]
  generation := 0
  file := [reportJob]
  tick := .idle
  timer := true
  batches := []
  preflights := []
  starts := []
  maintained := []

/-- The main session does not take an agent turn: the patch is refused, and the job is a job
of the main session without a delivery. -/
theorem not_update_atomic :
    ¬ ∀ (deps : CronDeps JobDetails) (env : PatchEnv) (s : CronService JobDetails) (id : String)
      (patch : JobPatch) (nowMs : Int) (job : CronJob JobDetails), jobOf id s.loaded = some job →
      (applyJobPatch job (patch.toCronJobPatch env)).2 = false →
      jobOf id (s.update deps id (patch.toCronJobPatch env) nowMs).loaded = some job := by
  intro h
  have hkept := h detailedDeps plainPatchEnv reportService "job" (retarget .main) 0 reportJob rfl rfl
  have htarget := congrArg (Option.map fun job => job.details.sessionTarget) hkept
  cases htarget

/-- A patch with a blank name is refused before it sets anything. -/
theorem update_atomic_unnamed :
    let patch := { retarget .main with name := some (some " ".toList) }.toCronJobPatch plainPatchEnv
    (applyJobPatch reportJob patch).2 = false ∧
      jobOf "job" (reportService.update detailedDeps "job" patch 0).loaded = some reportJob := by
  refine ⟨rfl, (update_atomic_iff detailedDeps plainPatchEnv reportService "job"
    { retarget .main with name := some (some " ".toList) } 0 reportJob rfl).mpr ?_ rfl⟩
  rintro err herr
  obtain rfl : PatchError.nameRequired = err := Option.some.inj herr
  exact ⟨rfl, trivial⟩

end

end OpenClaw.Cron
