import OpenClaw.Cron.Service.Jobs
import OpenClaw.Routing.SessionKey

/-!
# The rest of a job

Name, target, payload, delivery and failure alert of a job, how a patch of them is merged
field by field into the stored job, and the assertions that follow. What `new URL` accepts
is a parameter.
-/

namespace OpenClaw.Cron

open Js

inductive CronSessionTarget where
  | main
  | isolated
  | current
  | session (key : Text)
  deriving DecidableEq

inductive CronWakeMode where
  | nextHeartbeat
  | now
  deriving DecidableEq

inductive DestinationMode where
  | announce
  | webhook
  deriving DecidableEq

inductive CronDeliveryMode where
  | none
  | announce
  | webhook
  deriving DecidableEq

inductive ThreadId where
  | text (value : Text)
  | number (value : Number)
  deriving DecidableEq

structure CronFailureDestination where
  channel : Option Text
  «to» : Option Text
  accountId : Option Text
  mode : Option DestinationMode
  deriving DecidableEq

structure CronDelivery where
  mode : CronDeliveryMode
  channel : Option Text
  «to» : Option Text
  threadId : Option ThreadId
  accountId : Option Text
  bestEffort : Option Bool
  failureDestination : Option CronFailureDestination
  deriving DecidableEq

structure CronFailureAlert where
  after : Option Number
  channel : Option Text
  «to» : Option Text
  cooldownMs : Option Number
  mode : Option DestinationMode
  accountId : Option Text
  deriving DecidableEq

/-- `A | false` -/
inductive OrFalse (A : Type) where
  | off
  | on (value : A)
  deriving DecidableEq

structure CronAgentTurn where
  message : Text
  model : Option Text
  fallbacks : Option (List Text)
  thinking : Option Text
  timeoutSeconds : Option Number
  allowUnsafeExternalContent : Option Bool
  externalContentSource : Option Text
  lightContext : Option Bool
  toolsAllow : Option (List Text)
  deriving DecidableEq

inductive CronPayload where
  | systemEvent (text : Text)
  | agentTurn (turn : CronAgentTurn)
  deriving DecidableEq

/-- The fields of a job that the scheduler does not read. -/
structure JobDetails where
  agentId : Option Text
  sessionKey : Option Text
  name : Text
  description : Option Text
  sessionTarget : CronSessionTarget
  wakeMode : CronWakeMode
  payload : CronPayload
  delivery : Option CronDelivery
  failureAlert : Option (OrFalse CronFailureAlert)
  deriving DecidableEq

-- ---
-- Patches
-- ---

/-! A field that is tested with `in` is an option of what stands there; within it `none` is
a value that is no string. -/

structure CronFailureDestinationPatch where
  channel : Option (Option Text)
  «to» : Option (Option Text)
  accountId : Option (Option Text)
  mode : Option (Option Text)

/-- `deliver` is the old name of `announce`. -/
inductive DeliveryModePatch where
  | deliver
  | known (mode : CronDeliveryMode)

/-- A `failureDestination` of `some none` is `undefined`. -/
structure CronDeliveryPatch where
  mode : Option DeliveryModePatch
  channel : Option (Option Text)
  «to» : Option (Option Text)
  threadId : Option (Option ThreadId)
  accountId : Option (Option Text)
  bestEffort : Option Bool
  failureDestination : Option (Option CronFailureDestinationPatch)

structure CronFailureAlertPatch where
  after : Option (Option Number)
  channel : Option (Option Text)
  «to» : Option (Option Text)
  cooldownMs : Option (Option Number)
  mode : Option (Option Text)
  accountId : Option (Option Text)

/-- `toolsAllow` may be `null`, which is `some none`. -/
structure CronAgentTurnPatch where
  message : Option Text
  model : Option Text
  fallbacks : Option (List Text)
  thinking : Option Text
  timeoutSeconds : Option Number
  allowUnsafeExternalContent : Option Bool
  lightContext : Option Bool
  toolsAllow : Option (Option (List Text))

inductive CronPayloadPatch where
  | systemEvent (text : Option Text)
  | agentTurn (turn : CronAgentTurnPatch)

structure JobDetailsPatch where
  name : Option (Option Text)
  description : Option (Option Text)
  sessionTarget : Option CronSessionTarget
  wakeMode : Option CronWakeMode
  payload : Option CronPayloadPatch
  delivery : Option CronDeliveryPatch
  failureAlert : Option (Option (OrFalse CronFailureAlertPatch))
  agentId : Option (Option Text)
  sessionKey : Option (Option Text)

/-- What merging a patch takes from outside. -/
structure PatchEnv where
  lower : LowerCase
  defaultAgentId : Option Text
  /-- `new URL(text)` does not throw and its protocol is `http:` or `https:` -/
  isHttpUrl : Text → Bool

/-- What a patch is refused for. -/
inductive PatchError where
  | nameRequired
  | textRequired
  | messageRequired
  | destinationOfMain
  | payloadOfMain
  | payloadOfIsolated
  | agentOfMain (agentId : Text)
  | webhookUrl
  | channelOfMain
  | failureDestinationOfMain
  | failureWebhookUrl
  deriving DecidableEq

namespace PatchError

def message : PatchError → String
  | nameRequired => "cron job name is required"
  | textRequired => "cron.update payload.kind=\"systemEvent\" requires text"
  | messageRequired => "cron.update payload.kind=\"agentTurn\" requires message"
  | destinationOfMain | failureDestinationOfMain =>
    "cron delivery.failureDestination is only supported for sessionTarget=\"isolated\" unless delivery.mode=\"webhook\""
  | payloadOfMain => "main cron jobs require payload.kind=\"systemEvent\""
  | payloadOfIsolated => "isolated/current/session cron jobs require payload.kind=\"agentTurn\""
  | agentOfMain agentId =>
    "cron: sessionTarget \"main\" is only valid for the default agent. Use sessionTarget \"isolated\" with payload.kind \"agentTurn\" for non-default agents (agentId: "
      ++ String.ofList agentId ++ ")"
  | webhookUrl => "cron webhook delivery requires delivery.to to be a valid http(s) URL"
  | channelOfMain => "cron channel delivery config is only supported for sessionTarget=\"isolated\""
  | failureWebhookUrl =>
    "cron failure destination webhook requires delivery.failureDestination.to to be a valid http(s) URL"

/-- How far the merge has come. -/
def stage : PatchError → PatchStage
  | nameRequired => .name
  | textRequired | messageRequired | destinationOfMain => .merge
  | payloadOfMain | payloadOfIsolated | agentOfMain _ | webhookUrl | channelOfMain
  | failureDestinationOfMain | failureWebhookUrl => .assertion

end PatchError

-- ---
-- Merging
-- ---

/-- The trimmed text, if it is not empty: `normalizeOptionalText`,
`normalizeOptionalTrimmedString` and `normalizeOptionalSessionKey`. -/
def normalizeOptionalText (raw : Option Text) : Option Text :=
  trimmed? raw

def normalizeRequiredName (raw : Option Text) : Except PatchError Text :=
  match trimmed? raw with
  | some name => .ok name
  | none => .error .nameRequired

def normalizeOptionalAgentId (lower : LowerCase) (raw : Option Text) : Option Text :=
  (trimmed? raw).map fun id => Routing.normalizeAgentId lower (some id)

def normalizeOptionalThreadId : Option ThreadId → Option ThreadId
  | some (.number (.fin n)) => some (.number (.fin n))
  | some (.text text) => (trimmed? (some text)).map .text
  | _ => none

/-- `mode === "announce" || mode === "webhook" ? mode : undefined` -/
def destinationMode? (raw : Option Text) : Option DestinationMode :=
  match trimmed? raw with
  | some mode =>
    if mode = "announce".toList then some .announce
    else if mode = "webhook".toList then some .webhook
    else none
  | none => none

/-- A field of a patch in the place of the stored one. -/
def patched (field : Option α) (stored : α) : α := field.getD stored

def buildPayloadFromPatch : CronPayloadPatch → Except PatchError CronPayload
  | .systemEvent text =>
    match text.filter (· ≠ []) with
    | some text => .ok (.systemEvent text)
    | none => .error .textRequired
  | .agentTurn patch =>
    match patch.message.filter (· ≠ []) with
    | some message => .ok (.agentTurn {
        message
        model := patch.model
        fallbacks := patch.fallbacks
        thinking := patch.thinking
        timeoutSeconds := patch.timeoutSeconds
        allowUnsafeExternalContent := patch.allowUnsafeExternalContent
        externalContentSource := none
        lightContext := patch.lightContext
        toolsAllow := patch.toolsAllow.join })
    | none => .error .messageRequired

def mergeCronPayload (existing : CronPayload) (patch : CronPayloadPatch) :
    Except PatchError CronPayload :=
  match existing, patch with
  | .systemEvent existing, .systemEvent text => .ok (.systemEvent (patched text existing))
  | .agentTurn existing, .agentTurn patch => .ok (.agentTurn {
      message := patched patch.message existing.message
      model := patch.model <|> existing.model
      fallbacks := patch.fallbacks <|> existing.fallbacks
      thinking := patch.thinking <|> existing.thinking
      timeoutSeconds := patch.timeoutSeconds <|> existing.timeoutSeconds
      allowUnsafeExternalContent :=
        patch.allowUnsafeExternalContent <|> existing.allowUnsafeExternalContent
      externalContentSource := existing.externalContentSource
      lightContext := patch.lightContext <|> existing.lightContext
      toolsAllow := patched patch.toolsAllow existing.toolsAllow })
  | .systemEvent _, .agentTurn _ | .agentTurn _, .systemEvent _ => buildPayloadFromPatch patch

def mergeFailureDestination (existing : Option CronFailureDestination)
    (patch : CronFailureDestinationPatch) : CronFailureDestination where
  channel := patched (patch.channel.map trimmed?) (existing.bind (·.channel))
  «to» := patched (patch.«to».map trimmed?) (existing.bind (·.«to»))
  accountId := patched (patch.accountId.map trimmed?) (existing.bind (·.accountId))
  mode := patched (patch.mode.map destinationMode?) (existing.bind (·.mode))

def DeliveryModePatch.toMode : DeliveryModePatch → CronDeliveryMode
  | .deliver => .announce
  | .known mode => mode

def mergeCronDelivery (existing : Option CronDelivery) (patch : CronDeliveryPatch) :
    CronDelivery :=
  let stored := existing.bind (·.failureDestination)
  { mode := patched (patch.mode.map (·.toMode)) ((existing.map (·.mode)).getD .none)
    channel := patched (patch.channel.map normalizeOptionalText) (existing.bind (·.channel))
    «to» := patched (patch.«to».map normalizeOptionalText) (existing.bind (·.«to»))
    threadId := patched (patch.threadId.map normalizeOptionalThreadId) (existing.bind (·.threadId))
    accountId := patched (patch.accountId.map normalizeOptionalText) (existing.bind (·.accountId))
    bestEffort := patch.bestEffort <|> existing.bind (·.bestEffort)
    failureDestination :=
      patched (patch.failureDestination.map (·.map (mergeFailureDestination stored))) stored }

/-- `after > 0 ? Math.floor(after) : undefined` -/
def alertAfter (raw : Option Number) : Option Number :=
  match raw.bind Number.finite? with
  | some after => if 0 < after then some (.ofInt after.floor) else none
  | none => none

/-- `cooldownMs >= 0 ? Math.floor(cooldownMs) : undefined` -/
def alertCooldownMs (raw : Option Number) : Option Number :=
  match raw.bind Number.finite? with
  | some cooldownMs => if 0 ≤ cooldownMs then some (.ofInt cooldownMs.floor) else none
  | none => none

def mergeCronFailureAlert (existing : Option (OrFalse CronFailureAlert))
    (patch : Option (OrFalse CronFailureAlertPatch)) : Option (OrFalse CronFailureAlert) :=
  match patch with
  | some .off => some .off
  | none => existing
  | some (.on patch) =>
    let base : CronFailureAlert := match existing with
      | some (.on alert) => alert
      | some .off | none => ⟨none, none, none, none, none, none⟩
    some (.on {
      after := patched (patch.after.map alertAfter) base.after
      channel := patched (patch.channel.map normalizeOptionalText) base.channel
      «to» := patched (patch.«to».map normalizeOptionalText) base.«to»
      cooldownMs := patched (patch.cooldownMs.map alertCooldownMs) base.cooldownMs
      mode := patched (patch.mode.map destinationMode?) base.mode
      accountId := patched (patch.accountId.map normalizeOptionalText) base.accountId })

-- ---
-- Assertions
-- ---

def isIsolatedLike : CronSessionTarget → Bool
  | .main => false
  | .isolated | .current | .session _ => true

def assertSupportedJobSpec (sessionTarget : CronSessionTarget) (payload : CronPayload) :
    Option PatchError :=
  match isIsolatedLike sessionTarget, payload with
  | false, .agentTurn _ => some .payloadOfMain
  | true, .systemEvent _ => some .payloadOfIsolated
  | false, .systemEvent _ | true, .agentTurn _ => none

def assertMainSessionAgentId (env : PatchEnv) (sessionTarget : CronSessionTarget)
    (agentId : Option Text) : Option PatchError :=
  if sessionTarget ≠ .main then none
  else match agentId.filter (· ≠ []) with
    | none => none
    | some agentId =>
      if Routing.normalizeAgentId env.lower (some agentId) ≠
          Routing.normalizeAgentId env.lower env.defaultAgentId then some (.agentOfMain agentId)
      else none

def normalizeHttpWebhookUrl (env : PatchEnv) (value : Option Text) : Option Text :=
  (trimmed? value).filter env.isHttpUrl

/-- The delivery with its URL trimmed, and what is thrown. -/
def assertDeliverySupport (env : PatchEnv) (sessionTarget : CronSessionTarget)
    (delivery : Option CronDelivery) : Option CronDelivery × Option PatchError :=
  match delivery with
  | none => (delivery, none)
  | some job =>
    match job.mode with
    | .none => (delivery, none)
    | .webhook =>
      match normalizeHttpWebhookUrl env job.«to» with
      | none => (delivery, some .webhookUrl)
      | some target => (some { job with «to» := some target }, none)
    | .announce => (delivery, if isIsolatedLike sessionTarget then none else some .channelOfMain)

def assertFailureDestinationSupport (env : PatchEnv) (sessionTarget : CronSessionTarget)
    (delivery : Option CronDelivery) : Option CronDelivery × Option PatchError :=
  match delivery with
  | none => (delivery, none)
  | some job =>
    match job.failureDestination with
    | none => (delivery, none)
    | some destination =>
      if sessionTarget = .main ∧ job.mode ≠ .webhook then (delivery, some .failureDestinationOfMain)
      else if destination.mode ≠ some .webhook then (delivery, none)
      else match normalizeHttpWebhookUrl env destination.«to» with
        | none => (delivery, some .failureWebhookUrl)
        | some target =>
          (some { job with failureDestination := some { destination with «to» := some target } }, none)

/-- The assertions at the end of `applyJobPatch`: the delivery as they leave it, and what is
thrown. -/
def assertJob (env : PatchEnv) (job : JobDetails) : Option CronDelivery × Option PatchError :=
  match (assertSupportedJobSpec job.sessionTarget job.payload).or
      (assertMainSessionAgentId env job.sessionTarget job.agentId) with
  | some err => (job.delivery, some err)
  | none =>
    match assertDeliverySupport env job.sessionTarget job.delivery with
    | (delivery, some err) => (delivery, some err)
    | (delivery, none) => assertFailureDestinationSupport env job.sessionTarget delivery

-- ---
-- A patch
-- ---

/-- Whether a job of the main session delivers in another way than by a webhook. -/
def isMainWithoutWebhook (sessionTarget : CronSessionTarget) (delivery : Option CronDelivery) :
    Bool :=
  sessionTarget = .main && delivery.all (·.mode ≠ .webhook)

/-- The part of `applyJobPatch` that is about these fields: the job as far as it got, and
what it threw. -/
def patchDetails (env : PatchEnv) (patch : JobDetailsPatch) (job : JobDetails) :
    JobDetails × Option PatchError :=
  match patched (patch.name.map normalizeRequiredName) (.ok job.name) with
  | .error err => (job, some err)
  | .ok name =>
    let job := { job with
      name
      description := patched (patch.description.map normalizeOptionalText) job.description
      sessionTarget := patched patch.sessionTarget job.sessionTarget
      wakeMode := patched patch.wakeMode job.wakeMode }
    match patched (patch.payload.map (mergeCronPayload job.payload)) (.ok job.payload) with
    | .error err => (job, some err)
    | .ok payload =>
      let job := { job with
        payload
        delivery :=
          patched (patch.delivery.map fun patch => some (mergeCronDelivery job.delivery patch))
            job.delivery
        failureAlert :=
          patched (patch.failureAlert.map (mergeCronFailureAlert job.failureAlert)) job.failureAlert }
      if isMainWithoutWebhook job.sessionTarget job.delivery ∧
          (job.delivery.bind (·.failureDestination)).isSome then
        (job, some .destinationOfMain)
      else
        let job := { job with
          delivery :=
            if isMainWithoutWebhook job.sessionTarget job.delivery then none else job.delivery
          agentId := patched (patch.agentId.map (normalizeOptionalAgentId env.lower)) job.agentId
          sessionKey := patched (patch.sessionKey.map normalizeOptionalText) job.sessionKey }
        let (delivery, thrown) := assertJob env job
        ({ job with delivery }, thrown)

/-- A patch as a request has it. -/
structure JobPatch extends JobDetailsPatch where
  enabled : Option Bool
  deleteAfterRun : Option Bool
  schedule : Option CronSchedule
  state : Option (CronJobState → CronJobState)

def JobPatch.toCronJobPatch (env : PatchEnv) (patch : JobPatch) : CronJobPatch JobDetails where
  enabled := patch.enabled
  deleteAfterRun := patch.deleteAfterRun
  schedule := patch.schedule
  state := patch.state
  details job :=
    let (job, thrown) := patchDetails env patch.toJobDetailsPatch job
    (job, thrown.map PatchError.stage)

end OpenClaw.Cron
