import OpenClaw.Js.Text
import OpenClaw.Lib.InvertedIndex
import OpenClaw.Lib.Transition
import Mathlib.Data.List.Sort

/-!
# The task registry

The tasks of the process, with an index by run id, owner, parent flow and related
session, and the operations that create, update, cancel and delete them.
-/

namespace OpenClaw.TaskRegistry

open Js Members InvertedIndex

-- ---
-- Records
-- ---

inductive TaskRuntime where
  | subagent
  | acp
  | cli
  | cron
  deriving DecidableEq

def TaskRuntime.text : TaskRuntime → Text
  | .subagent => "subagent".toList
  | .acp => "acp".toList
  | .cli => "cli".toList
  | .cron => "cron".toList

inductive TaskStatus where
  | queued
  | running
  | succeeded
  | failed
  | timedOut
  | cancelled
  | lost
  deriving DecidableEq

inductive TaskDeliveryStatus where
  | pending
  | delivered
  | sessionQueued
  | failed
  | parentMissing
  | notApplicable
  deriving DecidableEq

inductive TaskNotifyPolicy where
  | doneOnly
  | stateChanges
  | silent
  deriving DecidableEq

inductive TaskTerminalOutcome where
  | succeeded
  | blocked
  deriving DecidableEq

inductive TaskScopeKind where
  | session
  | system
  deriving DecidableEq

def TaskScopeKind.text : TaskScopeKind → Text
  | .session => "session".toList
  | .system => "system".toList

structure TaskRecord where
  taskId : Text
  runtime : TaskRuntime
  sourceId : Option Text
  requesterSessionKey : Text
  ownerKey : Text
  scopeKind : TaskScopeKind
  childSessionKey : Option Text
  parentFlowId : Option Text
  parentTaskId : Option Text
  agentId : Option Text
  runId : Option Text
  label : Option Text
  task : Text
  status : TaskStatus
  deliveryStatus : TaskDeliveryStatus
  notifyPolicy : TaskNotifyPolicy
  createdAt : Int
  startedAt : Option Int
  endedAt : Option Int
  lastEventAt : Option Int
  cleanupAfter : Option Int
  error : Option Text
  progressSummary : Option Text
  terminalSummary : Option Text
  terminalOutcome : Option TaskTerminalOutcome
  deriving DecidableEq

/-- `Origin` is a delivery context. -/
structure TaskDeliveryState (Origin : Type) where
  taskId : Text
  requesterOrigin : Option Origin
  lastNotifiedEventAt : Option Int

/-- The members of a patch. The summaries, the error and the outcome can be patched away. -/
structure TaskPatch where
  sourceId : Option Text := none
  ownerKey : Option Text := none
  childSessionKey : Option (Option Text) := none
  parentFlowId : Option Text := none
  parentTaskId : Option Text := none
  agentId : Option Text := none
  runId : Option Text := none
  label : Option Text := none
  task : Option Text := none
  status : Option TaskStatus := none
  deliveryStatus : Option TaskDeliveryStatus := none
  notifyPolicy : Option TaskNotifyPolicy := none
  startedAt : Option Int := none
  endedAt : Option Int := none
  lastEventAt : Option Int := none
  cleanupAfter : Option Int := none
  error : Option (Option Text) := none
  progressSummary : Option (Option Text) := none
  terminalSummary : Option (Option Text) := none
  terminalOutcome : Option (Option TaskTerminalOutcome) := none
  deriving DecidableEq

/-- `{ ...current, ...patch }` -/
def TaskPatch.apply (patch : TaskPatch) (current : TaskRecord) : TaskRecord :=
  { current with
    sourceId := patch.sourceId <|> current.sourceId
    ownerKey := patch.ownerKey.getD current.ownerKey
    childSessionKey := patch.childSessionKey.getD current.childSessionKey
    parentFlowId := patch.parentFlowId <|> current.parentFlowId
    parentTaskId := patch.parentTaskId <|> current.parentTaskId
    agentId := patch.agentId <|> current.agentId
    runId := patch.runId <|> current.runId
    label := patch.label <|> current.label
    task := patch.task.getD current.task
    status := patch.status.getD current.status
    deliveryStatus := patch.deliveryStatus.getD current.deliveryStatus
    notifyPolicy := patch.notifyPolicy.getD current.notifyPolicy
    startedAt := patch.startedAt <|> current.startedAt
    endedAt := patch.endedAt <|> current.endedAt
    lastEventAt := patch.lastEventAt <|> current.lastEventAt
    cleanupAfter := patch.cleanupAfter <|> current.cleanupAfter
    error := patch.error.getD current.error
    progressSummary := patch.progressSummary.getD current.progressSummary
    terminalSummary := patch.terminalSummary.getD current.terminalSummary
    terminalOutcome := patch.terminalOutcome.getD current.terminalOutcome }

-- ---
-- Flows, store and state
-- ---

inductive TaskFlowStatus where
  | queued
  | running
  | waiting
  | blocked
  | succeeded
  | failed
  | cancelled
  | lost
  deriving DecidableEq

/-- What the registry reads of a flow. -/
structure TaskFlowRecord where
  ownerKey : Text
  status : TaskFlowStatus
  cancelRequestedAt : Option Int

/-- The saved registry: a record is saved under its own id. -/
structure TaskRegistrySnapshot (Origin : Type) where
  tasks : List TaskRecord
  deliveryStates : List (TaskDeliveryState Origin)
  nodup : (tasks.map TaskRecord.taskId).Nodup

inductive StoreWrite where
  | upsertTask (taskId : Text)
  | upsertDeliveryState (taskId : Text)
  | deleteTask (taskId : Text)
  deriving DecidableEq

/-- What an operation finds around it: the clock, the flows, what the store holds
(`none` when it can not be read) and which of its writes throw, and how a delivery
context is normalised. -/
structure Env (Origin : Type) where
  now : Int
  getTaskFlowById : Text → Option TaskFlowRecord
  loadSnapshot : Option (TaskRegistrySnapshot Origin)
  storeThrows : StoreWrite → Bool
  normalizeDeliveryContext : Option Origin → Option Origin

structure Registry (Origin : Type) where
  tasks : List (Text × TaskRecord)
  taskDeliveryStates : List (Text × TaskDeliveryState Origin)
  taskIdsByRunId : Index Text Text
  taskIdsByOwnerKey : Index Text Text
  taskIdsByParentFlowId : Index Text Text
  taskIdsByRelatedSessionKey : Index Text Text
  restoreAttempted : Bool
  listenerStarted : Bool
  /-- The tasks, as they were, of the `cancelTaskById` calls that wait. -/
  cancelling : List TaskRecord

def Registry.empty {Origin : Type} : Registry Origin := ⟨[], [], [], [], [], [], false, false, []⟩

-- ---
-- Normal forms
-- ---

def DEFAULT_TASK_RETENTION_MS : Int := 7 * 24 * 60 * 60000

def isTerminalTaskStatus (status : TaskStatus) : Bool :=
  status = .succeeded || status = .failed || status = .timedOut || status = .cancelled || status = .lost

def isTerminalFlowStatus (status : TaskFlowStatus) : Bool :=
  status = .succeeded || status = .failed || status = .cancelled || status = .lost

def normalizeOwnerKey (ownerKey : Option Text) : Option Text := trimmed? ownerKey

def normalizeSessionIndexKey (sessionKey : Option Text) : Option Text := trimmed? sessionKey

def normalizeComparableText (value : Option Text) : Text := trimChars (value.getD [])

/-- `text.replace(/\s+/g, " ")`, within a run of white space or not. -/
def collapseSpaces (inRun : Bool) : Text → Text
  | [] => []
  | c :: rest =>
    if isSpace c then if inRun then collapseSpaces true rest else ' ' :: collapseSpaces true rest
    else c :: collapseSpaces false rest

def normalizeTaskSummary (value : Option Text) : Option Text := trimmed? (value.map (collapseSpaces false))

def resolveTaskTerminalOutcome (status : TaskStatus) (terminalOutcome : Option TaskTerminalOutcome) :
    Option TaskTerminalOutcome :=
  match terminalOutcome with
  | some outcome => some outcome
  | none => if status = .succeeded then some .succeeded else none

def ensureDeliveryStatus (ownerKey : Text) (scopeKind : TaskScopeKind) : TaskDeliveryStatus :=
  if scopeKind = .system then .notApplicable
  else if trimChars ownerKey ≠ [] then .pending else .parentMissing

def ensureNotifyPolicy (notifyPolicy : Option TaskNotifyPolicy) (deliveryStatus : Option TaskDeliveryStatus)
    (ownerKey : Text) (scopeKind : TaskScopeKind) : TaskNotifyPolicy :=
  match notifyPolicy with
  | some notifyPolicy => notifyPolicy
  | none =>
    let deliveryStatus := deliveryStatus.getD (ensureDeliveryStatus ownerKey scopeKind)
    if deliveryStatus = .notApplicable then .silent else .doneOnly

-- ---
-- Indexes
-- ---

def getTaskRunIdIndexKeys (task : TaskRecord) : List Text := (trimmed? task.runId).toList

def getTaskOwnerKeyIndexKeys (task : TaskRecord) : List Text := (normalizeSessionIndexKey (some task.ownerKey)).toList

def getTaskParentFlowIdIndexKeys (task : TaskRecord) : List Text := (trimmed? task.parentFlowId).toList

def getTaskRelatedSessionIndexKeys (task : TaskRecord) : List Text :=
  OrderedSet.ofList
    ((normalizeSessionIndexKey (some task.ownerKey)).toList ++ (normalizeSessionIndexKey task.childSessionKey).toList)

section Operations

variable {Origin : Type}

def rebuildRunIdIndex (s : Registry Origin) : Registry Origin :=
  { s with taskIdsByRunId := build getTaskRunIdIndexKeys s.tasks }

def rebuildOwnerKeyIndex (s : Registry Origin) : Registry Origin :=
  { s with taskIdsByOwnerKey := build getTaskOwnerKeyIndexKeys s.tasks }

def rebuildParentFlowIdIndex (s : Registry Origin) : Registry Origin :=
  { s with taskIdsByParentFlowId := build getTaskParentFlowIdIndexKeys s.tasks }

def rebuildRelatedSessionKeyIndex (s : Registry Origin) : Registry Origin :=
  { s with taskIdsByRelatedSessionKey := build getTaskRelatedSessionIndexKeys s.tasks }

def addRunIdIndex (s : Registry Origin) (taskId : Text) (task : TaskRecord) : Registry Origin :=
  { s with taskIdsByRunId := addAll s.taskIdsByRunId (getTaskRunIdIndexKeys task) taskId }

def addOwnerKeyIndex (s : Registry Origin) (taskId : Text) (task : TaskRecord) : Registry Origin :=
  { s with taskIdsByOwnerKey := addAll s.taskIdsByOwnerKey (getTaskOwnerKeyIndexKeys task) taskId }

def deleteOwnerKeyIndex (s : Registry Origin) (taskId : Text) (task : TaskRecord) : Registry Origin :=
  { s with taskIdsByOwnerKey := deleteAll s.taskIdsByOwnerKey (getTaskOwnerKeyIndexKeys task) taskId }

def addParentFlowIdIndex (s : Registry Origin) (taskId : Text) (task : TaskRecord) : Registry Origin :=
  { s with taskIdsByParentFlowId := addAll s.taskIdsByParentFlowId (getTaskParentFlowIdIndexKeys task) taskId }

def deleteParentFlowIdIndex (s : Registry Origin) (taskId : Text) (task : TaskRecord) : Registry Origin :=
  { s with taskIdsByParentFlowId := deleteAll s.taskIdsByParentFlowId (getTaskParentFlowIdIndexKeys task) taskId }

def addRelatedSessionKeyIndex (s : Registry Origin) (taskId : Text) (task : TaskRecord) : Registry Origin :=
  { s with
    taskIdsByRelatedSessionKey := addAll s.taskIdsByRelatedSessionKey (getTaskRelatedSessionIndexKeys task) taskId }

def deleteRelatedSessionKeyIndex (s : Registry Origin) (taskId : Text) (task : TaskRecord) : Registry Origin :=
  { s with
    taskIdsByRelatedSessionKey := deleteAll s.taskIdsByRelatedSessionKey (getTaskRelatedSessionIndexKeys task) taskId }

-- ---
-- Lookups
-- ---

/-- The tasks under a key of an index. -/
def tasksUnder (s : Registry Origin) (index : Index Text Text) (key : Text) : List TaskRecord :=
  (bucket index key).filterMap fun taskId => s.tasks.lookup taskId

def getTasksByRunId (s : Registry Origin) (runId : Text) : List TaskRecord :=
  tasksUnder s s.taskIdsByRunId (trimChars runId)

/-- Newest first, and of the same time the one that was put in last. -/
def newestFirst (tasks : List TaskRecord) : List TaskRecord :=
  (tasks.zipIdx.insertionSort fun left right =>
    right.1.createdAt < left.1.createdAt ∨ (left.1.createdAt = right.1.createdAt ∧ right.2 ≤ left.2)).map Prod.fst

def listTasksFromIndex (s : Registry Origin) (index : Index Text Text) (key : Text) : List TaskRecord :=
  newestFirst (tasksUnder s index key)

def listTasksForOwnerKey (s : Registry Origin) (ownerKey : Text) : List TaskRecord :=
  match normalizeSessionIndexKey (some ownerKey) with
  | none => []
  | some key => listTasksFromIndex s s.taskIdsByOwnerKey key

def listTasksForFlowId (s : Registry Origin) (flowId : Text) : List TaskRecord :=
  match trimmed? (some flowId) with
  | none => []
  | some key => listTasksFromIndex s s.taskIdsByParentFlowId key

/-- `listTasksForSessionKey` and `listTasksForRelatedSessionKey` -/
def listTasksForRelatedSessionKey (s : Registry Origin) (sessionKey : Text) : List TaskRecord :=
  match normalizeSessionIndexKey (some sessionKey) with
  | none => []
  | some key => listTasksFromIndex s s.taskIdsByRelatedSessionKey key

def taskRunScopeKey (task : TaskRecord) : Text :=
  List.intercalate [Char.ofNat 0] [task.runtime.text, task.scopeKind.text, normalizeComparableText (some task.ownerKey),
    normalizeComparableText task.childSessionKey]

def getTasksByRunScope (s : Registry Origin) (runId : Text) (runtime : Option TaskRuntime) (sessionKey : Option Text) :
    List TaskRecord :=
  let matched := (getTasksByRunId s runId).filter fun task => runtime.all (task.runtime = ·)
  match normalizeSessionIndexKey sessionKey with
  | some sessionKey =>
    let childMatches := matched.filter fun task => normalizeSessionIndexKey task.childSessionKey = some sessionKey
    if 0 < childMatches.length then childMatches
    else
      matched.filter fun task =>
        task.scopeKind = .session ∧ normalizeSessionIndexKey (some task.ownerKey) = some sessionKey
  | none => if (OrderedSet.ofList (matched.map taskRunScopeKey)).length ≤ 1 then matched else []

def taskLookupPriority (task : TaskRecord) : Nat := if task.runtime = .cli then 1 else 0

def pickPreferredRunIdTask (matched : List TaskRecord) : Option TaskRecord :=
  (matched.insertionSort fun left right =>
    taskLookupPriority left < taskLookupPriority right ∨
      (taskLookupPriority left = taskLookupPriority right ∧ left.createdAt ≤ right.createdAt)).head?

-- ---
-- Restoring
-- ---

variable (env : Env Origin)

def restoreTaskRegistryOnce (s : Registry Origin) : Registry Origin :=
  if s.restoreAttempted then s
  else
    let s := { s with restoreAttempted := true }
    match env.loadSnapshot with
    | none => s
    | some restored =>
      if restored.tasks.length = 0 ∧ restored.deliveryStates.length = 0 then s
      else
        let s :=
          { s with
            tasks := restored.tasks.foldl (fun tasks task => assign tasks task.taskId task) s.tasks
            taskDeliveryStates :=
              restored.deliveryStates.foldl (fun states state => assign states state.taskId state) s.taskDeliveryStates }
        rebuildRelatedSessionKeyIndex (rebuildParentFlowIdIndex (rebuildOwnerKeyIndex (rebuildRunIdIndex s)))

def ensureTaskRegistryReady (s : Registry Origin) : Registry Origin :=
  { restoreTaskRegistryOnce env s with listenerStarted := true }

-- ---
-- Updating
-- ---

inductive ParentFlowLinkErrorCode where
  | scopeKindNotSession
  | parentFlowNotFound
  | ownerKeyMismatch
  | cancelRequested
  | terminal
  deriving DecidableEq

inductive TaskRegistryError where
  | ownerKeyRequired
  | parentFlowLink (code : ParentFlowLinkErrorCode) (flowId : Text) (status : Option TaskFlowStatus)
  | store
  deriving DecidableEq

def assertParentFlowLinkAllowed (ownerKey : Text) (scopeKind : TaskScopeKind) (parentFlowId : Option Text) :
    Except TaskRegistryError Unit :=
  match trimmed? parentFlowId with
  | none => .ok ()
  | some flowId =>
    if scopeKind ≠ .session then .error (.parentFlowLink .scopeKindNotSession flowId none)
    else
      match env.getTaskFlowById flowId with
      | none => .error (.parentFlowLink .parentFlowNotFound flowId none)
      | some flow =>
        if normalizeOwnerKey (some flow.ownerKey) ≠ normalizeOwnerKey (some ownerKey) then
          .error (.parentFlowLink .ownerKeyMismatch flowId none)
        else if flow.cancelRequestedAt.isSome then .error (.parentFlowLink .cancelRequested flowId (some flow.status))
        else if isTerminalFlowStatus flow.status then .error (.parentFlowLink .terminal flowId (some flow.status))
        else .ok ()

/-- The time after which a task that has ended can be dropped. -/
def stampCleanup (task : TaskRecord) (otherwise : Int) : TaskRecord :=
  if isTerminalTaskStatus task.status ∧ task.cleanupAfter = none then
    { task with cleanupAfter := some ((task.endedAt <|> task.lastEventAt).getD otherwise + DEFAULT_TASK_RETENTION_MS) }
  else task

def sessionIndexChanged (current next : TaskRecord) : Prop :=
  normalizeSessionIndexKey (some current.ownerKey) ≠ normalizeSessionIndexKey (some next.ownerKey) ∨
    normalizeSessionIndexKey current.childSessionKey ≠ normalizeSessionIndexKey next.childSessionKey

instance (current next : TaskRecord) : Decidable (sessionIndexChanged current next) :=
  inferInstanceAs (Decidable (_ ∨ _))

/-- `current.parentFlowId?.trim() !== next.parentFlowId?.trim()` -/
def parentFlowIndexChanged (current next : TaskRecord) : Prop :=
  current.parentFlowId.map trimChars ≠ next.parentFlowId.map trimChars

instance (current next : TaskRecord) : Decidable (parentFlowIndexChanged current next) :=
  inferInstanceAs (Decidable (_ ≠ _))

/-- The table and the indexes as `updateTask` leaves them. -/
def putTask (s : Registry Origin) (taskId : Text) (patch : TaskPatch) (current next : TaskRecord) : Registry Origin :=
  let s := { s with tasks := assign s.tasks taskId next }
  let s := if patch.runId.any (· ≠ []) ∧ patch.runId ≠ current.runId then rebuildRunIdIndex s else s
  let s :=
    if sessionIndexChanged current next then
      addRelatedSessionKeyIndex
        (deleteRelatedSessionKeyIndex (addOwnerKeyIndex (deleteOwnerKeyIndex s taskId current) taskId next) taskId current)
        taskId next
    else s
  if parentFlowIndexChanged current next then addParentFlowIdIndex (deleteParentFlowIdIndex s taskId current) taskId next
  else s

def updateTask (s : Registry Origin) (taskId : Text) (patch : TaskPatch) :
    Except TaskRegistryError (Option TaskRecord) × Registry Origin :=
  match s.tasks.lookup taskId with
  | none => (.ok none, s)
  | some current =>
    let next := stampCleanup (patch.apply current) env.now
    let s := putTask s taskId patch current next
    if env.storeThrows (.upsertTask taskId) then (.error .store, s) else (.ok (some next), s)

/-- One task after another, until a write throws. -/
def updateTasks (s : Registry Origin) (patchOf : TaskRecord → TaskPatch) : List TaskRecord → Registry Origin
  | [] => s
  | current :: rest =>
    let updated := updateTask env s current.taskId (patchOf current)
    match updated.1 with
    | .error _ => updated.2
    | .ok _ => updateTasks updated.2 patchOf rest

def upsertTaskDeliveryState (s : Registry Origin) (state : TaskDeliveryState Origin) :
    Except TaskRegistryError Unit × Registry Origin :=
  let current := s.taskDeliveryStates.lookup state.taskId
  let next := { state with requesterOrigin := state.requesterOrigin.bind fun origin => env.normalizeDeliveryContext (some origin) }
  if next.requesterOrigin.isNone ∧ next.lastNotifiedEventAt.isNone ∧ current.isNone then (.ok (), s)
  else
    let s := { s with taskDeliveryStates := assign s.taskDeliveryStates state.taskId next }
    if env.storeThrows (.upsertDeliveryState state.taskId) then (.error .store, s) else (.ok (), s)

-- ---
-- Creating
-- ---

structure CreateTaskParams (Origin : Type) where
  runtime : TaskRuntime
  sourceId : Option Text := none
  requesterSessionKey : Option Text := none
  ownerKey : Option Text := none
  scopeKind : Option TaskScopeKind := none
  requesterOrigin : Option Origin := none
  childSessionKey : Option Text := none
  parentFlowId : Option Text := none
  parentTaskId : Option Text := none
  agentId : Option Text := none
  runId : Option Text := none
  label : Option Text := none
  task : Text
  preferMetadata : Bool := false
  status : Option TaskStatus := none
  deliveryStatus : Option TaskDeliveryStatus := none
  notifyPolicy : Option TaskNotifyPolicy := none
  startedAt : Option Int := none
  lastEventAt : Option Int := none
  cleanupAfter : Option Int := none
  progressSummary : Option Text := none
  terminalSummary : Option Text := none
  terminalOutcome : Option TaskTerminalOutcome := none

def resolveTaskRequesterSessionKey (params : CreateTaskParams Origin) : Text :=
  match trimmed? params.requesterSessionKey with
  | some requesterSessionKey => requesterSessionKey
  | none => if params.scopeKind = some .system then [] else trimChars (params.ownerKey.getD [])

def resolveTaskScopeKind (scopeKind : Option TaskScopeKind) (requesterSessionKey : Text) : TaskScopeKind :=
  scopeKind.getD (if trimChars requesterSessionKey ≠ [] then .session else .system)

def resolveTaskOwnerKey (requesterSessionKey : Text) (ownerKey : Option Text) : Text :=
  (trimmed? ownerKey).getD (trimChars requesterSessionKey)

def findExistingTaskForCreate (s : Registry Origin) (ownerKey : Text) (scopeKind : TaskScopeKind)
    (params : CreateTaskParams Origin) : Option TaskRecord :=
  match trimmed? params.runId with
  | none => none
  | some runId =>
    let runScopeMatches := (getTasksByRunId s runId).filter fun task =>
      task.runtime = params.runtime ∧ task.scopeKind = scopeKind ∧
        normalizeComparableText (some task.ownerKey) = normalizeComparableText (some ownerKey) ∧
        normalizeComparableText task.childSessionKey = normalizeComparableText params.childSessionKey ∧
        normalizeComparableText task.parentFlowId = normalizeComparableText params.parentFlowId
    let exact := runScopeMatches.find? fun task =>
      normalizeComparableText task.label = normalizeComparableText params.label ∧
        normalizeComparableText (some task.task) = normalizeComparableText (some params.task)
    match exact with
    | some exact => some exact
    | none => if params.runtime ≠ .acp then none else pickPreferredRunIdTask runScopeMatches

/-- A text that is there, where the record has none. -/
def fillIn (value existing : Option Text) : Option Text := if (trimmed? existing).isSome then none else trimmed? value

def mergePatch (existing : TaskRecord) (params : CreateTaskParams Origin) : TaskPatch :=
  let nextLabel := trimmed? params.label
  let notifyPolicy := ensureNotifyPolicy params.notifyPolicy params.deliveryStatus existing.ownerKey existing.scopeKind
  { sourceId := fillIn params.sourceId existing.sourceId
    parentFlowId := fillIn params.parentFlowId existing.parentFlowId
    parentTaskId := fillIn params.parentTaskId existing.parentTaskId
    agentId := fillIn params.agentId existing.agentId
    label :=
      if params.preferMetadata then nextLabel.filter (normalizeComparableText existing.label ≠ ·)
      else fillIn params.label existing.label
    task :=
      if params.preferMetadata then (trimmed? (some params.task)).filter (normalizeComparableText (some existing.task) ≠ ·)
      else none
    deliveryStatus :=
      if params.deliveryStatus = some .pending ∧ existing.deliveryStatus ≠ .delivered then some .pending else none
    notifyPolicy :=
      if notifyPolicy ≠ existing.notifyPolicy ∧ existing.notifyPolicy = .silent then some notifyPolicy else none }

def mergeExistingTaskForCreate (s : Registry Origin) (existing : TaskRecord) (params : CreateTaskParams Origin) :
    Except TaskRegistryError TaskRecord × Registry Origin :=
  let requesterOrigin := env.normalizeDeliveryContext params.requesterOrigin
  let currentDeliveryState := s.taskDeliveryStates.lookup existing.taskId
  let upserted :=
    if requesterOrigin.isSome ∧ (currentDeliveryState.bind (·.requesterOrigin)).isNone then
      upsertTaskDeliveryState env s
        ⟨existing.taskId, requesterOrigin, currentDeliveryState.bind (·.lastNotifiedEventAt)⟩
    else (.ok (), s)
  let patch := mergePatch existing params
  let linkAllowed : Except TaskRegistryError Unit :=
    match patch.parentFlowId with
    | none => .ok ()
    | some _ => assertParentFlowLinkAllowed env existing.ownerKey existing.scopeKind params.parentFlowId
  match upserted.1, linkAllowed with
  | .error error, _ => (.error error, upserted.2)
  | .ok _, .error error => (.error error, upserted.2)
  | .ok _, .ok _ =>
    if patch = ({} : TaskPatch) then (.ok existing, upserted.2)
    else
      let updated := updateTask env upserted.2 existing.taskId patch
      (updated.1.map fun task => task.getD existing, updated.2)

/-- The record of a new task. -/
def newTaskRecord (taskId requesterSessionKey ownerKey : Text) (scopeKind : TaskScopeKind)
    (params : CreateTaskParams Origin) : TaskRecord :=
  let status := params.status.getD .queued
  let deliveryStatus := params.deliveryStatus.getD (ensureDeliveryStatus ownerKey scopeKind)
  stampCleanup
    { taskId
      runtime := params.runtime
      sourceId := trimmed? params.sourceId
      requesterSessionKey
      ownerKey
      scopeKind
      childSessionKey := params.childSessionKey
      parentFlowId := trimmed? params.parentFlowId
      parentTaskId := trimmed? params.parentTaskId
      agentId := trimmed? params.agentId
      runId := trimmed? params.runId
      label := trimmed? params.label
      task := params.task
      status
      deliveryStatus
      notifyPolicy := ensureNotifyPolicy params.notifyPolicy (some deliveryStatus) ownerKey scopeKind
      createdAt := env.now
      startedAt := params.startedAt
      endedAt := none
      lastEventAt := some ((params.lastEventAt <|> params.startedAt).getD env.now)
      cleanupAfter := params.cleanupAfter
      error := none
      progressSummary := normalizeTaskSummary params.progressSummary
      terminalSummary := normalizeTaskSummary params.terminalSummary
      terminalOutcome := resolveTaskTerminalOutcome status params.terminalOutcome }
    env.now

/-- A new task: its delivery state is saved between the table and the indexes. -/
def insertTask (s : Registry Origin) (record : TaskRecord) (requesterOrigin : Option Origin) :
    Except TaskRegistryError TaskRecord × Registry Origin :=
  let taskId := record.taskId
  let s := { s with tasks := assign s.tasks taskId record }
  let upserted := upsertTaskDeliveryState env s ⟨taskId, env.normalizeDeliveryContext requesterOrigin, none⟩
  match upserted.1 with
  | .error error => (.error error, upserted.2)
  | .ok _ =>
    let s := addRunIdIndex upserted.2 taskId record
    let s := addOwnerKeyIndex s taskId record
    let s := addParentFlowIdIndex s taskId record
    let s := addRelatedSessionKeyIndex s taskId record
    if env.storeThrows (.upsertTask taskId) then (.error .store, s) else (.ok record, s)

/-- `taskId` is the random id of the task, should it be a new one. -/
def createTaskRecord (s : Registry Origin) (params : CreateTaskParams Origin) (taskId : Text) :
    Except TaskRegistryError TaskRecord × Registry Origin :=
  let requesterSessionKey := resolveTaskRequesterSessionKey params
  let scopeKind := resolveTaskScopeKind params.scopeKind requesterSessionKey
  let ownerKey := resolveTaskOwnerKey requesterSessionKey params.ownerKey
  if trimChars ownerKey = [] ∧ scopeKind ≠ .system then (.error .ownerKeyRequired, s)
  else
    match assertParentFlowLinkAllowed env ownerKey scopeKind params.parentFlowId with
    | .error error => (.error error, s)
    | .ok _ =>
      match findExistingTaskForCreate s ownerKey scopeKind params with
      | some existing => mergeExistingTaskForCreate env s existing params
      | none =>
        insertTask env s (newTaskRecord env taskId requesterSessionKey ownerKey scopeKind params) params.requesterOrigin

-- ---
-- Agent events
-- ---

/-- An agent event, with the members of its data that have the type they should. -/
structure AgentEventPayload where
  runId : Text
  stream : Text
  ts : Int
  phase : Option Text
  startedAt : Option Int
  endedAt : Option Int
  aborted : Bool
  error : Option Text
  sessionKey : Option Text

/-- The status that a lifecycle event sets. -/
def AgentEventPayload.status? (evt : AgentEventPayload) : Option TaskStatus :=
  if evt.stream = "lifecycle".toList then
    if evt.phase = some "start".toList then some .running
    else if evt.phase = some "end".toList then some (if evt.aborted then .timedOut else .succeeded)
    else if evt.phase = some "error".toList then some .failed
    else none
  else none

def agentEventPatch (evt : AgentEventPayload) (now : Int) (current : TaskRecord) : TaskPatch :=
  let patch : TaskPatch := { lastEventAt := some now }
  if evt.stream = "lifecycle".toList then
    let patch := { patch with startedAt := (evt.startedAt <|> current.startedAt).filter (· ≠ 0) }
    match evt.status? with
    | none => patch
    | some .running => { patch with status := some .running }
    | some .failed =>
      { patch with
        status := some .failed
        endedAt := some (evt.endedAt.getD now)
        error := some (evt.error <|> current.error) }
    | some status => { patch with status := some status, endedAt := some (evt.endedAt.getD now) }
  else if evt.stream = "error".toList then { patch with error := some (evt.error <|> current.error) }
  else patch

/-- The listener of `ensureListener`. -/
def onAgentEvent (s : Registry Origin) (evt : AgentEventPayload) : Registry Origin :=
  if s.listenerStarted then
    let s := restoreTaskRegistryOnce env s
    let now := if evt.ts = 0 then env.now else evt.ts
    updateTasks env s (agentEventPatch evt now) (getTasksByRunScope s evt.runId none evt.sessionKey)
  else s

-- ---
-- Updates by run id
-- ---

structure RunScope where
  runId : Text
  runtime : Option TaskRuntime := none
  sessionKey : Option Text := none

structure TaskStateUpdate where
  status : Option TaskStatus := none
  startedAt : Option Int := none
  endedAt : Option Int := none
  lastEventAt : Option Int := none
  error : Option Text := none
  progressSummary : Option (Option Text) := none
  terminalSummary : Option (Option Text) := none
  terminalOutcome : Option (Option TaskTerminalOutcome) := none

def TaskStateUpdate.patch (update : TaskStateUpdate) (current : TaskRecord) : TaskPatch where
  status := update.status
  startedAt := update.startedAt
  endedAt := update.endedAt
  lastEventAt := update.lastEventAt
  error := update.error.map some
  progressSummary := update.progressSummary.map normalizeTaskSummary
  terminalSummary := update.terminalSummary.map normalizeTaskSummary
  terminalOutcome := update.terminalOutcome.map (resolveTaskTerminalOutcome (update.status.getD current.status))

def tasksInScope (s : Registry Origin) (scope : RunScope) : List TaskRecord :=
  getTasksByRunScope s scope.runId scope.runtime scope.sessionKey

def updateTaskStateByRunId (s : Registry Origin) (scope : RunScope) (update : TaskStateUpdate) : Registry Origin :=
  updateTasks env s update.patch (tasksInScope s scope)

def markTaskRunningByRunId (s : Registry Origin) (scope : RunScope) (startedAt lastEventAt : Option Int)
    (progressSummary : Option (Option Text)) : Registry Origin :=
  updateTaskStateByRunId env s scope { status := some .running, startedAt, lastEventAt, progressSummary }

def recordTaskProgressByRunId (s : Registry Origin) (scope : RunScope) (lastEventAt : Option Int)
    (progressSummary : Option (Option Text)) : Registry Origin :=
  updateTaskStateByRunId env s scope { lastEventAt, progressSummary }

inductive FinalStatus where
  | succeeded
  | failed
  | timedOut
  | cancelled
  deriving DecidableEq

def FinalStatus.status : FinalStatus → TaskStatus
  | .succeeded => .succeeded
  | .failed => .failed
  | .timedOut => .timedOut
  | .cancelled => .cancelled

def markTaskTerminalByRunId (s : Registry Origin) (scope : RunScope) (status : FinalStatus) (startedAt : Option Int)
    (endedAt : Int) (lastEventAt : Option Int) (error : Option Text) (progressSummary terminalSummary : Option (Option Text))
    (terminalOutcome : Option (Option TaskTerminalOutcome)) : Registry Origin :=
  updateTaskStateByRunId env s scope
    { status := some status.status, startedAt, endedAt := some endedAt, lastEventAt, error, progressSummary, terminalSummary,
      terminalOutcome }

def setTaskRunDeliveryStatusByRunId (s : Registry Origin) (scope : RunScope) (deliveryStatus : TaskDeliveryStatus) :
    Registry Origin :=
  updateTasks env s (fun _ => { deliveryStatus := some deliveryStatus }) (tasksInScope s scope)

-- ---
-- Updates by task id
-- ---

def setTaskProgressById (s : Registry Origin) (taskId : Text) (progressSummary : Option (Option Text))
    (lastEventAt : Option Int) : Registry Origin :=
  (updateTask env s taskId { progressSummary := progressSummary.map normalizeTaskSummary, lastEventAt }).2

def setTaskTimingById (s : Registry Origin) (taskId : Text) (startedAt endedAt lastEventAt : Option Int) : Registry Origin :=
  (updateTask env s taskId { startedAt, endedAt, lastEventAt }).2

def setTaskCleanupAfterById (s : Registry Origin) (taskId : Text) (cleanupAfter : Int) : Registry Origin :=
  (updateTask env s taskId { cleanupAfter := some cleanupAfter }).2

def markTaskTerminalById (s : Registry Origin) (taskId : Text) (status : FinalStatus) (endedAt : Int)
    (lastEventAt : Option Int) (error : Option Text) (terminalSummary : Option (Option Text))
    (terminalOutcome : Option (Option TaskTerminalOutcome)) : Registry Origin :=
  (updateTask env s taskId
    { status := some status.status
      endedAt := some endedAt
      lastEventAt := some (lastEventAt.getD endedAt)
      error := error.map some
      terminalSummary := terminalSummary.map normalizeTaskSummary
      terminalOutcome := terminalOutcome.map (resolveTaskTerminalOutcome status.status) }).2

def markTaskLostById (s : Registry Origin) (taskId : Text) (endedAt : Int) (lastEventAt : Option Int)
    (error : Option Text) (cleanupAfter : Option Int) : Registry Origin :=
  (updateTask env s taskId
    { status := some .lost
      endedAt := some endedAt
      lastEventAt := some (lastEventAt.getD endedAt)
      error := error.map some
      cleanupAfter }).2

def updateTaskNotifyPolicyById (s : Registry Origin) (taskId : Text) (notifyPolicy : TaskNotifyPolicy) : Registry Origin :=
  (updateTask env s taskId { notifyPolicy := some notifyPolicy, lastEventAt := some env.now }).2

def linkTaskToFlowById (s : Registry Origin) (taskId flowId : Text) : Registry Origin :=
  match trimmed? (some flowId) with
  | none => s
  | some flowId =>
    match s.tasks.lookup taskId with
    | none => s
    | some current =>
      if (trimmed? current.parentFlowId).isSome then s
      else
        match assertParentFlowLinkAllowed env current.ownerKey current.scopeKind (some flowId) with
        | .error _ => s
        | .ok _ => (updateTask env s taskId { parentFlowId := some flowId }).2

/-- What a delivery of `maybeDeliverTaskTerminalUpdate` or `maybeDeliverTaskStateChangeUpdate`
writes of its task, whenever it settles. -/
def settleDelivery (s : Registry Origin) (taskId : Text) (deliveryStatus : Option TaskDeliveryStatus) : Registry Origin :=
  (updateTask env s taskId { deliveryStatus, lastEventAt := some env.now }).2

-- ---
-- Cancelling and deleting
-- ---

/-- `cancelTaskById` up to where it waits for the task's session or run to stop. -/
def cancelTaskById (s : Registry Origin) (taskId : Text) : Registry Origin :=
  match s.tasks.lookup (trimChars taskId) with
  | none => s
  | some task =>
    if isTerminalTaskStatus task.status then s
    else if (trimmed? task.childSessionKey).isNone then s
    else if task.runtime = .acp ∨ task.runtime = .subagent then { s with cancelling := s.cancelling ++ [task] }
    else s

/-- The rest of it, once the session or run has stopped, or has failed to. -/
def settleCancel (s : Registry Origin) (task : TaskRecord) (stopped : Bool) : Registry Origin :=
  let s := { s with cancelling := s.cancelling.erase task }
  if stopped then
    (updateTask env s task.taskId
      { status := some .cancelled
        endedAt := some env.now
        lastEventAt := some env.now
        error := some (some "Cancelled by operator.".toList) }).2
  else s

def deleteTaskRecordById (s : Registry Origin) (taskId : Text) : Registry Origin :=
  match s.tasks.lookup taskId with
  | none => s
  | some current =>
    let s := deleteOwnerKeyIndex s taskId current
    let s := deleteParentFlowIdIndex s taskId current
    let s := deleteRelatedSessionKeyIndex s taskId current
    rebuildRunIdIndex
      { s with tasks := remove s.tasks taskId, taskDeliveryStates := remove s.taskDeliveryStates taskId }

-- ---
-- The system
-- ---

inductive Op (Origin : Type) where
  | createTaskRecord (params : CreateTaskParams Origin) (taskId : Text)
  | agentEvent (evt : AgentEventPayload)
  | markTaskRunningByRunId (scope : RunScope) (startedAt lastEventAt : Option Int) (progressSummary : Option (Option Text))
  | recordTaskProgressByRunId (scope : RunScope) (lastEventAt : Option Int) (progressSummary : Option (Option Text))
  | markTaskTerminalByRunId (scope : RunScope) (status : FinalStatus) (startedAt : Option Int) (endedAt : Int)
      (lastEventAt : Option Int) (error : Option Text) (progressSummary terminalSummary : Option (Option Text))
      (terminalOutcome : Option (Option TaskTerminalOutcome))
  | setTaskRunDeliveryStatusByRunId (scope : RunScope) (deliveryStatus : TaskDeliveryStatus)
  | setTaskProgressById (taskId : Text) (progressSummary : Option (Option Text)) (lastEventAt : Option Int)
  | setTaskTimingById (taskId : Text) (startedAt endedAt lastEventAt : Option Int)
  | setTaskCleanupAfterById (taskId : Text) (cleanupAfter : Int)
  | markTaskTerminalById (taskId : Text) (status : FinalStatus) (endedAt : Int) (lastEventAt : Option Int)
      (error : Option Text) (terminalSummary : Option (Option Text))
      (terminalOutcome : Option (Option TaskTerminalOutcome))
  | markTaskLostById (taskId : Text) (endedAt : Int) (lastEventAt : Option Int) (error : Option Text)
      (cleanupAfter : Option Int)
  | updateTaskNotifyPolicyById (taskId : Text) (notifyPolicy : TaskNotifyPolicy)
  | linkTaskToFlowById (taskId flowId : Text)
  | settleDelivery (taskId : Text) (deliveryStatus : Option TaskDeliveryStatus)
  | cancelTaskById (taskId : Text)
  | settleCancel (task : TaskRecord) (stopped : Bool)
  | deleteTaskRecordById (taskId : Text)

/-- An operation on a registry that is ready. -/
def perform (s : Registry Origin) : Op Origin → Registry Origin
  | .createTaskRecord params taskId => (createTaskRecord env s params taskId).2
  | .agentEvent evt => onAgentEvent env s evt
  | .markTaskRunningByRunId scope startedAt lastEventAt progressSummary =>
    markTaskRunningByRunId env s scope startedAt lastEventAt progressSummary
  | .recordTaskProgressByRunId scope lastEventAt progressSummary =>
    recordTaskProgressByRunId env s scope lastEventAt progressSummary
  | .markTaskTerminalByRunId scope status startedAt endedAt lastEventAt error progressSummary terminalSummary
      terminalOutcome =>
    markTaskTerminalByRunId env s scope status startedAt endedAt lastEventAt error progressSummary terminalSummary
      terminalOutcome
  | .setTaskRunDeliveryStatusByRunId scope deliveryStatus => setTaskRunDeliveryStatusByRunId env s scope deliveryStatus
  | .setTaskProgressById taskId progressSummary lastEventAt => setTaskProgressById env s taskId progressSummary lastEventAt
  | .setTaskTimingById taskId startedAt endedAt lastEventAt => setTaskTimingById env s taskId startedAt endedAt lastEventAt
  | .setTaskCleanupAfterById taskId cleanupAfter => setTaskCleanupAfterById env s taskId cleanupAfter
  | .markTaskTerminalById taskId status endedAt lastEventAt error terminalSummary terminalOutcome =>
    markTaskTerminalById env s taskId status endedAt lastEventAt error terminalSummary terminalOutcome
  | .markTaskLostById taskId endedAt lastEventAt error cleanupAfter =>
    markTaskLostById env s taskId endedAt lastEventAt error cleanupAfter
  | .updateTaskNotifyPolicyById taskId notifyPolicy => updateTaskNotifyPolicyById env s taskId notifyPolicy
  | .linkTaskToFlowById taskId flowId => linkTaskToFlowById env s taskId flowId
  | .settleDelivery taskId deliveryStatus => settleDelivery env s taskId deliveryStatus
  | .cancelTaskById taskId => cancelTaskById s taskId
  | .settleCancel task stopped => settleCancel env s task stopped
  | .deleteTaskRecordById taskId => deleteTaskRecordById s taskId

/-- Every operation but the listener's first makes the registry ready. -/
def readyFor (s : Registry Origin) : Op Origin → Registry Origin
  | .agentEvent _ => s
  | _ => ensureTaskRegistryReady env s

/-- The id of a new task is random: it is not that of a task or of a delivery state in the
registry. A call can only go on where it waits. -/
def enabled (s : Registry Origin) : Op Origin → Bool
  | .createTaskRecord _ taskId => (s.tasks.lookup taskId).isNone && (s.taskDeliveryStates.lookup taskId).isNone
  | .settleCancel task _ => s.cancelling.contains task
  | _ => true

end Operations

/-- An operation, with what it finds around it. -/
structure Label (Origin : Type) where
  env : Env Origin
  op : Op Origin

def step {Origin : Type} (s : Registry Origin) (label : Label Origin) : Option (Registry Origin) :=
  let s := readyFor label.env s label.op
  if enabled s label.op then some (perform label.env s label.op) else none

def system (Origin : Type) : Transition.System (Registry Origin) (Label Origin) where
  init s := s = .empty
  step := step

end OpenClaw.TaskRegistry
