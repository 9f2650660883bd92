import OpenClaw.Tasks.TaskRegistry

/-!
# The indexes of the task registry

Every operation leaves each index exact: under a key stand the ids of the tasks that
have it. The one exception is a new task whose delivery state can not be saved.
-/

namespace OpenClaw.TaskRegistry

open Js Members InvertedIndex

variable {Origin : Type} {s s' : Registry Origin} {env : Env Origin}

/-- Every task stands under its own id, and every index is exact. -/
structure Indexed (s : Registry Origin) : Prop where
  nodup : (s.tasks.map Prod.fst).Nodup
  ownIds : ∀ taskId task, s.tasks.lookup taskId = some task → task.taskId = taskId
  runIds : Exact getTaskRunIdIndexKeys s.tasks s.taskIdsByRunId
  ownerKeys : Exact getTaskOwnerKeyIndexKeys s.tasks s.taskIdsByOwnerKey
  parentFlowIds : Exact getTaskParentFlowIdIndexKeys s.tasks s.taskIdsByParentFlowId
  relatedSessionKeys : Exact getTaskRelatedSessionIndexKeys s.tasks s.taskIdsByRelatedSessionKey

/-- What the indexes do not depend on. -/
theorem Indexed.congr (h : Indexed s) (htasks : s'.tasks = s.tasks) (hrunId : s'.taskIdsByRunId = s.taskIdsByRunId)
    (hownerKey : s'.taskIdsByOwnerKey = s.taskIdsByOwnerKey)
    (hparentFlowId : s'.taskIdsByParentFlowId = s.taskIdsByParentFlowId)
    (hrelated : s'.taskIdsByRelatedSessionKey = s.taskIdsByRelatedSessionKey) : Indexed s' := by
  obtain ⟨hnodup, htaskId, h₁, h₂, h₃, h₄⟩ := h
  constructor <;> simp only [htasks, hrunId, hownerKey, hparentFlowId, hrelated]
  all_goals assumption

theorem Indexed.empty : Indexed (.empty : Registry Origin) where
  nodup := List.nodup_nil
  ownIds := by simp [Registry.empty]
  runIds := exact_build _ List.nodup_nil
  ownerKeys := exact_build _ List.nodup_nil
  parentFlowIds := exact_build _ List.nodup_nil
  relatedSessionKeys := exact_build _ List.nodup_nil

/-- All indexes built anew. -/
theorem Indexed.rebuilt (hnodup : (s.tasks.map Prod.fst).Nodup)
    (htaskId : ∀ taskId task, s.tasks.lookup taskId = some task → task.taskId = taskId) :
    Indexed (rebuildRelatedSessionKeyIndex (rebuildParentFlowIdIndex (rebuildOwnerKeyIndex (rebuildRunIdIndex s)))) :=
  ⟨hnodup, htaskId, exact_build _ hnodup, exact_build _ hnodup, exact_build _ hnodup, exact_build _ hnodup⟩

-- ---
-- Updating
-- ---

section PutTask

variable {current next : TaskRecord} {patch : TaskPatch}

@[simp] theorem putTask_tasks (s : Registry Origin) (taskId : Text) (patch : TaskPatch) (current next : TaskRecord) :
    (putTask s taskId patch current next).tasks = assign s.tasks taskId next := by
  unfold putTask
  dsimp only
  split <;> split <;> split <;> rfl

theorem putTask_runIds (s : Registry Origin) (taskId : Text) (patch : TaskPatch) (current next : TaskRecord) :
    (putTask s taskId patch current next).taskIdsByRunId =
      if patch.runId.any (· ≠ []) ∧ patch.runId ≠ current.runId then build getTaskRunIdIndexKeys (assign s.tasks taskId next)
      else s.taskIdsByRunId := by
  unfold putTask
  dsimp only
  split <;> split <;> split <;> rfl

theorem putTask_ownerKeys (s : Registry Origin) (taskId : Text) (patch : TaskPatch) (current next : TaskRecord) :
    (putTask s taskId patch current next).taskIdsByOwnerKey =
      if sessionIndexChanged current next then
        addAll (deleteAll s.taskIdsByOwnerKey (getTaskOwnerKeyIndexKeys current) taskId) (getTaskOwnerKeyIndexKeys next) taskId
      else s.taskIdsByOwnerKey := by
  unfold putTask
  dsimp only
  split <;> split <;> split <;> rfl

theorem putTask_relatedSessionKeys (s : Registry Origin) (taskId : Text) (patch : TaskPatch) (current next : TaskRecord) :
    (putTask s taskId patch current next).taskIdsByRelatedSessionKey =
      if sessionIndexChanged current next then
        addAll (deleteAll s.taskIdsByRelatedSessionKey (getTaskRelatedSessionIndexKeys current) taskId)
          (getTaskRelatedSessionIndexKeys next) taskId
      else s.taskIdsByRelatedSessionKey := by
  unfold putTask
  dsimp only
  split <;> split <;> split <;> rfl

theorem putTask_parentFlowIds (s : Registry Origin) (taskId : Text) (patch : TaskPatch) (current next : TaskRecord) :
    (putTask s taskId patch current next).taskIdsByParentFlowId =
      if parentFlowIndexChanged current next then
        addAll (deleteAll s.taskIdsByParentFlowId (getTaskParentFlowIdIndexKeys current) taskId)
          (getTaskParentFlowIdIndexKeys next) taskId
      else s.taskIdsByParentFlowId := by
  unfold putTask
  dsimp only
  split <;> split <;> split <;> rfl

theorem not_sessionIndexChanged (h : ¬ sessionIndexChanged current next) :
    getTaskOwnerKeyIndexKeys next = getTaskOwnerKeyIndexKeys current ∧
      getTaskRelatedSessionIndexKeys next = getTaskRelatedSessionIndexKeys current := by
  obtain ⟨howner, hchild⟩ := not_or.1 h
  unfold getTaskOwnerKeyIndexKeys getTaskRelatedSessionIndexKeys
  rw [not_not.1 howner, not_not.1 hchild]
  exact ⟨rfl, rfl⟩

theorem trimmed?_congr {value value' : Option Text} (h : value.map trimChars = value'.map trimChars) :
    trimmed? value = trimmed? value' := by
  cases value <;> cases value' <;> simp_all [trimmed?]

/-- An update that keeps the id, and sets no empty run id, keeps every index exact. -/
theorem Indexed.putTask (h : Indexed s) (hcurrent : s.tasks.lookup taskId = some current) (hown : next.taskId = taskId)
    (hrunId : next.runId = (patch.runId <|> current.runId)) (hpatch : patch.runId ≠ some []) :
    Indexed (putTask s taskId patch current next) where
  nodup := by
    rw [putTask_tasks]
    exact nodup_assign h.nodup taskId next
  ownIds := by
    intro otherId task hlookup
    rw [putTask_tasks, lookup_assign] at hlookup
    split at hlookup
    case isTrue hid =>
      cases hlookup
      exact hid ▸ hown
    case isFalse => exact h.ownIds otherId task hlookup
  runIds := by
    rw [putTask_tasks, putTask_runIds]
    split
    case isTrue => exact exact_build _ (nodup_assign h.nodup taskId next)
    case isFalse hsame =>
      refine h.runIds.replace hcurrent fun key => ?_
      have heq : next.runId = current.runId := by
        rw [hrunId]
        cases hrun : patch.runId with
        | none => rfl
        | some runId =>
          by_contra hne
          refine hsame ⟨?_, by rw [hrun]; exact hne⟩
          rw [hrun]
          exact decide_eq_true fun hempty => hpatch (by rw [hrun, hempty])
      rw [getTaskRunIdIndexKeys, heq, getTaskRunIdIndexKeys]
  ownerKeys := by
    rw [putTask_tasks, putTask_ownerKeys]
    split
    case isTrue => exact h.ownerKeys.rekey hcurrent next
    case isFalse hsame => exact h.ownerKeys.replace hcurrent fun key => by rw [(not_sessionIndexChanged hsame).1]
  parentFlowIds := by
    rw [putTask_tasks, putTask_parentFlowIds]
    split
    case isTrue => exact h.parentFlowIds.rekey hcurrent next
    case isFalse hsame =>
      refine h.parentFlowIds.replace hcurrent fun key => ?_
      unfold getTaskParentFlowIdIndexKeys
      rw [trimmed?_congr (not_not.1 hsame)]
  relatedSessionKeys := by
    rw [putTask_tasks, putTask_relatedSessionKeys]
    split
    case isTrue => exact h.relatedSessionKeys.rekey hcurrent next
    case isFalse hsame => exact h.relatedSessionKeys.replace hcurrent fun key => by rw [(not_sessionIndexChanged hsame).2]

end PutTask

/-- Apart from the time of the cleanup. -/
theorem stampCleanup_eq (task : TaskRecord) (otherwise : Int) :
    ∃ cleanupAfter, stampCleanup task otherwise = { task with cleanupAfter } := by
  unfold stampCleanup
  split
  · exact ⟨_, rfl⟩
  · exact ⟨task.cleanupAfter, rfl⟩

@[simp] theorem stampCleanup_taskId (task : TaskRecord) (otherwise : Int) :
    (stampCleanup task otherwise).taskId = task.taskId := by
  obtain ⟨cleanupAfter, heq⟩ := stampCleanup_eq task otherwise
  rw [heq]

@[simp] theorem stampCleanup_runId (task : TaskRecord) (otherwise : Int) :
    (stampCleanup task otherwise).runId = task.runId := by
  obtain ⟨cleanupAfter, heq⟩ := stampCleanup_eq task otherwise
  rw [heq]

theorem Indexed.updateTask (h : Indexed s) (env : Env Origin) (taskId : Text) (hpatch : patch.runId ≠ some []) :
    Indexed (updateTask env s taskId patch).2 := by
  unfold TaskRegistry.updateTask
  split
  · exact h
  case h_2 current hcurrent =>
    have hown : current.taskId = taskId := h.ownIds _ _ hcurrent
    have hnext : (stampCleanup (patch.apply current) env.now).taskId = taskId := by
      rw [stampCleanup_taskId]
      exact hown
    have hput : Indexed (TaskRegistry.putTask s taskId patch current (stampCleanup (patch.apply current) env.now)) :=
      h.putTask hcurrent hnext (stampCleanup_runId _ _) hpatch
    dsimp only
    split <;> exact hput

/-- The patches of the operations set no run id. -/
theorem Indexed.update (h : Indexed s) (env : Env Origin) (taskId : Text) {patch : TaskPatch} (hpatch : patch.runId = none) :
    Indexed (TaskRegistry.updateTask env s taskId patch).2 :=
  h.updateTask env taskId (by rw [hpatch]; nofun)

theorem Indexed.updateTasks (h : Indexed s) (env : Env Origin) (hpatch : ∀ task, (patchOf task).runId = none)
    (matched : List TaskRecord) : Indexed (updateTasks env s patchOf matched) := by
  induction matched generalizing s with
  | nil => exact h
  | cons current rest ih =>
    have hupdated := h.update env current.taskId (hpatch current)
    rw [TaskRegistry.updateTasks]
    split
    · exact hupdated
    · exact ih hupdated

-- ---
-- Restoring, creating and deleting
-- ---

theorem nodup_foldl_assign {tasks : List (Text × TaskRecord)} (h : (tasks.map Prod.fst).Nodup) (restored : List TaskRecord) :
    ((restored.foldl (fun tasks task => assign tasks task.taskId task) tasks).map Prod.fst).Nodup := by
  induction restored generalizing tasks with
  | nil => exact h
  | cons task restored ih => exact ih (nodup_assign h task.taskId task)

theorem ownIds_foldl_assign {tasks : List (Text × TaskRecord)}
    (h : ∀ taskId task, tasks.lookup taskId = some task → task.taskId = taskId) (restored : List TaskRecord) :
    ∀ taskId task, (restored.foldl (fun tasks task => assign tasks task.taskId task) tasks).lookup taskId = some task →
      task.taskId = taskId := by
  induction restored generalizing tasks with
  | nil => exact h
  | cons restoredTask restored ih =>
    refine ih fun taskId task hlookup => ?_
    rw [lookup_assign] at hlookup
    split at hlookup
    case isTrue hid =>
      cases hlookup
      exact hid.symm
    case isFalse => exact h taskId task hlookup

theorem Indexed.restore (h : Indexed s) (env : Env Origin) : Indexed (restoreTaskRegistryOnce env s) := by
  unfold restoreTaskRegistryOnce
  split
  · exact h
  · dsimp only
    split
    · exact h.congr rfl rfl rfl rfl rfl
    · split
      · exact h.congr rfl rfl rfl rfl rfl
      · exact .rebuilt (nodup_foldl_assign h.nodup _) (ownIds_foldl_assign h.ownIds _)

theorem Indexed.ready (h : Indexed s) (env : Env Origin) : Indexed (ensureTaskRegistryReady env s) :=
  (h.restore env).congr rfl rfl rfl rfl rfl

theorem Indexed.upsertDeliveryState (h : Indexed s) (env : Env Origin) (state : TaskDeliveryState Origin) :
    Indexed (upsertTaskDeliveryState env s state).2 := by
  unfold upsertTaskDeliveryState
  dsimp only
  split
  · exact h
  · split <;> exact h.congr rfl rfl rfl rfl rfl

theorem Indexed.merge (h : Indexed s) (env : Env Origin) (existing : TaskRecord) (params : CreateTaskParams Origin) :
    Indexed (mergeExistingTaskForCreate env s existing params).2 := by
  have hupserted : Indexed (if (env.normalizeDeliveryContext params.requesterOrigin).isSome ∧
      ((s.taskDeliveryStates.lookup existing.taskId).bind (·.requesterOrigin)).isNone then
        upsertTaskDeliveryState env s ⟨existing.taskId, env.normalizeDeliveryContext params.requesterOrigin,
          (s.taskDeliveryStates.lookup existing.taskId).bind (·.lastNotifiedEventAt)⟩
      else (.ok (), s)).2 := by
    split
    · exact h.upsertDeliveryState env _
    · exact h
  unfold mergeExistingTaskForCreate
  dsimp only
  split
  · exact hupserted
  · exact hupserted
  · split
    · exact hupserted
    · exact hupserted.update env _ rfl

/-- The delivery state of a new task can be saved, or there is none to save. -/
def SavesDeliveryState (env : Env Origin) (params : CreateTaskParams Origin) (taskId : Text) : Prop :=
  (env.normalizeDeliveryContext params.requesterOrigin).bind (fun origin => env.normalizeDeliveryContext (some origin)) = none ∨
    env.storeThrows (.upsertDeliveryState taskId) = false

theorem upsertDeliveryState_ok (hsaves : SavesDeliveryState env params taskId)
    (hfresh : s.taskDeliveryStates.lookup taskId = none) :
    (upsertTaskDeliveryState env s ⟨taskId, env.normalizeDeliveryContext params.requesterOrigin, none⟩).1 = .ok () := by
  unfold upsertTaskDeliveryState
  dsimp only
  rcases hsaves with hnone | hstore
  · rw [if_pos ⟨by rw [hnone]; rfl, rfl, by rw [hfresh]; rfl⟩]
  · split
    · rfl
    · rw [if_neg (by rw [hstore]; decide)]

theorem upsertDeliveryState_frame (env : Env Origin) (s : Registry Origin) (state : TaskDeliveryState Origin) :
    ∃ taskDeliveryStates, (upsertTaskDeliveryState env s state).2 = { s with taskDeliveryStates } := by
  unfold upsertTaskDeliveryState
  dsimp only
  split
  · exact ⟨s.taskDeliveryStates, rfl⟩
  · split <;> exact ⟨_, rfl⟩

theorem Indexed.insert (h : Indexed s) (hfresh : s.tasks.lookup record.taskId = none)
    (hstate : s.taskDeliveryStates.lookup record.taskId = none) (hsaves : SavesDeliveryState env params record.taskId) :
    Indexed (insertTask env s record params.requesterOrigin).2 := by
  unfold insertTask
  dsimp only
  have hok : (upsertTaskDeliveryState env { s with tasks := assign s.tasks record.taskId record }
      ⟨record.taskId, env.normalizeDeliveryContext params.requesterOrigin, none⟩).1 = .ok () :=
    upsertDeliveryState_ok hsaves hstate
  obtain ⟨taskDeliveryStates, hupserted⟩ := upsertDeliveryState_frame env
    { s with tasks := assign s.tasks record.taskId record }
    ⟨record.taskId, env.normalizeDeliveryContext params.requesterOrigin, none⟩
  rw [hok, hupserted]
  have hinserted : Indexed (addRelatedSessionKeyIndex (addParentFlowIdIndex (addOwnerKeyIndex (addRunIdIndex
      { s with tasks := assign s.tasks record.taskId record, taskDeliveryStates } record.taskId record) record.taskId record)
      record.taskId record) record.taskId record) :=
    { nodup := nodup_assign h.nodup _ _
      ownIds := by
        intro taskId task hlookup
        have hlookup : (assign s.tasks record.taskId record).lookup taskId = some task := hlookup
        rw [lookup_assign] at hlookup
        split at hlookup
        case isTrue hid =>
          cases hlookup
          exact hid.symm
        case isFalse => exact h.ownIds taskId task hlookup
      runIds := h.runIds.insert hfresh record
      ownerKeys := h.ownerKeys.insert hfresh record
      parentFlowIds := h.parentFlowIds.insert hfresh record
      relatedSessionKeys := h.relatedSessionKeys.insert hfresh record }
  dsimp only
  split <;> exact hinserted

theorem Indexed.create (h : Indexed s) (params : CreateTaskParams Origin) (hfresh : s.tasks.lookup taskId = none)
    (hstate : s.taskDeliveryStates.lookup taskId = none) (hsaves : SavesDeliveryState env params taskId) :
    Indexed (createTaskRecord env s params taskId).2 := by
  unfold createTaskRecord
  dsimp only
  split
  · exact h
  · split
    · exact h
    · split
      · exact h.merge env _ params
      · have hid : ∀ requesterSessionKey ownerKey scopeKind,
            (newTaskRecord env taskId requesterSessionKey ownerKey scopeKind params).taskId = taskId :=
          fun _ _ _ => stampCleanup_taskId _ _
        refine h.insert ?_ ?_ ?_
        · rw [hid]
          exact hfresh
        · rw [hid]
          exact hstate
        · rw [hid]
          exact hsaves

theorem Indexed.delete (h : Indexed s) (taskId : Text) : Indexed (deleteTaskRecordById s taskId) := by
  unfold deleteTaskRecordById
  split
  · exact h
  case h_2 current hcurrent =>
    have hnodup := nodup_remove h.nodup taskId
    exact
      { nodup := hnodup
        ownIds := by
          intro otherId task hlookup
          have hlookup : (remove s.tasks taskId).lookup otherId = some task := hlookup
          rw [lookup_remove] at hlookup
          split at hlookup
          · cases hlookup
          · exact h.ownIds otherId task hlookup
        runIds := exact_build _ hnodup
        ownerKeys := h.ownerKeys.erase hcurrent
        parentFlowIds := h.parentFlowIds.erase hcurrent
        relatedSessionKeys := h.relatedSessionKeys.erase hcurrent }

theorem Indexed.link (h : Indexed s) (env : Env Origin) (taskId flowId : Text) :
    Indexed (linkTaskToFlowById env s taskId flowId) := by
  unfold linkTaskToFlowById
  split
  · exact h
  · split
    · exact h
    · split
      · exact h
      · split
        · exact h
        · exact h.update env taskId rfl

theorem Indexed.cancel (h : Indexed s) (taskId : Text) : Indexed (cancelTaskById s taskId) := by
  unfold cancelTaskById
  split
  · exact h
  · split
    · exact h
    · split
      · exact h
      · split
        · exact h.congr rfl rfl rfl rfl rfl
        · exact h

theorem Indexed.settleCancel (h : Indexed s) (env : Env Origin) (task : TaskRecord) (stopped : Bool) :
    Indexed (settleCancel env s task stopped) := by
  unfold TaskRegistry.settleCancel
  have hgone : Indexed { s with cancelling := s.cancelling.erase task } := h.congr rfl rfl rfl rfl rfl
  dsimp only
  split
  · exact hgone.update env _ rfl
  · exact hgone

theorem agentEventPatch_runId (evt : AgentEventPayload) (now : Int) (current : TaskRecord) :
    (agentEventPatch evt now current).runId = none := by
  unfold agentEventPatch
  dsimp only
  split
  · split <;> rfl
  · split <;> rfl

theorem Indexed.agentEvent (h : Indexed s) (env : Env Origin) (evt : AgentEventPayload) : Indexed (onAgentEvent env s evt) := by
  unfold onAgentEvent
  split
  · exact (h.restore env).updateTasks env (agentEventPatch_runId evt _) _
  · exact h

-- ---
-- Runs
-- ---

/-- Where a task is created its delivery state can be saved. Any other write may throw. -/
def Saves (label : Label Origin) : Prop :=
  match label.op with
  | .createTaskRecord params taskId => SavesDeliveryState label.env params taskId
  | _ => True

theorem Indexed.perform (h : Indexed s) (op : Op Origin) (henabled : enabled s op) (hsaves : Saves ⟨env, op⟩) :
    Indexed (perform env s op) := by
  cases op with
  | createTaskRecord params taskId =>
    obtain ⟨hfresh, hstate⟩ := Bool.and_eq_true_iff.1 henabled
    exact h.create params (Option.isNone_iff_eq_none.1 hfresh) (Option.isNone_iff_eq_none.1 hstate) hsaves
  | agentEvent evt => exact h.agentEvent env evt
  | markTaskRunningByRunId scope => exact h.updateTasks env (fun _ => rfl) _
  | recordTaskProgressByRunId scope => exact h.updateTasks env (fun _ => rfl) _
  | markTaskTerminalByRunId scope => exact h.updateTasks env (fun _ => rfl) _
  | setTaskRunDeliveryStatusByRunId scope => exact h.updateTasks env (fun _ => rfl) _
  | setTaskProgressById taskId => exact h.update env taskId rfl
  | setTaskTimingById taskId => exact h.update env taskId rfl
  | setTaskCleanupAfterById taskId => exact h.update env taskId rfl
  | markTaskTerminalById taskId => exact h.update env taskId rfl
  | markTaskLostById taskId => exact h.update env taskId rfl
  | updateTaskNotifyPolicyById taskId => exact h.update env taskId rfl
  | linkTaskToFlowById taskId flowId => exact h.link env taskId flowId
  | settleDelivery taskId => exact h.update env taskId rfl
  | cancelTaskById taskId => exact h.cancel taskId
  | settleCancel task stopped => exact h.settleCancel env task stopped
  | deleteTaskRecordById taskId => exact h.delete taskId

theorem Indexed.readyFor (h : Indexed s) (env : Env Origin) (op : Op Origin) : Indexed (readyFor env s op) := by
  cases op with
  | agentEvent => exact h
  | _ => exact h.ready env

theorem Indexed.step {label : Label Origin} (h : Indexed s) (hsaves : Saves label) (hstep : step s label = some s') :
    Indexed s' := by
  unfold TaskRegistry.step at hstep
  dsimp only at hstep
  split at hstep
  case isTrue henabled =>
    cases hstep
    exact (h.readyFor label.env label.op).perform label.op henabled hsaves
  case isFalse => cases hstep

theorem indexed_of_reachable (h : (system Origin).ReachableBy (fun _ label => Saves label) s) : Indexed s := by
  refine h.invariant ?_ fun s label s' hi hsaves hstep => hi.step hsaves hstep
  rintro s rfl
  exact .empty

-- ---
-- Lookups
-- ---

/-- An index without empty buckets that holds what the index built anew holds. -/
structure Rebuilt (index anew : Index Text Text) : Prop where
  sound : InvertedIndex.Sound index
  perm : ∀ key, (bucket index key).Perm (bucket anew key)

/-- The tasks in the registry with a property, each once and in any order. -/
def Lists (s : Registry Origin) (property : TaskRecord → Prop) (listed : List TaskRecord) : Prop :=
  listed.Nodup ∧ ∀ task, task ∈ listed ↔ task ∈ s.tasks.map Prod.snd ∧ property task

/-- Every index is what the table gives, and every lookup answers with the tasks that
have the trimmed key. -/
structure IndexesExact (s : Registry Origin) : Prop where
  runIds : Rebuilt s.taskIdsByRunId (rebuildRunIdIndex s).taskIdsByRunId
  ownerKeys : Rebuilt s.taskIdsByOwnerKey (rebuildOwnerKeyIndex s).taskIdsByOwnerKey
  parentFlowIds : Rebuilt s.taskIdsByParentFlowId (rebuildParentFlowIdIndex s).taskIdsByParentFlowId
  relatedSessionKeys : Rebuilt s.taskIdsByRelatedSessionKey (rebuildRelatedSessionKeyIndex s).taskIdsByRelatedSessionKey
  byRunId : ∀ runId, Lists s (fun task => trimmed? task.runId = some (trimChars runId)) (getTasksByRunId s runId)
  byOwnerKey : ∀ ownerKey,
    Lists s (fun task => trimmed? (some task.ownerKey) = some (trimChars ownerKey)) (listTasksForOwnerKey s ownerKey)
  byFlowId : ∀ flowId,
    Lists s (fun task => trimmed? task.parentFlowId = some (trimChars flowId)) (listTasksForFlowId s flowId)
  byRelatedSessionKey : ∀ sessionKey,
    Lists s (fun task => trimmed? (some task.ownerKey) = some (trimChars sessionKey) ∨
      trimmed? task.childSessionKey = some (trimChars sessionKey)) (listTasksForRelatedSessionKey s sessionKey)

theorem Lists.imp {property property' : TaskRecord → Prop} (h : Lists s property listed)
    (hiff : ∀ task, property task ↔ property' task) : Lists s property' listed :=
  ⟨h.1, fun task => by rw [h.2, hiff]⟩

theorem Lists.perm {property : TaskRecord → Prop} (h : Lists s property listed) (hperm : listed'.Perm listed) :
    Lists s property listed' :=
  ⟨hperm.nodup_iff.2 h.1, fun task => by rw [hperm.mem_iff, h.2]⟩

theorem Indexed.mem_tasks (h : Indexed s) (task : TaskRecord) :
    task ∈ s.tasks.map Prod.snd ↔ s.tasks.lookup task.taskId = some task := by
  constructor
  · intro hmem
    obtain ⟨⟨taskId, other⟩, hentry, rfl⟩ := List.mem_map.1 hmem
    have hlookup := lookup_of_mem h.nodup hentry
    rw [h.ownIds _ _ hlookup]
    exact hlookup
  · intro hlookup
    exact List.mem_map.2 ⟨_, mem_of_lookup hlookup, rfl⟩

theorem Indexed.lists_tasksUnder {keysOf : TaskRecord → List Text} (h : Indexed s) (hexact : Exact keysOf s.tasks index)
    (key : Text) : Lists s (fun task => key ∈ keysOf task) (tasksUnder s index key) := by
  refine ⟨?_, fun task => ?_⟩
  · refine List.Nodup.filterMap (fun taskId taskId' task htask htask' => ?_) (hexact.sound.nodup_bucket key)
    rw [← h.ownIds _ _ htask, ← h.ownIds _ _ htask']
  · rw [h.mem_tasks, tasksUnder, List.mem_filterMap]
    constructor
    · rintro ⟨taskId, hbucket, hlookup⟩
      obtain ⟨item, hitem, hkey⟩ := (hexact.mem key taskId).1 hbucket
      obtain rfl : item = task := Option.some.inj (hitem.symm.trans hlookup)
      exact ⟨by rw [h.ownIds _ _ hlookup]; exact hlookup, hkey⟩
    · rintro ⟨hlookup, hkey⟩
      exact ⟨task.taskId, (hexact.mem key task.taskId).2 ⟨task, hlookup, hkey⟩, hlookup⟩

theorem newestFirst_perm (tasks : List TaskRecord) : (newestFirst tasks).Perm tasks := by
  have hsorted := (List.perm_insertionSort (fun left right : TaskRecord × Nat =>
    right.1.createdAt < left.1.createdAt ∨ (left.1.createdAt = right.1.createdAt ∧ right.2 ≤ left.2)) tasks.zipIdx).map Prod.fst
  rw [List.zipIdx_map_fst] at hsorted
  exact hsorted

/-- A lookup by a key that may be empty once trimmed. -/
theorem Indexed.lists_listTasks {keysOf : TaskRecord → List Text} (h : Indexed s) (hexact : Exact keysOf s.tasks index)
    (hkeys : ∀ task, [] ∉ keysOf task) (key : Text) :
    Lists s (fun task => trimChars key ∈ keysOf task)
      (match trimmed? (some key) with
      | none => []
      | some key => listTasksFromIndex s index key) := by
  cases hkey : trimmed? (some key) with
  | none =>
    have hempty : trimChars key = [] := by
      by_contra hne
      have hsome : trimmed? (some key) = some (trimChars key) := trimmed?_eq_some.2 ⟨hne, rfl⟩
      rw [hkey] at hsome
      cases hsome
    rw [hempty]
    exact ⟨List.nodup_nil, fun task => by simp [hkeys]⟩
  | some trimmed =>
    obtain ⟨-, rfl⟩ := trimmed?_eq_some.1 hkey
    exact (h.lists_tasksUnder hexact _).perm (newestFirst_perm _)

theorem mem_trimmed? {value : Option Text} : key ∈ (trimmed? value).toList ↔ trimmed? value = some key := by
  rw [Option.mem_toList]

theorem nil_notMem_trimmed? (value : Option Text) : [] ∉ (trimmed? value).toList := fun h =>
  (trimmed?_eq_some.1 (mem_trimmed?.1 h)).1 rfl

theorem mem_relatedSessionKeys {task : TaskRecord} : key ∈ getTaskRelatedSessionIndexKeys task ↔
    trimmed? (some task.ownerKey) = some key ∨ trimmed? task.childSessionKey = some key := by
  unfold getTaskRelatedSessionIndexKeys normalizeSessionIndexKey
  rw [OrderedSet.mem_ofList, List.mem_append, mem_trimmed?, mem_trimmed?]

theorem Indexed.exact (h : Indexed s) : IndexesExact s where
  runIds := ⟨h.runIds.sound, h.runIds.perm (exact_build _ h.nodup)⟩
  ownerKeys := ⟨h.ownerKeys.sound, h.ownerKeys.perm (exact_build _ h.nodup)⟩
  parentFlowIds := ⟨h.parentFlowIds.sound, h.parentFlowIds.perm (exact_build _ h.nodup)⟩
  relatedSessionKeys := ⟨h.relatedSessionKeys.sound, h.relatedSessionKeys.perm (exact_build _ h.nodup)⟩
  byRunId runId := (h.lists_tasksUnder h.runIds (trimChars runId)).imp fun _ => mem_trimmed?
  byOwnerKey ownerKey :=
    (h.lists_listTasks h.ownerKeys (fun _ => nil_notMem_trimmed? _) ownerKey).imp fun _ => mem_trimmed?
  byFlowId flowId :=
    (h.lists_listTasks h.parentFlowIds (fun _ => nil_notMem_trimmed? _) flowId).imp fun _ => mem_trimmed?
  byRelatedSessionKey sessionKey := by
    refine (h.lists_listTasks h.relatedSessionKeys (fun task hnil => ?_) sessionKey).imp fun _ => mem_relatedSessionKeys
    rcases mem_relatedSessionKeys.1 hnil with hnil | hnil
    · exact (trimmed?_eq_some.1 hnil).1 rfl
    · exact (trimmed?_eq_some.1 hnil).1 rfl

/-- In every run in which the delivery states of new tasks are saved, every index is exact. -/
theorem taskIndexes_exact (h : (system Origin).ReachableBy (fun _ label => Saves label) s) : IndexesExact s :=
  (indexed_of_reachable h).exact

/-- A store whose writes of delivery states throw, or do not. -/
def sampleEnv (throws : Bool) : Env Unit where
  now := 0
  getTaskFlowById _ := none
  loadSnapshot := none
  storeThrows write := throws && write = .upsertDeliveryState "t1".toList
  normalizeDeliveryContext := id

def sampleCreate (throws : Bool) : Label Unit where
  env := sampleEnv throws
  op := .createTaskRecord
    { runtime := .acp
      requesterSessionKey := some "agent:main:main".toList
      requesterOrigin := some ()
      runId := some "r1".toList
      task := "do it".toList } "t1".toList

theorem taskIndexes_exact_sample : ∃ s : Registry Unit, (listTasksForOwnerKey s "agent:main:main".toList).length = 1 ∧
    IndexesExact s := by
  obtain ⟨s, hstep, hlisted⟩ := (Option.any_eq_true _ _).1 (by decide :
    (step .empty (sampleCreate false)).any fun s => (listTasksForOwnerKey s "agent:main:main".toList).length = 1)
  have hstep : (system Unit).step .empty (sampleCreate false) = some s := hstep
  have hsaves : Saves (sampleCreate false) := Or.inr rfl
  exact ⟨s, of_decide_eq_true hlisted, taskIndexes_exact (.step (.init rfl) hsaves hstep)⟩

/-- A create that throws when it saves the delivery state leaves its task without an index entry. -/
theorem not_taskIndexes_exact : ¬ ∀ s : Registry Unit, (system Unit).Reachable s → IndexesExact s := by
  intro h
  obtain ⟨s, hstep, hlost⟩ := (Option.any_eq_true _ _).1 (by decide :
    (step .empty (sampleCreate true)).any fun s => s.tasks.length = 1 ∧ (getTasksByRunId s "r1".toList).length = 0 ∧
      (s.tasks.map Prod.snd).all fun task => trimmed? task.runId = some (trimChars "r1".toList))
  have hstep : (system Unit).step .empty (sampleCreate true) = some s := hstep
  obtain ⟨hone, hnone, hall⟩ := of_decide_eq_true hlost
  have hexact := (h s (.step (.init rfl) hstep)).byRunId "r1".toList
  obtain ⟨entry, hentry⟩ := List.length_eq_one_iff.1 hone
  have hmem : entry.2 ∈ s.tasks.map Prod.snd := by simp [hentry]
  have hlisted := (hexact.2 entry.2).2 ⟨hmem, of_decide_eq_true (List.all_eq_true.1 hall _ hmem)⟩
  rw [List.length_eq_zero_iff.1 hnone] at hlisted
  cases hlisted

end OpenClaw.TaskRegistry
