import OpenClaw.Tasks.TaskRegistry.Indexes

/-!
# Final statuses

What an operation does to the table of tasks, record by record, and where it leaves
the status of a task that has ended as it is.
-/

namespace OpenClaw.TaskRegistry

open Js Members InvertedIndex

abbrev Table := List (Text × TaskRecord)

def isFinal (status : TaskStatus) : Bool :=
  status = .succeeded || status = .failed || status = .timedOut || status = .cancelled

/-- Setting the status leaves the task as it ended, if it has. -/
def StatusKept (status? : Option TaskStatus) (task : TaskRecord) : Prop :=
  isFinal task.status → ∀ status ∈ status?, status = task.status

instance (status? : Option TaskStatus) (task : TaskRecord) : Decidable (StatusKept status? task) :=
  inferInstanceAs (Decidable (_ → _))

/-- The table after records were put, one after another, none of them over a task that
has ended with another status. -/
inductive Rewrites (table : Table) : Table → Prop
  | refl : Rewrites table table
  | put : Rewrites table table' → table'.lookup taskId = some current → next.taskId = current.taskId →
      StatusKept (some next.status) current → Rewrites table (assign table' taskId next)
  | new : Rewrites table table' → table'.lookup record.taskId = none → Rewrites table (assign table' record.taskId record)

variable {Origin : Type} {s s' : Registry Origin} {env : Env Origin} {table : Table}

theorem Rewrites.trans (h : Rewrites table middle) (h' : Rewrites middle table') : Rewrites table table' := by
  induction h' with
  | refl => exact h
  | put _ hcurrent hid hkept ih => exact ih.put hcurrent hid hkept
  | new _ hfresh ih => exact ih.new hfresh

def OwnIds (table : Table) : Prop := ∀ taskId task, table.lookup taskId = some task → task.taskId = taskId

theorem OwnIds.assign (h : OwnIds table) (hid : next.taskId = taskId) : OwnIds (assign table taskId next) := by
  intro otherId task hlookup
  rw [lookup_assign] at hlookup
  split at hlookup
  case isTrue heq =>
    obtain rfl := Option.some.inj hlookup
    rw [hid, heq]
  case isFalse => exact h otherId task hlookup

theorem Rewrites.ownIds (h : Rewrites table table') (hown : OwnIds table) : OwnIds table' := by
  induction h with
  | refl => exact hown
  | put _ hcurrent hid _ ih => exact ih.assign (hid.trans (ih _ _ hcurrent))
  | new _ _ ih => exact ih.assign rfl

/-- A task that has ended keeps its place and its status. -/
theorem Rewrites.kept (h : Rewrites table table') (htask : table.lookup taskId = some task) (hfinal : isFinal task.status) :
    ∃ task', table'.lookup taskId = some task' ∧ task'.status = task.status := by
  induction h with
  | refl => exact ⟨task, htask, rfl⟩
  | @put _ putId current next _ hcurrent _ hkept ih =>
    obtain ⟨task', hlookup, hstatus⟩ := ih
    rw [lookup_assign]
    split
    case isTrue heq =>
      obtain rfl : current = task' := Option.some.inj (hcurrent.symm.trans (heq ▸ hlookup))
      exact ⟨next, rfl, (hkept (hstatus ▸ hfinal) _ rfl).trans hstatus⟩
    case isFalse => exact ⟨task', hlookup, hstatus⟩
  | @new _ record _ hfresh ih =>
    obtain ⟨task', hlookup, hstatus⟩ := ih
    rw [lookup_assign]
    split
    case isTrue heq =>
      rw [heq, hfresh] at hlookup
      cases hlookup
    case isFalse => exact ⟨task', hlookup, hstatus⟩

/-- What an operation on a registry that is ready does to it. -/
structure Writes (s s' : Registry Origin) : Prop where
  rewrites : Rewrites s.tasks s'.tasks
  restoreAttempted : s'.restoreAttempted = s.restoreAttempted

theorem Writes.refl (s : Registry Origin) : Writes s s := ⟨.refl, rfl⟩

theorem Writes.same (h : Writes start s) (htasks : s'.tasks = s.tasks)
    (hrestoreAttempted : s'.restoreAttempted = s.restoreAttempted) : Writes start s' :=
  ⟨htasks ▸ h.rewrites, hrestoreAttempted.trans h.restoreAttempted⟩

-- ---
-- Updating
-- ---

@[simp] theorem stampCleanup_status (task : TaskRecord) (otherwise : Int) :
    (stampCleanup task otherwise).status = task.status := by
  obtain ⟨cleanupAfter, heq⟩ := stampCleanup_eq task otherwise
  rw [heq]

theorem apply_status (patch : TaskPatch) (current : TaskRecord) :
    (patch.apply current).status = patch.status.getD current.status := rfl

@[simp] theorem putTask_restoreAttempted (s : Registry Origin) (taskId : Text) (patch : TaskPatch)
    (current next : TaskRecord) : (putTask s taskId patch current next).restoreAttempted = s.restoreAttempted := by
  unfold putTask
  dsimp only
  split <;> split <;> split <;> rfl

theorem updateTask_some (env : Env Origin) (hcurrent : s.tasks.lookup taskId = some current) (patch : TaskPatch) :
    (updateTask env s taskId patch).2 = putTask s taskId patch current (stampCleanup (patch.apply current) env.now) := by
  unfold updateTask
  rw [hcurrent]
  dsimp only
  split <;> rfl

theorem updateTask_none (env : Env Origin) (h : s.tasks.lookup taskId = none) (patch : TaskPatch) :
    (updateTask env s taskId patch).2 = s := by
  unfold updateTask
  rw [h]

theorem Writes.updateTask (h : Writes start s) (env : Env Origin) (taskId : Text) (patch : TaskPatch)
    (hkept : ∀ current ∈ s.tasks.lookup taskId, StatusKept patch.status current) :
    Writes start (updateTask env s taskId patch).2 := by
  cases hcurrent : s.tasks.lookup taskId with
  | none =>
    rw [updateTask_none env hcurrent]
    exact h
  | some current =>
    rw [updateTask_some env hcurrent]
    refine ⟨?_, (putTask_restoreAttempted _ _ _ _ _).trans h.restoreAttempted⟩
    rw [putTask_tasks]
    refine h.rewrites.put hcurrent (stampCleanup_taskId _ _) ?_
    rw [stampCleanup_status, apply_status]
    cases hstatus : patch.status with
    | none => exact fun _ _ heq => (Option.some.inj heq).symm
    | some status => exact hstatus ▸ hkept current hcurrent

theorem Writes.updateOther (h : Writes start s) (env : Env Origin) (taskId : Text) {patch : TaskPatch}
    (hpatch : patch.status = none) : Writes start (TaskRegistry.updateTask env s taskId patch).2 := by
  refine h.updateTask env taskId patch fun _ _ _ status hstatus => ?_
  rw [hpatch] at hstatus
  cases hstatus

/-- One status, or none, for every task that is updated. -/
theorem Writes.updateTasks (h : Writes start s) (env : Env Origin) (hpatch : ∀ task, (patchOf task).status = status?)
    (hkept : ∀ task ∈ matched, ∀ current ∈ s.tasks.lookup task.taskId, StatusKept status? current) :
    Writes start (updateTasks env s patchOf matched) := by
  induction matched generalizing s with
  | nil => exact h
  | cons task rest ih =>
    rw [List.forall_mem_cons] at hkept
    have hupdated := h.updateTask env task.taskId (patchOf task) (hpatch task ▸ hkept.1)
    rw [TaskRegistry.updateTasks]
    split
    · exact hupdated
    · refine ih hupdated fun other hother current hcurrent => ?_
      cases hold : s.tasks.lookup task.taskId with
      | none =>
        rw [updateTask_none env hold] at hcurrent
        exact hkept.2 other hother current hcurrent
      | some old =>
        rw [updateTask_some env hold, putTask_tasks, lookup_assign] at hcurrent
        split at hcurrent
        case isTrue hid =>
          -- The task was updated already: it has the status that is set.
          obtain rfl := Option.some.inj hcurrent
          intro _ status hstatus
          rw [stampCleanup_status, apply_status, hpatch, Option.mem_def.1 hstatus]
          rfl
        case isFalse => exact hkept.2 other hother current hcurrent

theorem agentEventPatch_status (evt : AgentEventPayload) (now : Int) (current : TaskRecord) :
    (agentEventPatch evt now current).status = evt.status? := by
  unfold agentEventPatch
  dsimp only
  split
  case isTrue hlifecycle => split <;> simp_all
  case isFalse hother =>
    have hnone : evt.status? = none := if_neg hother
    rw [hnone]
    split <;> rfl

-- ---
-- Creating, linking and cancelling
-- ---

theorem Writes.upsertDeliveryState (h : Writes start s) (env : Env Origin) (state : TaskDeliveryState Origin) :
    Writes start (upsertTaskDeliveryState env s state).2 := by
  obtain ⟨taskDeliveryStates, heq⟩ := upsertDeliveryState_frame env s state
  rw [heq]
  exact h.same rfl rfl

theorem Writes.merge (h : Writes start s) (env : Env Origin) (existing : TaskRecord) (params : CreateTaskParams Origin) :
    Writes start (mergeExistingTaskForCreate env s existing params).2 := by
  have hupserted : Writes start (if (env.normalizeDeliveryContext params.requesterOrigin).isSome ∧
      ((s.taskDeliveryStates.lookup existing.taskId).bind (·.requesterOrigin)).isNone then
        upsertTaskDeliveryState env s ⟨existing.taskId, env.normalizeDeliveryContext params.requesterOrigin,
          (s.taskDeliveryStates.lookup existing.taskId).bind (·.lastNotifiedEventAt)⟩
      else (.ok (), s)).2 := by
    split
    · exact h.upsertDeliveryState env _
    · exact h
  unfold mergeExistingTaskForCreate
  dsimp only
  split
  · exact hupserted
  · exact hupserted
  · split
    · exact hupserted
    · exact hupserted.updateOther env _ rfl

theorem Writes.insert (h : Writes start s) (env : Env Origin) (requesterOrigin : Option Origin)
    (hfresh : s.tasks.lookup record.taskId = none) : Writes start (insertTask env s record requesterOrigin).2 := by
  unfold insertTask
  dsimp only
  have hput : Writes start { s with tasks := assign s.tasks record.taskId record } :=
    ⟨h.rewrites.new hfresh, h.restoreAttempted⟩
  have hupserted := hput.upsertDeliveryState env ⟨record.taskId, env.normalizeDeliveryContext requesterOrigin, none⟩
  split
  · exact hupserted
  · split <;> exact hupserted.same rfl rfl

theorem Writes.create (h : Writes start s) (env : Env Origin) (params : CreateTaskParams Origin)
    (hfresh : s.tasks.lookup taskId = none) : Writes start (createTaskRecord env s params taskId).2 := by
  unfold createTaskRecord
  dsimp only
  split
  · exact h
  · split
    · exact h
    · split
      · exact h.merge env _ params
      · refine h.insert env _ ?_
        rw [newTaskRecord, stampCleanup_taskId]
        exact hfresh

theorem Writes.link (h : Writes start s) (env : Env Origin) (taskId flowId : Text) :
    Writes start (linkTaskToFlowById env s taskId flowId) := by
  unfold linkTaskToFlowById
  split
  · exact h
  · split
    · exact h
    · split
      · exact h
      · split
        · exact h
        · exact h.updateOther env taskId rfl

theorem Writes.cancel (h : Writes start s) (taskId : Text) : Writes start (cancelTaskById s taskId) := by
  unfold cancelTaskById
  split
  · exact h
  · split
    · exact h
    · split
      · exact h
      · split
        · exact h.same rfl rfl
        · exact h

theorem Writes.settleCancel (h : Writes start s) (env : Env Origin) (task : TaskRecord) (stopped : Bool)
    (hkept : stopped → ∀ current ∈ s.tasks.lookup task.taskId, StatusKept (some .cancelled) current) :
    Writes start (settleCancel env s task stopped) := by
  unfold TaskRegistry.settleCancel
  have hgone : Writes start { s with cancelling := s.cancelling.erase task } := h.same rfl rfl
  dsimp only
  split
  case isTrue hstopped => exact hgone.updateTask env _ _ (hkept hstopped)
  case isFalse => exact hgone

-- ---
-- Restoring
-- ---

/-- Before the saved tasks are restored there are none. -/
structure Settled (s : Registry Origin) : Prop where
  ownIds : OwnIds s.tasks
  unrestored : s.restoreAttempted = false → s.tasks = []

theorem Settled.empty : Settled (.empty : Registry Origin) where
  ownIds := by simp [OwnIds, Registry.empty]
  unrestored _ := rfl

theorem Rewrites.foldl_assign {restored : List TaskRecord} (h : Rewrites table table')
    (hnodup : (restored.map TaskRecord.taskId).Nodup) (hfresh : ∀ task ∈ restored, table'.lookup task.taskId = none) :
    Rewrites table (restored.foldl (fun tasks task => assign tasks task.taskId task) table') := by
  induction restored generalizing table' with
  | nil => exact h
  | cons record restored ih =>
    obtain ⟨hnew, hnodup⟩ := List.nodup_cons.1 hnodup
    obtain ⟨hrecord, hfresh⟩ := List.forall_mem_cons.1 hfresh
    refine ih (h.new hrecord) hnodup fun task htask => ?_
    have hne : task.taskId ≠ record.taskId := by
      intro heq
      exact hnew (heq ▸ List.mem_map_of_mem htask)
    rw [lookup_assign, if_neg hne]
    exact hfresh task htask

theorem Settled.rewrites_restore (hs : Settled s) (env : Env Origin) :
    Rewrites s.tasks (restoreTaskRegistryOnce env s).tasks := by
  unfold restoreTaskRegistryOnce
  split
  · exact .refl
  case isFalse hnot =>
    have hempty := hs.unrestored (Bool.eq_false_iff.2 hnot)
    dsimp only
    split
    · exact .refl
    · split
      · exact .refl
      case isFalse restored _ _ =>
        refine Rewrites.refl.foldl_assign restored.nodup fun task _ => ?_
        rw [hempty]
        rfl

@[simp] theorem restore_restoreAttempted (env : Env Origin) (s : Registry Origin) :
    (restoreTaskRegistryOnce env s).restoreAttempted = true := by
  unfold restoreTaskRegistryOnce
  split
  · assumption
  · dsimp only
    split
    · rfl
    · split <;> rfl

theorem Settled.restore (hs : Settled s) (env : Env Origin) : Settled (restoreTaskRegistryOnce env s) where
  ownIds := (hs.rewrites_restore env).ownIds hs.ownIds
  unrestored hnot := by
    rw [restore_restoreAttempted] at hnot
    cases hnot

theorem Settled.writes (hs : Settled s) (hrestored : s.restoreAttempted = true) (h : Writes s s') : Settled s' where
  ownIds := h.rewrites.ownIds hs.ownIds
  unrestored hnot := by
    rw [h.restoreAttempted, hrestored] at hnot
    cases hnot

-- ---
-- Steps
-- ---

/-- The status that an operation sets. -/
def Op.status? : Op Origin → Option TaskStatus
  | .agentEvent evt => evt.status?
  | .markTaskRunningByRunId .. => some .running
  | .markTaskTerminalByRunId _ status .. => some status.status
  | .markTaskTerminalById _ status .. => some status.status
  | .markTaskLostById .. => some .lost
  | .settleCancel _ true => some .cancelled
  | _ => none

/-- The tasks on which an operation that sets a status sets it. -/
def Op.targets (env : Env Origin) (s : Registry Origin) : Op Origin → List TaskRecord
  | .agentEvent evt =>
    if s.listenerStarted then getTasksByRunScope (restoreTaskRegistryOnce env s) evt.runId none evt.sessionKey else []
  | .markTaskRunningByRunId scope .. => tasksInScope s scope
  | .markTaskTerminalByRunId scope .. => tasksInScope s scope
  | .markTaskTerminalById taskId .. => (s.tasks.lookup taskId).toList
  | .markTaskLostById taskId .. => (s.tasks.lookup taskId).toList
  | .settleCancel task _ => (s.tasks.lookup task.taskId).toList
  | _ => []

def Op.deletes : Op Origin → Bool
  | .deleteTaskRecordById _ => true
  | _ => false

/-- Nothing is deleted, and a status is set on no task that has ended with another. -/
def LeavesFinal (s : Registry Origin) (label : Label Origin) : Prop :=
  label.op.deletes = false ∧
    ∀ task ∈ label.op.targets label.env (readyFor label.env s label.op), StatusKept label.op.status? task

instance (s : Registry Origin) (label : Label Origin) : Decidable (LeavesFinal s label) :=
  inferInstanceAs (Decidable (_ ∧ _))

theorem mem_tasks_of_scope (h : task ∈ getTasksByRunScope s runId runtime sessionKey) :
    ∃ taskId, s.tasks.lookup taskId = some task := by
  have hrun : task ∈ getTasksByRunId s runId := by
    unfold getTasksByRunScope at h
    dsimp only at h
    split at h
    · split at h
      · exact (List.mem_filter.1 (List.mem_filter.1 h).1).1
      · exact (List.mem_filter.1 (List.mem_filter.1 h).1).1
    · split at h
      · exact (List.mem_filter.1 h).1
      · cases h
  obtain ⟨taskId, -, hlookup⟩ := List.mem_filterMap.1 hrun
  exact ⟨taskId, hlookup⟩

/-- The tasks of a scope are those in the table. -/
theorem OwnIds.current_of_scope (hown : OwnIds s.tasks) (h : task ∈ getTasksByRunScope s runId runtime sessionKey)
    (hcurrent : s.tasks.lookup task.taskId = some current) : current = task := by
  obtain ⟨taskId, hlookup⟩ := mem_tasks_of_scope h
  rw [hown _ _ hlookup, hlookup] at hcurrent
  exact (Option.some.inj hcurrent).symm

theorem Writes.updateScope (hown : OwnIds s.tasks) (env : Env Origin) (hpatch : ∀ task, (patchOf task).status = status?)
    (hkept : ∀ task ∈ getTasksByRunScope s runId runtime sessionKey, StatusKept status? task) :
    Writes s (TaskRegistry.updateTasks env s patchOf (getTasksByRunScope s runId runtime sessionKey)) := by
  refine (Writes.refl s).updateTasks env hpatch fun task htask current hcurrent => ?_
  rw [hown.current_of_scope htask hcurrent]
  exact hkept task htask

/-- An operation other than an event, on a registry that is ready. -/
theorem perform_writes {op : Op Origin} (hown : OwnIds s.tasks) (henabled : enabled s op) (hdeletes : op.deletes = false)
    (hevent : ∀ evt, op ≠ .agentEvent evt) (hkept : ∀ task ∈ op.targets env s, StatusKept op.status? task) :
    Writes s (perform env s op) := by
  have hself := Writes.refl s
  cases op with
  | createTaskRecord params taskId =>
    obtain ⟨hfresh, -⟩ := Bool.and_eq_true_iff.1 henabled
    exact hself.create env params (Option.isNone_iff_eq_none.1 hfresh)
  | agentEvent evt => exact absurd rfl (hevent evt)
  | markTaskRunningByRunId scope => exact .updateScope hown env (fun _ => rfl) hkept
  | recordTaskProgressByRunId scope => exact .updateScope hown env (fun _ => rfl) fun _ _ _ _ hstatus => nomatch hstatus
  | markTaskTerminalByRunId scope => exact .updateScope hown env (fun _ => rfl) hkept
  | setTaskRunDeliveryStatusByRunId scope =>
    exact .updateScope hown env (fun _ => rfl) fun _ _ _ _ hstatus => nomatch hstatus
  | setTaskProgressById taskId => exact hself.updateOther env taskId rfl
  | setTaskTimingById taskId => exact hself.updateOther env taskId rfl
  | setTaskCleanupAfterById taskId => exact hself.updateOther env taskId rfl
  | markTaskTerminalById taskId => exact hself.updateTask env taskId _ fun task htask => hkept task (Option.mem_toList.2 htask)
  | markTaskLostById taskId => exact hself.updateTask env taskId _ fun task htask => hkept task (Option.mem_toList.2 htask)
  | updateTaskNotifyPolicyById taskId => exact hself.updateOther env taskId rfl
  | linkTaskToFlowById taskId flowId => exact hself.link env taskId flowId
  | settleDelivery taskId => exact hself.updateOther env taskId rfl
  | cancelTaskById taskId => exact hself.cancel taskId
  | settleCancel task stopped =>
    refine hself.settleCancel env task stopped fun hstopped current hcurrent => ?_
    subst hstopped
    exact hkept current (Option.mem_toList.2 hcurrent)
  | deleteTaskRecordById taskId => cases hdeletes

theorem event_writes (hs : Settled s) (hlistener : s.listenerStarted = true)
    (hkept : ∀ task ∈ (Op.agentEvent evt).targets env s, StatusKept evt.status? task) :
    Writes (restoreTaskRegistryOnce env s) (onAgentEvent env s evt) := by
  have htargets : (Op.agentEvent evt).targets env s =
      getTasksByRunScope (restoreTaskRegistryOnce env s) evt.runId none evt.sessionKey := if_pos hlistener
  rw [htargets] at hkept
  unfold onAgentEvent
  rw [if_pos hlistener]
  exact .updateScope (hs.restore env).ownIds env (agentEventPatch_status evt _) hkept

theorem Settled.step {label : Label Origin} (hs : Settled s) (hleaves : LeavesFinal s label)
    (hstep : step s label = some s') : Rewrites s.tasks s'.tasks ∧ Settled s' := by
  unfold TaskRegistry.step at hstep
  dsimp only at hstep
  split at hstep
  case isFalse => cases hstep
  case isTrue henabled =>
    obtain rfl := Option.some.inj hstep
    obtain ⟨env, op⟩ := label
    obtain ⟨hdeletes, hkept⟩ := hleaves
    by_cases hevent : ∃ evt, op = .agentEvent evt
    · obtain ⟨evt, rfl⟩ := hevent
      cases hlistener : s.listenerStarted with
      | true =>
        have hwrites := event_writes hs hlistener hkept
        exact ⟨(hs.rewrites_restore env).trans hwrites.rewrites,
          (hs.restore env).writes (restore_restoreAttempted env s) hwrites⟩
      | false =>
        have heq : onAgentEvent env s evt = s := if_neg (by rw [hlistener]; decide)
        have heq : perform env (readyFor env s (.agentEvent evt)) (.agentEvent evt) = s := heq
        rw [heq]
        exact ⟨.refl, hs⟩
    · have hready : readyFor env s op = ensureTaskRegistryReady env s := by
        cases op with
        | agentEvent evt => exact absurd ⟨evt, rfl⟩ hevent
        | _ => rfl
      rw [hready] at henabled hkept ⊢
      have hrestored : Settled (ensureTaskRegistryReady env s) := ⟨(hs.restore env).ownIds, (hs.restore env).unrestored⟩
      have hwrites := perform_writes hrestored.ownIds henabled hdeletes (fun evt heq => hevent ⟨evt, heq⟩) hkept
      exact ⟨(hs.rewrites_restore env).trans hwrites.rewrites,
        hrestored.writes (restore_restoreAttempted env s) hwrites⟩

-- ---
-- Runs
-- ---

theorem settled_of_reachable (h : (system Origin).ReachableBy LeavesFinal s) : Settled s := by
  refine h.invariant ?_ fun s label s' hs hleaves hstep => (hs.step hleaves hstep).2
  rintro s rfl
  exact .empty

theorem Settled.run (hs : Settled s) (hrun : (system Origin).runBy LeavesFinal s labels = some s') :
    Rewrites s.tasks s'.tasks := by
  induction labels generalizing s with
  | nil =>
    obtain rfl := Option.some.inj hrun
    exact .refl
  | cons label labels ih =>
    simp only [Transition.System.runBy, Option.ite_none_right_eq_some, Option.bind_eq_some_iff] at hrun
    obtain ⟨hleaves, middle, hstep, hrun⟩ := hrun
    obtain ⟨hrewrites, hmiddle⟩ := hs.step hleaves hstep
    exact hrewrites.trans (ih hmiddle hrun)

/-- In a run whose operations set their statuses on no task that has ended with another,
a task that has ended has its status in every later state. -/
theorem finalStatus_kept (h : (system Origin).ReachableBy LeavesFinal s) (htask : s.tasks.lookup taskId = some task)
    (hfinal : isFinal task.status) (hrun : (system Origin).runBy LeavesFinal s labels = some s') :
    ∃ task', s'.tasks.lookup taskId = some task' ∧ task'.status = task.status :=
  ((settled_of_reachable h).run hrun).kept htask hfinal

def lifecycleEvent (phase : Text) : Label Unit where
  env := sampleEnv false
  op := .agentEvent
    { runId := "r1".toList, stream := "lifecycle".toList, ts := 5, phase := some phase, startedAt := none, endedAt := none,
      aborted := false, error := none, sessionKey := none }

def progressOf (runId : Text) : Label Unit where
  env := sampleEnv false
  op := .recordTaskProgressByRunId { runId } none (some (some "done".toList))

/-- A task that ended, and then makes progress and ends once more. -/
theorem finalStatus_kept_sample : ∃ s s' : Registry Unit, ∃ task,
    s.tasks.lookup "t1".toList = some task ∧ task.status = .succeeded ∧
      ∃ task', s'.tasks.lookup "t1".toList = some task' ∧ task'.status = task.status := by
  obtain ⟨s, hrun, hsome⟩ := (Option.any_eq_true _ _).1 (by decide :
    ((system Unit).runBy LeavesFinal .empty [sampleCreate false, lifecycleEvent "end".toList]).any fun s =>
      (s.tasks.lookup "t1".toList).any fun task =>
        task.status = .succeeded ∧
          ((system Unit).runBy LeavesFinal s [progressOf "r1".toList, lifecycleEvent "end".toList]).isSome)
  obtain ⟨task, htask, hrest⟩ := (Option.any_eq_true _ _).1 hsome
  obtain ⟨hstatus, hlater⟩ := of_decide_eq_true hrest
  obtain ⟨s', hrun'⟩ := Option.isSome_iff_exists.1 hlater
  have hreachable : (system Unit).ReachableBy LeavesFinal s := .runBy (.init rfl) hrun
  exact ⟨s, s', task, htask, hstatus, finalStatus_kept hreachable htask (by rw [hstatus]; rfl) hrun'⟩

/-- Creations, agent events, updates by run id and cancellations. -/
def Op.ofRun : Op Origin → Bool
  | .createTaskRecord .. => true
  | .agentEvent _ => true
  | .markTaskRunningByRunId .. => true
  | .recordTaskProgressByRunId .. => true
  | .markTaskTerminalByRunId .. => true
  | .cancelTaskById _ => true
  | .settleCancel .. => true
  | _ => false

/-- A lifecycle start that comes after the end sets the task running again. -/
theorem not_finalStatus_kept : ¬ ∀ (labels later : List (Label Unit)) (s s' : Registry Unit) (taskId : Text) (task : TaskRecord),
    (∀ label ∈ labels ++ later, label.op.ofRun) → (system Unit).run .empty labels = some s →
      s.tasks.lookup taskId = some task → isFinal task.status → (system Unit).run s later = some s' →
        ∃ task', s'.tasks.lookup taskId = some task' ∧ task'.status = task.status := by
  intro h
  obtain ⟨s, hrun, hsome⟩ := (Option.any_eq_true _ _).1 (by decide :
    ((system Unit).run .empty [sampleCreate false, lifecycleEvent "end".toList]).any fun s =>
      (s.tasks.lookup "t1".toList).any fun task =>
        task.status = .succeeded ∧
          ((system Unit).run s [lifecycleEvent "start".toList]).any fun s' =>
            (s'.tasks.lookup "t1".toList).map (·.status) = some .running)
  obtain ⟨task, htask, hrest⟩ := (Option.any_eq_true _ _).1 hsome
  obtain ⟨hstatus, hlater⟩ := of_decide_eq_true hrest
  obtain ⟨s', hrun', hrunning⟩ := (Option.any_eq_true _ _).1 hlater
  have hrunning := of_decide_eq_true hrunning
  obtain ⟨task', htask', hkept⟩ := h _ _ s s' _ task (by decide) hrun htask (by rw [hstatus]; rfl) hrun'
  rw [htask', Option.map_some, hkept, hstatus] at hrunning
  cases hrunning

end OpenClaw.TaskRegistry
