import OpenClaw.Cron.Service.Advance
import OpenClaw.Cron.Service.Ids

/-!
# One-shots that are rescheduled while they run

The outcome of a run is applied to the job as it is stored by then. A one-shot
that was given another time meanwhile is disabled or deleted all the same, or
retried at the time of the retry.
-/

namespace OpenClaw.Cron

open Js CronService

variable {D : Type} {deps : CronDeps D} {env : ScheduleEnv} {job : CronJob D} {id : String}

-- ---
-- The outcome of a one-shot
-- ---

/-- How many times in a row the job has failed with this outcome. -/
def failures (job : CronJob D) : Int :=
  job.state.consecutiveErrors.getD 0 + 1

/-- The outcome is an error after which a one-shot is tried again. -/
def retries (deps : CronDeps D) (job : CronJob D) (result : RunResult) : Bool :=
  result.status = .error && (isTransientCronError result.error (resolveRetryConfig deps.retry).retryOn &&
    failures job ≤ (resolveRetryConfig deps.retry).maxAttempts)

def retryAtMs (deps : CronDeps D) (job : CronJob D) (result : RunResult) : Int :=
  result.endedAt + errorBackoffMs (failures job) (resolveRetryConfig deps.retry).backoffMs

theorem applyJobResult_retries (hat : isAt job.schedule = true) (h : retries deps job result = true) :
    applyJobResult deps preserveSchedule result job =
      ((recordRun job result).setNextRun (some (.ofInt (retryAtMs deps job result))), false) := by
  simp only [retries, Bool.and_eq_true, decide_eq_true_eq] at h
  obtain ⟨herror, htransient, hmax⟩ := h
  have herrors : (recordRun job result).state.consecutiveErrors.getD 0 = failures job := by
    simp [recordRun, herror, failures]
  simp [applyJobResult, hat, herror, settleOneShot, htransient, herrors, hmax, retryAtMs]

/-- Any other outcome ends a one-shot. -/
theorem applyJobResult_ends (preserveSchedule : Bool) (hat : isAt job.schedule = true) (h : retries deps job result = false) :
    (applyJobResult deps preserveSchedule result job).2 = true ∨
      (applyJobResult deps preserveSchedule result job).1 = disableOneShot (recordRun job result) := by
  simp only [applyJobResult, hat, Bool.true_and, if_true]
  split
  · exact .inl rfl
  · refine .inr ?_
    simp only [settleOneShot]
    split
    · rename_i herror
      have herrors : (recordRun job result).state.consecutiveErrors.getD 0 = failures job := by
        simp [recordRun, herror, failures]
      rw [herrors, if_neg]
      simpa [retries, herror] using h
    · rfl

-- ---
-- The walk after the outcome
-- ---

/-- The time of a one-shot. -/
def onceAtMs (env : ScheduleEnv) : CronSchedule → Option Rat
  | .at time atMs => resolveAtMs env time atMs
  | .every _ _ | .cron _ _ _ _ => none

/-- An enabled one-shot set for this time. -/
def SetFor (env : ScheduleEnv) (atMs : Rat) (job : CronJob D) : Prop :=
  job.enabled = true ∧ onceAtMs env job.schedule = some atMs

instance : Decidable (SetFor env atMs job) :=
  inferInstanceAs (Decidable (_ ∧ _))

theorem SetFor.at (h : SetFor env atMs job) :
    ∃ time legacy, job.schedule = .at time legacy ∧ resolveAtMs env time legacy = some atMs := by
  obtain ⟨-, h⟩ := h
  cases hschedule : job.schedule with
  | «at» time legacy => exact ⟨time, legacy, rfl, by simpa [onceAtMs, hschedule] using h⟩
  | every everyMs anchorMs => simp [onceAtMs, hschedule] at h
  | cron expr legacyExpr tz staggerMs => simp [onceAtMs, hschedule] at h

/-- A one-shot that is to be tried again. -/
structure Retried (job : CronJob D) (retryMs startedAt : Int) : Prop where
  next : job.state.nextRunAtMs = some (.ofInt retryMs)
  idle : job.state.runningAtMs = none
  lastRun : job.state.lastRunAtMs = some (.ofInt startedAt)
  lastStatus : job.state.lastStatus = some .error

/-- The walk for maintenance recomputes the retry only when it counts as a slot
that was executed. -/
def retryLapses (recomputeExpired : Bool) (retryMs startedAt nowMs : Int) : Bool :=
  recomputeExpired && (retryMs ≤ nowMs && retryMs ≤ startedAt)

theorem maintainJob_retried (recomputeExpired : Bool) (nowMs : Int) (hset : SetFor env atMs job) (hretried : Retried job retryMs startedAt) :
    (walkJob (maintainJob env recomputeExpired nowMs) nowMs job).1.enabled = true ∧
      (walkJob (maintainJob env recomputeExpired nowMs) nowMs job).1.state.nextRunAtMs =
        if retryLapses recomputeExpired retryMs startedAt nowMs then some (.fin atMs)
        else some (.ofInt retryMs) := by
  have henabled := hset.1
  obtain ⟨time, legacy, hat, hresolve⟩ := hset.at
  have hslot : job.slot? = some (retryMs : Rat) := by
    simp [CronJob.slot?, hretried.next, Number.ofInt, Number.finite?]
  have hcompute : computeJobNextRunAtMs env (settledJob nowMs job) nowMs = .ok (some atMs) := by
    simp [computeJobNextRunAtMs, settledJob, henabled, anchoredSchedule_at hat, hresolve,
      hretried.lastStatus, pure, Except.pure]
  have hidle : (settledJob nowMs job).isRunning = false := by
    simp [CronJob.isRunning, settledJob, hretried.idle]
  have hlast : (settledJob nowMs job).lastRun? = some (startedAt : Rat) := by
    simp [CronJob.lastRun?, settledJob, hretried.lastRun, Number.ofInt, Number.finite?]
  have hlapses : (recomputeExpired && decide ((retryMs : Rat) ≤ nowMs) &&
      !(settledJob nowMs job).isRunning && (settledJob nowMs job).lastRun?.any ((retryMs : Rat) ≤ ·)) =
      retryLapses recomputeExpired retryMs startedAt nowMs := by
    simp [hidle, hlast, retryLapses, Bool.and_assoc]
  rw [walkJob_fst, if_pos henabled]
  simp only [maintainJob, settledJob_slot? henabled, hslot, hlapses]
  cases retryLapses recomputeExpired retryMs startedAt nowMs with
  | true =>
    refine ⟨?_, ?_⟩
    · simp only [if_true, recomputeJobNextRunAtMs, hcompute]
      exact henabled
    · simp only [if_true]
      rw [recomputeJobNextRunAtMs_next, hcompute]
      rfl
  | false =>
    refine ⟨henabled, ?_⟩
    simp only [Bool.false_eq_true, if_false]
    simp [settledJob, henabled, hslot, Number.ofInt]

theorem walkJob_disabled {fn : CronJob D → CronJob D × Bool} (h : job.enabled = false) :
    (walkJob fn nowMs job).1.enabled = false := by
  rw [walkJob_fst, h]
  exact h

/-- What is left of the job once the outcome is applied keeps its time through
the walk exactly when it is tried again at that time, or the retry lapses. -/
theorem kept_iff {found : Option (CronJob D)} {job : CronJob D} {result : RunResult}
    (hretries : retries deps job result = true → ∃ r, found = some r ∧ SetFor env atMs r ∧
      Retried r (retryAtMs deps job result) result.startedAt)
    (hends : retries deps job result = false → ∀ r, found = some r → r.enabled = false) :
    (∃ after, found.map (fun job =>
        (walkJob (maintainJob env recomputeExpired nowMs) nowMs job).1) = some after ∧
        after.enabled = true ∧ after.state.nextRunAtMs = some (.fin atMs)) ↔
      retries deps job result = true ∧
        (retryLapses recomputeExpired (retryAtMs deps job result) result.startedAt nowMs = true ∨
          (retryAtMs deps job result : Rat) = atMs) := by
  cases hagain : retries deps job result with
  | false =>
    simp only [Bool.false_eq_true, false_and, iff_false]
    rintro ⟨after, hafter, henabled, -⟩
    rw [Option.map_eq_some_iff] at hafter
    obtain ⟨r, hr, rfl⟩ := hafter
    rw [walkJob_disabled (hends hagain r hr)] at henabled
    cases henabled
  | true =>
    obtain ⟨r, rfl, hset, hretried⟩ := hretries hagain
    obtain ⟨henabled, hnext⟩ := maintainJob_retried recomputeExpired nowMs hset hretried
    simp only [Option.map_some, Option.some.injEq, exists_eq_left', henabled, true_and, hnext]
    split
    · rename_i hlapses
      simp [hlapses]
    · rename_i hstays
      simp [hstays, Number.ofInt]

theorem results?_ids (h : RunBatch.results? batch = some results) :
    results.map (·.1) = batch.ids := by
  obtain ⟨owner, entries⟩ := batch
  induction entries generalizing results with
  | nil =>
    cases h
    rfl
  | cons entry entries ih =>
    simp only [RunBatch.results?, List.mapM_cons, Option.pure_def, Option.bind_eq_bind,
      Option.bind_eq_some_iff, Option.map_eq_some_iff, Option.some.injEq] at h
    obtain ⟨_, ⟨result, -, rfl⟩, rest, hrest, rfl⟩ := h
    simpa [RunBatch.ids] using ih hrest

theorem applied_retried (preserveSchedule : Bool) (hset : SetFor env atMs job) (h : retries deps job result = true) :
    ∃ r, applyJobResult deps preserveSchedule result job = (r, false) ∧ SetFor env atMs r ∧
      Retried r (retryAtMs deps job result) result.startedAt := by
  obtain ⟨time, legacy, hat, -⟩ := hset.at
  refine ⟨_, applyJobResult_retries (by rw [hat]; rfl) h, hset, rfl, rfl, rfl, ?_⟩
  simp only [retries, Bool.and_eq_true, decide_eq_true_eq] at h
  exact congrArg some h.1

/-- What is left of a job once the outcome is applied to it, and goes from there
to the job in the store. -/
def outcome (deps : CronDeps D) (preserveSchedule : Bool) (f : CronJob D → CronJob D)
    (result : RunResult) (job : CronJob D) : Option (CronJob D) :=
  if (applyJobResult deps preserveSchedule result job).2 then none
  else some (f (applyJobResult deps preserveSchedule result job).1)

theorem outcome_kept_iff {f : CronJob D → CronJob D} {result : RunResult}
    (hset : SetFor deps.toScheduleEnv atMs job)
    (hf : ∀ r, SetFor deps.toScheduleEnv atMs r → SetFor deps.toScheduleEnv atMs (f r))
    (hfstate : ∀ r, (f r).state = r.state) (hfenabled : ∀ r, (f r).enabled = r.enabled) :
    (∃ after, (outcome deps preserveSchedule f result job).map (fun job =>
        (walkJob (maintainJob deps.toScheduleEnv recomputeExpired nowMs) nowMs job).1) = some after ∧
        after.enabled = true ∧ after.state.nextRunAtMs = some (.fin atMs)) ↔
      retries deps job result = true ∧
        (retryLapses recomputeExpired (retryAtMs deps job result) result.startedAt nowMs = true ∨
          (retryAtMs deps job result : Rat) = atMs) := by
  refine kept_iff ?_ ?_
  · intro hagain
    obtain ⟨r, happly, hr, hretried⟩ := applied_retried preserveSchedule hset hagain
    refine ⟨f r, by simp [outcome, happly], hf r hr, ?_⟩
    exact ⟨(hfstate r).symm ▸ hretried.next, (hfstate r).symm ▸ hretried.idle,
      (hfstate r).symm ▸ hretried.lastRun, (hfstate r).symm ▸ hretried.lastStatus⟩
  · intro hagain r hr
    obtain ⟨time, legacy, hat, -⟩ := hset.at
    simp only [outcome] at hr
    obtain hdelete | hdisable := applyJobResult_ends preserveSchedule
      (by rw [hat]; rfl : isAt job.schedule = true) hagain
    · simp [hdelete] at hr
    · split at hr
      · cases hr
      · cases hr
        rw [hfenabled, hdisable]
        rfl

-- ---
-- Applying the outcome
-- ---

theorem jobOf_applyTick {s : CronService D} (hnodup : (results.map (·.1)).Nodup)
    (hmem : (id, result) ∈ results) (hstored : jobOf id s.file = some job) :
    jobOf id (s.applyTick deps results nowMs).loaded =
      (outcome deps false (fun job => job) result job).map fun job =>
        (walkJob (maintainJob deps.toScheduleEnv false nowMs) nowMs job).1 := by
  show jobOf id (walked deps false nowMs (applyResults deps false results s.file)) = _
  rw [jobOf_walked, jobOf_applyResults hnodup hmem, jobOf_applyToStore, hstored]
  rfl

theorem jobOf_applyCatchup {s : CronService D} (hnodup : (results.map (·.1)).Nodup)
    (hmem : (id, result) ∈ results) (hnot : id ∉ deferred) (hjob : jobOf id s.loaded = some job) :
    jobOf id (s.applyCatchup deps deferred results baseMs nowMs).loaded =
      (outcome deps false (fun job => job) result job).map fun job =>
        (walkJob (maintainJob deps.toScheduleEnv false nowMs) nowMs job).1 := by
  rw [applyCatchup_loaded, caughtUp, jobOf_walked, jobOf_deferJobs_ne hnot,
    jobOf_applyResults hnodup hmem, jobOf_applyToStore, hjob]
  rfl

theorem jobOf_applyManual {s : CronService D} (hjob : jobOf id s.loaded = some job)
    (hstored : jobOf id s.file = some stored) :
    jobOf id (s.applyManual deps forced id result nowMs).loaded =
      (outcome deps forced (mergeManualRunSnapshotAfterReload · stored) result job).map fun job =>
        (walkJob (maintainJob deps.toScheduleEnv true nowMs) nowMs job).1 := by
  rw [jobOf] at hjob
  simp only [applyManual, loaded_load, hjob, loaded_armTimer, loaded_persist, loaded_maintain,
    loaded_setStore, loaded_reload, file_load, outcome]
  rw [jobOf_walked]
  split
  · rw [jobOf_filter]
  · rw [jobOf_updateJob (merge_id _), hstored]
    rfl

/-- A tick applies the outcome to the job in the file, the catch-up and a manual
run to the job in memory. -/
def outcomeJob (owner : RunOwner) (job stored : CronJob D) : CronJob D :=
  match owner with
  | .tick _ => stored
  | .catchup _ | .manual _ => job

def isManual : RunOwner → Bool
  | .manual _ => true
  | .tick _ | .catchup _ => false

/-- When the outcome of a run that a one-shot had before it was rescheduled is
applied, the job is kept, enabled and set for its new time exactly when the
outcome is a transient error that is retried, and the retry is due at that very
time, or it is the retry of a manual run and lapses at once. -/
theorem reschedule_kept_iff {s s' : CronService D} {batch : RunBatch} {job stored : CronJob D}
    {result : RunResult} {atMs : Rat}
    (h : (CronService.system deps Fresh).Reachable s)
    (hstep : CronService.step deps s (.applyBatch i baseMs nowMs) = some s')
    (hbatch : s.batches[i]? = some batch) (hresults : batch.results? = some results)
    (hmem : (id, result) ∈ results)
    (hjob : jobOf id s.loaded = some job) (hset : SetFor deps.toScheduleEnv atMs job)
    (hstored : jobOf id s.file = some stored) (hset' : SetFor deps.toScheduleEnv atMs stored) :
    (∃ after, jobOf id s'.loaded = some after ∧ after.enabled = true ∧
        after.state.nextRunAtMs = some (.fin atMs)) ↔
      retries deps (outcomeJob batch.owner job stored) result = true ∧
        (retryLapses (isManual batch.owner)
            (retryAtMs deps (outcomeJob batch.owner job stored) result) result.startedAt nowMs = true ∨
          (retryAtMs deps (outcomeJob batch.owner job stored) result : Rat) = atMs) := by
  have hu := (uniqueIds_of_reachable h).batch batch (List.mem_of_getElem? hbatch)
  have hids := results?_ids hresults
  have hnodup : (results.map (·.1)).Nodup := hids ▸ hu.ids
  have hid : id ∈ batch.ids := hids ▸ List.mem_map_of_mem hmem
  simp only [CronService.step, applyBatch, hbatch, hresults, Option.map_some,
    Option.some.injEq] at hstep
  let applied := { s with batches := s.batches.eraseIdx i }
  cases howner : batch.owner with
  | tick generation =>
    rw [howner] at hstep
    rw [← show applied.applyTick deps results nowMs = s' from hstep,
      jobOf_applyTick (s := applied) hnodup hmem hstored]
    exact outcome_kept_iff hset' (fun _ h => h) (fun _ => rfl) fun _ => rfl
  | catchup deferred =>
    rw [howner] at hstep
    have hnot : id ∉ deferred := (List.nodup_append'.mp (hu.deferred deferred howner)).2.2 hid
    rw [← show applied.applyCatchup deps deferred results baseMs nowMs = s' from hstep,
      jobOf_applyCatchup (s := applied) hnodup hmem hnot hjob]
    exact outcome_kept_iff hset (fun _ h => h) (fun _ => rfl) fun _ => rfl
  | manual forced =>
    have hsingle : results.length = 1 := by
      rw [← hu.manual forced howner, ← hids, List.length_map]
    obtain ⟨r, rfl⟩ := List.length_eq_one_iff.mp hsingle
    obtain rfl := List.mem_singleton.mp hmem
    rw [howner] at hstep
    rw [← show applied.applyManual deps forced id result nowMs = s' from hstep,
      jobOf_applyManual (s := applied) hjob hstored]
    exact outcome_kept_iff hset (fun r hr => ⟨hr.1, hset'.2⟩) (fun _ => rfl) fun _ => rfl

-- ---
-- A job that is moved to a later time while it runs
-- ---

/-- Due at 1000. -/
def onceJob : CronJob Unit :=
  plainJob "job" (.at (some (.str "1000")) none) { plainState with nextRunAtMs := some (.ofInt 1000) }

def moveTo5000 : CronJobPatch Unit where
  enabled := none
  deleteAfterRun := none
  schedule := some (.at (some (.str "5000")) none)
  state := none
  details _ := ((), none)

/-- The run starts at 1000, the job is moved at 1500, the run ends at 2000. -/
def movedSteps : List (CronStep Unit) := [
  .fire, .onTimer 1000 1000, .startRun 0 1000, .update "job" moveTo5000 1500,
  .finishRun 0 "job" .ok none 2000]

theorem movedSteps_run :
    ((CronService.system plainDeps Fresh).run (bootService [onceJob]) movedSteps).isSome = true := by
  decide

def movedService : CronService Unit :=
  ((CronService.system plainDeps Fresh).run (bootService [onceJob]) movedSteps).get movedSteps_run

theorem movedService_reachable : (CronService.system plainDeps Fresh).Reachable movedService := by
  refine .run (.init (s := bootService [onceJob]) ⟨rfl, ?_, ?_⟩) (Option.some_get movedSteps_run).symm
  · exact List.nodup_singleton _
  · exact List.nodup_singleton _

theorem movedService_apply :
    (CronService.step plainDeps movedService (.applyBatch 0 2000 2000)).isSome = true := by
  decide

def appliedService : CronService Unit :=
  (CronService.step plainDeps movedService (.applyBatch 0 2000 2000)).get movedService_apply

theorem movedService_batch :
    movedService.batches[0]? = some ⟨.tick 1, [⟨"job", .done ⟨.ok, none, 1000, 2000⟩⟩]⟩ := by
  decide

theorem movedService_job : (jobOf "job" movedService.loaded).isSome = true := by decide

theorem movedService_stored : (jobOf "job" movedService.file).isSome = true := by decide

theorem reschedule_kept_iff_moved :
    (∃ after, jobOf "job" appliedService.loaded = some after ∧ after.enabled = true ∧
        after.state.nextRunAtMs = some (.fin 5000)) ↔
      retries plainDeps (outcomeJob (.tick 1) ((jobOf "job" movedService.loaded).get movedService_job)
          ((jobOf "job" movedService.file).get movedService_stored)) ⟨.ok, none, 1000, 2000⟩ = true ∧
        (retryLapses (isManual (.tick 1))
            (retryAtMs plainDeps (outcomeJob (.tick 1)
              ((jobOf "job" movedService.loaded).get movedService_job)
              ((jobOf "job" movedService.file).get movedService_stored)) ⟨.ok, none, 1000, 2000⟩)
            1000 2000 = true ∨
          (retryAtMs plainDeps (outcomeJob (.tick 1)
              ((jobOf "job" movedService.loaded).get movedService_job)
              ((jobOf "job" movedService.file).get movedService_stored))
            ⟨.ok, none, 1000, 2000⟩ : Rat) = 5000) :=
  reschedule_kept_iff movedService_reachable (Option.some_get movedService_apply).symm
    movedService_batch rfl (List.mem_singleton.mpr rfl) (Option.some_get movedService_job).symm
    (by decide +kernel) (Option.some_get movedService_stored).symm (by decide +kernel)

/-- A success at 2000 disables the job that was moved to 5000. -/
theorem not_reschedule_kept :
    ¬ ∀ (s s' : CronService Unit) (i : Nat) (baseMs nowMs : Int) (batch : RunBatch)
      (results : List (String × RunResult)) (id : String) (result : RunResult)
      (job stored : CronJob Unit) (atMs : Rat),
      (CronService.system plainDeps Fresh).Reachable s →
      CronService.step plainDeps s (.applyBatch i baseMs nowMs) = some s' →
      s.batches[i]? = some batch → batch.results? = some results → (id, result) ∈ results →
      jobOf id s.loaded = some job → SetFor plainDeps.toScheduleEnv atMs job →
      jobOf id s.file = some stored → SetFor plainDeps.toScheduleEnv atMs stored →
      (result.startedAt : Rat) < atMs →
      ∃ after, jobOf id s'.loaded = some after ∧ after.enabled = true ∧
        after.state.nextRunAtMs = some (.fin atMs) := by
  intro h
  obtain ⟨after, hafter, henabled, -⟩ := h movedService appliedService 0 2000 2000
    ⟨.tick 1, [⟨"job", .done ⟨.ok, none, 1000, 2000⟩⟩]⟩ _ "job" ⟨.ok, none, 1000, 2000⟩ _ _ 5000
    movedService_reachable (Option.some_get movedService_apply).symm (by decide) rfl
    (List.mem_singleton.mpr rfl) (Option.some_get movedService_job).symm (by decide +kernel)
    (Option.some_get movedService_stored).symm (by decide +kernel) (by norm_num)
  have hdisabled : (jobOf "job" appliedService.loaded).map (·.enabled) = some false := by
    decide
  rw [hafter, Option.map_some, henabled] at hdisabled
  cases hdisabled

end OpenClaw.Cron
