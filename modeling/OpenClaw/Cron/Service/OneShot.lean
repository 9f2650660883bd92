import OpenClaw.Cron.Service.Reschedule

/-!
# How often a one-shot runs

A one-shot is retried after a transient error only, and each retry is counted
in the job. The count bounds the runs of a scheduler that nobody restarts, as
long as nobody edits the job or runs it by hand.
-/

namespace OpenClaw.Cron

open Js CronService

variable {D : Type} {deps : CronDeps D} {env : ScheduleEnv} {job job' : CronJob D} {id : String}

-- ---
-- What keeps the count
-- ---

/-- A change that is neither an edit nor an outcome. -/
structure KeepsCount (job job' : CronJob D) : Prop where
  once : isAt job'.schedule = true
  enabled : job'.enabled = job.enabled
  errors : job'.state.consecutiveErrors = job.state.consecutiveErrors
  next : job.enabled = false → job.state.nextRunAtMs = none → job'.state.nextRunAtMs = none

theorem isAt_anchoredSchedule (h : isAt job.schedule = true) :
    anchoredSchedule job nowMs = job.schedule := by
  cases hschedule : job.schedule <;> simp_all [isAt, anchoredSchedule]

theorem settledJob_keepsCount (nowMs : Int) (h : isAt job.schedule = true) :
    KeepsCount job (settledJob nowMs job) := by
  refine ⟨?_, rfl, rfl, fun hdisabled _ => ?_⟩
  · rw [← h]
    exact congrArg isAt (isAt_anchoredSchedule h)
  · simp [settledJob, hdisabled]

theorem KeepsCount.trans (h : KeepsCount job found) (h' : KeepsCount found job') :
    KeepsCount job job' := by
  refine ⟨h'.once, h'.enabled.trans h.enabled, h'.errors.trans h.errors, fun hdisabled hnext => ?_⟩
  exact h'.next (h.enabled.trans hdisabled) (h.next hdisabled hnext)

/-- Computing the next run of a one-shot does not fail. -/
theorem computeJobNextRunAtMs_isAt (h : isAt job.schedule = true) :
    ∃ next, computeJobNextRunAtMs env job nowMs = .ok next := by
  cases hschedule : job.schedule with
  | «at» time atMs =>
    simp only [computeJobNextRunAtMs, hschedule, pure, Except.pure]
    split
    · exact ⟨_, rfl⟩
    · split <;> exact ⟨_, rfl⟩
  | every everyMs anchorMs => simp [hschedule, isAt] at h
  | cron expr legacyExpr tz staggerMs => simp [hschedule, isAt] at h

theorem recomputeJobNextRunAtMs_keepsCount (env : ScheduleEnv) (nowMs : Int) (henabled : job.enabled = true)
    (h : isAt job.schedule = true) :
    KeepsCount job (recomputeJobNextRunAtMs env nowMs job).1 := by
  obtain ⟨next, hnext⟩ : ∃ next, computeJobNextRunAtMs env job nowMs = .ok next :=
    computeJobNextRunAtMs_isAt h
  simp only [recomputeJobNextRunAtMs, hnext]
  exact ⟨h, rfl, rfl, by simp [henabled]⟩

theorem maintainJob_keepsCount (recomputeExpired : Bool) (nowMs : Int) (h : isAt job.schedule = true) :
    KeepsCount job (walkJob (maintainJob env recomputeExpired nowMs) nowMs job).1 := by
  have hsettled := settledJob_keepsCount nowMs h
  rw [walkJob_fst]
  split
  · rename_i henabled
    have hrecomputed := hsettled.trans
      (recomputeJobNextRunAtMs_keepsCount env nowMs henabled hsettled.once)
    simp only [maintainJob]
    split
    · exact hrecomputed
    · split
      · exact hrecomputed
      · exact hsettled
  · exact hsettled

theorem fullWalk_keepsCount (h : isAt job.schedule = true) :
    KeepsCount job (fullWalk env nowMs job) := by
  have hsettled := settledJob_keepsCount nowMs h
  rw [fullWalk_eq]
  split
  · rename_i hmissing
    simp only [Bool.and_eq_true] at hmissing
    exact hsettled.trans (recomputeJobNextRunAtMs_keepsCount env nowMs hmissing.1 hsettled.once)
  · exact hsettled

theorem setRunning_keepsCount (h : isAt job.schedule = true) (marker : Option Number) :
    KeepsCount job (job.setRunning marker) :=
  ⟨h, rfl, rfl, fun _ hnext => hnext⟩

theorem reserveJob_keepsCount (h : isAt job.schedule = true) (nowMs : Int) :
    KeepsCount job (reserveJob nowMs job) :=
  ⟨h, rfl, rfl, fun _ hnext => hnext⟩

/-- The walk for maintenance leaves a disabled job no next run. -/
theorem maintainJob_disabled_next {env : ScheduleEnv} (recomputeExpired : Bool) (nowMs : Int)
    (h : job.enabled = false) :
    (walkJob (maintainJob env recomputeExpired nowMs) nowMs job).1.state.nextRunAtMs = none := by
  rw [walkJob_fst, h]
  simp [settledJob, h]

-- ---
-- The count of a stored job
-- ---

/-- What the stored one-shot says after `k` outcomes of the scheduler: while it
is enabled its errors in a row are at least as many, and after the first at
most `limit`. -/
structure Within (limit : Int) (k : Nat) (stored : Option (CronJob D)) : Prop where
  once : ∀ job, stored = some job → isAt job.schedule = true
  errors : ∀ job, stored = some job → job.enabled = true →
    (k : Int) ≤ job.state.consecutiveErrors.getD 0 ∧
      (k = 0 ∨ job.state.consecutiveErrors.getD 0 ≤ limit)

/-- Disabled, it has no next run. -/
structure Counted (limit : Int) (k : Nat) (stored : Option (CronJob D)) : Prop
    extends Within limit k stored where
  next : ∀ job, stored = some job → job.enabled = false → job.state.nextRunAtMs = none

theorem Counted.none : Counted limit k (none : Option (CronJob D)) :=
  ⟨⟨by simp, by simp⟩, by simp⟩

theorem Within.map {stored : Option (CronJob D)} {f : CronJob D → CronJob D}
    (h : Within limit k stored) (hf : ∀ job, isAt job.schedule = true → KeepsCount job (f job)) :
    Within limit k (stored.map f) := by
  cases stored with
  | none => exact h
  | some job =>
    have hkept := hf job (h.once job rfl)
    refine ⟨?_, ?_⟩
    · rintro _ ⟨⟩
      exact hkept.once
    · rintro _ ⟨⟩ henabled
      rw [hkept.errors]
      exact h.errors job rfl (hkept.enabled.symm.trans henabled)

theorem Counted.map {stored : Option (CronJob D)} {f : CronJob D → CronJob D}
    (h : Counted limit k stored) (hf : ∀ job, isAt job.schedule = true → KeepsCount job (f job)) :
    Counted limit k (stored.map f) := by
  refine ⟨h.toWithin.map hf, ?_⟩
  cases stored with
  | none => exact h.next
  | some job =>
    have hkept := hf job (h.once job rfl)
    rintro _ ⟨⟩ hdisabled
    have hdisabled' := hkept.enabled.symm.trans hdisabled
    exact hkept.next hdisabled' (h.next job rfl hdisabled')

/-- An outcome that is not the scheduler's does not count. -/
theorem Within.pred {stored : Option (CronJob D)} (h : Within limit (k + 1) stored) :
    Within limit k stored := by
  refine ⟨h.once, fun job hjob henabled => ?_⟩
  obtain ⟨hcount, hzero | hmax⟩ := h.errors job hjob henabled
  · omega
  · exact ⟨by omega, .inr hmax⟩

/-- The outcome counts as one more error, or the one-shot does not run again. -/
theorem Within.outcome {job : CronJob D} {result : RunResult} {f : CronJob D → CronJob D}
    (h : Within (resolveRetryConfig deps.retry).maxAttempts k (some job))
    (honce : ∀ job, isAt job.schedule = true → isAt (f job).schedule = true)
    (hstate : ∀ job, (f job).state = job.state) (henabled : ∀ job, (f job).enabled = job.enabled) :
    Within (resolveRetryConfig deps.retry).maxAttempts (k + 1)
      (outcome deps preserveSchedule f result job) := by
  have hjob := h.once job rfl
  simp only [OpenClaw.Cron.outcome]
  cases hagain : retries deps job result with
  | true =>
    rw [applyJobResult_retries hjob hagain]
    simp only [retries, Bool.and_eq_true, decide_eq_true_eq] at hagain
    obtain ⟨herror, -, hmax⟩ := hagain
    have herrors : (recordRun job result).state.consecutiveErrors.getD 0 = failures job := by
      simp [recordRun, herror, failures]
    refine ⟨?_, ?_⟩
    · rintro _ ⟨⟩
      exact honce _ hjob
    · rintro _ ⟨⟩ hlive
      rw [henabled] at hlive
      obtain ⟨hcount, -⟩ := h.errors job rfl hlive
      simp only [hstate, CronJob.setNextRun, CronJob.setState, herrors]
      exact ⟨by simp only [failures]; omega, .inr hmax⟩
  | false =>
    obtain hdelete | hdisable := applyJobResult_ends preserveSchedule hjob hagain
    · rw [if_pos hdelete]
      exact Counted.none.toWithin
    · split
      · exact Counted.none.toWithin
      · rw [hdisable]
        refine ⟨?_, ?_⟩
        · rintro _ ⟨⟩
          exact honce _ hjob
        · rintro _ ⟨⟩ hlive
          rw [henabled] at hlive
          cases hlive

/-- A job that may run has had at most as many outcomes as it may be retried. -/
theorem Within.le {job : CronJob D} (h : Within limit k (some job)) (henabled : job.enabled = true)
    (hlimit : 0 ≤ limit) : (k : Int) ≤ limit := by
  obtain ⟨hcount, rfl | hmax⟩ := h.errors job rfl henabled
  · exact hlimit
  · omega

theorem Counted.updateJob {jobs : List (CronJob D)} {f : CronJob D → CronJob D}
    (id' : String) (h : Counted limit k (jobOf id jobs)) (hid : ∀ job, (f job).id = job.id)
    (hf : ∀ job, isAt job.schedule = true → KeepsCount job (f job)) :
    Counted limit k (jobOf id (OpenClaw.Cron.updateJob id' f jobs)) := by
  by_cases hne : id' = id
  · rw [hne, jobOf_updateJob hid]
    exact h.map hf
  · rwa [jobOf_updateJob_ne hid hne]

theorem Counted.mapJobs {jobs : List (CronJob D)} {f : CronJob D → CronJob D}
    (h : Counted limit k (jobOf id jobs)) (hid : ∀ job, (f job).id = job.id)
    (hf : ∀ job, isAt job.schedule = true → KeepsCount job (f job)) :
    Counted limit k (jobOf id (jobs.map f)) := by
  rw [jobOf_map hid]
  exact h.map hf

theorem Within.walked {jobs : List (CronJob D)} (h : Within limit k (jobOf id jobs)) :
    Counted limit k (jobOf id (CronService.walked deps recomputeExpired nowMs jobs)) := by
  rw [jobOf_walked]
  refine ⟨h.map fun job => maintainJob_keepsCount recomputeExpired nowMs, fun job hjob hdisabled => ?_⟩
  obtain ⟨found, hfound, rfl⟩ := Option.map_eq_some_iff.mp hjob
  cases henabled : found.enabled with
  | false => exact maintainJob_disabled_next recomputeExpired nowMs henabled
  | true =>
    have honce : isAt found.schedule = true := h.once found hfound
    rw [(maintainJob_keepsCount recomputeExpired nowMs honce).enabled, henabled] at hdisabled
    cases hdisabled

theorem Counted.recomputed {jobs : List (CronJob D)} (h : Counted limit k (jobOf id jobs)) :
    Counted limit k (jobOf id (recomputeNextRuns env nowMs jobs).1) :=
  h.mapJobs (fun _ => fullWalk_id) fun _ => fullWalk_keepsCount

-- ---
-- Steps that leave the count alone
-- ---

/-- The step is neither a restart nor an edit of the job. -/
def Untouched (id : String) : CronStep D → Prop
  | .add id' _ _ _ _ | .update id' _ _ | .remove id' _ => id' ≠ id
  | .startBegin => False
  | .read _ | .stop | .inspect _ _ _ _ | .preflight _ _ _ _ | .reserve _ | .fire | .onTimer _ _
  | .endTick | .startPlan _ _ | .startFinish _ _ | .startRun _ _ | .finishRun _ _ _ _ _
  | .applyBatch _ _ _ => True

def isTickBatch (batch : RunBatch) : Bool :=
  match batch.owner with
  | .tick _ => true
  | .catchup _ | .manual _ => false

/-- No call of `start` is at work. -/
structure Started (s : CronService D) : Prop where
  starts : s.starts = []
  catchup : ∀ batch ∈ s.batches, ∀ ids, batch.owner ≠ .catchup ids

/-- The step does not apply an outcome that a tick has for the job. -/
def NotApplied (id : String) (s : CronService D) (a : CronStep D) : Prop :=
  ∀ i baseMs nowMs batch, a = .applyBatch i baseMs nowMs → s.batches[i]? = some batch →
    isTickBatch batch = true → id ∉ batch.ids

theorem jobOf_append_ne {jobs : List (CronJob D)} (hne : job.id ≠ id) :
    jobOf id (jobs ++ [job]) = jobOf id jobs := by
  simp [jobOf, List.find?_append, hne]

/-- What a manual run stores of the job it ran. -/
theorem Within.merged {job : CronJob D} {result : RunResult} {saved : List (CronJob D)}
    (h : Within (resolveRetryConfig deps.retry).maxAttempts k (some job))
    (honce : ∀ job, jobOf id saved = some job → isAt job.schedule = true) :
    Within (resolveRetryConfig deps.retry).maxAttempts k
      (jobOf id (if (applyJobResult deps forced result job).2 then saved.filter (·.id ≠ id)
        else OpenClaw.Cron.updateJob id
          (mergeManualRunSnapshotAfterReload (applyJobResult deps forced result job).1) saved)) := by
  split
  · rw [jobOf_filter]
    exact Counted.none.toWithin
  · rename_i hkept
    rw [jobOf_updateJob (merge_id _)]
    cases hsaved : jobOf id saved with
    | none => exact Counted.none.toWithin
    | some stored =>
      have houtcome : Within (resolveRetryConfig deps.retry).maxAttempts (k + 1)
          (OpenClaw.Cron.outcome deps forced (mergeManualRunSnapshotAfterReload · stored) result job) :=
        h.outcome (fun _ _ => honce stored hsaved) (fun _ => rfl) fun _ => rfl
      rw [OpenClaw.Cron.outcome, if_neg hkept] at houtcome
      exact houtcome.pred

theorem Counted.step {s : CronService D} {a : CronStep D} {jobs saved : List (CronJob D)}
    (hloaded : Counted (resolveRetryConfig deps.retry).maxAttempts k (jobOf id s.loaded))
    (hfile : Counted (resolveRetryConfig deps.retry).maxAttempts k (jobOf id s.file))
    (hstarted : Started s) (huntouched : Untouched id a) (hnot : NotApplied id s a) (h : JobsChange deps s a jobs saved) :
    Counted (resolveRetryConfig deps.retry).maxAttempts k (jobOf id jobs) ∧ Counted (resolveRetryConfig deps.retry).maxAttempts k (jobOf id saved) := by
  have hsaved {jobs saved : List (CronJob D)} (h : Saved s jobs saved)
      (hjobs : Counted (resolveRetryConfig deps.retry).maxAttempts k (jobOf id jobs)) :
      Counted (resolveRetryConfig deps.retry).maxAttempts k (jobOf id jobs) ∧ Counted (resolveRetryConfig deps.retry).maxAttempts k (jobOf id saved) := by
    obtain rfl | rfl := h
    · exact ⟨hjobs, hfile⟩
    · exact ⟨hjobs, hjobs⟩
  have hensured (nowMs : Int) : Counted (resolveRetryConfig deps.retry).maxAttempts k (jobOf id (s.ensured deps nowMs)) := by
    cases hstore : s.store with
    | some jobs =>
      simp only [ensured, hstore]
      rwa [loaded_some hstore] at hloaded
    | none =>
      simp only [ensured, hstore]
      exact hfile.recomputed
  cases h with
  | same => exact ⟨hloaded, hfile⟩
  | walked hat h => exact hsaved h hloaded.toWithin.walked
  | ensured => exact ⟨hensured _, hfile⟩
  | added hfresh hcreate hjobs =>
    suffices Counted (resolveRetryConfig deps.retry).maxAttempts k (jobOf id jobs) from ⟨this, this⟩
    rw [hjobs]
    refine Counted.recomputed ?_
    rw [jobOf_append_ne (by rw [createJob_id hcreate]; exact huntouched)]
    exact hensured _
  | updated hjob h =>
    refine hsaved h ?_
    rwa [jobOf_updateJob_ne (updatedJob_id deps _ _) huntouched]
  | removed hjobs =>
    suffices Counted (resolveRetryConfig deps.retry).maxAttempts k (jobOf id jobs) from ⟨this, this⟩
    rw [hjobs, jobOf_filter_ne huntouched]
    exact hensured _
  | reserved hp hjob hidle hjobs =>
    suffices Counted (resolveRetryConfig deps.retry).maxAttempts k (jobOf id jobs) from ⟨this, this⟩
    rw [hjobs]
    exact hloaded.updateJob _ (reserveJob_id _) fun _ honce => reserveJob_keepsCount honce _
  | idleTick hdue h => exact hsaved h hfile.toWithin.walked
  | reservedTick hdue hjobs =>
    suffices Counted (resolveRetryConfig deps.retry).maxAttempts k (jobOf id jobs) from ⟨this, this⟩
    rw [hjobs]
    refine hfile.mapJobs (fun job => ?_) fun job honce => ?_
    · split <;> rfl
    · split
      · exact reserveJob_keepsCount honce _
      · exact ⟨honce, rfl, rfl, fun _ hnext => hnext⟩
  | begun h => exact huntouched.elim
  | planned hstart hmissed hjobs =>
    rw [hstarted.starts] at hstart
    cases hstart
  | finished h => exact hsaved h hloaded.recomputed
  | started hbatch howner hfirst =>
    exact ⟨hloaded.updateJob _ (setRunning_id _) fun _ honce => setRunning_keepsCount honce _, hfile⟩
  | appliedTick hbatch howner hresults hjobs =>
    suffices Counted (resolveRetryConfig deps.retry).maxAttempts k (jobOf id jobs) from ⟨this, this⟩
    have hid := hnot _ _ _ _ rfl hbatch (by rw [isTickBatch, howner])
    rw [hjobs]
    refine Within.walked ?_
    rw [jobOf_applyResults_ne (results?_ids hresults ▸ hid)]
    exact hfile.toWithin
  | appliedCatchup hbatch howner hresults hjobs =>
    exact absurd howner (hstarted.catchup _ (List.mem_of_getElem? hbatch) _)
  | @appliedManual i batch result rest job _ nowMs forced baseMs id' hbatch howner hresults hjob hjobs =>
    suffices Counted (resolveRetryConfig deps.retry).maxAttempts k (jobOf id jobs) from ⟨this, this⟩
    rw [hjobs]
    refine Within.walked ?_
    by_cases hne : id' = id
    · subst hne
      rw [show jobOf id' s.loaded = some job from hjob] at hloaded
      exact hloaded.toWithin.merged hfile.once
    · split
      · rw [jobOf_filter_ne hne]
        exact hfile.toWithin
      · rw [jobOf_updateJob_ne (merge_id _) hne]
        exact hfile.toWithin

-- ---
-- The run that a tick holds
-- ---

theorem exists_split {l : List α} (h : l[i]? = some b) :
    ∃ l₁ l₂, l = l₁ ++ b :: l₂ ∧ (∀ b', l.set i b' = l₁ ++ b' :: l₂) ∧ l.eraseIdx i = l₁ ++ l₂ := by
  obtain ⟨hi, rfl⟩ := List.getElem?_eq_some_iff.mp h
  refine ⟨l.take i, l.drop (i + 1), ?_, fun b' => ?_, List.eraseIdx_eq_take_drop_succ l i⟩
  · simp
  · rw [List.set_eq_take_append_cons_drop, if_pos hi]

/-- Where the run of the job in a batch is. -/
def runPhase (id : String) (batch : RunBatch) : Option RunPhase :=
  (batch.entries.find? (·.id = id)).map (·.phase)

/-- Whether the run has started, as a number. -/
def begun : Option RunPhase → Nat
  | some (.executing _) | some (.done _) => 1
  | some .waiting | none => 0

/-- Whether there is a run, as a number. -/
def pending : Option RunPhase → Nat
  | some _ => 1
  | none => 0

theorem runPhase_mem : runPhase id batch = none ↔ id ∉ batch.ids := by
  simp [runPhase, RunBatch.ids]

theorem startFirst_mem (h : startFirst nowMs entries = some (id, entries')) :
    id ∈ entries.map (·.id) := by
  induction entries generalizing entries' with
  | nil => cases h
  | cons entry entries ih =>
    simp only [startFirst] at h
    split at h
    · cases h
      exact List.mem_cons_self
    · simp only [Option.map_eq_some_iff] at h
      obtain ⟨⟨_, rest⟩, hrest, hpair⟩ := h
      cases hpair
      exact List.mem_cons_of_mem _ (ih hrest)

/-- A run starts that waits. -/
theorem startFirst_phase {id' : String} (id : String) (h : startFirst nowMs entries = some (id', entries'))
    (hnodup : (entries.map (·.id)).Nodup) :
    (entries'.find? (·.id = id)).map (·.phase) =
        (if id' = id then some (.executing nowMs) else (entries.find? (·.id = id)).map (·.phase)) ∧
      (id' = id → (entries.find? (·.id = id)).map (·.phase) = some .waiting) := by
  induction entries generalizing entries' with
  | nil => cases h
  | cons entry entries ih =>
    simp only [startFirst] at h
    rw [List.map_cons, List.nodup_cons] at hnodup
    split at h
    · rename_i hwaiting
      cases h
      by_cases hid : entry.id = id
      · simp [hid, hwaiting]
      · simp [hid]
    · simp only [Option.map_eq_some_iff] at h
      obtain ⟨⟨started, rest⟩, hrest, hpair⟩ := h
      obtain ⟨rfl, rfl⟩ := Prod.mk.inj hpair
      by_cases hid : entry.id = id
      · have hne : started ≠ id := by
          rintro rfl
          exact hnodup.1 (hid ▸ startFirst_mem hrest)
        simp [hid, hne]
      · simpa [hid] using ih hrest hnodup.2

theorem finishEntry_phase (id id' : String) (status : CronRunStatus) (error : Option String) (nowMs : Int)
    (batch : RunBatch) :
    begun (runPhase id { batch with entries := batch.entries.map (finishEntry id' status error nowMs) }) =
        begun (runPhase id batch) ∧
      pending (runPhase id { batch with
        entries := batch.entries.map (finishEntry id' status error nowMs) }) =
        pending (runPhase id batch) := by
  simp only [runPhase, List.find?_map, Function.comp_def, finishEntry_id, Option.map_map]
  cases batch.entries.find? (·.id = id) with
  | none => exact ⟨rfl, rfl⟩
  | some entry =>
    obtain ⟨entryId, phase⟩ := entry
    cases phase with
    | waiting => exact ⟨rfl, rfl⟩
    | executing startedAt =>
      simp only [Option.map_some, finishEntry]
      split <;> exact ⟨rfl, rfl⟩
    | done result => exact ⟨rfl, rfl⟩

/-- The runs of a batch whose outcomes are applied have started. -/
theorem results?_phase (h : RunBatch.results? batch = some results) (hid : id ∈ batch.ids) :
    ∃ result, (id, result) ∈ results ∧ runPhase id batch = some (.done result) := by
  obtain ⟨owner, entries⟩ := batch
  induction entries generalizing results with
  | nil => cases hid
  | cons entry entries ih =>
    simp only [RunBatch.results?, List.mapM_cons, Option.pure_def, Option.bind_eq_bind,
      Option.bind_eq_some_iff, Option.map_eq_some_iff, Option.some.injEq] at h
    obtain ⟨_, ⟨result, hresult, rfl⟩, rest, hrest, rfl⟩ := h
    have hdone : entry.phase = .done result := by
      cases hphase : entry.phase <;> simp_all [RunEntry.result?]
    by_cases hentry : entry.id = id
    · exact ⟨result, hentry ▸ List.mem_cons_self, by simp [runPhase, hentry, hdone]⟩
    · have hmem : id ∈ RunBatch.ids ⟨owner, entries⟩ := by
        simpa [RunBatch.ids, Ne.symm hentry] using hid
      obtain ⟨found, hfound, hphase⟩ := ih hrest hmem
      exact ⟨found, List.mem_cons_of_mem _ hfound, by simpa [runPhase, hentry] using hphase⟩

-- ---
-- Executions
-- ---

/-- The executions of the job that the scheduler starts in this step. -/
def executionsAt (id : String) (s : CronService D) : CronStep D → Nat
  | .startRun i now =>
    match s.batches[i]? with
    | some batch =>
      if isTickBatch batch && (startFirst now batch.entries).any (·.1 = id) then 1 else 0
    | none => 0
  | _ => 0

/-- The executions of the job that the scheduler starts in the steps of a run. -/
def executions (deps : CronDeps D) (id : String) : CronService D → List (CronStep D) → Nat
  | _, [] => 0
  | s, a :: as =>
    executionsAt id s a + match step deps s a with
      | some s' => executions deps id s' as
      | none => 0

/-- After `n` executions, `k` of which were applied: a tick that is at work holds
the batch `held`, and a run of the job in it is one more that is allowed. -/
structure Account (deps : CronDeps D) (id : String) (n k : Nat) (held : Option RunBatch)
    (s : CronService D) : Prop where
  tick : s.tick = .busy ↔ held.isSome = true
  batches : s.batches.filter isTickBatch = held.toList
  loaded : Counted (resolveRetryConfig deps.retry).maxAttempts k (jobOf id s.loaded)
  file : Counted (resolveRetryConfig deps.retry).maxAttempts k (jobOf id s.file)
  count : n = k + begun (held.bind (runPhase id))
  bound : (k : Int) + pending (held.bind (runPhase id)) ≤ (resolveRetryConfig deps.retry).maxAttempts + 1

structure OneShotRun (deps : CronDeps D) (id : String) (n : Nat) (s : CronService D) : Prop where
  unique : UniqueIds s
  started : Started s
  account : ∃ k held, Account deps id n k held s

theorem Started.step {s s' : CronService D} (h : Started s) (huntouched : Untouched id a)
    (hstep : CronService.step deps s a = some s') : Started s' := by
  refine ⟨?_, ?_⟩
  · obtain hsame | rfl | ⟨i, now, -, hstart⟩ | ⟨i, baseMs, now, ids, entries, -, hbatch⟩ :=
      (step_control hstep).starts
    · exact hsame.trans h.starts
    · exact huntouched.elim
    · simp [h.starts] at hstart
    · exact absurd rfl (h.catchup _ (List.mem_of_getElem? hbatch) ids)
  · have hchange := step_batches hstep
    generalize s'.batches = after at hchange ⊢
    intro batch hbatch ids howner
    cases hchange with
    | same => exact h.catchup batch hbatch ids howner
    | manual hp hjob =>
      obtain hbatch | hbatch := List.mem_append.mp hbatch
      · exact h.catchup batch hbatch ids howner
      · rw [List.mem_singleton.mp hbatch] at howner
        cases howner
    | tick htick hdue =>
      obtain hbatch | hbatch := List.mem_append.mp hbatch
      · exact h.catchup batch hbatch ids howner
      · rw [List.mem_singleton.mp hbatch] at howner
        cases howner
    | catchup hstart hmissed => simp [h.starts] at hstart
    | started hbatch₀ hfirst hfree =>
      obtain hbatch | rfl := List.mem_or_eq_of_mem_set hbatch
      · exact h.catchup batch hbatch ids howner
      · exact h.catchup _ (List.mem_of_getElem? hbatch₀) ids howner
    | finished hbatch₀ =>
      obtain hbatch | rfl := List.mem_or_eq_of_mem_set hbatch
      · exact h.catchup batch hbatch ids howner
      · exact h.catchup _ (List.mem_of_getElem? hbatch₀) ids howner
    | applied hbatch₀ hresults => exact h.catchup batch (List.mem_of_mem_eraseIdx hbatch) ids howner

theorem startRun_batches {s s' : CronService D} (h : s.startRun deps i now = some s') :
    ∃ batch id entries, s.batches[i]? = some batch ∧
      startFirst now batch.entries = some (id, entries) ∧
      s'.batches = s.batches.set i { batch with entries } := by
  simp only [startRun] at h
  split at h
  · cases h
  · rename_i batch hbatch
    split at h
    · cases h
    · simp only [Option.map_eq_some_iff] at h
      obtain ⟨⟨id, entries⟩, hfirst, rfl⟩ := h
      refine ⟨batch, id, entries, hbatch, hfirst, ?_⟩
      split
      · split <;> rfl
      · rfl
      · rfl

theorem applyBatch_batches {s s' : CronService D} (h : s.applyBatch deps i baseMs now = some s') :
    ∃ batch results, s.batches[i]? = some batch ∧ batch.results? = some results ∧
      s'.batches = s.batches.eraseIdx i := by
  simp only [applyBatch] at h
  split at h
  · cases h
  · rename_i batch hbatch
    simp only [Option.map_eq_some_iff] at h
    obtain ⟨results, hresults, rfl⟩ := h
    refine ⟨batch, results, hbatch, hresults, ?_⟩
    split
    · rfl
    · simp [applyCatchup]
    · exact applyManual_batches
    · rfl

/-- Other batches than a tick's come and go. -/
theorem filter_other {batches : List RunBatch} {batch : RunBatch} (batch' : RunBatch)
    (h : batches[i]? = some batch)
    (hother : isTickBatch batch = false) (howner : batch'.owner = batch.owner) :
    (batches.set i batch').filter isTickBatch = batches.filter isTickBatch ∧
      (batches.eraseIdx i).filter isTickBatch = batches.filter isTickBatch := by
  have hother' : isTickBatch batch' = false := by rwa [isTickBatch, howner]
  obtain ⟨l₁, l₂, rfl, hset, herase⟩ := exists_split h
  simp [hset, herase, hother, hother']

/-- The batch of a tick is the one that is held. -/
theorem filter_held {batches : List RunBatch} {batch : RunBatch} {held : Option RunBatch}
    (batch' : RunBatch) (h : batches[i]? = some batch) (hheld : batches.filter isTickBatch = held.toList)
    (htick : isTickBatch batch = true) (howner : batch'.owner = batch.owner) :
    held = some batch ∧ (batches.set i batch').filter isTickBatch = [batch'] ∧
      (batches.eraseIdx i).filter isTickBatch = [] := by
  have htick' : isTickBatch batch' = true := by rwa [isTickBatch, howner]
  obtain ⟨l₁, l₂, rfl, hset, herase⟩ := exists_split h
  rw [hset, herase]
  simp only [List.filter_append, List.filter_cons, htick, htick', if_true] at hheld ⊢
  cases held with
  | none => simp at hheld
  | some found =>
    have hlength := congrArg List.length hheld
    simp only [Option.toList_some, List.length_append, List.length_cons, List.length_nil] at hlength
    have h₁ := List.eq_nil_of_length_eq_zero (show (l₁.filter isTickBatch).length = 0 by omega)
    have h₂ := List.eq_nil_of_length_eq_zero (show (l₂.filter isTickBatch).length = 0 by omega)
    rw [h₁, h₂] at hheld ⊢
    simp_all

variable {s s' : CronService D} {n k : Nat} {held : Option RunBatch}

/-- The account stays as long as the tick holds the same batch. -/
theorem Account.keep (h : Account deps id n k held s) (hstarted : Started s)
    (huntouched : Untouched id a) (hnot : NotApplied id s a) (hstep : CronService.step deps s a = some s')
    (hbusy : s'.tick = .busy ↔ s.tick = .busy)
    (hsame : s'.batches.filter isTickBatch = s.batches.filter isTickBatch) :
    Account deps id n k held s' := by
  obtain ⟨hloaded, hfile⟩ := h.loaded.step h.file hstarted huntouched hnot (step_jobs hstep)
  exact ⟨hbusy.trans h.tick, hsame.trans h.batches, hloaded, hfile, h.count, h.bound⟩

theorem runPhase_waiting {ids : List String} :
    runPhase id ⟨owner, ids.map (⟨·, .waiting⟩)⟩ = if id ∈ ids then some .waiting else none := by
  simp only [runPhase, List.find?_map, Option.map_map, Function.comp_def]
  cases hfind : ids.find? (decide <| · = id) with
  | none =>
    rw [if_neg fun hmem => by simpa using List.find?_eq_none.mp hfind id hmem]
    rfl
  | some found =>
    obtain rfl : found = id := by simpa using List.find?_some hfind
    rw [if_pos (List.mem_of_find?_eq_some hfind)]
    rfl

theorem dueIds_enabled (h : id ∈ dueIds deps checkMs jobs) (hnodup : (jobIds jobs).Nodup) :
    ∃ job, jobOf id jobs = some job ∧ job.enabled = true := by
  obtain ⟨job, hjob, rfl⟩ := List.mem_map.mp h
  obtain ⟨hmem, hrunnable⟩ := List.mem_filter.mp hjob
  refine ⟨job, jobOf_mem hnodup hmem, ?_⟩
  by_contra hdisabled
  simp [isRunnableJob, hdisabled] at hrunnable

/-- A tick reserves a one-shot only while it may be tried again. -/
theorem Account.onTimer (hlimit : 0 ≤ (resolveRetryConfig deps.retry).maxAttempts)
    (h : Account deps id n k held s) (hunique : UniqueIds s) (hstarted : Started s)
    (hstep : CronService.step deps s (.onTimer checkMs markMs) = some s') :
    ∃ held', Account deps id n k held' s' := by
  obtain ⟨hloaded, hfile⟩ := h.loaded.step h.file hstarted (a := .onTimer checkMs markMs) trivial
    (fun _ _ _ _ hlabel => by cases hlabel) (step_jobs hstep)
  simp only [CronService.step, Option.ite_none_right_eq_some] at hstep
  obtain ⟨hwaiting, hstep⟩ := hstep
  cases hstep
  have hheld : held = none := by
    have hnone := h.tick
    simp only [hwaiting, reduceCtorEq, false_iff] at hnone
    simpa using hnone
  subst hheld
  have hcount := h.count
  by_cases hdue : dueIds deps checkMs s.file = []
  · refine ⟨none, ?_, ?_, hloaded, hfile, hcount, h.bound⟩
    · simp [onTimer_idle hdue]
    · rw [onTimer_idle hdue]
      simpa using h.batches
  · refine ⟨some ⟨.tick (s.generation + 1), (dueIds deps checkMs s.file).map (⟨·, .waiting⟩)⟩,
      ?_, ?_, hloaded, hfile, ?_, ?_⟩
    · simp [onTimer_due hdue]
    · have hnone : s.batches.filter isTickBatch = [] := h.batches
      rw [onTimer_due hdue, List.filter_append, hnone]
      rfl
    · rw [Option.bind_some, runPhase_waiting]
      split <;> exact hcount
    · rw [Option.bind_some, runPhase_waiting]
      split
      · rename_i hmem
        obtain ⟨job, hjob, henabled⟩ := dueIds_enabled hmem hunique.file
        have hle := (hjob ▸ h.file.toWithin).le henabled hlimit
        simp only [pending]
        omega
      · exact h.bound

theorem Account.startRun (h : Account deps id n k held s) (hunique : UniqueIds s)
    (hstarted : Started s) (hstep : CronService.step deps s (.startRun i now) = some s') :
    ∃ held', Account deps id (n + executionsAt id s (.startRun i now)) k held' s' := by
  obtain ⟨hloaded, hfile⟩ := h.loaded.step h.file hstarted (a := .startRun i now) trivial
    (fun _ _ _ _ hlabel => by cases hlabel) (step_jobs hstep)
  have htick : s'.tick = s.tick := (step_control hstep).tick
  obtain ⟨batch, id', entries, hbatch, hfirst, hbatches⟩ := startRun_batches hstep
  have hexecutions : executionsAt id s (.startRun i now) =
      if isTickBatch batch = true ∧ id' = id then 1 else 0 := by
    simp [executionsAt, hbatch, hfirst]
  rw [hexecutions]
  cases howner : isTickBatch batch with
  | false =>
    obtain ⟨hsame, -⟩ := filter_other { batch with entries } hbatch howner rfl
    refine ⟨held, htick ▸ h.tick, ?_, hloaded, hfile, by simpa using h.count, h.bound⟩
    rw [hbatches, hsame]
    exact h.batches
  | true =>
    obtain ⟨rfl, hset, -⟩ :=
      filter_held { batch with entries } hbatch h.batches howner rfl
    obtain ⟨hphase, hwaited⟩ := startFirst_phase id hfirst
      (hunique.batch batch (List.mem_of_getElem? hbatch)).ids
    have hcount := h.count
    have hbound := h.bound
    rw [Option.bind_some] at hcount hbound
    have hphase' : runPhase id { batch with entries } =
        if id' = id then some (.executing now) else runPhase id batch := hphase
    refine ⟨some { batch with entries }, by simpa [htick] using h.tick, ?_, hloaded, hfile, ?_, ?_⟩
    · rw [hbatches, hset]
      rfl
    · rw [Option.bind_some, hphase']
      by_cases hid : id' = id
      · rw [show runPhase id batch = some .waiting from hwaited hid] at hcount
        simpa [hid, begun] using hcount
      · simpa [hid] using hcount
    · rw [Option.bind_some, hphase']
      by_cases hid : id' = id
      · rw [show runPhase id batch = some .waiting from hwaited hid] at hbound
        rw [if_pos hid]
        exact hbound
      · simpa [hid] using hbound

theorem Account.finishRun (h : Account deps id n k held s) (hstarted : Started s)
    (hstep : CronService.step deps s (.finishRun i id' status error now) = some s') :
    ∃ held', Account deps id n k held' s' := by
  obtain ⟨hloaded, hfile⟩ := h.loaded.step h.file hstarted (a := .finishRun i id' status error now) trivial
    (fun _ _ _ _ hlabel => by cases hlabel) (step_jobs hstep)
  simp only [CronService.step, CronService.finishRun, Option.map_eq_some_iff] at hstep
  obtain ⟨batch, hbatch, rfl⟩ := hstep
  cases howner : isTickBatch batch with
  | false =>
    obtain ⟨hsame, -⟩ := filter_other { batch with
      entries := batch.entries.map (finishEntry id' status error now) } hbatch howner rfl
    exact ⟨held, h.tick, hsame.trans h.batches, hloaded, hfile, h.count, h.bound⟩
  | true =>
    obtain ⟨rfl, hset, -⟩ := filter_held { batch with
      entries := batch.entries.map (finishEntry id' status error now) } hbatch h.batches howner rfl
    obtain ⟨hbegun, hpending⟩ := finishEntry_phase id id' status error now batch
    refine ⟨some _, by simpa using h.tick, hset, hloaded, hfile, ?_, ?_⟩
    · rw [Option.bind_some, hbegun]
      exact h.count
    · rw [Option.bind_some, hpending]
      exact h.bound

/-- An outcome of the scheduler is one more that the job counts. -/
theorem applyTick_counted (applied : CronService D) (now : Int)
    (hfile : Counted (resolveRetryConfig deps.retry).maxAttempts k (jobOf id applied.file))
    (hnodup : (results.map (·.1)).Nodup) (hmem : (id, result) ∈ results) :
    Counted (resolveRetryConfig deps.retry).maxAttempts (k + 1)
      (jobOf id (applied.applyTick deps results now).loaded) := by
  show Counted _ _ (jobOf id (walked deps false now (applyResults deps false results applied.file)))
  refine Within.walked ?_
  rw [jobOf_applyResults hnodup hmem, jobOf_applyToStore]
  cases hstored : jobOf id applied.file with
  | none => exact Counted.none.toWithin
  | some job =>
    rw [hstored] at hfile
    exact hfile.outcome (fun _ h => h) (fun _ => rfl) fun _ => rfl

theorem Account.applyBatch (h : Account deps id n k held s) (hunique : UniqueIds s)
    (hstarted : Started s) (hstep : CronService.step deps s (.applyBatch i baseMs now) = some s') :
    ∃ k' held', Account deps id n k' held' s' := by
  have hcontrol := (step_control hstep).tick
  obtain ⟨batch, results, hbatch, hresults, hbatches⟩ := applyBatch_batches hstep
  cases howner : isTickBatch batch with
  | false =>
    refine ⟨k, held, h.keep hstarted (a := .applyBatch i baseMs now) trivial ?_ hstep ?_ ?_⟩
    · rintro _ _ _ found ⟨⟩ hfound hfoundTick
      rw [hbatch] at hfound
      cases hfound
      rw [howner] at hfoundTick
      cases hfoundTick
    · obtain ⟨owner, entries⟩ := batch
      cases owner with
      | tick generation => cases howner
      | catchup ids => rw [hcontrol]; simp only [tickAfter, hbatch]
      | manual forced => rw [hcontrol]; simp only [tickAfter, hbatch]
    · rw [hbatches]
      exact (filter_other batch hbatch howner rfl).2
  | true =>
    obtain ⟨rfl, -, herased⟩ := filter_held batch hbatch h.batches howner rfl
    have hended : s'.tick = .ending := by
      obtain ⟨owner, entries⟩ := batch
      cases owner with
      | tick generation => rw [hcontrol]; simp only [tickAfter, hbatch]
      | catchup ids => cases howner
      | manual forced => cases howner
    have hcount := h.count
    have hbound := h.bound
    rw [Option.bind_some] at hcount hbound
    by_cases hid : id ∈ batch.ids
    · obtain ⟨result, hmem, hphase⟩ := results?_phase hresults hid
      have hnodup : (results.map (·.1)).Nodup :=
        results?_ids hresults ▸ (hunique.batch batch (List.mem_of_getElem? hbatch)).ids
      rw [hphase] at hcount hbound
      obtain ⟨owner, entries⟩ := batch
      cases owner with
      | tick generation =>
        simp only [CronService.step, CronService.applyBatch, hbatch, hresults, Option.map_some,
          Option.some.injEq] at hstep
        subst hstep
        have hcounted := applyTick_counted { s with batches := s.batches.eraseIdx i } now h.file
          hnodup hmem
        refine ⟨k + 1, none, by simp [hended], ?_, hcounted, hcounted, by simpa [begun] using hcount, ?_⟩
        · rw [hbatches]
          exact herased
        · simpa [pending] using hbound
      | catchup ids => cases howner
      | manual forced => cases howner
    · have hphase := runPhase_mem.mpr hid
      rw [hphase] at hcount hbound
      obtain ⟨hloaded, hfile⟩ := h.loaded.step h.file hstarted (a := .applyBatch i baseMs now) trivial
        (by
          rintro _ _ _ found ⟨⟩ hfound -
          rw [hbatch] at hfound
          cases hfound
          exact hid) (step_jobs hstep)
      refine ⟨k, none, by simp [hended], ?_, hloaded, hfile, hcount, hbound⟩
      rw [hbatches]
      exact herased

/-- The step is a section of a tick or works on a batch. -/
def isRunStep : CronStep D → Bool
  | .onTimer _ _ | .startRun _ _ | .finishRun _ _ _ _ _ | .applyBatch _ _ _ => true
  | .read _ | .add _ _ _ _ _ | .update _ _ _ | .remove _ _ | .stop | .inspect _ _ _ _
  | .preflight _ _ _ _ | .reserve _ | .fire | .endTick | .startBegin | .startPlan _ _
  | .startFinish _ _ => false

theorem Account.other (h : Account deps id n k held s) (hstarted : Started s)
    (huntouched : Untouched id a) (hstep : CronService.step deps s a = some s')
    (hother : isRunStep a = false) : Account deps id n k held s' := by
  have hcontrol := (step_control hstep).tick
  refine h.keep hstarted huntouched ?_ hstep ?_ ?_
  · rintro _ _ _ _ rfl
    cases hother
  · rw [hcontrol]
    cases a with
    | fire =>
      simp only [tickAfter]
      split
      · rename_i hidle
        simp [hidle]
      · rfl
    | endTick =>
      simp only [CronService.step, Option.ite_none_right_eq_some] at hstep
      simp [tickAfter, hstep.1]
    | onTimer checkMs markMs => cases hother
    | applyBatch i baseMs now => cases hother
    | _ => rfl
  · have hchange := step_batches hstep
    generalize s'.batches = after at hchange ⊢
    cases hchange with
    | same => rfl
    | manual hp hjob => simp [isTickBatch]
    | catchup hstart hmissed => simp [hstarted.starts] at hstart
    | tick | started | finished | applied => cases hother

theorem OneShotRun.step (hlimit : 0 ≤ (resolveRetryConfig deps.retry).maxAttempts)
    (h : OneShotRun deps id n s) (huntouched : Untouched id a)
    (hstep : CronService.step deps s a = some s') :
    OneShotRun deps id (n + executionsAt id s a) s' := by
  have hunique := h.unique
  have hstarted := h.started
  obtain ⟨k, held, haccount⟩ := h.account
  refine ⟨hunique.step hstep, hstarted.step huntouched hstep, ?_⟩
  cases hrun : isRunStep a with
  | false =>
    have hnone : executionsAt id s a = 0 := by cases a <;> first | rfl | cases hrun
    rw [hnone]
    exact ⟨k, held, haccount.other hstarted huntouched hstep hrun⟩
  | true =>
    cases a with
    | onTimer checkMs markMs => exact ⟨k, haccount.onTimer hlimit hunique hstarted hstep⟩
    | startRun i now => exact ⟨k, haccount.startRun hunique hstarted hstep⟩
    | finishRun i id' status error now => exact ⟨k, haccount.finishRun hstarted hstep⟩
    | applyBatch i baseMs now => exact haccount.applyBatch hunique hstarted hstep
    | _ => cases hrun

theorem OneShotRun.run {as : List (CronStep D)} {init : CronService D → Prop}
    (hlimit : 0 ≤ (resolveRetryConfig deps.retry).maxAttempts)
    (h : OneShotRun deps id n s) (huntouched : ∀ a ∈ as, Untouched id a)
    (hrun : (CronService.system deps init).run s as = some s') :
    OneShotRun deps id (n + executions deps id s as) s' := by
  induction as generalizing n s with
  | nil =>
    cases hrun
    exact h
  | cons a as ih =>
    simp only [Transition.System.run, Option.bind_eq_some_iff] at hrun
    obtain ⟨m, hstep, hrun⟩ := hrun
    have hm := ih (h.step hlimit (huntouched a List.mem_cons_self) hstep)
      (fun b hb => huntouched b (List.mem_cons_of_mem a hb)) hrun
    have hstep' : CronService.step deps s a = some m := hstep
    rw [Nat.add_assoc] at hm
    simpa only [executions, hstep'] using hm

-- ---
-- The bound
-- ---

/-- A one-shot that the scheduler has not run yet. -/
structure IsOneShot (job : CronJob D) : Prop where
  once : isAt job.schedule = true
  errors : 0 ≤ job.state.consecutiveErrors.getD 0
  next : job.enabled = false → job.state.nextRunAtMs = none

/-- A stored job that does not run again. -/
def Spent (job : CronJob D) : Prop :=
  job.enabled = false ∧ job.state.nextRunAtMs = none

/-- A stored job that was executed `n` times and may be tried again. -/
def MayRetry (deps : CronDeps D) (n : Nat) (job : CronJob D) : Prop :=
  job.enabled = true ∧ (n : Int) ≤ job.state.consecutiveErrors.getD 0 ∧
    job.state.consecutiveErrors.getD 0 ≤ (resolveRetryConfig deps.retry).maxAttempts

/-- A scheduler that is up and has reserved nothing. -/
structure UpAndIdle (s : CronService D) : Prop where
  fresh : Fresh s
  started : s.starts = []
  tick : s.tick ≠ .busy

/-- The scheduler holds no run of the job. -/
def NotHeld (id : String) (s : CronService D) : Prop :=
  ∀ batch ∈ s.batches, isTickBatch batch = true → id ∉ batch.ids

theorem IsOneShot.counted {stored : Option (CronJob D)} (h : ∀ job, stored = some job → IsOneShot job) :
    Counted limit 0 stored :=
  ⟨⟨fun job hjob => (h job hjob).once, fun job hjob _ => ⟨(h job hjob).errors, .inl rfl⟩⟩,
    fun job hjob => (h job hjob).next⟩

theorem UpAndIdle.run (hup : UpAndIdle s) (hlimit : 0 ≤ (resolveRetryConfig deps.retry).maxAttempts)
    (hloaded : ∀ job, jobOf id s.loaded = some job → IsOneShot job)
    (hfile : ∀ job, jobOf id s.file = some job → IsOneShot job) : OneShotRun deps id 0 s := by
  obtain ⟨hbatches, -, -⟩ := hup.fresh
  refine ⟨hup.fresh.uniqueIds, ⟨hup.started, by simp [hbatches]⟩, 0, none, ?_⟩
  exact ⟨by simp [hup.tick], by simp [hbatches], IsOneShot.counted hloaded, IsOneShot.counted hfile, rfl, by
    simp only [Option.bind_none, pending]
    omega⟩

/-- The job that is left of a one-shot whose last outcome is applied. -/
theorem Counted.settled {stored : Option (CronJob D)} {job : CronJob D}
    (h : Counted (resolveRetryConfig deps.retry).maxAttempts n stored) (hn : 0 < n)
    (hjob : stored = some job) : Spent job ∨ MayRetry deps n job := by
  cases henabled : job.enabled with
  | false => exact .inl ⟨henabled, h.next job hjob henabled⟩
  | true =>
    obtain ⟨hcount, hzero | hmax⟩ := h.errors job hjob henabled
    · omega
    · exact .inr ⟨henabled, hcount, hmax⟩

theorem OneShotRun.le (h : OneShotRun deps id n s) :
    (n : Int) ≤ (resolveRetryConfig deps.retry).maxAttempts + 1 := by
  obtain ⟨k, held, haccount⟩ := h.account
  have hcount := haccount.count
  have hbound := haccount.bound
  have hbegun (phase : Option RunPhase) : begun phase ≤ pending phase := by
    obtain _ | phase := phase
    · exact Nat.le_refl 0
    · cases phase <;> simp [begun, pending]
  have := hbegun (held.bind (runPhase id))
  omega

/-- All executions were applied when none is held. -/
theorem OneShotRun.applied (h : OneShotRun deps id n s) (hnot : NotHeld id s) :
    Counted (resolveRetryConfig deps.retry).maxAttempts n (jobOf id s.loaded) ∧
      Counted (resolveRetryConfig deps.retry).maxAttempts n (jobOf id s.file) := by
  obtain ⟨k, held, haccount⟩ := h.account
  have hphase : held.bind (runPhase id) = none := by
    cases held with
    | none => rfl
    | some batch =>
      have hmem : batch ∈ s.batches.filter isTickBatch := by
        rw [haccount.batches]
        exact List.mem_singleton.mpr rfl
      obtain ⟨hbatch, htick⟩ := List.mem_filter.mp hmem
      exact runPhase_mem.mpr (hnot batch hbatch htick)
  have hcount := haccount.count
  rw [hphase] at hcount
  rw [show n = k from hcount]
  exact ⟨haccount.loaded, haccount.file⟩

/-- However its runs end and whatever happens in between, a one-shot is executed
at most once and then once for each retry, as long as nobody restarts the
service or edits the job. Once the outcome of an execution is applied, the job
is deleted, spent or may be tried again, and after the last retry it is deleted
or spent. -/
theorem oneShot_executions {as : List (CronStep D)}
    (hlimit : 0 ≤ (resolveRetryConfig deps.retry).maxAttempts) (hup : UpAndIdle s)
    (hloaded : ∀ job, jobOf id s.loaded = some job → IsOneShot job)
    (hfile : ∀ job, jobOf id s.file = some job → IsOneShot job)
    (huntouched : ∀ a ∈ as, Untouched id a)
    (hrun : (CronService.system deps UpAndIdle).run s as = some s') :
    (executions deps id s as : Int) ≤ (resolveRetryConfig deps.retry).maxAttempts + 1 ∧
      ∀ job, jobOf id s'.loaded = some job ∨ jobOf id s'.file = some job →
        NotHeld id s' → 0 < executions deps id s as →
        (Spent job ∨ MayRetry deps (executions deps id s as) job) ∧
          (executions deps id s as = (resolveRetryConfig deps.retry).maxAttempts + 1 → Spent job) := by
  have hafter := (hup.run hlimit hloaded hfile).run hlimit huntouched hrun
  rw [Nat.zero_add] at hafter
  refine ⟨hafter.le, fun job hjob hnot hn => ?_⟩
  obtain ⟨hloaded', hfile'⟩ := hafter.applied hnot
  have hsettled : Spent job ∨ MayRetry deps (executions deps id s as) job := by
    obtain hjob | hjob := hjob
    · exact hloaded'.settled hn hjob
    · exact hfile'.settled hn hjob
  refine ⟨hsettled, fun hlast => ?_⟩
  obtain hspent | ⟨-, hcount, hmax⟩ := hsettled
  · exact hspent
  · omega

-- ---
-- A one-shot that fails
-- ---

/-- The service of the examples with one retry. -/
def retryDeps : CronDeps Unit :=
  { plainDeps with retry := ⟨some 1, [], []⟩ }

/-- The job is due at 1000, fails with a timeout at 2000, is tried again at
32000 and fails again. -/
def failingSteps : List (CronStep Unit) := [
  .fire, .onTimer 1000 1000, .startRun 0 1000, .finishRun 0 "job" .error (some "timeout") 2000,
  .applyBatch 0 2000 2000, .endTick,
  .fire, .onTimer 32000 32000, .startRun 0 32000, .finishRun 0 "job" .error (some "timeout") 33000,
  .applyBatch 0 33000 33000, .endTick]

theorem failingSteps_run :
    ((CronService.system retryDeps UpAndIdle).run (bootService [onceJob]) failingSteps).isSome = true := by
  decide

def failedService : CronService Unit :=
  ((CronService.system retryDeps UpAndIdle).run (bootService [onceJob]) failingSteps).get failingSteps_run

theorem onceJob_isOneShot (job : CronJob Unit) (h : jobOf "job" [onceJob] = some job) : IsOneShot job := by
  cases h
  exact ⟨rfl, by decide, by decide⟩

example : executions retryDeps "job" (bootService [onceJob]) failingSteps = 2 := by
  decide

/-- Two executions, and the job is spent. -/
theorem oneShot_executions_failing :
    (executions retryDeps "job" (bootService [onceJob]) failingSteps : Int) ≤
        (resolveRetryConfig retryDeps.retry).maxAttempts + 1 ∧
      ∀ job, jobOf "job" failedService.loaded = some job ∨ jobOf "job" failedService.file = some job →
        NotHeld "job" failedService →
        0 < executions retryDeps "job" (bootService [onceJob]) failingSteps →
        (Spent job ∨ MayRetry retryDeps
            (executions retryDeps "job" (bootService [onceJob]) failingSteps) job) ∧
          (executions retryDeps "job" (bootService [onceJob]) failingSteps =
            (resolveRetryConfig retryDeps.retry).maxAttempts + 1 → Spent job) :=
  oneShot_executions (by decide) ⟨⟨rfl, List.nodup_singleton _, List.nodup_singleton _⟩, rfl, by decide⟩
    onceJob_isOneShot onceJob_isOneShot
    (by simp [failingSteps, Untouched]) (Option.some_get failingSteps_run).symm

-- ---
-- Ids
-- ---

/-- In every run an id names one job, in memory and on disk, and no batch of executions holds
a job twice. -/
theorem ids_name_one_job {s : CronService D}
    (h : (CronService.system deps Fresh).Reachable s) :
    (∀ jobs ∈ [s.loaded, s.file], (jobIds jobs).Nodup ∧ ∀ job ∈ jobs, jobOf job.id jobs = some job) ∧
      ∀ batch ∈ s.batches, batch.ids.Nodup := by
  have hunique := uniqueIds_of_reachable h
  have hfound (jobs : List (CronJob D)) (hids : (jobIds jobs).Nodup) :
      ∀ job ∈ jobs, jobOf job.id jobs = some job := by
    intro job hjob
    obtain ⟨found, hfound⟩ : ∃ found, jobOf job.id jobs = some found :=
      Option.isSome_iff_exists.1 (List.find?_isSome.2 ⟨job, hjob, by simp⟩)
    rw [hfound, List.inj_on_of_nodup_map hids (List.mem_of_find?_eq_some hfound) hjob
      (jobOf_id hfound)]
  refine ⟨?_, fun batch hbatch => (hunique.batch batch hbatch).ids⟩
  simp only [List.forall_mem_cons, List.not_mem_nil, false_imp_iff, implies_true, and_true]
  exact ⟨⟨hunique.loaded, hfound _ hunique.loaded⟩, hunique.file, hfound _ hunique.file⟩

theorem ids_name_one_job_failing :
    ∃ s, (CronService.system retryDeps Fresh).run (bootService [onceJob]) failingSteps = some s ∧
      (jobIds s.file).Nodup := by
  obtain ⟨s, hrun⟩ := Option.isSome_iff_exists.1 (show ((CronService.system retryDeps Fresh).run
    (bootService [onceJob]) failingSteps).isSome = true by decide)
  have hinit : Fresh (bootService [onceJob]) := ⟨rfl, by decide, by decide⟩
  have hids := (ids_name_one_job (.run (.init hinit) hrun)).1
  simp only [List.forall_mem_cons] at hids
  exact ⟨s, hrun, hids.2.1.1⟩

end OpenClaw.Cron
