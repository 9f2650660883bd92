import OpenClaw.Cron.Service.Slots

/-!
# Job ids

No two jobs of the store have the same id, nor two jobs of the file, nor two
runs of a batch.
-/

namespace OpenClaw.Cron

open Js CronService

variable {D : Type} {deps : CronDeps D} {env : ScheduleEnv} {jobs : List (CronJob D)}
  {id : String}

def jobIds (jobs : List (CronJob D)) : List String :=
  jobs.map (·.id)

-- ---
-- What keeps the ids
-- ---

theorem jobIds_map {f : CronJob D → CronJob D} (hf : ∀ job, (f job).id = job.id) :
    jobIds (jobs.map f) = jobIds jobs := by
  simp [jobIds, Function.comp_def, hf]

theorem jobIds_filter_sublist (p : CronJob D → Bool) (jobs : List (CronJob D)) :
    (jobIds (jobs.filter p)).Sublist (jobIds jobs) :=
  List.filter_sublist.map _

theorem recomputeJobNextRunAtMs_id (env : ScheduleEnv) (nowMs : Int) (job : CronJob D) :
    (recomputeJobNextRunAtMs env nowMs job).1.id = job.id := by
  simp only [recomputeJobNextRunAtMs]
  split <;> rfl

theorem maintainJob_id (env : ScheduleEnv) (recomputeExpired : Bool) (nowMs : Int) (job : CronJob D) :
    (maintainJob env recomputeExpired nowMs job).1.id = job.id := by
  simp only [maintainJob]
  split
  · exact recomputeJobNextRunAtMs_id env nowMs job
  · split
    · exact recomputeJobNextRunAtMs_id env nowMs job
    · rfl

theorem walkJob_id {fn : CronJob D → CronJob D × Bool} (hfn : ∀ job, (fn job).1.id = job.id)
    (nowMs : Int) (job : CronJob D) : (walkJob fn nowMs job).1.id = job.id := by
  rw [walkJob_fst]
  split
  · exact hfn _
  · rfl

theorem jobIds_recomputeNextRuns : jobIds (recomputeNextRuns env nowMs jobs).1 = jobIds jobs := by
  refine jobIds_map (walkJob_id (fun job => ?_) nowMs)
  split
  · exact recomputeJobNextRunAtMs_id env nowMs job
  · rfl

theorem jobIds_walked :
    jobIds (CronService.walked deps recomputeExpired nowMs jobs) = jobIds jobs :=
  jobIds_map (walkJob_id (maintainJob_id deps.toScheduleEnv recomputeExpired nowMs) nowMs)

theorem jobIds_updateJob {f : CronJob D → CronJob D} (hf : ∀ job, (f job).id = job.id) :
    jobIds (updateJob id f jobs) = jobIds jobs := by
  induction jobs with
  | nil => rfl
  | cons job jobs ih =>
    simp only [updateJob]
    split
    · simp [jobIds, hf]
    · simpa [jobIds] using ih

theorem setRunning_id (marker : Option Number) (job : CronJob D) :
    (job.setRunning marker).id = job.id := rfl

theorem reserveJob_id (nowMs : Int) (job : CronJob D) : (reserveJob nowMs job).id = job.id := rfl

theorem merge_id (snapshot job : CronJob D) :
    (mergeManualRunSnapshotAfterReload snapshot job).id = job.id := rfl

theorem jobIds_reserveJobs : jobIds (reserveJobs ids nowMs jobs) = jobIds jobs := by
  refine jobIds_map fun job => ?_
  split <;> rfl

theorem jobIds_deferJobs : jobIds (deferJobs baseMs staggerMs ids offset jobs) = jobIds jobs := by
  induction ids generalizing offset jobs with
  | nil => rfl
  | cons id ids ih =>
    simp only [deferJobs]
    split
    · rw [ih]
      exact jobIds_updateJob fun _ => rfl
    · exact ih

theorem applyJobResult_id (deps : CronDeps D) (preserveSchedule : Bool) (result : RunResult)
    (job : CronJob D) : (applyJobResult deps preserveSchedule result job).1.id = job.id := by
  simp only [applyJobResult]
  split
  · rfl
  · split
    · simp only [settleOneShot]
      split
      · split <;> rfl
      · rfl
    · simp only [settleRecurring]
      split
      · rfl
      · split <;> split <;> (try split) <;> rfl

theorem jobIds_applyToStore :
    (jobIds (applyToStore deps preserveSchedule id result jobs)).Sublist (jobIds jobs) := by
  simp only [applyToStore]
  split
  · exact List.Sublist.refl _
  · split
    · exact jobIds_filter_sublist _ jobs
    · rw [jobIds_updateJob fun job => applyJobResult_id deps preserveSchedule result job]

theorem jobIds_applyResults :
    (jobIds (applyResults deps preserveSchedule results jobs)).Sublist (jobIds jobs) := by
  induction results generalizing jobs with
  | nil => exact List.Sublist.refl _
  | cons r results ih => exact ih.trans jobIds_applyToStore

theorem applyJobPatch_id (job : CronJob D) (patch : CronJobPatch D) :
    (applyJobPatch job patch).1.id = job.id := by
  simp only [applyJobPatch]
  split
  · rfl
  · split <;> rfl

theorem anchorPatched_id (job : CronJob D) (patch : CronJobPatch D) (nowMs : Int) :
    (anchorPatched job patch nowMs).id = job.id := by
  simp only [anchorPatched]
  split <;> rfl

theorem rescheduled_id (deps : CronDeps D) (job : CronJob D) (patch : CronJobPatch D) (nowMs : Int) :
    (rescheduled deps job patch nowMs).1.id = job.id := by
  simp only [rescheduled]
  split
  · rfl
  · split
    · split <;> rfl
    · rfl

theorem updatedJob_id (deps : CronDeps D) (patch : CronJobPatch D) (nowMs : Int) (job : CronJob D) :
    (updatedJob deps patch nowMs job).1.id = job.id := by
  simp only [updatedJob]
  split
  · exact applyJobPatch_id job patch
  · refine (rescheduled_id deps _ patch nowMs).trans ?_
    exact (anchorPatched_id _ patch nowMs).trans (applyJobPatch_id job patch)

theorem createJob_id (h : createJob env check id nowMs input = .ok job) : job.id = id := by
  simp only [createJob, bind, Except.bind, pure, Except.pure] at h
  split at h
  · cases h
  · split at h
    · cases h
    · cases h
      rfl

-- ---
-- Looking a job up
-- ---

/-- The job with this id. -/
def jobOf (id : String) (jobs : List (CronJob D)) : Option (CronJob D) :=
  jobs.find? (·.id = id)

theorem jobOf_id (h : jobOf id jobs = some job) : job.id = id := by
  simpa using List.find?_some h

theorem jobOf_mem (hnodup : (jobIds jobs).Nodup) (hmem : job ∈ jobs) : jobOf job.id jobs = some job := by
  induction jobs with
  | nil => cases hmem
  | cons first jobs ih =>
    rw [jobIds, List.map_cons, List.nodup_cons] at hnodup
    cases hmem with
    | head => simp [jobOf]
    | tail _ hmem =>
      have hne : first.id ≠ job.id := fun heq => hnodup.1 (heq ▸ List.mem_map_of_mem hmem)
      simpa [jobOf, hne] using ih hnodup.2 hmem

theorem jobOf_map {f : CronJob D → CronJob D} (hf : ∀ job, (f job).id = job.id) :
    jobOf id (jobs.map f) = (jobOf id jobs).map f := by
  simp [jobOf, List.find?_map, Function.comp_def, hf]

theorem jobOf_updateJob {f : CronJob D → CronJob D} (hf : ∀ job, (f job).id = job.id) :
    jobOf id (updateJob id f jobs) = (jobOf id jobs).map f := by
  induction jobs with
  | nil => rfl
  | cons job jobs ih =>
    simp only [updateJob]
    split
    · rename_i hid
      simp [jobOf, hf, hid]
    · rename_i hid
      simpa [jobOf, hid] using ih

theorem jobOf_updateJob_ne {f : CronJob D → CronJob D} {id' : String}
    (hf : ∀ job, (f job).id = job.id) (hne : id' ≠ id) :
    jobOf id (updateJob id' f jobs) = jobOf id jobs := by
  induction jobs with
  | nil => rfl
  | cons job jobs ih =>
    simp only [updateJob]
    split
    · rename_i hid
      simp [jobOf, hf, hid, hne]
    · simp only [jobOf, List.find?_cons]
      split
      · rfl
      · exact ih

theorem jobOf_filter : jobOf id (jobs.filter (·.id ≠ id)) = none := by
  simp [jobOf]

theorem jobOf_filter_ne {id' : String} (hne : id' ≠ id) :
    jobOf id (jobs.filter (·.id ≠ id')) = jobOf id jobs := by
  rw [jobOf, List.find?_filter, jobOf]
  refine congrArg (List.find? · jobs) (funext fun job => ?_)
  by_cases hid : job.id = id
  · simp [hid, hne.symm]
  · simp [hid]

theorem jobOf_applyToStore :
    jobOf id (applyToStore deps preserveSchedule id result jobs) =
      (jobOf id jobs).bind fun job =>
        if (applyJobResult deps preserveSchedule result job).2 then none
        else some (applyJobResult deps preserveSchedule result job).1 := by
  simp only [applyToStore]
  split
  · rename_i hnone
    rw [jobOf, hnone]
    rfl
  · rename_i job hjob
    rw [show jobOf id jobs = some job from hjob, Option.bind_some]
    split
    · exact jobOf_filter
    · rw [jobOf_updateJob (applyJobResult_id deps preserveSchedule result), jobOf, hjob]
      rfl

theorem jobOf_applyToStore_ne {id' : String} (hne : id' ≠ id) :
    jobOf id (applyToStore deps preserveSchedule id' result jobs) = jobOf id jobs := by
  simp only [applyToStore]
  split
  · rfl
  · split
    · exact jobOf_filter_ne hne
    · exact jobOf_updateJob_ne (applyJobResult_id deps preserveSchedule result) hne

theorem jobOf_applyResults_ne (hnot : id ∉ results.map (·.1)) :
    jobOf id (applyResults deps preserveSchedule results jobs) = jobOf id jobs := by
  induction results generalizing jobs with
  | nil => rfl
  | cons r results ih =>
    simp only [List.map_cons, List.mem_cons, not_or] at hnot
    exact (ih hnot.2).trans (jobOf_applyToStore_ne (Ne.symm hnot.1))

/-- Each job gets the outcome of its own run. -/
theorem jobOf_applyResults (hnodup : (results.map (·.1)).Nodup) (hmem : (id, result) ∈ results) :
    jobOf id (applyResults deps preserveSchedule results jobs) =
      jobOf id (applyToStore deps preserveSchedule id result jobs) := by
  induction results generalizing jobs with
  | nil => cases hmem
  | cons r results ih =>
    rw [List.map_cons, List.nodup_cons] at hnodup
    cases hmem with
    | head => exact jobOf_applyResults_ne hnodup.1
    | tail _ hmem =>
      have hne : r.1 ≠ id := fun h => hnodup.1 (h ▸ List.mem_map_of_mem hmem)
      refine (ih hnodup.2 hmem).trans ?_
      rw [jobOf_applyToStore, jobOf_applyToStore_ne hne, jobOf_applyToStore]

theorem jobOf_deferJobs_ne (hnot : id ∉ ids) :
    jobOf id (deferJobs baseMs staggerMs ids offset jobs) = jobOf id jobs := by
  induction ids generalizing offset jobs with
  | nil => rfl
  | cons id' ids ih =>
    simp only [List.mem_cons, not_or] at hnot
    simp only [deferJobs]
    split
    · rw [ih hnot.2]
      exact jobOf_updateJob_ne (fun _ => rfl) (Ne.symm hnot.1)
    · exact ih hnot.2

theorem jobOf_walked :
    jobOf id (walked deps recomputeExpired nowMs jobs) =
      (jobOf id jobs).map fun job =>
        (walkJob (maintainJob deps.toScheduleEnv recomputeExpired nowMs) nowMs job).1 :=
  jobOf_map (walkJob_id (maintainJob_id deps.toScheduleEnv recomputeExpired nowMs) nowMs)

-- ---
-- Unique ids
-- ---

/-- What holds of each batch. -/
structure UniqueBatch (batch : RunBatch) : Prop where
  ids : batch.ids.Nodup
  deferred : ∀ ids, batch.owner = .catchup ids → (batch.ids ++ ids).Nodup
  manual : ∀ forced, batch.owner = .manual forced → batch.ids.length = 1

theorem UniqueBatch.congr {batch batch' : RunBatch} (h : UniqueBatch batch)
    (hids : batch'.ids = batch.ids) (howner : batch'.owner = batch.owner) : UniqueBatch batch' :=
  ⟨hids ▸ h.ids, hids ▸ howner ▸ h.deferred, hids ▸ howner ▸ h.manual⟩

structure UniqueIds (s : CronService D) : Prop where
  loaded : (jobIds s.loaded).Nodup
  file : (jobIds s.file).Nodup
  batch : ∀ batch ∈ s.batches, UniqueBatch batch

theorem jobIds_ensured (deps : CronDeps D) (nowMs : Int) (s : CronService D) :
    jobIds (s.ensured deps nowMs) = jobIds s.loaded := by
  simp only [ensured, CronService.loaded]
  split
  · rename_i hstore
    rw [hstore]
    rfl
  · rename_i hstore
    rw [hstore, jobIds_recomputeNextRuns]
    rfl

theorem isFresh_loaded {s : CronService D} (h : s.isFresh id = true) : id ∉ jobIds s.loaded := by
  intro hmem
  obtain ⟨job, hjob, rfl⟩ := List.mem_map.mp hmem
  simp only [isFresh, List.any_append, Bool.and_eq_true, Bool.not_eq_true', Bool.or_eq_false_iff,
    List.any_eq_false, decide_eq_true_eq] at h
  exact h.1.1 job hjob rfl

theorem jobIds_change {s : CronService D} {saved : List (CronJob D)} (hu : UniqueIds s)
    (h : JobsChange deps s a jobs saved) : (jobIds jobs).Nodup ∧ (jobIds saved).Nodup := by
  have hsaved {jobs saved : List (CronJob D)} (h : Saved s jobs saved) (hjobs : (jobIds jobs).Nodup) :
      (jobIds jobs).Nodup ∧ (jobIds saved).Nodup := by
    obtain rfl | rfl := h
    · exact ⟨hjobs, hu.file⟩
    · exact ⟨hjobs, hjobs⟩
  cases h with
  | same => exact ⟨hu.loaded, hu.file⟩
  | walked hat h => exact hsaved h (by rw [jobIds_walked]; exact hu.loaded)
  | ensured => exact ⟨by rw [jobIds_ensured]; exact hu.loaded, hu.file⟩
  | @added createMs input created _ walkMs loadMs id hfresh hcreate hjobs =>
    suffices (jobIds jobs).Nodup from ⟨this, this⟩
    have hids : jobIds (s.ensured deps loadMs ++ [created]) = jobIds s.loaded ++ [id] := by
      rw [← jobIds_ensured deps loadMs s, ← createJob_id hcreate]
      simp [jobIds]
    rw [hjobs, jobIds_recomputeNextRuns, hids]
    exact hu.loaded.append (List.nodup_singleton id) (by simpa using isFresh_loaded hfresh)
  | updated hjob h =>
    exact hsaved h (by rw [jobIds_updateJob (updatedJob_id deps _ _)]; exact hu.loaded)
  | removed hjobs =>
    suffices (jobIds jobs).Nodup from ⟨this, this⟩
    rw [hjobs]
    exact (jobIds_filter_sublist _ _).nodup (by rw [jobIds_ensured]; exact hu.loaded)
  | reserved hp hjob hidle hjobs =>
    suffices (jobIds jobs).Nodup from ⟨this, this⟩
    rw [hjobs, jobIds_updateJob (reserveJob_id _)]
    exact hu.loaded
  | idleTick hdue h => exact hsaved h (by rw [jobIds_walked]; exact hu.file)
  | reservedTick hdue hjobs =>
    suffices (jobIds jobs).Nodup from ⟨this, this⟩
    rw [hjobs, jobIds_reserveJobs]
    exact hu.file
  | begun h => exact hsaved h (by rw [jobIds_map (setRunning_id _)]; exact hu.loaded)
  | planned hstart hmissed hjobs =>
    suffices (jobIds jobs).Nodup from ⟨this, this⟩
    rw [hjobs, jobIds_reserveJobs]
    exact hu.loaded
  | finished h => exact hsaved h (by rw [jobIds_recomputeNextRuns]; exact hu.loaded)
  | started hbatch howner hfirst =>
    exact ⟨by rw [jobIds_updateJob (setRunning_id _)]; exact hu.loaded, hu.file⟩
  | appliedTick hbatch howner hresults hjobs =>
    suffices (jobIds jobs).Nodup from ⟨this, this⟩
    rw [hjobs, jobIds_walked]
    exact jobIds_applyResults.nodup hu.file
  | appliedCatchup hbatch howner hresults hjobs =>
    suffices (jobIds jobs).Nodup from ⟨this, this⟩
    rw [hjobs, caughtUp, jobIds_walked, jobIds_deferJobs]
    exact jobIds_applyResults.nodup hu.loaded
  | appliedManual hbatch howner hresults hjob hjobs =>
    suffices (jobIds jobs).Nodup from ⟨this, this⟩
    rw [hjobs, jobIds_walked]
    split
    · exact (jobIds_filter_sublist _ _).nodup hu.file
    · rw [jobIds_updateJob (merge_id _)]
      exact hu.file

theorem startFirst_ids (h : startFirst nowMs entries = some (id, entries')) :
    entries'.map (·.id) = entries.map (·.id) := by
  induction entries generalizing entries' with
  | nil => cases h
  | cons entry entries ih =>
    simp only [startFirst] at h
    split at h
    · cases h
      rfl
    · simp only [Option.map_eq_some_iff] at h
      obtain ⟨⟨_, rest⟩, hrest, hpair⟩ := h
      cases hpair
      simp [ih hrest]

theorem finishEntry_id : (finishEntry id status error nowMs entry).id = entry.id := by
  simp only [finishEntry]
  split
  · split <;> rfl
  · rfl
  · rfl

theorem dueIds_sublist : (dueIds deps checkMs jobs).Sublist (jobIds jobs) :=
  jobIds_filter_sublist _ jobs

theorem missedIds_nodup (h : (jobIds jobs).Nodup) : (missedIds deps skipJobIds nowMs jobs).Nodup := by
  refine (((List.perm_insertionSort _ _).map _).nodup_iff).mpr ?_
  exact (jobIds_filter_sublist _ jobs).nodup h

theorem ids_of_phase {ids : List String} {phase : RunPhase} :
    (ids.map (⟨·, phase⟩ : String → RunEntry)).map (·.id) = ids := by
  simp [Function.comp_def]

theorem UniqueIds.step {s s' : CronService D} (hu : UniqueIds s) (h : CronService.step deps s a = some s') :
    UniqueIds s' := by
  obtain ⟨hloaded, hfile⟩ := jobIds_change hu (step_jobs h)
  refine ⟨hloaded, hfile, ?_⟩
  have hchange := step_batches h
  generalize s'.batches = after at hchange ⊢
  intro batch hbatch
  cases hchange with
  | same => exact hu.batch batch hbatch
  | manual hp hjob =>
    obtain hbatch | hbatch := List.mem_append.mp hbatch
    · exact hu.batch batch hbatch
    · rw [List.mem_singleton.mp hbatch]
      exact ⟨List.nodup_singleton _, by simp, fun _ _ => rfl⟩
  | tick htick hdue =>
    obtain hbatch | hbatch := List.mem_append.mp hbatch
    · exact hu.batch batch hbatch
    · rw [List.mem_singleton.mp hbatch]
      refine ⟨?_, by simp, by simp⟩
      rw [RunBatch.ids, ids_of_phase]
      exact dueIds_sublist.nodup hu.file
  | @catchup i skipJobIds nowMs hstart hmissed =>
    obtain hbatch | hbatch := List.mem_append.mp hbatch
    · exact hu.batch batch hbatch
    · have hnodup : (missedIds deps skipJobIds nowMs s.loaded).Nodup := missedIds_nodup hu.loaded
      rw [List.mem_singleton.mp hbatch]
      refine ⟨?_, ?_, by simp⟩
      · rw [RunBatch.ids, ids_of_phase]
        exact (List.take_sublist _ _).nodup hnodup
      · intro ids howner
        cases howner
        rw [RunBatch.ids, ids_of_phase, List.take_append_drop]
        exact hnodup
  | started hbatch₀ hfirst hfree =>
    obtain hbatch | rfl := List.mem_or_eq_of_mem_set hbatch
    · exact hu.batch batch hbatch
    · exact (hu.batch _ (List.mem_of_getElem? hbatch₀)).congr (startFirst_ids hfirst) rfl
  | finished hbatch₀ =>
    obtain hbatch | rfl := List.mem_or_eq_of_mem_set hbatch
    · exact hu.batch batch hbatch
    · refine (hu.batch _ (List.mem_of_getElem? hbatch₀)).congr ?_ rfl
      simp [RunBatch.ids, Function.comp_def, finishEntry_id]
  | applied hbatch₀ hresults => exact hu.batch batch (List.mem_of_mem_eraseIdx hbatch)

/-- The service as it is set up: nothing reserved, and the ids unique. -/
def Fresh (s : CronService D) : Prop :=
  s.batches = [] ∧ (jobIds s.loaded).Nodup ∧ (jobIds s.file).Nodup

theorem Fresh.uniqueIds {s : CronService D} (h : Fresh s) : UniqueIds s := by
  obtain ⟨hbatches, hloaded, hfile⟩ := h
  exact ⟨hloaded, hfile, by simp [hbatches]⟩

theorem uniqueIds_of_reachable {s : CronService D} (h : (CronService.system deps Fresh).Reachable s) :
    UniqueIds s :=
  h.invariant (I := UniqueIds) (fun _ hinit => Fresh.uniqueIds hinit) fun _ _ _ hu hstep => hu.step hstep

end OpenClaw.Cron
