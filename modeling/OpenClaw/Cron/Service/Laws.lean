import OpenClaw.Cron.Service.Ops

/-!
# What the operations of the cron service change

Each operation as one update of the service, so that a field it does not name
is seen to be as it was.
-/

namespace OpenClaw.Cron.CronService

open Js

variable {D : Type} {deps : CronDeps D} {s s' m : CronService D} {id : String}

/-- The jobs once `ensureLoaded` has brought their next runs up to date. -/
def ensured (deps : CronDeps D) (nowMs : Int) (s : CronService D) : List (CronJob D) :=
  match s.store with
  | some jobs => jobs
  | none => (recomputeNextRuns deps.toScheduleEnv nowMs s.file).1

/-- The generation after a load. -/
def loads (s : CronService D) : Nat :=
  match s.store with
  | some _ => s.generation
  | none => s.generation + 1

/-- The jobs after the walk for maintenance. -/
def walked (deps : CronDeps D) (recomputeExpired : Bool) (nowMs : Int) (jobs : List (CronJob D)) :
    List (CronJob D) :=
  (recomputeNextRunsForMaintenance deps.toScheduleEnv recomputeExpired nowMs jobs).1

/-- The record of the walk for maintenance. -/
def walkCall (deps : CronDeps D) (recomputeExpired : Bool) (nowMs : Int) (jobs : List (CronJob D)) :
    MaintenanceCall D :=
  ⟨recomputeExpired, nowMs, jobs, walked deps recomputeExpired nowMs jobs⟩

-- ---
-- Loading and saving
-- ---

@[simp] theorem loaded_some (h : s.store = some jobs) : s.loaded = jobs := by
  simp [loaded, h]

theorem load_eq (s : CronService D) :
    s.load = { s with store := some s.loaded, generation := s.loads } := by
  obtain ⟨store, generation, file, tick, timer, batches, preflights, starts, maintained⟩ := s
  cases store <;> rfl

@[simp] theorem loaded_load : s.load.loaded = s.loaded := by
  rw [load_eq]
  rfl

@[simp] theorem loaded_reload : s.reload.loaded = s.file := rfl

theorem ensureLoaded_eq (deps : CronDeps D) (nowMs : Int) (s : CronService D) :
    s.ensureLoaded deps nowMs =
      { s with store := some (s.ensured deps nowMs), generation := s.loads } := by
  obtain ⟨store, generation, file, tick, timer, batches, preflights, starts, maintained⟩ := s
  cases store <;> rfl

theorem persist_eq (s : CronService D) : s.persist = { s with file := s.loaded } := by
  obtain ⟨store, generation, file, tick, timer, batches, preflights, starts, maintained⟩ := s
  cases store <;> rfl

theorem persistIf_eq (changed : Bool) (s : CronService D) :
    s.persistIf changed = { s with file := if changed then s.loaded else s.file } := by
  cases changed
  · rfl
  · exact persist_eq s

theorem maintain_fst (deps : CronDeps D) (recomputeExpired : Bool) (nowMs : Int)
    (s : CronService D) :
    (s.maintain deps recomputeExpired nowMs).1 =
      { s with
        store := some (walked deps recomputeExpired nowMs s.loaded)
        maintained := walkCall deps recomputeExpired nowMs s.loaded :: s.maintained } := rfl

-- ---
-- The record of walks
-- ---

@[simp] theorem maintained_load : s.load.maintained = s.maintained := by simp [load_eq]

@[simp] theorem maintained_reload : s.reload.maintained = s.maintained := rfl

@[simp] theorem maintained_ensureLoaded : (s.ensureLoaded deps nowMs).maintained = s.maintained := by
  simp [ensureLoaded_eq]

@[simp] theorem maintained_persist : s.persist.maintained = s.maintained := by simp [persist_eq]

@[simp] theorem maintained_persistIf : (s.persistIf changed).maintained = s.maintained := by
  simp [persistIf_eq]

@[simp] theorem maintained_setStore : (s.setStore jobs).maintained = s.maintained := rfl

@[simp] theorem maintained_armTimer : (s.armTimer deps).maintained = s.maintained := rfl

/-- At most one walk for maintenance was made since, and it is on record. -/
def Walked (deps : CronDeps D) (s s' : CronService D) : Prop :=
  s'.maintained = s.maintained ∨
    ∃ recomputeExpired nowMs jobs,
      s'.maintained = walkCall deps recomputeExpired nowMs jobs :: s.maintained

theorem Walked.same (h : s'.maintained = s.maintained) : Walked deps s s' := .inl h

theorem Walked.maintain {recomputeExpired : Bool} {nowMs : Int}
    (h : m.maintained = s.maintained)
    (h' : s'.maintained = (m.maintain deps recomputeExpired nowMs).1.maintained) :
    Walked deps s s' :=
  .inr ⟨recomputeExpired, nowMs, m.loaded, by rw [h', maintain_fst, h]⟩

theorem read_walked : Walked deps s (s.read deps nowMs) :=
  .maintain maintained_load maintained_persistIf

theorem add_walked : Walked deps s (s.add deps id input loadMs createMs walkMs) := by
  refine .same ?_
  simp only [add]
  split <;> simp

theorem update_walked : Walked deps s (s.update deps id patch nowMs) := by
  refine .same ?_
  simp only [update]
  split
  · simp
  · split <;> simp

theorem remove_walked : Walked deps s (s.remove deps id loadMs) := .same (by simp [remove])

theorem preflight_walked : Walked deps s (s.preflight deps id forced walkMs nowMs) := by
  simp only [preflight]
  split <;> exact .maintain maintained_load rfl

theorem reserve_walked : Walked deps s (s.reserve p) := by
  refine .same ?_
  simp only [reserve]
  split
  · rfl
  · split <;> simp

theorem onTimer_walked : Walked deps s (s.onTimer deps checkMs markMs) := by
  simp only [onTimer]
  split
  · exact .maintain maintained_reload maintained_persistIf
  · exact .same (by simp)

theorem planStartupCatchup_walked : Walked deps s (s.planStartupCatchup deps skipJobIds nowMs) := by
  refine .same ?_
  simp only [planStartupCatchup]
  split <;> simp

theorem startFinish_walked : Walked deps s (s.startFinish deps nowMs) :=
  .same (by simp [startFinish])

theorem startRun_walked (h : s.startRun deps i nowMs = some s') : Walked deps s s' := by
  refine .same ?_
  simp only [startRun] at h
  split at h
  · cases h
  · split at h
    · cases h
    · simp only [Option.map_eq_some_iff] at h
      obtain ⟨⟨id, entries⟩, -, rfl⟩ := h
      split
      · split <;> simp
      · rfl
      · rfl

theorem applyTick_walked : Walked deps s (s.applyTick deps results nowMs) :=
  .maintain (m := s.reload.setStore _) rfl maintained_persist

theorem applyCatchup_walked :
    Walked deps s (s.applyCatchup deps deferred results baseMs nowMs) :=
  .maintain (m := s.load.setStore _) maintained_load maintained_persist

theorem applyManual_walked : Walked deps s (s.applyManual deps forced id result nowMs) := by
  simp only [applyManual]
  split
  · exact .same maintained_load
  · exact .maintain (m := s.load.reload.setStore _) maintained_load maintained_persist

theorem applyBatch_walked (h : s.applyBatch deps i baseMs nowMs = some s') :
    Walked deps s s' := by
  simp only [applyBatch] at h
  split at h
  · cases h
  · simp only [Option.map_eq_some_iff] at h
    obtain ⟨results, -, rfl⟩ := h
    split
    · exact applyTick_walked (s := { s with batches := _ })
    · exact applyCatchup_walked (s := { s with batches := _ })
    · exact applyManual_walked (s := { s with batches := _ })
    · exact .same rfl

theorem step_walked (h : step deps s a = some s') : Walked deps s s' := by
  cases a with
  | read now => cases h; exact read_walked
  | add id input loadMs createMs walkMs =>
    simp only [step, Option.ite_none_right_eq_some] at h
    cases h.2
    exact add_walked
  | update id patch now => cases h; exact update_walked
  | remove id loadMs => cases h; exact remove_walked
  | stop => cases h; exact .same rfl
  | inspect id forced walkMs now => cases h; exact .maintain maintained_load rfl
  | preflight id forced walkMs now => cases h; exact preflight_walked
  | reserve i =>
    simp only [step, Option.map_eq_some_iff] at h
    obtain ⟨p, -, rfl⟩ := h
    exact reserve_walked (s := { s with preflights := _ })
  | fire =>
    simp only [step, Option.ite_none_right_eq_some] at h
    cases h.2
    refine .same ?_
    simp only [fire]
    split <;> rfl
  | onTimer checkMs markMs =>
    simp only [step, Option.ite_none_right_eq_some] at h
    cases h.2
    exact onTimer_walked
  | endTick =>
    simp only [step, Option.ite_none_right_eq_some] at h
    cases h.2
    exact .same rfl
  | startBegin =>
    simp only [step, Option.ite_none_right_eq_some] at h
    cases h.2
    exact .same (by simp [startBegin])
  | startPlan i now =>
    simp only [step] at h
    split at h
    · cases h
      exact planStartupCatchup_walked (s := { s with starts := _ })
    · cases h
  | startFinish i now =>
    simp only [step] at h
    split at h
    · cases h
      exact startFinish_walked (s := { s with starts := _ })
    · cases h
  | startRun i now => exact startRun_walked h
  | finishRun i id status error now =>
    simp only [step, finishRun, Option.map_eq_some_iff] at h
    obtain ⟨batch, -, rfl⟩ := h
    exact .same rfl
  | applyBatch i baseMs now => exact applyBatch_walked h

-- ---
-- Batches
-- ---

@[simp] theorem batches_load : s.load.batches = s.batches := by simp [load_eq]

@[simp] theorem batches_reload : s.reload.batches = s.batches := rfl

@[simp] theorem batches_ensureLoaded : (s.ensureLoaded deps nowMs).batches = s.batches := by
  simp [ensureLoaded_eq]

@[simp] theorem batches_persist : s.persist.batches = s.batches := by simp [persist_eq]

@[simp] theorem batches_persistIf : (s.persistIf changed).batches = s.batches := by
  simp [persistIf_eq]

@[simp] theorem batches_setStore : (s.setStore jobs).batches = s.batches := rfl

@[simp] theorem batches_maintain :
    (s.maintain deps recomputeExpired nowMs).1.batches = s.batches := rfl

@[simp] theorem batches_armTimer : (s.armTimer deps).batches = s.batches := rfl

/-- The jobs that a tick finds due. -/
def dueIds (deps : CronDeps D) (checkMs : Int) (jobs : List (CronJob D)) : List String :=
  (collectRunnableJobs deps.toScheduleEnv checkMs [] false jobs).map (·.id)

theorem onTimer_idle (hdue : dueIds deps checkMs s.file = []) :
    s.onTimer deps checkMs markMs =
      { (s.reload.maintain deps true checkMs).1.persistIf (s.reload.maintain deps true checkMs).2 with
        tick := .ending } := by
  simp only [onTimer, loaded_reload]
  exact if_pos (by simpa [dueIds] using hdue)

theorem onTimer_due (hdue : dueIds deps checkMs s.file ≠ []) :
    s.onTimer deps checkMs markMs =
      { (s.reload.setStore (reserveJobs (dueIds deps checkMs s.file) markMs s.file)).persist with
        tick := .busy
        batches := s.batches ++
          [⟨.tick (s.generation + 1), (dueIds deps checkMs s.file).map (⟨·, .waiting⟩)⟩] } := by
  simp only [onTimer, loaded_reload]
  exact if_neg (by simpa [dueIds] using hdue)

/-- The jobs that the startup catch-up finds missed. -/
def missedIds (deps : CronDeps D) (skipJobIds : List String) (nowMs : Int) (jobs : List (CronJob D)) :
    List String :=
  (missedJobs deps skipJobIds nowMs jobs).map (·.id)

/-- How many missed jobs run at once. -/
def maxImmediate (deps : CronDeps D) : Nat :=
  (deps.maxMissedJobsPerRestart.getD DEFAULT_MAX_MISSED_JOBS_PER_RESTART).toNat

/-- What a step does to the batches: nothing, or it adds one that was reserved
under the lock, starts or ends one of its runs, or takes it off to apply its
outcomes. -/
inductive BatchChange (deps : CronDeps D) (s : CronService D) : CronStep D → List RunBatch → Prop
  | same : BatchChange deps s a s.batches
  | manual : s.preflights[i]? = some p →
      (∃ job, s.loaded.find? (·.id = p.id) = some job ∧ job.isRunning = false) →
      BatchChange deps s (.reserve i)
        (s.batches ++ [⟨.manual p.forced, [⟨p.id, .executing p.now⟩]⟩])
  | tick : s.tick = .waiting → dueIds deps checkMs s.file ≠ [] →
      BatchChange deps s (.onTimer checkMs markMs)
        (s.batches ++ [⟨.tick (s.generation + 1), (dueIds deps checkMs s.file).map (⟨·, .waiting⟩)⟩])
  | catchup : s.starts[i]? = some (.planning skipJobIds) →
      missedIds deps skipJobIds nowMs s.loaded ≠ [] →
      BatchChange deps s (.startPlan i nowMs)
        (s.batches ++ [⟨.catchup ((missedIds deps skipJobIds nowMs s.loaded).drop (maxImmediate deps)),
          ((missedIds deps skipJobIds nowMs s.loaded).take (maxImmediate deps)).map (⟨·, .waiting⟩)⟩])
  | started {id : String} : s.batches[i]? = some batch → startFirst nowMs batch.entries = some (id, entries) →
      (batch.entries.filter RunEntry.isExecuting).length < concurrency deps batch.owner →
      BatchChange deps s (.startRun i nowMs) (s.batches.set i { batch with entries })
  | finished {id : String} : s.batches[i]? = some batch →
      BatchChange deps s (.finishRun i id status error nowMs)
        (s.batches.set i { batch with
          entries := batch.entries.map (finishEntry id status error nowMs) })
  | applied : s.batches[i]? = some batch → batch.results? = some results →
      BatchChange deps s (.applyBatch i baseMs nowMs) (s.batches.eraseIdx i)

theorem BatchChange.of_eq (h : s'.batches = s.batches) : BatchChange deps s a s'.batches :=
  h ▸ .same

theorem reserve_batches (p : Preflight) (s : CronService D) :
    (s.reserve p).batches = s.batches ∨
      (∃ job, s.loaded.find? (·.id = p.id) = some job ∧ job.isRunning = false) ∧
        (s.reserve p).batches =
          s.batches ++ [⟨.manual p.forced, [⟨p.id, .executing p.now⟩]⟩] := by
  simp only [reserve]
  split
  · exact .inl rfl
  · rename_i job hjob
    split
    · exact .inl rfl
    · rename_i hidle
      exact .inr ⟨⟨job, hjob, by simpa using hidle⟩, rfl⟩

theorem planStartupCatchup_batches (deps : CronDeps D) (skipJobIds : List String) (nowMs : Int)
    (s : CronService D) :
    (s.planStartupCatchup deps skipJobIds nowMs).batches = s.batches ∨
      missedIds deps skipJobIds nowMs s.loaded ≠ [] ∧
        (s.planStartupCatchup deps skipJobIds nowMs).batches =
          s.batches ++ [⟨.catchup ((missedIds deps skipJobIds nowMs s.loaded).drop (maxImmediate deps)),
            ((missedIds deps skipJobIds nowMs s.loaded).take (maxImmediate deps)).map
              (⟨·, .waiting⟩)⟩] := by
  simp only [planStartupCatchup, loaded_load]
  split
  · exact .inl batches_load
  · rename_i hmissed
    exact .inr ⟨by simpa [missedIds] using hmissed, by simp [missedIds, maxImmediate]⟩

@[simp] theorem applyManual_batches :
    (s.applyManual deps forced id result nowMs).batches = s.batches := by
  simp only [applyManual]
  split <;> simp

theorem step_batches (h : step deps s a = some s') : BatchChange deps s a s'.batches := by
  cases a with
  | read now =>
    cases h
    exact .of_eq (by simp [read, maintain])
  | add id input loadMs createMs walkMs =>
    simp only [step, Option.ite_none_right_eq_some] at h
    cases h.2
    refine .of_eq ?_
    simp only [add]
    split <;> simp
  | update id patch now =>
    cases h
    refine .of_eq ?_
    simp only [update]
    split
    · simp
    · split <;> simp
  | remove id loadMs =>
    cases h
    exact .of_eq (by simp [remove])
  | stop => cases h; exact .same
  | inspect id forced walkMs now =>
    cases h
    exact .of_eq (by simp [inspectManualRunPreflight])
  | preflight id forced walkMs now =>
    cases h
    refine .of_eq ?_
    simp only [preflight]
    split <;> exact batches_load
  | reserve i =>
    simp only [step, Option.map_eq_some_iff] at h
    obtain ⟨p, hp, rfl⟩ := h
    obtain hsame | ⟨hjob, hadded⟩ :=
      reserve_batches p { s with preflights := s.preflights.eraseIdx i }
    · exact .of_eq hsame
    · rw [hadded]
      exact .manual hp hjob
  | fire =>
    simp only [step, Option.ite_none_right_eq_some] at h
    cases h.2
    refine .of_eq ?_
    simp only [fire]
    split <;> rfl
  | onTimer checkMs markMs =>
    simp only [step, Option.ite_none_right_eq_some] at h
    obtain ⟨htick, h⟩ := h
    cases h
    simp only [onTimer]
    split
    · exact .of_eq (by simp [maintain])
    · rename_i hdue
      exact .tick htick (by simpa [dueIds] using hdue)
  | endTick =>
    simp only [step, Option.ite_none_right_eq_some] at h
    cases h.2
    exact .of_eq rfl
  | startBegin =>
    simp only [step, Option.ite_none_right_eq_some] at h
    cases h.2
    exact .of_eq (by simp [startBegin])
  | startPlan i now =>
    simp only [step] at h
    split at h
    · rename_i skipJobIds hstart
      cases h
      obtain hsame | ⟨hmissed, hadded⟩ :=
        planStartupCatchup_batches deps skipJobIds now { s with starts := s.starts.eraseIdx i }
      · exact .of_eq hsame
      · rw [hadded]
        exact .catchup hstart hmissed
    · cases h
  | startFinish i now =>
    simp only [step] at h
    split at h
    · cases h
      exact .of_eq (by simp [startFinish])
    · cases h
  | startRun i now =>
    simp only [step, startRun] at h
    split at h
    · cases h
    · rename_i batch hbatch
      split at h
      · cases h
      · rename_i hfree
        simp only [Option.map_eq_some_iff] at h
        obtain ⟨⟨id, entries⟩, hfirst, rfl⟩ := h
        have hchange : BatchChange deps s (.startRun i now) (s.batches.set i { batch with entries }) :=
          .started hbatch hfirst (by omega)
        split
        · split <;> exact hchange
        · exact hchange
        · exact hchange
  | finishRun i id status error now =>
    simp only [step, finishRun, Option.map_eq_some_iff] at h
    obtain ⟨batch, hbatch, rfl⟩ := h
    exact .finished hbatch
  | applyBatch i baseMs now =>
    simp only [step, applyBatch] at h
    split at h
    · cases h
    · rename_i batch hbatch
      simp only [Option.map_eq_some_iff] at h
      obtain ⟨results, hresults, rfl⟩ := h
      have hchange : BatchChange deps s (.applyBatch i baseMs now) (s.batches.eraseIdx i) :=
        .applied hbatch hresults
      split
      · simpa [applyTick] using hchange
      · simpa [applyCatchup] using hchange
      · rw [applyManual_batches]
        exact hchange
      · exact hchange

-- ---
-- Jobs
-- ---

/-- The file is left as it was, or gets the jobs of the store. -/
def Saved (s : CronService D) (jobs saved : List (CronJob D)) : Prop :=
  saved = s.file ∨ saved = jobs

theorem saved_persistIf (hfile : m.file = s.file) : Saved s m.loaded (m.persistIf changed).file := by
  rw [persistIf_eq]
  cases changed
  · exact .inl hfile
  · exact .inr rfl

/-- The jobs after the outcomes of the catch-up were applied. -/
def caughtUp (deps : CronDeps D) (deferred : List String) (results : List (String × RunResult))
    (baseMs nowMs : Int) (jobs : List (CronJob D)) : List (CronJob D) :=
  CronService.walked deps false nowMs
    (deferJobs baseMs (max 0 (deps.missedJobStaggerMs.getD DEFAULT_MISSED_JOB_STAGGER_MS)) deferred
      (max 0 (deps.missedJobStaggerMs.getD DEFAULT_MISSED_JOB_STAGGER_MS))
      (applyResults deps false results jobs))

/-- The clock of a step that only makes the walk for maintenance. -/
def readsAt : CronStep D → Option Int
  | .read now => some now
  | .inspect _ _ walkMs _ | .preflight _ _ walkMs _ => some walkMs
  | _ => none

/-- The jobs in the store after a step, and those in the file. -/
inductive JobsChange (deps : CronDeps D) (s : CronService D) :
    CronStep D → List (CronJob D) → List (CronJob D) → Prop
  | same : JobsChange deps s a s.loaded s.file
  | walked : readsAt a = some nowMs →
      Saved s (CronService.walked deps false nowMs s.loaded) saved →
      JobsChange deps s a (CronService.walked deps false nowMs s.loaded) saved
  | ensured {id : String} : JobsChange deps s (.add id input loadMs createMs walkMs)
      (s.ensured deps loadMs) s.file
  | added {id : String} : s.isFresh id = true →
      createJob deps.toScheduleEnv deps.check id createMs input = .ok created →
      jobs = (recomputeNextRuns deps.toScheduleEnv walkMs (s.ensured deps loadMs ++ [created])).1 →
      JobsChange deps s (.add id input loadMs createMs walkMs) jobs jobs
  | updated {id : String} : s.loaded.find? (·.id = id) = some job →
      Saved s (updateJob id (fun job => (updatedJob deps patch nowMs job).1) s.loaded) saved →
      JobsChange deps s (.update id patch nowMs)
        (updateJob id (fun job => (updatedJob deps patch nowMs job).1) s.loaded) saved
  | removed {id : String} : jobs = (s.ensured deps loadMs).filter (·.id ≠ id) →
      JobsChange deps s (.remove id loadMs) jobs jobs
  | reserved : s.preflights[i]? = some p → s.loaded.find? (·.id = p.id) = some job →
      job.isRunning = false → jobs = updateJob p.id (reserveJob p.now) s.loaded →
      JobsChange deps s (.reserve i) jobs jobs
  | idleTick : dueIds deps checkMs s.file = [] →
      Saved s (CronService.walked deps true checkMs s.file) saved →
      JobsChange deps s (.onTimer checkMs markMs) (CronService.walked deps true checkMs s.file) saved
  | reservedTick : dueIds deps checkMs s.file ≠ [] →
      jobs = reserveJobs (dueIds deps checkMs s.file) markMs s.file →
      JobsChange deps s (.onTimer checkMs markMs) jobs jobs
  | begun : Saved s (s.loaded.map (·.setRunning none)) saved →
      JobsChange deps s .startBegin (s.loaded.map (·.setRunning none)) saved
  | planned : s.starts[i]? = some (.planning skipJobIds) →
      missedIds deps skipJobIds nowMs s.loaded ≠ [] →
      jobs = reserveJobs ((missedIds deps skipJobIds nowMs s.loaded).take (maxImmediate deps)) nowMs
        s.loaded →
      JobsChange deps s (.startPlan i nowMs) jobs jobs
  | finished : Saved s (recomputeNextRuns deps.toScheduleEnv nowMs s.loaded).1 saved →
      JobsChange deps s (.startFinish i nowMs)
        (recomputeNextRuns deps.toScheduleEnv nowMs s.loaded).1 saved
  | started {id : String} : s.batches[i]? = some batch → batch.owner = .tick s.generation →
      startFirst nowMs batch.entries = some (id, entries) →
      JobsChange deps s (.startRun i nowMs)
        (updateJob id (·.setRunning (some (.ofInt nowMs))) s.loaded) s.file
  | appliedTick {generation : Nat} : s.batches[i]? = some batch → batch.owner = .tick generation →
      batch.results? = some results →
      jobs = CronService.walked deps false nowMs (applyResults deps false results s.file) →
      JobsChange deps s (.applyBatch i baseMs nowMs) jobs jobs
  | appliedCatchup : s.batches[i]? = some batch → batch.owner = .catchup deferred →
      batch.results? = some results →
      jobs = caughtUp deps deferred results baseMs nowMs s.loaded →
      JobsChange deps s (.applyBatch i baseMs nowMs) jobs jobs
  | appliedManual {id : String} : s.batches[i]? = some batch → batch.owner = .manual forced →
      batch.results? = some ((id, result) :: rest) → s.loaded.find? (·.id = id) = some job →
      jobs = CronService.walked deps true nowMs
        (if (applyJobResult deps forced result job).2 then s.file.filter (·.id ≠ id)
        else updateJob id
          (mergeManualRunSnapshotAfterReload (applyJobResult deps forced result job).1) s.file) →
      JobsChange deps s (.applyBatch i baseMs nowMs) jobs jobs

theorem JobsChange.of_eq (hloaded : s'.loaded = s.loaded) (hfile : s'.file = s.file) :
    JobsChange deps s a s'.loaded s'.file := by
  rw [hloaded, hfile]
  exact .same

theorem JobsChange.trans_eq {jobs jobs' saved saved' : List (CronJob D)}
    (h : JobsChange deps s a jobs saved) (hjobs : jobs' = jobs) (hsaved : saved' = saved) :
    JobsChange deps s a jobs' saved' := by
  rw [hjobs, hsaved]
  exact h

@[simp] theorem loaded_ensureLoaded : (s.ensureLoaded deps nowMs).loaded = s.ensured deps nowMs := by
  rw [ensureLoaded_eq]
  rfl

@[simp] theorem loaded_setStore : (s.setStore jobs).loaded = jobs := rfl

@[simp] theorem loaded_persist : s.persist.loaded = s.loaded := by
  obtain ⟨store, generation, file, tick, timer, batches, preflights, starts, maintained⟩ := s
  cases store <;> rfl

@[simp] theorem loaded_persistIf : (s.persistIf changed).loaded = s.loaded := by
  cases changed
  · rfl
  · exact loaded_persist

@[simp] theorem loaded_maintain : (s.maintain deps recomputeExpired nowMs).1.loaded =
    walked deps recomputeExpired nowMs s.loaded := rfl

@[simp] theorem file_maintain :
    (s.maintain deps recomputeExpired nowMs).1.file = s.file := rfl

@[simp] theorem loaded_armTimer : (s.armTimer deps).loaded = s.loaded := rfl

@[simp] theorem file_load : s.load.file = s.file := by simp [load_eq]

@[simp] theorem file_ensureLoaded : (s.ensureLoaded deps nowMs).file = s.file := by
  simp [ensureLoaded_eq]

@[simp] theorem file_persist : s.persist.file = s.loaded := by simp [persist_eq]

@[simp] theorem file_armTimer : (s.armTimer deps).file = s.file := rfl

@[simp] theorem file_setStore : (s.setStore jobs).file = s.file := rfl

theorem reserve_jobs (hp : s.preflights[i]? = some p) (hloaded : m.loaded = s.loaded)
    (hfile : m.file = s.file) :
    JobsChange deps s (.reserve i) (m.reserve p).loaded (m.reserve p).file := by
  simp only [reserve]
  split
  · rw [hloaded, hfile]
    exact .same
  · rename_i job hjob
    split
    · rw [hloaded, hfile]
      exact .same
    · rename_i hidle
      rw [hloaded] at hjob
      have hreserved : JobsChange deps s (.reserve i) (updateJob p.id (reserveJob p.now) s.loaded) _ :=
        .reserved hp hjob (by simpa using hidle) rfl
      rw [hloaded]
      exact hreserved

theorem planStartupCatchup_jobs (hstart : s.starts[i]? = some (.planning skipJobIds))
    (hloaded : m.loaded = s.loaded) (hfile : m.file = s.file) :
    JobsChange deps s (.startPlan i nowMs) (m.planStartupCatchup deps skipJobIds nowMs).loaded
      (m.planStartupCatchup deps skipJobIds nowMs).file := by
  simp only [planStartupCatchup, loaded_load, hloaded]
  split
  · refine .trans_eq .same ?_ ?_
    · exact loaded_load.trans hloaded
    · exact file_load.trans hfile
  · rename_i hmissed
    exact JobsChange.planned hstart (by simpa [missedIds] using hmissed) rfl

theorem applyCatchup_loaded : (s.applyCatchup deps deferred results baseMs nowMs).loaded =
    caughtUp deps deferred results baseMs nowMs s.loaded := by
  refine loaded_persist.trans ?_
  rw [loaded_maintain, loaded_setStore, loaded_load]
  rfl

theorem applyCatchup_file : (s.applyCatchup deps deferred results baseMs nowMs).file =
    caughtUp deps deferred results baseMs nowMs s.loaded := by
  refine file_persist.trans ?_
  rw [loaded_maintain, loaded_setStore, loaded_load]
  rfl

theorem startFinish_jobs (hloaded : m.loaded = s.loaded) (hfile : m.file = s.file) :
    JobsChange deps s (.startFinish i nowMs) (m.startFinish deps nowMs).loaded
      (m.startFinish deps nowMs).file := by
  have hsaved : Saved s
      (m.load.setStore (recomputeNextRuns deps.toScheduleEnv nowMs m.load.loaded).1).loaded
      (m.startFinish deps nowMs).file := saved_persistIf (file_load.trans hfile)
  rw [show (m.startFinish deps nowMs).loaded =
    (m.load.setStore (recomputeNextRuns deps.toScheduleEnv nowMs m.load.loaded).1).loaded
    from loaded_persistIf]
  rw [loaded_setStore, loaded_load, hloaded] at hsaved ⊢
  exact .finished hsaved

theorem applyManual_jobs {id : String} (hbatch : s.batches[i]? = some batch)
    (howner : batch.owner = .manual forced) (hresults : batch.results? = some ((id, result) :: rest))
    (hloaded : m.loaded = s.loaded) (hfile : m.file = s.file) :
    JobsChange deps s (.applyBatch i baseMs nowMs) (m.applyManual deps forced id result nowMs).loaded
      (m.applyManual deps forced id result nowMs).file := by
  simp only [applyManual, loaded_load, hloaded]
  split
  · exact .of_eq (loaded_load.trans hloaded) (file_load.trans hfile)
  · rename_i job hjob
    have happlied : JobsChange deps s (.applyBatch i baseMs nowMs) (CronService.walked deps true nowMs _) _ :=
      .appliedManual hbatch howner hresults hjob rfl
    simpa [hfile] using happlied

theorem applyBatch_jobs (h : s.applyBatch deps i baseMs nowMs = some s') :
    JobsChange deps s (.applyBatch i baseMs nowMs) s'.loaded s'.file := by
  simp only [applyBatch] at h
  split at h
  · cases h
  · rename_i batch hbatch
    obtain ⟨owner, entries⟩ := batch
    simp only [Option.map_eq_some_iff] at h
    obtain ⟨results, hresults, rfl⟩ := h
    cases owner with
    | tick generation => exact .appliedTick hbatch rfl hresults rfl
    | catchup deferred =>
      refine .trans_eq (.appliedCatchup hbatch rfl hresults rfl) ?_ ?_
      · exact applyCatchup_loaded
      · exact applyCatchup_file
    | manual forced =>
      cases results with
      | nil => exact .same
      | cons r rest => exact applyManual_jobs hbatch rfl hresults rfl rfl

theorem step_jobs (h : step deps s a = some s') : JobsChange deps s a s'.loaded s'.file := by
  cases a with
  | read now =>
    cases h
    have hsaved : Saved s (s.load.maintain deps false now).1.loaded (s.read deps now).file :=
      saved_persistIf file_load
    rw [show (s.read deps now).loaded = (s.load.maintain deps false now).1.loaded from
      loaded_persistIf]
    rw [loaded_maintain, loaded_load] at hsaved ⊢
    exact .walked rfl hsaved
  | add id input loadMs createMs walkMs =>
    simp only [step, Option.ite_none_right_eq_some] at h
    obtain ⟨hfresh, h⟩ := h
    cases h
    simp only [add]
    cases hcreate : createJob deps.toScheduleEnv deps.check id createMs input with
    | error err => simpa using JobsChange.ensured
    | ok created => simpa using JobsChange.added hfresh hcreate rfl
  | update id patch now =>
    cases h
    simp only [update, loaded_load]
    split
    · exact .of_eq loaded_load file_load
    · rename_i job hjob
      cases hok : (updatedJob deps patch now job).2 with
      | false => simpa using JobsChange.updated hjob (.inl rfl)
      | true => simpa using JobsChange.updated hjob (.inr rfl)
  | remove id loadMs =>
    cases h
    simpa [remove] using JobsChange.removed rfl
  | stop => cases h; exact .same
  | inspect id forced walkMs now =>
    cases h
    simp only [inspectManualRunPreflight, loaded_maintain, file_maintain, loaded_load, file_load]
    exact .walked rfl (.inl rfl)
  | preflight id forced walkMs now =>
    cases h
    have hwalked : JobsChange deps s (.preflight id forced walkMs now)
        (s.load.maintain deps false walkMs).1.loaded (s.load.maintain deps false walkMs).1.file := by
      simp only [loaded_maintain, file_maintain, loaded_load, file_load]
      exact .walked rfl (.inl rfl)
    simp only [preflight]
    split <;> exact hwalked
  | reserve i =>
    simp only [step, Option.map_eq_some_iff] at h
    obtain ⟨p, hp, rfl⟩ := h
    exact reserve_jobs hp rfl rfl
  | fire =>
    simp only [step, Option.ite_none_right_eq_some] at h
    cases h.2
    simp only [fire]
    split <;> exact .same
  | onTimer checkMs markMs =>
    simp only [step, Option.ite_none_right_eq_some] at h
    obtain ⟨htick, h⟩ := h
    cases h
    by_cases hdue : dueIds deps checkMs s.file = []
    · rw [onTimer_idle hdue]
      refine .trans_eq (.idleTick hdue (saved_persistIf rfl)) ?_ rfl
      exact loaded_persistIf
    · rw [onTimer_due hdue]
      exact .reservedTick hdue rfl
  | endTick =>
    simp only [step, Option.ite_none_right_eq_some] at h
    cases h.2
    exact .same
  | startBegin =>
    simp only [step, Option.ite_none_right_eq_some] at h
    cases h.2
    have hsaved : Saved s (s.load.setStore (s.load.loaded.map (·.setRunning none))).loaded
        s.startBegin.file := saved_persistIf file_load
    rw [show s.startBegin.loaded = (s.load.setStore (s.load.loaded.map (·.setRunning none))).loaded
      from loaded_persistIf]
    rw [loaded_setStore, loaded_load] at hsaved ⊢
    exact .begun hsaved
  | startPlan i now =>
    simp only [step] at h
    split at h
    · rename_i skipJobIds hstart
      cases h
      exact planStartupCatchup_jobs hstart rfl rfl
    · cases h
  | startFinish i now =>
    simp only [step] at h
    split at h
    · cases h
      exact startFinish_jobs rfl rfl
    · cases h
  | startRun i now =>
    simp only [step, startRun] at h
    split at h
    · cases h
    · rename_i batch hbatch
      split at h
      · cases h
      · simp only [Option.map_eq_some_iff] at h
        obtain ⟨⟨id, entries⟩, hfirst, rfl⟩ := h
        split
        · rename_i generation howner
          split
          · rename_i hgeneration
            exact .started hbatch (hgeneration ▸ howner) hfirst
          · exact .same
        · exact .same
        · exact .same
  | finishRun i id status error now =>
    simp only [step, finishRun, Option.map_eq_some_iff] at h
    obtain ⟨batch, hbatch, rfl⟩ := h
    exact .same
  | applyBatch i baseMs now => exact applyBatch_jobs h

-- ---
-- Ticks, starts and manual runs
-- ---

/-- The phase of the tick, the calls of `start` and the manual runs between
their sections are as they were. -/
structure SameControl (s s' : CronService D) : Prop where
  tick : s'.tick = s.tick
  starts : s'.starts = s.starts
  preflights : s'.preflights = s.preflights

namespace SameControl

theorem refl (s : CronService D) : SameControl s s := ⟨rfl, rfl, rfl⟩

theorem trans (h : SameControl s m) (h' : SameControl m s') : SameControl s s' :=
  ⟨h'.tick.trans h.tick, h'.starts.trans h.starts, h'.preflights.trans h.preflights⟩

theorem load : SameControl s s.load := by
  rw [load_eq]
  exact ⟨rfl, rfl, rfl⟩

theorem ensureLoaded : SameControl s (s.ensureLoaded deps nowMs) := by
  rw [ensureLoaded_eq]
  exact ⟨rfl, rfl, rfl⟩

theorem persist : SameControl s s.persist := by
  rw [persist_eq]
  exact ⟨rfl, rfl, rfl⟩

theorem persistIf : SameControl s (s.persistIf changed) := by
  rw [persistIf_eq]
  exact ⟨rfl, rfl, rfl⟩

theorem reload : SameControl s s.reload := ⟨rfl, rfl, rfl⟩

theorem setStore : SameControl s (s.setStore jobs) := ⟨rfl, rfl, rfl⟩

theorem armTimer : SameControl s (s.armTimer deps) := ⟨rfl, rfl, rfl⟩

theorem maintain : SameControl s (s.maintain deps recomputeExpired nowMs).1 := ⟨rfl, rfl, rfl⟩

theorem read : SameControl s (s.read deps nowMs) := (load.trans maintain).trans persistIf

theorem add : SameControl s (s.add deps id input loadMs createMs walkMs) := by
  simp only [CronService.add]
  split
  · exact ensureLoaded
  · exact ((ensureLoaded.trans setStore).trans persist).trans armTimer

theorem update : SameControl s (s.update deps id patch nowMs) := by
  simp only [CronService.update]
  split
  · exact load
  · split
    · exact ((load.trans setStore).trans persist).trans armTimer
    · exact load.trans setStore

theorem remove : SameControl s (s.remove deps id loadMs) :=
  ((ensureLoaded.trans setStore).trans persist).trans armTimer

theorem applyManual : SameControl s (s.applyManual deps forced id result nowMs) := by
  simp only [CronService.applyManual]
  split
  · exact load
  · exact ((((load.trans reload).trans setStore).trans maintain).trans persist).trans armTimer

end SameControl

/-- The phase of the tick after a step. -/
def tickAfter (deps : CronDeps D) (s : CronService D) : CronStep D → TickPhase
  | .fire => if s.tick = .idle then .waiting else s.tick
  | .onTimer checkMs _ => if (dueIds deps checkMs s.file).isEmpty then .ending else .busy
  | .endTick => .idle
  | .applyBatch i _ _ =>
    match s.batches[i]? with
    | some ⟨.tick _, _⟩ => .ending
    | _ => s.tick
  | _ => s.tick

/-- What a step does to the phase of the tick, to the calls of `start` and to
the manual runs between their sections. -/
structure ControlChange (deps : CronDeps D) (s : CronService D) (a : CronStep D) (s' : CronService D) :
    Prop where
  tick : s'.tick = tickAfter deps s a
  starts : s'.starts = s.starts ∨ a = .startBegin ∨
    (∃ i now, (a = .startPlan i now ∨ a = .startFinish i now) ∧ s.starts[i]? ≠ none) ∨
    ∃ i baseMs now ids entries, a = .applyBatch i baseMs now ∧
      s.batches[i]? = some ⟨.catchup ids, entries⟩
  preflights : ∀ p ∈ s'.preflights, p ∈ s.preflights ∨
    ∃ forced walkMs now, a = .preflight p.id forced walkMs now

theorem SameControl.change (h : SameControl s s') (htick : tickAfter deps s a = s.tick) :
    ControlChange deps s a s' :=
  ⟨h.tick.trans htick.symm, .inl h.starts, fun _ hp => .inl (h.preflights ▸ hp)⟩

theorem preflight_control :
    ControlChange deps s (.preflight id forced walkMs now) (s.preflight deps id forced walkMs now) := by
  have hload : SameControl s s.load := .load
  simp only [preflight]
  split
  · refine ⟨hload.tick, .inl hload.starts, fun p hp => ?_⟩
    obtain hp | hp := List.mem_append.mp hp
    · exact .inl (hload.preflights ▸ hp)
    · rw [List.mem_singleton.mp hp]
      exact .inr ⟨forced, walkMs, now, rfl⟩
  · exact SameControl.change (hload.trans .maintain) rfl

theorem reserve_control (s : CronService D) (p : Preflight) : SameControl s (s.reserve p) := by
  simp only [reserve]
  split
  · exact .refl s
  · split
    · exact .refl s
    · exact ⟨rfl, rfl, rfl⟩

theorem startRun_control (h : s.startRun deps i now = some s') : SameControl s s' := by
  simp only [startRun] at h
  split at h
  · cases h
  · split at h
    · cases h
    · simp only [Option.map_eq_some_iff] at h
      obtain ⟨⟨id, entries⟩, -, rfl⟩ := h
      split
      · split <;> exact ⟨rfl, rfl, rfl⟩
      · exact ⟨rfl, rfl, rfl⟩
      · exact ⟨rfl, rfl, rfl⟩

theorem applyBatch_control (h : s.applyBatch deps i baseMs now = some s') :
    ControlChange deps s (.applyBatch i baseMs now) s' := by
  simp only [applyBatch] at h
  split at h
  · cases h
  · rename_i batch hbatch
    obtain ⟨owner, entries⟩ := batch
    simp only [Option.map_eq_some_iff] at h
    obtain ⟨results, hresults, rfl⟩ := h
    cases owner with
    | tick generation =>
      exact ⟨by simp only [tickAfter, hbatch]; rfl, .inl rfl, fun _ hp => .inl hp⟩
    | catchup deferred =>
      have hload : SameControl { s with batches := s.batches.eraseIdx i }
          (load { s with batches := s.batches.eraseIdx i }) := .load
      refine ⟨?_, .inr (.inr (.inr ⟨i, baseMs, now, deferred, entries, rfl, hbatch⟩)), ?_⟩
      · simp only [tickAfter, hbatch]
        exact hload.tick
      · exact fun _ hp => .inl (hload.preflights ▸ hp)
    | manual forced =>
      have htick : tickAfter deps s (.applyBatch i baseMs now) = s.tick := by
        simp only [tickAfter, hbatch]
      cases results with
      | nil => exact SameControl.change ⟨rfl, rfl, rfl⟩ htick
      | cons r rest =>
        have hmanual : SameControl { s with batches := s.batches.eraseIdx i }
            (applyManual deps forced r.1 r.2 now { s with batches := s.batches.eraseIdx i }) :=
          .applyManual
        exact SameControl.change ⟨hmanual.tick, hmanual.starts, hmanual.preflights⟩ htick

theorem step_control (h : step deps s a = some s') : ControlChange deps s a s' := by
  cases a with
  | read now => cases h; exact SameControl.read.change rfl
  | add id input loadMs createMs walkMs =>
    simp only [step, Option.ite_none_right_eq_some] at h
    cases h.2
    exact SameControl.add.change rfl
  | update id patch now => cases h; exact SameControl.update.change rfl
  | remove id loadMs => cases h; exact SameControl.remove.change rfl
  | stop => cases h; exact SameControl.change ⟨rfl, rfl, rfl⟩ rfl
  | inspect id forced walkMs now => cases h; exact (SameControl.load.trans .maintain).change rfl
  | preflight id forced walkMs now => cases h; exact preflight_control
  | reserve i =>
    simp only [step, Option.map_eq_some_iff] at h
    obtain ⟨p, -, rfl⟩ := h
    obtain ⟨htick, hstarts, hpreflights⟩ := reserve_control { s with preflights := s.preflights.eraseIdx i } p
    exact ⟨htick, .inl hstarts, fun q hq => .inl (List.mem_of_mem_eraseIdx (hpreflights ▸ hq))⟩
  | fire =>
    simp only [step, Option.ite_none_right_eq_some] at h
    cases h.2
    have hfire : s.fire.tick = tickAfter deps s .fire ∧ s.fire.starts = s.starts ∧
        s.fire.preflights = s.preflights := by
      simp only [fire, tickAfter]
      split <;> exact ⟨rfl, rfl, rfl⟩
    exact ⟨hfire.1, .inl hfire.2.1, fun _ hp => .inl (hfire.2.2 ▸ hp)⟩
  | onTimer checkMs markMs =>
    simp only [step, Option.ite_none_right_eq_some] at h
    cases h.2
    by_cases hdue : dueIds deps checkMs s.file = []
    · have hsame : SameControl s ((s.reload.maintain deps true checkMs).1.persistIf
          (s.reload.maintain deps true checkMs).2) := (SameControl.reload.trans .maintain).trans .persistIf
      rw [onTimer_idle hdue]
      exact ⟨by simp [tickAfter, hdue], .inl hsame.starts, fun _ hp => .inl (hsame.preflights ▸ hp)⟩
    · rw [onTimer_due hdue]
      exact ⟨by simp [tickAfter, hdue], .inl rfl, fun _ hp => .inl hp⟩
  | endTick =>
    simp only [step, Option.ite_none_right_eq_some] at h
    cases h.2
    exact ⟨rfl, .inl rfl, fun _ hp => .inl hp⟩
  | startBegin =>
    simp only [step, Option.ite_none_right_eq_some] at h
    cases h.2
    have hsame : SameControl s ((s.load.setStore (s.load.loaded.map (·.setRunning none))).persistIf
        (!((s.load.loaded.filter (·.isRunning)).map (·.id)).isEmpty)) :=
      (SameControl.load.trans .setStore).trans .persistIf
    exact ⟨hsame.tick, .inr (.inl rfl), fun _ hp => .inl (hsame.preflights ▸ hp)⟩
  | startPlan i now =>
    simp only [step] at h
    split at h
    · rename_i skipJobIds hstart
      cases h
      have hload : SameControl { s with starts := s.starts.eraseIdx i }
          (load { s with starts := s.starts.eraseIdx i }) := .load
      have hplan : (planStartupCatchup deps skipJobIds now { s with starts := s.starts.eraseIdx i }).tick =
          s.tick ∧ (planStartupCatchup deps skipJobIds now
            { s with starts := s.starts.eraseIdx i }).preflights = s.preflights := by
        simp only [planStartupCatchup]
        split <;> exact ⟨hload.tick, hload.preflights⟩
      exact ⟨hplan.1, .inr (.inr (.inl ⟨i, now, .inl rfl, by simp [hstart]⟩)),
        fun _ hp => .inl (hplan.2 ▸ hp)⟩
    · cases h
  | startFinish i now =>
    simp only [step] at h
    split at h
    · rename_i hstart
      cases h
      have hsame : SameControl { s with starts := s.starts.eraseIdx i }
          (startFinish deps now { s with starts := s.starts.eraseIdx i }) :=
        ((SameControl.load.trans .setStore).trans .persistIf).trans .armTimer
      exact ⟨hsame.tick, .inr (.inr (.inl ⟨i, now, .inr rfl, by simp [hstart]⟩)),
        fun _ hp => .inl (hsame.preflights ▸ hp)⟩
    · cases h
  | startRun i now => exact (startRun_control h).change rfl
  | finishRun i id status error now =>
    simp only [step, finishRun, Option.map_eq_some_iff] at h
    obtain ⟨batch, -, rfl⟩ := h
    exact SameControl.change ⟨rfl, rfl, rfl⟩ rfl
  | applyBatch i baseMs now => exact applyBatch_control h

end OpenClaw.Cron.CronService
