import OpenClaw.Cron.Schedule

/-!
# Cron jobs and their next runs

The fields of a job the scheduler reads and writes, when a job runs next, and
the two walks over the store that bring the next runs up to date: the full one,
which advances every slot that is due, and the one for maintenance, which keeps
a slot that was not executed.
-/

namespace OpenClaw.Cron

open Js

inductive CronRunStatus where
  | ok
  | error
  | skipped
  deriving DecidableEq

/-- The times may be any number in a stored job. -/
structure CronJobState where
  nextRunAtMs : Option Number
  runningAtMs : Option Number
  lastRunAtMs : Option Number
  lastStatus : Option CronRunStatus
  lastError : Option String
  consecutiveErrors : Option Int
  scheduleErrorCount : Option Int
  deriving DecidableEq

/-- `D` is the rest of the job: its name, payload, delivery and target. -/
structure CronJob (D : Type) where
  id : String
  enabled : Bool
  deleteAfterRun : Option Bool
  createdAtMs : Option Number
  updatedAtMs : Int
  schedule : CronSchedule
  state : CronJobState
  details : D

namespace CronJob

variable {D : Type}

def setState (job : CronJob D) (state : CronJobState) : CronJob D :=
  { job with state }

def setNextRun (job : CronJob D) (nextRunAtMs : Option Number) : CronJob D :=
  job.setState { job.state with nextRunAtMs }

def setRunning (job : CronJob D) (runningAtMs : Option Number) : CronJob D :=
  job.setState { job.state with runningAtMs }

/-- A finite `nextRunAtMs`. -/
def slot? (job : CronJob D) : Option Rat :=
  job.state.nextRunAtMs.bind Number.finite?

def lastRun? (job : CronJob D) : Option Rat :=
  job.state.lastRunAtMs.bind Number.finite?

/-- Whether the job has a running marker. -/
def isRunning (job : CronJob D) : Bool :=
  job.state.runningAtMs.isSome

end CronJob

def STUCK_RUN_MS : Int := 2 * 60 * 60 * 1000

def MAX_SCHEDULE_ERRORS : Int := 3

variable {D : Type}

-- ---
-- The next run of a job
-- ---

/-- The next slot of a cron job, shifted by its offset. The cursor starts one
offset back, so that a slot of the current window that has not passed counts. -/
def staggeredNext (next : Int → Except String (Option Int)) (offsetMs nowMs : Int) :
    (attempts : Nat) → (cursorMs : Int) → Except String (Option Int)
  | 0, _ => pure none
  | attempts + 1, cursorMs => do
    match ← next cursorMs with
    | none => pure none
    | some baseNext =>
      if baseNext + offsetMs > nowMs then pure (some (baseNext + offsetMs))
      else staggeredNext next offsetMs nowMs attempts (max (cursorMs + 1) (baseNext + 1000))

/-- `computeStaggeredCronNextRunAtMs` of a cron schedule. -/
def computeStaggeredCronNextRunAtMs (env : ScheduleEnv) (jobId : String)
    (expr legacyExpr tz staggerMs : Option Json) (nowMs : Int) : Except String (Option Int) :=
  let offsetMs := resolveStableCronOffsetMs env jobId (resolveCronStaggerMs expr staggerMs)
  if offsetMs ≤ 0 then computeNextCronRunAtMs env expr legacyExpr tz nowMs
  else staggeredNext (computeNextCronRunAtMs env expr legacyExpr tz) offsetMs nowMs 4
    (max 0 (nowMs - offsetMs))

/-- The last slot before, shifted by the offset. -/
def staggeredPrevious (previous : Int → Except String (Option Int)) (offsetMs nowMs : Int) :
    (attempts : Nat) → (cursorMs : Int) → Except String (Option Int)
  | 0, _ => pure none
  | attempts + 1, cursorMs => do
    match ← previous cursorMs with
    | none => pure none
    | some basePrevious =>
      if basePrevious + offsetMs ≤ nowMs then pure (some (basePrevious + offsetMs))
      else staggeredPrevious previous offsetMs nowMs attempts (max 0 (basePrevious - 1000))

/-- `computeStaggeredCronPreviousRunAtMs` of a cron schedule. -/
def computeStaggeredCronPreviousRunAtMs (env : ScheduleEnv) (jobId : String)
    (expr legacyExpr tz staggerMs : Option Json) (nowMs : Int) : Except String (Option Int) :=
  let offsetMs := resolveStableCronOffsetMs env jobId (resolveCronStaggerMs expr staggerMs)
  if offsetMs ≤ 0 then computePreviousCronRunAtMs env expr legacyExpr tz nowMs
  else staggeredPrevious (computePreviousCronRunAtMs env expr legacyExpr tz) offsetMs nowMs 4
    (max 0 (nowMs - offsetMs))

def resolveEveryAnchorMs (anchorMs : Option Json) (fallbackAnchorMs : Rat) : Int :=
  max 0 ((coerceFiniteScheduleNumber anchorMs).getD fallbackAnchorMs).floor

/-- The anchor of a job whose schedule has none: its creation, or now. -/
def fallbackAnchorMs (job : CronJob D) (nowMs : Int) : Rat :=
  (job.createdAtMs.bind Number.finite?).getD nowMs

/-- Whether a number is neither zero nor `NaN`. -/
def truthy : Number → Bool
  | .nan => false
  | .fin q => q ≠ 0
  | .posInf | .negInf => true

def computeJobNextRunAtMs (env : ScheduleEnv) (job : CronJob D) (nowMs : Int) :
    Except String (Option Rat) :=
  if !job.enabled then pure none
  else match job.schedule with
  | .every everyMs anchorMs =>
    match coerceFiniteScheduleNumber everyMs with
    | none => pure none
    | some everyMsRaw =>
      let everyMs := max 1 everyMsRaw.floor
      let nextFromLastRun := (job.lastRun?.map fun last => last.floor + everyMs).filter (· > nowMs)
      match nextFromLastRun with
      | some next => pure (some next)
      | none =>
        let anchorMs := resolveEveryAnchorMs anchorMs (fallbackAnchorMs job nowMs)
        computeNextRunAtMs env
          (.every (some (.num (.ofInt everyMs))) (some (.num (.ofInt anchorMs)))) nowMs
  | .at time atMs =>
    let atMs := resolveAtMs env time atMs
    match job.state.lastStatus, job.state.lastRunAtMs.filter truthy with
    | some .ok, some lastRunAtMs =>
      -- done, unless it was rescheduled to a time after its last run
      pure (atMs.filter fun atMs => lastRunAtMs.lt (.fin atMs))
    | _, _ => pure atMs
  | .cron expr legacyExpr tz staggerMs => do
    match ← computeStaggeredCronNextRunAtMs env job.id expr legacyExpr tz staggerMs nowMs with
    | some next => pure (some next)
    | none =>
      let next ← computeStaggeredCronNextRunAtMs env job.id expr legacyExpr tz staggerMs
        (nowMs / 1000 * 1000 + 1000)
      pure (next.map (↑))

def computeJobPreviousRunAtMs (env : ScheduleEnv) (job : CronJob D) (nowMs : Int) :
    Except String (Option Int) :=
  if !job.enabled then pure none
  else match job.schedule with
  | .cron expr legacyExpr tz staggerMs =>
    computeStaggeredCronPreviousRunAtMs env job.id expr legacyExpr tz staggerMs nowMs
  | .every _ _ | .at _ _ => pure none

-- ---
-- Walks over the store
-- ---

/-- The third error in a row disables the job. -/
def recordScheduleComputeError (job : CronJob D) (err : String) : CronJob D :=
  let errorCount := job.state.scheduleErrorCount.getD 0 + 1
  { job with
    enabled := job.enabled && errorCount < MAX_SCHEDULE_ERRORS
    state := { job.state with
      scheduleErrorCount := some errorCount
      nextRunAtMs := none
      lastError := some ("schedule error: " ++ err) } }

/-- The stored anchor of an `every` schedule is made explicit. -/
def normalizeAnchor (job : CronJob D) (nowMs : Int) : CronJob D × Bool :=
  match job.schedule with
  | .every everyMs anchorMs =>
    let normalizedAnchorMs := resolveEveryAnchorMs anchorMs (fallbackAnchorMs job nowMs)
    match anchorMs with
    | some (.num n) =>
      if n = .ofInt normalizedAnchorMs then (job, false)
      else ({ job with schedule := .every everyMs (some (.num (.ofInt normalizedAnchorMs))) }, true)
    | _ => ({ job with schedule := .every everyMs (some (.num (.ofInt normalizedAnchorMs))) }, true)
  | .at _ _ | .cron _ _ _ _ => (job, false)

/-- `typeof runningAt === "number" && nowMs - runningAt > STUCK_RUN_MS` -/
def isStuck (job : CronJob D) (nowMs : Int) : Bool :=
  job.state.runningAtMs.any fun runningAt => (runningAt.add (.ofInt STUCK_RUN_MS)).lt (.ofInt nowMs)

structure TickState (D : Type) where
  job : CronJob D
  changed : Bool
  skip : Bool

def normalizeJobTickState (job : CronJob D) (nowMs : Int) : TickState D :=
  let (job, anchored) := normalizeAnchor job nowMs
  if !job.enabled then
    { job := (job.setNextRun none).setRunning none
      changed := anchored || job.state.nextRunAtMs.isSome || job.state.runningAtMs.isSome
      skip := true }
  else
    let invalid := job.state.nextRunAtMs.isSome && job.slot?.isNone
    let stuck := isStuck job nowMs
    let job := if invalid then job.setNextRun none else job
    { job := if stuck then job.setRunning none else job
      changed := anchored || invalid || stuck
      skip := false }

/-- One job of a walk, and whether it changed. -/
def walkJob (fn : CronJob D → CronJob D × Bool) (nowMs : Int) (job : CronJob D) :
    CronJob D × Bool :=
  let tick := normalizeJobTickState job nowMs
  if tick.skip then (tick.job, tick.changed)
  else
    let (job, changed) := fn tick.job
    (job, tick.changed || changed)

def walkSchedulableJobs (fn : CronJob D → CronJob D × Bool) (nowMs : Int)
    (jobs : List (CronJob D)) : List (CronJob D) × Bool :=
  (jobs.map fun job => (walkJob fn nowMs job).1, jobs.any fun job => (walkJob fn nowMs job).2)

def recomputeJobNextRunAtMs (env : ScheduleEnv) (nowMs : Int) (job : CronJob D) :
    CronJob D × Bool :=
  match computeJobNextRunAtMs env job nowMs with
  | .ok next =>
    let newNext := next.map Number.fin
    let counted := job.state.scheduleErrorCount.any (· ≠ 0)
    (job.setState { job.state with
        nextRunAtMs := newNext
        scheduleErrorCount := if counted then none else job.state.scheduleErrorCount },
      job.state.nextRunAtMs ≠ newNext || counted)
  | .error err => (recordScheduleComputeError job err, true)

def isDueOrMissing (job : CronJob D) (nowMs : Int) : Bool :=
  match job.slot? with
  | none => true
  | some slot => slot ≤ nowMs

def recomputeNextRuns (env : ScheduleEnv) (nowMs : Int) (jobs : List (CronJob D)) :
    List (CronJob D) × Bool :=
  walkSchedulableJobs (fun job =>
    if isDueOrMissing job nowMs then recomputeJobNextRunAtMs env nowMs job else (job, false))
    nowMs jobs

/-- A past-due slot is advanced only on request, and only once it was executed. -/
def maintainJob (env : ScheduleEnv) (recomputeExpired : Bool) (nowMs : Int) (job : CronJob D) :
    CronJob D × Bool :=
  match job.slot? with
  | none => recomputeJobNextRunAtMs env nowMs job
  | some slot =>
    let alreadyExecutedSlot := job.lastRun?.any (slot ≤ ·)
    if recomputeExpired && slot ≤ nowMs && !job.isRunning && alreadyExecutedSlot then
      recomputeJobNextRunAtMs env nowMs job
    else (job, false)

def recomputeNextRunsForMaintenance (env : ScheduleEnv) (recomputeExpired : Bool) (nowMs : Int)
    (jobs : List (CronJob D)) : List (CronJob D) × Bool :=
  walkSchedulableJobs (maintainJob env recomputeExpired nowMs) nowMs jobs

-- ---
-- Jobs
-- ---

def isJobDue (job : CronJob D) (nowMs : Int) (forced : Bool) : Bool :=
  !job.isRunning && (forced || job.enabled && job.state.nextRunAtMs.any (Number.le · (.ofInt nowMs)))

/-- The earliest finite next run of an enabled job. -/
def nextWakeAtMs (jobs : List (CronJob D)) : Option Rat :=
  ((jobs.filter (·.enabled)).filterMap CronJob.slot?).min?

structure CronJobCreate (D : Type) where
  enabled : Option Bool
  deleteAfterRun : Option Bool
  schedule : CronSchedule
  state : CronJobState
  details : D

/-- The schedule a new job keeps. -/
def createSchedule (schedule : CronSchedule) (nowMs : Int) : CronSchedule :=
  match schedule with
  | .every everyMs anchorMs =>
    .every everyMs (some (.num (.ofInt (resolveEveryAnchorMs anchorMs nowMs))))
  | .cron expr legacyExpr tz staggerMs =>
    match normalizeCronStaggerMs staggerMs with
    | some explicit => .cron expr legacyExpr tz (some (.num (.ofInt explicit)))
    | none =>
      match resolveDefaultCronStaggerMs ((expr.bind Json.str?).getD "") with
      | some default => .cron expr legacyExpr tz (some (.num (.ofInt default)))
      | none => schedule
  | .at _ _ => schedule

/-- `check` normalises the rest of the job and throws what its assertions
throw. `id` is the random one. -/
def createJob (env : ScheduleEnv) (check : D → Except String D) (id : String) (nowMs : Int)
    (input : CronJobCreate D) : Except String (CronJob D) := do
  let details ← check input.details
  let job : CronJob D := {
    id
    enabled := input.enabled.getD true
    deleteAfterRun := input.deleteAfterRun <|> if isAt input.schedule then some true else none
    createdAtMs := some (.ofInt nowMs)
    updatedAtMs := nowMs
    schedule := createSchedule input.schedule nowMs
    state := input.state
    details }
  let next ← computeJobNextRunAtMs env job nowMs
  pure (job.setNextRun (next.map .fin))

-- ---
-- Patches
-- ---

/-- Where merging a patch throws: at the name, before anything is assigned, at
the payload or the delivery, or in the assertions at the end. -/
inductive PatchStage where
  | name
  | merge
  | assertion
  deriving DecidableEq

/-- `details` merges the rest of the patch, and may throw half way. -/
structure CronJobPatch (D : Type) where
  enabled : Option Bool
  deleteAfterRun : Option Bool
  schedule : Option CronSchedule
  state : Option (CronJobState → CronJobState)
  details : D → D × Option PatchStage

/-- The schedule a patch puts in the place of another. -/
def patchSchedule (existing patch : CronSchedule) : CronSchedule :=
  match patch with
  | .cron expr legacyExpr tz staggerMs =>
    match normalizeCronStaggerMs staggerMs, existing with
    | some explicit, _ => .cron expr legacyExpr tz (some (.num (.ofInt explicit)))
    | none, .cron _ _ _ existingStaggerMs => .cron expr legacyExpr tz existingStaggerMs
    | none, .at _ _ | none, .every _ _ =>
      match resolveDefaultCronStaggerMs ((expr.bind Json.str?).getD "") with
      | some default => .cron expr legacyExpr tz (some (.num (.ofInt default)))
      | none => patch
  | .at _ _ | .every _ _ => patch

/-- The job as it is after the patch or when the patch throws, and whether it
does. -/
def applyJobPatch (job : CronJob D) (patch : CronJobPatch D) : CronJob D × Bool :=
  let (details, thrown) := patch.details job.details
  if thrown = some .name then (job, false)
  else
    let job := { job with
      details
      enabled := patch.enabled.getD job.enabled
      deleteAfterRun := patch.deleteAfterRun <|> job.deleteAfterRun
      schedule := (patch.schedule.map (patchSchedule job.schedule)).getD job.schedule }
    if thrown = some .merge then (job, false)
    else (job.setState ((patch.state.getD id) job.state), thrown.isNone)

end OpenClaw.Cron
