import OpenClaw.Cron.Service.Jobs

/-!
# Running cron jobs

Which jobs a tick or the startup catch-up may run, and what the outcome of a
run does to its job.
-/

namespace OpenClaw.Cron

open Js

structure RetryConfig where
  maxAttempts : Option Int
  backoffMs : List Int
  retryOn : List String

/-- The settings the service reads. `check` is how the rest of a new job is
normalised and validated. -/
structure CronDeps (D : Type) extends ScheduleEnv where
  cronEnabled : Bool
  maxConcurrentRuns : Option Rat
  maxMissedJobsPerRestart : Option Int
  missedJobStaggerMs : Option Int
  retry : RetryConfig
  check : D → Except String D

variable {D : Type}

def MIN_REFIRE_GAP_MS : Int := 2000
def DEFAULT_MISSED_JOB_STAGGER_MS : Int := 5000
def DEFAULT_MAX_MISSED_JOBS_PER_RESTART : Int := 5
def DEFAULT_MAX_TRANSIENT_RETRIES : Int := 3
def DEFAULT_BACKOFF_SCHEDULE_MS : List Int :=
  [30000, 60000, 5 * 60000, 15 * 60000, 60 * 60000]

def resolveRunConcurrency (deps : CronDeps D) : Nat :=
  match deps.maxConcurrentRuns with
  | none => 1
  | some raw => (max 1 raw.floor).toNat

def errorBackoffMs (consecutiveErrors : Int) (scheduleMs : List Int) : Int :=
  (scheduleMs[(min (consecutiveErrors - 1) (scheduleMs.length - 1)).toNat]?).getD 0

-- ---
-- Transient errors
-- ---

def isWordChar (c : Char) : Bool :=
  c.isAlphanum || c = '_'

/-- The text has `part`, whatever the case. -/
def mentions (text : List Char) (part : String) : Bool :=
  text.tails.any (part.toList.isPrefixOf ·)

/-- `/\b…\b/`: the text is the start of a word or follows no word character. -/
def wordAt (isWord : List Char → Option (List Char)) : (afterWord : Bool) → List Char → Bool
  | _, [] => false
  | afterWord, c :: text =>
    (!afterWord && match isWord (c :: text) with
      | some rest => !rest.head?.any isWordChar
      | none => false) || wordAt isWord (isWordChar c) text

def word (part : String) (text : List Char) : Option (List Char) :=
  if part.toList.isPrefixOf text then some (text.drop part.length) else none

def fiveHundred : List Char → Option (List Char)
  | '5' :: a :: b :: rest => if a.isDigit && b.isDigit then some rest else none
  | _ => none

/-- Each class of errors that is worth a retry, on text in lower case. -/
def TRANSIENT_PATTERNS : List (String × (List Char → Bool)) := [
  ("rate_limit", fun text => ["rate_limit", "rate limit", "too many requests", "429",
    "resource has been exhausted", "cloudflare", "tokens per day"].any (mentions text)),
  ("overloaded", fun text => wordAt (word "529") false text ||
    wordAt (word "overloaded") false text || wordAt (word "overloaded_error") false text ||
    ["high demand", "temporarily overloaded", "temporary overloaded", "capacity exceeded"].any
      (mentions text)),
  ("network", fun text => ["network", "econnreset", "econnrefused", "fetch failed", "socket"].any
    (mentions text)),
  ("timeout", fun text => ["timeout", "etimedout"].any (mentions text)),
  ("server_error", wordAt fiveHundred false)]

def isTransientCronError (error : Option String) (retryOn : List String) : Bool :=
  match error with
  | none => false
  | some error =>
    if error = "" then false
    else
      let keys := if retryOn.isEmpty then TRANSIENT_PATTERNS.map (·.1) else retryOn
      keys.any fun key => (TRANSIENT_PATTERNS.lookup key).any (· (error.toList.map Char.toLower))

structure RetryPolicy where
  maxAttempts : Int
  backoffMs : List Int
  retryOn : List String

def resolveRetryConfig (retry : RetryConfig) : RetryPolicy where
  maxAttempts := retry.maxAttempts.getD DEFAULT_MAX_TRANSIENT_RETRIES
  backoffMs := if retry.backoffMs.isEmpty then DEFAULT_BACKOFF_SCHEDULE_MS.take 3 else retry.backoffMs
  retryOn := retry.retryOn

-- ---
-- What may run
-- ---

def isErrorBackoffPending (job : CronJob D) (nowMs : Int) : Bool :=
  if isAt job.schedule || job.state.lastStatus ≠ some .error then false
  else match job.lastRun? with
    | none => false
    | some lastRunAtMs =>
      nowMs < lastRunAtMs +
        errorBackoffMs (max 1 (job.state.consecutiveErrors.getD 1)) DEFAULT_BACKOFF_SCHEDULE_MS

/-- `catchup` is how the startup catch-up calls it: one-shots that already ran
are skipped and missed slots of cron expressions count. -/
def isRunnableJob (env : ScheduleEnv) (nowMs : Int) (skipJobIds : List String) (catchup : Bool)
    (job : CronJob D) : Bool :=
  if !job.enabled || skipJobIds.contains job.id || job.isRunning then false
  else if catchup && isAt job.schedule && job.state.lastStatus.isSome then
    -- only the retry of a transient error, which is later than the failed run
    match job.state.lastStatus, job.state.nextRunAtMs, job.state.lastRunAtMs with
    | some .error, some nextRun, some lastRun =>
      lastRun.lt nextRun && nextRun.le (.ofInt nowMs)
    | _, _, _ => false
  else if job.slot?.any (· ≤ (nowMs : Rat)) then true
  else if job.slot?.isSome && isErrorBackoffPending job nowMs then false
  else if !catchup then false
  else match computeJobPreviousRunAtMs env job nowMs, job.lastRun? with
    | .ok (some previousRunAtMs), some lastRunAtMs => lastRunAtMs < previousRunAtMs
    | _, _ => false

def collectRunnableJobs (env : ScheduleEnv) (nowMs : Int) (skipJobIds : List String) (catchup : Bool)
    (jobs : List (CronJob D)) : List (CronJob D) :=
  jobs.filter (isRunnableJob env nowMs skipJobIds catchup)

-- ---
-- Outcomes
-- ---

structure RunResult where
  status : CronRunStatus
  error : Option String
  startedAt : Int
  endedAt : Int
  deriving DecidableEq

/-- The next run of a job that ends now. A manual run that was forced leaves
the grid of an interval job alone. -/
def naturalNext (env : ScheduleEnv) (job : CronJob D) (prevLastRunAtMs : Option Number)
    (preserveSchedule : Bool) (endedAt : Int) : Except String (Option Rat) :=
  match preserveSchedule, job.schedule with
  | true, .every _ _ =>
    computeJobNextRunAtMs env (job.setState { job.state with lastRunAtMs := prevLastRunAtMs }) endedAt
  | _, _ => computeJobNextRunAtMs env job endedAt

/-- The job after its run, before its next run is decided. -/
def recordRun (job : CronJob D) (result : RunResult) : CronJob D :=
  { job with
    updatedAtMs := result.endedAt
    state := { job.state with
      runningAtMs := none
      lastRunAtMs := some (.ofInt result.startedAt)
      lastStatus := some result.status
      lastError := result.error
      consecutiveErrors :=
        if result.status = .error then some (job.state.consecutiveErrors.getD 0 + 1) else some 0 } }

def disableOneShot (job : CronJob D) : CronJob D :=
  { job with enabled := false, state := { job.state with nextRunAtMs := none } }

/-- A one-shot that failed is retried after a transient error, else disabled. -/
def settleOneShot (deps : CronDeps D) (job : CronJob D) (result : RunResult) : CronJob D :=
  if result.status = .error then
    let retry := resolveRetryConfig deps.retry
    let consecutive := job.state.consecutiveErrors.getD 0
    if isTransientCronError result.error retry.retryOn && consecutive ≤ retry.maxAttempts then
      job.setNextRun (some (.ofInt (result.endedAt + errorBackoffMs consecutive retry.backoffMs)))
    else disableOneShot job
  else disableOneShot job

/-- The later of the next slot and the earliest time allowed. -/
def notBefore (next : Option Rat) (earliest : Int) : Option Number :=
  some (.fin (match next with
    | some next => max next earliest
    | none => earliest))

/-- A recurring job runs again at its next slot, but not before the backoff of
an error or the gap between two runs of a cron job. -/
def settleRecurring (env : ScheduleEnv) (job : CronJob D) (prevLastRunAtMs : Option Number)
    (preserveSchedule : Bool) (result : RunResult) : CronJob D :=
  if !job.enabled then job.setNextRun none
  else
    let (job, next) := match naturalNext env job prevLastRunAtMs preserveSchedule result.endedAt with
      | .ok next => (job, next)
      | .error err => (recordScheduleComputeError job err, none)
    if result.status = .error then
      let backoff :=
        errorBackoffMs (job.state.consecutiveErrors.getD 1) DEFAULT_BACKOFF_SCHEDULE_MS
      job.setNextRun (notBefore next (result.endedAt + backoff))
    else match job.schedule with
      | .cron _ _ _ _ => job.setNextRun (notBefore next (result.endedAt + MIN_REFIRE_GAP_MS))
      | .at _ _ | .every _ _ => job.setNextRun (next.map .fin)

/-- The job after its run, and whether it is to be deleted. -/
def applyJobResult (deps : CronDeps D) (preserveSchedule : Bool) (result : RunResult)
    (job : CronJob D) : CronJob D × Bool :=
  let ran := recordRun job result
  if isAt job.schedule && job.deleteAfterRun = some true && result.status = .ok then (ran, true)
  else if isAt job.schedule then (settleOneShot deps ran result, false)
  else (settleRecurring deps.toScheduleEnv ran job.state.lastRunAtMs preserveSchedule result, false)

/-- The first job with this id, changed in place. -/
def updateJob (id : String) (f : CronJob D → CronJob D) : List (CronJob D) → List (CronJob D)
  | [] => []
  | job :: jobs => if job.id = id then f job :: jobs else job :: updateJob id f jobs

/-- A job that is to be deleted leaves the store. -/
def applyToStore (deps : CronDeps D) (preserveSchedule : Bool) (id : String) (result : RunResult)
    (jobs : List (CronJob D)) : List (CronJob D) :=
  match jobs.find? (·.id = id) with
  | none => jobs
  | some job =>
    if (applyJobResult deps preserveSchedule result job).2 then jobs.filter (·.id ≠ id)
    else updateJob id (fun job => (applyJobResult deps preserveSchedule result job).1) jobs

end OpenClaw.Cron
