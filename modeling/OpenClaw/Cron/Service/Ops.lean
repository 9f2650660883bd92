import Mathlib.Data.List.Sort
import OpenClaw.Lib.Transition
import OpenClaw.Cron.Service.Timer

/-!
# The cron service

The store in memory and its file, and the runs that were reserved under the
lock and execute outside of it. A section under the lock is one step; what
happens between the sections of a tick, a manual run or a start is a step of
its own, so that every interleaving is a run.
-/

namespace OpenClaw.Cron

open Js

-- ---
-- State
-- ---

inductive RunPhase where
  | waiting
  | executing (startedAt : Int)
  | done (result : RunResult)
  deriving DecidableEq

structure RunEntry where
  id : String
  phase : RunPhase
  deriving DecidableEq

/-- Who reserved the runs. A tick holds the job objects of one load of the
store; the catch-up has deferred the jobs it does not run. -/
inductive RunOwner where
  | tick (generation : Nat)
  | catchup (deferredJobIds : List String)
  | manual (forced : Bool)
  deriving DecidableEq

/-- Runs whose outcomes are applied together. -/
structure RunBatch where
  owner : RunOwner
  entries : List RunEntry
  deriving DecidableEq

def RunBatch.ids (batch : RunBatch) : List String :=
  batch.entries.map (·.id)

def RunEntry.isExecuting (entry : RunEntry) : Bool :=
  match entry.phase with
  | .executing _ => true
  | .waiting | .done _ => false

def RunEntry.result? (entry : RunEntry) : Option RunResult :=
  match entry.phase with
  | .done result => some result
  | .waiting | .executing _ => none

/-- The results of a batch, once all its runs have ended. -/
def RunBatch.results? (batch : RunBatch) : Option (List (String × RunResult)) :=
  batch.entries.mapM fun entry => entry.result?.map (entry.id, ·)

/-- A manual run between its preflight and its reservation. -/
structure Preflight where
  id : String
  forced : Bool
  now : Int
  deriving DecidableEq

/-- Where a call of `start` is, besides its catch-up. -/
inductive StartPhase where
  | planning (interruptedJobIds : List String)
  | finishing
  deriving DecidableEq

/-- `waiting` is a tick whose timer fired and that does not have the lock yet. -/
inductive TickPhase where
  | idle
  | waiting
  | busy
  | ending
  deriving DecidableEq

/-- A call of `recomputeNextRunsForMaintenance`, for the record. -/
structure MaintenanceCall (D : Type) where
  recomputeExpired : Bool
  nowMs : Int
  before : List (CronJob D)
  after : List (CronJob D)

/-- `generation` counts the loads of the store. -/
structure CronService (D : Type) where
  store : Option (List (CronJob D))
  generation : Nat
  file : List (CronJob D)
  tick : TickPhase
  timer : Bool
  batches : List RunBatch
  preflights : List Preflight
  starts : List StartPhase
  maintained : List (MaintenanceCall D)

-- ---
-- Updates
-- ---

variable {D : Type}

/-- An `every` schedule gets an anchor when it has none. -/
def anchorPatched (job : CronJob D) (patch : CronJobPatch D) (nowMs : Int) : CronJob D :=
  match job.schedule with
  | .every _ (some (.num (.fin _))) => job
  | .every everyMs _ =>
    let fallback : Rat := match patch.schedule with
      | some (.every _ _) => nowMs
      | _ => fallbackAnchorMs job nowMs
    { job with schedule := .every everyMs (some (.num (.ofInt (max 0 fallback.floor)))) }
  | .at _ _ | .cron _ _ _ _ => job

/-- The next run after a patch, and whether computing it throws. -/
def rescheduled (deps : CronDeps D) (job : CronJob D) (patch : CronJobPatch D) (nowMs : Int) :
    CronJob D × Bool :=
  if (patch.schedule.isSome || patch.enabled.isSome) && !job.enabled then
    ((job.setNextRun none).setRunning none, true)
  else if patch.schedule.isSome || patch.enabled.isSome || job.enabled && job.slot?.isNone then
    match computeJobNextRunAtMs deps.toScheduleEnv job nowMs with
    | .ok next => (job.setNextRun (next.map .fin), true)
    | .error _ => (job, false)
  else (job, true)

/-- A patched job, and whether the update succeeds. -/
def updatedJob (deps : CronDeps D) (patch : CronJobPatch D) (nowMs : Int) (job : CronJob D) :
    CronJob D × Bool :=
  let (job, ok) := applyJobPatch job patch
  if !ok then (job, false)
  else rescheduled deps { anchorPatched job patch nowMs with updatedAtMs := nowMs } patch nowMs

namespace CronService

/-- The jobs of the store, once it is loaded. -/
def loaded (s : CronService D) : List (CronJob D) :=
  s.store.getD s.file

def setStore (s : CronService D) (jobs : List (CronJob D)) : CronService D :=
  { s with store := some jobs }

/-- `ensureLoaded` with `skipRecompute`. -/
def load (s : CronService D) : CronService D :=
  match s.store with
  | some _ => s
  | none => { s with store := some s.file, generation := s.generation + 1 }

/-- `ensureLoaded` with `forceReload`. -/
def reload (s : CronService D) : CronService D :=
  { s with store := some s.file, generation := s.generation + 1 }

/-- `ensureLoaded` -/
def ensureLoaded (deps : CronDeps D) (nowMs : Int) (s : CronService D) : CronService D :=
  match s.store with
  | some _ => s
  | none => s.load.setStore (recomputeNextRuns deps.toScheduleEnv nowMs s.file).1

def persist (s : CronService D) : CronService D :=
  match s.store with
  | some jobs => { s with file := jobs }
  | none => s

def persistIf (changed : Bool) (s : CronService D) : CronService D :=
  if changed then s.persist else s

def armTimer (deps : CronDeps D) (s : CronService D) : CronService D :=
  { s with timer := deps.cronEnabled && (nextWakeAtMs s.loaded).any (· ≠ 0) }

/-- The service after `recomputeNextRunsForMaintenance`, and whether a job changed. -/
def maintain (deps : CronDeps D) (recomputeExpired : Bool) (nowMs : Int) (s : CronService D) :
    CronService D × Bool :=
  let (jobs, changed) :=
    recomputeNextRunsForMaintenance deps.toScheduleEnv recomputeExpired nowMs s.loaded
  ({ s with
      store := some jobs
      maintained := ⟨recomputeExpired, nowMs, s.loaded, jobs⟩ :: s.maintained }, changed)

-- ---
-- Reads and edits
-- ---

/-- `list`, `status` and `listPage` -/
def read (deps : CronDeps D) (nowMs : Int) (s : CronService D) : CronService D :=
  let (s, changed) := s.load.maintain deps false nowMs
  s.persistIf changed

def add (deps : CronDeps D) (id : String) (input : CronJobCreate D) (loadMs createMs walkMs : Int)
    (s : CronService D) : CronService D :=
  let s := s.ensureLoaded deps loadMs
  match createJob deps.toScheduleEnv deps.check id createMs input with
  | .error _ => s
  | .ok job =>
    let jobs := (recomputeNextRuns deps.toScheduleEnv walkMs (s.loaded ++ [job])).1
    ((s.setStore jobs).persist).armTimer deps

/-- What throws stays in memory as far as it got, and is not written. -/
def update (deps : CronDeps D) (id : String) (patch : CronJobPatch D) (nowMs : Int)
    (s : CronService D) : CronService D :=
  let s := s.load
  match s.loaded.find? (·.id = id) with
  | none => s
  | some job =>
    let s' := s.setStore (updateJob id (fun job => (updatedJob deps patch nowMs job).1) s.loaded)
    if (updatedJob deps patch nowMs job).2 then s'.persist.armTimer deps else s'

def remove (deps : CronDeps D) (id : String) (loadMs : Int) (s : CronService D) : CronService D :=
  let s := s.ensureLoaded deps loadMs
  ((s.setStore (s.loaded.filter (·.id ≠ id))).persist).armTimer deps

def stop (s : CronService D) : CronService D :=
  { s with timer := false }

-- ---
-- Reserving runs
-- ---

/-- The running marker of a reserved job. -/
def reserveJob (nowMs : Int) (job : CronJob D) : CronJob D :=
  job.setState { job.state with runningAtMs := some (.ofInt nowMs), lastError := none }

def reserveJobs (ids : List String) (nowMs : Int) (jobs : List (CronJob D)) : List (CronJob D) :=
  jobs.map fun job => if ids.contains job.id then reserveJob nowMs job else job

/-- `inspectManualRunPreflight`, and whether the job may run. -/
def inspectManualRunPreflight (deps : CronDeps D) (id : String) (forced : Bool)
    (walkMs nowMs : Int) (s : CronService D) : CronService D × Bool :=
  let s := (s.load.maintain deps false walkMs).1
  (s, (s.loaded.find? (·.id = id)).any fun job => isJobDue job nowMs forced)

/-- The first section of a manual run. -/
def preflight (deps : CronDeps D) (id : String) (forced : Bool) (walkMs nowMs : Int)
    (s : CronService D) : CronService D :=
  let (s, runnable) := s.inspectManualRunPreflight deps id forced walkMs nowMs
  if runnable then { s with preflights := s.preflights ++ [⟨id, forced, nowMs⟩] } else s

/-- The second section of a manual run. The job executes when the lock is
released. -/
def reserve (p : Preflight) (s : CronService D) : CronService D :=
  match s.loaded.find? (·.id = p.id) with
  | none => s
  | some job =>
    if job.isRunning then s
    else
      { (s.setStore (updateJob p.id (reserveJob p.now) s.loaded)).persist with
        batches := s.batches ++ [⟨.manual p.forced, [⟨p.id, .executing p.now⟩]⟩] }

/-- The timer fires, and a watchdog is armed. A tick that finds another one at
work ends there. -/
def fire (s : CronService D) : CronService D :=
  if s.tick = .idle then { s with tick := .waiting, timer := true } else { s with timer := true }

/-- The first section of `onTimer`. -/
def onTimer (deps : CronDeps D) (checkMs markMs : Int) (s : CronService D) : CronService D :=
  let s := s.reload
  let due := (collectRunnableJobs deps.toScheduleEnv checkMs [] false s.loaded).map (·.id)
  if due.isEmpty then
    let (s, changed) := s.maintain deps true checkMs
    { s.persistIf changed with tick := .ending }
  else
    { (s.setStore (reserveJobs due markMs s.loaded)).persist with
      tick := .busy
      batches := s.batches ++ [⟨.tick s.generation, due.map (⟨·, .waiting⟩)⟩] }

/-- The last part of `onTimer`. -/
def endTick (deps : CronDeps D) (s : CronService D) : CronService D :=
  { s with tick := .idle }.armTimer deps

/-- `start`, to the end of its first section, which clears every marker. -/
def startBegin (s : CronService D) : CronService D :=
  let s := s.load
  let interrupted := (s.loaded.filter (·.isRunning)).map (·.id)
  let s := s.setStore (s.loaded.map (·.setRunning none))
  { s.persistIf (!interrupted.isEmpty) with starts := s.starts ++ [.planning interrupted] }

/-- The missed jobs in the order of their slots. -/
def missedJobs (deps : CronDeps D) (skipJobIds : List String) (nowMs : Int)
    (jobs : List (CronJob D)) : List (CronJob D) :=
  let slot (job : CronJob D) := job.state.nextRunAtMs.getD (.ofInt 0)
  (collectRunnableJobs deps.toScheduleEnv nowMs skipJobIds true jobs).insertionSort
    fun a b => (slot b).lt (slot a) = false

/-- `planStartupCatchup` -/
def planStartupCatchup (deps : CronDeps D) (skipJobIds : List String) (nowMs : Int)
    (s : CronService D) : CronService D :=
  let s := s.load
  let missed := (missedJobs deps skipJobIds nowMs s.loaded).map (·.id)
  if missed.isEmpty then { s with starts := s.starts ++ [.finishing] }
  else
    let maxImmediate :=
      (deps.maxMissedJobsPerRestart.getD DEFAULT_MAX_MISSED_JOBS_PER_RESTART).toNat
    let candidates := missed.take maxImmediate
    { (s.setStore (reserveJobs candidates nowMs s.loaded)).persist with
      batches := s.batches ++
        [⟨.catchup (missed.drop maxImmediate), candidates.map (⟨·, .waiting⟩)⟩] }

/-- The last section of `start`. -/
def startFinish (deps : CronDeps D) (nowMs : Int) (s : CronService D) : CronService D :=
  let s := s.load
  let (jobs, changed) := recomputeNextRuns deps.toScheduleEnv nowMs s.loaded
  ((s.setStore jobs).persistIf changed).armTimer deps

-- ---
-- Executing runs
-- ---

/-- How many of its runs an owner executes at a time. -/
def concurrency (deps : CronDeps D) : RunOwner → Nat
  | .tick _ => resolveRunConcurrency deps
  | .catchup _ | .manual _ => 1

/-- The first entry that waits starts. -/
def startFirst (nowMs : Int) : List RunEntry → Option (String × List RunEntry)
  | [] => none
  | entry :: entries =>
    if entry.phase = .waiting then some (entry.id, { entry with phase := .executing nowMs } :: entries)
    else (startFirst nowMs entries).map fun (id, entries) => (id, entry :: entries)

/-- A tick refreshes the marker of the job object it holds, which is the one in
the store unless the store was loaded again. -/
def startRun (deps : CronDeps D) (i : Nat) (nowMs : Int) (s : CronService D) :
    Option (CronService D) :=
  match s.batches[i]? with
  | none => none
  | some batch =>
    if concurrency deps batch.owner ≤ (batch.entries.filter RunEntry.isExecuting).length then none
    else (startFirst nowMs batch.entries).map fun (id, entries) =>
      let s := { s with batches := s.batches.set i { batch with entries } }
      match batch.owner with
      | .tick generation =>
        if generation = s.generation then
          s.setStore (updateJob id (·.setRunning (some (.ofInt nowMs))) s.loaded)
        else s
      | .catchup _ | .manual _ => s

/-- The run of a job in a batch ends. -/
def finishEntry (id : String) (status : CronRunStatus) (error : Option String) (nowMs : Int)
    (entry : RunEntry) : RunEntry :=
  match entry.phase with
  | .executing startedAt =>
    if entry.id = id then { entry with phase := .done ⟨status, error, startedAt, nowMs⟩ } else entry
  | .waiting | .done _ => entry

def finishRun (i : Nat) (id : String) (status : CronRunStatus) (error : Option String)
    (nowMs : Int) (s : CronService D) : Option (CronService D) :=
  (s.batches[i]?).map fun batch =>
    { s with batches := s.batches.set i { batch with
        entries := batch.entries.map (finishEntry id status error nowMs) } }

-- ---
-- Applying outcomes
-- ---

def applyResults (deps : CronDeps D) (preserveSchedule : Bool) (results : List (String × RunResult))
    (jobs : List (CronJob D)) : List (CronJob D) :=
  results.foldl (fun jobs r => applyToStore deps preserveSchedule r.1 r.2 jobs) jobs

def applyTick (deps : CronDeps D) (results : List (String × RunResult)) (nowMs : Int)
    (s : CronService D) : CronService D :=
  let s := s.reload
  let s := s.setStore (applyResults deps false results s.loaded)
  { (s.maintain deps false nowMs).1.persist with tick := .ending }

/-- The deferred jobs get slots one after another. -/
def deferJobs (baseMs staggerMs : Int) : List String → Int → List (CronJob D) → List (CronJob D)
  | [], _, jobs => jobs
  | id :: ids, offset, jobs =>
    if (jobs.find? (·.id = id)).any (·.enabled) then
      deferJobs baseMs staggerMs ids (offset + staggerMs)
        (updateJob id (·.setNextRun (some (.ofInt (baseMs + offset)))) jobs)
    else deferJobs baseMs staggerMs ids offset jobs

def applyCatchup (deps : CronDeps D) (deferred : List String) (results : List (String × RunResult))
    (baseMs nowMs : Int) (s : CronService D) : CronService D :=
  let staggerMs := max 0 (deps.missedJobStaggerMs.getD DEFAULT_MISSED_JOB_STAGGER_MS)
  let s := s.load
  let jobs := applyResults deps false results s.loaded
  let s := s.setStore (deferJobs baseMs staggerMs deferred staggerMs jobs)
  { (s.maintain deps false nowMs).1.persist with starts := s.starts ++ [.finishing] }

/-- The outcome goes to the job in memory, and from there to the job that is
loaded again. -/
def mergeManualRunSnapshotAfterReload (snapshot job : CronJob D) : CronJob D :=
  { job with enabled := snapshot.enabled, updatedAtMs := snapshot.updatedAtMs, state := snapshot.state }

def applyManual (deps : CronDeps D) (forced : Bool) (id : String) (result : RunResult) (nowMs : Int)
    (s : CronService D) : CronService D :=
  let s := s.load
  match s.loaded.find? (·.id = id) with
  | none => s
  | some job =>
    let (job, shouldDelete) := applyJobResult deps forced result job
    let s := s.reload
    let jobs :=
      if shouldDelete then s.loaded.filter (·.id ≠ id)
      else updateJob id (mergeManualRunSnapshotAfterReload job) s.loaded
    (((s.setStore jobs).maintain deps true nowMs).1.persist).armTimer deps

/-- The batch leaves the list when its outcomes are applied. -/
def applyBatch (deps : CronDeps D) (i : Nat) (baseMs nowMs : Int) (s : CronService D) :
    Option (CronService D) :=
  match s.batches[i]? with
  | none => none
  | some batch =>
    batch.results?.map fun results =>
      let s := { s with batches := s.batches.eraseIdx i }
      match batch.owner, results with
      | .tick _, results => s.applyTick deps results nowMs
      | .catchup deferred, results => s.applyCatchup deps deferred results baseMs nowMs
      | .manual forced, (id, result) :: _ => s.applyManual deps forced id result nowMs
      | .manual _, [] => s

end CronService

-- ---
-- Steps
-- ---

/-- The clock readings of a step are part of its label. -/
inductive CronStep (D : Type) where
  | read (now : Int)
  | add (id : String) (input : CronJobCreate D) (loadMs createMs walkMs : Int)
  | update (id : String) (patch : CronJobPatch D) (now : Int)
  | remove (id : String) (loadMs : Int)
  | stop
  | inspect (id : String) (forced : Bool) (walkMs now : Int)
  | preflight (id : String) (forced : Bool) (walkMs now : Int)
  | reserve (i : Nat)
  | fire
  | onTimer (checkMs markMs : Int)
  | endTick
  | startBegin
  | startPlan (i : Nat) (now : Int)
  | startFinish (i : Nat) (now : Int)
  | startRun (i : Nat) (now : Int)
  | finishRun (i : Nat) (id : String) (status : CronRunStatus) (error : Option String) (now : Int)
  | applyBatch (i : Nat) (baseMs now : Int)

namespace CronService

variable {D : Type}

/-- The ids of the runs that were reserved and whose outcomes are not applied. -/
def held (s : CronService D) : List String :=
  s.batches.flatMap RunBatch.ids

/-- A random id is new. -/
def isFresh (s : CronService D) (id : String) : Bool :=
  !(s.loaded ++ s.file).any (·.id = id) && !s.held.contains id

def step (deps : CronDeps D) (s : CronService D) : CronStep D → Option (CronService D)
  | .read now => some (s.read deps now)
  | .add id input loadMs createMs walkMs =>
    if s.isFresh id then some (s.add deps id input loadMs createMs walkMs) else none
  | .update id patch now => some (s.update deps id patch now)
  | .remove id loadMs => some (s.remove deps id loadMs)
  | .stop => some s.stop
  | .inspect id forced walkMs now => some (s.inspectManualRunPreflight deps id forced walkMs now).1
  | .preflight id forced walkMs now => some (s.preflight deps id forced walkMs now)
  | .reserve i =>
    (s.preflights[i]?).map fun p => { s with preflights := s.preflights.eraseIdx i }.reserve p
  | .fire => if s.timer then some s.fire else none
  | .onTimer checkMs markMs =>
    if s.tick = .waiting then some (s.onTimer deps checkMs markMs) else none
  | .endTick => if s.tick = .ending then some (s.endTick deps) else none
  | .startBegin => if deps.cronEnabled then some s.startBegin else none
  | .startPlan i now =>
    match s.starts[i]? with
    | some (.planning skipJobIds) =>
      some ({ s with starts := s.starts.eraseIdx i }.planStartupCatchup deps skipJobIds now)
    | _ => none
  | .startFinish i now =>
    match s.starts[i]? with
    | some .finishing => some ({ s with starts := s.starts.eraseIdx i }.startFinish deps now)
    | _ => none
  | .startRun i now => s.startRun deps i now
  | .finishRun i id status error now => s.finishRun i id status error now
  | .applyBatch i baseMs now => s.applyBatch deps i baseMs now

/-- The service whose runs start in a state of `init`. -/
def system (deps : CronDeps D) (init : CronService D → Prop) :
    Transition.System (CronService D) (CronStep D) where
  init := init
  step := step deps

end CronService

-- ---
-- A small service
-- ---

/-- A service for examples: no cron expressions, no dates, no retries set. -/
def plainDeps : CronDeps Unit where
  nextRun _ _ _ := .ok none
  previousRun _ _ _ := .ok none
  localTimezone := "UTC"
  dateParse _ := .nan
  digestHead _ := 0
  cronEnabled := true
  maxConcurrentRuns := none
  maxMissedJobsPerRestart := none
  missedJobStaggerMs := none
  retry := ⟨none, [], []⟩
  check := .ok

/-- A service that was just set up over a file. -/
def bootService (file : List (CronJob Unit)) : CronService Unit where
  store := none
  generation := 0
  file
  tick := .idle
  timer := true
  batches := []
  preflights := []
  starts := []
  maintained := []

def plainState : CronJobState where
  nextRunAtMs := none
  runningAtMs := none
  lastRunAtMs := none
  lastStatus := none
  lastError := none
  consecutiveErrors := none
  scheduleErrorCount := none

def plainJob (id : String) (schedule : CronSchedule) (state : CronJobState) : CronJob Unit where
  id
  enabled := true
  deleteAfterRun := none
  createdAtMs := some (.ofInt 0)
  updatedAtMs := 0
  schedule
  state
  details := ()

end OpenClaw.Cron
