import OpenClaw.Cron.Service.Reschedule

/-!
# What an outcome leaves

A job is no longer running after an outcome. A job that is disabled is to have no next run,
and one that is not waits for the backoff of its errors or for the gap between two runs. A
next run is left to a job that is disabled where the retry of a one-shot, or the schedule
that disables its job, does not ask.
-/

namespace OpenClaw.Cron

open Js

variable {D : Type} {deps : CronDeps D} {job job' : CronJob D} {result : RunResult}
  {preserveSchedule : Bool}

def isCron : CronSchedule → Bool
  | .cron _ _ _ _ => true
  | .at _ _ | .every _ _ => false

/-- A next run that is not before a time. -/
def NotBefore (earliest : Int) (next : Number) : Prop :=
  ∃ nextMs : Rat, next = .fin nextMs ∧ (earliest : Rat) ≤ nextMs

/-- What an outcome is to leave of a job with this schedule. -/
structure Settled (schedule : CronSchedule) (result : RunResult) (job : CronJob D) : Prop where
  notRunning : job.state.runningAtMs = none
  disabled : job.enabled = false → job.state.nextRunAtMs = none
  backoff : job.enabled = true → result.status = .error → isAt schedule = false →
    ∃ next ∈ job.state.nextRunAtMs, NotBefore
      (result.endedAt + errorBackoffMs (job.state.consecutiveErrors.getD 0)
        DEFAULT_BACKOFF_SCHEDULE_MS) next
  gap : job.enabled = true → result.status = .ok → isCron schedule = true →
    ∀ next ∈ job.state.nextRunAtMs, NotBefore (result.endedAt + MIN_REFIRE_GAP_MS) next

/-- Where a job that is disabled keeps or is given a next run: a one-shot that is to be
deleted, the retry of a one-shot, and a cron schedule that throws for the third time. -/
inductive LeavesNext (deps : CronDeps D) (result : RunResult) (job : CronJob D) : Prop where
  | deleted (hat : isAt job.schedule = true) (hdelete : job.deleteAfterRun = some true)
      (hok : result.status = .ok) (hdisabled : job.enabled = false)
      (hnext : job.state.nextRunAtMs.isSome = true)
  | retried (hat : isAt job.schedule = true) (hretries : retries deps job result = true)
      (hdisabled : job.enabled = false)
  | thrown (hcron : isCron job.schedule = true) (henabled : job.enabled = true)
      (hthrows : ∃ err, computeJobNextRunAtMs deps.toScheduleEnv job result.endedAt = .error err)
      (hlast : MAX_SCHEDULE_ERRORS ≤ job.state.scheduleErrorCount.getD 0 + 1)

theorem notBefore_spec (next : Option Rat) (earliest : Int) :
    ∃ nextMs ∈ notBefore next earliest, NotBefore earliest nextMs := by
  cases next with
  | none => exact ⟨_, rfl, _, rfl, le_rfl⟩
  | some next => exact ⟨_, rfl, _, rfl, le_max_right _ _⟩

-- ---
-- One-shots
-- ---

theorem not_isCron_of_isAt {schedule : CronSchedule} (hat : isAt schedule = true) :
    isCron schedule = false := by
  cases schedule with
  | «at» => rfl
  | every => rfl
  | cron => cases hat

/-- A one-shot is as it should be unless it is disabled and has a next run. -/
theorem settled_oneShot_iff {schedule : CronSchedule} (hat : isAt schedule = true)
    (hrunning : job.state.runningAtMs = none) :
    Settled schedule result job ↔ (job.enabled = false → job.state.nextRunAtMs = none) := by
  refine ⟨Settled.disabled, fun hdisabled => ⟨hrunning, hdisabled, ?_, ?_⟩⟩
  · intro _ _ hrecurs
    rw [hat] at hrecurs
    cases hrecurs
  · intro _ _ hcron
    rw [not_isCron_of_isAt hat] at hcron
    cases hcron

theorem applyJobResult_deleted (hat : isAt job.schedule = true)
    (hdelete : job.deleteAfterRun = some true) (hok : result.status = .ok) :
    applyJobResult deps preserveSchedule result job = (recordRun job result, true) := by
  simp only [applyJobResult, hat, hdelete, hok, decide_true, Bool.and_self, if_true]

theorem applyJobResult_kept (hat : isAt job.schedule = true)
    (hretries : retries deps job result = false)
    (hkept : ¬ (job.deleteAfterRun = some true ∧ result.status = .ok)) :
    (applyJobResult deps preserveSchedule result job).1 = disableOneShot (recordRun job result) := by
  refine (applyJobResult_ends preserveSchedule hat hretries).resolve_left fun hdeleted => ?_
  have hif : ¬ ((true && job.deleteAfterRun = some true && result.status = .ok) = true) := by
    simpa only [Bool.true_and, Bool.and_eq_true, decide_eq_true_eq] using hkept
  simp only [applyJobResult, hat, if_neg hif, if_true, Bool.false_eq_true] at hdeleted

/-- A one-shot gets a next run while it is disabled only from a retry, and keeps one only
where it is to be deleted. -/
theorem leavesNext_oneShot_iff (hat : isAt job.schedule = true) :
    LeavesNext deps result job ↔ job.enabled = false ∧
      (retries deps job result = true ∨
        job.deleteAfterRun = some true ∧ result.status = .ok ∧ job.state.nextRunAtMs.isSome = true) := by
  constructor
  · rintro (⟨-, hdelete, hok, hdisabled, hnext⟩ | ⟨-, hretries, hdisabled⟩ | ⟨hcron, -⟩)
    · exact ⟨hdisabled, .inr ⟨hdelete, hok, hnext⟩⟩
    · exact ⟨hdisabled, .inl hretries⟩
    · rw [not_isCron_of_isAt hat] at hcron
      cases hcron
  · rintro ⟨hdisabled, hretries | ⟨hdelete, hok, hnext⟩⟩
    · exact .retried hat hretries hdisabled
    · exact .deleted hat hdelete hok hdisabled hnext

theorem settled_oneShot (hat : isAt job.schedule = true) :
    Settled job.schedule result (applyJobResult deps preserveSchedule result job).1 ↔
      ¬ LeavesNext deps result job := by
  rw [leavesNext_oneShot_iff hat, not_and]
  cases hretries : retries deps job result with
  | true =>
    rw [applyJobResult_retries hat hretries, settled_oneShot_iff hat rfl]
    constructor
    · exact fun hnext hdisabled => nomatch hnext hdisabled
    · exact fun hnot hdisabled => absurd (.inl rfl) (hnot hdisabled)
  | false =>
    by_cases hdelete : job.deleteAfterRun = some true ∧ result.status = .ok
    · rw [applyJobResult_deleted hat hdelete.1 hdelete.2, settled_oneShot_iff hat rfl]
      refine forall_congr' fun _ => ?_
      simp only [recordRun, hdelete, Bool.false_eq_true, true_and, false_or, Option.isSome_iff_ne_none,
        ne_eq, not_not]
    · rw [applyJobResult_kept hat hretries hdelete, settled_oneShot_iff hat rfl]
      refine ⟨fun _ _ hor => ?_, fun _ _ => rfl⟩
      rcases hor with hfalse | ⟨hmark, hok, -⟩
      · cases hfalse
      · exact hdelete ⟨hmark, hok⟩

-- ---
-- Recurring jobs
-- ---

/-- The schedule is computed again when the outcome is recorded; what is recorded does not
matter to a cron expression. -/
theorem naturalNext_cron (hcron : isCron job.schedule = true) (prevLastRunAtMs : Option Number) :
    naturalNext env (recordRun job result) prevLastRunAtMs preserveSchedule endedAt =
      computeJobNextRunAtMs env job endedAt := by
  obtain ⟨expr, legacyExpr, tz, staggerMs, hschedule⟩ : ∃ expr legacyExpr tz staggerMs,
      job.schedule = .cron expr legacyExpr tz staggerMs := by
    cases h : job.schedule with
    | «at» => rw [h] at hcron; cases hcron
    | every => rw [h] at hcron; cases hcron
    | cron expr legacyExpr tz staggerMs => exact ⟨_, _, _, _, rfl⟩
  have hran : (recordRun job result).schedule = .cron expr legacyExpr tz staggerMs := hschedule
  cases preserveSchedule <;>
    simp only [naturalNext, hran, computeJobNextRunAtMs, hschedule, recordRun]

/-- An interval never throws. -/
theorem naturalNext_every (job : CronJob D) (hat : isAt job.schedule = false)
    (hcron : isCron job.schedule = false)
    (prevLastRunAtMs : Option Number) :
    ∃ next, naturalNext env job prevLastRunAtMs preserveSchedule endedAt = .ok next := by
  have hnext : ∀ job : CronJob D, isAt job.schedule = false → isCron job.schedule = false →
      ∃ next, computeJobNextRunAtMs env job endedAt = .ok next := by
    intro job hat hcron
    cases hschedule : job.schedule with
    | «at» => rw [hschedule] at hat; cases hat
    | cron => rw [hschedule] at hcron; cases hcron
    | every everyMs anchorMs =>
      simp only [computeJobNextRunAtMs, hschedule, computeNextRunAtMs, pure, Except.pure]
      split
      · exact ⟨_, rfl⟩
      · split
        · exact ⟨_, rfl⟩
        · split
          · exact ⟨_, rfl⟩
          · exact ⟨_, rfl⟩
  unfold naturalNext
  split
  · exact hnext _ hat hcron
  · exact hnext _ hat hcron

/-- The settling of a job that is on, once its next run is computed. -/
def settleNext (job : CronJob D) (next : Option Rat) (result : RunResult) : CronJob D :=
  if result.status = .error then
    job.setNextRun (notBefore next (result.endedAt +
      errorBackoffMs (job.state.consecutiveErrors.getD 1) DEFAULT_BACKOFF_SCHEDULE_MS))
  else match job.schedule with
    | .cron _ _ _ _ => job.setNextRun (notBefore next (result.endedAt + MIN_REFIRE_GAP_MS))
    | .at _ _ | .every _ _ => job.setNextRun (next.map .fin)

theorem settleRecurring_eq (henabled : job.enabled = true) (prevLastRunAtMs : Option Number) :
    settleRecurring env job prevLastRunAtMs preserveSchedule result =
      match naturalNext env job prevLastRunAtMs preserveSchedule result.endedAt with
      | .ok next => settleNext job next result
      | .error err => settleNext (recordScheduleComputeError job err) none result := by
  simp only [settleRecurring, henabled, Bool.not_true, Bool.false_eq_true, if_false]
  cases naturalNext env job prevLastRunAtMs preserveSchedule result.endedAt with
  | ok next => rfl
  | error err => rfl

/-- Only the next run is written. -/
theorem settleNext_eq (job : CronJob D) (next : Option Rat) (result : RunResult) :
    settleNext job next result = job.setNextRun (settleNext job next result).state.nextRunAtMs := by
  unfold settleNext
  split
  · rfl
  · split <;> rfl

theorem settleNext_error (herror : result.status = .error) (next : Option Rat) :
    (settleNext job next result).state.nextRunAtMs = notBefore next (result.endedAt +
      errorBackoffMs (job.state.consecutiveErrors.getD 1) DEFAULT_BACKOFF_SCHEDULE_MS) := by
  rw [settleNext, if_pos herror]
  rfl

theorem settleNext_cron (hcron : isCron job.schedule = true) (hnot : result.status ≠ .error)
    (next : Option Rat) :
    (settleNext job next result).state.nextRunAtMs =
      notBefore next (result.endedAt + MIN_REFIRE_GAP_MS) := by
  rw [settleNext, if_neg hnot]
  split
  · rfl
  · rename_i hschedule
    rw [hschedule] at hcron
    cases hcron
  · rename_i hschedule
    rw [hschedule] at hcron
    cases hcron

/-- It is as it should be, unless the job was disabled meanwhile and has a next run. -/
theorem settled_settleNext_iff (hrunning : job.state.runningAtMs = none)
    (hcounted : result.status = .error → job.state.consecutiveErrors.isSome = true)
    (next : Option Rat) :
    Settled job.schedule result (settleNext job next result) ↔
      (job.enabled = false → (settleNext job next result).state.nextRunAtMs = none) := by
  have henabled : (settleNext job next result).enabled = job.enabled := by
    rw [settleNext_eq]
    rfl
  have herrors :
      (settleNext job next result).state.consecutiveErrors = job.state.consecutiveErrors := by
    rw [settleNext_eq]
    rfl
  constructor
  · exact fun h hdisabled => h.disabled (henabled.trans hdisabled)
  · intro hdisabled
    refine ⟨?_, fun h => hdisabled (henabled.symm.trans h), ?_, ?_⟩
    · rw [settleNext_eq]
      exact hrunning
    · intro _ herror _
      obtain ⟨count, hcount⟩ := Option.isSome_iff_exists.1 (hcounted herror)
      rw [settleNext_error herror, herrors, hcount]
      exact notBefore_spec next _
    · intro _ hok hcron nextMs hmem
      have hnot : result.status ≠ .error := by
        rw [hok]
        exact fun h => nomatch h
      rw [settleNext_cron hcron hnot] at hmem
      obtain ⟨nextMs', hmem', hbefore⟩ := notBefore_spec next (result.endedAt + MIN_REFIRE_GAP_MS)
      rw [Option.mem_unique hmem hmem']
      exact hbefore

/-- A cron job that is on gets a next run. -/
theorem settleNext_cron_ne (hcron : isCron job.schedule = true) (next : Option Rat) :
    (settleNext job next result).state.nextRunAtMs ≠ none := by
  by_cases herror : result.status = .error
  · rw [settleNext_error herror]
    exact fun hnone => nomatch hnone
  · rw [settleNext_cron hcron herror]
    exact fun hnone => nomatch hnone

theorem settled_recurring (hat : isAt job.schedule = false) :
    Settled job.schedule result (applyJobResult deps preserveSchedule result job).1 ↔
      ¬ LeavesNext deps result job := by
  have hcounted : result.status = .error →
      (recordRun job result).state.consecutiveErrors.isSome = true := by
    intro herror
    rw [recordRun, if_pos herror]
    rfl
  have hresult : (applyJobResult deps preserveSchedule result job).1 =
      settleRecurring deps.toScheduleEnv (recordRun job result) job.state.lastRunAtMs
        preserveSchedule result := by
    simp only [applyJobResult, hat, Bool.false_and, Bool.false_eq_true, if_false]
  have hleaves : LeavesNext deps result job ↔ isCron job.schedule = true ∧ job.enabled = true ∧
      (∃ err, computeJobNextRunAtMs deps.toScheduleEnv job result.endedAt = .error err) ∧
      MAX_SCHEDULE_ERRORS ≤ job.state.scheduleErrorCount.getD 0 + 1 := by
    constructor
    · rintro (⟨hone, -⟩ | ⟨hone, -⟩ | ⟨hcron, henabled, hthrows, hlast⟩)
      · rw [hat] at hone
        cases hone
      · rw [hat] at hone
        cases hone
      · exact ⟨hcron, henabled, hthrows, hlast⟩
    · rintro ⟨hcron, henabled, hthrows, hlast⟩
      exact .thrown hcron henabled hthrows hlast
  rw [hresult, hleaves]
  cases henabled : job.enabled with
  | false =>
    have hoff : settleRecurring deps.toScheduleEnv (recordRun job result) job.state.lastRunAtMs
        preserveSchedule result = (recordRun job result).setNextRun none := by
      simp only [settleRecurring, recordRun, henabled, Bool.not_false, if_true]
    rw [hoff]
    refine iff_of_true ⟨rfl, fun _ => rfl, fun hon => ?_, fun hon => ?_⟩ fun h =>
      Bool.false_ne_true h.2.1
    · cases henabled.symm.trans hon
    · cases henabled.symm.trans hon
  | true =>
    have hon : (recordRun job result).enabled = true := henabled
    rw [settleRecurring_eq hon]
    cases hnext : naturalNext deps.toScheduleEnv (recordRun job result) job.state.lastRunAtMs
        preserveSchedule result.endedAt with
    | ok next =>
      refine iff_of_true ((settled_settleNext_iff rfl hcounted next).2 fun hoff => ?_) ?_
      · cases henabled.symm.trans hoff
      · rintro ⟨hcron, -, ⟨err, hthrows⟩, -⟩
        rw [naturalNext_cron hcron, hthrows] at hnext
        cases hnext
    | error err =>
      have hcron : isCron job.schedule = true := by
        by_contra hnot
        obtain ⟨next, hok⟩ := naturalNext_every (recordRun job result) hat
          (Bool.eq_false_iff.2 hnot) job.state.lastRunAtMs
        rw [hok] at hnext
        cases hnext
      rw [naturalNext_cron hcron] at hnext
      have hcron' : isCron (recordScheduleComputeError (recordRun job result) err).schedule = true :=
        hcron
      have hsettled := settled_settleNext_iff
        (show (recordScheduleComputeError (recordRun job result) err).state.runningAtMs = none from rfl)
        hcounted none
      refine hsettled.trans ?_
      -- the third error in a row has switched the job off
      have hswitch : (recordScheduleComputeError (recordRun job result) err).enabled =
          decide (job.state.scheduleErrorCount.getD 0 + 1 < MAX_SCHEDULE_ERRORS) := by
        simp only [recordScheduleComputeError, recordRun, henabled, Bool.true_and]
      rw [hswitch]
      constructor
      · rintro hnone ⟨-, -, -, hlast⟩
        exact settleNext_cron_ne hcron' none (hnone (decide_eq_false (not_lt.2 hlast)))
      · intro hnot hlast
        exact absurd ⟨hcron, rfl, ⟨err, hnext⟩, not_lt.1 (of_decide_eq_false hlast)⟩ hnot

/-- The outcome leaves the job as it should unless it leaves a next run to one that is
disabled. -/
theorem applyJobResult_settled_iff (deps : CronDeps D) (preserveSchedule : Bool) (result : RunResult)
    (job : CronJob D) :
    Settled job.schedule result (applyJobResult deps preserveSchedule result job).1 ↔
      ¬ LeavesNext deps result job := by
  cases hat : isAt job.schedule with
  | true => exact settled_oneShot hat
  | false => exact settled_recurring hat

/-- A library that refuses every expression. -/
def throwingDeps : CronDeps Unit :=
  { plainDeps with nextRun := fun _ _ _ => .error "bad" }

/-- It has failed to find its next run twice. -/
def failingJob : CronJob Unit :=
  plainJob "job" (.cron (some (.str "x")) none none none)
    { plainState with scheduleErrorCount := some 2 }

/-- The third failure disables the job, and leaves it the next run after the backoff. -/
theorem not_applyJobResult_settled :
    ¬ ∀ (deps : CronDeps Unit) (preserveSchedule : Bool) (result : RunResult) (job : CronJob Unit),
      Settled job.schedule result (applyJobResult deps preserveSchedule result job).1 := by
  intro h
  have hsettled := h throwingDeps false ⟨.error, none, 1000, 2000⟩ failingJob
  exact absurd (hsettled.disabled (by decide)) (by decide)

end OpenClaw.Cron
