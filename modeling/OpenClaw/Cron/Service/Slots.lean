import OpenClaw.Cron.Service.Laws

/-!
# Due slots

The walk for maintenance keeps the slot of an enabled job until it was
executed. The full walk, which `add` and `start` make, advances a slot that is
due, whether or not it was executed.
-/

namespace OpenClaw.Cron

open Js

variable {D : Type} {env : ScheduleEnv} {job : CronJob D} {slot : Rat} {nowMs : Int}

theorem CronJob.nextRun_of_slot (h : job.slot? = some slot) :
    job.state.nextRunAtMs = some (.fin slot) := by
  simp only [CronJob.slot?, Option.bind_eq_some_iff] at h
  obtain ⟨n, hn, hfinite⟩ := h
  cases n <;> cases hfinite
  exact hn

-- ---
-- What a walk does to a job
-- ---

/-- The schedule with its anchor made explicit. -/
def anchoredSchedule (job : CronJob D) (nowMs : Int) : CronSchedule :=
  match job.schedule with
  | .every everyMs anchorMs =>
    .every everyMs (some (.num (.ofInt (resolveEveryAnchorMs anchorMs (fallbackAnchorMs job nowMs)))))
  | .at time atMs => .at time atMs
  | .cron expr legacyExpr tz staggerMs => .cron expr legacyExpr tz staggerMs

theorem anchoredSchedule_at (h : job.schedule = .at time atMs) :
    anchoredSchedule job nowMs = .at time atMs := by simp [anchoredSchedule, h]

theorem anchoredSchedule_every (h : job.schedule = .every everyMs anchorMs) :
    anchoredSchedule job nowMs = .every everyMs
      (some (.num (.ofInt (resolveEveryAnchorMs anchorMs (fallbackAnchorMs job nowMs))))) := by
  simp [anchoredSchedule, h]

theorem anchoredSchedule_cron (h : job.schedule = .cron expr legacyExpr tz staggerMs) :
    anchoredSchedule job nowMs = .cron expr legacyExpr tz staggerMs := by
  simp [anchoredSchedule, h]

theorem normalizeAnchor_fst (job : CronJob D) (nowMs : Int) :
    (normalizeAnchor job nowMs).1 = { job with schedule := anchoredSchedule job nowMs } := by
  obtain ⟨id, enabled, deleteAfterRun, createdAtMs, updatedAtMs, schedule, state, details⟩ := job
  cases schedule with
  | every everyMs anchorMs =>
    simp only [normalizeAnchor, anchoredSchedule]
    split
    · split
      · rename_i n heq
        rw [← heq]
      · rfl
    · rfl
  | «at» time atMs => rfl
  | cron expr legacyExpr tz staggerMs => rfl

/-- The job as a walk finds it: its anchor explicit, no next run that is not
finite, no stuck marker, and when it is disabled neither of the two. -/
def settledJob (nowMs : Int) (job : CronJob D) : CronJob D :=
  { job with
    schedule := anchoredSchedule job nowMs
    state := { job.state with
      nextRunAtMs := if job.enabled then job.slot?.map .fin else none
      runningAtMs :=
        if job.enabled && !isStuck job nowMs then job.state.runningAtMs else none } }

theorem settledJob_slot? (henabled : job.enabled = true) :
    (settledJob nowMs job).slot? = job.slot? := by
  simp only [CronJob.slot?, settledJob, henabled, if_true]
  cases job.state.nextRunAtMs.bind Number.finite? <;> rfl

theorem normalizeJobTickState_eq (job : CronJob D) (nowMs : Int) :
    (normalizeJobTickState job nowMs).job = settledJob nowMs job ∧
      (normalizeJobTickState job nowMs).skip = !job.enabled := by
  have hstuck : isStuck (normalizeAnchor job nowMs).1 nowMs = isStuck job nowMs := by
    rw [normalizeAnchor_fst]
    rfl
  have hslot : (normalizeAnchor job nowMs).1.slot? = job.slot? := by
    rw [normalizeAnchor_fst]
    rfl
  simp only [normalizeJobTickState, hstuck, hslot]
  rw [normalizeAnchor_fst]
  cases henabled : job.enabled with
  | false => simp [settledJob, henabled, CronJob.setNextRun, CronJob.setRunning, CronJob.setState]
  | true =>
    cases hmarker : isStuck job nowMs <;>
      obtain ⟨id, enabled, deleteAfterRun, createdAtMs, updatedAtMs, schedule, state, details⟩ := job <;>
      obtain ⟨next, running, last, status, error, errors, scheduleErrors⟩ := state <;>
      obtain _ | _ | _ | _ | _ := next <;>
      simp_all [settledJob, CronJob.slot?, Number.finite?, CronJob.setNextRun, CronJob.setRunning,
        CronJob.setState]

theorem walkJob_fst (fn : CronJob D → CronJob D × Bool) (nowMs : Int) (job : CronJob D) :
    (walkJob fn nowMs job).1 =
      if job.enabled then (fn (settledJob nowMs job)).1 else settledJob nowMs job := by
  obtain ⟨hjob, hskip⟩ := normalizeJobTickState_eq job nowMs
  cases henabled : job.enabled <;> simp [walkJob, hjob, hskip, henabled]

-- ---
-- Maintenance
-- ---

/-- Maintenance changes the slot of an enabled job only on request, when it is
past due, was executed, and no marker that is not stuck says that it runs. -/
theorem maintainJob_slot (recomputeExpired : Bool) (henabled : job.enabled = true)
    (hslot : job.slot? = some slot) :
    (walkJob (maintainJob env recomputeExpired nowMs) nowMs job).1.state.nextRunAtMs =
        job.state.nextRunAtMs ∨
      recomputeExpired = true ∧ slot ≤ nowMs ∧
        (job.isRunning = false ∨ isStuck job nowMs = true) ∧
        ∃ last, job.lastRun? = some last ∧ slot ≤ last := by
  rw [walkJob_fst, if_pos henabled]
  have hnext : (settledJob nowMs job).state.nextRunAtMs = job.state.nextRunAtMs := by
    simp [settledJob, henabled, hslot, CronJob.nextRun_of_slot hslot]
  have hrunning : (settledJob nowMs job).isRunning = false →
      job.isRunning = false ∨ isStuck job nowMs = true := by
    cases hstuck : isStuck job nowMs with
    | true => exact fun _ => .inr rfl
    | false => simp [CronJob.isRunning, settledJob, henabled, hstuck]
  simp only [maintainJob, (settledJob_slot? henabled).trans hslot]
  split
  · rename_i hadvance
    simp only [Bool.and_eq_true, decide_eq_true_eq, Bool.not_eq_true', Option.any_eq_true] at hadvance
    obtain ⟨⟨⟨hexpired, hdue⟩, hidle⟩, last, hlast, hexecuted⟩ := hadvance
    exact .inr ⟨hexpired, hdue, hrunning hidle, last, hlast, by simpa using hexecuted⟩
  · exact .inl hnext

/-- Every walk for maintenance on record was made by the code. -/
theorem CronService.maintained_walkCall {deps : CronDeps D} {s : CronService D}
    (h : (CronService.system deps fun s => s.maintained = []).Reachable s) :
    ∀ call ∈ s.maintained,
      call = CronService.walkCall deps call.recomputeExpired call.nowMs call.before := by
  refine Transition.System.Reachable.invariant (I := fun s => ∀ call ∈ s.maintained,
    call = CronService.walkCall deps call.recomputeExpired call.nowMs call.before) ?_ ?_ h
  · intro s hinit call hcall
    rw [show s.maintained = [] from hinit] at hcall
    cases hcall
  · intro s a s' ih hstep call hcall
    obtain hsame | ⟨recomputeExpired, nowMs, jobs, hmade⟩ := CronService.step_walked hstep
    · exact ih call (hsame ▸ hcall)
    · rw [hmade] at hcall
      cases hcall with
      | head => rfl
      | tail _ hcall => exact ih call hcall

/-- In every run, the walk for maintenance leaves the slot of an enabled job
as it was, unless the walk may recompute expired slots, and the slot is past
due, was executed, and the job is not running: it has no marker, or one that is
stuck, which the same walk clears. -/
theorem CronService.maintenance_keeps_slots {deps : CronDeps D} {s : CronService D}
    {call : MaintenanceCall D} {k : Nat} {job job' : CronJob D} {slot : Rat}
    (h : (CronService.system deps fun s => s.maintained = []).Reachable s)
    (hcall : call ∈ s.maintained) (hbefore : call.before[k]? = some job)
    (hafter : call.after[k]? = some job')
    (henabled : job.enabled = true) (hslot : job.slot? = some slot) :
    job'.state.nextRunAtMs = job.state.nextRunAtMs ∨
      call.recomputeExpired = true ∧ slot ≤ call.nowMs ∧
        (job.isRunning = false ∨ isStuck job call.nowMs = true) ∧
        ∃ last, job.lastRun? = some last ∧ slot ≤ last := by
  have hwalk : call.after =
      call.before.map fun job =>
        (walkJob (maintainJob deps.toScheduleEnv call.recomputeExpired call.nowMs) call.nowMs job).1 :=
    congrArg MaintenanceCall.after (CronService.maintained_walkCall h call hcall)
  rw [hwalk, List.getElem?_map, hbefore] at hafter
  cases hafter
  exact maintainJob_slot call.recomputeExpired henabled hslot

-- ---
-- A stuck marker
-- ---

/-- Each ten milliseconds, executed at 0, and marked as running ever since. -/
def stuckJob : CronJob Unit :=
  plainJob "job" (.every (some (.num (.ofInt 10))) (some (.num (.ofInt 0))))
    { plainState with
      nextRunAtMs := some (.ofInt 0), lastRunAtMs := some (.ofInt 0), runningAtMs := some (.ofInt 0) }

def stuckMs : Int := STUCK_RUN_MS + 1

def stuckTick : CronService Unit :=
  (bootService [stuckJob]).fire.onTimer plainDeps stuckMs stuckMs

/-- The due job has a marker, so that the tick makes the walk, which clears it. -/
theorem stuckTick_maintained :
    stuckTick.maintained = [CronService.walkCall plainDeps true stuckMs [stuckJob]] := by
  have hdue : collectRunnableJobs plainDeps.toScheduleEnv stuckMs [] false [stuckJob] = [] :=
    List.filter_eq_nil_iff.mpr fun job hjob => by
      rw [List.mem_singleton.mp hjob]
      decide
  simp only [stuckTick, CronService.onTimer]
  rw [show (bootService [stuckJob]).fire.reload.loaded = [stuckJob] from rfl, hdue]
  exact CronService.maintained_persistIf

theorem stuckTick_reachable :
    (CronService.system plainDeps fun s => s.maintained = []).Reachable stuckTick :=
  .step (a := .onTimer stuckMs stuckMs)
    (.step (a := .fire) (.init (s := bootService [stuckJob]) rfl) rfl) rfl

theorem CronService.maintenance_keeps_slots_stuckTick :
    (walkJob (maintainJob plainDeps.toScheduleEnv true stuckMs) stuckMs stuckJob).1.state.nextRunAtMs =
        stuckJob.state.nextRunAtMs ∨
      true = true ∧ (0 : Rat) ≤ stuckMs ∧
        (stuckJob.isRunning = false ∨ isStuck stuckJob stuckMs = true) ∧
        ∃ last, stuckJob.lastRun? = some last ∧ 0 ≤ last :=
  CronService.maintenance_keeps_slots (k := 0) stuckTick_reachable
    (show CronService.walkCall plainDeps true stuckMs [stuckJob] ∈ stuckTick.maintained by
      simp [stuckTick_maintained]) rfl rfl rfl rfl

/-- The walk changes the slot of a job that has a marker. -/
theorem CronService.not_maintenance_keeps_slots :
    ¬ ∀ (s : CronService Unit) (call : MaintenanceCall Unit) (k : Nat) (job job' : CronJob Unit)
      (slot : Rat), (CronService.system plainDeps fun s => s.maintained = []).Reachable s →
      call ∈ s.maintained → call.before[k]? = some job → call.after[k]? = some job' →
      job.enabled = true → job.slot? = some slot →
      job'.state.nextRunAtMs = job.state.nextRunAtMs ∨
        call.recomputeExpired = true ∧ slot ≤ call.nowMs ∧ job.isRunning = false ∧
          ∃ last, job.lastRun? = some last ∧ slot ≤ last := by
  intro h
  obtain hsame | ⟨-, -, hidle, -⟩ := h stuckTick (CronService.walkCall plainDeps true stuckMs [stuckJob])
    0 stuckJob _ 0 stuckTick_reachable (by simp [stuckTick_maintained]) rfl rfl rfl rfl
  · revert hsame
    decide +kernel
  · cases hidle

end OpenClaw.Cron
