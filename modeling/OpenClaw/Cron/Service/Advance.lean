import OpenClaw.Cron.Service.Slots

/-!
# The full walk over due slots

The walk that `add` and `start` make computes the next run of a job whose slot
is due again. A slot that was not executed survives it only when the schedule
gives the same time once more.
-/

namespace OpenClaw.Cron

open Js

variable {D : Type} {env : ScheduleEnv} {job : CronJob D} {slot : Rat} {nowMs : Int}

-- ---
-- When the schedule gives the slot again
-- ---

/-- Computing the next run of a job anew gives this slot, which is not in the
future: a one-shot is set for it, or it is the present point of an interval's
grid. A cron expression only gives later times. -/
def SlotStands (env : ScheduleEnv) (job : CronJob D) (slot : Rat) (nowMs : Int) : Prop :=
  match job.schedule with
  | .at time atMs => resolveAtMs env time atMs = some slot
  | .every everyMs anchorMs =>
    ∃ everyMsRaw, coerceFiniteScheduleNumber everyMs = some everyMsRaw ∧
      slot = nowMs ∧
      (∀ last, job.lastRun? = some last → last.floor + max 1 everyMsRaw.floor ≤ nowMs) ∧
      resolveEveryAnchorMs anchorMs (fallbackAnchorMs job nowMs) + max 1 everyMsRaw.floor ≤ nowMs ∧
      max 1 everyMsRaw.floor ∣ nowMs - resolveEveryAnchorMs anchorMs (fallbackAnchorMs job nowMs)
  | .cron _ _ _ _ => False

theorem staggeredNext_gt {next : Int → Except String (Option Int)}
    (h : staggeredNext next offsetMs nowMs attempts cursorMs = .ok (some result)) :
    nowMs < result := by
  induction attempts generalizing cursorMs with
  | zero => cases h
  | succ attempts ih =>
    simp only [staggeredNext, bind, Except.bind, pure, Except.pure] at h
    split at h
    · cases h
    · split at h
      · cases h
      · split at h
        · rename_i hlater
          cases h
          exact hlater
        · exact ih h

theorem computeStaggeredCronNextRunAtMs_gt {jobId : String}
    (h : computeStaggeredCronNextRunAtMs env jobId expr legacyExpr tz staggerMs nowMs =
      .ok (some next)) : nowMs < next := by
  simp only [computeStaggeredCronNextRunAtMs] at h
  split at h
  · exact computeNextCronRunAtMs_gt h
  · exact staggeredNext_gt h

/-- The next run of a cron job is in the future. -/
theorem computeJobNextRunAtMs_cron_gt (hcron : job.schedule = .cron expr legacyExpr tz staggerMs)
    (h : computeJobNextRunAtMs env job nowMs = .ok (some next)) : (nowMs : Rat) < next := by
  simp only [computeJobNextRunAtMs, hcron, bind, Except.bind, pure, Except.pure] at h
  split at h
  · cases h
  · split at h
    · cases h
    · split at h
      · rename_i hnext
        cases h
        exact_mod_cast computeStaggeredCronNextRunAtMs_gt hnext
      · split at h
        · cases h
        · rename_i hnext
          simp only [Except.ok.injEq, Option.map_eq_some_iff] at h
          obtain ⟨later, rfl, rfl⟩ := h
          have hlater := computeStaggeredCronNextRunAtMs_gt hnext
          have : nowMs < later := by omega
          exact_mod_cast this

theorem computeNextRunAtMs_every (everyMs anchorMs : Int) :
    computeNextRunAtMs env (.every (some (.num (.ofInt everyMs))) (some (.num (.ofInt anchorMs))))
      nowMs = .ok (some (nextGridPoint (max 1 everyMs) (max 0 anchorMs) nowMs : Int)) := by
  simp [computeNextRunAtMs, coerceFiniteScheduleNumber, Number.ofInt, Number.finite?, pure,
    Except.pure, Rat.floor_intCast]

theorem resolveEveryAnchorMs_nonneg : 0 ≤ resolveEveryAnchorMs anchorMs fallback := le_max_left _ _

/-- The next run of an enabled interval job. -/
theorem computeJobNextRunAtMs_every (henabled : job.enabled = true)
    (hevery : job.schedule = .every everyMs anchorMs)
    (hraw : coerceFiniteScheduleNumber everyMs = some everyMsRaw) :
    computeJobNextRunAtMs env job nowMs =
      .ok (some (((job.lastRun?.map fun last => last.floor + max 1 everyMsRaw.floor).filter
          (· > nowMs)).getD (nextGridPoint (max 1 everyMsRaw.floor)
            (resolveEveryAnchorMs anchorMs (fallbackAnchorMs job nowMs)) nowMs) : Int)) := by
  simp only [computeJobNextRunAtMs, henabled, hevery, hraw, Bool.not_true, Bool.false_eq_true,
    if_false]
  split
  · rename_i next hnext
    rw [hnext]
    rfl
  · rename_i hnext
    rw [hnext, computeNextRunAtMs_every, max_eq_right (le_max_left 1 everyMsRaw.floor),
      max_eq_right resolveEveryAnchorMs_nonneg]
    rfl

/-- The next run of an interval job is not in the past. -/
theorem computeJobNextRunAtMs_every_ge (hevery : job.schedule = .every everyMs anchorMs)
    (h : computeJobNextRunAtMs env job nowMs = .ok (some next)) : (nowMs : Rat) ≤ next := by
  cases henabled : job.enabled with
  | false =>
    simp only [computeJobNextRunAtMs, henabled] at h
    cases h
  | true =>
    cases hraw : coerceFiniteScheduleNumber everyMs with
    | none =>
      simp only [computeJobNextRunAtMs, henabled, hevery, hraw] at h
      cases h
    | some everyMsRaw =>
      rw [computeJobNextRunAtMs_every henabled hevery hraw] at h
      cases h
      have hgrid : nowMs ≤ nextGridPoint (max 1 everyMsRaw.floor)
          (resolveEveryAnchorMs anchorMs (fallbackAnchorMs job nowMs)) nowMs :=
        nextGridPoint_ge (by omega)
      cases hnext : (job.lastRun?.map fun last => last.floor + max 1 everyMsRaw.floor).filter
          (· > nowMs) with
      | none =>
        simp only [Option.getD_none]
        exact_mod_cast hgrid
      | some next =>
        have := filter_gt hnext
        simp only [Option.getD_some]
        exact_mod_cast this.le

theorem computeJobNextRunAtMs_eq_slot (henabled : job.enabled = true) (hdue : slot ≤ nowMs)
    (hopen : isAt job.schedule = true → job.state.lastStatus = some .ok →
      job.state.lastRunAtMs.all (·.lt (.fin slot)) = true) :
    computeJobNextRunAtMs env job nowMs = .ok (some slot) ↔ SlotStands env job slot nowMs := by
  cases hschedule : job.schedule with
  | «at» time atMs =>
    simp only [SlotStands, computeJobNextRunAtMs, henabled, hschedule, Bool.not_true,
      Bool.false_eq_true, if_false, pure, Except.pure]
    split
    · rename_i last hok hlast
      have hlater := hopen (by rw [hschedule]; rfl) hok
      simp only [(Option.filter_eq_some_iff.mp hlast).1, Option.all_some] at hlater
      simp only [Except.ok.injEq, Option.filter_eq_some_iff]
      exact and_iff_left hlater
    · simp
  | every everyMs anchorMs =>
    cases hraw : coerceFiniteScheduleNumber everyMs with
    | none => simp [SlotStands, computeJobNextRunAtMs, henabled, hschedule, hraw, pure, Except.pure]
    | some everyMsRaw =>
      rw [computeJobNextRunAtMs_every henabled hschedule hraw]
      simp only [SlotStands, hschedule, hraw, Option.some.injEq, exists_eq_left', Except.ok.injEq]
      have hgrid : nowMs ≤ nextGridPoint (max 1 everyMsRaw.floor)
          (resolveEveryAnchorMs anchorMs (fallbackAnchorMs job nowMs)) nowMs :=
        nextGridPoint_ge (by omega)
      cases hnext : (job.lastRun?.map fun last => last.floor + max 1 everyMsRaw.floor).filter
          (· > nowMs) with
      | none =>
        have hlast : ∀ last, job.lastRun? = some last →
            last.floor + max 1 everyMsRaw.floor ≤ nowMs := by
          intro last hlast
          simpa [hlast] using hnext
        have hpoint : nextGridPoint (max 1 everyMsRaw.floor)
            (resolveEveryAnchorMs anchorMs (fallbackAnchorMs job nowMs)) nowMs = nowMs ↔ _ :=
          nextGridPoint_eq_now (show 0 < max 1 everyMsRaw.floor by omega)
        simp only [Option.getD_none]
        constructor
        · intro heq
          have hnow : slot = nowMs := le_antisymm hdue (heq ▸ by exact_mod_cast hgrid)
          rw [hnow] at heq
          exact ⟨hnow, hlast, hpoint.mp (by exact_mod_cast heq)⟩
        · rintro ⟨rfl, -, hpoint'⟩
          rw [hpoint.mpr hpoint']
      | some next =>
        have hlater : (nowMs : Rat) < next := by exact_mod_cast filter_gt hnext
        simp only [Option.getD_some]
        constructor
        · rintro rfl
          exact absurd hlater (not_lt.mpr hdue)
        · rintro ⟨-, hlast, -⟩
          simp only [Option.filter_eq_some_iff, Option.map_eq_some_iff, gt_iff_lt,
            decide_eq_true_eq] at hnext
          obtain ⟨⟨last, hlast', rfl⟩, hgt⟩ := hnext
          exact absurd hgt (not_lt.mpr (hlast last hlast'))
  | cron expr legacyExpr tz staggerMs =>
    simp only [SlotStands, hschedule, iff_false]
    intro h
    exact absurd (computeJobNextRunAtMs_cron_gt hschedule h) (not_lt.mpr hdue)

-- ---
-- One walk
-- ---

/-- What the full walk makes of a job. -/
def fullWalk (env : ScheduleEnv) (nowMs : Int) (job : CronJob D) : CronJob D :=
  (walkJob (fun job =>
    if isDueOrMissing job nowMs then recomputeJobNextRunAtMs env nowMs job else (job, false))
    nowMs job).1

theorem recomputeNextRuns_fst (env : ScheduleEnv) (nowMs : Int) (jobs : List (CronJob D)) :
    (recomputeNextRuns env nowMs jobs).1 = jobs.map (fullWalk env nowMs) := rfl

theorem fullWalk_eq (env : ScheduleEnv) (nowMs : Int) (job : CronJob D) :
    fullWalk env nowMs job =
      if job.enabled && isDueOrMissing (settledJob nowMs job) nowMs then
        (recomputeJobNextRunAtMs env nowMs (settledJob nowMs job)).1
      else settledJob nowMs job := by
  rw [fullWalk, walkJob_fst]
  cases job.enabled <;> cases isDueOrMissing (settledJob nowMs job) nowMs <;> simp

theorem recomputeJobNextRunAtMs_next (env : ScheduleEnv) (nowMs : Int) (job : CronJob D) :
    (recomputeJobNextRunAtMs env nowMs job).1.state.nextRunAtMs =
      match computeJobNextRunAtMs env job nowMs with
      | .ok next => next.map .fin
      | .error _ => none := by
  cases hnext : computeJobNextRunAtMs env job nowMs <;> simp only [recomputeJobNextRunAtMs, hnext] <;>
    rfl

theorem isDueOrMissing_settledJob (henabled : job.enabled = true) (hslot : job.slot? = some slot) :
    isDueOrMissing (settledJob nowMs job) nowMs = decide (slot ≤ nowMs) := by
  simp [isDueOrMissing, settledJob_slot? henabled, hslot]

theorem resolveEveryAnchorMs_ofInt {fallback : Rat} (h : 0 ≤ anchor) :
    resolveEveryAnchorMs (some (.num (.ofInt anchor))) fallback = anchor := by
  simp [resolveEveryAnchorMs, coerceFiniteScheduleNumber, Number.ofInt, Number.finite?, h]

/-- Making the anchor explicit does not matter. -/
theorem slotStands_congr {job' : CronJob D} (hschedule : job'.schedule = anchoredSchedule job nowMs)
    (hlast : job'.lastRun? = job.lastRun?) :
    SlotStands env job' slot nowMs ↔ SlotStands env job slot nowMs := by
  cases hkind : job.schedule with
  | «at» time atMs =>
    rw [anchoredSchedule_at hkind] at hschedule
    simp only [SlotStands, hschedule, hkind]
  | every everyMs anchorMs =>
    rw [anchoredSchedule_every hkind] at hschedule
    simp only [SlotStands, hschedule, hkind, hlast,
      resolveEveryAnchorMs_ofInt resolveEveryAnchorMs_nonneg]
  | cron expr legacyExpr tz staggerMs =>
    rw [anchoredSchedule_cron hkind] at hschedule
    simp only [SlotStands, hschedule, hkind]

theorem isAt_anchored (job : CronJob D) (nowMs : Int) :
    isAt (anchoredSchedule job nowMs) = isAt job.schedule := by
  cases hkind : job.schedule with
  | «at» time atMs => rw [anchoredSchedule_at hkind]
  | every everyMs anchorMs =>
    rw [anchoredSchedule_every hkind]
    rfl
  | cron expr legacyExpr tz staggerMs => rw [anchoredSchedule_cron hkind]

theorem slotStands_settledJob :
    SlotStands env (settledJob nowMs job) slot nowMs ↔ SlotStands env job slot nowMs :=
  slotStands_congr rfl rfl

/-- A slot that is due and was not executed survives the full walk exactly when
the schedule gives it again. -/
theorem fullWalk_keeps (henabled : job.enabled = true) (hslot : job.slot? = some slot)
    (hdue : slot ≤ nowMs)
    (hopen : isAt job.schedule = true → job.state.lastStatus = some .ok →
      job.state.lastRunAtMs.all (·.lt (.fin slot)) = true) :
    (fullWalk env nowMs job).state.nextRunAtMs = some (.fin slot) ↔
      SlotStands env job slot nowMs := by
  have hcompute : computeJobNextRunAtMs env (settledJob nowMs job) nowMs = .ok (some slot) ↔
      SlotStands env (settledJob nowMs job) slot nowMs :=
    computeJobNextRunAtMs_eq_slot henabled hdue (by
      rw [show (settledJob nowMs job).schedule = anchoredSchedule job nowMs from rfl,
        isAt_anchored]
      exact hopen)
  rw [fullWalk_eq, isDueOrMissing_settledJob henabled hslot, henabled, decide_eq_true hdue]
  simp only [Bool.and_self, if_true]
  rw [recomputeJobNextRunAtMs_next, ← slotStands_settledJob, ← hcompute]
  cases computeJobNextRunAtMs env (settledJob nowMs job) nowMs <;> simp

-- ---
-- Two walks
-- ---

/-- A slot that the next walks do not bring back. -/
def Passed (env : ScheduleEnv) (slot : Rat) (job : CronJob D) : Prop :=
  job.state.nextRunAtMs ≠ some (.fin slot) ∧
    match job.schedule with
    | .at time atMs => resolveAtMs env time atMs ≠ some slot
    | .every everyMs _ =>
      coerceFiniteScheduleNumber everyMs = none ∨ ∃ next, job.slot? = some next ∧ slot < next
    | .cron _ _ _ _ => True

theorem fullWalk_schedule :
    (fullWalk env nowMs job).schedule = anchoredSchedule job nowMs := by
  rw [fullWalk_eq]
  split
  · simp only [recomputeJobNextRunAtMs]
    split <;> rfl
  · rfl

theorem computeJobNextRunAtMs_at (hat : job.schedule = .at time atMs)
    (h : computeJobNextRunAtMs env job nowMs = .ok (some slot)) :
    resolveAtMs env time atMs = some slot := by
  simp only [computeJobNextRunAtMs, hat, pure, Except.pure] at h
  split at h
  · cases h
  · split at h
    · exact (Option.filter_eq_some_iff.mp (Except.ok.inj h)).1
    · exact Except.ok.inj h

theorem Passed.compute (hpassed : Passed env slot job) (hdue : slot ≤ nowMs)
    (hmissed : ∀ next, job.slot? = some next → next ≤ nowMs) :
    computeJobNextRunAtMs env (settledJob nowMs job) nowMs ≠ .ok (some slot) := by
  intro hnext
  obtain ⟨-, hpassed⟩ := hpassed
  cases hschedule : job.schedule with
  | «at» time atMs =>
    simp only [hschedule] at hpassed
    have hat : (settledJob nowMs job).schedule = .at time atMs := anchoredSchedule_at hschedule
    exact hpassed (computeJobNextRunAtMs_at hat hnext)
  | every everyMs anchorMs =>
    simp only [hschedule] at hpassed
    have hevery : (settledJob nowMs job).schedule = .every everyMs _ :=
      anchoredSchedule_every hschedule
    obtain hraw | ⟨next, hslot, hlater⟩ := hpassed
    · simp only [computeJobNextRunAtMs, hevery, hraw] at hnext
      split at hnext <;> cases hnext
    · have := computeJobNextRunAtMs_every_ge hevery hnext
      exact absurd (hmissed next hslot) (not_le.mpr (lt_of_le_of_lt this hlater))
  | cron expr legacyExpr tz staggerMs =>
    have hcron : (settledJob nowMs job).schedule = .cron expr legacyExpr tz staggerMs :=
      anchoredSchedule_cron hschedule
    exact absurd hdue (not_le.mpr (computeJobNextRunAtMs_cron_gt hcron hnext))

theorem Passed.fullWalk (hpassed : Passed env slot job) (hdue : slot ≤ nowMs) :
    (fullWalk env nowMs job).state.nextRunAtMs ≠ some (.fin slot) := by
  rw [fullWalk_eq]
  split
  · rename_i hmissing
    simp only [Bool.and_eq_true] at hmissing
    have hmissed : ∀ next, job.slot? = some next → next ≤ nowMs := by
      intro next hslot
      simpa [isDueOrMissing_settledJob hmissing.1 hslot] using hmissing.2
    rw [recomputeJobNextRunAtMs_next]
    intro hnext
    split at hnext
    · rename_i next hcompute
      cases next with
      | none => cases hnext
      | some next =>
        cases hnext
        exact hpassed.compute hdue hmissed hcompute
    · cases hnext
  · simp only [settledJob]
    intro hnext
    split at hnext
    · rw [Option.map_eq_some_iff] at hnext
      obtain ⟨next, hslot, hnext⟩ := hnext
      cases hnext
      exact hpassed.1 (CronJob.nextRun_of_slot hslot)
    · cases hnext

/-- A slot that the schedule does not give again is lost for good. -/
theorem passed_fullWalk (henabled : job.enabled = true) (hslot : job.slot? = some slot)
    (hdue : slot ≤ nowMs) (hopen : job.state.lastRunAtMs.all (·.lt (.fin slot)) = true)
    (hlost : ¬ SlotStands env job slot nowMs) : Passed env slot (fullWalk env nowMs job) := by
  have hnext := (fullWalk_keeps henabled hslot hdue fun _ _ => hopen).not.mpr hlost
  refine ⟨hnext, ?_⟩
  rw [fullWalk_schedule]
  cases hschedule : job.schedule with
  | «at» time atMs =>
    rw [anchoredSchedule_at hschedule]
    simpa only [SlotStands, hschedule] using hlost
  | every everyMs anchorMs =>
    have hevery : (settledJob nowMs job).schedule = .every everyMs _ :=
      anchoredSchedule_every hschedule
    rw [show anchoredSchedule job nowMs = .every everyMs _ from hevery]
    cases hraw : coerceFiniteScheduleNumber everyMs with
    | none => exact .inl hraw
    | some everyMsRaw =>
      refine .inr ?_
      obtain ⟨next, hcompute⟩ : ∃ next : Int,
          computeJobNextRunAtMs env (settledJob nowMs job) nowMs = .ok (some next) :=
        ⟨_, computeJobNextRunAtMs_every henabled hevery hraw⟩
      have hge := computeJobNextRunAtMs_every_ge hevery hcompute
      have hwalk : (fullWalk env nowMs job).state.nextRunAtMs = some (.fin next) := by
        rw [fullWalk_eq, isDueOrMissing_settledJob henabled hslot, henabled, decide_eq_true hdue]
        simp only [Bool.and_self, if_true]
        rw [recomputeJobNextRunAtMs_next, hcompute]
        rfl
      refine ⟨next, by rw [CronJob.slot?, hwalk]; rfl, ?_⟩
      refine lt_of_le_of_ne (hdue.trans hge) ?_
      rintro heq
      exact hnext (by rw [hwalk, ← heq])
  | cron expr legacyExpr tz staggerMs =>
    rw [anchoredSchedule_cron hschedule]
    trivial

@[simp] theorem fullWalk_id : (fullWalk env nowMs job).id = job.id := by
  rw [fullWalk_eq]
  split
  · simp only [recomputeJobNextRunAtMs]
    split <;> rfl
  · rfl

theorem fullWalk_lastRunAtMs :
    (fullWalk env nowMs job).state.lastRunAtMs = job.state.lastRunAtMs := by
  rw [fullWalk_eq]
  split
  · simp only [recomputeJobNextRunAtMs]
    split <;> rfl
  · rfl

theorem fullWalk_enabled (henabled : job.enabled = true)
    (hnext : (fullWalk env nowMs job).state.nextRunAtMs = some next) :
    (fullWalk env nowMs job).enabled = true := by
  rw [fullWalk_eq] at hnext ⊢
  split at hnext
  · rename_i hmissing
    rw [if_pos hmissing]
    simp only [recomputeJobNextRunAtMs] at hnext ⊢
    split at hnext
    · exact henabled
    · cases hnext
  · rename_i hmissing
    rw [if_neg hmissing]
    exact henabled

/-- A slot survives two walks exactly when the schedule gives it again at both. -/
theorem fullWalk_twice_keeps {loadMs : Int} (henabled : job.enabled = true) (hslot : job.slot? = some slot)
    (hload : slot ≤ loadMs) (hwalk : slot ≤ nowMs)
    (hopen : job.state.lastRunAtMs.all (·.lt (.fin slot)) = true) :
    (fullWalk env nowMs (fullWalk env loadMs job)).state.nextRunAtMs = some (.fin slot) ↔
      SlotStands env job slot loadMs ∧ SlotStands env job slot nowMs := by
  by_cases hstands : SlotStands env job slot loadMs
  · have hnext := (fullWalk_keeps henabled hslot hload fun _ _ => hopen).mpr hstands
    rw [fullWalk_keeps (fullWalk_enabled henabled hnext) (by rw [CronJob.slot?, hnext]; rfl) hwalk
      (fun _ _ => by rw [fullWalk_lastRunAtMs]; exact hopen), and_iff_right hstands]
    have hlast : (fullWalk env loadMs job).lastRun? = job.lastRun? := by
      rw [CronJob.lastRun?, fullWalk_lastRunAtMs]
      rfl
    cases hschedule : job.schedule with
    | «at» time atMs =>
      have hat : (fullWalk env loadMs job).schedule = .at time atMs :=
        fullWalk_schedule.trans (anchoredSchedule_at hschedule)
      simp only [SlotStands, hat, hschedule]
    | every everyMs anchorMs =>
      -- both times are the slot
      have hsame : SlotStands env job slot nowMs ∨
          SlotStands env (fullWalk env loadMs job) slot nowMs → nowMs = loadMs := by
        have hevery : (fullWalk env loadMs job).schedule = .every everyMs _ :=
          fullWalk_schedule.trans (anchoredSchedule_every hschedule)
        simp only [SlotStands, hschedule] at hstands
        obtain ⟨-, -, hloaded, -⟩ := hstands
        simp only [SlotStands, hevery, hschedule]
        rintro (⟨-, -, hnow, -⟩ | ⟨-, -, hnow, -⟩) <;>
        · rw [hloaded] at hnow
          exact_mod_cast hnow.symm
      constructor
      · intro h
        obtain rfl := hsame (.inr h)
        exact hstands
      · intro h
        obtain rfl := hsame (.inl h)
        exact (slotStands_congr fullWalk_schedule hlast).mpr h
    | cron expr legacyExpr tz staggerMs => simp [SlotStands, hschedule] at hstands
  · exact iff_of_false ((passed_fullWalk henabled hslot hload hopen hstands).fullWalk hwalk)
      fun h => hstands h.1

-- ---
-- Adding a job and starting
-- ---

namespace CronService

variable {deps : CronDeps D} {s : CronService D} {id : String} {input : CronJobCreate D}

theorem add_loaded
    (hcreate : createJob deps.toScheduleEnv deps.check id createMs input = .ok created) :
    (s.add deps id input loadMs createMs walkMs).loaded =
      (s.ensured deps loadMs ++ [created]).map (fullWalk deps.toScheduleEnv walkMs) := by
  simp only [add, hcreate]
  rw [persist_eq, ensureLoaded_eq]
  rfl

theorem startFinish_loaded :
    (s.startFinish deps nowMs).loaded = s.loaded.map (fullWalk deps.toScheduleEnv nowMs) := by
  simp only [startFinish, persistIf_eq, load_eq]
  rfl

/-- `add` and the last section of `start` keep the slot of an enabled job that
is due and was not executed exactly when the schedule gives the slot again at
every walk they make: `add` walks over the jobs it loads, too. -/
theorem add_start_keep_slot {k : Nat} {job : CronJob D} {slot : Rat}
    (hjob : s.loaded[k]? = some job) (henabled : job.enabled = true)
    (hslot : job.slot? = some slot)
    (hopen : job.state.lastRunAtMs.all (·.lt (.fin slot)) = true) :
    (∀ (id : String) (input : CronJobCreate D) (loadMs createMs walkMs : Int) (created : CronJob D),
      createJob deps.toScheduleEnv deps.check id createMs input = .ok created →
      slot ≤ loadMs → slot ≤ walkMs →
      ∃ job', (s.add deps id input loadMs createMs walkMs).loaded[k]? = some job' ∧
        job'.id = job.id ∧
        (job'.state.nextRunAtMs = job.state.nextRunAtMs ↔
          (s.store = none → SlotStands deps.toScheduleEnv job slot loadMs) ∧
            SlotStands deps.toScheduleEnv job slot walkMs)) ∧
    ∀ nowMs : Int, slot ≤ nowMs →
      ∃ job', (s.startFinish deps nowMs).loaded[k]? = some job' ∧ job'.id = job.id ∧
        (job'.state.nextRunAtMs = job.state.nextRunAtMs ↔
          SlotStands deps.toScheduleEnv job slot nowMs) := by
  rw [CronJob.nextRun_of_slot hslot]
  constructor
  · intro id input loadMs createMs walkMs created hcreate hload hwalk
    rw [add_loaded hcreate]
    have hlength := (List.getElem?_eq_some_iff.mp hjob).1
    cases hstore : s.store with
    | some jobs =>
      rw [loaded_some hstore] at hjob hlength
      refine ⟨fullWalk deps.toScheduleEnv walkMs job, ?_, fullWalk_id, ?_⟩
      · simp only [ensured, hstore]
        rw [List.getElem?_map, List.getElem?_append_left hlength, hjob]
        rfl
      · simpa using fullWalk_keeps henabled hslot hwalk fun _ _ => hopen
    | none =>
      rw [loaded, hstore, Option.getD_none] at hjob hlength
      refine ⟨fullWalk deps.toScheduleEnv walkMs (fullWalk deps.toScheduleEnv loadMs job), ?_,
        fullWalk_id.trans fullWalk_id, ?_⟩
      · simp only [ensured, hstore, recomputeNextRuns_fst]
        rw [List.getElem?_map, List.getElem?_append_left (by simpa using hlength),
          List.getElem?_map, hjob]
        rfl
      · simpa using fullWalk_twice_keeps henabled hslot hload hwalk hopen
  · intro nowMs hdue
    refine ⟨fullWalk deps.toScheduleEnv nowMs job, ?_, fullWalk_id,
      fullWalk_keeps henabled hslot hdue fun _ _ => hopen⟩
    simp [startFinish_loaded, hjob]

end CronService

-- ---
-- A slot that is lost
-- ---

/-- Each ten milliseconds, due at 0, and never executed. -/
def dueJob : CronJob Unit :=
  plainJob "job" (.every (some (.num (.ofInt 10))) (some (.num (.ofInt 0))))
    { plainState with nextRunAtMs := some (.ofInt 0) }

def dueService : CronService Unit :=
  (bootService [dueJob]).setStore [dueJob]

def newInput : CronJobCreate Unit :=
  ⟨none, none, .every (some (.num (.ofInt 10))) none, plainState, ()⟩

theorem CronService.startFinish_keep_slot_dueJob :
    ∃ job', (dueService.startFinish plainDeps 5).loaded[0]? = some job' ∧ job'.id = dueJob.id ∧
      (job'.state.nextRunAtMs = dueJob.state.nextRunAtMs ↔
        SlotStands plainDeps.toScheduleEnv dueJob 0 5) :=
  (CronService.add_start_keep_slot (rfl : dueService.loaded[0]? = some dueJob) rfl
    (rfl : dueJob.slot? = some 0) rfl).2 5 (by decide)

/-- At 5, both `add` and `start` move the slot to 10. -/
theorem CronService.not_add_start_keep_slot :
    (¬ ∀ (s : CronService Unit) (k : Nat) (job : CronJob Unit) (slot : Rat),
      s.loaded[k]? = some job → job.enabled = true → job.isRunning = false →
      job.slot? = some slot → job.state.lastRunAtMs.all (·.lt (.fin slot)) = true →
      ∀ (id : String) (input : CronJobCreate Unit) (nowMs : Int) (created job' : CronJob Unit),
        createJob plainDeps.toScheduleEnv plainDeps.check id nowMs input = .ok created →
        slot ≤ nowMs → (s.add plainDeps id input nowMs nowMs nowMs).loaded[k]? = some job' →
        job'.state.nextRunAtMs = job.state.nextRunAtMs) ∧
    ¬ ∀ (s : CronService Unit) (k : Nat) (job : CronJob Unit) (slot : Rat),
      s.loaded[k]? = some job → job.enabled = true → job.isRunning = false →
      job.slot? = some slot → job.state.lastRunAtMs.all (·.lt (.fin slot)) = true →
      ∀ (nowMs : Int) (job' : CronJob Unit),
        slot ≤ nowMs → (s.startFinish plainDeps nowMs).loaded[k]? = some job' →
        job'.state.nextRunAtMs = job.state.nextRunAtMs := by
  constructor
  · intro h
    have hkept := h dueService 0 dueJob 0 rfl rfl rfl rfl rfl "new" newInput 5 _ _ rfl (by decide) rfl
    revert hkept
    decide
  · intro h
    have hkept := h dueService 0 dueJob 0 rfl rfl rfl rfl rfl 5 _ (by decide) rfl
    revert hkept
    decide

end OpenClaw.Cron
