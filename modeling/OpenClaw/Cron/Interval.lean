import OpenClaw.Cron.Service.Ops
import Mathlib.Order.Bounds.Defs
import Mathlib.Tactic.Ring

/-!
# Interval schedules

The next run of an interval job is to be the next point of its grid. It is that unless it is
due right now: a point of the grid after the anchor is then taken for its own successor.
-/

namespace OpenClaw.Cron

open Js

variable {D : Type} {env : ScheduleEnv} {everyMs anchorMs nowMs : Int}

/-- The points of the grid that are later than now. -/
def gridAfter (everyMs anchorMs nowMs : Int) : Set Int :=
  {t | ∃ k : Nat, t = anchorMs + k * everyMs ∧ nowMs < t}

/-- The steps from the anchor to the next point. -/
theorem exists_nextGridPoint (anchorMs nowMs : Int) (hevery : 0 < everyMs) :
    ∃ k : Nat, nextGridPoint everyMs anchorMs nowMs = anchorMs + k * everyMs ∧
      (0 < k → anchorMs + (k - 1) * everyMs ≤ nowMs) := by
  unfold nextGridPoint
  split
  · exact ⟨0, by simp, fun hpos => absurd hpos (Nat.lt_irrefl 0)⟩
  · rename_i hlate
    have hone : 0 ≤ max 1 ((nowMs - anchorMs + everyMs - 1) / everyMs) :=
      le_trans (by decide) (le_max_left _ _)
    obtain ⟨k, hk⟩ := Int.eq_ofNat_of_zero_le hone
    refine ⟨k, by rw [hk], fun _ => ?_⟩
    rw [← hk]
    rcases max_choice 1 ((nowMs - anchorMs + everyMs - 1) / everyMs) with hone | hquot
    · rw [hone]
      omega
    · rw [hquot]
      have hle := Int.ediv_mul_le (nowMs - anchorMs + everyMs - 1) hevery.ne'
      rw [Int.sub_mul]
      omega

/-- Off the grid, and before its second point, the next point is the least that is later. -/
theorem nextGridPoint_isLeast (hevery : 0 < everyMs)
    (hoff : ¬ (anchorMs + everyMs ≤ nowMs ∧ everyMs ∣ nowMs - anchorMs)) :
    IsLeast (gridAfter everyMs anchorMs nowMs) (nextGridPoint everyMs anchorMs nowMs) := by
  obtain ⟨k, hk, hprevious⟩ := exists_nextGridPoint anchorMs nowMs hevery
  have hlater : nowMs < nextGridPoint everyMs anchorMs nowMs :=
    lt_of_le_of_ne (nextGridPoint_ge hevery) fun heq => hoff ((nextGridPoint_eq_now hevery).1 heq.symm)
  refine ⟨⟨k, hk, hlater⟩, ?_⟩
  rintro t ⟨m, rfl, hm⟩
  rw [hk]
  -- a point before it is one step before it at least, and so not later than now
  by_contra hlt
  have hstep : (m : Int) ≤ k - 1 := by
    by_contra hge
    have := Int.mul_le_mul_of_nonneg_right (show (k : Int) ≤ m by omega) hevery.le
    omega
  have := Int.mul_le_mul_of_nonneg_right hstep hevery.le
  have := hprevious (by omega)
  omega

theorem nextGridPoint_zero_dvd (nowMs : Int) (hevery : 0 < everyMs) :
    everyMs ∣ nextGridPoint everyMs 0 nowMs := by
  obtain ⟨k, hk, -⟩ := exists_nextGridPoint 0 nowMs hevery
  exact ⟨k, by rw [hk]; ring⟩

/-- When the point that is computed is the one that is meant: an anchor before the epoch
is moved there. -/
theorem nextGridPoint_max_iff (hevery : 1 ≤ everyMs) :
    IsLeast (gridAfter everyMs anchorMs nowMs) (nextGridPoint everyMs (max 0 anchorMs) nowMs) ↔
      (0 ≤ anchorMs ∨ everyMs ∣ anchorMs ∧ -everyMs ≤ nowMs) ∧
        ¬ (max 0 anchorMs + everyMs ≤ nowMs ∧ everyMs ∣ nowMs - max 0 anchorMs) := by
  have hpos : 0 < everyMs := hevery
  constructor
  · rintro ⟨⟨k, hk, hlater⟩, hleast⟩
    refine ⟨?_, fun hon => ?_⟩
    · by_contra hnot
      rw [not_or, not_le] at hnot
      obtain ⟨hneg, hnot⟩ := hnot
      rw [max_eq_left hneg.le] at hk hlater hleast
      have hdvd : everyMs ∣ anchorMs := by
        have := nextGridPoint_zero_dvd nowMs hpos
        rw [hk] at this
        exact (Int.dvd_add_left (Dvd.intro_left _ rfl)).1 this
      have hearly : nowMs < -everyMs := not_le.1 fun hle => hnot ⟨hdvd, hle⟩
      -- the point before the epoch is later than now, too
      obtain ⟨m, hm⟩ := hdvd
      have hm0 : m ≤ -1 := by
        by_contra hge
        have := Int.mul_nonneg hpos.le (show 0 ≤ m by omega)
        omega
      have hbefore : -everyMs ∈ gridAfter everyMs anchorMs nowMs := by
        refine ⟨(-1 - m).toNat, ?_, hearly⟩
        rw [Int.toNat_of_nonneg (by omega), hm]
        ring
      have hle := hleast hbefore
      rw [nextGridPoint, if_pos (by omega)] at hle
      omega
    · rw [← nextGridPoint_eq_now hpos] at hon
      omega
  · rintro ⟨hanchor, hoff⟩
    have hleast := nextGridPoint_isLeast hpos hoff
    by_cases hneg : 0 ≤ anchorMs
    · rw [max_eq_right hneg] at hleast ⊢
      exact hleast
    · obtain ⟨⟨m, hm⟩, hnow⟩ := hanchor.resolve_left hneg
      rw [max_eq_left (by omega)] at hleast ⊢
      obtain ⟨⟨k, hk, hlater⟩, hbound⟩ := hleast
      have hm0 : m ≤ 0 := by
        by_contra hge
        have := Int.mul_nonneg hpos.le (show 0 ≤ m by omega)
        omega
      refine ⟨⟨(k - m).toNat, ?_, hlater⟩, ?_⟩
      · rw [hk, Int.toNat_of_nonneg (by omega), hm]
        ring
      · rintro t ⟨j, rfl, hj⟩
        refine hbound ⟨(j + m).toNat, ?_, hj⟩
        have hjm : 0 ≤ (j : Int) + m := by
          by_contra hbefore
          have := Int.mul_le_mul_of_nonneg_right (show (j : Int) + m ≤ -1 by omega) hpos.le
          rw [hm] at hj
          have : everyMs * m + j * everyMs = ((j : Int) + m) * everyMs := by ring
          omega
        rw [Int.toNat_of_nonneg hjm, hm]
        ring

-- ---
-- The two ways to the point
-- ---

/-- `{ kind: "every", everyMs, anchorMs }` -/
def interval (everyMs anchorMs : Int) : CronSchedule :=
  .every (some (.num (.ofInt everyMs))) (some (.num (.ofInt anchorMs)))

theorem coerceFiniteScheduleNumber_ofInt (n : Int) :
    coerceFiniteScheduleNumber (some (.num (.ofInt n))) = some (n : Rat) := rfl

theorem computeNextRunAtMs_interval (hevery : 1 ≤ everyMs) :
    computeNextRunAtMs env (interval everyMs anchorMs) nowMs =
      .ok (some (nextGridPoint everyMs (max 0 anchorMs) nowMs : Int)) := by
  simp only [computeNextRunAtMs, interval, coerceFiniteScheduleNumber_ofInt, Option.map_some,
    Option.getD_some, Rat.floor_intCast, max_eq_right hevery]
  rfl

/-- The anchor is already moved when the schedule is asked, and stays. -/
theorem computeJobNextRunAtMs_interval {job : CronJob D} (hevery : 1 ≤ everyMs)
    (henabled : job.enabled = true) (hschedule : job.schedule = interval everyMs anchorMs)
    (hlast : job.lastRun? = none) :
    computeJobNextRunAtMs env job nowMs =
      .ok (some (nextGridPoint everyMs (max 0 anchorMs) nowMs : Int)) := by
  have hnext : computeNextRunAtMs env (interval everyMs (max 0 anchorMs)) nowMs =
      .ok (some (nextGridPoint everyMs (max 0 anchorMs) nowMs : Int)) := by
    rw [computeNextRunAtMs_interval hevery, max_eq_right (le_max_left _ _)]
  rw [← hnext]
  simp only [computeJobNextRunAtMs, henabled, hschedule, hlast, interval,
    coerceFiniteScheduleNumber_ofInt, resolveEveryAnchorMs, Option.map_none, Option.filter_none,
    Option.getD_some, Rat.floor_intCast, max_eq_right hevery, Bool.not_true, Bool.false_eq_true,
    if_false]

/-- Both give the least point that is later, unless now is itself a point after the anchor. -/
theorem interval_next_iff {job : CronJob D} (hevery : 1 ≤ everyMs) (henabled : job.enabled = true)
    (hschedule : job.schedule = interval everyMs anchorMs) (hlast : job.lastRun? = none) :
    (∃ next : Int, computeNextRunAtMs env (interval everyMs anchorMs) nowMs = .ok (some next) ∧
        computeJobNextRunAtMs env job nowMs = .ok (some next) ∧
        IsLeast (gridAfter everyMs anchorMs nowMs) next) ↔
      (0 ≤ anchorMs ∨ everyMs ∣ anchorMs ∧ -everyMs ≤ nowMs) ∧
        ¬ (max 0 anchorMs + everyMs ≤ nowMs ∧ everyMs ∣ nowMs - max 0 anchorMs) := by
  rw [← nextGridPoint_max_iff hevery, computeNextRunAtMs_interval hevery,
    computeJobNextRunAtMs_interval hevery henabled hschedule hlast]
  constructor
  · rintro ⟨next, hnext, -, hleast⟩
    rw [Except.ok.injEq, Option.some.injEq, Int.cast_inj] at hnext
    rw [hnext]
    exact hleast
  · intro hleast
    exact ⟨_, rfl, rfl, hleast⟩

/-- Each half minute, from the epoch on. -/
def halfMinuteJob : CronJob Unit :=
  plainJob "job" (interval 30000 0) plainState

theorem interval_next_between :
    ∃ next : Int,
      computeNextRunAtMs plainDeps.toScheduleEnv (interval 30000 0) 45000 = .ok (some next) ∧
      computeJobNextRunAtMs plainDeps.toScheduleEnv halfMinuteJob 45000 = .ok (some next) ∧
      IsLeast (gridAfter 30000 0 45000) next :=
  (interval_next_iff (by decide) rfl rfl rfl).2 (by decide)

/-- A minute after the epoch the next run is right then. -/
theorem not_interval_next :
    ¬ ∀ (env : ScheduleEnv) (everyMs anchorMs nowMs : Int) (job : CronJob Unit), 1 ≤ everyMs →
      job.enabled = true → job.schedule = interval everyMs anchorMs → job.lastRun? = none →
      ∃ next : Int, computeNextRunAtMs env (interval everyMs anchorMs) nowMs = .ok (some next) ∧
        computeJobNextRunAtMs env job nowMs = .ok (some next) ∧
        IsLeast (gridAfter everyMs anchorMs nowMs) next := by
  intro hnext
  obtain ⟨next, hcomputed, -, ⟨-, -, hlater⟩, -⟩ :=
    hnext plainDeps.toScheduleEnv 30000 0 60000 halfMinuteJob (by decide) rfl rfl rfl
  rw [computeNextRunAtMs_interval (by decide), Except.ok.injEq, Option.some.injEq,
    Int.cast_inj] at hcomputed
  have hnow : nextGridPoint 30000 (max 0 0) 60000 = 60000 := by decide
  omega

end OpenClaw.Cron
