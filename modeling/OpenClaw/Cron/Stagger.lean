import OpenClaw.Cron.Service.Ops
import OpenClaw.Lib.Successor
import Mathlib.Data.Int.Interval

/-!
# Staggered slots

A cron job runs at the slots of its expression, each later by the offset of the job. The next
run and the previous one are found from a cursor that lies back by the offset, at the first
attempt: the library has an answer for the cursor, and it answers for the shifted slots.
-/

namespace OpenClaw.Cron

open Js Successor

variable {env : ScheduleEnv} {slots : String → Set Int} {resolved : Option String}
  {nowMs offsetMs : Int}

/-- The library knows the slots of an expression, in a time zone. -/
structure Calendar (env : ScheduleEnv) (tz : String) (slots : String → Set Int) (expr : String) :
    Prop where
  next : ∀ t, ∃ next, env.nextRun expr tz t = .ok next ∧ IsNext (slots expr) t next
  previous : ∀ t, ∃ previous, env.previousRun expr tz t = .ok previous ∧
    IsPrevious (slots expr) t previous

/-- An expression that is empty has no slots, and the library is not asked. -/
def slotsOf (slots : String → Set Int) : Option String → Set Int
  | none => ∅
  | some expr => slots expr

-- ---
-- Without an offset
-- ---

theorem nextSlot_isNext (h : Calendar env tz slots expr) :
    ∃ next, nextSlot env expr tz nowMs = .ok next ∧ IsNext (slots expr) nowMs next := by
  obtain ⟨next, hnext, hisNext⟩ := h.next nowMs
  refine ⟨next, ?_, hisNext⟩
  cases next with
  | none => simp only [nextSlot, hnext, bind, Except.bind, pure, Except.pure]
  | some next =>
    have hlater : nowMs < next := hisNext.1.2
    simp only [nextSlot, hnext, bind, Except.bind, pure, Except.pure, if_pos hlater]

theorem computeNextCronRunAtMs_isNext
    (hexpr : resolveCronExpr expr legacyExpr = .ok resolved)
    (hlibrary : ∀ e, resolved = some e → Calendar env (resolveCronTimezone env tz) slots e) :
    ∃ next, computeNextCronRunAtMs env expr legacyExpr tz nowMs = .ok next ∧
      IsNext (slotsOf slots resolved) nowMs next := by
  cases resolved with
  | none =>
    refine ⟨none, ?_, isNext_empty⟩
    simp only [computeNextCronRunAtMs, hexpr, bind, Except.bind, pure, Except.pure]
  | some e =>
    simp only [computeNextCronRunAtMs, hexpr, bind, Except.bind]
    exact nextSlot_isNext (hlibrary e rfl)

theorem computePreviousCronRunAtMs_isPrevious
    (hexpr : resolveCronExpr expr legacyExpr = .ok resolved)
    (hlibrary : ∀ e, resolved = some e → Calendar env (resolveCronTimezone env tz) slots e) :
    ∃ previous, computePreviousCronRunAtMs env expr legacyExpr tz nowMs = .ok previous ∧
      IsPrevious (slotsOf slots resolved) nowMs previous := by
  cases resolved with
  | none =>
    refine ⟨none, ?_, isPrevious_empty⟩
    simp only [computePreviousCronRunAtMs, hexpr, bind, Except.bind, pure, Except.pure]
  | some e =>
    obtain ⟨previous, hprevious, hisPrevious⟩ := (hlibrary e rfl).previous nowMs
    refine ⟨previous, ?_, hisPrevious⟩
    have hkept : previous.filter (· < nowMs) = previous := by
      cases previous with
      | none => rfl
      | some previous =>
        rw [Option.filter_some, if_pos (decide_eq_true hisPrevious.1.2)]
    simp only [computePreviousCronRunAtMs, hexpr, hprevious, hkept, bind,
      Except.bind, pure, Except.pure]

-- ---
-- With an offset
-- ---

/-- The first attempt answers. -/
theorem staggeredNext_isNext {S : Set Int} {next : Int → Except String (Option Int)}
    (h : ∃ base, next (nowMs - offsetMs) = .ok base ∧ IsNext S (nowMs - offsetMs) base)
    (attempts : Nat) :
    ∃ shifted, staggeredNext next offsetMs nowMs (attempts + 1) (nowMs - offsetMs) = .ok shifted ∧
      IsNext (shift offsetMs S) nowMs shifted := by
  obtain ⟨base, hbase, hisNext⟩ := h
  refine ⟨base.map (· + offsetMs), ?_, hisNext.shift⟩
  cases base with
  | none => simp only [staggeredNext, hbase, bind, Except.bind, pure, Except.pure, Option.map_none]
  | some base =>
    have hlater : nowMs < base + offsetMs := sub_lt_iff_lt_add.1 hisNext.1.2
    simp only [staggeredNext, hbase, bind, Except.bind, pure, Except.pure, if_pos hlater,
      Option.map_some]

theorem staggeredPrevious_isPrevious {S : Set Int} {previous : Int → Except String (Option Int)}
    (h : ∃ base, previous (nowMs - offsetMs) = .ok base ∧ IsPrevious S (nowMs - offsetMs) base)
    (attempts : Nat) :
    ∃ shifted,
      staggeredPrevious previous offsetMs nowMs (attempts + 1) (nowMs - offsetMs) = .ok shifted ∧
        IsPrevious (shift offsetMs S) nowMs shifted := by
  obtain ⟨base, hbase, hisPrevious⟩ := h
  refine ⟨base.map (· + offsetMs), ?_, hisPrevious.shift⟩
  cases base with
  | none => simp only [staggeredPrevious, hbase, bind, Except.bind, pure, Except.pure, Option.map_none]
  | some base =>
    have hearlier : base + offsetMs ≤ nowMs := (lt_sub_iff_add_lt.1 hisPrevious.1.2).le
    simp only [staggeredPrevious, hbase, bind, Except.bind, pure, Except.pure, if_pos hearlier,
      Option.map_some]

theorem resolveStableCronOffsetMs_nonneg {jobId : String} {staggerMs : Int} :
    0 ≤ resolveStableCronOffsetMs env jobId staggerMs := by
  unfold resolveStableCronOffsetMs
  split
  · exact le_rfl
  · exact Int.emod_nonneg _ (by omega)

/-- The offset of a job in the window of its schedule. -/
def offsetOf (env : ScheduleEnv) (jobId : String) (expr staggerMs : Option Json) : Int :=
  resolveStableCronOffsetMs env jobId (resolveCronStaggerMs expr staggerMs)

/-- The slots of a job. -/
def staggeredSlots (env : ScheduleEnv) (jobId : String) (expr staggerMs : Option Json)
    (slots : String → Set Int) (resolved : Option String) : Set Int :=
  shift (offsetOf env jobId expr staggerMs) (slotsOf slots resolved)

variable {jobId : String} {expr legacyExpr tz staggerMs : Option Json}

theorem shift_zero {S : Set Int} : shift 0 S = S := by
  ext t
  rw [shift, Set.mem_setOf_eq, sub_zero]

theorem computeStaggeredCronNextRunAtMs_isNext
    (hexpr : resolveCronExpr expr legacyExpr = .ok resolved)
    (hlibrary : ∀ e, resolved = some e → Calendar env (resolveCronTimezone env tz) slots e)
    (hnow : offsetOf env jobId expr staggerMs ≤ nowMs) :
    ∃ next,
      computeStaggeredCronNextRunAtMs env jobId expr legacyExpr tz staggerMs nowMs = .ok next ∧
        IsNext (staggeredSlots env jobId expr staggerMs slots resolved) nowMs next := by
  simp only [computeStaggeredCronNextRunAtMs, staggeredSlots]
  rw [← offsetOf]
  split
  · rename_i hzero
    rw [le_antisymm hzero resolveStableCronOffsetMs_nonneg, shift_zero]
    exact computeNextCronRunAtMs_isNext hexpr hlibrary
  · rw [max_eq_right (sub_nonneg.2 hnow)]
    exact staggeredNext_isNext (computeNextCronRunAtMs_isNext hexpr hlibrary) 3

theorem computeStaggeredCronPreviousRunAtMs_isPrevious
    (hexpr : resolveCronExpr expr legacyExpr = .ok resolved)
    (hlibrary : ∀ e, resolved = some e → Calendar env (resolveCronTimezone env tz) slots e)
    (hnow : offsetOf env jobId expr staggerMs ≤ nowMs) :
    ∃ previous,
      computeStaggeredCronPreviousRunAtMs env jobId expr legacyExpr tz staggerMs nowMs =
          .ok previous ∧
        IsPrevious (staggeredSlots env jobId expr staggerMs slots resolved) nowMs previous := by
  simp only [computeStaggeredCronPreviousRunAtMs, staggeredSlots]
  rw [← offsetOf]
  split
  · rename_i hzero
    rw [le_antisymm hzero resolveStableCronOffsetMs_nonneg, shift_zero]
    exact computePreviousCronRunAtMs_isPrevious hexpr hlibrary
  · rw [max_eq_right (sub_nonneg.2 hnow)]
    exact staggeredPrevious_isPrevious (computePreviousCronRunAtMs_isPrevious hexpr hlibrary) 3

-- ---
-- One run after the other
-- ---

/-- The next run from a start, the next run from that one, and so on. -/
def nthRun (compute : Int → Except String (Option Int)) (startMs : Int) :
    Nat → Except String (Option Int)
  | 0 => compute startMs
  | n + 1 => do
    match ← nthRun compute startMs n with
    | none => pure none
    | some runMs => compute runMs

/-- Where no computation throws, it is the iteration of what they give. -/
theorem nthRun_eq_iterate {compute : Int → Except String (Option Int)} {next : Int → Option Int}
    {S : Set Int} {startMs : Int} (hcompute : ∀ t, startMs ≤ t → compute t = .ok (next t))
    (hnext : Follows S startMs next) (n : Nat) :
    nthRun compute startMs n = .ok (iterate next startMs n) := by
  induction n with
  | zero => exact hcompute startMs le_rfl
  | succ n ih =>
    simp only [nthRun, iterate, ih, bind, Except.bind, pure, Except.pure]
    cases hrun : iterate next startMs n with
    | none => rfl
    | some runMs => exact hcompute runMs (hnext.mem n runMs hrun).2.le

/-- The next and the previous run of a job are the next and the previous of its slots, and
the runs one after the other are all its slots from the start on, each once and in order. -/
theorem staggeredSlots_enumerated (hexpr : resolveCronExpr expr legacyExpr = .ok resolved)
    (hlibrary : ∀ e, resolved = some e → Calendar env (resolveCronTimezone env tz) slots e)
    (hnow : offsetOf env jobId expr staggerMs ≤ nowMs) :
    (∃ next,
      computeStaggeredCronNextRunAtMs env jobId expr legacyExpr tz staggerMs nowMs = .ok next ∧
        IsNext (staggeredSlots env jobId expr staggerMs slots resolved) nowMs next) ∧
    (∃ previous,
      computeStaggeredCronPreviousRunAtMs env jobId expr legacyExpr tz staggerMs nowMs =
          .ok previous ∧
        IsPrevious (staggeredSlots env jobId expr staggerMs slots resolved) nowMs previous) ∧
    (∀ n, ∃ run,
      nthRun (computeStaggeredCronNextRunAtMs env jobId expr legacyExpr tz staggerMs) nowMs n =
          .ok run ∧
        ∀ t, run = some t →
          t ∈ staggeredSlots env jobId expr staggerMs slots resolved ∧ nowMs < t) ∧
    (∀ m n a b, m < n →
      nthRun (computeStaggeredCronNextRunAtMs env jobId expr legacyExpr tz staggerMs) nowMs m =
        .ok (some a) →
      nthRun (computeStaggeredCronNextRunAtMs env jobId expr legacyExpr tz staggerMs) nowMs n =
        .ok (some b) → a < b) ∧
    ∀ t ∈ staggeredSlots env jobId expr staggerMs slots resolved, nowMs < t →
      ∃! n, nthRun (computeStaggeredCronNextRunAtMs env jobId expr legacyExpr tz staggerMs) nowMs n =
        .ok (some t) := by
  have hnext : ∀ t, nowMs ≤ t → ∃ next,
      computeStaggeredCronNextRunAtMs env jobId expr legacyExpr tz staggerMs t = .ok next ∧
        IsNext (staggeredSlots env jobId expr staggerMs slots resolved) t next := fun t ht =>
    computeStaggeredCronNextRunAtMs_isNext hexpr hlibrary (hnow.trans ht)
  choose! next hcompute hisNext using hnext
  have hfollows : Follows (staggeredSlots env jobId expr staggerMs slots resolved) nowMs next :=
    hisNext
  have hrun := nthRun_eq_iterate hcompute hfollows
  refine ⟨⟨_, hcompute nowMs le_rfl, hisNext nowMs le_rfl⟩,
    computeStaggeredCronPreviousRunAtMs_isPrevious hexpr hlibrary hnow,
    fun n => ⟨_, hrun n, hfollows.mem n⟩, ?_, ?_⟩
  · intro m n a b hmn ha hb
    rw [hrun, Except.ok.injEq] at ha hb
    exact hfollows.lt n hmn a b ha hb
  · intro t ht hlater
    obtain ⟨n, hn⟩ := hfollows.exists_iterate ht hlater
    refine ⟨n, (hrun n).trans (congrArg _ hn), ?_⟩
    intro m hm
    exact hfollows.injective (Except.ok.inj ((hrun m).symm.trans hm)) hn

/-- Every full hour is a slot, whatever the expression. -/
def hourlyEnv : ScheduleEnv where
  nextRun _ _ t := .ok (some ((t / 3600000 + 1) * 3600000))
  previousRun _ _ t := .ok (some ((t - 1) / 3600000 * 3600000))
  localTimezone := "UTC"
  dateParse _ := .nan
  digestHead _ := 7

def fullHours (_ : String) : Set Int :=
  {t | 3600000 ∣ t}

theorem calendar_hourlyEnv (tz expr : String) : Calendar hourlyEnv tz fullHours expr where
  next t := by
    refine ⟨_, rfl, ⟨⟨_, Int.mul_comm _ _⟩, by omega⟩, ?_⟩
    rintro s ⟨⟨k, rfl⟩, hlater⟩
    omega
  previous t := by
    refine ⟨_, rfl, ⟨⟨_, Int.mul_comm _ _⟩, by omega⟩, ?_⟩
    rintro s ⟨⟨k, rfl⟩, hearlier⟩
    omega

/-- At the full hour the next run is seven milliseconds later. -/
theorem staggeredSlots_hourly :
    ∃ next,
      computeStaggeredCronNextRunAtMs hourlyEnv "job" (some (.str "0 * * * *")) none none
          (some (.num (.ofInt 60000))) 7200000 = .ok next ∧
        IsNext (staggeredSlots hourlyEnv "job" (some (.str "0 * * * *"))
          (some (.num (.ofInt 60000))) fullHours (some "0 * * * *")) 7200000 next :=
  And.left (staggeredSlots_enumerated (by decide) (fun e _ => calendar_hourlyEnv _ e)
    (by decide))

end OpenClaw.Cron
