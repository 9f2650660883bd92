import OpenClaw.Js.Double

/-!
# Cron schedules

A job runs once at a time, every so many milliseconds, or at the slots of a
cron expression. The cron library, `Date.parse`, the local time zone and the
hash that spreads jobs over a stagger window are parameters.
-/

namespace OpenClaw.Cron

open Js

/-- What the schedules take from outside. An invalid date is `none`, like `null`. -/
structure ScheduleEnv where
  /-- `new Cron(expr, { timezone }).nextRun(new Date(ms))` -/
  nextRun : (expr timezone : String) → Int → Except String (Option Int)
  /-- `new Cron(expr, { timezone }).previousRuns(1, new Date(ms))[0]` -/
  previousRun : (expr timezone : String) → Int → Except String (Option Int)
  localTimezone : String
  /-- `Date.parse` -/
  dateParse : String → Number
  /-- the first 32 bits of the SHA-256 digest -/
  digestHead : String → Nat

/-- The stored fields may be of any type, and the legacy fields `atMs` and
`cron` may still be there. `none` is `undefined`. -/
inductive CronSchedule where
  | at (time atMs : Option Json)
  | every (everyMs anchorMs : Option Json)
  | cron (expr legacyExpr tz staggerMs : Option Json)

def isAt : CronSchedule → Bool
  | .at _ _ => true
  | .every _ _ | .cron _ _ _ _ => false

-- ---
-- Times
-- ---

def coerceFiniteScheduleNumber : Option Json → Option Rat
  | some (.num n) => n.finite?
  | some (.str s) => if trim s = "" then none else (toNumber (trim s)).finite?
  | _ => none

def twoDigits : List Char → Bool
  | [a, b] => a.isDigit && b.isDigit
  | _ => false

/-- `/(Z|[+-]\d{2}:?\d{2})$/i` -/
def hasZone (s : List Char) : Bool :=
  match s.reverse with
  | 'Z' :: _ | 'z' :: _ => true
  | a :: b :: ':' :: c :: d :: sign :: _ =>
    twoDigits [a, b] && twoDigits [c, d] && (sign = '+' || sign = '-')
  | a :: b :: c :: d :: sign :: _ =>
    twoDigits [a, b] && twoDigits [c, d] && (sign = '+' || sign = '-')
  | _ => false

/-- What follows `/^\d{4}-\d{2}-\d{2}/`. -/
def afterDate? : List Char → Option (List Char)
  | a :: b :: c :: d :: '-' :: e :: f :: '-' :: g :: h :: rest =>
    if twoDigits [a, b] && twoDigits [c, d] && twoDigits [e, f] && twoDigits [g, h] then some rest
    else none
  | _ => none

def normalizeUtcIso (raw : String) : String :=
  if hasZone raw.toList then raw
  else match afterDate? raw.toList with
    | some [] => raw ++ "T00:00:00Z"
    | some ('T' :: _) => raw ++ "Z"
    | _ => raw

/-- A time that is finite and positive, or `Date.parse` of the text. -/
def parseAbsoluteTimeMs (env : ScheduleEnv) (input : String) : Option Rat :=
  let raw := trim input
  if raw = "" then none
  else match raw.toList.all Char.isDigit, (toNumber raw).finite? with
    | true, some n => if 0 < n then some n.floor else (env.dateParse (normalizeUtcIso raw)).finite?
    | _, _ => (env.dateParse (normalizeUtcIso raw)).finite?

/-- The time of an `at` schedule. -/
def resolveAtMs (env : ScheduleEnv) (time atMs : Option Json) : Option Rat :=
  let fromTime := match time with
    | some (.str s) => parseAbsoluteTimeMs env s
    | _ => none
  match atMs with
  | some (.num (.fin n)) => if 0 < n then some n else fromTime
  | some (.str s) => parseAbsoluteTimeMs env s
  | _ => fromTime

-- ---
-- Cron expressions
-- ---

def resolveCronTimezone (env : ScheduleEnv) (tz : Option Json) : String :=
  match tz with
  | some (.str s) => if trim s = "" then env.localTimezone else trim s
  | _ => env.localTimezone

/-- The trimmed expression, if it is not empty. -/
def resolveCronExpr (expr legacyExpr : Option Json) : Except String (Option String) :=
  match expr, legacyExpr with
  | some (.str s), _ | _, some (.str s) => .ok (if trim s = "" then none else some (trim s))
  | _, _ => .error "invalid cron schedule: expr is required"

/-- The next slot, tried again from the next second and from the next day (UTC)
when the library returns a time that is not in the future. -/
def nextSlot (env : ScheduleEnv) (expr tz : String) (nowMs : Int) : Except String (Option Int) := do
  match ← env.nextRun expr tz nowMs with
  | none => pure none
  | some nextMs =>
    if nextMs > nowMs then pure (some nextMs)
    else
      match (← env.nextRun expr tz (nowMs / 1000 * 1000 + 1000)).filter (· > nowMs) with
      | some retryMs => pure (some retryMs)
      | none =>
        let tomorrowMs := nowMs / 86400000 * 86400000 + 86400000
        pure ((← env.nextRun expr tz tomorrowMs).filter (· > nowMs))

/-- `computeNextRunAtMs` of a cron schedule. -/
def computeNextCronRunAtMs (env : ScheduleEnv) (expr legacyExpr tz : Option Json) (nowMs : Int) :
    Except String (Option Int) := do
  match ← resolveCronExpr expr legacyExpr with
  | none => pure none
  | some expr => nextSlot env expr (resolveCronTimezone env tz) nowMs

/-- `computePreviousRunAtMs` -/
def computePreviousCronRunAtMs (env : ScheduleEnv) (expr legacyExpr tz : Option Json)
    (nowMs : Int) : Except String (Option Int) := do
  match ← resolveCronExpr expr legacyExpr with
  | none => pure none
  | some expr =>
    pure ((← env.previousRun expr (resolveCronTimezone env tz) nowMs).filter (· < nowMs))

/-- The next point of the grid `anchorMs + k * everyMs`. -/
def nextGridPoint (everyMs anchorMs nowMs : Int) : Int :=
  if nowMs < anchorMs then anchorMs
  else anchorMs + max 1 ((nowMs - anchorMs + everyMs - 1) / everyMs) * everyMs

def computeNextRunAtMs (env : ScheduleEnv) (schedule : CronSchedule) (nowMs : Int) :
    Except String (Option Rat) :=
  match schedule with
  | .at time atMs => pure ((resolveAtMs env time atMs).filter (nowMs < ·))
  | .every everyMs anchorMs =>
    match coerceFiniteScheduleNumber everyMs with
    | none => pure none
    | some everyMsRaw =>
      let anchor := max 0 (((coerceFiniteScheduleNumber anchorMs).map Rat.floor).getD nowMs)
      pure (some (nextGridPoint (max 1 everyMsRaw.floor) anchor nowMs : Int))
  | .cron expr legacyExpr tz _ => do
    let next ← computeNextCronRunAtMs env expr legacyExpr tz nowMs
    pure (next.map (↑))

-- ---
-- Stagger
-- ---

def DEFAULT_TOP_OF_HOUR_STAGGER_MS : Int := 5 * 60 * 1000

/-- The fields between white space. -/
def parseCronFields (expr : String) : List (List Char) :=
  (expr.toList.splitOnP isSpace).filter (!·.isEmpty)

def isRecurringTopOfHourCronExpr (expr : String) : Bool :=
  match parseCronFields expr with
  | [minute, hour, _, _, _] => minute = ['0'] && hour.contains '*'
  | [second, minute, hour, _, _, _] => second = ['0'] && minute = ['0'] && hour.contains '*'
  | _ => false

def normalizeCronStaggerMs (raw : Option Json) : Option Int :=
  let numeric := match raw with
    | some (.num n) => n
    | some (.str s) => if trim s = "" then .nan else toNumber s
    | _ => .nan
  numeric.finite?.map fun n => max 0 n.floor

def resolveDefaultCronStaggerMs (expr : String) : Option Int :=
  if isRecurringTopOfHourCronExpr expr then some DEFAULT_TOP_OF_HOUR_STAGGER_MS else none

def resolveCronStaggerMs (expr staggerMs : Option Json) : Int :=
  match normalizeCronStaggerMs staggerMs with
  | some explicit => explicit
  | none => (resolveDefaultCronStaggerMs ((expr.bind Json.str?).getD "")).getD 0

def resolveStableCronOffsetMs (env : ScheduleEnv) (jobId : String) (staggerMs : Int) : Int :=
  if staggerMs ≤ 1 then 0 else env.digestHead jobId % staggerMs

-- ---
-- The next run is later
-- ---

theorem nextGridPoint_ge (hevery : 0 < everyMs) :
    nowMs ≤ nextGridPoint everyMs anchorMs nowMs := by
  unfold nextGridPoint
  split
  · omega
  · have hlt := Int.lt_ediv_add_one_mul_self (nowMs - anchorMs + everyMs - 1) hevery
    rw [Int.add_mul] at hlt
    have hmax := Int.mul_le_mul_of_nonneg_right
      (le_max_right 1 ((nowMs - anchorMs + everyMs - 1) / everyMs)) hevery.le
    omega

/-- The next point is the present one exactly on the grid, after its anchor. -/
theorem nextGridPoint_eq_now (hevery : 0 < everyMs) :
    nextGridPoint everyMs anchorMs nowMs = nowMs ↔
      anchorMs + everyMs ≤ nowMs ∧ everyMs ∣ nowMs - anchorMs := by
  unfold nextGridPoint
  split
  · omega
  · constructor
    · intro hnow
      have hone := Int.mul_le_mul_of_nonneg_right
        (le_max_left 1 ((nowMs - anchorMs + everyMs - 1) / everyMs)) hevery.le
      exact ⟨by omega, max 1 ((nowMs - anchorMs + everyMs - 1) / everyMs), by
        rw [Int.mul_comm]; omega⟩
    · rintro ⟨hlate, k, hk⟩
      have hquot : (nowMs - anchorMs + everyMs - 1) / everyMs = k := by
        rw [hk, Int.add_sub_assoc, Int.add_comm, Int.add_mul_ediv_left _ _ hevery.ne',
          Int.ediv_eq_zero_of_lt (by omega) (by omega), Int.zero_add]
      have hpos : 1 ≤ k := by
        by_contra hneg
        have := Int.mul_le_mul_of_nonneg_left (show k ≤ 0 by omega) hevery.le
        omega
      rw [hquot, max_eq_right hpos, Int.mul_comm]
      omega

theorem filter_gt {next : Option Int} (h : next.filter (· > nowMs) = some nextMs) :
    nowMs < nextMs := by
  simpa using (Option.filter_eq_some_iff.mp h).2

theorem nextSlot_gt (h : nextSlot env expr tz nowMs = .ok (some next)) : nowMs < next := by
  simp only [nextSlot, bind, Except.bind, pure, Except.pure] at h
  split at h
  · cases h
  · split at h
    · cases h
    · split at h
      · rename_i hlater
        cases h
        exact hlater
      · split at h
        · cases h
        · split at h
          · rename_i hretry
            cases h
            exact filter_gt hretry
          · split at h
            · cases h
            · exact filter_gt (Except.ok.inj h)

theorem computeNextCronRunAtMs_gt
    (h : computeNextCronRunAtMs env expr legacyExpr tz nowMs = .ok (some next)) : nowMs < next := by
  simp only [computeNextCronRunAtMs, bind, Except.bind, pure, Except.pure] at h
  split at h
  · cases h
  · split at h
    · cases h
    · exact nextSlot_gt h

end OpenClaw.Cron
