import OpenClaw.Cron.Service.Laws

/-!
# Stopping the service

`stop` clears the timer and nothing else. What was under way goes on, and each
operation that arms the timer at its end arms it again.
-/

namespace OpenClaw.Cron.CronService

open Js

variable {D : Type} {deps : CronDeps D} {s s' : CronService D} {id : String}

-- ---
-- When the timer is armed
-- ---

/-- There is a job to wake up for. -/
def wakes (jobs : List (CronJob D)) : Bool :=
  (nextWakeAtMs jobs).any (· ≠ 0)

/-- The step ends with `armTimer`. -/
def arms (deps : CronDeps D) (s : CronService D) : CronStep D → Bool
  | .add id input _ createMs _ =>
    match createJob deps.toScheduleEnv deps.check id createMs input with
    | .ok _ => true
    | .error _ => false
  | .update id patch now =>
    (s.loaded.find? (·.id = id)).any fun job => (updatedJob deps patch now job).2
  | .remove _ _ | .endTick | .startFinish _ _ => true
  | .applyBatch i _ _ =>
    match s.batches[i]? with
    | some ⟨.manual _, entry :: _⟩ => (s.loaded.find? (·.id = entry.id)).isSome
    | _ => false
  | .read _ | .stop | .inspect _ _ _ _ | .preflight _ _ _ _ | .reserve _ | .fire | .onTimer _ _
  | .startBegin | .startPlan _ _ | .startRun _ _ | .finishRun _ _ _ _ _ => false

@[simp] theorem timer_armTimer :
    (s.armTimer deps).timer = (deps.cronEnabled && wakes (s.armTimer deps).loaded) := rfl

@[simp] theorem timer_load : s.load.timer = s.timer := by simp [load_eq]

@[simp] theorem timer_reload : s.reload.timer = s.timer := rfl

@[simp] theorem timer_ensureLoaded : (s.ensureLoaded deps nowMs).timer = s.timer := by
  simp [ensureLoaded_eq]

@[simp] theorem timer_persist : s.persist.timer = s.timer := by simp [persist_eq]

@[simp] theorem timer_persistIf : (s.persistIf changed).timer = s.timer := by simp [persistIf_eq]

@[simp] theorem timer_setStore : (s.setStore jobs).timer = s.timer := rfl

@[simp] theorem timer_maintain :
    (s.maintain deps recomputeExpired nowMs).1.timer = s.timer := rfl

theorem add_timer :
    (s.add deps id input loadMs createMs walkMs).timer =
      if arms deps s (.add id input loadMs createMs walkMs) then
        deps.cronEnabled && wakes (s.add deps id input loadMs createMs walkMs).loaded
      else s.timer := by
  cases hcreate : createJob deps.toScheduleEnv deps.check id createMs input <;>
    simp [add, arms, hcreate]

theorem update_timer :
    (s.update deps id patch nowMs).timer =
      if arms deps s (.update id patch nowMs) then
        deps.cronEnabled && wakes (s.update deps id patch nowMs).loaded
      else s.timer := by
  simp only [update, arms, loaded_load]
  split
  · rename_i hnone
    simp [hnone]
  · rename_i job hjob
    cases hok : (updatedJob deps patch nowMs job).2 <;> simp [hjob, hok]

theorem applyManual_timer :
    (s.applyManual deps forced id result nowMs).timer =
      if (s.loaded.find? (·.id = id)).isSome then
        deps.cronEnabled && wakes (s.applyManual deps forced id result nowMs).loaded
      else s.timer := by
  simp only [applyManual, loaded_load]
  split
  · rename_i hnone
    simp [hnone]
  · rename_i job hjob
    simp [hjob]

theorem results?_cons (h : RunBatch.results? ⟨owner, entry :: entries⟩ = some results) :
    ∃ result rest, results = (entry.id, result) :: rest := by
  simp only [RunBatch.results?, List.mapM_cons, Option.pure_def, Option.bind_eq_bind,
    Option.bind_eq_some_iff, Option.map_eq_some_iff, Option.some.injEq] at h
  obtain ⟨_, ⟨result, -, rfl⟩, rest, -, rfl⟩ := h
  exact ⟨result, rest, rfl⟩

theorem applyBatch_timer (h : s.applyBatch deps i baseMs nowMs = some s') :
    s'.timer = if arms deps s (.applyBatch i baseMs nowMs) then deps.cronEnabled && wakes s'.loaded
      else s.timer := by
  simp only [applyBatch] at h
  simp only [arms]
  split at h
  · cases h
  · rename_i batch hbatch
    obtain ⟨owner, entries⟩ := batch
    simp only [Option.map_eq_some_iff] at h
    obtain ⟨results, hresults, rfl⟩ := h
    cases owner with
    | tick generation =>
      simp [hbatch, applyTick]
    | catchup deferred =>
      simp [hbatch, applyCatchup]
    | manual forced =>
      cases entries with
      | nil =>
        cases hresults
        simp [hbatch]
      | cons entry entries =>
        obtain ⟨result, rest, rfl⟩ := results?_cons hresults
        simp only [hbatch]
        exact applyManual_timer

/-- A step that starts with the timer off leaves it off, unless it ends with
`armTimer` and there is a job to wake up for. -/
theorem timer_step (h : step deps s a = some s') (hoff : s.timer = false) :
    s'.timer = (arms deps s a && deps.cronEnabled && wakes s'.loaded) := by
  cases a with
  | read now =>
    cases h
    simp [read, maintain, arms, hoff]
  | add id input loadMs createMs walkMs =>
    simp only [step, Option.ite_none_right_eq_some] at h
    cases h.2
    rw [add_timer]
    cases arms deps s (.add id input loadMs createMs walkMs) <;> simp [hoff]
  | update id patch now =>
    cases h
    rw [update_timer]
    cases arms deps s (.update id patch now) <;> simp [hoff]
  | remove id loadMs =>
    cases h
    simp [remove, arms]
  | stop => cases h; rfl
  | inspect id forced walkMs now =>
    cases h
    simp [inspectManualRunPreflight, arms, hoff]
  | preflight id forced walkMs now =>
    cases h
    show (s.preflight deps id forced walkMs now).timer = false
    simp only [preflight]
    split <;> exact timer_load.trans hoff
  | reserve i =>
    simp only [step, Option.map_eq_some_iff] at h
    obtain ⟨p, -, rfl⟩ := h
    simp only [reserve, arms]
    split
    · exact hoff
    · split <;> simp [hoff]
  | fire =>
    simp only [step, hoff] at h
    cases h
  | onTimer checkMs markMs =>
    simp only [step, Option.ite_none_right_eq_some] at h
    cases h.2
    simp only [onTimer, arms]
    split <;> simp [maintain, hoff]
  | endTick =>
    simp only [step, Option.ite_none_right_eq_some] at h
    cases h.2
    simp [endTick, arms]
  | startBegin =>
    simp only [step, Option.ite_none_right_eq_some] at h
    cases h.2
    simp [startBegin, arms, hoff]
  | startPlan i now =>
    simp only [step] at h
    split at h
    · cases h
      simp only [planStartupCatchup, arms]
      split <;> simp [hoff]
    · cases h
  | startFinish i now =>
    simp only [step] at h
    split at h
    · cases h
      simp [startFinish, arms]
    · cases h
  | startRun i now =>
    simp only [step, startRun] at h
    split at h
    · cases h
    · split at h
      · cases h
      · simp only [Option.map_eq_some_iff] at h
        obtain ⟨⟨id, entries⟩, -, rfl⟩ := h
        split
        · split <;> simp [arms, hoff]
        · exact hoff
        · exact hoff
  | finishRun i id status error now =>
    simp only [step, finishRun, Option.map_eq_some_iff] at h
    obtain ⟨batch, -, rfl⟩ := h
    exact hoff
  | applyBatch i baseMs now =>
    rw [applyBatch_timer h]
    cases arms deps s (.applyBatch i baseMs now) <;> simp [hoff]

-- ---
-- After a stop
-- ---

/-- A step that lets a stopped service rest: a tick that still gets the lock
finds no job due, and a step that ends with `armTimer` finds no job to wake up
for. -/
def LetsRest (deps : CronDeps D) (s : CronService D) (a : CronStep D) : Prop :=
  match a with
  | .onTimer checkMs _ => collectRunnableJobs deps.toScheduleEnv checkMs [] false s.file = []
  | a => arms deps s a = true → deps.cronEnabled = true →
    ∀ s', step deps s a = some s' → wakes s'.loaded = false

theorem LetsRest.timer (hrest : LetsRest deps s a) (h : step deps s a = some s')
    (hoff : s.timer = false) : s'.timer = false := by
  rw [timer_step h hoff]
  cases harms : arms deps s a with
  | false => rfl
  | true =>
    cases henabled : deps.cronEnabled with
    | false => rfl
    | true =>
      cases a with
      | onTimer checkMs markMs => cases harms
      | _ => simpa using hrest harms henabled s' h

end OpenClaw.Cron.CronService
