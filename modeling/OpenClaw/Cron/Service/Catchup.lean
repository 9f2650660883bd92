import OpenClaw.Cron.Service.Advance
import OpenClaw.Cron.Service.Ids

/-!
# The startup catch-up

A start of the service is the run of its own sections: it clears the stale
markers, plans what was missed, executes the candidates one after another,
applies their outcomes while it defers the other jobs, and walks the store a
last time.
-/

namespace OpenClaw.Cron

open Js CronService

variable {D : Type} {deps : CronDeps D} {s m s' : CronService D}
  {env : ScheduleEnv} {jobs : List (CronJob D)} {job : CronJob D} {id : String}

-- ---
-- A start
-- ---

/-- How the run of a candidate goes. -/
structure CandidateRun where
  startMs : Int
  status : CronRunStatus
  error : Option String
  endMs : Int

/-- The clock readings of a start, and how the runs of its candidates go. -/
structure StartRun where
  planMs : Int
  candidate : String → CandidateRun
  baseMs : Int
  walkMs : Int
  finishMs : Int

structure StartupCatchupPlan where
  candidates : List String
  deferredJobIds : List String

/-- The jobs that a start finds marked as running. -/
def interruptedIds (s : CronService D) : List String :=
  (s.loaded.filter (·.isRunning)).map (·.id)

/-- The jobs once a start has cleared the stale markers. -/
def clearedJobs (s : CronService D) : List (CronJob D) :=
  s.loaded.map (·.setRunning none)

/-- The missed jobs of a start, the earliest first. -/
def missedAtStart (deps : CronDeps D) (r : StartRun) (s : CronService D) : List String :=
  missedIds deps (interruptedIds s) r.planMs (clearedJobs s)

def startPlan (deps : CronDeps D) (r : StartRun) (s : CronService D) : StartupCatchupPlan where
  candidates := (missedAtStart deps r s).take (maxImmediate deps)
  deferredJobIds := (missedAtStart deps r s).drop (maxImmediate deps)

/-- `runStartupCatchupCandidate` for a run of the batch `i`. -/
def candidateSteps (r : StartRun) (i : Nat) (id : String) : List (CronStep D) :=
  [.startRun i (r.candidate id).startMs,
    .finishRun i id (r.candidate id).status (r.candidate id).error (r.candidate id).endMs]

/-- `executeStartupCatchupPlan` and `applyStartupCatchupOutcomes` -/
def catchupSteps (r : StartRun) (i : Nat) (candidates : List String) : List (CronStep D) :=
  candidates.flatMap (candidateSteps r i) ++ [.applyBatch i r.baseMs r.walkMs]

/-- The sections of `start`, one after another. -/
def startSteps (deps : CronDeps D) (r : StartRun) (s : CronService D) : List (CronStep D) :=
  [.startBegin, .startPlan s.starts.length r.planMs] ++
    (if missedAtStart deps r s = [] then []
    else catchupSteps r s.batches.length (startPlan deps r s).candidates) ++
    [.startFinish s.starts.length r.finishMs]

/-- The job whose run a step starts. -/
def startedBy (s : CronService D) : CronStep D → Option String
  | .startRun i now => (s.batches[i]?).bind fun batch => (startFirst now batch.entries).map (·.1)
  | _ => none

/-- The jobs whose runs start in the steps of a run, in order. -/
def startedIds (deps : CronDeps D) : CronService D → List (CronStep D) → List String
  | _, [] => []
  | s, a :: as =>
    (startedBy s a).toList ++ match step deps s a with
      | some s' => startedIds deps s' as
      | none => []

/-- These steps lead there, and start the runs of these jobs. -/
structure Ran (deps : CronDeps D) (s : CronService D) (as : List (CronStep D)) (ids : List String)
    (s' : CronService D) : Prop where
  run : ∀ init, (system deps init).run s as = some s'
  started : startedIds deps s as = ids

theorem Ran.silent (hstep : step deps s a = some m) (h : startedBy s a = none) :
    Ran deps s [a] [] m := by
  constructor
  · intro init
    simp [Transition.System.run, system, hstep]
  · simp [startedIds, h, hstep]

theorem Ran.starts (hstep : step deps s a = some m) (h : startedBy s a = some id) :
    Ran deps s [a] [id] m := by
  constructor
  · intro init
    simp [Transition.System.run, system, hstep]
  · simp [startedIds, h, hstep]

theorem Ran.append (h : Ran deps s as ids m) (h' : Ran deps m bs ids' s') :
    Ran deps s (as ++ bs) (ids ++ ids') s' := by
  constructor
  · intro init
    rw [Transition.System.run_append, h.run init]
    exact h'.run init
  · obtain ⟨hrun, rfl⟩ := h
    obtain ⟨-, rfl⟩ := h'
    induction as generalizing s with
    | nil =>
      cases hrun fun _ => True
      rfl
    | cons a as ih =>
      cases hstep : step deps s a with
      | none =>
        have hrefused := hrun fun _ => True
        simp [Transition.System.run, system, hstep] at hrefused
      | some s₁ =>
        have hrest : ∀ init, (system deps init).run s₁ as = some m := by
          intro init
          have hall := hrun init
          simpa [Transition.System.run, system, hstep] using hall
        simp only [List.cons_append, startedIds, hstep, ih hrest, List.append_assoc]

-- ---
-- Planning
-- ---

theorem startBegin_loaded (s : CronService D) : s.startBegin.loaded = clearedJobs s := by
  unfold CronService.startBegin
  simp only [persistIf_eq]
  exact congrArg (List.map _) loaded_load

theorem startBegin_starts (s : CronService D) :
    s.startBegin.starts = s.starts ++ [.planning (interruptedIds s)] := by
  unfold CronService.startBegin interruptedIds
  simp [load_eq, CronService.loaded, setStore]

theorem startBegin_batches (s : CronService D) : s.startBegin.batches = s.batches := by
  simp [CronService.startBegin]

/-- A step of a start that is the last one in the list. -/
theorem starts_getLast (starts : List StartPhase) (phase : StartPhase) :
    (starts ++ [phase])[starts.length]? = some phase ∧
      (starts ++ [phase]).eraseIdx starts.length = starts := by
  constructor
  · simp
  · simp [List.eraseIdx_append_of_length_le]

theorem startPlan_step {starts : List StartPhase}
    (hstarts : m.starts = starts ++ [.planning skipJobIds]) :
    step deps m (.startPlan starts.length nowMs) =
      some ({ m with starts }.planStartupCatchup deps skipJobIds nowMs) := by
  obtain ⟨hphase, herase⟩ := starts_getLast starts (.planning skipJobIds)
  simp only [step, hstarts, hphase, herase]

theorem startFinish_step {starts : List StartPhase} (hstarts : m.starts = starts ++ [.finishing]) :
    step deps m (.startFinish starts.length nowMs) =
      some ({ m with starts }.startFinish deps nowMs) := by
  obtain ⟨hphase, herase⟩ := starts_getLast starts .finishing
  simp only [step, hstarts, hphase, herase]

theorem planStartupCatchup_none (h : missedIds deps skipJobIds nowMs s.loaded = []) :
    (s.planStartupCatchup deps skipJobIds nowMs).starts = s.starts ++ [.finishing] := by
  have hmissed : ((missedJobs deps skipJobIds nowMs s.load.loaded).map (·.id)).isEmpty = true := by
    rw [loaded_load]
    exact List.isEmpty_iff.mpr h
  simp only [planStartupCatchup, if_pos hmissed]
  simp [load_eq]

/-- What the planning reserves. -/
structure Planned (deps : CronDeps D) (skipJobIds : List String) (nowMs : Int) (s m : CronService D) :
    Prop where
  loaded : m.loaded = reserveJobs ((missedIds deps skipJobIds nowMs s.loaded).take (maxImmediate deps))
    nowMs s.loaded
  starts : m.starts = s.starts
  batches : m.batches = s.batches ++
    [⟨.catchup ((missedIds deps skipJobIds nowMs s.loaded).drop (maxImmediate deps)),
      ((missedIds deps skipJobIds nowMs s.loaded).take (maxImmediate deps)).map (⟨·, .waiting⟩)⟩]

theorem planStartupCatchup_planned (h : missedIds deps skipJobIds nowMs s.loaded ≠ []) :
    Planned deps skipJobIds nowMs s (s.planStartupCatchup deps skipJobIds nowMs) := by
  have hmissed : ¬((missedJobs deps skipJobIds nowMs s.load.loaded).map (·.id)).isEmpty = true := by
    rw [loaded_load, List.isEmpty_iff]
    exact h
  simp only [planStartupCatchup, if_neg hmissed]
  refine ⟨?_, ?_, ?_⟩
  · simp only [persist_eq, loaded_load]
    rfl
  · simp [persist_eq, load_eq, setStore]
  · simp [missedIds, maxImmediate]

-- ---
-- Executing the candidates
-- ---

/-- The outcome of a candidate. -/
def StartRun.result (r : StartRun) (id : String) : RunResult :=
  ⟨(r.candidate id).status, (r.candidate id).error, (r.candidate id).startMs, (r.candidate id).endMs⟩

def StartRun.results (r : StartRun) (ids : List String) : List (String × RunResult) :=
  ids.map fun id => (id, r.result id)

/-- The entry of a candidate that was executed. -/
def doneEntry (r : StartRun) (id : String) : RunEntry :=
  ⟨id, .done (r.result id)⟩

theorem startFirst_doneEntry {r : StartRun} {done : List String} {rest : List RunEntry} :
    startFirst nowMs (done.map (doneEntry r) ++ ⟨id, .waiting⟩ :: rest) =
      some (id, done.map (doneEntry r) ++ ⟨id, .executing nowMs⟩ :: rest) := by
  induction done with
  | nil => simp [startFirst]
  | cons first done ih => simp [startFirst, doneEntry, ih]

/-- The catch-up at its batch, with these candidates executed and these to come. -/
def catchupBatch (r : StartRun) (deferred done waiting : List String) : RunBatch :=
  ⟨.catchup deferred, done.map (doneEntry r) ++ waiting.map (⟨·, .waiting⟩)⟩

theorem executing_done {r : StartRun} {done : List String} {waiting : List String} :
    ((catchupBatch r deferred done waiting).entries.filter RunEntry.isExecuting).length = 0 := by
  simp [catchupBatch, doneEntry, RunEntry.isExecuting]

theorem candidateSteps_ran (deps : CronDeps D) {r : StartRun} {done waiting : List String}
    (hbatch : m.batches[i]? = some (catchupBatch r deferred done (id :: waiting))) :
    Ran deps m (candidateSteps r i id) [id]
      { m with batches := m.batches.set i (catchupBatch r deferred (done ++ [id]) waiting) } := by
  have hlt : i < m.batches.length := (List.getElem?_eq_some_iff.mp hbatch).1
  have hstart : step deps m (.startRun i (r.candidate id).startMs) =
      some { m with batches := m.batches.set i ⟨.catchup deferred, done.map (doneEntry r) ++
        ⟨id, .executing (r.candidate id).startMs⟩ :: waiting.map (⟨·, .waiting⟩)⟩ } := by
    have hfree : ¬concurrency deps (catchupBatch r deferred done (id :: waiting)).owner ≤
        ((catchupBatch r deferred done (id :: waiting)).entries.filter RunEntry.isExecuting).length := by
      rw [executing_done]
      simp [concurrency, catchupBatch]
    simp only [step, CronService.startRun, hbatch, if_neg hfree]
    simp [catchupBatch, startFirst_doneEntry]
  have hfirst : startedBy m (.startRun i (r.candidate id).startMs) = some id := by
    simp only [startedBy, hbatch, catchupBatch, List.map_cons, Option.bind_some,
      startFirst_doneEntry, Option.map_some]
  have hfinish : (done.map (doneEntry r) ++
      (⟨id, .executing (r.candidate id).startMs⟩ : RunEntry) :: waiting.map (⟨·, .waiting⟩)).map
        (finishEntry id (r.candidate id).status (r.candidate id).error (r.candidate id).endMs) =
      (done ++ [id]).map (doneEntry r) ++ waiting.map (⟨·, .waiting⟩) := by
    simp [finishEntry, doneEntry, StartRun.result, Function.comp_def]
  refine (Ran.starts hstart hfirst).append (Ran.silent ?_ rfl)
  simp [step, finishRun, hlt, hfinish, catchupBatch]

/-- The candidates run one after another, each once. -/
theorem candidates_ran (deps : CronDeps D) {r : StartRun} {done waiting : List String}
    (hbatch : m.batches[i]? = some (catchupBatch r deferred done waiting)) :
    Ran deps m (waiting.flatMap (candidateSteps r i)) waiting
      { m with batches := m.batches.set i (catchupBatch r deferred (done ++ waiting) []) } := by
  induction waiting generalizing m done with
  | nil =>
    obtain ⟨hlt, hget⟩ := List.getElem?_eq_some_iff.mp hbatch
    refine ⟨fun init => ?_, rfl⟩
    rw [List.append_nil, ← hget, List.set_getElem_self]
    rfl
  | cons id waiting ih =>
    have hlt : i < m.batches.length := (List.getElem?_eq_some_iff.mp hbatch).1
    have hnext : (m.batches.set i (catchupBatch r deferred (done ++ [id]) waiting))[i]? =
        some (catchupBatch r deferred (done ++ [id]) waiting) := by simp [hlt]
    have hrest := ih (m := { m with batches := m.batches.set i _ }) hnext
    have hall := (candidateSteps_ran deps hbatch).append hrest
    simpa using hall

theorem results?_catchupBatch {r : StartRun} {done : List String} :
    (catchupBatch r deferred done []).results? = some (r.results done) := by
  unfold RunBatch.results? catchupBatch StartRun.results
  induction done with
  | nil => rfl
  | cons id done ih =>
    simp only [List.map_nil, List.append_nil, List.map_cons, List.mapM_cons] at ih ⊢
    rw [ih]
    rfl

-- ---
-- A missed job
-- ---

theorem isRunnableJob_enabled (h : isRunnableJob env nowMs skipJobIds catchup job = true) :
    job.enabled = true := by
  unfold isRunnableJob at h
  split at h
  · cases h
  · rename_i hskip
    simp only [Bool.or_eq_true, not_or, Bool.not_eq_true', Bool.not_eq_false] at hskip
    exact hskip.1.1

/-- A one-shot that ran to its end is not missed. -/
theorem isRunnableJob_notOk (h : isRunnableJob env nowMs skipJobIds true job = true)
    (hat : isAt job.schedule = true) : job.state.lastStatus ≠ some .ok := by
  intro hok
  unfold isRunnableJob at h
  split at h
  · cases h
  · simp [hat, hok] at h

theorem mem_missedIds (h : id ∈ missedIds deps skipJobIds nowMs jobs) :
    ∃ job ∈ jobs, job.id = id ∧ isRunnableJob deps.toScheduleEnv nowMs skipJobIds true job = true := by
  obtain ⟨job, hjob, rfl⟩ := List.mem_map.mp h
  have hmissed := (List.perm_insertionSort _ _).mem_iff.mp hjob
  obtain ⟨hmem, hrunnable⟩ := List.mem_filter.mp hmissed
  exact ⟨job, hmem, rfl, hrunnable⟩

theorem jobOf_reserveJobs_ne {ids : List String} (hnot : id ∉ ids) :
    jobOf id (reserveJobs ids nowMs jobs) = jobOf id jobs := by
  have hkept : ∀ job ∈ jobOf id jobs,
      (if ids.contains job.id then reserveJob nowMs job else job) = job := by
    intro job hjob
    rw [if_neg]
    rw [jobOf_id hjob]
    simpa using hnot
  rw [reserveJobs, jobOf_map fun job => by split <;> rfl]
  cases hjob : jobOf id jobs with
  | none => rfl
  | some job => exact congrArg some (hkept job hjob)

theorem setNextRun_id (next : Option Number) (job : CronJob D) :
    (job.setNextRun next).id = job.id := rfl

/-- The jobs that are deferred get slots one after another. -/
theorem jobOf_deferJobs (baseMs staggerMs offset : Int) {ids : List String} {k : Nat}
    (hnodup : ids.Nodup)
    (henabled : ∀ id ∈ ids, ∃ job, jobOf id jobs = some job ∧ job.enabled = true)
    (hid : ids[k]? = some id) :
    jobOf id (deferJobs baseMs staggerMs ids offset jobs) =
      (jobOf id jobs).map (·.setNextRun (some (.ofInt (baseMs + (offset + k * staggerMs))))) := by
  induction ids generalizing offset jobs k with
  | nil => cases hid
  | cons first ids ih =>
    obtain ⟨hfirst, hnodup⟩ := List.nodup_cons.mp hnodup
    obtain ⟨job, hjob, hjobEnabled⟩ := henabled first List.mem_cons_self
    have hdeferred : (jobs.find? (·.id = first)).any (·.enabled) = true := by
      rw [show jobs.find? (·.id = first) = some job from hjob]
      exact hjobEnabled
    rw [deferJobs, if_pos hdeferred]
    cases k with
    | zero =>
      cases hid
      rw [jobOf_deferJobs_ne hfirst, jobOf_updateJob (setNextRun_id _)]
      simp
    | succ k =>
      have hne (id' : String) (h : id' ∈ ids) : first ≠ id' := fun heq => hfirst (heq ▸ h)
      rw [ih (offset + staggerMs) hnodup (fun id' h => ?_) hid, jobOf_updateJob_ne (setNextRun_id _)
        (hne id (List.mem_of_getElem? hid))]
      · have hslot : offset + staggerMs + k * staggerMs = offset + (k + 1 : Nat) * staggerMs := by
          push_cast
          ring
        rw [hslot]
      · rw [jobOf_updateJob_ne (setNextRun_id _) (hne id' h)]
        exact henabled id' (List.mem_cons_of_mem _ h)

-- ---
-- A whole start
-- ---

def startupStaggerMs (deps : CronDeps D) : Int :=
  max 0 (deps.missedJobStaggerMs.getD DEFAULT_MISSED_JOB_STAGGER_MS)

/-- The slot of the deferred job at this index. -/
def deferredSlotMs (deps : CronDeps D) (r : StartRun) (k : Nat) : Int :=
  r.baseMs + (startupStaggerMs deps + k * startupStaggerMs deps)

/-- The jobs before the last walk of a start that missed some. -/
def caughtUpJobs (deps : CronDeps D) (r : StartRun) (s : CronService D) : List (CronJob D) :=
  caughtUp deps (startPlan deps r s).deferredJobIds (r.results (startPlan deps r s).candidates)
    r.baseMs r.walkMs (reserveJobs (startPlan deps r s).candidates r.planMs (clearedJobs s))

/-- What the first two sections of a start lead to. -/
structure Begun (deps : CronDeps D) (r : StartRun) (s m : CronService D) : Prop where
  none : missedAtStart deps r s = [] → m.starts = s.starts ++ [.finishing]
  starts : missedAtStart deps r s ≠ [] → m.starts = s.starts
  loaded : missedAtStart deps r s ≠ [] →
    m.loaded = reserveJobs (startPlan deps r s).candidates r.planMs (clearedJobs s)
  batches : missedAtStart deps r s ≠ [] →
    m.batches = s.batches ++
      [catchupBatch r (startPlan deps r s).deferredJobIds [] (startPlan deps r s).candidates]

theorem start_begun (hcron : deps.cronEnabled = true) (r : StartRun) (s : CronService D) :
    ∃ m, Ran deps s [.startBegin, .startPlan s.starts.length r.planMs] [] m ∧ Begun deps r s m := by
  have hbegin : step deps s .startBegin = some s.startBegin := if_pos hcron
  have hloaded : CronService.loaded { s.startBegin with starts := s.starts } = clearedJobs s :=
    startBegin_loaded s
  refine ⟨_, (Ran.silent hbegin rfl).append
    (Ran.silent (startPlan_step (startBegin_starts s)) rfl), ?_⟩
  have hplanned (hmissed : missedAtStart deps r s ≠ []) :
      Planned deps (interruptedIds s) r.planMs { s.startBegin with starts := s.starts } _ :=
    planStartupCatchup_planned (by rwa [hloaded])
  refine ⟨fun hmissed => ?_, fun hmissed => (hplanned hmissed).starts, fun hmissed => ?_,
    fun hmissed => ?_⟩
  · exact planStartupCatchup_none (by rwa [hloaded])
  · rw [(hplanned hmissed).loaded, hloaded]
    rfl
  · rw [(hplanned hmissed).batches, hloaded,
      show CronService.batches { s.startBegin with starts := s.starts } = s.batches from
        startBegin_batches s]
    rfl

theorem catchup_ran (deps : CronDeps D) {r : StartRun} {batches : List RunBatch} {candidates deferred : List String}
    (hbatches : m.batches = batches ++ [catchupBatch r deferred [] candidates]) :
    ∃ m', Ran deps m (catchupSteps r batches.length candidates) candidates m' ∧
      m'.starts = m.starts ++ [.finishing] ∧
      m'.loaded = caughtUp deps deferred (r.results candidates) r.baseMs r.walkMs m.loaded := by
  have hbatch : m.batches[batches.length]? = some (catchupBatch r deferred [] candidates) := by
    simp [hbatches]
  have hran := candidates_ran deps hbatch
  simp only [List.nil_append] at hran
  have happly : step deps
      { m with batches := m.batches.set batches.length (catchupBatch r deferred candidates []) }
      (.applyBatch batches.length r.baseMs r.walkMs) =
      some ({ m with batches := (m.batches.set batches.length
        (catchupBatch r deferred candidates [])).eraseIdx batches.length }.applyCatchup deps deferred
          (r.results candidates) r.baseMs r.walkMs) := by
    simp only [step, applyBatch, List.getElem?_set_self (List.getElem?_eq_some_iff.mp hbatch).1,
      results?_catchupBatch, Option.map_some]
    rfl
  have hall := hran.append (Ran.silent happly rfl)
  rw [List.append_nil] at hall
  refine ⟨_, hall, ?_, applyCatchup_loaded⟩
  simp [applyCatchup, load_eq, maintain_fst, persist_eq, setStore]

theorem startFinish_ran (deps : CronDeps D) {starts : List StartPhase} (nowMs : Int)
    (hstarts : m.starts = starts ++ [.finishing]) :
    ∃ s', Ran deps m [.startFinish starts.length nowMs] [] s' ∧
      s'.loaded = (recomputeNextRuns deps.toScheduleEnv nowMs m.loaded).1 := by
  refine ⟨_, Ran.silent (startFinish_step hstarts) rfl, ?_⟩
  simp only [CronService.startFinish, loaded_load]
  simp [CronService.armTimer, persistIf_eq, setStore, CronService.loaded]

/-- A start runs to its end, and executes its candidates. -/
theorem start_ran (hcron : deps.cronEnabled = true) (r : StartRun) (s : CronService D) :
    ∃ s', Ran deps s (startSteps deps r s) (startPlan deps r s).candidates s' ∧
      (missedAtStart deps r s ≠ [] → s'.loaded =
        (recomputeNextRuns deps.toScheduleEnv r.finishMs (caughtUpJobs deps r s)).1) := by
  obtain ⟨m, hran, hbegun⟩ := start_begun hcron r s
  by_cases hmissed : missedAtStart deps r s = []
  · obtain ⟨s', hfinish, -⟩ := startFinish_ran deps r.finishMs (hbegun.none hmissed)
    refine ⟨s', ?_, fun h => absurd hmissed h⟩
    have hcandidates : (startPlan deps r s).candidates = [] := by
      rw [startPlan, hmissed]
      exact List.take_nil
    rw [hcandidates, startSteps, if_pos hmissed]
    exact (hran.append hfinish)
  · obtain ⟨m', hcatchup, hstarts, hloaded⟩ := catchup_ran deps (hbegun.batches hmissed)
    rw [hbegun.starts hmissed] at hstarts
    obtain ⟨s', hfinish, hwalk⟩ := startFinish_ran deps r.finishMs hstarts
    refine ⟨s', ?_, fun _ => ?_⟩
    · rw [startSteps, if_neg hmissed]
      have hall := (hran.append hcatchup).append hfinish
      rwa [List.nil_append, List.append_nil] at hall
    · rw [hwalk, hloaded, hbegun.loaded hmissed]
      rfl

-- ---
-- The deferred jobs
-- ---

/-- A deferred job with its slot. -/
def deferJob (deps : CronDeps D) (r : StartRun) (k : Nat) (job : CronJob D) : CronJob D :=
  (job.setRunning none).setNextRun (some (.ofInt (deferredSlotMs deps r k)))

theorem deferJob_slot? (job : CronJob D) :
    (deferJob deps r k job).slot? = some (deferredSlotMs deps r k : Rat) := rfl

theorem jobIds_clearedJobs (s : CronService D) : jobIds (clearedJobs s) = jobIds s.loaded :=
  jobIds_map (setRunning_id none)

theorem missedAtStart_nodup (hnodup : (jobIds s.loaded).Nodup) (r : StartRun) :
    (missedAtStart deps r s).Nodup :=
  missedIds_nodup (by rwa [jobIds_clearedJobs])

/-- A missed job of the store: enabled, and no one-shot that ran to its end. -/
theorem missedAtStart_job (hnodup : (jobIds s.loaded).Nodup) (hmissed : id ∈ missedAtStart deps r s) :
    ∃ job, jobOf id s.loaded = some job ∧ job.enabled = true ∧
      (isAt job.schedule = true → job.state.lastStatus ≠ some .ok) := by
  obtain ⟨cleared, hmem, rfl, hrunnable⟩ := mem_missedIds hmissed
  obtain ⟨job, hjob, rfl⟩ := List.mem_map.mp hmem
  have henabled : (job.setRunning none).enabled = true := isRunnableJob_enabled hrunnable
  have hnotOk : isAt (job.setRunning none).schedule = true →
      (job.setRunning none).state.lastStatus ≠ some .ok := isRunnableJob_notOk hrunnable
  exact ⟨job, jobOf_mem hnodup hjob, henabled, hnotOk⟩

theorem walkJob_maintain_kept (henabled : job.enabled = true) (hslot : job.slot? = some slot) :
    (walkJob (maintainJob env false nowMs) nowMs job).1 = settledJob nowMs job := by
  rw [walkJob_fst, if_pos henabled]
  simp [maintainJob, (settledJob_slot? henabled).trans hslot]

/-- The deferred job before the last walk of the start. -/
theorem jobOf_caughtUpJobs (hnodup : (jobIds s.loaded).Nodup)
    (hid : (startPlan deps r s).deferredJobIds[k]? = some id) (hjob : jobOf id s.loaded = some job)
    (henabled : job.enabled = true) :
    jobOf id (caughtUpJobs deps r s) = some (settledJob r.walkMs (deferJob deps r k job)) := by
  have hmissedNodup : (missedAtStart deps r s).Nodup := missedAtStart_nodup hnodup r
  have hdisjoint := List.disjoint_take_drop hmissedNodup (le_refl (maxImmediate deps))
  -- a deferred job is untouched until it gets its slot
  have huntouched (id' : String) (hdeferred : id' ∈ (startPlan deps r s).deferredJobIds) :
      jobOf id' (applyResults deps false (r.results (startPlan deps r s).candidates)
        (reserveJobs (startPlan deps r s).candidates r.planMs (clearedJobs s))) =
        (jobOf id' s.loaded).map (·.setRunning none) := by
    have hnot : id' ∉ (startPlan deps r s).candidates := fun h => hdisjoint h hdeferred
    rw [jobOf_applyResults_ne (by simpa [StartRun.results, Function.comp_def] using hnot),
      jobOf_reserveJobs_ne hnot, clearedJobs, jobOf_map (setRunning_id none)]
  have hreserved (id' : String) (hdeferred : id' ∈ (startPlan deps r s).deferredJobIds) :
      ∃ job, jobOf id' (applyResults deps false (r.results (startPlan deps r s).candidates)
        (reserveJobs (startPlan deps r s).candidates r.planMs (clearedJobs s))) = some job ∧
        job.enabled = true := by
    obtain ⟨job, hjob, henabled, -⟩ := missedAtStart_job hnodup (List.mem_of_mem_drop hdeferred)
    refine ⟨job.setRunning none, ?_, henabled⟩
    rw [huntouched id' hdeferred, hjob]
    rfl
  have hslots := jobOf_deferJobs r.baseMs (startupStaggerMs deps) (startupStaggerMs deps)
    (List.Nodup.sublist (List.drop_sublist _ _) hmissedNodup)
    hreserved hid
  rw [huntouched id (List.mem_of_getElem? hid), hjob] at hslots
  rw [caughtUpJobs, caughtUp, jobOf_walked]
  refine (congrArg (Option.map _) hslots).trans (congrArg some ?_)
  exact walkJob_maintain_kept henabled (deferJob_slot? job)

/-- What the last walk keeps of a deferred job. -/
theorem fullWalk_deferred {r : StartRun} {k : Nat} (henabled : job.enabled = true)
    (hnotOk : isAt job.schedule = true → job.state.lastStatus ≠ some .ok) :
    (fullWalk env r.finishMs (settledJob r.walkMs (deferJob deps r k job))).state.nextRunAtMs =
        some (.ofInt (deferredSlotMs deps r k)) ↔
      r.finishMs < deferredSlotMs deps r k ∨
        SlotStands env (settledJob r.walkMs job) (deferredSlotMs deps r k) r.finishMs := by
  have hdeferred : (deferJob deps r k job).enabled = true := henabled
  have henabled' : (settledJob r.walkMs (deferJob deps r k job)).enabled = true := henabled
  have hslot : (settledJob r.walkMs (deferJob deps r k job)).slot? =
      some (deferredSlotMs deps r k : Rat) := (settledJob_slot? hdeferred).trans (deferJob_slot? job)
  rcases lt_or_ge r.finishMs (deferredSlotMs deps r k) with hlater | hdue
  · have hnotDue : ¬(deferredSlotMs deps r k : Rat) ≤ r.finishMs := by exact_mod_cast not_le.mpr hlater
    refine iff_of_true ?_ (.inl hlater)
    rw [fullWalk_eq, isDueOrMissing_settledJob henabled' hslot, decide_eq_false hnotDue, Bool.and_false]
    have hkept : (settledJob r.finishMs (settledJob r.walkMs (deferJob deps r k job))).slot? = _ :=
      (settledJob_slot? henabled').trans hslot
    exact CronJob.nextRun_of_slot hkept
  · have hdue' : (deferredSlotMs deps r k : Rat) ≤ r.finishMs := by exact_mod_cast hdue
    rw [or_iff_right (not_lt.mpr hdue)]
    refine fullWalk_keeps henabled' hslot hdue' fun hat hok => absurd hok (hnotOk ?_)
    rwa [show (settledJob r.walkMs (deferJob deps r k job)).schedule =
      anchoredSchedule (deferJob deps r k job) r.walkMs from rfl, isAt_anchored] at hat

-- ---
-- Caught up
-- ---

/-- What a start owes to the jobs it finds missed. -/
structure CaughtUp (deps : CronDeps D) (r : StartRun) (s s' : CronService D) : Prop where
  /-- The plan splits the missed jobs. -/
  partition : ((startPlan deps r s).candidates ++ (startPlan deps r s).deferredJobIds).Perm
    (jobIds (collectRunnableJobs deps.toScheduleEnv r.planMs (interruptedIds s) true (clearedJobs s)))
  nodup : ((startPlan deps r s).candidates ++ (startPlan deps r s).deferredJobIds).Nodup
  bounded : (startPlan deps r s).candidates.length ≤ maxImmediate deps
  /-- The candidates run, each once, and no other job does. -/
  executed : startedIds deps s (startSteps deps r s) = (startPlan deps r s).candidates
  /-- The deferred jobs keep their slots. -/
  deferred : ∀ k id, (startPlan deps r s).deferredJobIds[k]? = some id →
    ∃ job, jobOf id s'.loaded = some job ∧ job.enabled = true ∧
      job.state.nextRunAtMs = some (.ofInt (deferredSlotMs deps r k))
  increasing : ∀ (k k' : Nat) id id' job job', k < k' →
    (startPlan deps r s).deferredJobIds[k]? = some id →
    (startPlan deps r s).deferredJobIds[k']? = some id' → jobOf id s'.loaded = some job →
    jobOf id' s'.loaded = some job' →
    ∃ slot slot', job.slot? = some slot ∧ job'.slot? = some slot' ∧ slot < slot'
  kept : ∀ id ∈ missedAtStart deps r s,
    id ∈ startedIds deps s (startSteps deps r s) ∨ id ∈ jobIds s'.loaded

/-- No two deferred jobs share a slot, and each slot is in the future of the
last walk, or is what the schedule of its job gives there once more. -/
structure SlotsKept (deps : CronDeps D) (r : StartRun) (s : CronService D) : Prop where
  staggered : 0 < startupStaggerMs deps ∨ (startPlan deps r s).deferredJobIds.length ≤ 1
  stands : ∀ k id job, (startPlan deps r s).deferredJobIds[k]? = some id →
    jobOf id s.loaded = some job →
    r.finishMs < deferredSlotMs deps r k ∨
      SlotStands deps.toScheduleEnv (settledJob r.walkMs job) (deferredSlotMs deps r k) r.finishMs

/-- The deferred job at the end of a start. -/
theorem jobOf_started (hnodup : (jobIds s.loaded).Nodup)
    (hid : (startPlan deps r s).deferredJobIds[k]? = some id)
    (hloaded : missedAtStart deps r s ≠ [] → s'.loaded =
      (recomputeNextRuns deps.toScheduleEnv r.finishMs (caughtUpJobs deps r s)).1) :
    ∃ job, jobOf id s.loaded = some job ∧ job.enabled = true ∧
      (isAt job.schedule = true → job.state.lastStatus ≠ some .ok) ∧
      jobOf id s'.loaded = some (fullWalk deps.toScheduleEnv r.finishMs
        (settledJob r.walkMs (deferJob deps r k job))) := by
  have hmissed : id ∈ missedAtStart deps r s := List.mem_of_mem_drop (List.mem_of_getElem? hid)
  obtain ⟨job, hjob, henabled, hnotOk⟩ := missedAtStart_job hnodup hmissed
  refine ⟨job, hjob, henabled, hnotOk, ?_⟩
  rw [hloaded (List.ne_nil_of_mem hmissed), recomputeNextRuns_fst, jobOf_map fun _ => fullWalk_id,
    jobOf_caughtUpJobs hnodup hid hjob henabled]
  rfl

theorem deferredSlotMs_lt (h : 0 < startupStaggerMs deps) (r : StartRun) {k k' : Nat} (hlt : k < k') :
    deferredSlotMs deps r k < deferredSlotMs deps r k' := by
  have hsteps : (k : Int) * startupStaggerMs deps < k' * startupStaggerMs deps :=
    mul_lt_mul_of_pos_right (by exact_mod_cast hlt) h
  unfold deferredSlotMs
  linarith

theorem CaughtUp.slotsKept (hnodup : (jobIds s.loaded).Nodup)
    (hloaded : missedAtStart deps r s ≠ [] → s'.loaded =
      (recomputeNextRuns deps.toScheduleEnv r.finishMs (caughtUpJobs deps r s)).1)
    (h : CaughtUp deps r s s') : SlotsKept deps r s := by
  constructor
  · rcases Nat.lt_or_ge 1 (startPlan deps r s).deferredJobIds.length with hmany | hfew
    · obtain ⟨job, hjob, -, hnext⟩ := h.deferred 0 _ (List.getElem?_eq_getElem (by omega))
      obtain ⟨job', hjob', -, hnext'⟩ := h.deferred 1 _ (List.getElem?_eq_getElem hmany)
      obtain ⟨slot, slot', hslot, hslot', hlt⟩ := h.increasing 0 1 _ _ job job' Nat.zero_lt_one
        (List.getElem?_eq_getElem (by omega)) (List.getElem?_eq_getElem hmany) hjob hjob'
      rw [CronJob.slot?, hnext] at hslot
      rw [CronJob.slot?, hnext'] at hslot'
      cases hslot
      cases hslot'
      have hslots : deferredSlotMs deps r 0 < deferredSlotMs deps r 1 := by exact_mod_cast hlt
      left
      unfold deferredSlotMs at hslots
      push_cast at hslots
      linarith
    · exact .inr hfew
  · intro k id job hid hjob
    obtain ⟨stored, hstored, henabled, hnotOk, hend⟩ := jobOf_started hnodup hid hloaded
    obtain ⟨ended, hended, -, hnext⟩ := h.deferred k id hid
    cases hstored.symm.trans hjob
    cases hended.symm.trans hend
    exact (fullWalk_deferred henabled hnotOk).mp hnext

theorem SlotsKept.caughtUp (hnodup : (jobIds s.loaded).Nodup)
    (hran : Ran deps s (startSteps deps r s) (startPlan deps r s).candidates s')
    (hloaded : missedAtStart deps r s ≠ [] → s'.loaded =
      (recomputeNextRuns deps.toScheduleEnv r.finishMs (caughtUpJobs deps r s)).1)
    (h : SlotsKept deps r s) : CaughtUp deps r s s' := by
  have hsplit : (startPlan deps r s).candidates ++ (startPlan deps r s).deferredJobIds =
      missedAtStart deps r s := List.take_append_drop _ _
  have hdeferred (k : Nat) (id : String) (hid : (startPlan deps r s).deferredJobIds[k]? = some id) :
      ∃ job, jobOf id s'.loaded = some job ∧ job.enabled = true ∧
        job.state.nextRunAtMs = some (.ofInt (deferredSlotMs deps r k)) := by
    obtain ⟨job, hjob, henabled, hnotOk, hend⟩ := jobOf_started hnodup hid hloaded
    have hnext := (fullWalk_deferred henabled hnotOk).mpr (h.stands k id job hid hjob)
    exact ⟨_, hend, fullWalk_enabled henabled hnext, hnext⟩
  refine ⟨?_, ?_, List.length_take_le _ _, hran.started, hdeferred, ?_, ?_⟩
  · rw [hsplit]
    exact (List.perm_insertionSort _ _).map _
  · rw [hsplit]
    exact missedAtStart_nodup hnodup r
  · intro k k' id id' job job' hlt hid hid' hjob hjob'
    obtain ⟨ended, hended, -, hnext⟩ := hdeferred k id hid
    obtain ⟨ended', hended', -, hnext'⟩ := hdeferred k' id' hid'
    cases hended.symm.trans hjob
    cases hended'.symm.trans hjob'
    have hlength := (List.getElem?_eq_some_iff.mp hid').1
    have hstagger : 0 < startupStaggerMs deps := h.staggered.resolve_right (by omega)
    refine ⟨_, _, by rw [CronJob.slot?, hnext]; rfl, by rw [CronJob.slot?, hnext']; rfl, ?_⟩
    exact_mod_cast deferredSlotMs_lt hstagger r hlt
  · intro id hmissed
    rw [hran.started]
    rw [← hsplit] at hmissed
    refine (List.mem_append.mp hmissed).imp_right fun hid => ?_
    obtain ⟨k, hk⟩ := List.getElem?_of_mem hid
    obtain ⟨job, hjob, -⟩ := hdeferred k id hk
    rw [← jobOf_id hjob]
    exact List.mem_map_of_mem (List.mem_of_find?_eq_some hjob)

/-- A start runs to its end. It does what it owes to the missed jobs exactly
when the clock of its last walk leaves the slots of the deferred jobs alone. -/
theorem start_caughtUp_iff (hcron : deps.cronEnabled = true) (hnodup : (jobIds s.loaded).Nodup)
    (r : StartRun) (init : CronService D → Prop) :
    ∃ s', (system deps init).run s (startSteps deps r s) = some s' ∧
      (CaughtUp deps r s s' ↔ SlotsKept deps r s) := by
  obtain ⟨s', hran, hloaded⟩ := start_ran hcron r s
  exact ⟨s', hran.run init, fun h => h.slotsKept hnodup hloaded, fun h => h.caughtUp hnodup hran hloaded⟩

-- ---
-- A slow start
-- ---

/-- The clock of a start does not go back. -/
structure StartRun.Ordered (r : StartRun) : Prop where
  started : ∀ id, r.planMs ≤ (r.candidate id).startMs
  ended : ∀ id, (r.candidate id).startMs ≤ (r.candidate id).endMs
  based : ∀ id, (r.candidate id).endMs ≤ r.baseMs
  walked : r.baseMs ≤ r.walkMs
  finished : r.walkMs ≤ r.finishMs

/-- Each minute, missed since this time. -/
def overdueJob (id : String) (nextRunAtMs : Int) : CronJob Unit :=
  plainJob id (.every (some (.num (.ofInt 60000))) (some (.num (.ofInt 0))))
    { plainState with nextRunAtMs := some (.ofInt nextRunAtMs) }

/-- One missed job more than run at once. -/
def overdueService : CronService Unit :=
  bootService [overdueJob "a" 60000, overdueJob "b" 120000, overdueJob "c" 180000,
    overdueJob "d" 240000, overdueJob "e" 300000, overdueJob "f" 360000]

/-- A start at ten minutes whose last walk comes this late. -/
def startAt (finishMs : Int) : StartRun where
  planMs := 600000
  candidate _ := ⟨600000, .ok, none, 600000⟩
  baseMs := 600000
  walkMs := 600000
  finishMs

theorem start_caughtUp_iff_overdue :
    ∃ s', (system plainDeps fun _ => True).run overdueService
        (startSteps plainDeps (startAt 600000) overdueService) = some s' ∧
      (CaughtUp plainDeps (startAt 600000) overdueService s' ↔
        SlotsKept plainDeps (startAt 600000) overdueService) :=
  start_caughtUp_iff rfl (by decide) (startAt 600000) fun _ => True

theorem overdueService_deferred (finishMs : Int) :
    (startPlan plainDeps (startAt finishMs) overdueService).deferredJobIds = ["f"] := by
  have hsame : startPlan plainDeps (startAt finishMs) overdueService =
      startPlan plainDeps (startAt 600000) overdueService := rfl
  rw [hsame]
  decide

/-- The last walk comes after the slot of the deferred job, and advances it. -/
theorem not_start_caughtUp :
    ¬∀ (r : StartRun) (s s' : CronService Unit), r.Ordered → (jobIds s.loaded).Nodup →
      (system plainDeps fun _ => True).run s (startSteps plainDeps r s) = some s' →
      CaughtUp plainDeps r s s' := by
  intro h
  have hnodup : (jobIds overdueService.loaded).Nodup := by decide
  obtain ⟨s', hran, hloaded⟩ := start_ran (show plainDeps.cronEnabled = true from rfl)
    (startAt 605001) overdueService
  have hordered : (startAt 605001).Ordered :=
    ⟨fun _ => le_rfl, fun _ => le_rfl, fun _ => le_rfl, le_rfl, by decide⟩
  have hcaught := h _ _ _ hordered hnodup (hran.run _)
  have hstands := (hcaught.slotsKept hnodup hloaded).stands 0 "f" (overdueJob "f" 360000)
    (by rw [overdueService_deferred]; rfl) rfl
  obtain hlater | ⟨_, -, hnow, -⟩ := hstands
  · revert hlater
    decide
  · revert hnow
    decide

end OpenClaw.Cron
