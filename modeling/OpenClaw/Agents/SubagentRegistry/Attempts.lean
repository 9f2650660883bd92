import OpenClaw.Agents.SubagentRegistry.Owned
import Mathlib.Data.List.Count

/-!
# No more attempts than the limit

Every announce that fails is counted, unless it is put off for the sake of descendants. As
long as no cleanup fails at its end, a run is announced no more often than that.
-/

namespace OpenClaw.SubagentRegistry

open Transition

variable {Key RunId : Type}

section Frugal

variable {run : Run Key} {entry entry' : Entry Key} {tasks : List Task} {history : List Event}

/-- What was announced of the run so far, as its entry has it. -/
structure Entry.Affords (tasks : List Task) (history : List Event) (entry : Entry Key) : Prop where
  fresh : entry.endedAt = none ∨ entry.suppressAnnounceReason = some .killed → history = [] ∧ entry.announceRetryCount = 0
  free : entry.cleanupCompleted = false → (∀ task ∈ tasks, ¬ task.owns = true) →
    history.count .started = history.count .deferred + entry.announceRetryCount ∧ entry.announceRetryCount < MAX_ANNOUNCE_RETRY_COUNT
  announcing : entry.cleanupCompleted = false → .announcing ∈ tasks →
    history.count .started = history.count .deferred + entry.announceRetryCount + 1 ∧
      entry.announceRetryCount < MAX_ANNOUNCE_RETRY_COUNT

structure Run.Frugal (run : Run Key) : Prop where
  attempts : run.history.count .started ≤ run.history.count .deferred + MAX_ANNOUNCE_RETRY_COUNT
  affords : ∀ entry ∈ run.entry, entry.Affords run.tasks run.history

theorem Entry.Affords.withTasks (h : entry.Affords tasks history) (howns : ∀ task ∈ tasks, task.owns = true → task ∈ tasks')
    (hannouncing : .announcing ∈ tasks' → .announcing ∈ tasks) : entry.Affords tasks' history :=
  ⟨h.fresh, fun hcompleted hnone => h.free hcompleted fun task htask hown => hnone task (howns task htask hown) hown,
    fun hcompleted hmem => h.announcing hcompleted (hannouncing hmem)⟩

/-- A cleanup that is over affords whatever there was. -/
theorem Entry.Affords.completed (h : entry.Affords tasks history) (hcompleted : entry'.cleanupCompleted = true)
    (hfresh : entry'.endedAt = none ∨ entry'.suppressAnnounceReason = some .killed →
      (entry.endedAt = none ∨ entry.suppressAnnounceReason = some .killed) ∧ entry'.announceRetryCount = entry.announceRetryCount) :
    entry'.Affords tasks' history := by
  refine ⟨fun hnew => ?_, fun hnot => ?_, fun hnot => ?_⟩
  · obtain ⟨hold, heq⟩ := hfresh hnew
    exact (h.fresh hold).imp_right heq.trans
  · rw [hcompleted] at hnot
    cases hnot
  · rw [hcompleted] at hnot
    cases hnot

theorem Run.Frugal.keep {run' : Run Key} (h : run.Frugal) (hhistory : run'.history = run.history)
    (hentry : ∀ entry' ∈ run'.entry, ∃ entry ∈ run.entry, entry.Affords run.tasks run.history → entry'.Affords run'.tasks run.history) :
    run'.Frugal := by
  refine ⟨hhistory ▸ h.attempts, fun entry' hsome => ?_⟩
  obtain ⟨entry, hentry, himp⟩ := hentry entry' hsome
  rw [hhistory]
  exact himp (h.affords entry hentry)

theorem Run.Frugal.congr {run' : Run Key} (h : run.Frugal) (hhistory : run'.history = run.history)
    (hentry : run'.entry = run.entry)
    (htasks : run'.tasks = run.tasks) : run'.Frugal :=
  h.keep hhistory fun entry hsome => ⟨entry, hentry ▸ hsome, fun haffords => htasks ▸ haffords⟩

theorem Run.Frugal.gone {run' : Run Key} (h : run.Frugal) (hhistory : run'.history = run.history)
    (hentry : run'.entry = none) :
    run'.Frugal :=
  h.keep hhistory fun entry hsome => by rw [hentry] at hsome; cases hsome

theorem Run.Frugal.addTask (h : run.Frugal) (howns : task.owns = false) : (run.addTask task).Frugal := by
  refine h.keep rfl fun entry hentry => ⟨entry, hentry, fun haffords => haffords.withTasks (fun other hother _ =>
    List.mem_append_left _ hother) fun hmem => ?_⟩
  rcases List.mem_append.1 hmem with hmem | hnew
  · exact hmem
  · rw [← List.mem_singleton.1 hnew] at howns
    cases howns

theorem Run.Frugal.dropTask (h : run.Frugal) (htask : run.tasks[i]? = some task) (howns : task.owns = false) :
    (run.dropTask i).Frugal := by
  obtain ⟨hi, rfl⟩ := List.getElem?_eq_some_iff.1 htask
  refine h.keep rfl fun entry hentry => ⟨entry, hentry, fun haffords => haffords.withTasks (fun other hother hown => ?_) fun hmem =>
    List.eraseIdx_subset hmem⟩
  rcases List.mem_cons.1 ((List.getElem_cons_eraseIdx_perm hi).symm.subset hother) with rfl | hmem
  · rw [howns] at hown
    cases hown
  · exact hmem

theorem Run.Frugal.setTask (h : run.Frugal) (htask : run.tasks[i]? = some task) (howns : task.owns = false)
    (hnew : new.owns = false) : (run.setTask i new).Frugal := by
  have hperm := List.set_perm_cons_eraseIdx (List.getElem?_eq_some_iff.1 htask).1 new
  refine (h.dropTask htask howns).keep rfl fun entry hentry => ⟨entry, hentry, fun haffords => haffords.withTasks
    (fun other hother _ => hperm.symm.subset (List.mem_cons_of_mem _ hother)) fun hmem => ?_⟩
  refine (List.mem_cons.1 (hperm.subset hmem)).resolve_left fun heq => ?_
  rw [← heq] at hnew
  cases hnew

/-- What is known of a run whose cleanup can be begun. -/
theorem Run.Frugal.free (h : run.Frugal) (howned : run.Owned) (hentry : run.entry = some entry)
    (hcompleted : entry.cleanupCompleted = false) (hfree : entry.cleanupHandled = false) :
    run.history.count .started = run.history.count .deferred + entry.announceRetryCount ∧
      entry.announceRetryCount < MAX_ANNOUNCE_RETRY_COUNT :=
  (h.affords entry hentry).free hcompleted ((howned.serves entry hentry).not_owns hfree)

theorem Entry.Serves.not_killed (h : entry.Serves tasks) (hcompleted : entry.cleanupCompleted = false) :
    entry.suppressAnnounceReason ≠ some .killed := fun hkilled => by
  rw [(h.killed hkilled).1] at hcompleted
  cases hcompleted

/-- A run that has ended and is not cleaned up is not a fresh one. -/
theorem not_fresh {P : Prop} (hended : entry.endedAt.isSome = true) (hkilled : entry.suppressAnnounceReason ≠ some .killed) :
    entry.endedAt = none ∨ entry.suppressAnnounceReason = some .killed → P := by
  rintro (hnone | hsome)
  · rw [hnone] at hended
    cases hended
  · exact absurd hsome hkilled

theorem Run.Frugal.start (h : run.Frugal) (howned : run.Owned) (hended : ∀ entry ∈ run.entry, entry.endedAt.isSome = true) :
    run.startSubagentAnnounceCleanupFlow.Frugal := by
  unfold startSubagentAnnounceCleanupFlow
  split
  · rename_i hbegins
    obtain ⟨entry, hentry, hcompleted, hfree⟩ := beginsCleanup_iff.1 hbegins
    obtain ⟨hcount, hlt⟩ := h.free howned hentry hcompleted hfree
    have hstarted : (run.history ++ [Event.started]).count .started = run.history.count .started + 1 := List.count_append ..
    have hdeferred : (run.history ++ [Event.started]).count .deferred = run.history.count .deferred := List.count_append ..
    refine ⟨?_, fun entry' hentry' => ?_⟩
    · dsimp only
      omega
    · dsimp only [mapEntry] at hentry' ⊢
      rw [hentry] at hentry'
      obtain rfl := Option.some.inj hentry'
      refine ⟨not_fresh (hended entry hentry) ((howned.serves entry hentry).not_killed hcompleted), fun _ hnone => ?_, fun _ _ => ?_⟩
      · exact absurd rfl (hnone .announcing (List.mem_append_right _ (List.mem_singleton_self _)))
      · dsimp only
        exact ⟨by omega, hlt⟩
  · exact h

theorem Run.Frugal.resume (h : run.Frugal) (howned : run.Owned) (now : Int) (orphaned : Bool) :
    (run.resumeSubagentRun now orphaned).Frugal := by
  unfold resumeSubagentRun
  split
  · exact h
  split
  · exact h
  rename_i entry hentry
  split
  · exact h.gone rfl rfl
  split
  · exact h
  split
  · exact h.addTask rfl
  split
  · exact h.addTask rfl
  split
  · exact h.congr rfl rfl rfl
  split
  · rename_i hended
    split
    · exact h.congr rfl rfl rfl
    split
    · refine (h.start howned fun entry' hentry' => ?_).congr rfl rfl rfl
      rw [hentry] at hentry'
      exact Option.some.inj hentry' ▸ isSome_of_any hended
    · exact h
  · exact h.congr rfl rfl rfl

theorem Run.Frugal.retryDeferred (h : run.Frugal) (howned : run.Owned) (now : Int) (orphaned : Bool) :
    (run.retryDeferred now orphaned).Frugal := by
  unfold Run.retryDeferred
  split
  · exact h
  rename_i entry hentry
  split
  · exact h
  rename_i hended
  split
  · exact h
  rename_i hfree
  rw [Bool.or_eq_true, not_or, Bool.not_eq_true, Bool.not_eq_true] at hfree
  split
  · exact h
  split
  · have hserves := howned.serves entry hentry
    refine h.keep rfl fun entry' hentry' => ⟨entry, hentry, fun haffords => ?_⟩
    dsimp only [mapEntry, Run.addTask] at hentry' ⊢
    rw [hentry] at hentry'
    obtain rfl := Option.some.inj hentry'
    refine ⟨not_fresh (by simpa [Option.isSome_iff_ne_none] using hended) (hserves.not_killed hfree.1), fun _ hnone => ?_, fun _ hmem => ?_⟩
    · exact absurd rfl (hnone .expiring (List.mem_append_right _ (List.mem_singleton_self _)))
    · rcases List.mem_append.1 hmem with hmem | hnew
      · exact absurd rfl (hserves.not_owns hfree.2 _ hmem)
      · cases List.mem_singleton.1 hnew
  · have hforgotten : ({ run with resumed := false } : Run Key).Frugal := h.congr rfl rfl rfl
    exact hforgotten.resume (howned.congr rfl rfl) now orphaned

theorem Run.Frugal.complete (h : run.Frugal) (howned : run.Owned) (endedAt : Int) (outcome : Outcome)
    (reason : EndedReason) :
    (run.completeSubagentRun endedAt outcome reason).Frugal := by
  unfold Run.completeSubagentRun
  split
  · exact h
  rename_i entry hentry
  have hserves := howned.serves entry hentry
  refine h.keep rfl fun entry' hentry' => ⟨entry, hentry, fun haffords => ?_⟩
  obtain rfl := Option.some.inj hentry'
  have hannouncing : Task.announcing ∈ run.tasks ++ [.completing reason] → Task.announcing ∈ run.tasks := by
    intro hmem
    rcases List.mem_append.1 hmem with hmem | hnew
    · exact hmem
    · cases List.mem_singleton.1 hnew
  dsimp only
  split
  · rename_i hreset
    -- it was killed, and is taken up as if it had never been announced
    obtain ⟨hnil, hretry⟩ := haffords.fresh (.inr hreset.2.1)
    refine ⟨fun _ => ⟨hnil, hretry⟩, fun _ _ => ?_, fun _ hmem => ?_⟩
    · dsimp only
      rw [hnil, hretry]
      exact ⟨rfl, by decide⟩
    · exact absurd hreset.2.1 (hserves.handled _ (hannouncing hmem) rfl).2
  · refine ⟨fun hfresh => haffords.fresh (.inr (hfresh.resolve_left fun hnone => nomatch hnone)), fun hcompleted hnone => ?_,
      fun hcompleted hmem => haffords.announcing hcompleted (hannouncing hmem)⟩
    exact haffords.free hcompleted fun task htask => hnone task (List.mem_append_left _ htask)

theorem Run.Frugal.completeCleanup {run' : Run Key} (h : run.Frugal) (hhistory : run'.history = run.history)
    (hentry : run'.entry = run.entry) : run'.completeCleanup.Frugal := by
  unfold Run.completeCleanup
  split
  · exact h.gone hhistory (by assumption)
  rename_i entry hsome
  split
  · exact h.gone hhistory rfl
  · refine h.keep hhistory fun entry' hentry' => ⟨entry, hentry ▸ hsome, fun haffords => ?_⟩
    dsimp only [mapEntry] at hentry'
    rw [hsome] at hentry'
    obtain rfl := Option.some.inj hentry'
    exact haffords.completed rfl fun hfresh => ⟨hfresh, rfl⟩

theorem retry_of_decision {now : Int}
    (h : resolveDeferredCleanupDecision entry now activeDescendantRuns = .retry retryCount resumeDelayMs) :
    retryCount = entry.announceRetryCount + 1 ∧ retryCount < MAX_ANNOUNCE_RETRY_COUNT ∧
      (entry.expectsCompletionMessage = true → resumeDelayMs.isSome = true) := by
  unfold resolveDeferredCleanupDecision at h
  dsimp only at h
  generalize (if entry.expectsCompletionMessage = true then _ else _) = expiryExceeded at h
  by_cases hdescendants : entry.expectsCompletionMessage = true ∧ 0 < activeDescendantRuns
  · rw [if_pos hdescendants] at h
    split at h <;> cases h
  · rw [if_neg hdescendants] at h
    by_cases hover : MAX_ANNOUNCE_RETRY_COUNT ≤ entry.announceRetryCount + 1 ∨ expiryExceeded = true
    · rw [if_pos hover] at h
      cases h
    · rw [if_neg hover] at h
      rw [not_or, Nat.not_le] at hover
      cases h
      exact ⟨rfl, hover.1, fun hexpects => by rw [if_pos hexpects]; rfl⟩

/-- What a settled announce leaves behind: nothing is announced any more. -/
theorem Run.Owned.not_announcing (h : run.Owned) (htask : run.tasks[i]? = some .announcing) (hne : new ≠ .announcing) :
    .announcing ∉ run.tasks.set i new := by
  intro hmem
  rcases List.mem_cons.1 ((List.set_perm_cons_eraseIdx (List.getElem?_eq_some_iff.1 htask).1 new).subset hmem) with heq | hmem
  · exact hne heq.symm
  · exact h.not_owns htask rfl _ hmem rfl

/-- An announce that is settled for good. -/
theorem Run.Frugal.finalizing (h : run.Frugal) (howned : run.Owned) (htask : run.tasks[i]? = some .announcing)
    (hentry : run.entry = some entry) (hended : entry'.endedAt = entry.endedAt)
    (hsuppress : entry'.suppressAnnounceReason = entry.suppressAnnounceReason) (didAnnounce : Bool) :
    ({ run with
      history := run.history ++ [.settled didAnnounce]
      entry := some entry'
      tasks := run.tasks.set i (.finalizing didAnnounce) } : Run Key).Frugal := by
  have hserves := howned.serves entry hentry
  have hmem := List.mem_of_getElem? htask
  have hstarted : (run.history ++ [Event.settled didAnnounce]).count .started = run.history.count .started := List.count_append ..
  have hdeferred : (run.history ++ [Event.settled didAnnounce]).count .deferred = run.history.count .deferred := List.count_append ..
  refine ⟨?_, fun other hother => ?_⟩
  · dsimp only
    rw [hstarted, hdeferred]
    exact h.attempts
  · obtain rfl := Option.some.inj hother
    refine ⟨not_fresh ?_ ?_, fun _ hnone => ?_, fun _ hannouncing => ?_⟩
    · rw [hended]
      exact hserves.ended _ hmem fun heq => nomatch heq
    · rw [hsuppress]
      exact (hserves.handled _ hmem rfl).2
    · exact absurd rfl (hnone _ (List.mem_set (List.getElem?_eq_some_iff.1 htask).1 _))
    · exact absurd hannouncing (howned.not_announcing htask fun heq => nomatch heq)

theorem Run.Frugal.settleAnnounce (h : run.Frugal) (howned : run.Owned) (htask : run.tasks[i]? = some .announcing)
    (didAnnounce : Bool) (now : Int) (activeDescendantRuns : Nat) :
    (run.settleAnnounce i didAnnounce false now activeDescendantRuns).Frugal := by
  have hstarted : (run.history ++ [Event.settled didAnnounce]).count .started = run.history.count .started := List.count_append ..
  have hdeferred : (run.history ++ [Event.settled didAnnounce]).count .deferred = run.history.count .deferred := List.count_append ..
  have hattempts := h.attempts
  have hmem := List.mem_of_getElem? htask
  have hnone := howned.not_owns htask rfl
  unfold Run.settleAnnounce
  dsimp only
  split
  · rename_i hentry
    refine ⟨?_, fun entry hsome => ?_⟩
    · dsimp only [Run.dropTask]
      rw [hstarted, hdeferred]
      exact hattempts
    · rw [Run.dropTask, hentry] at hsome
      cases hsome
  rename_i entry hentry
  have hserves := howned.serves entry hentry
  have hended := hserves.ended _ hmem fun heq => nomatch heq
  have hkilled := (hserves.handled _ hmem rfl).2
  have hsettled := (h.affords entry hentry).announcing
  split
  · rename_i htrue
    subst htrue
    exact (h.finalizing howned htask hentry rfl rfl true).congr rfl hentry rfl
  rename_i hfalse
  obtain rfl : didAnnounce = false := Bool.not_eq_true _ ▸ hfalse
  split
  · -- it is put off, and so counts as if it had not been started
    have hput : (run.history ++ [Event.settled false] ++ [Event.deferred]).count .started = run.history.count .started := by
      rw [List.count_append, hstarted]
      rfl
    have hput' :
    (run.history ++ [Event.settled false] ++ [Event.deferred]).count .deferred = run.history.count .deferred + 1 := by
      rw [List.count_append, hdeferred]
      rfl
    refine ⟨?_, fun entry' hentry' => ?_⟩
    · dsimp only
      omega
    · obtain rfl := Option.some.inj hentry'
      refine ⟨not_fresh hended hkilled, fun hcompleted _ => ?_, fun _ hannouncing => absurd rfl (hnone _ hannouncing)⟩
      obtain ⟨hcount, hlt⟩ := hsettled hcompleted hmem
      dsimp only
      exact ⟨by omega, hlt⟩
  · rename_i retryCount _
    rw [if_neg Bool.false_ne_true]
    have hfields : (entry.recordRetry retryCount now).endedAt = entry.endedAt ∧
        (entry.recordRetry retryCount now).suppressAnnounceReason = entry.suppressAnnounceReason := by
      cases retryCount <;> exact ⟨rfl, rfl⟩
    exact h.finalizing howned htask hentry hfields.1 hfields.2 false
  · rename_i retryCount resumeDelayMs hdecision
    obtain ⟨rfl, hlt, -⟩ := retry_of_decision hdecision
    refine ⟨?_, fun entry' hentry' => ?_⟩
    · dsimp only [Run.dropTask]
      rw [hstarted, hdeferred]
      exact hattempts
    · obtain rfl := Option.some.inj hentry'
      refine ⟨not_fresh hended hkilled, fun hcompleted _ => ?_, fun _ hannouncing => absurd rfl (hnone _ hannouncing)⟩
      obtain ⟨hcount, -⟩ := hsettled hcompleted hmem
      dsimp only [Run.dropTask, Entry.recordRetry]
      rw [hstarted, hdeferred]
      exact ⟨hcount, hlt⟩

theorem Run.Frugal.continueComplete (h : run.Frugal) (howned : run.Owned)
    (htask : run.tasks[i]? = some (.completing reason)) :
    (run.continueComplete i reason).Frugal := by
  have hdropped := h.dropTask htask rfl
  unfold Run.continueComplete
  split
  · exact hdropped
  split
  · exact hdropped
  split
  · exact h.setTask htask rfl rfl
  · exact hdropped.start (howned.dropTask i) (howned.ended htask fun heq => nomatch heq)

theorem Run.Frugal.continueEndedHook (h : run.Frugal) (howned : run.Owned) (htask : run.tasks[i]? = some .endedHook)
    (hookThrows : Bool) : (run.continueEndedHook i hookThrows).Frugal := by
  have hdropped := h.dropTask htask rfl
  unfold Run.continueEndedHook
  split
  · exact hdropped
  · exact hdropped.start (howned.dropTask i) (howned.ended htask fun heq => nomatch heq)

theorem Run.Frugal.markSteerRestart (h : run.Frugal) : run.markSubagentRunForSteerRestart.Frugal := by
  refine h.keep rfl fun entry' hentry' => ?_
  obtain ⟨entry, hentry, rfl⟩ := Option.map_eq_some_iff.1 hentry'
  refine ⟨entry, hentry, fun haffords => ⟨fun hfresh => haffords.fresh (.inl ?_), haffords.free, haffords.announcing⟩⟩
  exact hfresh.resolve_right fun hkilled => nomatch hkilled

theorem Run.Frugal.clearSteerRestart (h : run.Frugal) (howned : run.Owned) (now : Int) (orphaned : Bool) :
    (run.clearSubagentRunSteerRestart now orphaned).Frugal := by
  unfold clearSubagentRunSteerRestart
  split
  · exact h
  rename_i entry hentry
  split
  · have hcleared : ({ run with
        entry := some { entry with suppressAnnounceReason := none }
        resumed := false } : Run Key).Frugal := by
      refine h.keep rfl fun entry' hentry' => ⟨entry, hentry, fun haffords => ?_⟩
      obtain rfl := Option.some.inj hentry'
      refine ⟨fun hfresh => haffords.fresh (.inl ?_), haffords.free, haffords.announcing⟩
      exact hfresh.resolve_right fun hkilled => nomatch hkilled
    have howned' : ({ run with entry := some { entry with suppressAnnounceReason := none } } : Run Key).Owned :=
      howned.change hentry rfl id (fun hkilled => nomatch hkilled) rfl
    dsimp only
    split
    · exact hcleared.resume (howned'.congr rfl rfl) now orphaned
    · exact hcleared
  · exact h

theorem Run.Frugal.terminate (h : run.Frugal) (now : Int) : (run.terminate now).Frugal := by
  refine h.keep rfl fun entry' hentry' => ?_
  obtain ⟨entry, hentry, rfl⟩ := Option.map_eq_some_iff.1 hentry'
  refine ⟨entry, hentry, fun haffords => ?_⟩
  split
  · exact haffords
  · rename_i hrunning
    refine haffords.completed rfl fun _ => ⟨.inl ?_, rfl⟩
    simpa using hrunning

theorem Run.Frugal.timer (h : run.Frugal) (howned : run.Owned) (i : Nat) (timer : Timer) (now : Int) (orphaned : Bool) :
    (run.fireTimer i timer now orphaned).Frugal := by
  have hfired : ({ run with
      timers := run.timers.eraseIdx i
      resumed := if timer.backoff then false else run.resumed } : Run Key).Frugal := h.congr rfl rfl rfl
  exact hfired.resume (howned.congr rfl rfl) now orphaned

theorem Run.Frugal.moves {run' : Run Key} (h : run.Frugal) (howned : run.Owned)
    (hmoves : Run.Moves (fun _ => False) ends run run') : run'.Frugal := by
  cases hmoves with
  | register =>
    refine ⟨Nat.zero_le _, fun entry hentry => ?_⟩
    obtain rfl := Option.some.inj hentry
    exact ⟨fun _ => ⟨rfl, rfl⟩, fun _ _ => ⟨rfl, Nat.zero_lt_succ _⟩, fun _ hmem => nomatch hmem⟩
  | remove => exact h.gone rfl rfl
  | setPending endedAt => exact h.congr rfl rfl rfl
  | complete outcome reason hends => exact h.complete howned ..
  | continueComplete htask => exact h.continueComplete howned htask
  | continueEndedHook htask hookThrows => exact h.continueEndedHook howned htask hookThrows
  | settleAnnounce htask didAnnounce hfails =>
    rw [Bool.eq_false_iff.2 hfails]
    exact h.settleAnnounce howned htask didAnnounce ..
  | failCleanup htask hcleanup hfails => exact hfails.elim
  | finishCleanup htask hcleanup => exact h.completeCleanup rfl rfl
  | completeCleanup => exact h.completeCleanup rfl rfl
  | retryDeferred now orphaned => exact h.retryDeferred howned now orphaned
  | markSteerRestart => exact h.markSteerRestart
  | clearSteerRestart now orphaned => exact h.clearSteerRestart howned now orphaned
  | terminate now => exact h.terminate now
  | timer i htimer now orphaned => exact h.timer howned i _ now orphaned

end Frugal

end OpenClaw.SubagentRegistry
