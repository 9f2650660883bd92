import OpenClaw.Agents.SubagentRegistry.Attempts

/-!
# No run is left behind

As long as no cleanup fails at its end, a run that has ended and waits to be announced is
attended to: something is under way for it, or a timer will try again.
-/

namespace OpenClaw.SubagentRegistry

open Transition

variable {Key RunId : Type}

section Attended

variable {run : Run Key} {entry entry' : Entry Key} {tasks : List Task} {now : Int}

/-- A run that has ended, and whose completion message is due. -/
structure Entry.Waits (entry : Entry Key) : Prop where
  expects : entry.expectsCompletionMessage = true
  ended : entry.endedAt.isSome = true
  suppressed : entry.suppressAnnounceForSteerRestart = false
  completed : entry.cleanupCompleted = false

structure Entry.Kept (tasks : List Task) (entry : Entry Key) : Prop where
  held : entry.cleanupHandled = true → entry.cleanupCompleted = false → ∃ task ∈ tasks, task.owns = true
  positive : entry.cleanupCompleted = false → ∀ endedAt ∈ entry.endedAt, 0 < endedAt
  hook : .endedHook ∈ tasks → entry.expectsCompletionMessage = false

/-- Something is under way, or a timer is set that is not in vain. -/
def Run.Attending (run : Run Key) : Prop :=
  run.tasks ≠ [] ∨ ∃ timer ∈ run.timers, timer.backoff = true ∨ run.resumed = false

structure Run.Attended (run : Run Key) : Prop where
  kept : ∀ entry ∈ run.entry, entry.Kept run.tasks
  attending : ∀ entry ∈ run.entry, entry.Waits → run.Attending

/-- The cleanup has been attempted: it is under way, or it is too early for it. A run that has lost its session is dropped. -/
def Run.Attempted (now : Int) (run : Run Key) : Prop :=
  run.entry = none ∨ run.tasks ≠ [] ∨ ∃ timer ∈ run.timers, timer.backoff = true ∧ now < timer.dueMs

theorem Run.Attempted.attending (h : run.Attempted now) (hentry : run.entry = some entry) : run.Attending := by
  rcases h with hnone | htasks | ⟨timer, hmem, hbackoff, -⟩
  · rw [hentry] at hnone
    cases hnone
  · exact .inl htasks
  · exact .inr ⟨timer, hmem, .inl hbackoff⟩

theorem ne_nil_of_add (tasks : List Task) (task : Task) : tasks ++ [task] ≠ [] := fun h =>
  nomatch (List.append_eq_nil_iff.1 h).2

theorem ne_nil_of_owner (h : ∃ task ∈ tasks, task.owns = true) : tasks ≠ [] := by
  obtain ⟨task, hmem, -⟩ := h
  exact List.ne_nil_of_mem hmem

theorem Entry.Kept.add (h : entry.Kept tasks) (hne : task = .endedHook → entry.expectsCompletionMessage = false) :
    entry.Kept (tasks ++ [task]) := by
  refine ⟨fun hhandled hcompleted => ?_, h.positive, fun hmem => ?_⟩
  · obtain ⟨owner, hmem, howns⟩ := h.held hhandled hcompleted
    exact ⟨owner, List.mem_append_left _ hmem, howns⟩
  · rcases List.mem_append.1 hmem with hmem | hnew
    · exact h.hook hmem
    · exact hne (List.mem_singleton.1 hnew).symm

/-- A cleanup that begins. -/
theorem Entry.Kept.begin (h : entry.Kept tasks) (howns : task.owns = true) :
    ({ entry with cleanupHandled := true } : Entry Key).Kept (tasks ++ [task]) := by
  refine ⟨fun _ _ => ⟨task, List.mem_append_right _ (List.mem_singleton_self _), howns⟩, h.positive, fun hmem => ?_⟩
  rcases List.mem_append.1 hmem with hmem | hnew
  · exact h.hook hmem
  · rw [← List.mem_singleton.1 hnew] at howns
    cases howns

/-- A task is dropped that owns nothing. -/
theorem Entry.Kept.drop (h : entry.Kept tasks) (htask : tasks[i]? = some task) (howns : task.owns = false) :
    entry.Kept (tasks.eraseIdx i) := by
  refine ⟨fun hhandled hcompleted => ?_, h.positive, fun hmem => h.hook (List.eraseIdx_subset hmem)⟩
  obtain ⟨owner, hmem, howner⟩ := h.held hhandled hcompleted
  obtain ⟨hi, rfl⟩ := List.getElem?_eq_some_iff.1 htask
  refine ⟨owner, (List.mem_cons.1 ((List.getElem_cons_eraseIdx_perm hi).symm.subset hmem)).resolve_left fun heq => ?_, howner⟩
  rw [← heq, howner] at howns
  cases howns

/-- The cleanup has not been begun, or may be had again. -/
theorem Entry.Kept.released (h : entry.Kept tasks) (hsub : tasks' ⊆ tasks) (hhandled : entry'.cleanupHandled = false)
    (hended : entry'.endedAt = entry.endedAt) (hcompleted : entry'.cleanupCompleted = entry.cleanupCompleted)
    (hexpects : entry'.expectsCompletionMessage = entry.expectsCompletionMessage) : entry'.Kept tasks' := by
  refine ⟨fun hnot => ?_, fun hnot => ?_, fun hmem => ?_⟩
  · rw [hhandled] at hnot
    cases hnot
  · rw [hended]
    exact h.positive (hcompleted ▸ hnot)
  · rw [hexpects]
    exact h.hook (hsub hmem)

/-- The cleanup is over. -/
theorem Entry.Kept.over (h : entry.Kept tasks) (hsub : tasks' ⊆ tasks) (hcompleted : entry'.cleanupCompleted = true)
    (hexpects : entry'.expectsCompletionMessage = entry.expectsCompletionMessage) : entry'.Kept tasks' := by
  refine ⟨fun _ hnot => ?_, fun hnot => ?_, fun hmem => ?_⟩
  · rw [hcompleted] at hnot
    cases hnot
  · rw [hcompleted] at hnot
    cases hnot
  · rw [hexpects]
    exact h.hook (hsub hmem)

theorem Run.attended_of_none (hentry : run.entry = none) : run.Attended := by
  refine ⟨fun entry hsome => ?_, fun entry hsome => ?_⟩ <;>
  · rw [hentry] at hsome
    cases hsome

theorem Run.Attended.congr {run' : Run Key} (h : run.Attended) (hentry : run'.entry = run.entry)
    (htasks : run'.tasks = run.tasks)
    (htimers : run'.timers = run.timers) (hresumed : run'.resumed = run.resumed) : run'.Attended := by
  obtain ⟨entry, resumed, pendingError, tasks, timers, history⟩ := run'
  subst hentry htasks htimers hresumed
  exact ⟨h.kept, h.attending⟩

/-- A run that does not begin its cleanup now is cleaned up, or someone is at it. -/
theorem Run.held_of_not_begins (hkept : entry.Kept run.tasks) (hentry : run.entry = some entry)
    (hnot : ¬ run.beginsCleanup = true)
    (hcompleted : entry.cleanupCompleted = false) : run.tasks ≠ [] := by
  refine ne_nil_of_owner (hkept.held ?_ hcompleted)
  by_contra hfree
  exact hnot (beginsCleanup_iff.2 ⟨entry, hentry, hcompleted, Bool.not_eq_true _ ▸ hfree⟩)

theorem Run.start_attended (hkept : ∀ entry ∈ run.entry, entry.Kept run.tasks) :
    run.startSubagentAnnounceCleanupFlow.Attended := by
  unfold startSubagentAnnounceCleanupFlow
  split
  · refine ⟨fun entry' hentry' => ?_, fun _ _ _ => .inl (ne_nil_of_add _ _)⟩
    obtain ⟨entry, hentry, rfl⟩ := Option.map_eq_some_iff.1 hentry'
    exact (hkept entry hentry).begin rfl
  · rename_i hnot
    exact ⟨hkept, fun entry hentry hwaits => .inl (held_of_not_begins (hkept entry hentry) hentry hnot hwaits.completed)⟩

/-- A run that is resumed is attempted, if it waits. -/
theorem Run.resume_attempted (hresumed : run.resumed = false) (hentry : run.entry = some entry)
    (hkept : entry.Kept run.tasks)
    (hwaits : entry.Waits) (now : Int) (orphaned : Bool) : (run.resumeSubagentRun now orphaned).Attempted now := by
  have hpositive : entry.endedAt.any (0 < ·) = true := by
    obtain ⟨endedAt, hended⟩ := Option.isSome_iff_exists.1 hwaits.ended
    rw [hended]
    exact decide_eq_true (hkept.positive hwaits.completed endedAt hended)
  unfold resumeSubagentRun
  rw [hresumed, if_neg Bool.false_ne_true, hentry]
  dsimp only
  split
  · exact .inl rfl
  rw [hwaits.completed, if_neg Bool.false_ne_true]
  split
  · exact .inr (.inl (ne_nil_of_add _ _))
  split
  · exact .inr (.inl (ne_nil_of_add _ _))
  split
  · rename_i earliestRetryAt hbacksOff
    refine .inr (.inr ⟨⟨true, earliestRetryAt⟩, List.mem_append_right _ (List.mem_singleton_self _), rfl, ?_⟩)
    unfold backsOff at hbacksOff
    split at hbacksOff
    · cases hbacksOff
    · obtain ⟨hearly, heq⟩ := Option.ite_none_right_eq_some.1 hbacksOff
      exact Option.some.inj heq ▸ hearly.2
  rw [hwaits.suppressed, if_neg Bool.false_ne_true]
  split
  · rename_i hbegins
    refine .inr (.inl ?_)
    rw [startSubagentAnnounceCleanupFlow, if_pos hbegins]
    exact ne_nil_of_add _ _
  · rename_i hnot
    exact .inr (.inl (held_of_not_begins hkept hentry hnot hwaits.completed))

theorem Run.resume_kept (hkept : ∀ entry ∈ run.entry, entry.Kept run.tasks) (now : Int) (orphaned : Bool) :
    ∀ entry' ∈ (run.resumeSubagentRun now orphaned).entry, entry'.Kept (run.resumeSubagentRun now orphaned).tasks ∧
      ∃ entry ∈ run.entry, entry'.Waits → entry.Waits := by
  have hsame : ∀ entry' ∈ run.entry, entry'.Kept run.tasks ∧ ∃ entry ∈ run.entry, entry'.Waits → entry.Waits :=
    fun entry hentry => ⟨hkept entry hentry, entry, hentry, id⟩
  have hgivingUp : ∀ entry' ∈ run.entry, entry'.Kept (run.tasks ++ [.givingUp]) ∧ ∃ entry ∈ run.entry, entry'.Waits → entry.Waits :=
    fun entry hentry => ⟨(hkept entry hentry).add fun heq => (nomatch heq), entry, hentry, id⟩
  unfold resumeSubagentRun
  split
  · exact hsame
  split
  · exact hsame
  split
  · exact fun _ hnone => nomatch hnone
  split
  · exact hsame
  split
  · exact hgivingUp
  split
  · exact hgivingUp
  split
  · exact hsame
  split
  · split
    · exact hsame
    split
    · rename_i hbegins
      rw [startSubagentAnnounceCleanupFlow, if_pos hbegins]
      intro entry' hentry'
      obtain ⟨entry, hentry, rfl⟩ := Option.map_eq_some_iff.1 hentry'
      exact ⟨(hkept entry hentry).begin rfl, entry, hentry, fun hwaits => ⟨hwaits.expects, hwaits.ended, hwaits.suppressed, hwaits.completed⟩⟩
    · exact hsame
  · exact hsame

/-- Whatever was done for it before, a run that is resumed is attended to. -/
theorem Run.resume_attended (hkept : ∀ entry ∈ run.entry, entry.Kept run.tasks) (hresumed : run.resumed = false) (now : Int)
    (orphaned : Bool) : (run.resumeSubagentRun now orphaned).Attended := by
  refine ⟨fun entry' hentry' => (resume_kept hkept now orphaned entry' hentry').1, fun entry' hentry' hwaits => ?_⟩
  obtain ⟨-, entry, hentry, himp⟩ := resume_kept hkept now orphaned entry' hentry'
  exact (resume_attempted hresumed hentry (hkept entry hentry) (himp hwaits) now orphaned).attending hentry'

theorem Run.Attended.retryDeferred (h : run.Attended) (now : Int) (orphaned : Bool) :
    (run.retryDeferred now orphaned).Attended := by
  unfold Run.retryDeferred
  split
  · exact h
  split
  · exact h
  split
  · exact h
  split
  · exact h
  split
  · refine ⟨fun entry' hentry' => ?_, fun _ _ _ => .inl (ne_nil_of_add _ _)⟩
    obtain ⟨entry, hentry, rfl⟩ := Option.map_eq_some_iff.1 hentry'
    exact (h.kept entry hentry).begin rfl
  · have hresumed : (({ run with resumed := false } : Run Key).resumeSubagentRun now orphaned).Attended :=
      resume_attended (by exact h.kept) rfl now orphaned
    exact hresumed

theorem Run.Attended.complete (h : run.Attended) (hends : 0 < endedAt) (outcome : Outcome) (reason : EndedReason) :
    (run.completeSubagentRun endedAt outcome reason).Attended := by
  unfold Run.completeSubagentRun
  split
  · exact h
  rename_i entry hentry
  have hkept := h.kept entry hentry
  refine ⟨fun entry' hentry' => ?_, fun _ _ _ => .inl (ne_nil_of_add _ _)⟩
  obtain rfl := Option.some.inj hentry'
  refine Entry.Kept.add ?_ fun heq => nomatch heq
  refine ⟨fun hhandled hcompleted => ?_, fun _ other hother => Option.some.inj hother ▸ hends, fun hmem => ?_⟩
  · dsimp only at hhandled hcompleted
    split at hhandled
    · cases hhandled
    · rename_i hreset
      rw [if_neg hreset] at hcompleted
      exact hkept.held hhandled hcompleted
  · have hexpects := hkept.hook hmem
    dsimp only
    split <;> exact hexpects

theorem Run.Attended.continueComplete (h : run.Attended) (htask : run.tasks[i]? = some (.completing reason)) :
    (run.continueComplete i reason).Attended := by
  have hdropped : ∀ entry ∈ run.entry, entry.Kept (run.tasks.eraseIdx i) := fun entry hentry => (h.kept entry hentry).drop htask rfl
  unfold Run.continueComplete
  split
  · rename_i hentry
    exact attended_of_none hentry
  rename_i entry hentry
  split
  · rename_i hsuppressed
    refine ⟨hdropped, fun entry' hentry' hwaits => ?_⟩
    obtain rfl := Option.some.inj (hentry.symm.trans hentry')
    rw [hwaits.suppressed] at hsuppressed
    cases hsuppressed
  split
  · rename_i hhook
    have hexpects : entry.expectsCompletionMessage = false := by simpa using hhook.2
    have hperm := List.set_perm_cons_eraseIdx (List.getElem?_eq_some_iff.1 htask).1 Task.endedHook
    refine ⟨fun entry' hentry' => ?_, fun entry' hentry' hwaits => ?_⟩
    · obtain rfl := Option.some.inj (hentry.symm.trans hentry')
      have hkept := hdropped entry hentry
      refine ⟨fun hhandled hcompleted => ?_, hkept.positive, fun _ => hexpects⟩
      obtain ⟨owner, hmem, howns⟩ := hkept.held hhandled hcompleted
      exact ⟨owner, hperm.symm.subset (List.mem_cons_of_mem _ hmem), howns⟩
    · obtain rfl := Option.some.inj (hentry.symm.trans hentry')
      rw [hwaits.expects] at hexpects
      cases hexpects
  · exact start_attended hdropped

theorem Run.Attended.continueEndedHook (h : run.Attended) (htask : run.tasks[i]? = some .endedHook) (hookThrows : Bool) :
    (run.continueEndedHook i hookThrows).Attended := by
  have hdropped : ∀ entry ∈ run.entry, entry.Kept (run.tasks.eraseIdx i) := fun entry hentry => (h.kept entry hentry).drop htask rfl
  unfold Run.continueEndedHook
  split
  · refine ⟨hdropped, fun entry hentry hwaits => ?_⟩
    have hexpects := (h.kept entry hentry).hook (List.mem_of_getElem? htask)
    rw [hwaits.expects] at hexpects
    cases hexpects
  · exact start_attended hdropped

theorem Run.Attended.completeCleanup {run' : Run Key} (h : run.Attended) (hentry : run'.entry = run.entry)
    (hsub : run'.tasks ⊆ run.tasks) : run'.completeCleanup.Attended := by
  unfold Run.completeCleanup
  split
  · exact attended_of_none (by assumption)
  rename_i entry hsome
  split
  · exact attended_of_none rfl
  · have hover : ∀ entry' ∈ (run'.mapEntry fun entry => { entry with cleanupCompleted := true }).entry,
        entry' = { entry with cleanupCompleted := true } := by
      intro entry' hentry'
      rw [mapEntry, hsome] at hentry'
      exact (Option.some.inj hentry').symm
    refine ⟨fun entry' hentry' => ?_, fun entry' hentry' hwaits => ?_⟩
    · rw [hover entry' hentry']
      exact (h.kept entry (hentry ▸ hsome)).over hsub rfl rfl
    · have hcompleted := hwaits.completed
      rw [hover entry' hentry'] at hcompleted
      cases hcompleted

/-- An announce that is settled for good. -/
theorem Run.finalizing_attended {run' : Run Key} (hkept : ∀ entry ∈ run.entry, entry.Kept run.tasks)
    (htask : run.tasks[i]? = some .announcing) (hentry : ∀ entry' ∈ run'.entry, ∃ entry ∈ run.entry,
      entry'.cleanupCompleted = entry.cleanupCompleted ∧ entry'.endedAt = entry.endedAt ∧
        entry'.expectsCompletionMessage = entry.expectsCompletionMessage)
    (htasks : run'.tasks = run.tasks.set i (.finalizing didAnnounce)) : run'.Attended := by
  have hmem : Task.finalizing didAnnounce ∈ run'.tasks := htasks ▸ List.mem_set (List.getElem?_eq_some_iff.1 htask).1 _
  refine ⟨fun entry' hentry' => ?_, fun _ _ _ => .inl (List.ne_nil_of_mem hmem)⟩
  obtain ⟨entry, hsome, hcompleted, hended, hexpects⟩ := hentry entry' hentry'
  have hkept := hkept entry hsome
  refine ⟨fun _ _ => ⟨_, hmem, rfl⟩, fun hnot => ?_, fun hhook => ?_⟩
  · rw [hended]
    exact hkept.positive (hcompleted ▸ hnot)
  · rw [hexpects]
    rw [htasks] at hhook
    exact hkept.hook ((List.mem_or_eq_of_mem_set hhook).resolve_right fun heq => nomatch heq)

theorem Run.Attended.settleAnnounce (h : run.Attended) (htask : run.tasks[i]? = some .announcing)
    (didAnnounce : Bool) (now : Int) (activeDescendantRuns : Nat) :
    (run.settleAnnounce i didAnnounce false now activeDescendantRuns).Attended := by
  unfold Run.settleAnnounce
  dsimp only
  split
  · exact attended_of_none (by assumption)
  rename_i entry hentry
  have hkept := h.kept entry hentry
  split
  · rename_i htrue
    subst htrue
    exact finalizing_attended h.kept htask (fun entry' hentry' => ⟨entry', hentry', rfl, rfl, rfl⟩) rfl
  split
  · refine ⟨fun entry' hentry' => ?_, fun _ _ _ =>
      .inr ⟨_, List.mem_append_right _ (List.mem_singleton_self _), .inr rfl⟩⟩
    obtain rfl := Option.some.inj hentry'
    exact hkept.released (List.eraseIdx_subset ..) rfl rfl rfl rfl
  · rename_i retryCount _
    rw [if_neg Bool.false_ne_true]
    refine finalizing_attended h.kept htask (fun entry' hentry' => ⟨entry, hentry, ?_⟩) rfl
    obtain rfl := Option.some.inj hentry'
    cases retryCount <;> exact ⟨rfl, rfl, rfl⟩
  · rename_i retryCount resumeDelayMs hdecision
    refine ⟨fun entry' hentry' => ?_, fun entry' hentry' hwaits => ?_⟩
    · obtain rfl := Option.some.inj hentry'
      exact hkept.released (List.eraseIdx_subset ..) rfl rfl rfl rfl
    · obtain rfl := Option.some.inj hentry'
      obtain ⟨delayMs, rfl⟩ := Option.isSome_iff_exists.1 ((retry_of_decision hdecision).2.2 hwaits.expects)
      exact .inr ⟨⟨false, now + delayMs⟩, List.mem_append_right _ (List.mem_singleton_self _), .inr rfl⟩

theorem Run.Attended.markSteerRestart (h : run.Attended) : run.markSubagentRunForSteerRestart.Attended := by
  refine ⟨fun entry' hentry' => ?_, fun entry' hentry' hwaits => ?_⟩
  · obtain ⟨entry, hentry, rfl⟩ := Option.map_eq_some_iff.1 hentry'
    have hkept := h.kept entry hentry
    exact ⟨hkept.held, hkept.positive, hkept.hook⟩
  · obtain ⟨entry, hentry, rfl⟩ := Option.map_eq_some_iff.1 hentry'
    cases hwaits.suppressed

theorem Run.Attended.clearSteerRestart (h : run.Attended) (now : Int) (orphaned : Bool) :
    (run.clearSubagentRunSteerRestart now orphaned).Attended := by
  unfold clearSubagentRunSteerRestart
  split
  · exact h
  rename_i entry hentry
  have hkept := h.kept entry hentry
  split
  · dsimp only
    have hcleared : ∀ entry' ∈ some { entry with suppressAnnounceReason := none }, entry'.Kept run.tasks := by
      intro entry' hentry'
      obtain rfl := Option.some.inj hentry'
      exact ⟨hkept.held, hkept.positive, hkept.hook⟩
    split
    · have hresumed : (({ run with
          entry := some { entry with suppressAnnounceReason := none }
          resumed := false } : Run Key).resumeSubagentRun now orphaned).Attended := resume_attended (by exact hcleared) rfl now orphaned
      exact hresumed
    · rename_i hnot
      refine ⟨hcleared, fun entry' hentry' hwaits => absurd ?_ hnot⟩
      obtain rfl := Option.some.inj hentry'
      refine ⟨hwaits.ended, ?_⟩
      rw [show entry.cleanupCompleted = false from hwaits.completed]
      rfl
  · exact h

theorem Run.Attended.terminate (h : run.Attended) (now : Int) : (run.terminate now).Attended := by
  refine ⟨fun entry' hentry' => ?_, fun entry' hentry' hwaits => ?_⟩
  · obtain ⟨entry, hentry, rfl⟩ := Option.map_eq_some_iff.1 hentry'
    have hkept := h.kept entry hentry
    split
    · exact hkept
    · exact hkept.over (List.Subset.refl _) rfl rfl
  · obtain ⟨entry, hentry, rfl⟩ := Option.map_eq_some_iff.1 hentry'
    split at hwaits
    · exact h.attending entry hentry hwaits
    · cases hwaits.completed

theorem Run.Attended.timer {timer : Timer} (h : run.Attended) (htimer : run.timers[i]? = some timer) (now : Int)
    (orphaned : Bool) :
    (run.fireTimer i timer now orphaned).Attended := by
  obtain ⟨hi, rfl⟩ := List.getElem?_eq_some_iff.1 htimer
  unfold fireTimer
  by_cases hvain : (if run.timers[i].backoff then false else run.resumed) = true
  · -- the timer is in vain, and so is not the one that attends to the run
    rw [hvain]
    unfold resumeSubagentRun
    rw [if_pos rfl]
    refine ⟨h.kept, fun entry hentry hwaits => (h.attending entry hentry hwaits).imp_right ?_⟩
    rintro ⟨timer, hmem, hefficient⟩
    split at hvain
    · cases hvain
    · rename_i hplain
      have hbackoff := hefficient.resolve_right fun hresumed => by rw [hresumed] at hvain; cases hvain
      refine ⟨timer, (List.mem_cons.1 ((List.getElem_cons_eraseIdx_perm hi).symm.subset hmem)).resolve_left fun heq => ?_, .inl hbackoff⟩
      exact hplain (heq ▸ hbackoff)
  · exact resume_attended (by exact h.kept) (Bool.not_eq_true _ ▸ hvain) now orphaned

theorem Run.Attended.moves {run' : Run Key} (h : run.Attended) (hmoves : Run.Moves (fun _ => False) (0 < ·) run run') :
    run'.Attended := by
  cases hmoves with
  | register =>
    refine ⟨fun entry hentry => ?_, fun entry hentry hwaits => ?_⟩
    · obtain rfl := Option.some.inj hentry
      exact ⟨fun hhandled => (nomatch hhandled), fun _ _ hended => (nomatch hended), fun hmem => (nomatch hmem)⟩
    · obtain rfl := Option.some.inj hentry
      cases hwaits.ended
  | remove => exact attended_of_none rfl
  | setPending endedAt => exact h.congr rfl rfl rfl rfl
  | complete outcome reason hends => exact h.complete hends ..
  | continueComplete htask => exact h.continueComplete htask
  | continueEndedHook htask hookThrows => exact h.continueEndedHook htask hookThrows
  | settleAnnounce htask didAnnounce hfails =>
    rw [Bool.eq_false_iff.2 hfails]
    exact h.settleAnnounce htask didAnnounce ..
  | failCleanup htask hcleanup hfails => exact hfails.elim
  | finishCleanup htask hcleanup => exact h.completeCleanup rfl (List.eraseIdx_subset ..)
  | completeCleanup => exact h.completeCleanup rfl (List.Subset.refl _)
  | retryDeferred now orphaned => exact h.retryDeferred now orphaned
  | markSteerRestart => exact h.markSteerRestart
  | clearSteerRestart now orphaned => exact h.clearSteerRestart now orphaned
  | terminate now => exact h.terminate now
  | timer i htimer now orphaned => exact h.timer htimer now orphaned

end Attended

-- ---
-- Runs of the registry
-- ---

variable [DecidableEq Key] [DecidableEq RunId]

end OpenClaw.SubagentRegistry
