import OpenClaw.Agents.SubagentRegistry.Owned

/-!
# No announce after one that got through

Once a run has been announced its cleanup stays owned until it is completed. It would be
opened again where its end fails.
-/

namespace OpenClaw.SubagentRegistry

open Transition

variable {Key RunId : Type}

section Delivered

variable {run : Run Key} {entry entry' : Entry Key} {tasks : List Task}

/-- The cleanup is over, or is about to be. -/
def Entry.Done (tasks : List Task) (entry : Entry Key) : Prop :=
  (entry.cleanupCompleted = true ∨ .finalizing true ∈ tasks) ∧ entry.endedAt.isSome = true ∧
    entry.suppressAnnounceReason ≠ some .killed

/-- No announce is started after one that got through. -/
def NoneAfter (history : List Event) : Prop :=
  history.Pairwise fun earlier later => earlier = .settled true → later ≠ .started

structure Run.Delivered (run : Run Key) : Prop where
  noneAfter : NoneAfter run.history
  done : .settled true ∈ run.history → ∀ entry ∈ run.entry, entry.Done run.tasks

theorem Run.Delivered.keep {run' : Run Key} (h : run.Delivered) (hhistory : run'.history = run.history)
    (hdone : ∀ entry' ∈ run'.entry, ∃ entry ∈ run.entry, entry.Done run.tasks → entry'.Done run'.tasks) :
    run'.Delivered := by
  refine ⟨hhistory ▸ h.noneAfter, fun hsettled entry' hentry' => ?_⟩
  obtain ⟨entry, hentry, himp⟩ := hdone entry' hentry'
  exact himp (h.done (hhistory ▸ hsettled) entry hentry)

theorem Run.Delivered.congr {run' : Run Key} (h : run.Delivered) (hhistory : run'.history = run.history)
    (hentry : run'.entry = run.entry) (htasks : run.tasks ⊆ run'.tasks) : run'.Delivered :=
  h.keep hhistory fun entry hsome =>
    ⟨entry, hentry ▸ hsome, fun hdone => ⟨hdone.1.imp_right fun hmem => htasks hmem, hdone.2⟩⟩

theorem Run.Delivered.gone {run' : Run Key} (h : run.Delivered) (hhistory : run'.history = run.history)
    (hentry : run'.entry = none) :
    run'.Delivered :=
  h.keep hhistory fun entry hsome => by rw [hentry] at hsome; cases hsome

/-- A cleanup that can be begun is of a run that was not announced. -/
theorem Run.Delivered.not_settled (h : run.Delivered) (howned : run.Owned) (hentry : run.entry = some entry)
    (hcompleted : entry.cleanupCompleted = false) (hfree : entry.cleanupHandled = false) :
    Event.settled true ∉ run.history := by
  intro hsettled
  obtain ⟨hover, -⟩ := h.done hsettled entry hentry
  rcases hover with hover | hmem
  · rw [hover] at hcompleted
    cases hcompleted
  · exact (howned.serves entry hentry).not_owns hfree _ hmem rfl

theorem Run.Delivered.start (h : run.Delivered) (howned : run.Owned) : run.startSubagentAnnounceCleanupFlow.Delivered := by
  unfold startSubagentAnnounceCleanupFlow
  split
  · rename_i hbegins
    obtain ⟨entry, hentry, hcompleted, hfree⟩ := beginsCleanup_iff.1 hbegins
    have hnot := h.not_settled howned hentry hcompleted hfree
    refine ⟨List.pairwise_append.2 ⟨h.noneAfter, List.pairwise_singleton _ _, fun earlier hmem _ _ heq => ?_⟩,
      fun hsettled => ?_⟩
    · exact absurd (heq ▸ hmem) hnot
    · rcases List.mem_append.1 hsettled with hmem | hnew
      · exact absurd hmem hnot
      · cases List.mem_singleton.1 hnew
  · exact h

theorem Run.Delivered.addTask (h : run.Delivered) (task : Task) : (run.addTask task).Delivered :=
  h.congr rfl rfl (List.subset_append_left _ _)

theorem Run.Delivered.resume (h : run.Delivered) (howned : run.Owned) (now : Int) (orphaned : Bool) :
    (run.resumeSubagentRun now orphaned).Delivered := by
  unfold resumeSubagentRun
  split
  · exact h
  split
  · exact h
  split
  · exact h.gone rfl rfl
  split
  · exact h
  split
  · exact h.addTask _
  split
  · exact h.addTask _
  split
  · exact h.congr rfl rfl (List.Subset.refl _)
  split
  · split
    · exact h.congr rfl rfl (List.Subset.refl _)
    split
    · exact (h.start howned).congr rfl rfl (List.Subset.refl _)
    · exact h
  · exact h.congr rfl rfl (List.Subset.refl _)

theorem Run.Delivered.retryDeferred (h : run.Delivered) (howned : run.Owned) (now : Int) (orphaned : Bool) :
    (run.retryDeferred now orphaned).Delivered := by
  unfold Run.retryDeferred
  split
  · exact h
  rename_i entry hentry
  split
  · exact h
  split
  · exact h
  rename_i hfree
  rw [Bool.or_eq_true, not_or, Bool.not_eq_true, Bool.not_eq_true] at hfree
  split
  · exact h
  split
  · exact ⟨h.noneAfter, fun hsettled => absurd hsettled (h.not_settled howned hentry hfree.1 hfree.2)⟩
  · have hforgotten : ({ run with resumed := false } : Run Key).Delivered := h.congr rfl rfl (List.Subset.refl _)
    exact hforgotten.resume (howned.congr rfl rfl) now orphaned

theorem Run.Delivered.complete (h : run.Delivered) (endedAt : Int) (outcome : Outcome) (reason : EndedReason) :
    (run.completeSubagentRun endedAt outcome reason).Delivered := by
  unfold Run.completeSubagentRun
  split
  · exact h
  rename_i entry hentry
  refine h.keep rfl fun entry' hentry' => ⟨entry, hentry, fun hdone => ?_⟩
  obtain rfl := Option.some.inj hentry'
  dsimp only
  rw [if_neg fun hreset => hdone.2.2 hreset.2.1]
  exact ⟨hdone.1.imp_right fun hmem => List.mem_append_left _ hmem, rfl, hdone.2.2⟩

/-- The cleanup is over, whatever the tasks. -/
theorem Run.Delivered.completeCleanup {run' : Run Key} (h : run.Delivered) (hhistory : run'.history = run.history)
    (hentry : run'.entry = run.entry) : run'.completeCleanup.Delivered := by
  unfold Run.completeCleanup
  split
  · exact h.gone hhistory (by assumption)
  rename_i entry hsome
  split
  · exact h.gone hhistory rfl
  · refine h.keep hhistory fun entry' hentry' => ⟨entry, hentry ▸ hsome, fun hdone => ?_⟩
    dsimp only [mapEntry] at hentry'
    rw [hsome] at hentry'
    obtain rfl := Option.some.inj hentry'
    exact ⟨.inl rfl, hdone.2⟩

/-- A task that ends is not the one that is about to complete the cleanup. -/
theorem Run.Delivered.dropTask (h : run.Delivered) (htask : run.tasks[i]? = some task) (hne : task ≠ .finalizing true) :
    (run.dropTask i).Delivered := by
  obtain ⟨hi, rfl⟩ := List.getElem?_eq_some_iff.1 htask
  refine h.keep rfl fun entry hentry => ⟨entry, hentry, fun hdone => ⟨hdone.1.imp_right fun hmem => ?_, hdone.2⟩⟩
  rcases List.mem_cons.1 ((List.getElem_cons_eraseIdx_perm hi).symm.subset hmem) with heq | hmem
  · exact absurd heq.symm hne
  · exact hmem

theorem Run.Delivered.setTask (h : run.Delivered) (htask : run.tasks[i]? = some task) (hne : task ≠ .finalizing true)
    (new : Task) :
    (run.setTask i new).Delivered :=
  (h.dropTask htask hne).congr rfl rfl fun _ hmem =>
    (List.set_perm_cons_eraseIdx (List.getElem?_eq_some_iff.1 htask).1 new).symm.subset (List.mem_cons_of_mem _ hmem)

/-- The cleanup may be had again, of a run whose announce did not get through. -/
theorem Run.Delivered.release {i : Nat} {task : Task} {run' : Run Key} (h : run.Delivered) (howned : run.Owned)
    (htask : run.tasks[i]? = some task)
    (howns : task.owns = true) (hne : task ≠ .finalizing true) (hhistory : run'.history = run.history)
    (hentry : ∀ entry' ∈ run'.entry, ∃ entry ∈ run.entry, entry'.endedAt = entry.endedAt ∧
      entry'.suppressAnnounceReason = entry.suppressAnnounceReason ∧ entry'.cleanupCompleted = entry.cleanupCompleted) :
    run'.Delivered := by
  refine h.keep hhistory fun entry' hsome => ?_
  obtain ⟨entry, hentry, hended, hsuppress, hcompleted⟩ := hentry entry' hsome
  refine ⟨entry, hentry, fun hdone => ⟨.inl ?_, hended ▸ hdone.2.1, hsuppress ▸ hdone.2.2⟩⟩
  rw [hcompleted]
  refine hdone.1.resolve_right fun hmem => ?_
  obtain ⟨hi, rfl⟩ := List.getElem?_eq_some_iff.1 htask
  rcases List.mem_cons.1 ((List.getElem_cons_eraseIdx_perm hi).symm.subset hmem) with heq | hmem
  · exact hne heq.symm
  · exact howned.not_owns htask howns _ hmem rfl

theorem Run.Delivered.reopen {i : Nat} {task : Task} (h : run.Delivered) (howned : run.Owned)
    (htask : run.tasks[i]? = some task)
    (howns : task.owns = true) (hne : task ≠ .finalizing true) : (run.dropTask i).reopen.Delivered := by
  refine h.release howned htask howns hne rfl fun entry' hentry' => ?_
  obtain ⟨entry, hentry, rfl⟩ := Option.map_eq_some_iff.1 hentry'
  refine ⟨entry, hentry, ?_⟩
  split <;> exact ⟨rfl, rfl, rfl⟩

theorem Run.Delivered.recordRetry (h : run.Delivered) (hentry : run.entry = some entry) (retryCount : Option Nat)
    (now : Int) :
    ({ run with entry := some (entry.recordRetry retryCount now) } : Run Key).Delivered := by
  refine h.keep rfl fun entry' hentry' => ⟨entry, hentry, fun hdone => ?_⟩
  obtain rfl := Option.some.inj hentry'
  cases retryCount with
  | none => exact hdone
  | some retryCount => exact hdone

/-- An announce that did not get through changes nothing about those that did. -/
theorem Run.Delivered.failed (h : run.Delivered) :
    ({ run with history := run.history ++ [.settled false] } : Run Key).Delivered := by
  refine ⟨List.pairwise_append.2 ⟨h.noneAfter, List.pairwise_singleton _ _, fun _ _ later hmem _ heq => ?_⟩,
    fun hsettled => ?_⟩
  · rw [heq] at hmem
    cases List.mem_singleton.1 hmem
  · rcases List.mem_append.1 hsettled with hmem | hnew
    · exact h.done hmem
    · cases List.mem_singleton.1 hnew

/-- Nor does one that is put off. -/
theorem Run.Delivered.deferred (h : run.Delivered) :
    ({ run with history := run.history ++ [.deferred] } : Run Key).Delivered := by
  refine ⟨List.pairwise_append.2 ⟨h.noneAfter, List.pairwise_singleton _ _, fun _ _ later hmem _ heq => ?_⟩,
    fun hsettled => ?_⟩
  · rw [heq] at hmem
    cases List.mem_singleton.1 hmem
  · rcases List.mem_append.1 hsettled with hmem | hnew
    · exact h.done hmem
    · cases List.mem_singleton.1 hnew

/-- One that got through is about to complete the cleanup. -/
theorem Run.Delivered.succeeded (h : run.Delivered) (howned : run.Owned) (htask : run.tasks[i]? = some .announcing) :
    ({ run with
      history := run.history ++ [.settled true]
      tasks := run.tasks.set i (.finalizing true) } : Run Key).Delivered := by
  refine ⟨List.pairwise_append.2 ⟨h.noneAfter, List.pairwise_singleton _ _, fun _ _ later hmem _ heq => ?_⟩,
    fun _ entry hentry => ?_⟩
  · rw [heq] at hmem
    cases List.mem_singleton.1 hmem
  · have hserves := howned.serves entry hentry
    have hmem := List.mem_of_getElem? htask
    refine ⟨.inr (List.mem_set (List.getElem?_eq_some_iff.1 htask).1 _), hserves.ended _ hmem fun heq => (nomatch heq), ?_⟩
    exact (hserves.handled _ hmem rfl).2

theorem Run.Delivered.settleAnnounce (h : run.Delivered) (howned : run.Owned) (htask : run.tasks[i]? = some .announcing)
    (didAnnounce : Bool) (hfails : taskUpdateThrows = true → Task.finalizing didAnnounce ≠ .finalizing true) (now : Int)
    (activeDescendantRuns : Nat) :
    (run.settleAnnounce i didAnnounce taskUpdateThrows now activeDescendantRuns).Delivered := by
  have hne : Task.announcing ≠ .finalizing true := fun heq => nomatch heq
  unfold Run.settleAnnounce
  dsimp only
  cases didAnnounce with
  | true =>
    have hsucceeded := h.succeeded howned htask
    split
    · exact hsucceeded.gone rfl (by assumption)
    · rw [if_pos rfl, if_neg fun hthrows => hfails hthrows rfl]
      exact hsucceeded
  | false =>
    have hfailed := h.failed
    have howned' : ({ run with history := run.history ++ [.settled false] } : Run Key).Owned := howned.congr rfl rfl
    split
    · exact hfailed.gone rfl (by assumption)
    rename_i entry hentry
    rw [if_neg Bool.false_ne_true]
    split
    · refine hfailed.deferred.release (howned'.congr rfl rfl) htask rfl hne rfl fun entry' hentry' => ⟨entry, hentry, ?_⟩
      exact Option.some.inj hentry' ▸ ⟨rfl, rfl, rfl⟩
    · rename_i retryCount _
      have hrecorded := hfailed.recordRetry hentry retryCount now
      split
      · exact hrecorded.reopen (howned'.recordRetry hentry retryCount now) htask rfl hne
      · exact hrecorded.setTask htask hne _
    · refine hfailed.release howned' htask rfl hne rfl fun entry' hentry' => ⟨entry, hentry, ?_⟩
      exact Option.some.inj hentry' ▸ ⟨rfl, rfl, rfl⟩

theorem Run.Delivered.failCleanup (h : run.Delivered) (howned : run.Owned) (htask : run.tasks[i]? = some task)
    (hcleanup : task.isCleanup = true) (hne : task ≠ .finalizing true) : (run.failCleanup i task).Delivered := by
  cases task with
  | givingUp => exact h.dropTask htask hne
  | finalizing didAnnounce => exact h.reopen howned htask rfl hne
  | expiring => exact h.reopen howned htask rfl hne
  | completing reason => cases hcleanup
  | endedHook => cases hcleanup
  | announcing => cases hcleanup

theorem Run.Delivered.continueComplete (h : run.Delivered) (howned : run.Owned)
    (htask : run.tasks[i]? = some (.completing reason)) :
    (run.continueComplete i reason).Delivered := by
  have hne : Task.completing reason ≠ .finalizing true := fun heq => nomatch heq
  have hdropped := h.dropTask htask hne
  unfold Run.continueComplete
  split
  · exact hdropped
  split
  · exact hdropped
  split
  · exact h.setTask htask hne _
  · exact hdropped.start (howned.dropTask i)

theorem Run.Delivered.continueEndedHook (h : run.Delivered) (howned : run.Owned) (htask : run.tasks[i]? = some .endedHook)
    (hookThrows : Bool) : (run.continueEndedHook i hookThrows).Delivered := by
  have hdropped := h.dropTask htask fun heq => nomatch heq
  unfold Run.continueEndedHook
  split
  · exact hdropped
  · exact hdropped.start (howned.dropTask i)

theorem Run.Delivered.markSteerRestart (h : run.Delivered) : run.markSubagentRunForSteerRestart.Delivered := by
  refine h.keep rfl fun entry' hentry' => ?_
  obtain ⟨entry, hentry, rfl⟩ := Option.map_eq_some_iff.1 hentry'
  exact ⟨entry, hentry, fun hdone => ⟨hdone.1, hdone.2.1, fun hkilled => nomatch hkilled⟩⟩

theorem Run.Delivered.clearSteerRestart (h : run.Delivered) (howned : run.Owned) (now : Int) (orphaned : Bool) :
    (run.clearSubagentRunSteerRestart now orphaned).Delivered := by
  unfold clearSubagentRunSteerRestart
  split
  · exact h
  rename_i entry hentry
  split
  · have hcleared : ({ run with
        entry := some { entry with suppressAnnounceReason := none }
        resumed := false } : Run Key).Delivered := by
      refine h.keep rfl fun entry' hentry' => ⟨entry, hentry, fun hdone => ?_⟩
      obtain rfl := Option.some.inj hentry'
      exact ⟨hdone.1, hdone.2.1, fun hkilled => nomatch hkilled⟩
    have howned' : ({ run with entry := some { entry with suppressAnnounceReason := none } } : Run Key).Owned :=
      howned.change hentry rfl id (fun hkilled => nomatch hkilled) rfl
    dsimp only
    split
    · exact hcleared.resume (howned'.congr rfl rfl) now orphaned
    · exact hcleared
  · exact h

theorem Run.Delivered.terminate (h : run.Delivered) (now : Int) : (run.terminate now).Delivered := by
  refine h.keep rfl fun entry' hentry' => ?_
  obtain ⟨entry, hentry, rfl⟩ := Option.map_eq_some_iff.1 hentry'
  refine ⟨entry, hentry, fun hdone => ?_⟩
  rw [if_pos hdone.2.1]
  exact hdone

theorem Run.Delivered.timer (h : run.Delivered) (howned : run.Owned) (i : Nat) (timer : Timer) (now : Int)
    (orphaned : Bool) :
    (run.fireTimer i timer now orphaned).Delivered := by
  have hfired : ({ run with
      timers := run.timers.eraseIdx i
      resumed := if timer.backoff then false else run.resumed } : Run Key).Delivered := h.congr rfl rfl (List.Subset.refl _)
  exact hfired.resume (howned.congr rfl rfl) now orphaned

theorem Run.Delivered.moves {run' : Run Key} (h : run.Delivered) (howned : run.Owned)
    (hmoves : Run.Moves (· ≠ .finalizing true) ends run run') : run'.Delivered := by
  cases hmoves with
  | register => exact ⟨List.Pairwise.nil, fun hsettled => nomatch hsettled⟩
  | remove => exact h.gone rfl rfl
  | setPending endedAt => exact h.congr rfl rfl (List.Subset.refl _)
  | complete outcome reason hends => exact h.complete ..
  | continueComplete htask => exact h.continueComplete howned htask
  | continueEndedHook htask hookThrows => exact h.continueEndedHook howned htask hookThrows
  | settleAnnounce htask didAnnounce hfails => exact h.settleAnnounce howned htask didAnnounce hfails ..
  | failCleanup htask hcleanup hfails => exact h.failCleanup howned htask hcleanup hfails
  | finishCleanup htask hcleanup => exact h.completeCleanup rfl rfl
  | completeCleanup => exact h.completeCleanup rfl rfl
  | retryDeferred now orphaned => exact h.retryDeferred howned now orphaned
  | markSteerRestart => exact h.markSteerRestart
  | clearSteerRestart now orphaned => exact h.clearSteerRestart howned now orphaned
  | terminate now => exact h.terminate now
  | timer i htimer now orphaned => exact h.timer howned i _ now orphaned

end Delivered

-- ---
-- Runs of the registry
-- ---

variable [DecidableEq Key] [DecidableEq RunId]

theorem announced_once {countPending : CountPending Key RunId} {r : Registry Key RunId}
    (h : (registrySystem countPending).ReachableBy (Allowed (· ≠ .finalizing true) fun _ => True) r) (runId : RunId) :
    (r.run runId).tasks.count .announcing ≤ 1 ∧ NoneAfter (r.run runId).history := by
  have hrun : (r.run runId).Owned ∧ (r.run runId).Delivered := by
    refine moves_invariant (P := fun run => run.Owned ∧ run.Delivered) ⟨⟨Nat.zero_le _, fun _ hentry => nomatch hentry⟩,
      ⟨List.Pairwise.nil, fun hsettled => nomatch hsettled⟩⟩ (fun run run' hrun hmoves => ?_) h runId
    exact ⟨hrun.1.moves hmoves, hrun.2.moves hrun.1 hmoves⟩
  refine ⟨Nat.le_trans ?_ hrun.1.one, hrun.2.noneAfter⟩
  exact List.countP_mono_left fun task _ heq => by rw [eq_of_beq heq]; rfl

def noneRuns : Registry Unit Unit where
  now := 1000
  order := []
  run _ := .unknown

/-- A run that asks for a completion message ends. -/
def runEnds : List (Label Unit Unit) :=
  [.register () () () .keep false true, .lifecycleEnd () (some 2000) false, .continueTask () 0 false]

theorem announced_once_sample : ∃ r :
    Registry Unit Unit, .settled true ∈ (r.run ()).history ∧ NoneAfter (r.run ()).history := by
  have hstart : (registrySystem fun _ _ => 0).ReachableBy (Allowed (· ≠ .finalizing true) fun _ => True) noneRuns :=
    .init ⟨by decide, rfl, rfl⟩
  have hregistered := hstart.step (a := Label.register () () () .keep false true) trivial rfl
  have hended := hregistered.step (a := Label.lifecycleEnd () (some 2000) false) trivial rfl
  have hannouncing := hended.step (a := Label.continueTask () 0 false) trivial rfl
  have hsettled := hannouncing.step (a := Label.settleAnnounce () 0 true false) (fun hthrows => (nomatch hthrows)) rfl
  have hagain := hsettled.step (a := Label.agentWait () .ok none) (fun _ _ => trivial) rfl
  exact ⟨_, by decide, (announced_once hagain ()).2⟩

/-- The announce gets through, the task's delivery status cannot be set, and the run is said to have ended once more. -/
theorem not_announced_once :
    ¬ ∀ (Key RunId : Type) [DecidableEq Key] [DecidableEq RunId] (countPending : CountPending Key RunId)
    (r : Registry Key RunId),
      (registrySystem countPending).Reachable r → ∀ runId : RunId,
        (r.run runId).tasks.count .announcing ≤ 1 ∧ NoneAfter (r.run runId).history := by
  intro h
  obtain ⟨r, hrun, hhistory⟩ : ∃ r, (registrySystem fun _ _ => 0).run noneRuns
      (runEnds ++ [.settleAnnounce () 0 true true, .agentWait () .ok none, .continueTask () 0 false]) = some r ∧
        (r.run ()).history = [.started, .settled true, .started] := ⟨_, rfl, rfl⟩
  have hnone := (h Unit Unit (fun _ _ => 0) r (.run (.init ⟨by decide, rfl, rfl⟩) hrun) ()).2
  rw [hhistory] at hnone
  revert hnone
  unfold NoneAfter
  decide

-- ---
-- One owner
-- ---

/-- In every run, failures and steering included, at most one task owns the cleanup of a
subagent run; while one does, the run has ended and is marked as handled, and it was not killed. -/
theorem cleanup_owned_once {countPending : CountPending Key RunId} {r : Registry Key RunId}
    (h : (registrySystem countPending).Reachable r) (runId : RunId) :
    (r.run runId).tasks.countP Task.owns ≤ 1 ∧
      ∀ entry ∈ (r.run runId).entry, ∀ task ∈ (r.run runId).tasks, task.owns = true →
        entry.endedAt.isSome = true ∧ entry.cleanupHandled = true ∧
          entry.suppressAnnounceReason ≠ some .killed := by
  have hby : (registrySystem countPending).ReachableBy
      (Allowed (fun _ => True) fun _ => True) r := by
    refine h.by_true.mono fun r label _ => ?_
    cases label <;> simp [Allowed]
  have howned : (r.run runId).Owned :=
    moves_invariant (P := Run.Owned) ⟨Nat.zero_le _, fun _ hentry => nomatch hentry⟩
      (fun _ _ hrun hmoves => hrun.moves hmoves) hby runId
  refine ⟨howned.one, fun entry hentry task htask howns => ?_⟩
  have hserves := howned.serves entry hentry
  refine ⟨hserves.ended task htask ?_, hserves.handled task htask howns⟩
  rintro rfl
  cases howns

theorem cleanup_owned_once_sample : ∃ r : Registry Unit Unit,
    (r.run ()).tasks = [.announcing] ∧ (r.run ()).tasks.countP Task.owns ≤ 1 := by
  obtain ⟨r, hrun, htasks⟩ : ∃ r, (registrySystem fun _ _ => 0).run noneRuns runEnds = some r ∧
      (r.run ()).tasks = [.announcing] := ⟨_, rfl, rfl⟩
  exact ⟨r, htasks, (cleanup_owned_once (.run (.init ⟨by decide, rfl, rfl⟩) hrun) ()).1⟩

end OpenClaw.SubagentRegistry
