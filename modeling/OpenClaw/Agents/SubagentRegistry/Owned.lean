import Mathlib.Data.List.Perm.Basic
import Mathlib.Logic.Relation
import OpenClaw.Agents.SubagentRegistry

/-!
# What a step does to one run

A step changes each run by moves of its own, whatever it does about the others. So what every
move keeps of a run is kept of all runs.
-/

namespace OpenClaw.SubagentRegistry

open Transition

variable {Key RunId : Type}

/-- `fails` are the tasks whose end may fail, and `ends` the times at which a run may be said to have ended. -/
inductive Run.Moves (fails : Task → Prop) (ends : Int → Prop) : Run Key → Run Key → Prop
  | register {run : Run Key} (childSessionKey requesterSessionKey : Key) (createdAt : Int) (cleanup : Cleanup)
      (sessionMode expectsCompletionMessage : Bool) :
      Moves fails ends run { (Run.unknown : Run Key) with
        entry := some (newEntry childSessionKey requesterSessionKey createdAt cleanup sessionMode expectsCompletionMessage) }
  | remove {run : Run Key} : Moves fails ends run { run with entry := none, pendingError := none }
  | setPending {run : Run Key} (endedAt : Option Int) : Moves fails ends run { run with pendingError := endedAt }
  | complete {run : Run Key} (outcome : Outcome) (reason : EndedReason) (hends : ends endedAt) :
      Moves fails ends run (run.completeSubagentRun endedAt outcome reason)
  | continueComplete {run : Run Key} (htask : run.tasks[i]? = some (.completing reason)) :
      Moves fails ends run (run.continueComplete i reason)
  | continueEndedHook {run : Run Key} (htask : run.tasks[i]? = some .endedHook) (hookThrows : Bool) :
      Moves fails ends run (run.continueEndedHook i hookThrows)
  | settleAnnounce {run : Run Key} (htask : run.tasks[i]? = some .announcing) (didAnnounce : Bool) {taskUpdateThrows : Bool}
      (hfails : taskUpdateThrows = true → fails (.finalizing didAnnounce)) (now : Int) (activeDescendantRuns : Nat) :
      Moves fails ends run (run.settleAnnounce i didAnnounce taskUpdateThrows now activeDescendantRuns)
  | failCleanup {run : Run Key} (htask : run.tasks[i]? = some task) (hcleanup : task.isCleanup = true) (hfails : fails task) :
      Moves fails ends run (run.failCleanup i task)
  | finishCleanup {run : Run Key} (htask : run.tasks[i]? = some task) (hcleanup : task.isCleanup = true) :
      Moves fails ends run (run.dropTask i).completeCleanup
  | completeCleanup {run : Run Key} : Moves fails ends run run.completeCleanup
  | retryDeferred {run : Run Key} (now : Int) (orphaned : Bool) : Moves fails ends run (run.retryDeferred now orphaned)
  | markSteerRestart {run : Run Key} : Moves fails ends run run.markSubagentRunForSteerRestart
  | clearSteerRestart {run : Run Key} (now : Int) (orphaned : Bool) :
      Moves fails ends run (run.clearSubagentRunSteerRestart now orphaned)
  | terminate {run : Run Key} (now : Int) : Moves fails ends run (run.terminate now)
  | timer {run : Run Key} (i : Nat) (htimer : run.timers[i]? = some timer) (now : Int) (orphaned : Bool) :
      Moves fails ends run (run.fireTimer i timer now orphaned)

-- ---
-- Steps are moves
-- ---

section Steps

variable [DecidableEq RunId] {run : Run Key} {r r' : Registry Key RunId} {fails : Task → Prop} {ends : Int → Prop}

/-- Each run of the one comes to be that of the other by moves. -/
def Registry.MovesTo (fails : Task → Prop) (ends : Int → Prop) (r r' : Registry Key RunId) : Prop :=
  ∀ runId, Relation.ReflTransGen (Run.Moves fails ends) (r.run runId) (r'.run runId)

omit [DecidableEq RunId] in
theorem Registry.MovesTo.refl (r : Registry Key RunId) : MovesTo fails ends r r := fun _ => .refl

omit [DecidableEq RunId] in
theorem Registry.MovesTo.trans {r₁ r₂ r₃ : Registry Key RunId} (h : MovesTo fails ends r₁ r₂)
    (h' : MovesTo fails ends r₂ r₃) :
    MovesTo fails ends r₁ r₃ := fun runId => (h runId).trans (h' runId)

theorem Registry.put_self (r : Registry Key RunId) (runId : RunId) (run : Run Key) : (r.put runId run).run runId = run :=
  Function.update_self _ _ _

theorem Registry.put_other (r : Registry Key RunId) (run : Run Key) (hother : other ≠ runId) :
    (r.put runId run).run other = r.run other :=
  Function.update_of_ne hother _ _

theorem Registry.movesTo_put (hrun : Run.Moves fails ends (r.run runId) run) : MovesTo fails ends r (r.put runId run) := by
  intro other
  by_cases heq : other = runId
  · subst heq
    rw [put_self]
    exact .single hrun
  · rw [put_other r run heq]

omit [DecidableEq RunId] in
theorem Registry.movesTo_foldl (f : Registry Key RunId → α → Registry Key RunId)
    (hf : ∀ r a, MovesTo fails ends r (f r a)) (as : List α)
    (r : Registry Key RunId) : MovesTo fails ends r (as.foldl f r) := by
  induction as generalizing r with
  | nil => exact .refl r
  | cons a as ih => exact (hf r a).trans (ih _)

theorem Registry.movesTo_retryDeferred (r : Registry Key RunId) (runId : RunId) (orphaned : RunId → Bool) :
    MovesTo fails ends r (r.retryDeferredCompletedAnnounces runId orphaned) := by
  refine movesTo_foldl _ (fun r other => ?_) r.order r
  split
  · exact .refl r
  · exact movesTo_put (.retryDeferred ..)

theorem Registry.movesTo_bookkeeping (hrun : Run.Moves fails ends (r.run runId) run.completeCleanup)
    (orphaned : RunId → Bool) :
    MovesTo fails ends r (r.completeCleanupBookkeeping runId run orphaned) :=
  (movesTo_put hrun).trans (movesTo_retryDeferred _ _ _)

theorem Registry.movesTo_terminated [DecidableEq Key] (r : Registry Key RunId) (runId : Option RunId)
    (childSessionKey : Option Key)
    (orphaned : RunId → Bool) : MovesTo fails ends r (r.markSubagentRunTerminated runId childSessionKey orphaned) :=
  (movesTo_foldl _ (fun _ _ => movesTo_put (.terminate _)) _ r).trans
    (movesTo_foldl _ (fun _ _ => movesTo_bookkeeping .completeCleanup orphaned) _ _)

/-- A step that fails where that is allowed, and says that a run has ended at a time that is allowed. -/
def Allowed (fails : Task → Prop) (ends : Int → Prop) (r : Registry Key RunId) : Label Key RunId → Prop
  | .lifecycleEnd _ endedAt _ => ends (endedAt.getD r.now)
  | .lifecycleErrorTimer runId => ∀ endedAt ∈ (r.run runId).pendingError, ends endedAt
  | .agentWait runId _ endedAt => ∀ entry ∈ (r.run runId).entry, ends (waitEndedAt entry endedAt r.now)
  | .settleAnnounce _ _ didAnnounce taskUpdateThrows => taskUpdateThrows = true → fails (.finalizing didAnnounce)
  | .finishCleanup runId i hookThrows _ => hookThrows = true → ∀ task ∈ (r.run runId).tasks[i]?, fails task
  | _ => True

variable [DecidableEq Key] {countPending : CountPending Key RunId}

theorem registryStep_moves {label : Label Key RunId} (hallowed : Allowed fails ends r label)
    (hstep : registryStep countPending r label = some r') : Registry.MovesTo fails ends r r' := by
  cases label with
  | tick ms => exact Option.some.inj hstep ▸ fun _ => .refl
  | register runId childSessionKey requesterSessionKey cleanup sessionMode expectsCompletionMessage =>
    obtain ⟨-, hstep⟩ := Option.ite_none_left_eq_some.1 hstep
    obtain rfl := Option.some.inj hstep
    exact Registry.movesTo_put (.register ..)
  | remove runId => exact Option.some.inj hstep ▸ Registry.movesTo_put .remove
  | lifecycleStart runId => exact Option.some.inj hstep ▸ Registry.movesTo_put (.setPending none)
  | lifecycleEnd runId endedAt aborted => exact Option.some.inj hstep ▸ Registry.movesTo_put (.complete _ _ hallowed)
  | lifecycleError runId endedAt =>
    obtain ⟨-, hstep⟩ := Option.ite_none_right_eq_some.1 hstep
    exact Option.some.inj hstep ▸ Registry.movesTo_put (.setPending _)
  | lifecycleErrorTimer runId =>
    dsimp only [registryStep] at hstep
    split at hstep
    case h_1 => cases hstep
    case h_2 => exact Option.some.inj hstep ▸ Registry.movesTo_put (.setPending none)
    case h_3 endedAt entry hpending hentry =>
      split at hstep
      · exact Option.some.inj hstep ▸ Registry.movesTo_put (.setPending none)
      · exact Option.some.inj hstep ▸ Registry.movesTo_put (.complete _ _ (hallowed endedAt hpending))
  | agentWait runId status endedAt =>
    dsimp only [registryStep] at hstep
    split at hstep
    case h_1 => cases hstep
    case h_2 entry hentry => exact Option.some.inj hstep ▸ Registry.movesTo_put (.complete _ _ (hallowed entry hentry))
  | kill runId childSessionKey orphaned => exact Option.some.inj hstep ▸ Registry.movesTo_terminated r _ _ _
  | markSteerRestart runId => exact Option.some.inj hstep ▸ Registry.movesTo_put .markSteerRestart
  | clearSteerRestart runId orphaned => exact Option.some.inj hstep ▸ Registry.movesTo_put (.clearSteerRestart ..)
  | continueTask runId i hookThrows =>
    dsimp only [registryStep] at hstep
    split at hstep
    case h_1 htask => exact Option.some.inj hstep ▸ Registry.movesTo_put (.continueComplete htask)
    case h_2 htask => exact Option.some.inj hstep ▸ Registry.movesTo_put (.continueEndedHook htask _)
    case h_3 => cases hstep
  | settleAnnounce runId i didAnnounce taskUpdateThrows =>
    dsimp only [registryStep] at hstep
    split at hstep
    case h_1 htask => exact Option.some.inj hstep ▸ Registry.movesTo_put (.settleAnnounce htask _ hallowed _ _)
    case h_2 => cases hstep
  | finishCleanup runId i hookThrows orphaned =>
    dsimp only [registryStep] at hstep
    split at hstep
    case h_1 => cases hstep
    case h_2 task htask =>
      obtain ⟨hcleanup, hstep⟩ := Option.ite_none_right_eq_some.1 hstep
      split at hstep
      case isTrue hthrows =>
        exact Option.some.inj hstep ▸ Registry.movesTo_put (.failCleanup htask hcleanup (hallowed hthrows.1 task htask))
      case isFalse => exact Option.some.inj hstep ▸ Registry.movesTo_bookkeeping (.finishCleanup htask hcleanup) _
  | timer runId i orphaned =>
    dsimp only [registryStep] at hstep
    split at hstep
    case h_1 => cases hstep
    case h_2 timer htimer =>
      obtain ⟨-, hstep⟩ := Option.ite_none_right_eq_some.1 hstep
      exact Option.some.inj hstep ▸ Registry.movesTo_put (.timer i htimer _ _)

omit [DecidableEq Key] [DecidableEq RunId] in
theorem Run.keeps_of_moves {run' : Run Key} {P : Run Key → Prop}
    (hmoves : ∀ run run' : Run Key, P run → Moves fails ends run run' → P run')
    (hrun : P run) (h : Relation.ReflTransGen (Moves fails ends) run run') : P run' := by
  induction h with
  | refl => exact hrun
  | tail _ hmove ih => exact hmoves _ _ ih hmove

/-- What every move keeps holds of every run, in every run of the registry whose steps are allowed. -/
theorem moves_invariant {P : Run Key → Prop} (hunknown : P Run.unknown)
    (hmoves : ∀ run run' : Run Key, P run → Run.Moves fails ends run run' → P run')
    (h : (registrySystem countPending).ReachableBy (Allowed fails ends) r) (runId : RunId) : P (r.run runId) := by
  refine h.invariant (I := fun r => ∀ runId, P (r.run runId)) ?_ ?_ runId
  · rintro r ⟨-, -, hrun⟩ runId
    rw [hrun]
    exact hunknown
  · intro r label r' hr hallowed hstep runId
    exact Run.keeps_of_moves hmoves (hr runId) (registryStep_moves hallowed hstep runId)

end Steps

end OpenClaw.SubagentRegistry

/-!
# One announce at a time

Whoever begins the cleanup of a run owns it until it is over, or is put off. So no run has two
announces under way.
-/

namespace OpenClaw.SubagentRegistry

open Transition

variable {Key RunId : Type}

-- ---
-- Owners
-- ---

/-- Tasks that own the cleanup of the run. -/
def Task.owns : Task → Bool
  | .announcing | .finalizing _ | .expiring => true
  | .completing _ | .endedHook | .givingUp => false

/-- What the tasks of a run mean for its entry. -/
structure Entry.Serves (tasks : List Task) (entry : Entry Key) : Prop where
  handled : ∀ task ∈ tasks, task.owns = true → entry.cleanupHandled = true ∧ entry.suppressAnnounceReason ≠ some .killed
  ended : ∀ task ∈ tasks, task ≠ .givingUp → entry.endedAt.isSome = true
  killed : entry.suppressAnnounceReason = some .killed → entry.cleanupCompleted = true ∧ entry.endedAt.isSome = true

structure Run.Owned (run : Run Key) : Prop where
  one : run.tasks.countP Task.owns ≤ 1
  serves : ∀ entry ∈ run.entry, entry.Serves run.tasks

section Owned

variable {run : Run Key} {entry entry' : Entry Key} {tasks : List Task}

theorem Entry.Serves.mono (h : entry.Serves tasks) (hsub : tasks' ⊆ tasks) : entry.Serves tasks' :=
  ⟨fun task htask => h.handled task (hsub htask), fun task htask => h.ended task (hsub htask), h.killed⟩

theorem Entry.Serves.not_owns (h : entry.Serves tasks) (hfree : entry.cleanupHandled = false) :
    ∀ task ∈ tasks, ¬ task.owns = true := by
  intro task htask howns
  rw [(h.handled task htask howns).1] at hfree
  cases hfree

/-- A task that owns nothing is added, once the run has ended. -/
theorem Entry.Serves.add (h : entry.Serves tasks) (howns : task.owns = false)
    (hended : task = .givingUp ∨ entry.endedAt.isSome = true) :
    entry.Serves (tasks ++ [task]) := by
  refine ⟨fun other hother howns' => ?_, fun other hother hne => ?_, h.killed⟩
  · rcases List.mem_append.1 hother with hmem | hnew
    · exact h.handled other hmem howns'
    · obtain rfl := List.mem_singleton.1 hnew
      rw [howns] at howns'
      cases howns'
  · rcases List.mem_append.1 hother with hmem | hnew
    · exact h.ended other hmem hne
    · obtain rfl := List.mem_singleton.1 hnew
      exact hended.resolve_left hne

theorem countP_add (hone : tasks.countP Task.owns ≤ 1) (howns : task.owns = false) :
    (tasks ++ [task]).countP Task.owns ≤ 1 := by
  rw [List.countP_append, List.countP_singleton, howns]
  exact hone

/-- The entry of a run whose cleanup begins. -/
theorem Entry.Serves.begin (h : entry.Serves tasks) (hcompleted : entry.cleanupCompleted = false)
    (hended : entry.endedAt.isSome = true) :
    ({ entry with cleanupHandled := true } : Entry Key).Serves (tasks ++ [task]) := by
  have hkilled : entry.suppressAnnounceReason ≠ some .killed := fun hkilled => by
    rw [(h.killed hkilled).1] at hcompleted
    cases hcompleted
  exact ⟨fun _ _ _ => ⟨rfl, hkilled⟩, fun _ _ _ => hended, fun h => absurd h hkilled⟩

theorem countP_begin (h : entry.Serves tasks) (hfree : entry.cleanupHandled = false) (task : Task) :
    (tasks ++ [task]).countP Task.owns ≤ 1 := by
  rw [List.countP_append, List.countP_eq_zero.2 (h.not_owns hfree), Nat.zero_add]
  exact List.countP_le_length

theorem Run.beginsCleanup_iff : run.beginsCleanup = true ↔
    ∃ entry, run.entry = some entry ∧ entry.cleanupCompleted = false ∧ entry.cleanupHandled = false := by
  unfold beginsCleanup
  cases run.entry with
  | none => exact ⟨fun h => (nomatch h), fun ⟨_, h, _⟩ => (nomatch h)⟩
  | some entry =>
    dsimp only
    rw [Bool.not_eq_true', Bool.or_eq_false_iff]
    exact ⟨fun h => ⟨entry, rfl, h⟩, fun ⟨_, heq, h⟩ => Option.some.inj heq ▸ h⟩

theorem Run.Owned.start (h : run.Owned) (hended : ∀ entry ∈ run.entry, entry.endedAt.isSome = true) :
    run.startSubagentAnnounceCleanupFlow.Owned := by
  unfold startSubagentAnnounceCleanupFlow
  split
  · rename_i hbegins
    obtain ⟨entry, hentry, hcompleted, hfree⟩ := beginsCleanup_iff.1 hbegins
    have hserves := h.serves entry hentry
    refine ⟨countP_begin hserves hfree _, fun entry' hentry' => ?_⟩
    dsimp only [mapEntry] at hentry'
    rw [hentry] at hentry'
    obtain rfl := Option.some.inj hentry'
    exact hserves.begin hcompleted (hended entry hentry)
  · exact h

theorem Run.Owned.congr {run' : Run Key} (h : run.Owned) (hentry : run'.entry = run.entry)
    (htasks : run'.tasks = run.tasks) : run'.Owned := by
  obtain ⟨entry, resumed, pendingError, tasks, timers, history⟩ := run'
  subst hentry htasks
  exact ⟨h.one, h.serves⟩

theorem Run.Owned.gone {run' : Run Key} (h : run.Owned) (hentry : run'.entry = none)
    (htasks : run'.tasks = run.tasks) : run'.Owned := by
  refine ⟨htasks ▸ h.one, fun entry hsome => ?_⟩
  rw [hentry] at hsome
  cases hsome

/-- What is changed of the entry is nothing its tasks are about. -/
theorem Run.Owned.change {entry' : Entry Key} (h : run.Owned) (hentry : run.entry = some entry)
    (hhandled : entry'.cleanupHandled = entry.cleanupHandled)
    (hended : entry.endedAt.isSome = true → entry'.endedAt.isSome = true)
    (hsuppress : entry'.suppressAnnounceReason = some .killed → entry.suppressAnnounceReason = some .killed)
    (hcompleted : entry'.cleanupCompleted = entry.cleanupCompleted) :
    ({ run with entry := some entry' } : Run Key).Owned := by
  have hserves := h.serves entry hentry
  refine ⟨h.one, fun other hother => ?_⟩
  obtain rfl := Option.some.inj hother
  refine ⟨fun task htask howns => ?_, fun task htask hne => hended (hserves.ended task htask hne), fun hkilled => ?_⟩
  · rw [hhandled]
    exact (hserves.handled task htask howns).imp_right fun hne hkilled => hne (hsuppress hkilled)
  · rw [hcompleted]
    exact (hserves.killed (hsuppress hkilled)).imp_right hended

theorem Run.Owned.recordRetry (h : run.Owned) (hentry : run.entry = some entry) (retryCount : Option Nat) (now : Int) :
    ({ run with entry := some (entry.recordRetry retryCount now) } : Run Key).Owned := by
  cases retryCount with
  | none => exact h.change hentry rfl id id rfl
  | some retryCount => exact h.change hentry rfl id id rfl

theorem Run.Owned.addTask (h : run.Owned) (howns : task.owns = false)
    (hended : task = .givingUp ∨ ∀ entry ∈ run.entry, entry.endedAt.isSome = true) : (run.addTask task).Owned :=
  ⟨countP_add h.one howns, fun entry hentry => (h.serves entry hentry).add howns (hended.imp_right fun h => h entry hentry)⟩

theorem Run.Owned.dropTask (h : run.Owned) (i : Nat) : (run.dropTask i).Owned :=
  ⟨Nat.le_trans (List.eraseIdx_sublist ..).countP_le h.one,
    fun entry hentry => (h.serves entry hentry).mono (List.eraseIdx_subset ..)⟩

theorem isSome_of_any {o : Option α} (h : o.any p = true) : o.isSome = true := by
  cases o with
  | none => cases h
  | some a => rfl

theorem Run.Owned.resume (h : run.Owned) (now : Int) (orphaned : Bool) : (run.resumeSubagentRun now orphaned).Owned := by
  unfold resumeSubagentRun
  split
  · exact h
  split
  · exact h
  rename_i entry hentry
  split
  · exact h.gone rfl rfl
  split
  · exact h
  split
  · exact h.addTask rfl (.inl rfl)
  split
  · exact h.addTask rfl (.inl rfl)
  split
  · exact h.congr rfl rfl
  split
  · rename_i hended
    split
    · exact h.congr rfl rfl
    split
    · refine (h.start fun entry' hentry' => ?_).congr rfl rfl
      rw [hentry] at hentry'
      exact Option.some.inj hentry' ▸ isSome_of_any hended
    · exact h
  · exact h.congr rfl rfl

theorem Run.Owned.retryDeferred (h : run.Owned) (now : Int) (orphaned : Bool) : (run.retryDeferred now orphaned).Owned := by
  unfold Run.retryDeferred
  split
  · exact h
  rename_i entry hentry
  split
  · exact h
  rename_i hended
  split
  · exact h
  rename_i hfree
  rw [Bool.or_eq_true, not_or, Bool.not_eq_true, Bool.not_eq_true] at hfree
  split
  · exact h
  split
  · have hserves := h.serves entry hentry
    refine ⟨countP_begin hserves hfree.2 _, fun entry' hentry' => ?_⟩
    dsimp only [mapEntry, Run.addTask] at hentry'
    rw [hentry] at hentry'
    obtain rfl := Option.some.inj hentry'
    exact hserves.begin hfree.1 (by simpa [Option.isSome_iff_ne_none] using hended)
  · have hforgotten : ({ run with resumed := false } : Run Key).Owned := h.congr rfl rfl
    exact hforgotten.resume now orphaned

theorem Run.Owned.completeCleanup (h : run.Owned) : run.completeCleanup.Owned := by
  unfold Run.completeCleanup
  split
  · exact h
  rename_i entry hentry
  split
  · exact h.gone rfl rfl
  · refine ⟨h.one, fun entry' hentry' => ?_⟩
    dsimp only [mapEntry] at hentry'
    rw [hentry] at hentry'
    obtain rfl := Option.some.inj hentry'
    have hserves := h.serves entry hentry
    exact ⟨hserves.handled, hserves.ended, fun hkilled => ⟨rfl, (hserves.killed hkilled).2⟩⟩

theorem Run.Owned.complete (h : run.Owned) (endedAt : Int) (outcome : Outcome) (reason : EndedReason) :
    (run.completeSubagentRun endedAt outcome reason).Owned := by
  unfold Run.completeSubagentRun
  split
  · exact h
  rename_i entry hentry
  have hserves := h.serves entry hentry
  refine ⟨countP_add h.one rfl, fun entry' hentry' => ?_⟩
  obtain rfl := Option.some.inj hentry'
  refine ⟨fun task htask howns => ?_, fun _ _ _ => rfl, fun hkilled => ?_⟩
  · rcases List.mem_append.1 htask with hmem | hnew
    · obtain ⟨hhandled, hne⟩ := hserves.handled task hmem howns
      dsimp only
      rw [if_neg fun hreset => hne hreset.2.1]
      exact ⟨hhandled, hne⟩
    · obtain rfl := List.mem_singleton.1 hnew
      cases howns
  · dsimp only at hkilled ⊢
    split at hkilled
    · cases hkilled
    · rename_i hreset
      rw [if_neg hreset]
      exact ⟨(hserves.killed hkilled).1, rfl⟩

/-- What a task that owns the cleanup leaves behind owns nothing. -/
theorem Run.Owned.not_owns (h : run.Owned) (htask : run.tasks[i]? = some task) (howns : task.owns = true) :
    ∀ other ∈ run.tasks.eraseIdx i, ¬ other.owns = true := by
  obtain ⟨hi, rfl⟩ := List.getElem?_eq_some_iff.1 htask
  have hone := (List.getElem_cons_eraseIdx_perm hi).countP_eq Task.owns ▸ h.one
  rw [List.countP_cons_of_pos howns] at hone
  exact List.countP_eq_zero.1 (Nat.le_zero.1 (Nat.le_of_succ_le_succ hone))

theorem Run.Owned.ended {i : Nat} {task : Task} (h : run.Owned) (htask : run.tasks[i]? = some task)
    (hne : task ≠ .givingUp) :
    ∀ entry ∈ run.entry, entry.endedAt.isSome = true :=
  fun entry hentry => (h.serves entry hentry).ended task (List.mem_of_getElem? htask) hne

/-- A task is replaced by one that owns no more. -/
theorem Run.Owned.setTask (h : run.Owned) (htask : run.tasks[i]? = some task) (hne : task ≠ .givingUp)
    (howns : new.owns = true → task.owns = true) : (run.setTask i new).Owned := by
  refine ⟨?_, fun entry hentry => ?_⟩
  · obtain ⟨hi, rfl⟩ := List.getElem?_eq_some_iff.1 htask
    have hone := h.one
    rw [← (List.getElem_cons_eraseIdx_perm hi).countP_eq, List.countP_cons] at hone
    refine Nat.le_trans (Nat.le_of_eq ((List.set_perm_cons_eraseIdx hi new).countP_eq Task.owns)) (Nat.le_trans ?_ hone)
    rw [List.countP_cons]
    refine Nat.add_le_add_left ?_ _
    split
    · rename_i hnew
      exact Nat.le_of_eq (if_pos (howns hnew)).symm
    · exact Nat.zero_le _
  · have hserves := h.serves entry hentry
    refine ⟨fun other hother howns' => ?_, fun other hother hne' => ?_, hserves.killed⟩
    · rcases List.mem_or_eq_of_mem_set hother with hmem | rfl
      · exact hserves.handled other hmem howns'
      · exact hserves.handled task (List.mem_of_getElem? htask) (howns howns')
    · rcases List.mem_or_eq_of_mem_set hother with hmem | rfl
      · exact hserves.ended other hmem hne'
      · exact hserves.ended task (List.mem_of_getElem? htask) hne

/-- Nothing owns the cleanup any more, so that it may be had again. -/
theorem Run.Owned.release {run' : Run Key} (h : run.Owned) (htasks : run'.tasks = run.tasks.eraseIdx i)
    (hnone : ∀ task ∈ run.tasks.eraseIdx i, ¬ task.owns = true)
    (hentry : ∀ entry' ∈ run'.entry, ∃ entry ∈ run.entry, entry'.endedAt = entry.endedAt ∧
      entry'.suppressAnnounceReason = entry.suppressAnnounceReason ∧ entry'.cleanupCompleted = entry.cleanupCompleted) :
    run'.Owned := by
  refine ⟨?_, fun entry' hsome => ?_⟩
  · rw [htasks, List.countP_eq_zero.2 hnone]
    exact Nat.zero_le _
  · obtain ⟨entry, hentry, hended, hsuppress, hcompleted⟩ := hentry entry' hsome
    have hserves := h.serves entry hentry
    rw [htasks]
    refine ⟨fun task htask howns => absurd howns (hnone task htask), fun task htask hne => ?_, fun hkilled => ?_⟩
    · rw [hended]
      exact hserves.ended task (List.eraseIdx_subset htask) hne
    · rw [hended, hcompleted]
      exact hserves.killed (hsuppress ▸ hkilled)

theorem Run.Owned.reopen (h : run.Owned) (htask : run.tasks[i]? = some task) (howns : task.owns = true) :
    (run.dropTask i).reopen.Owned := by
  refine h.release rfl (h.not_owns htask howns) fun entry' hentry' => ?_
  obtain ⟨entry, hentry, rfl⟩ := Option.map_eq_some_iff.1 hentry'
  refine ⟨entry, hentry, ?_⟩
  split <;> exact ⟨rfl, rfl, rfl⟩

theorem Run.Owned.continueComplete (h : run.Owned) (htask : run.tasks[i]? = some (.completing reason)) :
    (run.continueComplete i reason).Owned := by
  unfold Run.continueComplete
  split
  · exact h.dropTask i
  split
  · exact h.dropTask i
  split
  · exact h.setTask htask (fun heq => nomatch heq) fun howns => nomatch howns
  · exact (h.dropTask i).start (h.ended htask fun heq => nomatch heq)

theorem Run.Owned.continueEndedHook (h : run.Owned) (htask : run.tasks[i]? = some .endedHook) (hookThrows : Bool) :
    (run.continueEndedHook i hookThrows).Owned := by
  unfold Run.continueEndedHook
  split
  · exact h.dropTask i
  · exact (h.dropTask i).start (h.ended htask fun heq => nomatch heq)

theorem Run.Owned.settleAnnounce (h : run.Owned) (htask : run.tasks[i]? = some .announcing)
    (didAnnounce taskUpdateThrows : Bool)
    (now : Int) (activeDescendantRuns : Nat) :
    (run.settleAnnounce i didAnnounce taskUpdateThrows now activeDescendantRuns).Owned := by
  have hnone := h.not_owns htask rfl
  have hne : Task.announcing ≠ .givingUp := fun heq => nomatch heq
  unfold Run.settleAnnounce
  dsimp only
  split
  · exact (h.dropTask i).congr rfl rfl
  rename_i entry hentry
  split
  · split
    · exact (h.reopen htask rfl).congr rfl rfl
    · exact (h.setTask htask hne fun _ => rfl).congr rfl rfl
  split
  · exact h.release rfl hnone fun entry' hentry' => ⟨entry, hentry, Option.some.inj hentry' ▸ ⟨rfl, rfl, rfl⟩⟩
  · rename_i retryCount _
    have hrecorded := h.recordRetry hentry retryCount now
    split
    · exact (hrecorded.reopen htask rfl).congr rfl rfl
    · exact (hrecorded.setTask htask hne fun _ => rfl).congr rfl rfl
  · exact h.release rfl hnone fun entry' hentry' => ⟨entry, hentry, Option.some.inj hentry' ▸ ⟨rfl, rfl, rfl⟩⟩

theorem Run.Owned.failCleanup (h : run.Owned) (htask : run.tasks[i]? = some task) (hcleanup : task.isCleanup = true) :
    (run.failCleanup i task).Owned := by
  cases task with
  | givingUp => exact h.dropTask i
  | finalizing didAnnounce => exact h.reopen htask rfl
  | expiring => exact h.reopen htask rfl
  | completing reason => cases hcleanup
  | endedHook => cases hcleanup
  | announcing => cases hcleanup

theorem Run.Owned.markSteerRestart (h : run.Owned) : run.markSubagentRunForSteerRestart.Owned := by
  unfold markSubagentRunForSteerRestart mapEntry
  cases hentry : run.entry with
  | none => exact h.gone rfl rfl
  | some entry => exact h.change hentry rfl id (fun hkilled => nomatch hkilled) rfl

theorem Run.Owned.clearSteerRestart (h : run.Owned) (now : Int) (orphaned : Bool) :
    (run.clearSubagentRunSteerRestart now orphaned).Owned := by
  unfold clearSubagentRunSteerRestart
  split
  · exact h
  rename_i entry hentry
  split
  · have hcleared : ({ run with entry := some { entry with suppressAnnounceReason := none } } : Run Key).Owned :=
      h.change hentry rfl id (fun hkilled => nomatch hkilled) rfl
    have hforgotten :
    ({ run with entry := some { entry with suppressAnnounceReason := none }, resumed := false } : Run Key).Owned :=
      hcleared.congr rfl rfl
    dsimp only
    split
    · exact hforgotten.resume now orphaned
    · exact hforgotten
  · exact h

theorem Run.Owned.terminate (h : run.Owned) (now : Int) : (run.terminate now).Owned := by
  unfold Run.terminate
  cases hentry : run.entry with
  | none => exact h.gone rfl rfl
  | some entry =>
    dsimp only [Option.map_some]
    split
    · exact h.congr hentry.symm rfl
    · rename_i hrunning
      have hserves := h.serves entry hentry
      refine ⟨h.one, fun entry' hentry' => ?_⟩
      obtain rfl := Option.some.inj hentry'
      refine ⟨fun task htask howns => ?_, fun _ _ _ => rfl, fun _ => ⟨rfl, rfl⟩⟩
      exact absurd (hserves.ended task htask fun heq => by rw [heq] at howns; cases howns) hrunning

theorem Run.Owned.timer (h : run.Owned) (i : Nat) (timer : Timer) (now : Int) (orphaned : Bool) :
    (run.fireTimer i timer now orphaned).Owned := by
  have hfired : ({ run with
      timers := run.timers.eraseIdx i
      resumed := if timer.backoff then false else run.resumed } : Run Key).Owned := h.congr rfl rfl
  exact hfired.resume now orphaned

theorem Run.Owned.moves {run' : Run Key} (h : run.Owned) (hmoves : Run.Moves fails ends run run') : run'.Owned := by
  cases hmoves with
  | register =>
    refine ⟨Nat.zero_le _, fun entry hentry =>
      ⟨fun _ htask => (nomatch htask), fun _ htask => (nomatch htask), fun hkilled => ?_⟩⟩
    obtain rfl := Option.some.inj hentry
    cases hkilled
  | remove => exact h.gone rfl rfl
  | setPending endedAt => exact h.congr rfl rfl
  | complete outcome reason hends => exact h.complete ..
  | continueComplete htask => exact h.continueComplete htask
  | continueEndedHook htask hookThrows => exact h.continueEndedHook htask hookThrows
  | settleAnnounce htask => exact h.settleAnnounce htask ..
  | failCleanup htask hcleanup => exact h.failCleanup htask hcleanup
  | finishCleanup htask hcleanup => exact (h.dropTask _).completeCleanup
  | completeCleanup => exact h.completeCleanup
  | retryDeferred now orphaned => exact h.retryDeferred now orphaned
  | markSteerRestart => exact h.markSteerRestart
  | clearSteerRestart now orphaned => exact h.clearSteerRestart now orphaned
  | terminate now => exact h.terminate now
  | timer i htimer now orphaned => exact h.timer i _ now orphaned

end Owned

end OpenClaw.SubagentRegistry
