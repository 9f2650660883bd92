import OpenClaw.Lib.Transition
import Mathlib.Algebra.Group.Nat.Defs
import Mathlib.Logic.Function.Basic

/-!
# The subagent registry

A run that has ended is announced to whoever asked for it, and then cleaned up. An announce
that did not get through is tried again, later or when another run is cleaned up.
-/

namespace OpenClaw.SubagentRegistry

open Transition

-- ---
-- Entries
-- ---

inductive Cleanup where
  | delete
  | keep
  deriving DecidableEq

inductive Outcome where
  | ok
  | error
  | timeout
  deriving DecidableEq

inductive EndedReason where
  | complete
  | error
  | killed
  deriving DecidableEq

inductive SuppressReason where
  | steerRestart
  | killed
  deriving DecidableEq

/-- `cleanupCompleted` says whether `cleanupCompletedAt` is set. -/
structure Entry (Key : Type) where
  childSessionKey : Key
  requesterSessionKey : Key
  createdAt : Int
  cleanup : Cleanup
  sessionMode : Bool
  expectsCompletionMessage : Bool
  endedAt : Option Int
  outcome : Option Outcome
  endedReason : Option EndedReason
  cleanupHandled : Bool
  cleanupCompleted : Bool
  suppressAnnounceReason : Option SuppressReason
  announceRetryCount : Nat
  lastAnnounceRetryAt : Option Int

variable {Key RunId : Type}

namespace Entry

variable (entry : Entry Key)

def suppressAnnounceForSteerRestart : Bool := entry.suppressAnnounceReason = some .steerRestart

def shouldKeepThreadBindingAfterRun (reason : EndedReason) : Bool :=
  if reason = .killed then false else entry.sessionMode

def shouldEmitEndedHookForRun (reason : EndedReason) : Bool := !entry.shouldKeepThreadBindingAfterRun reason

def resolveCleanupCompletionReason : EndedReason := entry.endedReason.getD .complete

/-- Whether `emitCompletionEndedHookIfNeeded` calls the hook. -/
def needsEndedHook : Bool :=
  entry.expectsCompletionMessage && entry.shouldEmitEndedHookForRun entry.resolveCleanupCompletionReason

/-- An announce that failed is counted, if it counts. -/
def recordRetry (retryCount : Option Nat) (now : Int) : Entry Key :=
  match retryCount with
  | none => entry
  | some announceRetryCount => { entry with announceRetryCount, lastAnnounceRetryAt := some now }

end Entry

-- ---
-- Deferred cleanup
-- ---

def MIN_ANNOUNCE_RETRY_DELAY_MS : Nat := 1000
def MAX_ANNOUNCE_RETRY_DELAY_MS : Nat := 8000
def MAX_ANNOUNCE_RETRY_COUNT : Nat := 3
def ANNOUNCE_EXPIRY_MS : Int := 5 * 60000
def ANNOUNCE_COMPLETION_HARD_EXPIRY_MS : Int := 30 * 60000

def resolveAnnounceRetryDelayMs (retryCount : Nat) : Nat :=
  min (MIN_ANNOUNCE_RETRY_DELAY_MS * 2 ^ (min retryCount 10 - 1)) MAX_ANNOUNCE_RETRY_DELAY_MS

inductive DeferredCleanupDecision where
  | deferDescendants (delayMs : Nat)
  | giveUp (retryCount : Option Nat)
  | retry (retryCount : Nat) (resumeDelayMs : Option Nat)

def resolveEndedAgoMs (entry : Entry Key) (now : Int) : Int := entry.endedAt.elim 0 (now - ·)

def resolveDeferredCleanupDecision (entry : Entry Key) (now : Int) (activeDescendantRuns : Nat) : DeferredCleanupDecision :=
  let endedAgo := resolveEndedAgoMs entry now
  let completionHardExpiryExceeded :=
    entry.expectsCompletionMessage && decide (ANNOUNCE_COMPLETION_HARD_EXPIRY_MS < endedAgo)
  if entry.expectsCompletionMessage ∧ 0 < activeDescendantRuns then
    if completionHardExpiryExceeded then .giveUp none else .deferDescendants MIN_ANNOUNCE_RETRY_DELAY_MS
  else
    let retryCount := entry.announceRetryCount + 1
    let expiryExceeded :=
      if entry.expectsCompletionMessage then completionHardExpiryExceeded else decide (ANNOUNCE_EXPIRY_MS < endedAgo)
    if MAX_ANNOUNCE_RETRY_COUNT ≤ retryCount ∨ expiryExceeded then .giveUp (some retryCount)
    else .retry retryCount (if entry.expectsCompletionMessage then some (resolveAnnounceRetryDelayMs retryCount) else none)

-- ---
-- Runs
-- ---

/-- What is under way for a run: calls that complete it, an announce, what follows an announce, and those that give it up,
when it is resumed or when it has expired. -/
inductive Task where
  | completing (reason : EndedReason)
  | endedHook
  | announcing
  | finalizing (didAnnounce : Bool)
  | givingUp
  | expiring
  deriving DecidableEq

/-- What is left of a cleanup whose announce is settled, or that has none. -/
def Task.isCleanup : Task → Bool
  | .finalizing _ | .givingUp | .expiring => true
  | .completing _ | .endedHook | .announcing => false

/-- A timer that resumes the run. With `backoff` it forgets first that the run was resumed. -/
structure Timer where
  backoff : Bool
  dueMs : Int

/-- The announces of a run, and those that were put off for the sake of descendants. -/
inductive Event where
  | started
  | settled (didAnnounce : Bool)
  | deferred
  deriving DecidableEq

/-- What there is about one run. `resumed` is whether it is in `resumedRuns`, and `pendingError` is when it ended, in
`pendingLifecycleErrorByRunId`. -/
structure Run (Key : Type) where
  entry : Option (Entry Key)
  resumed : Bool
  pendingError : Option Int
  tasks : List Task
  timers : List Timer
  history : List Event

def Run.unknown : Run Key := ⟨none, false, none, [], [], []⟩

namespace Run

variable (run : Run Key)

def mapEntry (f : Entry Key → Entry Key) : Run Key := { run with entry := run.entry.map f }

def addTask (task : Task) : Run Key := { run with tasks := run.tasks ++ [task] }

def dropTask (i : Nat) : Run Key := { run with tasks := run.tasks.eraseIdx i }

def setTask (i : Nat) (task : Task) : Run Key := { run with tasks := run.tasks.set i task }

/-- Whether `beginSubagentCleanup` succeeds. -/
def beginsCleanup : Bool :=
  match run.entry with
  | none => false
  | some entry => !(entry.cleanupCompleted || entry.cleanupHandled)

def startSubagentAnnounceCleanupFlow : Run Key :=
  if run.beginsCleanup then
    { run.mapEntry (fun entry => { entry with cleanupHandled := true }) with
      tasks := run.tasks ++ [.announcing]
      history := run.history ++ [.started] }
  else run

/-- When the run may be announced again, if that is not yet. -/
def backsOff (entry : Entry Key) (now : Int) : Option Int :=
  match entry.lastAnnounceRetryAt with
  | none => none
  | some lastAnnounceRetryAt =>
    let earliestRetryAt := lastAnnounceRetryAt + resolveAnnounceRetryDelayMs entry.announceRetryCount
    if entry.expectsCompletionMessage ∧ now < earliestRetryAt then some earliestRetryAt else none

def resumeSubagentRun (now : Int) (orphaned : Bool) : Run Key :=
  if run.resumed then run
  else
    match run.entry with
    | none => run
    | some entry =>
      if orphaned then { run with entry := none }
      else if entry.cleanupCompleted then run
      else if MAX_ANNOUNCE_RETRY_COUNT ≤ entry.announceRetryCount then run.addTask .givingUp
      else if !entry.expectsCompletionMessage ∧ entry.endedAt.any (fun endedAt => ANNOUNCE_EXPIRY_MS < now - endedAt) then
        run.addTask .givingUp
      else
        match backsOff entry now with
        | some earliestRetryAt => { run with resumed := true, timers := run.timers ++ [⟨true, earliestRetryAt⟩] }
        | none =>
          if entry.endedAt.any (0 < ·) then
            if entry.suppressAnnounceForSteerRestart then { run with resumed := true }
            else if run.beginsCleanup then { run.startSubagentAnnounceCleanupFlow with resumed := true }
            else run
          -- it waits for the run to complete
          else { run with resumed := true }

/-- What `retryDeferredCompletedAnnounces` does about one run. -/
def retryDeferred (now : Int) (orphaned : Bool) : Run Key :=
  match run.entry with
  | none => run
  | some entry =>
    if entry.endedAt.isNone then run
    else if entry.cleanupCompleted || entry.cleanupHandled then run
    else if entry.suppressAnnounceForSteerRestart then run
    else if !entry.expectsCompletionMessage ∧ entry.endedAt.any (fun endedAt => ANNOUNCE_EXPIRY_MS < now - endedAt) then
      (run.mapEntry fun entry => { entry with cleanupHandled := true }).addTask .expiring
    else { run with resumed := false }.resumeSubagentRun now orphaned

/-- What `completeCleanupBookkeeping` does about the run itself. -/
def completeCleanup : Run Key :=
  match run.entry with
  | none => run
  | some entry =>
    match entry.cleanup with
    | .delete => { run with entry := none, pendingError := none }
    | .keep => run.mapEntry fun entry => { entry with cleanupCompleted := true }

/-- What is done when the end of a cleanup fails. -/
def reopen : Run Key :=
  run.mapEntry fun entry => if entry.cleanupCompleted then entry else { entry with cleanupHandled := false }

/-- `completeSubagentRun`, up to where it waits. -/
def completeSubagentRun (endedAt : Int) (outcome : Outcome) (reason : EndedReason) : Run Key :=
  match run.entry with
  | none => run
  | some entry =>
    let entry :=
      if reason = .complete ∧ entry.suppressAnnounceReason = some .killed ∧
          (entry.cleanupHandled || entry.cleanupCompleted) then
        { entry with suppressAnnounceReason := none, cleanupHandled := false, cleanupCompleted := false }
      else entry
    { run with
      entry := some { entry with endedAt := some endedAt, outcome := some outcome, endedReason := some reason }
      pendingError := none
      tasks := run.tasks ++ [.completing reason] }

/-- The rest of it, with the `i`-th task. -/
def continueComplete (i : Nat) (reason : EndedReason) : Run Key :=
  match run.entry with
  | none => run.dropTask i
  | some entry =>
    if entry.suppressAnnounceForSteerRestart then run.dropTask i
    else if entry.shouldEmitEndedHookForRun reason ∧ !entry.expectsCompletionMessage then run.setTask i .endedHook
    else (run.dropTask i).startSubagentAnnounceCleanupFlow

def continueEndedHook (i : Nat) (hookThrows : Bool) : Run Key :=
  if hookThrows then run.dropTask i else (run.dropTask i).startSubagentAnnounceCleanupFlow

/-- `finalizeSubagentCleanup`, up to where it waits, after the `i`-th task, an announce. -/
def settleAnnounce (i : Nat) (didAnnounce taskUpdateThrows : Bool) (now : Int) (activeDescendantRuns : Nat) : Run Key :=
  let run : Run Key := { run with history := run.history ++ [.settled didAnnounce] }
  match run.entry with
  | none => run.dropTask i
  | some entry =>
    if didAnnounce then
      if taskUpdateThrows then (run.dropTask i).reopen else run.setTask i (.finalizing true)
    else
      match resolveDeferredCleanupDecision entry now activeDescendantRuns with
      | .deferDescendants delayMs =>
        { run.dropTask i with
          entry := some { entry with lastAnnounceRetryAt := some now, cleanupHandled := false }
          resumed := false
          timers := run.timers ++ [⟨false, now + delayMs⟩]
          history := run.history ++ [.deferred] }
      | .giveUp retryCount =>
        let run : Run Key := { run with entry := some (entry.recordRetry retryCount now) }
        if taskUpdateThrows then (run.dropTask i).reopen else run.setTask i (.finalizing false)
      | .retry retryCount resumeDelayMs =>
        { run.dropTask i with
          entry := some { entry.recordRetry (some retryCount) now with cleanupHandled := false }
          resumed := false
          timers := run.timers ++ (resumeDelayMs.map fun delayMs => ⟨false, now + delayMs⟩).toList }

/-- The end of a cleanup fails. Only a cleanup that was begun lets others try. -/
def failCleanup (i : Nat) : Task → Run Key
  | .givingUp => run.dropTask i
  | _ => (run.dropTask i).reopen

def markSubagentRunForSteerRestart : Run Key :=
  run.mapEntry fun entry => { entry with suppressAnnounceReason := some .steerRestart }

def clearSubagentRunSteerRestart (now : Int) (orphaned : Bool) : Run Key :=
  match run.entry with
  | none => run
  | some entry =>
    if entry.suppressAnnounceForSteerRestart then
      let run := { run with entry := some { entry with suppressAnnounceReason := none }, resumed := false }
      if entry.endedAt.isSome ∧ !entry.cleanupCompleted then run.resumeSubagentRun now orphaned else run
    else run

/-- What `markSubagentRunTerminated` does about one run. -/
def terminate (now : Int) : Run Key :=
  { run with
    pendingError := none
    entry := run.entry.map fun entry =>
      if entry.endedAt.isSome then entry
      else
        { entry with
          endedAt := some now
          outcome := some .error
          endedReason := some .killed
          cleanupHandled := true
          cleanupCompleted := true
          suppressAnnounceReason := some .killed } }

/-- The `i`-th timer fires. -/
def fireTimer (i : Nat) (timer : Timer) (now : Int) (orphaned : Bool) : Run Key :=
  { run with
    timers := run.timers.eraseIdx i
    resumed := if timer.backoff then false else run.resumed }.resumeSubagentRun now orphaned

end Run

-- ---
-- The registry
-- ---

/-- `order` are the ids of the runs that were registered, each once, in their order. -/
structure Registry (Key RunId : Type) where
  now : Int
  order : List RunId
  run : RunId → Run Key

/-- `countPendingDescendantRuns` looks at the runs there are. -/
abbrev CountPending (Key RunId : Type) := List (RunId × Entry Key) → Key → Nat

namespace Registry

variable [DecidableEq RunId] (r : Registry Key RunId)

/-- `subagentRuns` -/
def runs : List (RunId × Entry Key) :=
  r.order.filterMap fun runId => (r.run runId).entry.map (runId, ·)

def put (runId : RunId) (run : Run Key) : Registry Key RunId := { r with run := Function.update r.run runId run }

def retryDeferredCompletedAnnounces (excludeRunId : RunId) (orphaned : RunId → Bool) : Registry Key RunId :=
  r.order.foldl (fun r runId =>
    if runId = excludeRunId then r else r.put runId ((r.run runId).retryDeferred r.now (orphaned runId))) r

def completeCleanupBookkeeping (runId : RunId) (run : Run Key) (orphaned : RunId → Bool) : Registry Key RunId :=
  (r.put runId run.completeCleanup).retryDeferredCompletedAnnounces runId orphaned

def activeDescendantRuns (countPending : CountPending Key RunId) (runId : RunId) : Nat :=
  (r.run runId).entry.elim 0 fun entry => countPending r.runs entry.childSessionKey

/-- The runs a kill is about. -/
def runIdsOf [DecidableEq Key] (runId : Option RunId) (childSessionKey : Option Key) : List RunId :=
  runId.toList ++ (r.runs.filter fun (_, entry) => some entry.childSessionKey = childSessionKey).map Prod.fst

/-- Those of them that run still, each with the key of its session. -/
def unended (runIds : List RunId) : List (RunId × Key) :=
  runIds.filterMap fun runId =>
    (r.run runId).entry.bind fun entry => if entry.endedAt.isSome then none else some (runId, entry.childSessionKey)

def terminateAll (runIds : List RunId) : Registry Key RunId :=
  runIds.foldl (fun r runId => r.put runId ((r.run runId).terminate r.now)) r

/-- The first run of each session. -/
def firstOfSessions [DecidableEq Key] : List (RunId × Key) → List (RunId × Key)
  | [] => []
  | first :: rest => first :: (firstOfSessions rest).filter fun other => other.2 ≠ first.2

def markSubagentRunTerminated [DecidableEq Key] (runId : Option RunId) (childSessionKey : Option Key)
    (orphaned : RunId → Bool) : Registry Key RunId :=
  let runIds := r.runIdsOf runId childSessionKey
  (firstOfSessions (r.unended runIds)).foldl
    (fun r killed => r.completeCleanupBookkeeping killed.1 (r.run killed.1) orphaned) (r.terminateAll runIds)

end Registry

-- ---
-- Steps
-- ---

inductive WaitStatus where
  | ok
  | error
  | timeout

def WaitStatus.outcome : WaitStatus → Outcome
  | ok => .ok
  | error => .error
  | timeout => .timeout

def WaitStatus.reason : WaitStatus → EndedReason
  | error => .error
  | ok | timeout => .complete

/-- A step that resumes runs is told which of them have lost their session. -/
inductive Label (Key RunId : Type) where
  | tick (ms : Nat)
  | register (runId : RunId) (childSessionKey requesterSessionKey : Key) (cleanup : Cleanup)
      (sessionMode expectsCompletionMessage : Bool)
  | remove (runId : RunId)
  | lifecycleStart (runId : RunId)
  | lifecycleEnd (runId : RunId) (endedAt : Option Int) (aborted : Bool)
  | lifecycleError (runId : RunId) (endedAt : Option Int)
  | lifecycleErrorTimer (runId : RunId)
  | agentWait (runId : RunId) (status : WaitStatus) (endedAt : Option Int)
  | kill (runId : Option RunId) (childSessionKey : Option Key) (orphaned : RunId → Bool)
  | markSteerRestart (runId : RunId)
  | clearSteerRestart (runId : RunId) (orphaned : Bool)
  | continueTask (runId : RunId) (i : Nat) (hookThrows : Bool)
  | settleAnnounce (runId : RunId) (i : Nat) (didAnnounce taskUpdateThrows : Bool)
  | finishCleanup (runId : RunId) (i : Nat) (hookThrows : Bool) (orphaned : RunId → Bool)
  | timer (runId : RunId) (i : Nat) (orphaned : Bool)

variable [DecidableEq Key] [DecidableEq RunId] (countPending : CountPending Key RunId)

/-- The entry as `registerSubagentRun` makes it. -/
def newEntry (childSessionKey requesterSessionKey : Key) (createdAt : Int) (cleanup : Cleanup)
    (sessionMode expectsCompletionMessage : Bool) : Entry Key where
  childSessionKey
  requesterSessionKey
  createdAt
  cleanup
  sessionMode
  expectsCompletionMessage
  endedAt := none
  outcome := none
  endedReason := none
  cleanupHandled := false
  cleanupCompleted := false
  suppressAnnounceReason := none
  announceRetryCount := 0
  lastAnnounceRetryAt := none

/-- When a run ended, as the result of `agent.wait` tells. -/
def waitEndedAt (entry : Entry Key) (endedAt : Option Int) (now : Int) : Int :=
  match endedAt.or entry.endedAt with
  | none => now
  | some endedAt => if endedAt = 0 then now else endedAt

/-- An id is given to one run only, of which nothing is known before. -/
def registryStep (r : Registry Key RunId) : Label Key RunId → Option (Registry Key RunId)
  | .tick ms => some { r with now := r.now + ms }
  | .register runId childSessionKey requesterSessionKey cleanup sessionMode expectsCompletionMessage =>
    if runId ∈ r.order then none
    else
      some { r.put runId { (Run.unknown : Run Key) with
          entry := some (newEntry childSessionKey requesterSessionKey r.now cleanup sessionMode expectsCompletionMessage) } with
        order := r.order ++ [runId] }
  | .remove runId => some (r.put runId { r.run runId with entry := none, pendingError := none })
  | .lifecycleStart runId => some (r.put runId { r.run runId with pendingError := none })
  | .lifecycleEnd runId endedAt aborted =>
    some (r.put runId ((r.run runId).completeSubagentRun (endedAt.getD r.now) (if aborted then .timeout else .ok) .complete))
  | .lifecycleError runId endedAt =>
    if (r.run runId).entry.isSome then some (r.put runId { r.run runId with pendingError := some (endedAt.getD r.now) })
    else none
  | .lifecycleErrorTimer runId =>
    match (r.run runId).pendingError, (r.run runId).entry with
    | none, _ => none
    | some _, none => some (r.put runId { r.run runId with pendingError := none })
    | some endedAt, some entry =>
      if entry.endedReason = some .complete ∨ entry.outcome = some .ok then
        some (r.put runId { r.run runId with pendingError := none })
      else some (r.put runId ((r.run runId).completeSubagentRun endedAt .error .error))
  | .agentWait runId status endedAt =>
    match (r.run runId).entry with
    | none => none
    | some entry =>
      some (r.put runId ((r.run runId).completeSubagentRun (waitEndedAt entry endedAt r.now) status.outcome status.reason))
  | .kill runId childSessionKey orphaned => some (r.markSubagentRunTerminated runId childSessionKey orphaned)
  | .markSteerRestart runId => some (r.put runId (r.run runId).markSubagentRunForSteerRestart)
  | .clearSteerRestart runId orphaned => some (r.put runId ((r.run runId).clearSubagentRunSteerRestart r.now orphaned))
  | .continueTask runId i hookThrows =>
    match (r.run runId).tasks[i]? with
    | some (.completing reason) => some (r.put runId ((r.run runId).continueComplete i reason))
    | some .endedHook => some (r.put runId ((r.run runId).continueEndedHook i hookThrows))
    | _ => none
  | .settleAnnounce runId i didAnnounce taskUpdateThrows =>
    match (r.run runId).tasks[i]? with
    | some .announcing =>
      some (r.put runId ((r.run runId).settleAnnounce i didAnnounce taskUpdateThrows r.now
        (r.activeDescendantRuns countPending runId)))
    | _ => none
  | .finishCleanup runId i hookThrows orphaned =>
    match (r.run runId).tasks[i]? with
    | none => none
    | some task =>
      if task.isCleanup then
        if hookThrows ∧ (r.run runId).entry.all Entry.needsEndedHook then some (r.put runId ((r.run runId).failCleanup i task))
        else some (r.completeCleanupBookkeeping runId ((r.run runId).dropTask i) orphaned)
      else none
  | .timer runId i orphaned =>
    match (r.run runId).timers[i]? with
    | none => none
    | some timer =>
      if timer.dueMs ≤ r.now then some (r.put runId ((r.run runId).fireTimer i timer r.now orphaned)) else none

def registrySystem : System (Registry Key RunId) (Label Key RunId) where
  init r := 0 < r.now ∧ r.order = [] ∧ r.run = fun _ => Run.unknown
  step := registryStep countPending

end OpenClaw.SubagentRegistry
