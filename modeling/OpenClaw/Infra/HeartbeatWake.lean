import OpenClaw.Js.Text
import OpenClaw.Js.Double
import OpenClaw.Lib.Members
import OpenClaw.Lib.Transition

/-!
# Heartbeat reasons

What a heartbeat was asked for, read off the text of its reason.
-/

namespace OpenClaw.HeartbeatWake

open Js

inductive HeartbeatReasonKind where
  | retry
  | interval
  | manual
  | execEvent
  | wake
  | cron
  | hook
  | other
  deriving DecidableEq

def trimReason (reason : Option Text) : Text := trimChars (reason.getD [])

def normalizeHeartbeatWakeReason (reason : Option Text) : Text :=
  let trimmed := trimReason reason
  if 0 < trimmed.length then trimmed else "requested".toList

def resolveHeartbeatReasonKind (reason : Option Text) : HeartbeatReasonKind :=
  let trimmed := trimReason reason
  if trimmed = "retry".toList then .retry
  else if trimmed = "interval".toList then .interval
  else if trimmed = "manual".toList then .manual
  else if trimmed = "exec-event".toList then .execEvent
  else if trimmed = "wake".toList then .wake
  else if "acp:spawn:".toList.isPrefixOf trimmed then .wake
  else if "cron:".toList.isPrefixOf trimmed then .cron
  else if "hook:".toList.isPrefixOf trimmed then .hook
  else .other

def isHeartbeatActionWakeReason (reason : Option Text) : Bool :=
  let kind := resolveHeartbeatReasonKind reason
  kind = .manual || kind = .execEvent || kind = .hook

end OpenClaw.HeartbeatWake

/-!
# Heartbeat wakes

Requests for a heartbeat wait in a map by their target until a timer hands them to the
registered handler, one after another, as a batch. A batch goes on in the microtask in
which its handler's promise settles, so a step is a call into the module, the timer
firing, or such a promise settling.

Requests are numbered and a wake carries the numbers of those it stands for; the log
says which were made, handed to a handler and answered. The code has neither.
-/

namespace OpenClaw.HeartbeatWake

open Js Members Transition

-- ---
-- Wakes
-- ---

inductive WakeTimerKind where
  | normal
  | retry
  deriving DecidableEq

structure WakeTarget where
  agentId : Option Text
  sessionKey : Option Text
  deriving DecidableEq

structure PendingWakeReason extends WakeTarget where
  reason : Text
  priority : Nat
  requestedAt : Rat
  requests : List Nat
  deriving DecidableEq

namespace REASON_PRIORITY

def RETRY : Nat := 0
def INTERVAL : Nat := 1
def DEFAULT : Nat := 2
def ACTION : Nat := 3

end REASON_PRIORITY

def DEFAULT_COALESCE_MS : Rat := 250
def DEFAULT_RETRY_MS : Rat := 1000

def resolveReasonPriority (reason : Text) : Nat :=
  let kind := resolveHeartbeatReasonKind (some reason)
  if kind = .retry then REASON_PRIORITY.RETRY
  else if kind = .interval then REASON_PRIORITY.INTERVAL
  else if isHeartbeatActionWakeReason (some reason) then REASON_PRIORITY.ACTION
  else REASON_PRIORITY.DEFAULT

def normalizeWakeTarget (value : Option Text) : Option Text := trimmed? value

def WakeTarget.normalize (target : WakeTarget) : WakeTarget :=
  ⟨normalizeWakeTarget target.agentId, normalizeWakeTarget target.sessionKey⟩

def getWakeTargetKey (target : WakeTarget) : Text :=
  let target := target.normalize
  target.agentId.getD [] ++ "::".toList ++ target.sessionKey.getD []

-- ---
-- States
-- ---

/-- The armed timer, with the delay its callback closes over. -/
structure Timer where
  dueAt : Rat
  kind : WakeTimerKind
  delay : Rat
  deriving DecidableEq

/-- A batch whose handler works on `current`. -/
structure Batch where
  active : Nat
  delay : Rat
  answered : List PendingWakeReason
  current : PendingWakeReason
  waiting : List PendingWakeReason

/-- `pendingBatch` -/
def Batch.pendingBatch (batch : Batch) : List PendingWakeReason := batch.answered ++ batch.current :: batch.waiting

inductive Entry where
  | requested (request : Nat) (target : WakeTarget)
  | handed (active : Nat) (wake : PendingWakeReason)
  | ran (wake : PendingWakeReason)

/-- The variables of the module and the batches whose promises are pending. The log has
its last entry first. -/
structure State where
  handler : Option Nat
  handlerGeneration : Nat
  pendingWakes : List (Text × PendingWakeReason)
  scheduled : Bool
  running : Bool
  timer : Option Timer
  batches : List Batch
  registrations : List (Nat × Option Nat)
  nextRequest : Nat
  log : List Entry

def State.initial : State where
  handler := none
  handlerGeneration := 0
  pendingWakes := []
  scheduled := false
  running := false
  timer := none
  batches := []
  registrations := []
  nextRequest := 0
  log := []

-- ---
-- The operations
-- ---

/-- The wake that stays for a target, for the requests of both. -/
def coalesce (previous next : PendingWakeReason) : PendingWakeReason :=
  let requests := previous.requests ++ next.requests
  if next.priority > previous.priority then { next with requests }
  else if next.priority = previous.priority ∧ next.requestedAt ≥ previous.requestedAt then { next with requests }
  else { previous with requests }

def queuePendingWakeReason (s : State) (reason : Option Text) (target : WakeTarget) (requests : List Nat)
    (now : Rat) : State :=
  let normalizedReason := normalizeHeartbeatWakeReason reason
  let next : PendingWakeReason :=
    { target.normalize with
      reason := normalizedReason
      priority := resolveReasonPriority normalizedReason
      requestedAt := now
      requests }
  let wakeTargetKey := getWakeTargetKey next.toWakeTarget
  let wake := match s.pendingWakes.lookup wakeTargetKey with
    | none => next
    | some previous => coalesce previous next
  { s with pendingWakes := assign s.pendingWakes wakeTargetKey wake }

def schedule (s : State) (coalesceMs : Number) (kind : WakeTimerKind) (now : Rat) : State :=
  let delay := coalesceMs.finite?.elim DEFAULT_COALESCE_MS (max 0)
  let dueAt := now + delay
  let armed : State := { s with timer := some ⟨dueAt, kind, delay⟩ }
  match s.timer with
  | none => armed
  | some timer => if timer.kind = .retry then s else if timer.dueAt ≤ dueAt then s else armed

/-- A wake is queued again for the requests it stands for. -/
def requeue (now : Rat) (s : State) (wake : PendingWakeReason) : State :=
  queuePendingWakeReason s (some wake.reason) wake.toWakeTarget wake.requests now

/-- The `finally` block. -/
def endBatch (s : State) (delay now : Rat) : State :=
  let s : State := { s with running := false }
  if 0 < s.pendingWakes.length ∨ s.scheduled then schedule s (.fin delay) .normal now else s

/-- The loop over the wakes that are left: the next one is handed to the handler. -/
def runBatch (s : State) (active : Nat) (delay : Rat) (answered waiting : List PendingWakeReason) (now : Rat) : State :=
  match waiting with
  | [] => endBatch s delay now
  | wake :: waiting =>
    { s with
      batches := s.batches ++ [⟨active, delay, answered, wake, waiting⟩]
      log := .handed active wake :: s.log }

/-- The callback of the timer. -/
def fire (s : State) (timer : Timer) (now : Rat) : State :=
  let s : State := { s with timer := none, scheduled := false }
  match s.handler with
  | none => s
  | some active =>
    if s.running then schedule { s with scheduled := true } (.fin timer.delay) timer.kind now
    else
      let pendingBatch := s.pendingWakes.map Prod.snd
      runBatch { s with pendingWakes := [], running := true } active timer.delay [] pendingBatch now

inductive HeartbeatRunResult where
  | ran
  | skipped (reason : Text)
  | failed (reason : Text)

/-- What the handler's promise settles with: `none` where it is rejected. -/
abbrev Settled := Option HeartbeatRunResult

/-- The body of the loop, after its `await`. -/
def answer (s : State) (wake : PendingWakeReason) (res : HeartbeatRunResult) (now : Rat) : State :=
  match res with
  | .ran => { s with log := .ran wake :: s.log }
  | .skipped reason =>
    if reason = "requests-in-flight".toList then
      schedule (requeue now s wake) (.fin DEFAULT_RETRY_MS) .retry now
    else s
  | .failed _ => s

/-- The promise of a batch settles. -/
def settle (s : State) (batch : Batch) (settled : Settled) (now : Rat) : State :=
  match settled with
  | some res =>
    runBatch (answer s batch.current res now) batch.active batch.delay (batch.answered ++ [batch.current])
      batch.waiting now
  | none =>
    endBatch (schedule (batch.pendingBatch.foldl (requeue now) s) (.fin DEFAULT_RETRY_MS) .retry now) batch.delay now

def setHeartbeatWakeHandler (s : State) (next : Option Nat) (now : Rat) : State :=
  let handlerGeneration := s.handlerGeneration + 1
  let s : State :=
    { s with
      handlerGeneration
      handler := next
      registrations := s.registrations ++ [(handlerGeneration, next)] }
  let s : State := if next.isSome then { s with timer := none, running := false, scheduled := false } else s
  if s.handler.isSome ∧ 0 < s.pendingWakes.length then schedule s (.fin DEFAULT_COALESCE_MS) .normal now else s

/-- The function that `setHeartbeatWakeHandler` returned. -/
def dispose (s : State) (generation : Nat) (next : Option Nat) : State :=
  if s.handlerGeneration ≠ generation then s
  else if s.handler ≠ next then s
  else { s with handlerGeneration := s.handlerGeneration + 1, handler := none }

def requestHeartbeatNow (s : State) (reason agentId sessionKey : Option Text) (coalesceMs : Option Number)
    (now : Rat) : State :=
  let target : WakeTarget := ⟨agentId, sessionKey⟩
  let asked : State :=
    { s with nextRequest := s.nextRequest + 1, log := .requested s.nextRequest target.normalize :: s.log }
  schedule (queuePendingWakeReason asked reason target [s.nextRequest] now)
    (coalesceMs.getD (.fin DEFAULT_COALESCE_MS)) .normal now

-- ---
-- What they change
-- ---

@[simp] theorem WakeTarget.normalize_normalize (target : WakeTarget) : target.normalize.normalize = target.normalize := by
  simp [WakeTarget.normalize, normalizeWakeTarget]

@[simp] theorem getWakeTargetKey_normalize (target : WakeTarget) :
    getWakeTargetKey target.normalize = getWakeTargetKey target := by
  simp [getWakeTargetKey]

theorem coalesce_eq (previous next : PendingWakeReason) :
    (coalesce previous next).requests = previous.requests ++ next.requests ∧
      ((coalesce previous next).toWakeTarget = next.toWakeTarget ∨
        (coalesce previous next).toWakeTarget = previous.toWakeTarget) := by
  unfold coalesce
  split
  · exact ⟨rfl, .inl rfl⟩
  · split
    · exact ⟨rfl, .inl rfl⟩
    · exact ⟨rfl, .inr rfl⟩

/-- The requests a key waits for. -/
def State.requestsFor (s : State) (key : Text) : List Nat := (s.pendingWakes.lookup key).elim [] (·.requests)

theorem queuePendingWakeReason_eq (s : State) (reason : Option Text) (target : WakeTarget) (requests : List Nat)
    (now : Rat) :
    ∃ wake : PendingWakeReason,
      queuePendingWakeReason s reason target requests now =
        { s with pendingWakes := assign s.pendingWakes (getWakeTargetKey target) wake } ∧
      wake.requests = s.requestsFor (getWakeTargetKey target) ++ requests ∧
      (wake.toWakeTarget = target.normalize ∨
        ∃ previous, s.pendingWakes.lookup (getWakeTargetKey target) = some previous ∧
          wake.toWakeTarget = previous.toWakeTarget) := by
  simp only [queuePendingWakeReason, getWakeTargetKey_normalize, State.requestsFor]
  cases s.pendingWakes.lookup (getWakeTargetKey target) with
  | none => exact ⟨_, rfl, rfl, .inl rfl⟩
  | some previous =>
    obtain ⟨hrequests, htarget⟩ := coalesce_eq previous _
    exact ⟨_, rfl, hrequests, htarget.imp id fun heq => ⟨previous, rfl, heq⟩⟩

/-- A timer is armed afterwards. -/
theorem schedule_eq (s : State) (coalesceMs : Number) (kind : WakeTimerKind) (now : Rat) :
    ∃ timer, schedule s coalesceMs kind now = { s with timer := some timer } := by
  unfold schedule
  cases htimer : s.timer with
  | none => exact ⟨_, rfl⟩
  | some timer =>
    have hsame : s = { s with timer := some timer } := by rw [← htimer]
    dsimp only
    split
    · exact ⟨timer, hsame⟩
    · split
      · exact ⟨timer, hsame⟩
      · exact ⟨_, rfl⟩

theorem endBatch_eq (s : State) (delay now : Rat) :
    ∃ timer, endBatch s delay now = { s with running := false, timer } ∧
      (s.pendingWakes ≠ [] ∨ s.timer.isSome → timer.isSome) := by
  unfold endBatch
  dsimp only
  split
  · obtain ⟨timer, heq⟩ := schedule_eq { s with running := false } (.fin delay) .normal now
    exact ⟨some timer, heq, fun _ => rfl⟩
  case isFalse hidle =>
    refine ⟨s.timer, rfl, ?_⟩
    rintro (hpending | htimer)
    · exact absurd (.inl (List.length_pos_of_ne_nil hpending)) hidle
    · exact htimer

theorem dispose_cases (s : State) (generation : Nat) (next : Option Nat) :
    dispose s generation next = s ∨
      dispose s generation next = { s with handlerGeneration := s.handlerGeneration + 1, handler := none } := by
  unfold dispose
  split
  · exact .inl rfl
  · split
    · exact .inl rfl
    · exact .inr rfl

-- ---
-- Steps
-- ---

inductive Label where
  | requestHeartbeatNow (reason agentId sessionKey : Option Text) (coalesceMs : Option Number) (now : Rat)
  | setHeartbeatWakeHandler (next : Option Nat) (now : Rat)
  | dispose (registration : Nat)
  | fire (now : Rat)
  | settled (index : Nat) (settled : Settled) (now : Rat)

def step (s : State) : Label → Option State
  | .requestHeartbeatNow reason agentId sessionKey coalesceMs now =>
    some (requestHeartbeatNow s reason agentId sessionKey coalesceMs now)
  | .setHeartbeatWakeHandler next now => some (setHeartbeatWakeHandler s next now)
  | .dispose registration => s.registrations[registration]?.map fun made => dispose s made.1 made.2
  | .fire now => s.timer.map fun timer => fire s timer now
  | .settled index settled now =>
    s.batches[index]?.map fun batch => settle { s with batches := s.batches.eraseIdx index } batch settled now

def system : System State Label where
  init s := s = .initial
  step := step

end OpenClaw.HeartbeatWake
