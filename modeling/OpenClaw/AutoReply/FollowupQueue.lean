import OpenClaw.Utils.QueueDrain

/-!
# The follow-up queue

Messages that come in while a session runs wait in the queue of its key. The drain of
the queue passes them to a callback, which makes them runs of their own. Clearing the
queue takes it out of the registry, whatever its drain is doing.
-/

namespace OpenClaw.FollowupQueue

open Js Members Transition QueueHelpers QueueDrain

-- ---
-- Messages
-- ---

inductive ThreadId
  | text (id : String)
  | number (id : Int)
  deriving DecidableEq

/-- `run` is what the session of the message runs with. -/
structure FollowupRun (R : Type) where
  prompt : CodeUnits
  messageId : Option String
  summaryLine : Option CodeUnits
  originatingChannel : Option String
  originatingTo : Option String
  originatingAccountId : Option String
  originatingThreadId : Option ThreadId
  run : R

variable {R C : Type}

def ThreadId.toString : ThreadId → String
  | .text id => id
  | .number id => s!"{id}"

/-- A string that is there and is not empty. -/
def nonEmpty (text : Option String) : Option String := text.filter (· ≠ "")

def presentThread (thread : Option ThreadId) : Option ThreadId := thread.filter (· ≠ .text "")

/-- `isRoutableChannel` depends on the channel plugins that are loaded. -/
def resolveCrossChannelKey (isRoutableChannel : Option String → Bool) (item : FollowupRun R) : CrossKey :=
  if nonEmpty item.originatingChannel = none ∧ nonEmpty item.originatingTo = none ∧
      nonEmpty item.originatingAccountId = none ∧ presentThread item.originatingThreadId = none then
    ⟨none, false⟩
  else if !isRoutableChannel item.originatingChannel || nonEmpty item.originatingTo = none then ⟨none, true⟩
  else
    let threadKey := ((presentThread item.originatingThreadId).map ThreadId.toString).getD ""
    ⟨some (String.intercalate "|" [item.originatingChannel.getD "", item.originatingTo.getD "",
      item.originatingAccountId.getD "", threadKey]), false⟩

/-- A message with a prompt of its own, for the destination of the items. -/
def routedRun (items : List (FollowupRun R)) (prompt : CodeUnits) (run : R) : FollowupRun R where
  prompt := prompt
  messageId := none
  summaryLine := none
  originatingChannel := items.findSome? fun item => nonEmpty item.originatingChannel
  originatingTo := items.findSome? fun item => nonEmpty item.originatingTo
  originatingAccountId := items.findSome? fun item => nonEmpty item.originatingAccountId
  originatingThreadId := items.findSome? fun item => presentThread item.originatingThreadId
  run := run

def summaryRun (prompt : CodeUnits) (run : R) (item : FollowupRun R) : FollowupRun R :=
  { item with prompt := prompt, messageId := none, summaryLine := none, run := run }

/-- A queue has the run of the last message, `lastRun`, of its own. -/
def followupKind (isRoutableChannel : Option String → Bool) : QueueKind (FollowupRun R) (Option R) where
  noun := "message"
  title := "[Queued messages while agent was busy]"
  prompt := FollowupRun.prompt
  resolveKey := resolveCrossChannelKey isRoutableChannel
  collected lastRun items prompt := ((items.getLast?.map FollowupRun.run).or lastRun).map (routedRun items prompt)
  summarized lastRun prompt := lastRun.map (summaryRun prompt)
  remembers := true

abbrev FollowupState (R C : Type) := State (FollowupRun R) (Option R) C

-- ---
-- Operations
-- ---

variable (isRoutableChannel : Option String → Bool)

def scheduleFollowupDrain (s : FollowupState R C) (key : String) (runFollowup : C) : FollowupState R C :=
  scheduleDrain (followupKind isRoutableChannel) s key runFollowup

def kickFollowupDrainIfIdle (s : FollowupState R C) (key : String) : FollowupState R C :=
  match s.callbacks.lookup key with
  | none => s
  | some run => scheduleFollowupDrain isRoutableChannel s key run

inductive QueueDedupeMode
  | messageId
  | prompt
  | none
  deriving DecidableEq

def hasSameRouting (run item : FollowupRun R) : Bool :=
  item.originatingChannel = run.originatingChannel && item.originatingTo = run.originatingTo &&
    item.originatingAccountId = run.originatingAccountId && item.originatingThreadId = run.originatingThreadId

/-- The message id, without the spaces around it; the empty one counts as none. -/
def trimmedMessageId (run : FollowupRun R) : Option String := nonEmpty (run.messageId.map trim)

def isRunAlreadyQueued (run : FollowupRun R) (items : List (FollowupRun R)) (allowPromptFallback : Bool) : Bool :=
  match trimmedMessageId run with
  | some messageId =>
    items.any fun item => item.messageId.map trim = some messageId && hasSameRouting run item
  | none => allowPromptFallback && items.any fun item => item.prompt = run.prompt && hasSameRouting run item

/-- The arguments of `enqueueFollowupRun`. -/
structure EnqueueParams (R C : Type) where
  key : String
  run : FollowupRun R
  settings : QueueSettings
  dedupeMode : QueueDedupeMode
  /-- The id of the message is among those of the last minutes. -/
  recentlyQueued : Bool
  runFollowup : Option C
  restartIfIdle : Bool

/-- The message is not queued a second time. -/
def EnqueueParams.isDuplicate (params : EnqueueParams R C) (items : List (FollowupRun R)) : Bool :=
  params.dedupeMode ≠ .none &&
    ((trimmedMessageId params.run).isSome && params.recentlyQueued ||
      isRunAlreadyQueued params.run items (params.dedupeMode = .prompt))

def summarizeRun (item : FollowupRun R) : CodeUnits := summaryText item.summaryLine item.prompt

def queueItems (s : FollowupState R C) (queue : Nat) : List (FollowupRun R) :=
  ((s.heap[queue]?).map fun object => object.items.map Queued.item).getD []

def isDraining (s : FollowupState R C) (queue : Nat) : Bool := (s.heap[queue]?).any Queue.draining

def rememberRunFollowup (s : FollowupState R C) (params : EnqueueParams R C) : FollowupState R C :=
  match params.runFollowup with
  | some run => rememberDrainCallback (followupKind isRoutableChannel) s params.key run
  | none => s

def enqueueFollowupRun (s : FollowupState R C) (params : EnqueueParams R C) : FollowupState R C × Bool :=
  let found := getQueue s params.key params.settings none
  let queue := found.2
  if params.isDuplicate (queueItems found.1 queue) then (found.1, false)
  else
    let s := setOwn found.1 queue (some params.run.run)
    let pushed := pushItem summarizeRun s queue params.run
    if !pushed.2 then (pushed.1, false)
    else
      let s := rememberRunFollowup isRoutableChannel pushed.1 params
      if params.restartIfIdle && !isDraining s queue then
        (kickFollowupDrainIfIdle isRoutableChannel s params.key, true)
      else (s, true)

def clearedQueue (object : Queue (FollowupRun R) (Option R)) : Queue (FollowupRun R) (Option R) :=
  { object with items := [], droppedCount := 0, summaryLines := [], own := none }

def clearFollowupQueue (s : FollowupState R C) (key : String) : FollowupState R C :=
  let cleaned := trim key
  if cleaned = "" then s
  else
    match s.registry.lookup cleaned with
    | none => s
    | some queue =>
      let items := ((s.heap[queue]?).map fun object => object.items.map Queued.number).getD []
      { setQueue s queue clearedQueue with
        registry := remove s.registry cleaned
        cleared := s.cleared ++ items }

def clearFollowupDrainCallback (s : FollowupState R C) (key : String) : FollowupState R C :=
  { s with callbacks := remove s.callbacks key }

-- ---
-- Runs
-- ---

/-- `clearSessionQueues` is, for each key, a `clear` and a `clearCallback`. -/
inductive Event (R C : Type)
  | enqueue (params : EnqueueParams R C)
  | clear (key : String)
  | clearCallback (key : String)
  | schedule (key : String) (runFollowup : C)
  | turn (drain : Nat)
  | fail (drain : Nat)

def step (s : FollowupState R C) : Event R C → Option (FollowupState R C)
  | .enqueue params => some (enqueueFollowupRun isRoutableChannel s params).1
  | .clear key => some (clearFollowupQueue s key)
  | .clearCallback key => some (clearFollowupDrainCallback s key)
  | .schedule key run => some (scheduleFollowupDrain isRoutableChannel s key run)
  | .turn drain => turn (followupKind isRoutableChannel) s drain
  | .fail drain => failCall (followupKind isRoutableChannel) s drain

def followupQueues : System (FollowupState R C) (Event R C) where
  init s := s = {}
  step s e := step isRoutableChannel s e

end OpenClaw.FollowupQueue
