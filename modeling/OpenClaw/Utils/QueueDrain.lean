import OpenClaw.Lib.Members
import OpenClaw.Lib.Transition
import OpenClaw.Utils.QueueHelpers

/-!
# Draining a queue

The follow-up queue and the announce queue are drained by the same loop. A registry
gives the queue object of a key; a drain works on the object it was started for, and
finds the registry again by the key when it ends. A turn of a drain is what it does
between two of its awaits.
-/

namespace OpenClaw.QueueDrain

open Js Members QueueHelpers

-- ---
-- Queues and drains
-- ---

/-- A message, by its number among those accepted. -/
structure Queued (T : Type) where
  number : Nat
  item : T

/-- `own` is what the queue of one kind has and that of the other has not. -/
structure Queue (T E : Type) extends QueueState (Queued T) where
  draining : Bool
  own : E

/-- What the two kinds of queue differ in. -/
structure QueueKind (T E : Type) where
  noun : String
  title : String
  prompt : T → CodeUnits
  resolveKey : T → CrossKey
  /-- The message for a batch with its prompt; with `none` the loop is left. -/
  collected : E → List T → CodeUnits → Option T
  /-- The message for an item with the summary as its prompt; with `none` the loop is left. -/
  summarized : E → CodeUnits → Option (T → T)
  /-- The callback of a key is kept while its queue is. -/
  remembers : Bool

inductive CallKind
  | item
  /-- `clears` is that the prompt had a summary. -/
  | collect (clears : Bool)
  | summary
  deriving DecidableEq

/-- A call of the run callback: what is passed, and the items of the queue it is made for. -/
structure Call (T : Type) where
  kind : CallKind
  message : T
  items : List (Queued T)

inductive Phase (T : Type)
  | debouncing
  /-- `drainCollectQueueStep` has returned `skipped`. -/
  | collecting
  | calling (call : Call T)
  /-- `drainNextQueueItem` has shifted its item; the summary is cleared after it. -/
  | shifted (clears : Bool)
  /-- The loop will be left. -/
  | leaving
  | done

structure Drain (T C : Type) where
  key : String
  queue : Nat
  forceIndividualCollect : Bool
  run : C
  phase : Phase T

/-- An item removed by the drop policy. -/
structure Removal where
  number : Nat
  inFlight : Bool
  summarized : Bool
  counted : Bool

structure State (T E C : Type) where
  heap : List (Queue T E) := []
  registry : List (String × Nat) := []
  callbacks : List (String × C) := []
  drains : List (Drain T C) := []
  /-- How many messages have been accepted. -/
  accepted : Nat := 0
  /-- The messages whose own prompt was passed to a call that has returned. -/
  delivered : List Nat := []
  removals : List Removal := []
  /-- The messages removed by a clear. -/
  cleared : List Nat := []

variable {T E C : Type}

def Queue.isEmpty (queue : Queue T E) : Bool := queue.items.isEmpty && queue.droppedCount = 0

def Phase.covers (number : Nat) : Phase T → Bool
  | .calling call => call.items.any (·.number = number)
  | _ => false

def Phase.isActive : Phase T → Bool
  | .done => false
  | _ => true

def inFlight (s : State T E C) (queue number : Nat) : Bool :=
  s.drains.any fun drain => drain.queue = queue && drain.phase.covers number

def setQueue (s : State T E C) (queue : Nat) (change : Queue T E → Queue T E) : State T E C :=
  { s with heap := s.heap.modify queue change }

def setPhase (s : State T E C) (drain : Nat) (phase : Phase T) : State T E C :=
  { s with drains := s.drains.modify drain fun object => { object with phase := phase } }

variable (kind : QueueKind T E)

-- ---
-- Starting and ending a drain
-- ---

def rememberDrainCallback (s : State T E C) (key : String) (run : C) : State T E C :=
  if kind.remembers then { s with callbacks := assign s.callbacks key run } else s

/-- The queue is removed from the registry, by its key. -/
def removeQueue (s : State T E C) (key : String) : State T E C :=
  { s with registry := remove s.registry key, callbacks := remove s.callbacks key }

def startDrain (s : State T E C) (key : String) (queue : Nat) (run : C) : State T E C :=
  let s := rememberDrainCallback kind s key run
  let s := setQueue s queue fun object => { object with draining := true }
  { s with drains := s.drains ++ [⟨key, queue, false, run, .debouncing⟩] }

/-- `scheduleFollowupDrain`, `scheduleAnnounceDrain`: up to the first await. -/
def scheduleDrain (s : State T E C) (key : String) (run : C) : State T E C :=
  match s.registry.lookup key with
  | none => s
  | some queue =>
    match s.heap[queue]? with
    | none => s
    | some object =>
      if object.draining then s
      -- The loop is not entered, and its `finally` block is run at once.
      else if object.isEmpty then removeQueue s key
      else startDrain kind s key queue ((s.callbacks.lookup key).getD run)

def isEmptyQueue (s : State T E C) (queue : Nat) : Bool := (s.heap[queue]?).all Queue.isEmpty

def stopDrain (s : State T E C) (index queue : Nat) : State T E C :=
  setQueue (setPhase s index .done) queue fun object => { object with draining := false }

/-- The `finally` block. -/
def finishDrain (s : State T E C) (index : Nat) (drain : Drain T C) : State T E C :=
  let s := stopDrain s index drain.queue
  if isEmptyQueue s drain.queue then removeQueue s drain.key else scheduleDrain kind s drain.key drain.run

/-- The head of the loop. -/
def continueDrain (s : State T E C) (index : Nat) (drain : Drain T C) : State T E C :=
  if isEmptyQueue s drain.queue then finishDrain kind s index drain else setPhase s index .debouncing

-- ---
-- The body of the loop
-- ---

/-- Until the callback is called. -/
def drainNextQueueItem (items : List (Queued T)) (callKind : CallKind) (message : T → T) : Phase T :=
  match items with
  | [] => .leaving
  | next :: _ => .calling ⟨callKind, message next.item, [next]⟩

def isCrossChannel (queue : Queue T E) : Bool := hasCrossChannelItems kind.resolveKey (queue.items.map Queued.item)

/-- The phase after the debounce; `none` where the loop is left at once. -/
def afterDebounce (queue : Queue T E) (forceIndividualCollect : Bool) : Option (Phase T) :=
  if queue.mode = .collect then
    if !forceIndividualCollect && !isCrossChannel kind queue then some .collecting
    else some (drainNextQueueItem queue.items .item id)
  else
    match queue.previewQueueSummaryPrompt kind.noun with
    | some summaryPrompt =>
      (kind.summarized queue.own summaryPrompt).map fun message => drainNextQueueItem queue.items .summary message
    | none => some (drainNextQueueItem queue.items .item id)

/-- The batch; `none` where the loop is left at once. -/
def afterSkipped (queue : Queue T E) : Option (Phase T) :=
  let items := queue.items.map Queued.item
  let summary := queue.previewQueueSummaryPrompt kind.noun
  let prompt := buildCollectPrompt kind.title (items.map kind.prompt) summary
  (kind.collected queue.own items prompt).map fun message =>
    .calling ⟨.collect summary.isSome, message, queue.items⟩

/-- What `collectState` holds after the debounce. -/
def forceAfterDebounce (queue : Queue T E) (forceIndividualCollect : Bool) : Bool :=
  forceIndividualCollect || queue.mode = .collect && isCrossChannel kind queue

def setForce (s : State T E C) (index : Nat) (force : Bool) : State T E C :=
  { s with drains := s.drains.modify index fun object => { object with forceIndividualCollect := force } }

def goOn (s : State T E C) (index : Nat) (drain : Drain T C) : Option (Phase T) → State T E C
  | none => finishDrain kind s index drain
  | some phase => setPhase s index phase

def Queue.spliceFront (count : Nat) (queue : Queue T E) : Queue T E :=
  { queue with items := queue.items.drop count }

def Queue.clearSummary (queue : Queue T E) : Queue T E :=
  { queue with toQueueState := queue.clearQueueSummaryState }

/-- The items whose own prompt a call passes. -/
def Call.passed (call : Call T) : List Nat :=
  if call.kind = .summary then [] else call.items.map Queued.number

/-- The call has returned. -/
def completeCall (s : State T E C) (index : Nat) (drain : Drain T C) (call : Call T) : State T E C :=
  let s := { s with delivered := s.delivered ++ call.passed }
  match call.kind with
  | .item => setPhase (setQueue s drain.queue (·.spliceFront 1)) index (.shifted false)
  | .summary => setPhase (setQueue s drain.queue (·.spliceFront 1)) index (.shifted true)
  | .collect clears =>
    let s := setQueue s drain.queue (·.spliceFront call.items.length)
    let s := if clears then setQueue s drain.queue Queue.clearSummary else s
    continueDrain kind s index drain

/-- What a drain does next, its call in flight returning if there is one. -/
def turn (s : State T E C) (index : Nat) : Option (State T E C) :=
  match s.drains[index]? with
  | none => none
  | some drain =>
    match s.heap[drain.queue]? with
    | none => none
    | some queue =>
      match drain.phase with
      | .debouncing =>
        let force := drain.forceIndividualCollect
        some (goOn kind (setForce s index (forceAfterDebounce kind queue force)) index drain
          (afterDebounce kind queue force))
      | .collecting => some (goOn kind s index drain (afterSkipped kind queue))
      | .calling call => some (completeCall kind s index drain call)
      | .shifted clears =>
        let s := if clears then setQueue s drain.queue Queue.clearSummary else s
        some (continueDrain kind s index drain)
      | .leaving => some (finishDrain kind s index drain)
      | .done => none

/-- The call in flight throws. -/
def failCall (s : State T E C) (index : Nat) : Option (State T E C) :=
  match s.drains[index]? with
  | none => none
  | some drain =>
    match drain.phase with
    | .calling ⟨.collect _, _, _⟩ => some (finishDrain kind s index drain)
    | .calling _ => some (setPhase s index .leaving)
    | _ => none

-- ---
-- Adding an item
-- ---

def createQueue (settings : QueueSettings) (initial : E) : Queue T E :=
  { (createdQueue settings).applyQueueRuntimeSettings settings with draining := false, own := initial }

/-- The queue registered for the key, with the settings applied. -/
def getQueue (s : State T E C) (key : String) (settings : QueueSettings) (initial : E) : State T E C × Nat :=
  match s.registry.lookup key with
  | some queue =>
    (setQueue s queue fun object =>
      { object with toQueueState := object.applyQueueRuntimeSettings settings }, queue)
  | none =>
    ({ s with
        heap := s.heap ++ [createQueue settings initial]
        registry := assign s.registry key s.heap.length }, s.heap.length)

def setOwn (s : State T E C) (queue : Nat) (own : E) : State T E C :=
  setQueue s queue fun object => { object with own := own }

/-- The item pushed on the queue `kept` that the policy has left of `object`. -/
def pushOn (s : State T E C) (queue : Nat) (object : Queue T E) (kept : QueueState (Queued T)) (item : T) :
    State T E C :=
  let dropped := object.items.take (object.items.length - kept.items.length)
  let removals := dropped.map fun queued =>
    { number := queued.number
      inFlight := inFlight s queue queued.number
      summarized := object.dropPolicy = .summarize
      counted := kept.droppedCount = object.droppedCount + dropped.length }
  { s with
    heap := s.heap.set queue
      { object with toQueueState := { kept with items := kept.items ++ [⟨s.accepted, item⟩] } }
    accepted := s.accepted + 1
    removals := s.removals ++ removals }

/-- `applyQueueDropPolicy`, and the item pushed if there is room for it. -/
def pushItem (summarize : T → CodeUnits) (s : State T E C) (queue : Nat) (item : T) : State T E C × Bool :=
  match s.heap[queue]? with
  | none => (s, false)
  | some object =>
    let result := object.applyQueueDropPolicy fun queued => summarize queued.item
    if result.2 then (pushOn s queue object result.1 item, true) else (s, false)

end OpenClaw.QueueDrain
