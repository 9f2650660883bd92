import OpenClaw.Utils.QueueDrain

/-!
# The announce queue

What subagents announce to the session that started them waits in a queue as well,
which is drained by the same loop. Each call brings the `send` of the queue anew.
-/

namespace OpenClaw.AnnounceQueue

open Js Members Transition QueueHelpers QueueDrain

/-- `D` is the type of delivery contexts, `V` that of internal events, and `rest` is what
only the sender reads. -/
structure AnnounceQueueItem (D V R : Type) where
  prompt : CodeUnits
  summaryLine : Option CodeUnits
  internalEvents : Option (List V)
  origin : Option D
  originKey : Option String
  rest : R

variable {D V R S : Type}

/-- Delivery contexts depend on the channel plugins that are loaded. -/
structure DeliveryContexts (D : Type) where
  normalizeDeliveryContext : Option D → Option D
  deliveryContextKey : Option D → Option String

def announceCrossKey (item : AnnounceQueueItem D V R) : CrossKey :=
  if item.origin.isNone then ⟨none, false⟩
  else if item.originKey.getD "" = "" then ⟨none, true⟩
  else ⟨item.originKey, false⟩

def collectedAnnounce (items : List (AnnounceQueueItem D V R)) (prompt : CodeUnits) :
    Option (AnnounceQueueItem D V R) :=
  let internalEvents := items.flatMap fun item => item.internalEvents.getD []
  items.getLast?.map fun last =>
    { last with
      prompt := prompt
      internalEvents := if internalEvents.isEmpty then last.internalEvents else some internalEvents }

/-- A queue has the function that sends of its own. -/
def announceKind : QueueKind (AnnounceQueueItem D V R) S where
  noun := "announce"
  title := "[Queued announce messages while agent was busy]"
  prompt := AnnounceQueueItem.prompt
  resolveKey := announceCrossKey
  collected _ items prompt := collectedAnnounce items prompt
  summarized _ prompt := some fun item => { item with prompt := prompt }
  remembers := false

abbrev AnnounceState (D V R S : Type) := State (AnnounceQueueItem D V R) S Unit

structure EnqueueParams (D V R S : Type) where
  key : String
  item : AnnounceQueueItem D V R
  settings : QueueSettings
  send : S

def summarizeAnnounce (item : AnnounceQueueItem D V R) : CodeUnits := summaryText item.summaryLine item.prompt

variable (contexts : DeliveryContexts D)

def scheduleAnnounceDrain (s : AnnounceState D V R S) (key : String) : AnnounceState D V R S :=
  scheduleDrain announceKind s key ()

/-- The item as it is queued. -/
def queuedAnnounce (item : AnnounceQueueItem D V R) : AnnounceQueueItem D V R :=
  let origin := contexts.normalizeDeliveryContext item.origin
  { item with origin := origin, originKey := contexts.deliveryContextKey origin }

def enqueueAnnounce (s : AnnounceState D V R S) (params : EnqueueParams D V R S) : AnnounceState D V R S × Bool :=
  let found := getQueue s params.key params.settings params.send
  let s := setOwn found.1 found.2 params.send
  -- There is no room under the policy `new` only, where a drain is scheduled as well.
  let pushed := pushItem summarizeAnnounce s found.2 (queuedAnnounce contexts params.item)
  (scheduleAnnounceDrain pushed.1 params.key, pushed.2)

inductive Event (D V R S : Type)
  | enqueue (params : EnqueueParams D V R S)
  | turn (drain : Nat)
  | fail (drain : Nat)

def step (s : AnnounceState D V R S) : Event D V R S → Option (AnnounceState D V R S)
  | .enqueue params => some (enqueueAnnounce contexts s params).1
  | .turn drain => turn announceKind s drain
  | .fail drain => failCall announceKind s drain

def announceQueues : System (AnnounceState D V R S) (Event D V R S) where
  init s := s = {}
  step s e := step contexts s e

end OpenClaw.AnnounceQueue
