import OpenClaw.AutoReply.FollowupQueue
import OpenClaw.Utils.QueueDrain.Exclusive
import OpenClaw.Utils.QueueDrain.Wiring

/-!
# Steps of the follow-up queues

What an enqueue and a clear do, in terms of the operations shared with the announce
queue, and that they leave a sound wiring.
-/

namespace OpenClaw.FollowupQueue

open Js Members Transition QueueHelpers QueueDrain

variable {R C : Type} {isRoutableChannel : Option String → Bool}

/-- The items of the queue that is registered for a key. -/
def registeredItems (s : FollowupState R C) (key : String) : List (FollowupRun R) :=
  ((s.registry.lookup key).map fun queue => queueItems s queue).getD []

theorem queueItems_getQueue (s : FollowupState R C) (key : String) (settings : QueueSettings) (initial : Option R) :
    queueItems (getQueue s key settings initial).1 (getQueue s key settings initial).2 = registeredItems s key := by
  unfold getQueue registeredItems queueItems
  split
  case h_1 queue hkey =>
    rw [hkey]
    simp [setQueue, QueueState.applyQueueRuntimeSettings, Function.comp_def]
  case h_2 hkey =>
    rw [hkey]
    simp [createQueue, createdQueue, QueueState.applyQueueRuntimeSettings]

variable (isRoutableChannel) in
theorem kick_scheduled (s : FollowupState R C) (key : String) :
    kickFollowupDrainIfIdle isRoutableChannel s key = s ∨
      Scheduled (followupKind isRoutableChannel) s key (kickFollowupDrainIfIdle isRoutableChannel s key) := by
  unfold kickFollowupDrainIfIdle
  split
  · exact .inl rfl
  · exact .inr (scheduleDrain_scheduled _ _ _ _)

variable (isRoutableChannel) in
theorem rememberRunFollowup_eq (s : FollowupState R C) (params : EnqueueParams R C) :
    ∃ callbacks, rememberRunFollowup isRoutableChannel s params = { s with callbacks := callbacks } := by
  unfold rememberRunFollowup
  cases params.runFollowup with
  | none => exact ⟨s.callbacks, rfl⟩
  | some run => exact ⟨assign s.callbacks params.key run, rfl⟩

theorem enqueueFollowupRun_enqueued (s : FollowupState R C) (params : EnqueueParams R C) :
    Enqueued (followupKind isRoutableChannel) summarizeRun s params.key params.settings none (some params.run.run)
      params.run (params.isDuplicate (registeredItems s params.key)) (enqueueFollowupRun isRoutableChannel s params).1 := by
  unfold enqueueFollowupRun
  simp only [queueItems_getQueue]
  cases hduplicate : params.isDuplicate (registeredItems s params.key) with
  | true => exact .refused rfl
  | false =>
    simp only [Bool.false_eq_true, if_false]
    split
    case isTrue => exact .added rfl _
    case isFalse =>
      obtain ⟨callbacks, hcallbacks⟩ := rememberRunFollowup_eq isRoutableChannel
        (addItem summarizeRun s params.key params.settings none (some params.run.run) params.run) params
      unfold addItem at hcallbacks
      rw [hcallbacks]
      split
      case isTrue =>
        rcases kick_scheduled isRoutableChannel _ params.key with heq | hscheduled
        · rw [heq]
          exact .added rfl callbacks
        · exact .scheduled rfl callbacks hscheduled
      case isFalse => exact .added rfl callbacks

theorem wiring_clear (s : FollowupState R C) (key : String) :
    clearFollowupQueue s key = s ∨ ∃ queue, s.registry.lookup (trim key) = some queue ∧
      (clearFollowupQueue s key).wiring = s.wiring.remove (trim key) ∧
      (clearFollowupQueue s key).heap = s.heap.modify queue clearedQueue := by
  unfold clearFollowupQueue
  dsimp only
  split
  case isTrue => exact .inl rfl
  case isFalse =>
    split
    case h_1 => exact .inl rfl
    case h_2 queue hkey =>
      refine .inr ⟨queue, hkey, ?_, rfl⟩
      have hwiring : (setQueue s queue clearedQueue).wiring = s.wiring := wiring_setQueue s queue fun _ => rfl
      exact congrArg (fun w => Wiring.remove w (trim key)) hwiring

theorem sound_init : ({} : FollowupState R C).wiring.Sound := by
  constructor <;> simp [State.wiring]

-- ---
-- Sample messages
-- ---

def sampleRun (prompt : String) : FollowupRun Unit where
  prompt := ascii prompt
  messageId := none
  summaryLine := none
  originatingChannel := none
  originatingTo := none
  originatingAccountId := none
  originatingThreadId := none
  run := ()

/-- A message for the key `k`, whose drain is started with it. -/
def sampleParams (prompt : String) (cap : Option Rat) : EnqueueParams Unit Unit where
  key := "k"
  run := sampleRun prompt
  settings := ⟨.followup, cap, none⟩
  dedupeMode := .none
  recentlyQueued := false
  runFollowup := some ()
  restartIfIdle := true

def routable : Option String → Bool := fun _ => true

end OpenClaw.FollowupQueue

/-!
# Exclusive drains of the follow-up queues

Clearing a queue leaves its drain at work on an object that is no longer registered. If
a message is then queued for the key, a second drain may run beside the first, and the
first takes the new queue out of the registry when it ends.
-/

namespace OpenClaw.FollowupQueue

open Js Members Transition QueueHelpers QueueDrain

variable {R C : Type} {isRoutableChannel : Option String → Bool}

-- ---
-- Undisturbed runs
-- ---

/-- No message is queued for a key while a drain of that key is at work on a queue object
that is not registered. -/
def Undisturbed (s : FollowupState R C) : Event R C → Prop
  | .enqueue params => params.isDuplicate (registeredItems s params.key) = false →
      ∀ drain ∈ s.drains, drain.phase.isActive = true → drain.key = params.key →
        s.registry.lookup params.key = some drain.queue
  | _ => True

theorem drain_of_post {s : FollowupState R C} {index queue : Nat} {key : String}
    (hpost : s.wiring.posts[index]? = some (some (key, queue))) :
    ∃ drain, s.drains[index]? = some drain ∧ drain.phase.isActive = true ∧ drain.key = key ∧ drain.queue = queue := by
  rw [State.wiring, List.getElem?_map, Option.map_eq_some_iff] at hpost
  obtain ⟨drain, hdrain, hpost⟩ := hpost
  unfold Drain.post at hpost
  split at hpost
  case isTrue hactive =>
    simp only [Option.some.injEq, Prod.mk.injEq] at hpost
    exact ⟨drain, hdrain, hactive, hpost⟩
  case isFalse => cases hpost

theorem registered_of_undisturbed {s : FollowupState R C} {params : EnqueueParams R C}
    (h : Undisturbed s (.enqueue params)) (hnew : params.isDuplicate (registeredItems s params.key) = false)
    {index queue : Nat} (hpost : s.wiring.posts[index]? = some (some (params.key, queue))) :
    s.registry.lookup params.key = some queue := by
  obtain ⟨drain, hdrain, hactive, hkey, rfl⟩ := drain_of_post hpost
  exact h hnew drain (List.mem_of_getElem? hdrain) hactive hkey

theorem exclusive_clear {s : FollowupState R C} (h : Exclusive s) (key : String) :
    Exclusive (clearFollowupQueue s key) := by
  rcases wiring_clear s key with heq | ⟨queue, hkey, hwiring, hheap⟩
  · rw [heq]
    exact h
  · -- The queue is emptied first and then removed.
    have hempty : ∀ queue' : Nat, isEmptyQueue (clearFollowupQueue s key) queue' =
        isEmptyQueue (setQueue s queue clearedQueue) queue' := fun queue' => isEmptyQueue_of_heap hheap queue'
    have hsame : (setQueue s queue clearedQueue).wiring = s.wiring := wiring_setQueue s queue fun _ => rfl
    have hset : Exclusive (setQueue s queue clearedQueue) :=
      h.congr hsame fun queue' hqueue' => isEmptyQueue_setQueue queue hqueue' fun _ _ => rfl
    have hremoved : Exclusive (removeQueue (setQueue s queue clearedQueue) (trim key)) := by
      refine hset.remove fun index queue' hpost => ?_
      by_cases heq : queue' = queue
      · subst heq
        unfold isEmptyQueue setQueue
        rw [List.getElem?_modify_eq]
        cases s.heap[queue']? <;> rfl
      · apply hset.detached hpost
        exact fun hlookup => heq (Option.some.inj (hlookup.symm.trans hkey))
    refine hremoved.congr ?_ fun queue' hqueue' => (hempty queue').trans hqueue'
    rw [hwiring, wiring_removeQueue, hsame]

theorem exclusive_step {s s' : FollowupState R C} {event : Event R C} (h : Exclusive s) (hok : Undisturbed s event)
    (hstep : step isRoutableChannel s event = some s') : Exclusive s' := by
  cases event with
  | enqueue params =>
    cases hstep
    exact h.enqueued (enqueueFollowupRun_enqueued s params) fun hnew index queue => registered_of_undisturbed hok hnew
  | clear key =>
    cases hstep
    exact exclusive_clear h key
  | clearCallback key =>
    cases hstep
    exact h.congr rfl fun _ hempty => hempty
  | schedule key run =>
    cases hstep
    exact h.scheduled (scheduleDrain_scheduled _ s key run)
  | turn drain =>
    obtain ⟨-, -, hexclusive, -⟩ := h.turn hstep
    exact hexclusive
  | fail drain =>
    obtain ⟨-, -, hexclusive, -⟩ := h.failCall hstep
    exact hexclusive

theorem exclusive_init : Exclusive ({} : FollowupState R C) := by
  constructor
  case sound => exact sound_init
  all_goals simp [State.wiring]

theorem exclusive_reachable {s : FollowupState R C}
    (h : (followupQueues isRoutableChannel).ReachableBy Undisturbed s) : Exclusive s := by
  refine h.invariant ?_ fun s event s' hexclusive hok hstep => exclusive_step hexclusive hok hstep
  rintro s rfl
  exact exclusive_init

-- ---
-- Exclusivity
-- ---

/-- The drain whose step an event is. -/
def Event.drain? : Event R C → Option Nat
  | .turn drain => some drain
  | .fail drain => some drain
  | _ => none

/-- Two drains at work have different keys. -/
def OneDrain (s : FollowupState R C) : Prop :=
  ∀ (index index' : Nat) (drain drain' : Drain (FollowupRun R) C), s.drains[index]? = some drain →
    s.drains[index']? = some drain' → drain.phase.isActive = true → drain'.phase.isActive = true →
      drain.key = drain'.key → index = index'

/-- A step of a drain leaves the queues of others registered that hold messages. -/
def LeavesOthers (isRoutableChannel : Option String → Bool) (s : FollowupState R C) : Prop :=
  ∀ (event : Event R C) (index : Nat) (drain : Drain (FollowupRun R) C) (s' : FollowupState R C),
    event.drain? = some index → s.drains[index]? = some drain → step isRoutableChannel s event = some s' →
      ∀ (key : String) (queue : Nat), s.registry.lookup key = some queue → queue ≠ drain.queue →
        queueItems s queue ≠ [] → s'.registry.lookup key = some queue

theorem isEmptyQueue_of_items {s : FollowupState R C} {queue : Nat} (h : queueItems s queue ≠ []) :
    isEmptyQueue s queue = false := by
  unfold queueItems at h
  unfold isEmptyQueue
  cases hqueue : s.heap[queue]? with
  | none => simp [hqueue] at h
  | some object =>
    rw [hqueue] at h
    simp_all [Queue.isEmpty]

theorem followupDrain_exclusive (isRoutableChannel : Option String → Bool) (s : FollowupState R C)
    (h : (followupQueues isRoutableChannel).ReachableBy Undisturbed s) :
    OneDrain s ∧ LeavesOthers isRoutableChannel s := by
  have hexclusive := exclusive_reachable h
  constructor
  · rintro index index' drain drain' hdrain hdrain' hactive hactive' hkey
    have hpost := wiring_post hdrain hactive
    have hpost' := wiring_post hdrain' hactive'
    rw [← hkey] at hpost'
    exact hexclusive.apart hpost hpost'
  · rintro event index drain s' hevent hdrain hstep key queue hlookup hne hitems
    have hfull := isEmptyQueue_of_items hitems
    cases event with
    | turn index' =>
      cases hevent
      obtain ⟨drain', hdrain', -, hkeeps⟩ := hexclusive.turn hstep
      cases hdrain.symm.trans hdrain'
      exact hkeeps key queue hlookup hne hfull
    | fail index' =>
      cases hevent
      obtain ⟨drain', hdrain', -, hkeeps⟩ := hexclusive.failCall hstep
      cases hdrain.symm.trans hdrain'
      exact hkeeps key queue hlookup hne hfull
    | _ => cases hevent

theorem followupDrain_exclusive_sample :
    OneDrain (enqueueFollowupRun routable {} (sampleParams "a" none)).1 ∧
      LeavesOthers routable (enqueueFollowupRun routable {} (sampleParams "a" none)).1 := by
  have hok : Undisturbed ({} : FollowupState Unit Unit) (.enqueue (sampleParams "a" none)) :=
    fun _ _ hdrain => absurd hdrain List.not_mem_nil
  exact followupDrain_exclusive routable _ (.step (.init rfl) hok rfl)

/-- The queue is cleared while its drain waits for a call, and a message comes in for the key. -/
def clearedEvents : List (Event Unit Unit) :=
  [.enqueue (sampleParams "a" none), .turn 0, .clear "k", .enqueue (sampleParams "b" none)]

/-- Both drains are at work, and when the first one ends it removes the queue of the second. -/
theorem not_followupDrain_exclusive :
    ¬ ∀ s : FollowupState Unit Unit, (followupQueues routable).Reachable s → OneDrain s ∧ LeavesOthers routable s := by
  intro h
  have hposts : ((followupQueues routable).run {} clearedEvents).map (fun s => s.wiring.posts) =
      some [some ("k", 0), some ("k", 1)] := by decide
  obtain ⟨s, hrun, hposts⟩ := Option.map_eq_some_iff.1 hposts
  have hreachable : (followupQueues routable).Reachable s := System.Reachable.run (.init rfl) hrun
  have hfirst : s.wiring.posts[0]? = some (some ("k", 0)) := by rw [hposts]; rfl
  have hsecond : s.wiring.posts[1]? = some (some ("k", 1)) := by rw [hposts]; rfl
  obtain ⟨drain, hdrain, hactive, hkey, -⟩ := drain_of_post hfirst
  obtain ⟨drain', hdrain', hactive', hkey', -⟩ := drain_of_post hsecond
  have hsame := (h s hreachable).1 0 1 drain drain' hdrain hdrain' hactive hactive' (hkey.trans hkey'.symm)
  cases hsame

end OpenClaw.FollowupQueue
