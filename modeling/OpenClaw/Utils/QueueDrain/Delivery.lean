import OpenClaw.Agents.AnnounceQueue
import OpenClaw.AutoReply.FollowupQueue.Exclusivity
import OpenClaw.Utils.QueueDrain.Wiring

/-!
# No message is lost

A call in flight was made for the items at the front of its queue. As long as nothing
is removed from there in the meantime, what is shifted when the call returns is what it
was made for, and every message that was accepted is accounted for.
-/

namespace OpenClaw.QueueDrain

open Members QueueHelpers

variable {T E C : Type} {kind : QueueKind T E} {index queue : Nat} {drain : Drain T C} {object : Queue T E} {key : String}

-- ---
-- Flights
-- ---

def Phase.call? : Phase T → Option (Call T)
  | .calling call => some call
  | _ => none

/-- The queue object and the call of a drain that waits for one. -/
def Drain.flight (drain : Drain T C) : Option (Nat × Call T) := drain.phase.call?.map (drain.queue, ·)

def State.flights (s : State T E C) : List (Option (Nat × Call T)) := s.drains.map Drain.flight

def State.items (s : State T E C) : List (List (Queued T)) := s.heap.map fun object => object.items

/-- A call made for items of the queue is in flight. -/
def isBusy (s : State T E C) (queue : Nat) : Bool :=
  s.flights.any fun flight => flight.any fun flight => flight.1 = queue && !flight.2.items.isEmpty

theorem flight_of_call (hphase : drain.phase = .calling call) : drain.flight = some (drain.queue, call) := by
  simp [Drain.flight, hphase, Phase.call?]

theorem flights_of_drain {s : State T E C} (hdrain : s.drains[index]? = some drain) :
    s.flights[index]? = some drain.flight := by
  simp [State.flights, hdrain]

-- ---
-- Accounts
-- ---

def Held (s : State T E C) (number : Nat) : Prop := ∃ items ∈ s.items, number ∈ items.map Queued.number

def InFlight (s : State T E C) (number : Nat) : Prop := ∃ drain ∈ s.drains, drain.phase.covers number = true

/-- Removed by the drop policy while no call was in flight for it, and counted if the policy is to sum up. -/
def Dropped (s : State T E C) (number : Nat) : Prop :=
  ∃ removal ∈ s.removals, removal.number = number ∧ removal.inFlight = false ∧
    (removal.summarized = true → removal.counted = true)

def Accounted (s : State T E C) (number : Nat) : Prop :=
  Held s number ∨ InFlight s number ∨ number ∈ s.delivered ∨ Dropped s number ∨ number ∈ s.cleared

/-- A call for one item is made for one. -/
def Call.IsSingle (call : Call T) : Prop := call.kind = .item → call.items.length = 1

structure Kept (s : State T E C) : Prop where
  sound : s.wiring.Sound
  single : ∀ {index : Nat} {flight : Nat × Call T}, s.flights[index]? = some (some flight) → flight.2.IsSingle
  /-- Unless its queue was cleared, a call was made for the items at the front. -/
  ahead : ∀ {index queue : Nat} {call : Call T}, s.flights[index]? = some (some (queue, call)) →
    ∃ items, s.items[queue]? = some items ∧
      (call.items <+: items ∨ items = [] ∧ ∀ key, s.registry.lookup key ≠ some queue)
  accounted : ∀ number < s.accepted, Held s number ∨ number ∈ s.delivered ∨ Dropped s number ∨ number ∈ s.cleared

-- ---
-- Frames
-- ---

/-- The items and the records are the same; calls may have ended and queues may have been removed. -/
structure Frame (s s' : State T E C) : Prop where
  items : s'.items = s.items
  flights : ∀ {index : Nat} {flight : Nat × Call T}, s'.flights[index]? = some (some flight) →
    s.flights[index]? = some (some flight)
  registry : ∀ {key : String} {queue : Nat}, s'.registry.lookup key = some queue → s.registry.lookup key = some queue
  accepted : s'.accepted = s.accepted
  delivered : s'.delivered = s.delivered
  removals : s'.removals = s.removals
  cleared : s'.cleared = s.cleared

theorem Frame.refl (s : State T E C) : Frame s s := ⟨rfl, id, id, rfl, rfl, rfl, rfl⟩

theorem Frame.trans {s s' s'' : State T E C} (h : Frame s s') (h' : Frame s' s'') : Frame s s'' where
  items := h'.items.trans h.items
  flights hflight := h.flights (h'.flights hflight)
  registry hkey := h.registry (h'.registry hkey)
  accepted := h'.accepted.trans h.accepted
  delivered := h'.delivered.trans h.delivered
  removals := h'.removals.trans h.removals
  cleared := h'.cleared.trans h.cleared

theorem Kept.frame {s s' : State T E C} (h : Kept s) (hframe : Frame s s') (hsound : s'.wiring.Sound) : Kept s' where
  sound := hsound
  single hflight := h.single (hframe.flights hflight)
  ahead := by
    intro index queue call hflight
    obtain ⟨items, hitems, hahead⟩ := h.ahead (hframe.flights hflight)
    refine ⟨items, hframe.items ▸ hitems, ?_⟩
    rcases hahead with hahead | ⟨hnil, hunregistered⟩
    · exact .inl hahead
    · exact .inr ⟨hnil, fun key hkey => hunregistered key (hframe.registry hkey)⟩
  accounted := by
    intro number hnumber
    have haccounted := h.accounted number (hframe.accepted ▸ hnumber)
    unfold Held Dropped at *
    rw [hframe.items, hframe.delivered, hframe.removals, hframe.cleared]
    exact haccounted

theorem items_setQueue (s : State T E C) (queue : Nat) {change : Queue T E → Queue T E}
    (h : ∀ object, (change object).items = object.items) : (setQueue s queue change).items = s.items :=
  map_modify_eq s.heap queue fun object _ => h object

theorem Frame.setQueue (s : State T E C) (queue : Nat) {change : Queue T E → Queue T E}
    (h : ∀ object, (change object).items = object.items) : Frame s (setQueue s queue change) :=
  ⟨items_setQueue s queue h, id, id, rfl, rfl, rfl, rfl⟩

theorem flights_setPhase (s : State T E C) (index : Nat) {phase : Phase T} (h : phase.call? = none) {index' : Nat}
    {flight : Nat × Call T} (hflight : (setPhase s index phase).flights[index']? = some (some flight)) :
    index' ≠ index ∧ s.flights[index']? = some (some flight) := by
  unfold State.flights setPhase at *
  rw [List.getElem?_map, List.getElem?_modify] at hflight
  rw [List.getElem?_map]
  by_cases heq : index = index'
  · subst heq
    cases hdrain : s.drains[index]? with
    | none => simp [hdrain] at hflight
    | some drain => simp [hdrain, Drain.flight, h] at hflight
  · refine ⟨Ne.symm heq, ?_⟩
    simpa [heq] using hflight

theorem Frame.setPhase (s : State T E C) (index : Nat) {phase : Phase T} (h : phase.call? = none) :
    Frame s (setPhase s index phase) :=
  ⟨rfl, fun hflight => (flights_setPhase s index h hflight).2, id, rfl, rfl, rfl, rfl⟩

theorem Frame.setForce (s : State T E C) (index : Nat) (force : Bool) : Frame s (setForce s index force) := by
  have hflights : (QueueDrain.setForce s index force).flights = s.flights :=
    map_modify_eq s.drains index fun _ _ => rfl
  exact ⟨rfl, fun hflight => hflights ▸ hflight, id, rfl, rfl, rfl, rfl⟩

theorem Frame.removeQueue (s : State T E C) (key : String) : Frame s (removeQueue s key) := by
  refine ⟨rfl, id, ?_, rfl, rfl, rfl, rfl⟩
  intro key' queue hkey'
  rw [QueueDrain.removeQueue, lookup_remove] at hkey'
  split at hkey'
  · cases hkey'
  · exact hkey'

variable (kind) in
theorem Frame.startDrain (s : State T E C) (key : String) (queue : Nat) (run : C) :
    Frame s (startDrain kind s key queue run) := by
  have hrecords : (QueueDrain.startDrain kind s key queue run).accepted = s.accepted ∧
      (QueueDrain.startDrain kind s key queue run).delivered = s.delivered ∧
      (QueueDrain.startDrain kind s key queue run).removals = s.removals ∧
      (QueueDrain.startDrain kind s key queue run).cleared = s.cleared := by
    unfold QueueDrain.startDrain rememberDrainCallback
    split <;> exact ⟨rfl, rfl, rfl, rfl⟩
  obtain ⟨haccepted, hdelivered, hremovals, hcleared⟩ := hrecords
  refine ⟨?_, ?_, ?_, haccepted, hdelivered, hremovals, hcleared⟩
  · rw [State.items, heap_startDrain]
    exact items_setQueue s queue fun _ => rfl
  · intro index flight hflight
    rw [State.flights, drains_startDrain, List.map_append, List.getElem?_append] at hflight
    split at hflight
    case isTrue => exact hflight
    case isFalse =>
      obtain heq := List.mem_singleton.1 (List.mem_of_getElem? hflight)
      cases heq
  · rw [registry_startDrain]
    exact id

theorem Frame.scheduled {s s' : State T E C} (h : Scheduled kind s key s') : Frame s s' := by
  cases h with
  | missing => exact .refl s
  | draining => exact .refl s
  | empty => exact .removeQueue s key
  | started run => exact .startDrain kind s key _ run

theorem Frame.stopDrain (s : State T E C) (index queue : Nat) : Frame s (stopDrain s index queue) :=
  .trans (.setPhase s index rfl) (.setQueue _ queue fun _ => rfl)

variable (kind) in
/-- A drain that has ended has no call in flight. -/
theorem Frame.finishDrain (s : State T E C) (index : Nat) (drain : Drain T C) :
    Frame s (finishDrain kind s index drain) ∧ ∀ {index' : Nat} {flight : Nat × Call T},
      (finishDrain kind s index drain).flights[index']? = some (some flight) → index' ≠ index := by
  have hstopped := Frame.stopDrain s index drain.queue
  have hended : ∀ {index' : Nat} {flight : Nat × Call T},
      (QueueDrain.stopDrain s index drain.queue).flights[index']? = some (some flight) → index' ≠ index :=
    fun hflight => (flights_setPhase s index rfl hflight).1
  rcases finishDrain_cases kind s index drain with ⟨-, heq⟩ | ⟨-, hscheduled⟩
  · rw [heq]
    exact ⟨hstopped.trans (.removeQueue _ drain.key), hended⟩
  · have hframe := Frame.scheduled hscheduled
    exact ⟨hstopped.trans hframe, fun hflight => hended (hframe.flights hflight)⟩

variable (kind) in
theorem Frame.continueDrain (s : State T E C) (index : Nat) (drain : Drain T C) :
    Frame s (continueDrain kind s index drain) ∧ ∀ {index' : Nat} {flight : Nat × Call T},
      (continueDrain kind s index drain).flights[index']? = some (some flight) → index' ≠ index := by
  unfold QueueDrain.continueDrain
  split
  · exact Frame.finishDrain kind s index drain
  · exact ⟨.setPhase s index rfl, fun hflight => (flights_setPhase s index rfl hflight).1⟩

-- ---
-- A turn
-- ---

variable {s s' : State T E C}

theorem items_of_get (hqueue : s.heap[queue]? = some object) : s.items[queue]? = some object.items := by
  simp [State.items, hqueue]

theorem post_of_flight {call : Call T} (h : s.flights[index]? = some (some (queue, call))) :
    ∃ key, s.wiring.posts[index]? = some (some (key, queue)) := by
  rw [State.flights, List.getElem?_map, Option.map_eq_some_iff] at h
  obtain ⟨drain, hdrain, hflight⟩ := h
  obtain ⟨call', hcall, hpair⟩ := Option.map_eq_some_iff.1 hflight
  obtain ⟨rfl, -⟩ := Prod.mk.inj hpair
  refine ⟨drain.key, wiring_post hdrain ?_⟩
  cases hphase : drain.phase with
  | done => simp [hphase, Phase.call?] at hcall
  | _ => rfl

/-- A call is made for the items at the front. -/
def Call.Fits (call : Call T) (items : List (Queued T)) : Prop := call.IsSingle ∧ call.items <+: items

theorem drainNextQueueItem_fits {items : List (Queued T)} {callKind : CallKind} {message : T → T} {call : Call T}
    (h : drainNextQueueItem items callKind message = .calling call) : call.Fits items := by
  cases items with
  | nil => cases h
  | cons next items =>
    cases h
    exact ⟨fun _ => rfl, items, rfl⟩

theorem afterDebounce_fits {force : Bool} {call : Call T}
    (h : afterDebounce kind object force = some (.calling call)) : call.Fits object.items := by
  unfold afterDebounce at h
  split at h
  · split at h
    · cases h
    · exact drainNextQueueItem_fits (Option.some.inj h)
  · split at h
    · obtain ⟨message, -, h⟩ := Option.map_eq_some_iff.1 h
      exact drainNextQueueItem_fits h
    · exact drainNextQueueItem_fits (Option.some.inj h)

theorem afterSkipped_fits {call : Call T} (h : afterSkipped kind object = some (.calling call)) :
    call.Fits object.items := by
  obtain ⟨message, -, h⟩ := Option.map_eq_some_iff.1 h
  cases h
  exact ⟨fun hkind => (by cases hkind), List.prefix_rfl⟩

theorem flights_setPhase_cases (hdrain : s.drains[index]? = some drain) (phase : Phase T) {index' : Nat}
    {flight : Nat × Call T} (hflight : (setPhase s index phase).flights[index']? = some (some flight)) :
    s.flights[index']? = some (some flight) ∨ flight.1 = drain.queue ∧ phase = .calling flight.2 := by
  unfold State.flights QueueDrain.setPhase at hflight
  rw [List.getElem?_map, List.getElem?_modify] at hflight
  by_cases heq : index = index'
  · subst heq
    simp only [hdrain, if_pos, Option.map_eq_map, Option.map_some, Option.some.injEq, Drain.flight,
      Option.map_eq_some_iff] at hflight
    obtain ⟨call, hcall, rfl⟩ := hflight
    cases phase with
    | calling call' => exact .inr ⟨rfl, congrArg Phase.calling (Option.some.inj hcall)⟩
    | _ => cases hcall
  · exact .inl (by simpa [heq, State.flights] using hflight)

theorem Kept.setPhase (h : Kept s) (hdrain : s.drains[index]? = some drain) (hqueue : s.heap[drain.queue]? = some object)
    {phase : Phase T} (hsound : (setPhase s index phase).wiring.Sound)
    (hcall : ∀ call, phase = .calling call → call.Fits object.items) : Kept (setPhase s index phase) where
  sound := hsound
  single := by
    intro index' flight hflight
    rcases flights_setPhase_cases hdrain phase hflight with hflight | ⟨-, hphase⟩
    · exact h.single hflight
    · exact (hcall _ hphase).1
  ahead := by
    intro index' queue call hflight
    rcases flights_setPhase_cases hdrain phase hflight with hflight | ⟨rfl, hphase⟩
    · exact h.ahead hflight
    · exact ⟨object.items, items_of_get hqueue, .inl (hcall call hphase).2⟩
  accounted := h.accounted

theorem Kept.goOn {drain' : Drain T C} (h : Kept s) (hdrain : s.drains[index]? = some drain')
    (hqueue : s.heap[drain'.queue]? = some object) {next : Option (Phase T)}
    (hsound : (goOn kind s index drain next).wiring.Sound)
    (hcall : ∀ call, next = some (.calling call) → call.Fits object.items) : Kept (goOn kind s index drain next) := by
  cases next with
  | none => exact h.frame (Frame.finishDrain kind s index drain).1 hsound
  | some phase => exact h.setPhase hdrain hqueue hsound fun call hphase => hcall call (congrArg some hphase)

/-- The call of the drain has returned: the items it was made for are gone and delivered. -/
theorem Kept.landed (h : Kept s) (s' : State T E C) (hdrain : s.drains[index]? = some drain) {call : Call T}
    (hphase : drain.phase = .calling call) (hkind : call.kind ≠ .summary) (hsound : s'.wiring.Sound)
    (hitems : s'.items = s.items.modify drain.queue (·.drop call.items.length))
    (hflights : ∀ {index' : Nat} {flight : Nat × Call T}, s'.flights[index']? = some (some flight) →
      index' ≠ index ∧ s.flights[index']? = some (some flight))
    (hregistry : ∀ {key : String} {queue : Nat}, s'.registry.lookup key = some queue →
      s.registry.lookup key = some queue)
    (haccepted : s'.accepted = s.accepted) (hdelivered : s'.delivered = s.delivered ++ call.passed)
    (hremovals : s'.removals = s.removals) (hcleared : s'.cleared = s.cleared) : Kept s' := by
  have hflight : s.flights[index]? = some (some (drain.queue, call)) := by
    rw [flights_of_drain hdrain, flight_of_call hphase]
  obtain ⟨items, hitem, hahead⟩ := h.ahead hflight
  have hpassed : call.passed = call.items.map Queued.number := if_neg hkind
  constructor
  case sound => exact hsound
  case single => exact fun hflight => h.single (hflights hflight).2
  case ahead =>
    intro index' queue call' hflight'
    obtain ⟨hne, hflight'⟩ := hflights hflight'
    obtain ⟨items', hitem', hahead'⟩ := h.ahead hflight'
    have hother : drain.queue ≠ queue := by
      rintro rfl
      refine hne ?_
      obtain ⟨key, hpost⟩ := post_of_flight hflight
      obtain ⟨key', hpost'⟩ := post_of_flight hflight'
      exact h.sound.apart hpost' hpost
    refine ⟨items', ?_, ?_⟩
    · rw [hitems, List.getElem?_modify]
      simpa [hother] using hitem'
    · rcases hahead' with hahead' | ⟨hnil, hunregistered⟩
      · exact .inl hahead'
      · exact .inr ⟨hnil, fun key hkey => hunregistered key (hregistry hkey)⟩
  case accounted =>
    intro number hnumber
    rw [haccepted] at hnumber
    rw [hdelivered, hcleared, hpassed]
    unfold Dropped
    rw [hremovals]
    rcases h.accounted number hnumber with ⟨held, hheld, hmem⟩ | hdone | hdropped | hclear
    · obtain ⟨queue, hget⟩ := List.mem_iff_getElem?.1 hheld
      by_cases heq : drain.queue = queue
      · subst heq
        cases hitem.symm.trans hget
        rcases hahead with ⟨rest, rfl⟩ | ⟨rfl, -⟩
        · rw [List.map_append, List.mem_append] at hmem
          rcases hmem with hmem | hmem
          · exact .inr (.inl (List.mem_append_right _ hmem))
          · refine .inl ⟨rest, List.mem_iff_getElem?.2 ⟨drain.queue, ?_⟩, hmem⟩
            rw [hitems, List.getElem?_modify_eq, hget]
            simp
        · cases hmem
      · refine .inl ⟨held, List.mem_iff_getElem?.2 ⟨queue, ?_⟩, hmem⟩
        rw [hitems, List.getElem?_modify]
        simpa [heq] using hget
    · exact .inr (.inl (List.mem_append_left _ hdone))
    · exact .inr (.inr (.inl hdropped))
    · exact .inr (.inr (.inr hclear))

/-- The call that returns in a turn, if one does, passed the prompts of its items. -/
def PassesPrompts (s : State T E C) (index : Nat) : Prop :=
  ∀ drain call, s.drains[index]? = some drain → drain.phase = .calling call → call.kind ≠ .summary

theorem items_splice (s : State T E C) (queue count : Nat) :
    (setQueue s queue (·.spliceFront count)).items = s.items.modify queue (·.drop count) := by
  unfold State.items setQueue
  refine List.ext_getElem? fun i => ?_
  rw [List.getElem?_map, List.getElem?_modify, List.getElem?_modify, List.getElem?_map]
  cases s.heap[i]? with
  | none => rfl
  | some object => split <;> rfl

theorem Kept.complete (h : Kept s) (hdrain : s.drains[index]? = some drain) {call : Call T}
    (hphase : drain.phase = .calling call) (hkind : call.kind ≠ .summary)
    (hsound : (completeCall kind s index drain call).wiring.Sound) : Kept (completeCall kind s index drain call) := by
  have hflight : s.flights[index]? = some (some (drain.queue, call)) := by
    rw [flights_of_drain hdrain, flight_of_call hphase]
  have hsingle : call.IsSingle := h.single hflight
  have hlanded := h.landed (completeCall kind s index drain call) hdrain hphase hkind hsound
  unfold completeCall at hlanded ⊢
  cases hcall : call.kind with
  | summary => exact absurd hcall hkind
  | item =>
    simp only [hcall] at hlanded ⊢
    refine hlanded ?_ (fun hflight => flights_setPhase _ index rfl hflight) id rfl rfl rfl rfl
    rw [hsingle hcall]
    exact items_splice _ drain.queue 1
  | collect clears =>
    simp only [hcall] at hlanded ⊢
    generalize hs₁ : setQueue { s with delivered := s.delivered ++ call.passed } drain.queue
      (·.spliceFront call.items.length) = s₁ at hlanded ⊢
    have hitems : s₁.items = s.items.modify drain.queue (·.drop call.items.length) := hs₁ ▸ items_splice _ _ _
    have hcleared : Frame s₁ (if clears then setQueue s₁ drain.queue Queue.clearSummary else s₁) := by
      split
      · exact .setQueue s₁ drain.queue fun _ => rfl
      · exact .refl s₁
    obtain ⟨hcontinued, hended⟩ := Frame.continueDrain kind
      (if clears then setQueue s₁ drain.queue Queue.clearSummary else s₁) index drain
    have hframe := hcleared.trans hcontinued
    subst hs₁
    exact hlanded (hframe.items.trans hitems) (fun hflight => ⟨hended hflight, hframe.flights hflight⟩)
      hframe.registry hframe.accepted hframe.delivered hframe.removals hframe.cleared

/-- A turn loses no message, unless a call returns that passed a summary in place of its item. -/
theorem Kept.turn (h : Kept s) (hok : PassesPrompts s index) (hturn : turn kind s index = some s') : Kept s' := by
  have hsound := sound_turn h.sound hturn
  obtain ⟨drain, object, hdrain, hqueue, hcases⟩ := turn_cases hturn
  rcases hcases with ⟨hphase, rfl⟩ | ⟨hphase, rfl⟩ | ⟨call, hphase, rfl⟩ | ⟨clears, hphase, rfl⟩ | ⟨hphase, rfl⟩
  · have hforced := h.frame (.setForce s index (forceAfterDebounce kind object drain.forceIndividualCollect))
      (wiring_setForce s index _ ▸ h.sound)
    have hdrain' : (setForce s index (forceAfterDebounce kind object drain.forceIndividualCollect)).drains[index]? =
        some { drain with forceIndividualCollect := forceAfterDebounce kind object drain.forceIndividualCollect } := by
      simp [QueueDrain.setForce, hdrain]
    exact hforced.goOn hdrain' hqueue hsound fun call => afterDebounce_fits
  · exact h.goOn hdrain hqueue hsound fun call => afterSkipped_fits
  · exact h.complete hdrain hphase (hok drain call hdrain hphase) hsound
  · have hcleared : Frame s (if clears then setQueue s drain.queue Queue.clearSummary else s) := by
      split
      · exact .setQueue s drain.queue fun _ => rfl
      · exact .refl s
    exact h.frame (hcleared.trans (Frame.continueDrain kind _ index drain).1) hsound
  · exact h.frame (Frame.finishDrain kind s index drain).1 hsound

theorem Kept.failCall (h : Kept s) (hfail : failCall kind s index = some s') : Kept s' := by
  have hsound := sound_failCall h.sound hfail
  obtain ⟨drain, call, -, -, rfl | rfl⟩ := failCall_cases hfail
  · exact h.frame (Frame.finishDrain kind s index drain).1 hsound
  · exact h.frame (.setPhase s index rfl) hsound

-- ---
-- An enqueue
-- ---

/-- An enqueue removes nothing from the queue of the key while a call for its items is in flight. -/
def SparesFlights (s : State T E C) (key : String) (settings : QueueSettings) : Prop :=
  ∀ queue object, s.registry.lookup key = some queue → s.heap[queue]? = some object → isBusy s queue = true →
    (object.applyQueueRuntimeSettings settings).dropsItems = false

theorem isBusy_of_flight {call : Call T} (h : s.flights[index]? = some (some (queue, call))) (hitems : call.items ≠ []) :
    isBusy s queue = true := by
  refine List.any_eq_true.2 ⟨_, List.mem_of_getElem? h, ?_⟩
  simpa using hitems

theorem isBusy_of_inFlight {number : Nat} (h : inFlight s queue number = true) : isBusy s queue = true := by
  obtain ⟨drain, hdrain, hcovers⟩ := List.any_eq_true.1 h
  obtain ⟨index, hdrain⟩ := List.mem_iff_getElem?.1 hdrain
  simp only [Bool.and_eq_true, decide_eq_true_eq] at hcovers
  obtain ⟨rfl, hcovers⟩ := hcovers
  cases hphase : drain.phase with
  | calling call =>
    rw [hphase, Phase.covers] at hcovers
    have hflight : s.flights[index]? = some (some (drain.queue, call)) := by
      rw [flights_of_drain hdrain, flight_of_call hphase]
    apply isBusy_of_flight hflight
    rintro hnil
    rw [hnil] at hcovers
    cases hcovers
  | _ => simp [hphase, Phase.covers] at hcovers

theorem flights_getQueue (s : State T E C) (key : String) (settings : QueueSettings) (initial : E) :
    (getQueue s key settings initial).1.flights = s.flights := by
  unfold getQueue
  split <;> rfl

theorem Kept.getQueue (h : Kept s) (key : String) (settings : QueueSettings) (initial : E) :
    Kept (getQueue s key settings initial).1 := by
  have hsound := sound_getQueue h.sound key settings initial
  unfold QueueDrain.getQueue at *
  cases hkey : s.registry.lookup key with
  | some queue =>
    simp only [hkey] at hsound ⊢
    exact h.frame (.setQueue s queue fun _ => rfl) hsound
  | none =>
    simp only [hkey] at hsound ⊢
    have hitems : ∀ {queue : Nat} {items : List (Queued T)}, s.items[queue]? = some items →
        (s.items ++ [[]])[queue]? = some items ∧ queue < s.heap.length := by
      intro queue items hget
      have hlt : queue < s.items.length := (List.getElem?_eq_some_iff.1 hget).1
      exact ⟨(List.getElem?_append_left hlt).trans hget, by simpa [State.items] using hlt⟩
    have hopened : (s.heap ++ [createQueue settings initial]).map (fun object : Queue T E => object.items) =
        s.items ++ [[]] := by
      rw [List.map_append]
      rfl
    refine ⟨hsound, h.single, ?_, ?_⟩
    · intro index queue call hflight
      obtain ⟨items, hget, hahead⟩ := h.ahead hflight
      obtain ⟨hget', hlt⟩ := hitems hget
      refine ⟨items, (congrArg (·[queue]?) hopened).trans hget', ?_⟩
      rcases hahead with hahead | ⟨hnil, hunregistered⟩
      · exact .inl hahead
      · refine .inr ⟨hnil, fun key' hkey' => ?_⟩
        replace hkey' := (lookup_assign s.registry key key' s.heap.length).symm.trans hkey'
        split at hkey'
        · cases hkey'
          exact Nat.lt_irrefl _ hlt
        · exact hunregistered key' hkey'
    · intro number hnumber
      rcases h.accounted number hnumber with ⟨items, hmem, hnumber⟩ | hrest
      · refine .inl ⟨items, ?_, hnumber⟩
        change items ∈ (s.heap ++ [createQueue settings initial]).map (fun object : Queue T E => object.items)
        rw [hopened]
        exact List.mem_append_left _ hmem
      · exact .inr hrest

theorem Kept.pushOn (h : Kept s) (hkey : s.registry.lookup key = some queue) (hqueue : s.heap[queue]? = some object)
    (hspares : isBusy s queue = true → object.dropsItems = false) (summarize : T → Js.CodeUnits) (item : T) :
    Kept (pushOn s queue object (object.applyQueueDropPolicy fun queued => summarize queued.item).1 item) := by
  obtain ⟨dropped, hdropped, hcount⟩ := applyQueueDropPolicy_spec object.toQueueState fun queued => summarize queued.item
  have hnone := fun hdrops : object.dropsItems = false =>
    applyQueueDropPolicy_of_not_drops hdrops fun queued => summarize queued.item
  generalize (object.applyQueueDropPolicy fun queued => summarize queued.item).1 = kept at *
  have htake : object.items.take (object.items.length - kept.items.length) = dropped := by
    rw [hdropped]
    simp
  have hlt : queue < s.heap.length := (List.getElem?_eq_some_iff.1 hqueue).1
  have hitems : (QueueDrain.pushOn s queue object kept item).items = s.items.set queue (kept.items ++ [⟨s.accepted, item⟩]) := by
    rw [State.items, State.items, QueueDrain.pushOn, List.map_set]
  have hpushed : kept.items ++ [⟨s.accepted, item⟩] ∈ (QueueDrain.pushOn s queue object kept item).items := by
    rw [hitems]
    exact List.mem_set (by simpa [State.items] using hlt) _
  constructor
  case sound =>
    rw [wiring_pushOn hqueue]
    exact h.sound
  case single => exact h.single
  case ahead =>
    intro index queue' call hflight
    obtain ⟨items, hget, hahead⟩ := h.ahead hflight
    by_cases heq : queue = queue'
    · subst heq
      cases (items_of_get hqueue).symm.trans hget
      refine ⟨kept.items ++ [⟨s.accepted, item⟩], ?_, .inl ?_⟩
      · rw [hitems, List.getElem?_set_self (by simpa [State.items] using hlt)]
      · rcases hahead with hahead | ⟨-, hunregistered⟩
        · by_cases hcall : call.items = []
          · rw [hcall]
            exact List.nil_prefix
          · rw [hnone (hspares (isBusy_of_flight hflight hcall))]
            exact hahead.trans (List.prefix_append _ _)
        · exact absurd hkey (hunregistered key)
    · refine ⟨items, ?_, hahead⟩
      rw [hitems, List.getElem?_set_ne heq]
      exact hget
  case accounted =>
    intro number hnumber
    rcases Nat.lt_succ_iff_lt_or_eq.1 hnumber with hnumber | rfl
    · rcases h.accounted number hnumber with ⟨items, hmem, hnumber⟩ | hdone | ⟨removal, hremoval, hrest⟩ | hclear
      · obtain ⟨queue', hget⟩ := List.mem_iff_getElem?.1 hmem
        by_cases heq : queue = queue'
        · subst heq
          cases (items_of_get hqueue).symm.trans hget
          rw [hdropped, List.map_append, List.mem_append] at hnumber
          rcases hnumber with hnumber | hnumber
          · -- The item has been dropped, which no call in flight was made for.
            obtain ⟨queued, hqueued, rfl⟩ := List.mem_map.1 hnumber
            refine .inr (.inr (.inl ⟨_, List.mem_append_right _ (List.mem_map.2 ⟨queued, htake ▸ hqueued, rfl⟩), rfl, ?_, ?_⟩))
            · by_contra hflies
              have hkept := hnone (hspares (isBusy_of_inFlight (Bool.not_eq_false _ ▸ hflies)))
              have hnil : dropped = [] := by simpa [hkept] using hdropped
              rw [hnil] at hqueued
              cases hqueued
            · intro hsummarized
              simp only [decide_eq_true_eq] at hsummarized ⊢
              rw [hcount, if_pos hsummarized, htake]
          · refine .inl ⟨_, hpushed, ?_⟩
            rw [List.map_append]
            exact List.mem_append_left _ hnumber
        · refine .inl ⟨items, List.mem_iff_getElem?.2 ⟨queue', ?_⟩, hnumber⟩
          rw [hitems, List.getElem?_set_ne heq]
          exact hget
      · exact .inr (.inl hdone)
      · exact .inr (.inr (.inl ⟨removal, List.mem_append_left _ hremoval, hrest⟩))
      · exact .inr (.inr (.inr hclear))
    · refine .inl ⟨_, hpushed, ?_⟩
      simp

/-- The queue of the key is not busy, or nothing is removed from it under the new settings. -/
theorem spares_found (h : Kept s) {settings : QueueSettings} (hspares : SparesFlights s key settings) (initial own : E)
    (hqueue : (setOwn (getQueue s key settings initial).1 (getQueue s key settings initial).2 own).heap[
      (getQueue s key settings initial).2]? = some object)
    (hbusy : isBusy s (getQueue s key settings initial).2 = true) : object.dropsItems = false := by
  unfold QueueDrain.getQueue at hqueue hbusy
  cases hkey : s.registry.lookup key with
  | some queue =>
    simp only [hkey, setOwn, setQueue, List.getElem?_modify_eq] at hqueue hbusy
    cases hold : s.heap[queue]? with
    | none => simp [hold] at hqueue
    | some old =>
      simp only [hold, Option.map_eq_map, Option.map_some, Option.some.injEq] at hqueue
      subst hqueue
      exact hspares queue old hkey hold hbusy
  | none =>
    simp only [hkey] at hbusy
    obtain ⟨flight, hflight, hbusy⟩ := List.any_eq_true.1 hbusy
    obtain ⟨⟨queue, call⟩, rfl, hbusy⟩ := (Option.any_eq_true _ _).1 hbusy
    obtain ⟨index, hflight⟩ := List.mem_iff_getElem?.1 hflight
    obtain ⟨items, hget, -⟩ := h.ahead hflight
    have hlt : queue < s.items.length := (List.getElem?_eq_some_iff.1 hget).1
    replace hbusy : (decide (queue = s.heap.length) && !call.items.isEmpty) = true := hbusy
    rw [Bool.and_eq_true, decide_eq_true_eq] at hbusy
    rw [hbusy.1, State.items, List.length_map] at hlt
    exact absurd hlt (Nat.lt_irrefl _)

theorem Kept.addItem (h : Kept s) (summarize : T → Js.CodeUnits) {settings : QueueSettings}
    (hspares : SparesFlights s key settings) (initial own : E) (item : T) :
    Kept (addItem summarize s key settings initial own item) := by
  have hfound := h.getQueue key settings initial
  have hown : Kept (setOwn (QueueDrain.getQueue s key settings initial).1
      (QueueDrain.getQueue s key settings initial).2 own) := by
    refine hfound.frame (.setQueue _ _ fun _ => rfl) ?_
    rw [wiring_setOwn]
    exact hfound.sound
  have hflights := flights_getQueue s key settings initial
  have hkey := lookup_getQueue s key settings initial
  unfold QueueDrain.addItem
  rcases pushItem_cases summarize (setOwn (QueueDrain.getQueue s key settings initial).1
    (QueueDrain.getQueue s key settings initial).2 own) (QueueDrain.getQueue s key settings initial).2 item
    with heq | ⟨object, hqueue, heq⟩ <;> rw [heq]
  · exact hown
  · refine hown.pushOn hkey hqueue (fun hbusy => spares_found h hspares initial own hqueue ?_) summarize item
    unfold isBusy at hbusy ⊢
    exact hflights ▸ hbusy

theorem Kept.enqueued {summarize : T → Js.CodeUnits} {settings : QueueSettings} {initial own : E} {item : T}
    {duplicate : Bool} (h : Kept s)
    (henqueued : Enqueued kind summarize s key settings initial own item duplicate s')
    (hspares : duplicate = false → SparesFlights s key settings) : Kept s' := by
  have hsound := sound_enqueued h.sound henqueued
  cases henqueued with
  | refused => exact h.getQueue key settings initial
  | added hduplicate callbacks =>
    exact (h.addItem summarize (hspares hduplicate) initial own item).frame ⟨rfl, id, id, rfl, rfl, rfl, rfl⟩ hsound
  | scheduled hduplicate callbacks hscheduled =>
    have hremembered : Frame (QueueDrain.addItem summarize s key settings initial own item)
        { QueueDrain.addItem summarize s key settings initial own item with callbacks := callbacks } :=
      ⟨rfl, id, id, rfl, rfl, rfl, rfl⟩
    exact (h.addItem summarize (hspares hduplicate) initial own item).frame
      (hremembered.trans (.scheduled hscheduled)) hsound

theorem Kept.init : Kept ({} : State T E C) := by
  constructor
  case sound => constructor <;> simp [State.wiring]
  case single => simp [State.flights]
  case ahead => simp [State.flights]
  case accounted => exact fun number hnumber => absurd hnumber (Nat.not_lt_zero number)

theorem Kept.all (h : Kept s) {number : Nat} (hnumber : number < s.accepted) : Accounted s number := by
  rcases h.accounted number hnumber with hheld | hrest
  · exact .inl hheld
  · exact .inr (.inr hrest)

end OpenClaw.QueueDrain

/-!
# Messages delivered by the queues

Over a run of the follow-up queues or of the announce queues no accepted message is lost,
as long as no enqueue removes items while a call for items of that queue is in flight, and
no call returns that passed the summary in place of its item.
-/

-- ---
-- The follow-up queues
-- ---

namespace OpenClaw.FollowupQueue

open Js Members Transition QueueHelpers QueueDrain

variable {R C : Type} {isRoutableChannel : Option String → Bool}

def Careful (s : FollowupState R C) : Event R C → Prop
  | .enqueue params => params.isDuplicate (registeredItems s params.key) = false →
      SparesFlights s params.key params.settings
  | .turn drain => PassesPrompts s drain
  | _ => True

theorem kept_clear {s : FollowupState R C} (h : Kept s) (key : String) : Kept (clearFollowupQueue s key) := by
  unfold clearFollowupQueue
  dsimp only
  split
  case isTrue => exact h
  case isFalse =>
    split
    case h_1 => exact h
    case h_2 queue hkey =>
      have hitems : (setQueue s queue clearedQueue).items = s.items.modify queue fun _ => [] := by
        unfold State.items setQueue
        refine List.ext_getElem? fun i => ?_
        rw [List.getElem?_map, List.getElem?_modify, List.getElem?_modify, List.getElem?_map]
        cases s.heap[i]? with
        | none => rfl
        | some object => split <;> rfl
      have hnumbers : ((s.heap[queue]?).map fun object => object.items.map Queued.number).getD [] =
          ((s.items[queue]?).map fun items => items.map Queued.number).getD [] := by
        rw [State.items, List.getElem?_map, Option.map_map]
        rfl
      have hother : ∀ {queue' : Nat}, queue ≠ queue' →
          (setQueue s queue clearedQueue).items[queue']? = s.items[queue']? := by
        intro queue' hne
        rw [hitems, List.getElem?_modify]
        simp [hne]
      constructor
      case sound =>
        have hwiring : (setQueue s queue clearedQueue).wiring = s.wiring := wiring_setQueue s queue fun _ => rfl
        exact Wiring.Sound.remove (hwiring ▸ h.sound) (trim key)
      case single => exact h.single
      case ahead =>
        intro index queue' call hflight
        obtain ⟨items, hget, hahead⟩ := h.ahead hflight
        have hunregistered : ∀ key', (remove s.registry (trim key)).lookup key' = some queue' →
            s.registry.lookup key' = some queue' ∧ key' ≠ trim key := by
          intro key' hkey'
          rw [lookup_remove] at hkey'
          split at hkey'
          case isTrue => cases hkey'
          case isFalse hne => exact ⟨hkey', hne⟩
        by_cases heq : queue = queue'
        · subst heq
          refine ⟨[], ?_, .inr ⟨rfl, fun key' hkey' => ?_⟩⟩
          · change (setQueue s queue clearedQueue).items[queue]? = some []
            rw [hitems, List.getElem?_modify_eq, hget]
            rfl
          · obtain ⟨hkey', hne⟩ := hunregistered key' hkey'
            exact hne (h.sound.unique hkey' hkey)
        · refine ⟨items, (hother heq).trans hget, ?_⟩
          rcases hahead with hahead | ⟨hnil, hnone⟩
          · exact .inl hahead
          · exact .inr ⟨hnil, fun key' hkey' => hnone key' (hunregistered key' hkey').1⟩
      case accounted =>
        intro number hnumber
        rcases h.accounted number hnumber with ⟨items, hmem, hnumber⟩ | hdone | hdropped | hclear
        · obtain ⟨queue', hget⟩ := List.mem_iff_getElem?.1 hmem
          by_cases heq : queue = queue'
          · subst heq
            refine .inr (.inr (.inr (List.mem_append_right _ ?_)))
            rw [hnumbers, hget]
            exact hnumber
          · exact .inl ⟨items, List.mem_iff_getElem?.2 ⟨queue', (hother heq).trans hget⟩, hnumber⟩
        · exact .inr (.inl hdone)
        · exact .inr (.inr (.inl hdropped))
        · exact .inr (.inr (.inr (List.mem_append_left _ hclear)))

theorem kept_step {s s' : FollowupState R C} {event : Event R C} (h : Kept s) (hok : Careful s event)
    (hstep : step isRoutableChannel s event = some s') : Kept s' := by
  cases event with
  | enqueue params =>
    cases hstep
    exact h.enqueued (enqueueFollowupRun_enqueued s params) hok
  | clear key =>
    cases hstep
    exact kept_clear h key
  | clearCallback key =>
    cases hstep
    exact h.frame ⟨rfl, id, id, rfl, rfl, rfl, rfl⟩ h.sound
  | schedule key run =>
    cases hstep
    have hscheduled := scheduleDrain_scheduled (followupKind isRoutableChannel) s key run
    exact h.frame (.scheduled hscheduled) (hscheduled.sound h.sound)
  | turn drain => exact h.turn hok hstep
  | fail drain => exact h.failCall hstep

theorem kept_reachable {s : FollowupState R C} (h : (followupQueues isRoutableChannel).ReachableBy Careful s) :
    Kept s := by
  refine h.invariant ?_ fun s event s' hkept hok hstep => kept_step hkept hok hstep
  rintro s rfl
  exact Kept.init

end OpenClaw.FollowupQueue

-- ---
-- The announce queues
-- ---

namespace OpenClaw.AnnounceQueue

open Transition QueueHelpers QueueDrain

variable {D V R S : Type} {contexts : DeliveryContexts D}

def Careful (s : AnnounceState D V R S) : Event D V R S → Prop
  | .enqueue params => SparesFlights s params.key params.settings
  | .turn drain => PassesPrompts s drain
  | .fail _ => True

theorem enqueueAnnounce_enqueued (s : AnnounceState D V R S) (params : EnqueueParams D V R S) :
    Enqueued announceKind summarizeAnnounce s params.key params.settings params.send params.send
      (queuedAnnounce contexts params.item) false (enqueueAnnounce contexts s params).1 :=
  .scheduled rfl _ (scheduleDrain_scheduled announceKind _ params.key ())

theorem kept_step {s s' : AnnounceState D V R S} {event : Event D V R S} (h : Kept s) (hok : Careful s event)
    (hstep : step contexts s event = some s') : Kept s' := by
  cases event with
  | enqueue params =>
    cases hstep
    exact h.enqueued (enqueueAnnounce_enqueued s params) fun _ => hok
  | turn drain => exact h.turn hok hstep
  | fail drain => exact h.failCall hstep

theorem kept_reachable {s : AnnounceState D V R S} (h : (announceQueues contexts).ReachableBy Careful s) : Kept s := by
  refine h.invariant ?_ fun s event s' hkept hok hstep => kept_step hkept hok hstep
  rintro s rfl
  exact Kept.init

end OpenClaw.AnnounceQueue

-- ---
-- Both
-- ---

namespace OpenClaw.QueueDrain

open Transition QueueHelpers FollowupQueue AnnounceQueue

theorem queues_keep_messages {R C D V R' S : Type} (isRoutableChannel : Option String → Bool)
    (contexts : DeliveryContexts D) :
    (∀ s : FollowupState R C, (followupQueues isRoutableChannel).ReachableBy FollowupQueue.Careful s →
      ∀ number < s.accepted, Accounted s number) ∧
    ∀ s : AnnounceState D V R' S, (announceQueues contexts).ReachableBy AnnounceQueue.Careful s →
      ∀ number < s.accepted, Accounted s number :=
  ⟨fun _ h _ hnumber => (FollowupQueue.kept_reachable h).all hnumber,
    fun _ h _ hnumber => (AnnounceQueue.kept_reachable h).all hnumber⟩

theorem queues_keep_messages_sample :
    Accounted (enqueueFollowupRun routable {} (sampleParams "a" none)).1 0 := by
  have hok : FollowupQueue.Careful ({} : FollowupState Unit Unit) (.enqueue (sampleParams "a" none)) :=
    fun _ _ _ hkey => by cases hkey
  have hkept := @queues_keep_messages Unit Unit Unit Unit Unit Unit routable ⟨fun _ => none, fun _ => none⟩
  exact hkept.1 _ (.step (.init rfl) hok rfl) 0 (by decide)

instance (s : State T E C) (number : Nat) : Decidable (Accounted s number) :=
  inferInstanceAs (Decidable ((∃ items ∈ s.items, number ∈ items.map Queued.number) ∨
    (∃ drain ∈ s.drains, drain.phase.covers number = true) ∨ number ∈ s.delivered ∨
    (∃ removal ∈ s.removals, removal.number = number ∧ removal.inFlight = false ∧
      (removal.summarized = true → removal.counted = true)) ∨ number ∈ s.cleared))

/-- The queue is capped at one message: while the run of the first is in flight the second
takes its place, and is shifted when the run returns. -/
def overflowEvents : List (FollowupQueue.Event Unit Unit) :=
  [.enqueue (sampleParams "a" (some 1)), .turn 0, .enqueue (sampleParams "b" (some 1)), .turn 0]

theorem not_queues_keep_messages :
    ¬ ∀ s : FollowupState Unit Unit, (followupQueues routable).Reachable s →
      ∀ number < s.accepted, Accounted s number := by
  intro h
  have hlost : ((followupQueues routable).run {} overflowEvents).map
      (fun s => (s.accepted, decide (Accounted s 1))) = some (2, false) := by decide
  obtain ⟨s, hrun, hlost⟩ := Option.map_eq_some_iff.1 hlost
  obtain ⟨haccepted, hlost⟩ := Prod.mk.inj hlost
  exact of_decide_eq_false hlost (h s (System.Reachable.run (.init rfl) hrun) 1 (by omega))

end OpenClaw.QueueDrain
