import OpenClaw.Utils.QueueDrain.Wiring

/-!
# One drain for a key

As long as nothing is pushed for a key whose drain works on a queue object that is no
longer registered, a key has at most one drain, such an object is empty, and so is the
one registered in its place: what the drain removes from the registry holds nothing.
-/

namespace OpenClaw.QueueDrain

open Members QueueHelpers

variable {T E C : Type} {kind : QueueKind T E} {index queue : Nat} {drain : Drain T C} {object : Queue T E} {key : String}

-- ---
-- Empty queues
-- ---

theorem isEmptyQueue_setQueue {s : State T E C} {change : Queue T E → Queue T E} (changed : Nat)
    (h : isEmptyQueue s queue = true) (hchange : ∀ object, object.isEmpty = true → (change object).isEmpty = true) :
    isEmptyQueue (setQueue s changed change) queue = true := by
  unfold isEmptyQueue setQueue at *
  rw [List.getElem?_modify]
  cases hqueue : s.heap[queue]? with
  | none => rfl
  | some object =>
    rw [hqueue] at h
    split
    · exact hchange object h
    · exact h

theorem isEmptyQueue_setQueue_ne (s : State T E C) (change : Queue T E → Queue T E) {changed : Nat}
    (h : changed ≠ queue) : isEmptyQueue (setQueue s changed change) queue = isEmptyQueue s queue := by
  unfold isEmptyQueue setQueue
  rw [List.getElem?_modify]
  simp [h]

theorem isEmptyQueue_draining (s : State T E C) (queue changed : Nat) (draining : Bool) :
    isEmptyQueue (setQueue s changed fun object => { object with draining := draining }) queue =
      isEmptyQueue s queue := by
  unfold isEmptyQueue setQueue
  rw [List.getElem?_modify]
  cases s.heap[queue]? with
  | none => rfl
  | some object => split <;> rfl

theorem isEmpty_spliceFront (count : Nat) (h : object.isEmpty = true) : (object.spliceFront count).isEmpty = true := by
  simp_all [Queue.isEmpty, Queue.spliceFront]

theorem isEmpty_clearSummary (h : object.isEmpty = true) : object.clearSummary.isEmpty = true := by
  simp_all [Queue.isEmpty, Queue.clearSummary, QueueState.clearQueueSummaryState]

theorem isEmptyQueue_of_heap {s s' : State T E C} (h : s'.heap = s.heap) (queue : Nat) :
    isEmptyQueue s' queue = isEmptyQueue s queue := by
  rw [isEmptyQueue, h, isEmptyQueue]

theorem isEmptyQueue_of_get {s : State T E C} (hqueue : s.heap[queue]? = some object) :
    isEmptyQueue s queue = object.isEmpty := by
  rw [isEmptyQueue, hqueue]
  rfl

variable (kind) in
theorem isEmptyQueue_startDrain (s : State T E C) (key : String) (started queue : Nat) (run : C) :
    isEmptyQueue (startDrain kind s key started run) queue = isEmptyQueue s queue :=
  (isEmptyQueue_of_heap (heap_startDrain kind s key started run) queue).trans (isEmptyQueue_draining s queue started true)

theorem isEmptyQueue_stopDrain (s : State T E C) (index stopped queue : Nat) :
    isEmptyQueue (stopDrain s index stopped) queue = isEmptyQueue s queue :=
  isEmptyQueue_draining (setPhase s index .done) queue stopped false

-- ---
-- The invariant
-- ---

structure Exclusive (s : State T E C) : Prop where
  sound : s.wiring.Sound
  apart : ∀ {index index' : Nat} {key : String} {queue queue' : Nat},
    s.wiring.posts[index]? = some (some (key, queue)) → s.wiring.posts[index']? = some (some (key, queue')) →
      index = index'
  detached : ∀ {index : Nat} {key : String} {queue : Nat}, s.wiring.posts[index]? = some (some (key, queue)) →
    s.registry.lookup key ≠ some queue → isEmptyQueue s queue = true
  fresh : ∀ {index : Nat} {key : String} {queue queue' : Nat}, s.wiring.posts[index]? = some (some (key, queue)) →
    s.registry.lookup key = some queue' → queue' ≠ queue →
      isEmptyQueue s queue' = true ∧ s.wiring.flags[queue']? = some false

/-- Queues may become empty. -/
theorem Exclusive.congr {s s' : State T E C} (h : Exclusive s) (hwiring : s'.wiring = s.wiring)
    (hempty : ∀ queue, isEmptyQueue s queue = true → isEmptyQueue s' queue = true) : Exclusive s' := by
  have hregistry : s'.registry = s.registry := congrArg Wiring.registry hwiring
  constructor
  case sound => exact hwiring ▸ h.sound
  case apart =>
    rw [hwiring]
    exact h.apart
  case detached =>
    rw [hwiring, hregistry]
    exact fun hpost hkey => hempty _ (h.detached hpost hkey)
  case fresh =>
    rw [hwiring, hregistry]
    exact fun hpost hkey hne => ⟨hempty _ (h.fresh hpost hkey hne).1, (h.fresh hpost hkey hne).2⟩

/-- A key is removed that has no drain on a queue with something in it. -/
theorem Exclusive.remove {s : State T E C} (h : Exclusive s)
    (hkey : ∀ (index queue : Nat), s.wiring.posts[index]? = some (some (key, queue)) → isEmptyQueue s queue = true) :
    Exclusive (removeQueue s key) := by
  constructor
  case sound => exact h.sound.remove key
  case apart => exact h.apart
  case detached =>
    intro index key' queue hpost hlookup
    by_cases heq : key' = key
    · subst heq
      exact hkey index queue hpost
    · refine h.detached hpost fun hlookup' => hlookup ?_
      rw [removeQueue, lookup_remove, if_neg heq, hlookup']
  case fresh =>
    intro index key' queue queue' hpost hlookup
    rw [removeQueue, lookup_remove] at hlookup
    split at hlookup
    · cases hlookup
    · exact h.fresh hpost hlookup

theorem Exclusive.start {s : State T E C} (h : Exclusive s) (run : C) (hkey : s.registry.lookup key = some queue)
    (hqueue : s.heap[queue]? = some object) (hidle : object.draining = false) (hfull : object.isEmpty = false) :
    Exclusive (startDrain kind s key queue run) := by
  have hflag : s.wiring.flags[queue]? = some false := hidle ▸ wiring_flag hqueue
  have hlt := h.sound.registered hkey
  have hwiring := wiring_startDrain kind s key queue run
  have hregistry := registry_startDrain kind s key queue run
  have hempty := isEmptyQueue_startDrain kind s key queue
  -- A drain of the key works on another object, and then the registered one is empty.
  have hnone : ∀ {index queue' : Nat}, s.wiring.posts[index]? ≠ some (some (key, queue')) := by
    intro index queue' hpost
    by_cases heq : queue = queue'
    · subst heq
      have := h.sound.posted hpost
      rw [hflag] at this
      cases this
    · have := (h.fresh hpost hkey heq).1
      rw [isEmptyQueue_of_get hqueue, hfull] at this
      cases this
  have hpost : ∀ {index : Nat} {post : String × Nat},
      (s.wiring.start key queue).posts[index]? = some (some post) →
        s.wiring.posts[index]? = some (some post) ∨ index = s.wiring.posts.length ∧ post = (key, queue) := by
    intro index post hindex
    rw [Wiring.start, List.getElem?_append] at hindex
    split at hindex
    case isTrue => exact .inl hindex
    case isFalse hge =>
      obtain ⟨hzero, hpost⟩ := List.getElem?_eq_some_iff.1 hindex
      rw [List.length_singleton] at hzero
      refine .inr ⟨by omega, ?_⟩
      rw [List.getElem_singleton] at hpost
      exact (Option.some.inj hpost).symm
  constructor
  case sound =>
    rw [hwiring]
    exact h.sound.start hkey hflag
  case apart =>
    rw [hwiring]
    intro index index' key' queue₁ queue₂ hpost₁ hpost₂
    rcases hpost hpost₁ with hpost₁ | ⟨rfl, heq₁⟩ <;> rcases hpost hpost₂ with hpost₂ | ⟨rfl, heq₂⟩
    · exact h.apart hpost₁ hpost₂
    · cases heq₂
      exact absurd hpost₁ hnone
    · cases heq₁
      exact absurd hpost₂ hnone
    · rfl
  case detached =>
    rw [hwiring, hregistry]
    intro index key' queue' hindex hlookup
    rw [hempty]
    rcases hpost hindex with hindex | ⟨-, heq⟩
    · exact h.detached hindex hlookup
    · cases heq
      exact absurd hkey hlookup
  case fresh =>
    rw [hwiring, hregistry]
    intro index key' queue₁ queue₂ hindex hlookup hne
    rw [hempty]
    rcases hpost hindex with hold | ⟨-, heq⟩
    · obtain ⟨hempty', hidle'⟩ := h.fresh hold hlookup hne
      refine ⟨hempty', ?_⟩
      have hother : queue ≠ queue₂ := by
        rintro rfl
        have hkeys := h.sound.unique hlookup hkey
        subst hkeys
        exact hnone hold
      rw [Wiring.start, List.getElem?_set_ne hother]
      exact hidle'
    · cases heq
      exact absurd (Option.some.inj (hkey.symm.trans hlookup)) (Ne.symm hne)

theorem Exclusive.scheduled {s s' : State T E C} (h : Exclusive s) (hscheduled : Scheduled kind s key s') :
    Exclusive s' := by
  cases hscheduled with
  | missing => exact h
  | draining => exact h
  | empty hkey hqueue hidle hempty =>
    refine h.remove fun index queue' hpost => ?_
    apply h.detached hpost
    rintro hlookup
    cases hkey.symm.trans hlookup
    have := h.sound.posted hpost
    rw [wiring_flag hqueue, hidle] at this
    cases this
  | started run hkey hqueue hidle hfull => exact h.start run hkey hqueue hidle hfull

theorem Exclusive.stop {s : State T E C} (h : Exclusive s)
    (hpost : s.wiring.posts[index]? = some (some (key, queue))) :
    Exclusive (stopDrain s index queue) ∧ ∀ {index' queue' : Nat},
      (stopDrain s index queue).wiring.posts[index']? ≠ some (some (key, queue')) := by
  have hwiring := wiring_stopDrain s index queue
  have hold : ∀ {index' : Nat} {post : String × Nat}, (s.wiring.stop index queue).posts[index']? = some (some post) →
      s.wiring.posts[index']? = some (some post) ∧ index ≠ index' := by
    intro index' post hindex'
    rw [Wiring.stop, List.getElem?_set] at hindex'
    split at hindex'
    case isTrue => split at hindex' <;> simp at hindex'
    case isFalse hne => exact ⟨hindex', hne⟩
  have hempty := isEmptyQueue_stopDrain s index queue
  constructor
  · constructor
    case sound =>
      rw [hwiring]
      exact h.sound.stop hpost
    case apart =>
      rw [hwiring]
      exact fun hpost₁ hpost₂ => h.apart (hold hpost₁).1 (hold hpost₂).1
    case detached =>
      rw [hwiring]
      intro index' key' queue' hindex' hlookup
      rw [hempty]
      exact h.detached (hold hindex').1 hlookup
    case fresh =>
      rw [hwiring]
      intro index' key' queue₁ queue₂ hindex' hlookup hne
      rw [hempty]
      obtain ⟨hempty', hidle⟩ := h.fresh (hold hindex').1 hlookup hne
      refine ⟨hempty', ?_⟩
      rw [Wiring.stop, List.getElem?_set]
      split
      case isTrue heq => simp [heq, (List.getElem?_eq_some_iff.1 hidle).1]
      case isFalse => exact hidle
  · intro index' queue' hindex'
    rw [hwiring] at hindex'
    obtain ⟨hindex', hne⟩ := hold hindex'
    exact hne (h.apart hpost hindex')

-- ---
-- A turn
-- ---

/-- What is registered stays so, if there is something in it and it is not the drain's own. -/
def KeepsOthers (own : Nat) (s s' : State T E C) : Prop :=
  ∀ key queue, s.registry.lookup key = some queue → queue ≠ own → isEmptyQueue s queue = false →
    s'.registry.lookup key = some queue

theorem KeepsOthers.remove {s : State T E C} (own : Nat)
    (h : ∀ queue, s.registry.lookup key = some queue → queue ≠ own → isEmptyQueue s queue = true) :
    KeepsOthers own s (removeQueue s key) := by
  intro key' queue hlookup hne hfull
  rw [removeQueue, lookup_remove, if_neg]
  · exact hlookup
  · rintro rfl
    have := h queue hlookup hne
    rw [hfull] at this
    cases this

theorem KeepsOthers.scheduled {s s' : State T E C} (hscheduled : Scheduled kind s key s') (own : Nat) :
    KeepsOthers own s s' := by
  cases hscheduled with
  | missing => exact fun _ _ hlookup _ _ => hlookup
  | draining => exact fun _ _ hlookup _ _ => hlookup
  | empty hkey hqueue hidle hempty =>
    refine .remove own fun queue' hlookup _ => ?_
    cases hkey.symm.trans hlookup
    rw [isEmptyQueue_of_get hqueue, hempty]
  | started run hkey hqueue hidle hfull =>
    intro key' queue' hlookup _ _
    rw [registry_startDrain]
    exact hlookup

variable (kind) in
theorem Exclusive.finish {s : State T E C} (h : Exclusive s)
    (hpost : s.wiring.posts[index]? = some (some (drain.key, drain.queue))) :
    Exclusive (finishDrain kind s index drain) ∧ KeepsOthers drain.queue s (finishDrain kind s index drain) := by
  obtain ⟨hstopped, hnone⟩ := h.stop hpost
  have hempty := isEmptyQueue_stopDrain s index drain.queue
  have hkeeps : ∀ {s' : State T E C}, KeepsOthers drain.queue (stopDrain s index drain.queue) s' →
      KeepsOthers drain.queue s s' := by
    intro s' hkeeps key' queue' hlookup hne hfull
    exact hkeeps key' queue' hlookup hne ((hempty queue').trans hfull)
  rcases finishDrain_cases kind s index drain with ⟨-, heq⟩ | ⟨-, hscheduled⟩
  · rw [heq]
    refine ⟨hstopped.remove fun _ _ hpost => absurd hpost hnone, hkeeps (.remove _ fun queue' hlookup hne => ?_)⟩
    rw [hempty]
    exact (h.fresh hpost hlookup hne).1
  · exact ⟨hstopped.scheduled hscheduled, hkeeps (.scheduled hscheduled _)⟩

/-- A state a turn goes through: the drain's own queue may have lost what was in it. -/
structure Midway (own : Nat) (s s' : State T E C) : Prop where
  wiring : s'.wiring = s.wiring
  empty : ∀ queue, isEmptyQueue s queue = true → isEmptyQueue s' queue = true
  others : ∀ queue, queue ≠ own → isEmptyQueue s' queue = isEmptyQueue s queue

theorem Midway.refl (own : Nat) (s : State T E C) : Midway own s s :=
  ⟨rfl, fun _ h => h, fun _ _ => rfl⟩

theorem Midway.of_heap {s s' : State T E C} (own : Nat) (hwiring : s'.wiring = s.wiring) (hheap : s'.heap = s.heap) :
    Midway own s s' :=
  ⟨hwiring, fun queue h => (isEmptyQueue_of_heap hheap queue).trans h, fun queue _ => isEmptyQueue_of_heap hheap queue⟩

theorem Midway.setQueue {own : Nat} {s s' : State T E C} (h : Midway own s s') {change : Queue T E → Queue T E}
    (hdraining : ∀ object, (change object).draining = object.draining)
    (hempty : ∀ object, object.isEmpty = true → (change object).isEmpty = true) :
    Midway own s (setQueue s' own change) where
  wiring := (wiring_setQueue s' own hdraining).trans h.wiring
  empty queue hqueue := isEmptyQueue_setQueue own (h.empty queue hqueue) hempty
  others queue hne := (isEmptyQueue_setQueue_ne s' change (Ne.symm hne)).trans (h.others queue hne)

theorem Midway.splice {own : Nat} {s s' : State T E C} (h : Midway own s s') (count : Nat) :
    Midway own s (QueueDrain.setQueue s' own (·.spliceFront count)) :=
  h.setQueue (fun _ => rfl) fun _ => isEmpty_spliceFront count

theorem Midway.clearIf {own : Nat} {s s' : State T E C} (h : Midway own s s') (clears : Bool) :
    Midway own s (if clears then QueueDrain.setQueue s' own Queue.clearSummary else s') := by
  cases clears with
  | true => exact h.setQueue (fun _ => rfl) fun _ => isEmpty_clearSummary
  | false => exact h

theorem Midway.keepsOthers {own : Nat} {s s' s'' : State T E C} (h : Midway own s s') (hkeeps : KeepsOthers own s' s'') :
    KeepsOthers own s s'' := by
  intro key queue hlookup hne hfull
  refine hkeeps key queue ?_ hne ((h.others queue hne).trans hfull)
  exact (congrArg (fun w : Wiring => w.registry.lookup key) h.wiring).trans hlookup

section Turns

variable {s s' : State T E C}

theorem Exclusive.finishMidway (h : Exclusive s) (hmid : Midway drain.queue s s')
    (hpost : s.wiring.posts[index]? = some (some (drain.key, drain.queue))) :
    Exclusive (finishDrain kind s' index drain) ∧ KeepsOthers drain.queue s (finishDrain kind s' index drain) := by
  have h' := h.congr hmid.wiring hmid.empty
  obtain ⟨hfinished, hkeeps⟩ := h'.finish kind (hmid.wiring ▸ hpost)
  exact ⟨hfinished, hmid.keepsOthers hkeeps⟩

theorem Exclusive.phaseMidway (h : Exclusive s) (hmid : Midway drain.queue s s')
    (hpost : s.wiring.posts[index]? = some (some (drain.key, drain.queue))) {phase : Phase T}
    (hphase : phase.isActive = true) :
    Exclusive (setPhase s' index phase) ∧ KeepsOthers drain.queue s (setPhase s' index phase) := by
  have hwiring : (setPhase s' index phase).wiring = s'.wiring := wiring_setPhase (hmid.wiring ▸ hpost) hphase
  refine ⟨(h.congr hmid.wiring hmid.empty).congr hwiring fun _ hempty => hempty, hmid.keepsOthers ?_⟩
  exact fun key _ hlookup _ _ => hlookup

theorem Exclusive.continueMidway (h : Exclusive s) (hmid : Midway drain.queue s s')
    (hpost : s.wiring.posts[index]? = some (some (drain.key, drain.queue))) :
    Exclusive (continueDrain kind s' index drain) ∧ KeepsOthers drain.queue s (continueDrain kind s' index drain) := by
  unfold continueDrain
  split
  · exact h.finishMidway hmid hpost
  · exact h.phaseMidway hmid hpost rfl

theorem Exclusive.goOnMidway (h : Exclusive s) (hmid : Midway drain.queue s s')
    (hpost : s.wiring.posts[index]? = some (some (drain.key, drain.queue))) {next : Option (Phase T)}
    (hnext : ∀ phase, next = some phase → phase.isActive = true) :
    Exclusive (goOn kind s' index drain next) ∧ KeepsOthers drain.queue s (goOn kind s' index drain next) := by
  cases next with
  | none => exact h.finishMidway hmid hpost
  | some phase => exact h.phaseMidway hmid hpost (hnext phase rfl)

/-- A turn keeps the invariant, and removes nothing that another queue object holds. -/
theorem Exclusive.turn (h : Exclusive s) (hturn : QueueDrain.turn kind s index = some s') :
    ∃ drain, s.drains[index]? = some drain ∧ Exclusive s' ∧ KeepsOthers drain.queue s s' := by
  obtain ⟨drain, object, hdrain, -, hcases⟩ := turn_cases hturn
  refine ⟨drain, hdrain, ?_⟩
  have hmid := Midway.refl drain.queue s
  rcases hcases with ⟨hphase, rfl⟩ | ⟨hphase, rfl⟩ | ⟨call, hphase, rfl⟩ | ⟨clears, hphase, rfl⟩ | ⟨hphase, rfl⟩
  all_goals
    have hpost := wiring_post hdrain (by rw [hphase]; rfl)
  · exact h.goOnMidway (.of_heap _ (wiring_setForce _ _ _) rfl) hpost fun phase => afterDebounce_isActive
  · exact h.goOnMidway hmid hpost fun phase => afterSkipped_isActive
  · have hmid' : Midway drain.queue s { s with delivered := s.delivered ++ call.passed } := .of_heap _ rfl rfl
    unfold completeCall
    cases call.kind with
    | item => exact h.phaseMidway (hmid'.splice 1) hpost rfl
    | summary => exact h.phaseMidway (hmid'.splice 1) hpost rfl
    | collect clears => exact h.continueMidway ((hmid'.splice _).clearIf clears) hpost
  · exact h.continueMidway (hmid.clearIf clears) hpost
  · exact h.finishMidway hmid hpost

theorem Exclusive.failCall (h : Exclusive s) (hfail : QueueDrain.failCall kind s index = some s') :
    ∃ drain, s.drains[index]? = some drain ∧ Exclusive s' ∧ KeepsOthers drain.queue s s' := by
  obtain ⟨drain, call, hdrain, hphase, hcases⟩ := failCall_cases hfail
  refine ⟨drain, hdrain, ?_⟩
  have hmid := Midway.refl drain.queue s
  have hpost := wiring_post hdrain (by rw [hphase]; rfl)
  rcases hcases with rfl | rfl
  · exact h.finishMidway hmid hpost
  · exact h.phaseMidway hmid hpost rfl

end Turns

-- ---
-- An enqueue
-- ---

section Enqueues

variable {s s' : State T E C} {settings : QueueSettings} {initial own : E} {item : T}

theorem posts_getQueue (s : State T E C) (key : String) (settings : QueueSettings) (initial : E) :
    (getQueue s key settings initial).1.wiring.posts = s.wiring.posts := by
  unfold getQueue
  split <;> rfl

theorem createQueue_isEmpty (settings : QueueSettings) (initial : E) :
    (createQueue settings initial : Queue T E).isEmpty = true :=
  rfl

theorem Exclusive.getQueue (h : Exclusive s) (key : String) (settings : QueueSettings) (initial : E) :
    Exclusive (QueueDrain.getQueue s key settings initial).1 := by
  have hsound := sound_getQueue h.sound key settings initial
  unfold QueueDrain.getQueue at *
  split at *
  case h_1 queue hkey =>
    refine h.congr (wiring_setQueue s queue fun _ => rfl) fun queue' hempty => ?_
    exact isEmptyQueue_setQueue queue hempty fun _ hobject => hobject
  case h_2 hkey =>
    have hempty : ∀ queue : Nat, isEmptyQueue s queue = true →
        ((s.heap ++ [createQueue settings initial])[queue]?).all Queue.isEmpty = true := by
      intro queue hqueue
      rw [List.getElem?_append]
      split
      case isTrue => exact hqueue
      case isFalse =>
        rw [Option.all_eq_true]
        rintro object hone
        obtain rfl := List.mem_singleton.1 (List.mem_of_getElem? hone)
        rfl
    refine ⟨hsound, h.apart, fun {index key' queue} hpost hlookup => hempty queue ?_, ?_⟩
    · apply h.detached hpost
      rintro hlookup'
      apply hlookup
      have hne : key' ≠ key := by
        rintro rfl
        rw [hkey] at hlookup'
        cases hlookup'
      exact (lookup_assign _ _ _ _).trans ((if_neg hne).trans hlookup')
    · rintro index key' queue queue' hpost hlookup hne
      replace hlookup := (lookup_assign s.registry key key' s.heap.length).symm.trans hlookup
      split at hlookup
      · cases hlookup
        constructor
        · simp [isEmptyQueue, createQueue_isEmpty]
        · simp [State.wiring, createQueue]
      · obtain ⟨hempty', hidle⟩ := h.fresh hpost hlookup hne
        refine ⟨hempty queue' hempty', ?_⟩
        have hlt := h.sound.registered hlookup
        simp only [State.wiring, List.length_map] at hlt
        simp only [State.wiring, List.map_append] at hidle ⊢
        rw [List.getElem?_append_left (by simpa using hlt)]
        exact hidle

theorem Exclusive.pushOn (h : Exclusive s) (hkey : s.registry.lookup key = some queue)
    (hposts : ∀ (index queue' : Nat), s.wiring.posts[index]? = some (some (key, queue')) → queue' = queue)
    (hqueue : s.heap[queue]? = some object) (kept : QueueState (Queued T)) (item : T) :
    Exclusive (QueueDrain.pushOn s queue object kept item) := by
  have hwiring := wiring_pushOn hqueue kept item
  have hother : ∀ queue' : Nat, queue' ≠ queue →
      isEmptyQueue (QueueDrain.pushOn s queue object kept item) queue' = isEmptyQueue s queue' := by
    intro queue' hne
    unfold isEmptyQueue QueueDrain.pushOn
    rw [List.getElem?_set_ne (Ne.symm hne)]
  constructor
  case sound =>
    rw [hwiring]
    exact h.sound
  case apart =>
    rw [hwiring]
    exact h.apart
  case detached =>
    rw [hwiring]
    intro index key' queue' hpost hlookup
    have hne : queue' ≠ queue := by
      rintro rfl
      have hkeys := h.sound.keyed hpost hkey
      subst hkeys
      exact hlookup hkey
    rw [hother queue' hne]
    exact h.detached hpost hlookup
  case fresh =>
    rw [hwiring]
    intro index key' queue₁ queue₂ hpost hlookup hne
    have hne' : queue₂ ≠ queue := by
      rintro rfl
      have hkeys := h.sound.unique hlookup hkey
      subst hkeys
      exact hne (hposts index queue₁ hpost).symm
    rw [hother queue₂ hne']
    exact h.fresh hpost hlookup hne

theorem Exclusive.addItem (h : Exclusive s) (summarize : T → Js.CodeUnits) (settings : QueueSettings) (initial own : E)
    (item : T) (hposts : ∀ (index queue : Nat), s.wiring.posts[index]? = some (some (key, queue)) →
      s.registry.lookup key = some queue) :
    Exclusive (QueueDrain.addItem summarize s key settings initial own item) := by
  have hfound := h.getQueue key settings initial
  have hkey := lookup_getQueue s key settings initial
  have hposts' := posts_getQueue s key settings initial
  have hwiring := wiring_setOwn (QueueDrain.getQueue s key settings initial).1
    (QueueDrain.getQueue s key settings initial).2 own
  have hset := hfound.congr hwiring fun queue hempty => isEmptyQueue_setQueue _ hempty fun _ hobject => hobject
  unfold QueueDrain.addItem
  rcases pushItem_cases summarize (setOwn (QueueDrain.getQueue s key settings initial).1
    (QueueDrain.getQueue s key settings initial).2 own) (QueueDrain.getQueue s key settings initial).2 item
    with heq | ⟨object, hqueue, heq⟩ <;> rw [heq]
  · exact hset
  · refine hset.pushOn hkey (fun index queue' hpost => ?_) hqueue _ item
    rw [hwiring, hposts'] at hpost
    have hold := hposts index queue' hpost
    unfold QueueDrain.getQueue
    rw [hold]

theorem Exclusive.enqueued {summarize : T → Js.CodeUnits} {duplicate : Bool} (h : Exclusive s)
    (henqueued : Enqueued kind summarize s key settings initial own item duplicate s')
    (hposts : duplicate = false → ∀ (index queue : Nat), s.wiring.posts[index]? = some (some (key, queue)) →
      s.registry.lookup key = some queue) : Exclusive s' := by
  cases henqueued with
  | refused => exact h.getQueue key settings initial
  | added hduplicate callbacks =>
    exact (h.addItem summarize settings initial own item (hposts hduplicate)).congr rfl fun _ hempty => hempty
  | scheduled hduplicate callbacks hscheduled =>
    have hadded := h.addItem summarize settings initial own item (hposts hduplicate)
    have hremembered : Exclusive { QueueDrain.addItem summarize s key settings initial own item with
        callbacks := callbacks } := hadded.congr rfl fun _ hempty => hempty
    exact hremembered.scheduled hscheduled

end Enqueues

end OpenClaw.QueueDrain
