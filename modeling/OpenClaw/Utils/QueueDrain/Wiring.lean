import OpenClaw.Utils.QueueDrain

/-!
# Who drains what

The registry, the `draining` flags of the queue objects and the posts of the drains,
a post being the key and the queue object of a drain that has not ended. Whatever is
enqueued or cleared, no queue object has two drains, and one that is registered is
drained under the key it is registered for.
-/

namespace OpenClaw.QueueDrain

open Members QueueHelpers

-- ---
-- Wirings
-- ---

structure Wiring where
  registry : List (String × Nat)
  flags : List Bool
  posts : List (Option (String × Nat))

/-- The queue object of a post is being drained, and by no other drain. -/
structure Wiring.Sound (w : Wiring) : Prop where
  registered : ∀ {key : String} {queue : Nat}, w.registry.lookup key = some queue → queue < w.flags.length
  unique : ∀ {key key' : String} {queue : Nat}, w.registry.lookup key = some queue →
    w.registry.lookup key' = some queue → key = key'
  posted : ∀ {index : Nat} {key : String} {queue : Nat}, w.posts[index]? = some (some (key, queue)) →
    w.flags[queue]? = some true
  apart : ∀ {index index' : Nat} {key key' : String} {queue : Nat}, w.posts[index]? = some (some (key, queue)) →
    w.posts[index']? = some (some (key', queue)) → index = index'
  keyed : ∀ {index : Nat} {key key' : String} {queue : Nat}, w.posts[index]? = some (some (key, queue)) →
    w.registry.lookup key' = some queue → key' = key

def Wiring.remove (w : Wiring) (key : String) : Wiring := { w with registry := Members.remove w.registry key }

def Wiring.opened (w : Wiring) (key : String) : Wiring where
  registry := assign w.registry key w.flags.length
  flags := w.flags ++ [false]
  posts := w.posts

def Wiring.start (w : Wiring) (key : String) (queue : Nat) : Wiring :=
  { w with flags := w.flags.set queue true, posts := w.posts ++ [some (key, queue)] }

def Wiring.stop (w : Wiring) (index queue : Nat) : Wiring :=
  { w with flags := w.flags.set queue false, posts := w.posts.set index none }

theorem Wiring.Sound.remove {w : Wiring} (h : w.Sound) (key : String) : (w.remove key).Sound := by
  have hlookup : ∀ {key' : String} {queue : Nat}, (Members.remove w.registry key).lookup key' = some queue →
      w.registry.lookup key' = some queue := by
    intro key' queue hkey'
    rw [lookup_remove] at hkey'
    split at hkey'
    · cases hkey'
    · exact hkey'
  exact
    { registered := fun hkey => h.registered (hlookup hkey)
      unique := fun hkey hkey' => h.unique (hlookup hkey) (hlookup hkey')
      posted := h.posted
      apart := h.apart
      keyed := fun hpost hkey => h.keyed hpost (hlookup hkey) }

theorem Wiring.Sound.opened {w : Wiring} (h : w.Sound) (key : String) : (w.opened key).Sound := by
  have hlookup : ∀ {key' : String} {queue : Nat}, (w.opened key).registry.lookup key' = some queue →
      key' = key ∧ queue = w.flags.length ∨ w.registry.lookup key' = some queue ∧ queue < w.flags.length := by
    intro key' queue hkey'
    rw [Wiring.opened, lookup_assign] at hkey'
    split at hkey'
    case isTrue hkey => exact .inl ⟨hkey, (Option.some.inj hkey').symm⟩
    case isFalse => exact .inr ⟨hkey', h.registered hkey'⟩
  have hposted : ∀ {index : Nat} {key' : String} {queue : Nat}, w.posts[index]? = some (some (key', queue)) →
      queue < w.flags.length := fun hpost => (List.getElem?_eq_some_iff.1 (h.posted hpost)).1
  constructor
  case registered =>
    intro key' queue hkey'
    rw [Wiring.opened, List.length_append, List.length_singleton]
    rcases hlookup hkey' with ⟨-, rfl⟩ | ⟨-, hlt⟩
    · exact Nat.lt_succ_self _
    · exact Nat.lt_succ_of_lt hlt
  case unique =>
    intro key₁ queue key₂ hkey₁ hkey₂
    rcases hlookup hkey₁ with ⟨rfl, rfl⟩ | ⟨hkey₁, hlt⟩ <;> rcases hlookup hkey₂ with ⟨rfl, heq⟩ | ⟨hkey₂, hlt'⟩
    · rfl
    · exact absurd hlt' (Nat.lt_irrefl _)
    · exact absurd (heq ▸ hlt) (Nat.lt_irrefl _)
    · exact h.unique hkey₁ hkey₂
  case posted =>
    intro index key' queue hpost
    rw [Wiring.opened, List.getElem?_append_left (hposted hpost)]
    exact h.posted hpost
  case apart => exact h.apart
  case keyed =>
    intro index key₁ queue key₂ hpost hkey₂
    rcases hlookup hkey₂ with ⟨-, rfl⟩ | ⟨hkey₂, -⟩
    · exact absurd (hposted hpost) (Nat.lt_irrefl _)
    · exact h.keyed hpost hkey₂

theorem Wiring.Sound.start {w : Wiring} {key : String} {queue : Nat} (h : w.Sound) (hkey : w.registry.lookup key = some queue)
    (hidle : w.flags[queue]? = some false) : (w.start key queue).Sound := by
  have hlt := h.registered hkey
  have hpost : ∀ {index : Nat} {post : String × Nat}, (w.start key queue).posts[index]? = some (some post) →
      w.posts[index]? = some (some post) ∧ post.2 ≠ queue ∨ index = w.posts.length ∧ post = (key, queue) := by
    intro index post hindex
    rw [Wiring.start, List.getElem?_append] at hindex
    split at hindex
    case isTrue =>
      refine .inl ⟨hindex, ?_⟩
      rintro rfl
      have := h.posted hindex
      rw [hidle] at this
      cases this
    case isFalse hge =>
      obtain ⟨hzero, hpost⟩ := List.getElem?_eq_some_iff.1 hindex
      rw [List.length_singleton] at hzero
      refine .inr ⟨by omega, ?_⟩
      rw [List.getElem_singleton] at hpost
      exact (Option.some.inj hpost).symm
  constructor
  case registered =>
    intro key' queue' hkey'
    rw [Wiring.start, List.length_set]
    exact h.registered hkey'
  case unique => exact h.unique
  case posted =>
    intro index key' queue' hindex
    rw [Wiring.start, List.getElem?_set]
    rcases hpost hindex with ⟨hindex, hne⟩ | ⟨-, heq⟩
    · rw [if_neg (Ne.symm hne)]
      exact h.posted hindex
    · cases heq
      simp [hlt]
  case apart =>
    intro index₁ key₁ queue' index₂ key₂ hindex₁ hindex₂
    rcases hpost hindex₁ with ⟨hindex₁, hne⟩ | ⟨rfl, heq₁⟩ <;>
      rcases hpost hindex₂ with ⟨hindex₂, hne'⟩ | ⟨rfl, heq₂⟩
    · exact h.apart hindex₁ hindex₂
    · cases heq₂
      exact absurd rfl hne
    · cases heq₁
      exact absurd rfl hne'
    · rfl
  case keyed =>
    intro index key₁ queue' key₂ hindex hkey₂
    rcases hpost hindex with ⟨hindex, -⟩ | ⟨-, heq⟩
    · exact h.keyed hindex hkey₂
    · cases heq
      exact h.unique hkey₂ hkey

theorem Wiring.Sound.stop {w : Wiring} {index : Nat} {key : String} {queue : Nat} (h : w.Sound) (hindex : w.posts[index]? = some (some (key, queue))) :
    (w.stop index queue).Sound := by
  have hpost : ∀ {index' : Nat} {post : String × Nat}, (w.stop index queue).posts[index']? = some (some post) →
      w.posts[index']? = some (some post) ∧ post.2 ≠ queue := by
    intro index' post hindex'
    rw [Wiring.stop, List.getElem?_set] at hindex'
    split at hindex'
    case isTrue =>
      split at hindex' <;> simp at hindex'
    case isFalse hne =>
      refine ⟨hindex', ?_⟩
      rintro rfl
      exact hne (h.apart hindex hindex')
  constructor
  case registered =>
    intro key' queue' hkey'
    rw [Wiring.stop, List.length_set]
    exact h.registered hkey'
  case unique => exact h.unique
  case posted =>
    intro index' key' queue' hindex'
    obtain ⟨hindex', hne⟩ := hpost hindex'
    rw [Wiring.stop, List.getElem?_set_ne (Ne.symm hne)]
    exact h.posted hindex'
  case apart => exact fun hindex₁ hindex₂ => h.apart (hpost hindex₁).1 (hpost hindex₂).1
  case keyed => exact fun hindex' hkey' => h.keyed (hpost hindex').1 hkey'

-- ---
-- The wiring of a state
-- ---

variable {T E C : Type} {index queue : Nat} {drain : Drain T C} {object : Queue T E} {key : String}

def Drain.post (drain : Drain T C) : Option (String × Nat) :=
  if drain.phase.isActive then some (drain.key, drain.queue) else none

def State.wiring (s : State T E C) : Wiring where
  registry := s.registry
  flags := s.heap.map Queue.draining
  posts := s.drains.map Drain.post

theorem map_modify_eq {α β : Type} {f : α → β} {change : α → α} (l : List α) (index : Nat)
    (h : ∀ a, l[index]? = some a → f (change a) = f a) : (l.modify index change).map f = l.map f := by
  refine List.ext_getElem? fun i => ?_
  rw [List.getElem?_map, List.getElem?_map, List.getElem?_modify]
  split
  case isTrue heq =>
    subst heq
    cases hl : l[index]? with
    | none => rfl
    | some a => exact congrArg some (h a hl)
  case isFalse => simp

theorem map_modify_set {α β : Type} {f : α → β} {change : α → α} {b : β} (l : List α) (index : Nat)
    (h : ∀ a, f (change a) = b) : (l.modify index change).map f = (l.map f).set index b := by
  refine List.ext_getElem? fun i => ?_
  rw [List.getElem?_map, List.getElem?_modify, List.getElem?_set, List.length_map]
  split
  case isTrue heq =>
    subst heq
    split
    case isTrue hlt => simp [hlt, h]
    case isFalse hge => simp [List.getElem?_eq_none (Nat.le_of_not_lt hge)]
  case isFalse => simp

theorem wiring_setQueue (s : State T E C) (queue : Nat) {change : Queue T E → Queue T E}
    (h : ∀ object, (change object).draining = object.draining) : (setQueue s queue change).wiring = s.wiring := by
  unfold State.wiring setQueue
  rw [map_modify_eq s.heap queue fun object _ => h object]

theorem wiring_post {s : State T E C} (hdrain : s.drains[index]? = some drain) (hactive : drain.phase.isActive = true) :
    s.wiring.posts[index]? = some (some (drain.key, drain.queue)) := by
  simp [State.wiring, hdrain, Drain.post, hactive]

theorem active_of_post {s : State T E C} (hpost : s.wiring.posts[index]? = some (some post)) :
    ∃ drain, s.drains[index]? = some drain ∧ drain.phase.isActive = true := by
  rw [State.wiring, List.getElem?_map, Option.map_eq_some_iff] at hpost
  obtain ⟨drain, hdrain, hpost⟩ := hpost
  refine ⟨drain, hdrain, ?_⟩
  by_contra hdone
  simp [Drain.post, hdone] at hpost

theorem wiring_setPhase {s : State T E C} (hpost : s.wiring.posts[index]? = some (some post)) {phase : Phase T}
    (hphase : phase.isActive = true) : (setPhase s index phase).wiring = s.wiring := by
  obtain ⟨drain, hdrain, hactive⟩ := active_of_post hpost
  unfold State.wiring setPhase
  rw [map_modify_eq s.drains index]
  rintro object hobject
  cases hdrain.symm.trans hobject
  simp [Drain.post, hactive, hphase]

theorem wiring_setForce (s : State T E C) (index : Nat) (force : Bool) : (setForce s index force).wiring = s.wiring := by
  unfold State.wiring setForce
  have hposts : (s.drains.modify index fun object : Drain T C =>
      { object with forceIndividualCollect := force }).map Drain.post = s.drains.map Drain.post :=
    map_modify_eq s.drains index fun object _ => rfl
  simp only [hposts]

variable (kind : QueueKind T E)

theorem wiring_startDrain (s : State T E C) (key : String) (queue : Nat) (run : C) :
    (startDrain kind s key queue run).wiring = s.wiring.start key queue := by
  unfold startDrain rememberDrainCallback State.wiring Wiring.start setQueue
  split <;> simp [map_modify_set, Drain.post, Phase.isActive]

theorem registry_startDrain (s : State T E C) (key : String) (queue : Nat) (run : C) :
    (startDrain kind s key queue run).registry = s.registry :=
  congrArg Wiring.registry (wiring_startDrain kind s key queue run)

theorem heap_startDrain (s : State T E C) (key : String) (queue : Nat) (run : C) :
    (startDrain kind s key queue run).heap = (setQueue s queue fun object => { object with draining := true }).heap := by
  unfold startDrain rememberDrainCallback
  split <;> rfl

theorem drains_startDrain (s : State T E C) (key : String) (queue : Nat) (run : C) :
    (startDrain kind s key queue run).drains = s.drains ++ [⟨key, queue, false, run, .debouncing⟩] := by
  unfold startDrain rememberDrainCallback
  split <;> rfl

theorem wiring_stopDrain (s : State T E C) (index queue : Nat) :
    (stopDrain s index queue).wiring = s.wiring.stop index queue := by
  unfold stopDrain State.wiring Wiring.stop setQueue setPhase
  simp [map_modify_set, Drain.post, Phase.isActive]

theorem wiring_removeQueue (s : State T E C) (key : String) : (removeQueue s key).wiring = s.wiring.remove key :=
  rfl

theorem wiring_flag {s : State T E C} (hqueue : s.heap[queue]? = some object) :
    s.wiring.flags[queue]? = some object.draining := by
  simp [State.wiring, hqueue]

-- ---
-- What scheduling and ending may do
-- ---

inductive Scheduled (s : State T E C) (key : String) : State T E C → Prop
  | missing (h : ∀ queue, s.registry.lookup key = some queue → s.heap[queue]? = none) : Scheduled s key s
  | draining {queue : Nat} {object : Queue T E} (hkey : s.registry.lookup key = some queue)
      (hqueue : s.heap[queue]? = some object) (hdraining : object.draining = true) : Scheduled s key s
  | empty {queue : Nat} {object : Queue T E} (hkey : s.registry.lookup key = some queue)
      (hqueue : s.heap[queue]? = some object) (hidle : object.draining = false) (hempty : object.isEmpty = true) : Scheduled s key (removeQueue s key)
  | started {queue : Nat} {object : Queue T E} (run : C) (hkey : s.registry.lookup key = some queue)
      (hqueue : s.heap[queue]? = some object) (hidle : object.draining = false) (hfull : object.isEmpty = false) :
      Scheduled s key (startDrain kind s key queue run)

theorem scheduleDrain_scheduled (s : State T E C) (key : String) (run : C) :
    Scheduled kind s key (scheduleDrain kind s key run) := by
  unfold scheduleDrain
  split
  case h_1 hkey => exact .missing fun queue hkey' => absurd (hkey.symm.trans hkey') (by simp)
  case h_2 queue hkey =>
    split
    case h_1 hqueue => exact .missing fun queue' hkey' => Option.some.inj (hkey.symm.trans hkey') ▸ hqueue
    case h_2 object hqueue =>
      cases hdraining : object.draining with
      | true => exact .draining hkey hqueue hdraining
      | false =>
        cases hempty : object.isEmpty with
        | true => exact .empty hkey hqueue hdraining hempty
        | false => exact .started _ hkey hqueue hdraining hempty

/-- The queue is removed, or a drain is scheduled for what is left. -/
theorem finishDrain_cases (s : State T E C) (index : Nat) (drain : Drain T C) :
    isEmptyQueue (stopDrain s index drain.queue) drain.queue = true ∧
        finishDrain kind s index drain = removeQueue (stopDrain s index drain.queue) drain.key ∨
      isEmptyQueue (stopDrain s index drain.queue) drain.queue = false ∧
        Scheduled kind (stopDrain s index drain.queue) drain.key (finishDrain kind s index drain) := by
  unfold finishDrain
  cases hempty : isEmptyQueue (stopDrain s index drain.queue) drain.queue with
  | true => exact .inl ⟨rfl, by simp [hempty]⟩
  | false => exact .inr ⟨rfl, by simpa [hempty] using scheduleDrain_scheduled kind _ drain.key drain.run⟩

variable {kind}

theorem Scheduled.sound {s s' : State T E C} (hscheduled : Scheduled kind s key s') (h : s.wiring.Sound) :
    s'.wiring.Sound := by
  cases hscheduled with
  | missing => exact h
  | draining => exact h
  | empty => exact h.remove key
  | started run hkey hqueue hidle =>
    rw [wiring_startDrain]
    exact h.start hkey (hidle ▸ wiring_flag hqueue)

theorem sound_finishDrain {s : State T E C} (h : s.wiring.Sound)
    (hpost : s.wiring.posts[index]? = some (some (drain.key, drain.queue))) :
    (finishDrain kind s index drain).wiring.Sound := by
  have hstopped : (stopDrain s index drain.queue).wiring.Sound := by
    rw [wiring_stopDrain]
    exact h.stop hpost
  rcases finishDrain_cases kind s index drain with ⟨-, heq⟩ | ⟨-, hscheduled⟩
  · rw [heq]
    exact hstopped.remove drain.key
  · exact hscheduled.sound hstopped

-- ---
-- The wiring over a turn
-- ---

theorem drainNextQueueItem_isActive (items : List (Queued T)) (callKind : CallKind) (message : T → T) :
    (drainNextQueueItem items callKind message).isActive = true := by
  cases items <;> rfl

theorem afterDebounce_isActive {force : Bool} {phase : Phase T} (h : afterDebounce kind object force = some phase) :
    phase.isActive = true := by
  unfold afterDebounce at h
  split at h
  · split at h
    · cases h; rfl
    · cases h; exact drainNextQueueItem_isActive _ _ _
  · split at h
    · obtain ⟨message, -, rfl⟩ := Option.map_eq_some_iff.1 h
      exact drainNextQueueItem_isActive _ _ _
    · cases h; exact drainNextQueueItem_isActive _ _ _

theorem afterSkipped_isActive {phase : Phase T} (h : afterSkipped kind object = some phase) :
    phase.isActive = true := by
  obtain ⟨message, -, rfl⟩ := Option.map_eq_some_iff.1 h
  rfl

theorem sound_goOn {s : State T E C} (h : s.wiring.Sound)
    (hpost : s.wiring.posts[index]? = some (some (drain.key, drain.queue))) {next : Option (Phase T)}
    (hnext : ∀ phase, next = some phase → phase.isActive = true) :
    (goOn kind s index drain next).wiring.Sound := by
  cases next with
  | none => exact sound_finishDrain h hpost
  | some phase =>
    rw [goOn, wiring_setPhase hpost (hnext phase rfl)]
    exact h

theorem sound_continueDrain {s : State T E C} (h : s.wiring.Sound)
    (hpost : s.wiring.posts[index]? = some (some (drain.key, drain.queue))) :
    (continueDrain kind s index drain).wiring.Sound := by
  unfold continueDrain
  split
  · exact sound_finishDrain h hpost
  · rw [wiring_setPhase hpost rfl]
    exact h

theorem wiring_clearIf (s : State T E C) (queue : Nat) (clears : Bool) :
    (if clears then setQueue s queue Queue.clearSummary else s).wiring = s.wiring := by
  cases clears with
  | true => exact wiring_setQueue s queue fun _ => rfl
  | false => rfl

theorem wiring_splice (s : State T E C) (queue count : Nat) (call : Call T) :
    (setQueue { s with delivered := s.delivered ++ call.passed } queue (·.spliceFront count)).wiring = s.wiring :=
  wiring_setQueue _ queue fun _ => rfl

theorem sound_completeCall {s : State T E C} (h : s.wiring.Sound)
    (hpost : s.wiring.posts[index]? = some (some (drain.key, drain.queue))) (call : Call T) :
    (completeCall kind s index drain call).wiring.Sound := by
  have hsplice := wiring_splice s drain.queue
  unfold completeCall
  cases hkind : call.kind with
  | collect clears =>
    apply sound_continueDrain <;> rw [wiring_clearIf, hsplice]
    · exact h
    · exact hpost
  | _ =>
    have hwiring := hsplice 1 call
    rw [wiring_setPhase (by rw [hwiring]; exact hpost) rfl, hwiring]
    exact h

theorem turn_cases {s s' : State T E C} (h : turn kind s index = some s') :
    ∃ drain object, s.drains[index]? = some drain ∧ s.heap[drain.queue]? = some object ∧
      (drain.phase = .debouncing ∧
          s' = goOn kind (setForce s index (forceAfterDebounce kind object drain.forceIndividualCollect)) index drain
            (afterDebounce kind object drain.forceIndividualCollect) ∨
        drain.phase = .collecting ∧ s' = goOn kind s index drain (afterSkipped kind object) ∨
        (∃ call, drain.phase = .calling call ∧ s' = completeCall kind s index drain call) ∨
        (∃ clears, drain.phase = .shifted clears ∧
          s' = continueDrain kind (if clears then setQueue s drain.queue Queue.clearSummary else s) index drain) ∨
        drain.phase = .leaving ∧ s' = finishDrain kind s index drain) := by
  unfold turn at h
  split at h
  case h_1 => cases h
  case h_2 drain hdrain =>
    split at h
    case h_1 => cases h
    case h_2 object hqueue =>
      refine ⟨drain, object, hdrain, hqueue, ?_⟩
      cases hphase : drain.phase <;> rw [hphase] at h <;> cases h <;> simp

theorem failCall_cases {s s' : State T E C} (h : failCall kind s index = some s') :
    ∃ drain call, s.drains[index]? = some drain ∧ drain.phase = .calling call ∧
      (s' = finishDrain kind s index drain ∨ s' = setPhase s index .leaving) := by
  unfold failCall at h
  split at h
  case h_1 => cases h
  case h_2 drain hdrain =>
    split at h
    case h_1 hphase => exact ⟨drain, _, hdrain, hphase, .inl (Option.some.inj h).symm⟩
    case h_2 call _ hphase => exact ⟨drain, call, hdrain, hphase, .inr (Option.some.inj h).symm⟩
    case h_3 => cases h

theorem sound_turn {s s' : State T E C} (h : s.wiring.Sound) (hturn : turn kind s index = some s') :
    s'.wiring.Sound := by
  obtain ⟨drain, object, hdrain, -, hcases⟩ := turn_cases hturn
  rcases hcases with ⟨hphase, rfl⟩ | ⟨hphase, rfl⟩ | ⟨call, hphase, rfl⟩ | ⟨clears, hphase, rfl⟩ | ⟨hphase, rfl⟩
  all_goals
    have hpost := wiring_post hdrain (by rw [hphase]; rfl)
  · have hforce := wiring_setForce s index (forceAfterDebounce kind object drain.forceIndividualCollect)
    exact sound_goOn (hforce ▸ h) (hforce ▸ hpost) fun phase => afterDebounce_isActive
  · exact sound_goOn h hpost fun phase => afterSkipped_isActive
  · exact sound_completeCall h hpost call
  · have hclear := wiring_clearIf s drain.queue clears
    exact sound_continueDrain (hclear ▸ h) (hclear ▸ hpost)
  · exact sound_finishDrain h hpost

theorem sound_failCall {s s' : State T E C} (h : s.wiring.Sound) (hfail : failCall kind s index = some s') :
    s'.wiring.Sound := by
  obtain ⟨drain, call, hdrain, hphase, rfl | rfl⟩ := failCall_cases hfail
  all_goals
    have hpost := wiring_post hdrain (by rw [hphase]; rfl)
  · exact sound_finishDrain h hpost
  · rw [wiring_setPhase hpost rfl]
    exact h

-- ---
-- The wiring over an enqueue
-- ---

theorem sound_getQueue {s : State T E C} (h : s.wiring.Sound) (key : String) (settings : QueueSettings) (initial : E) :
    (getQueue s key settings initial).1.wiring.Sound := by
  unfold getQueue
  split
  case h_1 queue hkey =>
    have hwiring : (setQueue s queue fun object =>
        { object with toQueueState := object.applyQueueRuntimeSettings settings }).wiring = s.wiring :=
      wiring_setQueue s queue fun _ => rfl
    exact hwiring ▸ h
  case h_2 =>
    have hopened := h.opened key
    simpa [State.wiring, Wiring.opened, createQueue] using hopened

theorem lookup_getQueue (s : State T E C) (key : String) (settings : QueueSettings) (initial : E) :
    (getQueue s key settings initial).1.registry.lookup key = some (getQueue s key settings initial).2 := by
  unfold getQueue
  split
  case h_1 queue hkey => exact hkey
  case h_2 => simp [lookup_assign]

theorem pushItem_cases (summarize : T → Js.CodeUnits) (s : State T E C) (queue : Nat) (item : T) :
    pushItem summarize s queue item = (s, false) ∨ ∃ object, s.heap[queue]? = some object ∧
      pushItem summarize s queue item =
        (pushOn s queue object (object.applyQueueDropPolicy fun queued => summarize queued.item).1 item, true) := by
  unfold pushItem
  cases hqueue : s.heap[queue]? with
  | none => exact .inl rfl
  | some object =>
    dsimp only
    split
    · exact .inr ⟨object, rfl, rfl⟩
    · exact .inl rfl

theorem wiring_pushOn {s : State T E C} (hqueue : s.heap[queue]? = some object) (kept : QueueState (Queued T))
    (item : T) : (pushOn s queue object kept item).wiring = s.wiring := by
  have hflags : ∀ object' : Queue T E, object'.draining = object.draining →
      (s.heap.set queue object').map Queue.draining = s.heap.map Queue.draining := by
    intro object' hdraining
    refine List.ext_getElem? fun i => ?_
    rw [List.getElem?_map, List.getElem?_map, List.getElem?_set]
    split
    case isTrue heq =>
      subst heq
      obtain ⟨hlt, hget⟩ := List.getElem?_eq_some_iff.1 hqueue
      simp [hget, hlt, hdraining]
    case isFalse => rfl
  unfold State.wiring pushOn
  congr 1
  exact hflags _ rfl

theorem wiring_pushItem (summarize : T → Js.CodeUnits) (s : State T E C) (queue : Nat) (item : T) :
    (pushItem summarize s queue item).1.wiring = s.wiring := by
  rcases pushItem_cases summarize s queue item with heq | ⟨object, hqueue, heq⟩ <;> rw [heq]
  exact wiring_pushOn hqueue _ item

theorem wiring_setOwn (s : State T E C) (queue : Nat) (own : E) : (setOwn s queue own).wiring = s.wiring :=
  wiring_setQueue s queue fun _ => rfl

/-- The queue of the key with the item pushed, if there is room for it. -/
def addItem (summarize : T → Js.CodeUnits) (s : State T E C) (key : String) (settings : QueueSettings)
    (initial own : E) (item : T) : State T E C :=
  (pushItem summarize (setOwn (getQueue s key settings initial).1 (getQueue s key settings initial).2 own)
    (getQueue s key settings initial).2 item).1

variable (kind) in
/-- What an enqueue may do. -/
inductive Enqueued (summarize : T → Js.CodeUnits) (s : State T E C) (key : String) (settings : QueueSettings)
    (initial own : E) (item : T) (duplicate : Bool) : State T E C → Prop
  | refused (hduplicate : duplicate = true) :
      Enqueued summarize s key settings initial own item duplicate (getQueue s key settings initial).1
  | added (hduplicate : duplicate = false) (callbacks : List (String × C)) :
      Enqueued summarize s key settings initial own item duplicate
        { addItem summarize s key settings initial own item with callbacks := callbacks }
  | scheduled (hduplicate : duplicate = false) (callbacks : List (String × C)) {s' : State T E C}
      (hscheduled : Scheduled kind
        { addItem summarize s key settings initial own item with callbacks := callbacks } key s') :
      Enqueued summarize s key settings initial own item duplicate s'

theorem sound_addItem (summarize : T → Js.CodeUnits) {s : State T E C} (h : s.wiring.Sound) (key : String)
    (settings : QueueSettings) (initial own : E) (item : T) :
    (addItem summarize s key settings initial own item).wiring.Sound := by
  unfold addItem
  rw [wiring_pushItem, wiring_setOwn]
  exact sound_getQueue h key settings initial

theorem sound_enqueued {summarize : T → Js.CodeUnits} {s s' : State T E C} {settings : QueueSettings}
    {initial own : E} {item : T} {duplicate : Bool} (h : s.wiring.Sound)
    (henqueued : Enqueued kind summarize s key settings initial own item duplicate s') : s'.wiring.Sound := by
  have hadded := sound_addItem summarize h key settings initial own item
  cases henqueued with
  | refused => exact sound_getQueue h key settings initial
  | added => exact hadded
  | scheduled _ callbacks hscheduled => exact hscheduled.sound hadded

end OpenClaw.QueueDrain
