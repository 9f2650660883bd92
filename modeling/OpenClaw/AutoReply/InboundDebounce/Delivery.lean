import OpenClaw.AutoReply.InboundDebounce.Invariant

/-!
# Delivery

No event loses an item, hands it over twice or lets it overtake another one of its
key, and the turns of the event loop run out only when everything was handed over.
-/

namespace OpenClaw.InboundDebounce

open Members Transition

variable {T : Type} {params : CreateParams T}

-- ---
-- What waits
-- ---

theorem taskItems_flushBuffer (s : State T) (key : String) (buffer : Nat) :
    taskItems (flushBuffer s key buffer).heap = taskItems s.heap := by
  funext task
  cases task with
  | buffered other =>
    simp only [taskItems, flushBuffer, List.getElem?_modify]
    cases s.heap[other]? with
    | none => rfl
    | some object => by_cases hsame : buffer = other <;> simp [hsame]
  | _ => rfl

theorem pending_flushBuffer (s : State T) (key : String) (buffer : Nat) :
    pending (flushBuffer s key buffer) = pending s := by
  funext key'
  cases key' with
  | none => rfl
  | some key' =>
    rw [pending, pending, taskItems_flushBuffer]
    rfl

theorem pending_flushKey (s : State T) (key : String) : pending (flushKey s key) = pending s := by
  unfold flushKey
  split
  · rfl
  · exact pending_flushBuffer s key _

theorem flushKey_frame (s : State T) (key : String) :
    (flushKey s key).enqueued = s.enqueued ∧ (flushKey s key).calls = s.calls := by
  unfold flushKey
  split <;> exact ⟨rfl, rfl⟩

theorem pending_setChain (s : State T) (key : String) (chain : KeyChain) (key' : Option String) :
    pending (setChain s key chain) key' =
      if key' = some key then chain.waiting.flatMap (taskItems s.heap) else pending s key' := by
  cases key' with
  | none => rfl
  | some key' =>
    rw [pending, waitingOf_setChain]
    by_cases hkey : key' = key
    · rw [if_pos hkey, if_pos (congrArg some hkey)]
      rfl
    · rw [if_neg hkey, if_neg fun heq => hkey (Option.some.inj heq)]
      rfl

theorem pending_enqueueKeyTask (s : State T) (key : String) (task : Task) (key' : Option String) :
    pending (enqueueKeyTask s key task) key' =
      pending s key' ++ if some key = key' then taskItems s.heap task else [] := by
  cases key' with
  | none => rfl
  | some key' =>
    rw [pending, waitingOf_enqueueKeyTask]
    by_cases hkey : key' = key
    · rw [if_pos hkey, if_pos (congrArg some hkey.symm), List.flatMap_append, List.flatMap_singleton, hkey]
      rfl
    · rw [if_neg hkey, if_neg fun heq => hkey (Option.some.inj heq).symm, List.append_nil]
      rfl

theorem pending_eq_nil {s : State T} (h : s.keyChains.lookup key = none) : pending s (some key) = [] := by
  rw [pending, waitingOf_nil h]
  rfl

-- ---
-- Items
-- ---

theorem InOrder.lt_of_called {s : State T} (h : InOrder params s) (hmem : item ∈ s.calls.flatten) :
    item < s.enqueued.length := by
  have hdelivered : item ∈ delivered params s (keyOf params s item) :=
    List.mem_append_left _ (List.mem_filter.2 ⟨hmem, by simp⟩)
  rw [h] at hdelivered
  exact List.mem_range.1 (List.mem_filter.1 hdelivered).1

theorem InOrder.key_of_pending {s : State T} (h : InOrder params s) (hmem : item ∈ pending s key) :
    keyOf params s item = key := by
  have hdelivered : item ∈ delivered params s key := List.mem_append_right _ hmem
  rw [h] at hdelivered
  exact of_decide_eq_true (List.mem_filter.1 hdelivered).2

/-- The state once an item has been numbered, before it goes anywhere. -/
def numbered (s : State T) (item : T) : State T := { s with enqueued := s.enqueued ++ [item] }

variable (params) in
theorem keyOf_numbered_self (s : State T) (item : T) :
    keyOf params (numbered s item) s.enqueued.length = params.key item := by
  simp [keyOf, numbered]

theorem keyOf_numbered (s : State T) (item : T) (h : number < s.enqueued.length) :
    keyOf params (numbered s item) number = keyOf params s number := by
  rw [keyOf, numbered, List.getElem?_append_left h]
  rfl

/-- An item that is delivered last keeps the order. -/
theorem InOrder.numbered {s s' : State T} (h : InOrder params s) (item : T)
    (henqueued : s'.enqueued = s.enqueued ++ [item])
    (hdelivered : ∀ key, delivered params s' key =
      delivered params (numbered s item) key ++ if params.key item = key then [s.enqueued.length] else []) :
    InOrder params s' := by
  have hkeyOf : keyOf params s' = keyOf params (InboundDebounce.numbered s item) := by
    funext number
    rw [keyOf, henqueued]
    rfl
  intro key
  have hcalls : delivered params (InboundDebounce.numbered s item) key = delivered params s key := by
    refine congrArg (· ++ _) (List.filter_congr fun number hnumber => ?_)
    rw [keyOf_numbered s item (h.lt_of_called hnumber)]
  rw [hdelivered, hcalls, h key, henqueued, List.length_append, List.length_singleton, List.range_succ,
    List.filter_append, hkeyOf]
  congr 1
  · refine List.filter_congr fun number hnumber => ?_
    rw [keyOf_numbered s item (List.mem_range.1 hnumber)]
  · simp only [List.filter_cons, keyOf_numbered_self, List.filter_nil, decide_eq_true_eq]

-- ---
-- Enqueueing
-- ---

theorem delivered_runFlush {s : State T} (hpending : pending s key = []) (hkey : keyOf params s item = key)
    (chained : Bool) (key' : Option String) :
    delivered params (runFlush s key [item] chained) key' =
      delivered params s key' ++ if key = key' then [item] else [] := by
  have hflatten : (s.calls ++ [[item]]).flatten = s.calls.flatten ++ [item] := by simp
  have hcalls : delivered params (runFlush s key [item] chained) key' =
      (s.calls.flatten ++ [item]).filter (fun item => keyOf params s item = key') ++ pending s key' :=
    congrArg (fun items => List.filter _ items ++ _) hflatten
  rw [hcalls, List.filter_append, delivered]
  by_cases hsame : key = key'
  · subst hsame
    simp [hpending, hkey]
  · simp [hsame, hkey]

theorem delivered_congr {s s' : State T} (henqueued : s'.enqueued = s.enqueued) (hcalls : s'.calls = s.calls)
    (hpending : pending s' key = pending s key) : delivered params s' key = delivered params s key := by
  have hkeyOf : keyOf params s' = keyOf params s := by
    funext number
    rw [keyOf, henqueued]
    rfl
  rw [delivered, delivered, hcalls, hpending, hkeyOf]

theorem delivered_enqueueKeyTask {s : State T} (task : Task) (hitems : taskItems s.heap task = [item])
    (key : String) (key' : Option String) :
    delivered params (enqueueKeyTask s key task) key' =
      delivered params s key' ++ if some key = key' then [item] else [] := by
  rw [delivered, pending_enqueueKeyTask, hitems, ← List.append_assoc]
  rfl

theorem wired_numbered {s : State T} (h : Wired none s) (item : T) : Wired none (numbered s item) :=
  ⟨h.opened, h.refs, h.timers, h.running, h.keyed, h.exclusive, h.nodupBuffers, h.nodupChains⟩

theorem enqueueImmediate_spec {s : State T} (h : Wired none s) (key : Option String)
    (hkey : keyOf params s item = key) :
    Wired none (enqueueImmediate s key item) ∧ (enqueueImmediate s key item).enqueued = s.enqueued ∧
      ∀ key', delivered params (enqueueImmediate s key item) key' =
        delivered params s key' ++ if key = key' then [item] else [] := by
  cases key with
  | none =>
    exact ⟨wired_runFlush h none [item] nofun, rfl, delivered_runFlush rfl hkey false⟩
  | some key =>
    rw [enqueueImmediate]
    split
    case isTrue hbuffer =>
      have hwired := wired_flushKey (wired_enqueueKeyTask h key (.reserved item false) nofun)
      obtain ⟨henqueued, hcalls⟩ := flushKey_frame (enqueueKeyTask s key (.reserved item false)) key
      refine ⟨hwired, henqueued, fun key' => ?_⟩
      rw [← delivered_enqueueKeyTask (.reserved item false) rfl key key']
      exact delivered_congr henqueued hcalls (by rw [pending_flushKey])
    case isFalse hbuffer =>
      split
      case isTrue =>
        refine ⟨(wired_enqueueKeyTask h key (.immediate item) nofun).closed ?_, rfl,
          delivered_enqueueKeyTask (.immediate item) rfl key⟩
        exact Option.not_isSome_iff_eq_none.1 hbuffer
      case isFalse hchain =>
        rw [Option.not_isSome_iff_eq_none] at hchain
        refine ⟨wired_runFlush h (some key) [item] ?_, rfl, delivered_runFlush (pending_eq_nil hchain) hkey false⟩
        rintro _ ⟨⟩
        exact hchain

/-- The items of a task, after one was added to a buffer. -/
theorem taskItems_modify (heap : List DebounceBuffer) (existing item debounceMs : Nat) (task : Task)
    (hexisting : heap[existing]?.isSome) :
    taskItems (heap.modify existing (.push item debounceMs)) task =
      taskItems heap task ++ if task = .buffered existing then [item] else [] := by
  cases task with
  | buffered other =>
    simp only [taskItems, List.getElem?_modify]
    by_cases hsame : existing = other
    · subst hsame
      obtain ⟨object, hobject⟩ := Option.isSome_iff_exists.1 hexisting
      simp [hobject, DebounceBuffer.push]
    · cases heap[other]? <;> simp [hsame, Ne.symm hsame]
  | _ => simp [taskItems]

theorem flatMap_taskItems_modify (heap : List DebounceBuffer) {tasks : List Task} (existing item debounceMs : Nat)
    (hexisting : heap[existing]?.isSome) (hnot : .buffered existing ∉ tasks) :
    tasks.flatMap (taskItems (heap.modify existing (.push item debounceMs))) =
      tasks.flatMap (taskItems heap) := by
  refine List.flatMap_congr fun task htask => ?_
  rw [taskItems_modify heap existing item debounceMs task hexisting, if_neg, List.append_nil]
  rintro rfl
  exact hnot htask

theorem flatMap_taskItems_append (heap : List DebounceBuffer) {tasks : List Task} (object : DebounceBuffer)
    (hlt : ∀ buffer, .buffered buffer ∈ tasks → buffer < heap.length) :
    tasks.flatMap (taskItems (heap ++ [object])) = tasks.flatMap (taskItems heap) := by
  refine List.flatMap_congr fun task htask => ?_
  cases task with
  | buffered buffer => rw [taskItems, taskItems, List.getElem?_append_left (hlt buffer htask)]
  | _ => rfl

theorem enqueueDebounced_spec {s : State T} (h : Wired none s) (key : String) (debounceMs : Nat) (item : Nat) :
    Wired none (enqueueDebounced params s key debounceMs item) ∧
      (enqueueDebounced params s key debounceMs item).enqueued = s.enqueued ∧
      ∀ key', delivered params (enqueueDebounced params s key debounceMs item) key' =
        delivered params s key' ++ if some key = key' then [item] else [] := by
  unfold enqueueDebounced
  split
  case h_1 existing hopen =>
    refine ⟨wired_push h hopen debounceMs item, rfl, fun key' => ?_⟩
    obtain ⟨object, hobject, -, -, -, hlast⟩ := h.opened key existing hopen
    obtain ⟨before, hwaiting, hnot⟩ := hlast nofun
    have hexisting : s.heap[existing]?.isSome := by rw [hobject]; rfl
    rw [delivered, delivered, List.append_assoc]
    refine congrArg (List.filter _ _ ++ ·) ?_
    cases key' with
    | none => rfl
    | some key' =>
      by_cases hsame : key' = key
      · subst hsame
        change (waitingOf s key').flatMap (taskItems (s.heap.modify existing (.push item debounceMs))) = _
        rw [if_pos rfl, pending, hwaiting, List.flatMap_append, List.flatMap_append, List.flatMap_singleton, List.flatMap_singleton,
          flatMap_taskItems_modify s.heap existing item debounceMs hexisting hnot,
          taskItems_modify s.heap existing item debounceMs _ hexisting, if_pos rfl, List.append_assoc]
      · rw [if_neg fun heq => hsame (Option.some.inj heq).symm, List.append_nil]
        exact flatMap_taskItems_modify s.heap existing item debounceMs hexisting (h.not_waiting hopen hsame)
  case h_2 hnone =>
    split
    case isTrue => 
      exact ⟨(wired_enqueueKeyTask h key (.immediate item) nofun).closed hnone, rfl,
        delivered_enqueueKeyTask (.immediate item) rfl key⟩
    case isFalse =>
      refine ⟨wired_open h hnone [item] debounceMs, rfl, fun key' => ?_⟩
      rw [delivered, delivered, List.append_assoc]
      refine congrArg (List.filter _ _ ++ ·) ?_
      cases key' with
      | none => rfl
      | some key' =>
        have hwaiting := waitingOf_enqueueKeyTask s key key' (.buffered s.heap.length)
        by_cases hsame : key' = key
        · subst hsame
          change (waitingOf (enqueueKeyTask s key' (.buffered s.heap.length)) key').flatMap
            (taskItems (s.heap ++ [⟨key', [item], true, debounceMs, false⟩])) = _
          rw [hwaiting, if_pos rfl, if_pos rfl, pending, List.flatMap_append, List.flatMap_singleton,
            flatMap_taskItems_append s.heap _ fun buffer hmem => h.heap_of_waiting hmem]
          simp [taskItems]
        · rw [if_neg hsame] at hwaiting
          rw [if_neg fun heq => hsame (Option.some.inj heq).symm, List.append_nil]
          change (waitingOf (enqueueKeyTask s key (.buffered s.heap.length)) key').flatMap
            (taskItems (s.heap ++ [⟨key, [item], true, debounceMs, false⟩])) = _
          rw [hwaiting]
          exact flatMap_taskItems_append s.heap _ fun buffer hmem => h.heap_of_waiting hmem

-- ---
-- Every run
-- ---

variable (params) in
structure Inv (s : State T) : Prop where
  wired : Wired none s
  ordered : InOrder params s

theorem inv_init : Inv params ({} : State T) := by
  refine ⟨⟨nofun, nofun, nofun, fun _ => rfl, nofun, .nil, .nil, .nil⟩, ?_⟩
  rintro (- | key) <;> rfl

theorem InOrder.of_delivered {s s' : State T} (h : InOrder params s) (henqueued : s'.enqueued = s.enqueued)
    (hdelivered : ∀ key, delivered params s' key = delivered params s key) : InOrder params s' := by
  have hkeyOf : keyOf params s' = keyOf params s := by
    funext number
    rw [keyOf, henqueued]
    rfl
  intro key
  rw [hdelivered, h key, henqueued, hkeyOf]

theorem inv_enqueue {s : State T} (h : Inv params s) (item : T) : Inv params (enqueue params s item) := by
  have hspec : Wired none (enqueue params s item) ∧
      (enqueue params s item).enqueued = s.enqueued ++ [item] ∧ ∀ key, delivered params (enqueue params s item) key =
        delivered params (numbered s item) key ++ if params.key item = key then [s.enqueued.length] else [] := by
    have hwired := wired_numbered h.wired item
    have hkeyOf := keyOf_numbered_self params s item
    rw [enqueue]
    split
    case h_1 key hkey =>
      split
      case isTrue => exact hkey ▸ enqueueDebounced_spec hwired key (params.debounceMsOf item) s.enqueued.length
      case isFalse => exact hkey ▸ enqueueImmediate_spec hwired (some key) (hkeyOf.trans hkey)
    case h_2 hkey => exact hkey ▸ enqueueImmediate_spec hwired none (hkeyOf.trans hkey)
  exact ⟨hspec.1, h.ordered.numbered item hspec.2.1 hspec.2.2⟩

theorem readyItems_eq {s : State T} (h : readyItems s task = some items) : taskItems s.heap task = items := by
  cases task with
  | buffered buffer =>
    obtain ⟨object, hobject, h⟩ := Option.bind_eq_some_iff.1 h
    obtain ⟨-, h⟩ := Option.ite_none_right_eq_some.1 h
    cases h
    simp [taskItems, hobject]
  | immediate item =>
    cases h
    rfl
  | reserved item ready =>
    obtain ⟨-, h⟩ := Option.ite_none_right_eq_some.1 h
    cases h
    rfl

theorem pending_front {s : State T} (hchain : s.keyChains.lookup key = some ⟨running, task :: waiting⟩)
    (hready : readyItems s task = some items) :
    pending s (some key) = items ++ waiting.flatMap (taskItems s.heap) := by
  rw [pending, waitingOf, hchain, ← readyItems_eq hready]
  rfl

/-- The items of the task are handed over where they waited. -/
theorem ordered_startTask {s s' : State T} (h : InOrder params s) (hstep : startTask s key = some s') :
    InOrder params s' := by
  unfold startTask at hstep
  split at hstep
  case h_1 task waiting hchain =>
    split at hstep
    case h_1 => cases hstep
    case h_2 hready =>
      cases hstep
      refine h.of_delivered rfl fun key' => delivered_congr rfl rfl ?_
      rw [pending_setChain]
      split
      case isTrue hkey => rw [hkey, pending_front hchain hready, List.nil_append]
      case isFalse => rfl
    case h_3 handed _ hready =>
      cases hstep
      have hfront := pending_front hchain hready
      refine h.of_delivered rfl fun key' => ?_
      have hflatten : (s.calls ++ [handed]).flatten = s.calls.flatten ++ handed := by simp
      have hcalls : delivered params (runFlush (setChain s key ⟨true, waiting⟩) (some key) handed true) key' =
          (s.calls.flatten ++ handed).filter (fun item => keyOf params s item = key') ++
            pending (setChain s key ⟨true, waiting⟩) key' :=
        congrArg (fun items => List.filter _ items ++ _) hflatten
      have hhanded : ∀ item ∈ handed, keyOf params s item = some key := fun item hitem =>
        h.key_of_pending (hfront ▸ List.mem_append_left _ hitem)
      rw [hcalls, pending_setChain, List.filter_append, delivered]
      by_cases hkey : key' = some key
      · have hall : handed.filter (fun item => keyOf params s item = key') = handed :=
          List.filter_eq_self.2 fun item hitem => decide_eq_true ((hhanded item hitem).trans hkey.symm)
        rw [if_pos hkey, hall, List.append_assoc, hkey, hfront]
      · have hnone : handed.filter (fun item => keyOf params s item = key') = [] :=
          List.filter_eq_nil_iff.2 fun item hitem heq =>
            hkey ((hhanded item hitem).symm.trans (of_decide_eq_true heq)).symm
        rw [if_neg hkey, hnone, List.append_nil]
  case h_2 => cases hstep

theorem ordered_release {s s' : State T} (h : InOrder params s) (hstep : releaseReserved s key = some s') :
    InOrder params s' := by
  unfold releaseReserved at hstep
  split at hstep
  case h_1 item waiting hchain =>
    cases hstep
    refine h.of_delivered rfl fun key' => delivered_congr rfl rfl ?_
    rw [pending_setChain]
    split
    case isTrue hkey =>
      rw [hkey, pending, waitingOf, hchain]
      rfl
    case isFalse => rfl
  case h_2 => cases hstep

theorem ordered_settle {s s' : State T} (h : InOrder params s) (hstep : settle s key = some s') :
    InOrder params s' := by
  unfold settle at hstep
  split at hstep
  case h_1 hchain =>
    cases hstep
    refine h.of_delivered rfl fun key' => delivered_congr rfl rfl ?_
    cases key' with
    | none => rfl
    | some key' =>
      rw [pending, pending, waitingOf, lookup_remove]
      split
      case isTrue hkey =>
        rw [hkey, waitingOf, hchain]
        rfl
      case isFalse => rfl
  case h_2 => cases hstep

theorem ordered_complete {s s' : State T} (h : InOrder params s) (hstep : complete s index = some s') :
    InOrder params s' := by
  obtain ⟨flush, -, ⟨key, -, -, rfl⟩ | ⟨-, rfl⟩⟩ := complete_cases hstep
  · refine h.of_delivered rfl fun key' => delivered_congr rfl rfl ((pending_setChain s key _ key').trans ?_)
    split
    case isTrue hkey =>
      rw [hkey]
      rfl
    case isFalse => rfl
  · exact h.of_delivered rfl fun key' => rfl

theorem ordered_flushBuffer {s : State T} (h : InOrder params s) (key : String) (buffer : Nat) :
    InOrder params (flushBuffer s key buffer) :=
  h.of_delivered rfl fun _ => delivered_congr rfl rfl (congrFun (pending_flushBuffer s key buffer) _)

theorem inv_step {s s' : State T} (h : Inv params s) (event : Event T) (hstep : step params s event = some s') :
    Inv params s' := by
  cases event with
  | enqueue item =>
    cases hstep
    exact inv_enqueue h item
  | flushKey key =>
    cases hstep
    refine ⟨wired_flushKey (h.wired.closing _), ?_⟩
    obtain ⟨henqueued, hcalls⟩ := flushKey_frame s key
    exact h.ordered.of_delivered henqueued fun _ => delivered_congr henqueued hcalls (congrFun (pending_flushKey s key) _)
  | timer buffer =>
    refine ⟨wired_fireTimer h.wired hstep, ?_⟩
    simp only [step, fireTimer] at hstep
    split at hstep
    case h_1 object hobject =>
      obtain ⟨-, hstep⟩ := Option.ite_none_right_eq_some.1 hstep
      cases hstep
      exact ordered_flushBuffer h.ordered object.key buffer
    case h_2 => cases hstep
  | start key => exact ⟨wired_startTask h.wired hstep, ordered_startTask h.ordered hstep⟩
  | release key => exact ⟨wired_release h.wired hstep, ordered_release h.ordered hstep⟩
  | complete flush => exact ⟨wired_complete h.wired hstep, ordered_complete h.ordered hstep⟩
  | settle key => exact ⟨wired_settle h.wired hstep, ordered_settle h.ordered hstep⟩

theorem inv_reachable {s : State T} (h : (debouncer params).Reachable s) : Inv params s := by
  refine h.invariant (fun s hinit => ?_) fun s event s' hinv hstep => inv_step hinv event hstep
  have hs : s = {} := hinit
  exact hs ▸ inv_init

-- ---
-- Turns run out
-- ---

/-- What happens without a call of the debouncer. -/
def Event.isTurn : Event T → Bool
  | .enqueue _ | .flushKey _ => false
  | _ => true

def taskWork : Task → Nat
  | .reserved _ false => 3
  | _ => 2

def chainWork (chain : KeyChain) : Nat := 1 + (if chain.running then 1 else 0) + (chain.waiting.map taskWork).sum

def work (s : State T) : Nat :=
  s.buffers.length + (s.keyChains.map fun entry => chainWork entry.2).sum + s.flushes.countP fun flush => !flush.chained

theorem taskWork_pos (task : Task) : 2 ≤ taskWork task := by
  unfold taskWork
  split <;> omega

theorem work_setChain {s : State T} (h : Wired none s) (hchain : s.keyChains.lookup key = some old) (chain : KeyChain) :
    work (setChain s key chain) + chainWork old = work s + chainWork chain := by
  have hsum := sum_assign chainWork h.nodupChains hchain chain
  unfold work setChain
  dsimp only
  omega

theorem work_startTask {s s' : State T} (h : Wired none s) (hstep : startTask s key = some s') : work s' < work s := by
  unfold startTask at hstep
  split at hstep
  case h_1 task waiting hchain =>
    have htask := taskWork_pos task
    split at hstep
    case h_1 => cases hstep
    case h_2 =>
      cases hstep
      have hwork := work_setChain h hchain ⟨false, waiting⟩
      simp only [chainWork, List.map_cons, List.sum_cons] at hwork
      omega
    case h_3 items _ _ =>
      cases hstep
      have hwork := work_setChain h hchain ⟨true, waiting⟩
      have hflush : work (runFlush (setChain s key ⟨true, waiting⟩) (some key) items true) =
          work (setChain s key ⟨true, waiting⟩) := by
        simp [work, runFlush]
      simp only [chainWork, List.map_cons, List.sum_cons, Bool.false_eq_true, if_false, if_true] at hwork
      omega
  case h_2 => cases hstep

theorem work_release {s s' : State T} (h : Wired none s) (hstep : releaseReserved s key = some s') :
    work s' < work s := by
  unfold releaseReserved at hstep
  split at hstep
  case h_1 item waiting hchain =>
    cases hstep
    have hwork := work_setChain h hchain ⟨false, .reserved item true :: waiting⟩
    simp only [chainWork, List.map_cons, List.sum_cons, taskWork] at hwork
    omega
  case h_2 => cases hstep

theorem work_settle {s s' : State T} (h : Wired none s) (hstep : settle s key = some s') : work s' < work s := by
  unfold settle at hstep
  split at hstep
  case h_1 hchain =>
    cases hstep
    have hsum := sum_remove chainWork h.nodupChains hchain
    simp only [work, chainWork] at hsum ⊢
    omega
  case h_2 => cases hstep

theorem isRunning_of_flush {s : State T} {index : Nat} {flush : Flush} (h : Wired none s)
    (hflush : s.flushes[index]? = some flush) (key : String)
    (hof : flush.ofChain key = true) : ∃ chain, s.keyChains.lookup key = some chain ∧ chain.running = true := by
  have hpos : 0 < s.flushes.countP (Flush.ofChain key) :=
    List.countP_pos_iff.2 ⟨flush, List.mem_of_getElem? hflush, hof⟩
  rw [h.running key] at hpos
  have hrunning : isRunning s key = true := by
    by_contra hidle
    rw [if_neg hidle] at hpos
    exact Nat.lt_irrefl _ hpos
  exact (Option.any_eq_true _ _).1 hrunning

theorem work_complete {s s' : State T} (h : Wired none s) (hstep : complete s index = some s') : work s' < work s := by
  obtain ⟨flush, hflush, ⟨key, hchained, hkey, rfl⟩ | ⟨hfree, rfl⟩⟩ := complete_cases hstep
  · obtain ⟨⟨running, waiting⟩, hchain, hrunning⟩ :=
      isRunning_of_flush h hflush key (by simp [Flush.ofChain, hchained, hkey])
    have hwork := work_setChain h hchain ⟨false, waitingOf s key⟩
    have hcount := countP_eraseIdx (p := fun flush : Flush => !flush.chained) s.flushes hflush
    have hsame : waitingOf s key = waiting := by
      rw [waitingOf, hchain]
      rfl
    simp only [work, setChain, chainWork, hsame, hchained, show running = true from hrunning] at hwork hcount ⊢
    simp only [Bool.not_true, Bool.false_eq_true, if_false, if_true] at hwork hcount
    omega
  · have hunchained : flush.chained = false := by
      refine hfree.elim id fun hnone => ?_
      cases hchained : flush.chained with
      | false => rfl
      | true =>
        have hsome := h.keyed flush (List.mem_of_getElem? hflush) hchained
        rw [hnone] at hsome
        cases hsome
    have hcount := countP_eraseIdx (p := fun flush : Flush => !flush.chained) s.flushes hflush
    simp only [work, hunchained] at hcount ⊢
    simp only [Bool.not_false, if_true] at hcount
    omega

theorem work_fireTimer {s s' : State T} (h : Wired none s) (hstep : fireTimer s buffer = some s') :
    work s' < work s := by
  unfold fireTimer at hstep
  split at hstep
  case h_1 object hobject =>
    obtain ⟨htimer, hstep⟩ := Option.ite_none_right_eq_some.1 hstep
    cases hstep
    have hopen := h.timers buffer object hobject htimer
    have hlength := length_remove h.nodupBuffers hopen
    simp only [work, flushBuffer, if_pos hopen]
    omega
  case h_2 => cases hstep

theorem work_step {s s' : State T} (h : Wired none s) {event : Event T} (hturn : event.isTurn = true)
    (hstep : step params s event = some s') : work s' < work s := by
  cases event with
  | enqueue | flushKey => cases hturn
  | timer buffer => exact work_fireTimer h hstep
  | start key => exact work_startTask h hstep
  | release key => exact work_release h hstep
  | complete flush => exact work_complete h hstep
  | settle key => exact work_settle h hstep

variable (params) in
/-- Where something waits a turn can be taken. -/
theorem turn_of_waiting {s : State T} (h : Wired none s) (hwaiting : waitingOf s key = task :: waiting) :
    ∃ event : Event T, event.isTurn = true ∧ (step params s event).isSome := by
  cases hchain : s.keyChains.lookup key with
  | none =>
    rw [waitingOf_nil hchain] at hwaiting
    cases hwaiting
  | some chain =>
    obtain ⟨running, tasks⟩ := chain
    have htasks : tasks = task :: waiting := by
      rw [← hwaiting, waitingOf, hchain]
      rfl
    subst htasks
    cases running with
    | true =>
      have hpos : s.flushes.countP (Flush.ofChain key) = 1 := by
        rw [h.running key, isRunning, hchain]
        rfl
      obtain ⟨flush, hmem, hof⟩ := List.countP_pos_iff.1 (hpos ▸ Nat.one_pos)
      obtain ⟨index, hindex⟩ := List.mem_iff_getElem?.1 hmem
      refine ⟨.complete index, rfl, ?_⟩
      simp only [step, complete, hindex]
      split <;> rfl
    | false =>
      have hstart : ∀ items, readyItems s task = some items → (startTask s key).isSome := by
        intro items hready
        simp only [startTask, hchain, hready]
        cases items <;> rfl
      cases task with
      | immediate item => exact ⟨.start key, rfl, hstart [item] rfl⟩
      | reserved item ready =>
        cases ready with
        | true => exact ⟨.start key, rfl, hstart [item] rfl⟩
        | false =>
          refine ⟨.release key, rfl, ?_⟩
          simp only [step, releaseReserved, hchain]
          rfl
      | buffered buffer =>
        obtain ⟨object, hobject, hkey, hready | hopen⟩ := h.refs key buffer (hwaiting ▸ List.mem_cons_self)
        · exact ⟨.start key, rfl, hstart object.items (by simp [readyItems, hobject, hready])⟩
        · obtain ⟨object', hobject', -, htimer, -⟩ := h.opened key buffer hopen
          refine ⟨.timer buffer, rfl, ?_⟩
          simp only [step, fireTimer, hobject', htimer]
          rfl

theorem enqueued_turn {s s' : State T} {event : Event T} (hturn : event.isTurn = true)
    (hstep : step params s event = some s') : s'.enqueued = s.enqueued := by
  cases event with
  | enqueue | flushKey => cases hturn
  | timer buffer =>
    simp only [step, fireTimer] at hstep
    split at hstep
    case h_1 object _ =>
      obtain ⟨-, hstep⟩ := Option.ite_none_right_eq_some.1 hstep
      cases hstep
      rfl
    case h_2 => cases hstep
  | start key =>
    simp only [step, startTask] at hstep
    split at hstep
    case h_1 =>
      split at hstep <;> cases hstep <;> rfl
    case h_2 => cases hstep
  | release key =>
    simp only [step, releaseReserved] at hstep
    split at hstep <;> cases hstep
    rfl
  | complete flush =>
    obtain ⟨_, -, ⟨_, -, -, rfl⟩ | ⟨-, rfl⟩⟩ := complete_cases hstep <;> rfl
  | settle key =>
    simp only [step, settle] at hstep
    split at hstep <;> cases hstep
    rfl

/-- Turns alone take no more steps than there is work. -/
theorem turns_le_work {s s' : State T} (h : Inv params s) {events : List (Event T)}
    (hturns : ∀ event ∈ events, event.isTurn = true) (hrun : (debouncer params).run s events = some s') :
    events.length ≤ work s ∧ Inv params s' ∧ s'.enqueued = s.enqueued := by
  induction events generalizing s with
  | nil =>
    cases hrun
    exact ⟨Nat.zero_le _, h, rfl⟩
  | cons event events ih =>
    obtain ⟨hturn, hturns⟩ := List.forall_mem_cons.1 hturns
    obtain ⟨middle, hstep, hrun⟩ := Option.bind_eq_some_iff.1 hrun
    obtain ⟨hlength, hinv, henqueued⟩ := ih (inv_step h event hstep) hturns hrun
    have hwork := work_step h.wired hturn hstep
    refine ⟨?_, hinv, henqueued.trans (enqueued_turn hturn hstep)⟩
    rw [List.length_cons]
    omega

-- ---
-- The debouncer
-- ---

theorem Inv.count {s : State T} (h : Inv params s) (hitem : item < s.enqueued.length) :
    s.calls.flatten.count item + (pending s (keyOf params s item)).count item = 1 := by
  have hdelivered := congrArg (List.count item) (h.ordered (keyOf params s item))
  rw [delivered, List.count_append, List.count_filter (by simp), List.count_filter (by simp)] at hdelivered
  rw [hdelivered]
  exact List.count_eq_one_of_mem List.nodup_range (List.mem_range.2 hitem)

theorem Inv.sorted {s : State T} (h : Inv params s) (key : Option String) :
    (s.calls.flatten.filter fun item => keyOf params s item = key).Pairwise (· < ·) := by
  have hsorted : (delivered params s key).Pairwise (· < ·) := by
    rw [h.ordered key]
    exact List.pairwise_lt_range.filter _
  exact (List.pairwise_append.1 hsorted).1

/-- Nothing waits where no turn is left. -/
theorem pending_of_no_turn {s : State T} (h : Wired none s)
    (hnone : ∀ event : Event T, event.isTurn = true → step params s event = none) (key : Option String) :
    pending s key = [] := by
  cases key with
  | none => rfl
  | some key =>
    cases hwaiting : waitingOf s key with
    | nil =>
      rw [pending, hwaiting]
      rfl
    | cons task waiting =>
      obtain ⟨event, hturn, hsome⟩ := turn_of_waiting params h hwaiting
      rw [hnone event hturn] at hsome
      cases hsome

/-- In every run each item is handed over once or still waits, the items of a key in
the order they came in. Of two calls in flight for one key the earlier is an immediate
one, made while the key had neither buffer nor chain. Without further calls the turns
run out, and then every item was handed over. -/
theorem inboundDebouncer_delivers (params : CreateParams T) (s : State T) (h : (debouncer params).Reachable s) :
    (∀ item < s.enqueued.length,
      s.calls.flatten.count item + (pending s (keyOf params s item)).count item = 1) ∧
    (∀ key, (s.calls.flatten.filter fun item => keyOf params s item = key).Pairwise (· < ·)) ∧
    Exclusive s.flushes ∧
    ∀ events s', (∀ event ∈ events, event.isTurn = true) → (debouncer params).run s events = some s' →
      events.length ≤ work s ∧
        ((∀ event : Event T, event.isTurn = true → step params s' event = none) →
          ∀ item < s.enqueued.length, s'.calls.flatten.count item = 1) := by
  have hinv := inv_reachable h
  refine ⟨fun item hitem => hinv.count hitem, hinv.sorted, hinv.wired.exclusive, fun events s' hturns hrun => ?_⟩
  obtain ⟨hlength, hinv', henqueued⟩ := turns_le_work hinv hturns hrun
  refine ⟨hlength, fun hnone item hitem => ?_⟩
  have hcount := hinv'.count (henqueued ▸ hitem)
  rwa [pending_of_no_turn hinv'.wired hnone, List.count_nil, Nat.add_zero] at hcount

/-- Items that are their own keys and are never held back. -/
def immediateParams : CreateParams String where
  debounceMs := 0
  maxTrackedKeys := none
  buildKey := some
  shouldDebounce _ := true
  resolveDebounceMs _ := none

theorem inboundDebouncer_delivers_immediate :
    (enqueue immediateParams (enqueue immediateParams {} "a") "a").calls.flatten.count 1 +
        (pending (enqueue immediateParams (enqueue immediateParams {} "a") "a") (some "a")).count 1 = 1 :=
  (inboundDebouncer_delivers immediateParams _ (.step (.step (.init rfl) (a := .enqueue "a") rfl) (a := .enqueue "a") rfl)).1
    1 (by decide)

/-- Two immediate items of one key are both in flight. -/
theorem not_inboundDebouncer_exclusive :
    ¬ ∀ s : State String, (debouncer immediateParams).Reachable s →
      s.flushes.Pairwise fun earlier later => earlier.key = later.key → earlier.key = none := by
  intro h
  have hpair := h (enqueue immediateParams (enqueue immediateParams {} "a") "a")
    (.step (.step (.init rfl) (a := .enqueue "a") rfl) (a := .enqueue "a") rfl)
  revert hpair
  decide

end OpenClaw.InboundDebounce
