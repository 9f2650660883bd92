import OpenClaw.AutoReply.InboundDebounce

/-!
# What waits and what was handed over

For each key, what `onFlush` was called with followed by what waits in the chain is
what was enqueued, in order. A buffer that is still open is the last task of its
chain, and a chain has at most one call of `onFlush` in flight.
-/

namespace OpenClaw.InboundDebounce

open Members Transition

variable {T : Type} {params : CreateParams T}

-- ---
-- Chains
-- ---

def waitingOf (s : State T) (key : String) : List Task := ((s.keyChains.lookup key).map KeyChain.waiting).getD []

def isRunning (s : State T) (key : String) : Bool := (s.keyChains.lookup key).any KeyChain.running

def taskItems (heap : List DebounceBuffer) : Task → List Nat
  | .buffered buffer => (heap[buffer]?.map DebounceBuffer.items).getD []
  | .immediate item => [item]
  | .reserved item _ => [item]

/-- What waits for a key; nothing waits without one. -/
def pending (s : State T) : Option String → List Nat
  | none => []
  | some key => (waitingOf s key).flatMap (taskItems s.heap)

variable (params) in
def keyOf (s : State T) (item : Nat) : Option String := s.enqueued[item]?.bind params.key

variable (params) in
/-- What was handed over for a key, then what waits. -/
def delivered (s : State T) (key : Option String) : List Nat :=
  s.calls.flatten.filter (fun item => keyOf params s item = key) ++ pending s key

variable (params) in
def InOrder (s : State T) : Prop :=
  ∀ key, delivered params s key = (List.range s.enqueued.length).filter fun item => keyOf params s item = key

theorem waitingOf_setChain (s : State T) (key key' : String) (chain : KeyChain) :
    waitingOf (setChain s key chain) key' = if key' = key then chain.waiting else waitingOf s key' := by
  unfold waitingOf setChain
  simp only [lookup_assign]
  split <;> rfl

theorem isRunning_setChain (s : State T) (key key' : String) (chain : KeyChain) :
    isRunning (setChain s key chain) key' = if key' = key then chain.running else isRunning s key' := by
  unfold isRunning setChain
  simp only [lookup_assign]
  split <;> rfl

theorem waitingOf_enqueueKeyTask (s : State T) (key key' : String) (task : Task) :
    waitingOf (enqueueKeyTask s key task) key' =
      if key' = key then waitingOf s key ++ [task] else waitingOf s key' := by
  unfold waitingOf enqueueKeyTask
  simp only [lookup_assign]
  split
  case isTrue => cases s.keyChains.lookup key <;> rfl
  case isFalse => rfl

theorem isRunning_enqueueKeyTask (s : State T) (key key' : String) (task : Task) :
    isRunning (enqueueKeyTask s key task) key' = isRunning s key' := by
  unfold isRunning enqueueKeyTask
  simp only [lookup_assign]
  split
  case isTrue hkey =>
    subst hkey
    cases s.keyChains.lookup key' <;> rfl
  case isFalse => rfl

-- ---
-- The invariant
-- ---

def Flush.ofChain (key : String) (flush : Flush) : Bool := flush.chained && flush.key = some key

/-- The earlier of two calls in flight for one key came from no chain. -/
def Exclusive (flushes : List Flush) : Prop :=
  flushes.Pairwise fun earlier later => earlier.key = later.key → earlier.key.isSome → earlier.chained = false

/-- `closing` is a key that is about to close its buffer, whose task need not be last. -/
structure Wired (closing : Option String) (s : State T) : Prop where
  /-- An open buffer has a timer and is the last task of its chain. -/
  opened : ∀ key buffer, s.buffers.lookup key = some buffer →
    ∃ object, s.heap[buffer]? = some object ∧ object.key = key ∧ object.timer = true ∧ object.readyReleased = false ∧
      (closing ≠ some key → ∃ before, waitingOf s key = before ++ [.buffered buffer] ∧ .buffered buffer ∉ before)
  /-- A buffer that waits belongs to the key, and is open or released. -/
  refs : ∀ key buffer, .buffered buffer ∈ waitingOf s key →
    ∃ object, s.heap[buffer]? = some object ∧ object.key = key ∧
      (object.readyReleased = true ∨ s.buffers.lookup key = some buffer)
  timers : ∀ buffer object, s.heap[buffer]? = some object → object.timer = true →
    s.buffers.lookup object.key = some buffer
  running : ∀ key, s.flushes.countP (Flush.ofChain key) = if isRunning s key then 1 else 0
  keyed : ∀ flush ∈ s.flushes, flush.chained = true → flush.key.isSome
  exclusive : Exclusive s.flushes
  nodupBuffers : (s.buffers.map Prod.fst).Nodup
  nodupChains : (s.keyChains.map Prod.fst).Nodup

theorem Wired.heap_of_waiting {s : State T} (h : Wired closing s) (hmem : .buffered buffer ∈ waitingOf s key) :
    buffer < s.heap.length := by
  obtain ⟨object, hobject, -⟩ := h.refs key buffer hmem
  exact (List.getElem?_eq_some_iff.1 hobject).1

/-- A buffer waits for the key it was made for, and for no other. -/
theorem Wired.not_waiting {s : State T} (h : Wired closing s) (hopen : s.buffers.lookup key = some buffer) (hne : key' ≠ key) :
    .buffered buffer ∉ waitingOf s key' := by
  intro hmem
  obtain ⟨object, hobject, hkey, -⟩ := h.opened key buffer hopen
  obtain ⟨object', hobject', hkey', -⟩ := h.refs key' buffer hmem
  cases hobject.symm.trans hobject'
  exact hne (hkey'.symm.trans hkey)

-- ---
-- Calls in flight
-- ---

/-- A call starts where none from a chain is in flight for its key. -/
theorem Exclusive.append {flushes : List Flush} (h : Exclusive flushes)
    (hnone : ∀ key, flush.key = some key → flushes.countP (Flush.ofChain key) = 0) :
    Exclusive (flushes ++ [flush]) := by
  refine List.pairwise_append.2 ⟨h, List.pairwise_singleton _ _, ?_⟩
  intro earlier hearlier later hlater hkey hsome
  rw [List.mem_singleton.1 hlater] at hkey
  obtain ⟨key, hsome⟩ := Option.isSome_iff_exists.1 hsome
  have hzero := List.countP_eq_zero.1 (hnone key (hkey.symm.trans hsome)) earlier hearlier
  simpa [Flush.ofChain, hsome] using hzero

theorem Exclusive.eraseIdx {flushes : List Flush} (h : Exclusive flushes) (index : Nat) :
    Exclusive (flushes.eraseIdx index) :=
  List.Pairwise.sublist (List.eraseIdx_sublist flushes index) h

theorem countP_eraseIdx {α : Type} {p : α → Bool} (l : List α) {index : Nat} {a : α} (h : l[index]? = some a) :
    (l.eraseIdx index).countP p + (if p a then 1 else 0) = l.countP p := by
  induction l generalizing index with
  | nil => cases h
  | cons b l ih =>
    cases index with
    | zero =>
      cases h
      rw [List.eraseIdx_cons_zero, List.countP_cons]
    | succ index =>
      have ih := @ih index h
      rw [List.eraseIdx_cons_succ, List.countP_cons, List.countP_cons]
      omega

-- ---
-- What an operation keeps
-- ---

theorem isRunning_false {s : State T} (h : s.keyChains.lookup key = none) : isRunning s key = false := by
  rw [isRunning, h]
  rfl

theorem waitingOf_nil {s : State T} (h : s.keyChains.lookup key = none) : waitingOf s key = [] := by
  rw [waitingOf, h]
  rfl

/-- A call outside the chains, where there is no chain. -/
theorem wired_runFlush {s : State T} (h : Wired none s) (key : Option String) (items : List Nat)
    (hnone : ∀ k, key = some k → s.keyChains.lookup k = none) : Wired none (runFlush s key items false) where
  opened := h.opened
  refs := h.refs
  timers := h.timers
  running k := by
    have hadd : (s.flushes ++ [(⟨key, items, false⟩ : Flush)]).countP (Flush.ofChain k) =
        s.flushes.countP (Flush.ofChain k) := by
      rw [List.countP_append]
      simp [Flush.ofChain]
    exact hadd.trans (h.running k)
  keyed flush hmem hchained := by
    rcases List.mem_append.1 hmem with hmem | hmem
    · exact h.keyed flush hmem hchained
    · rw [List.mem_singleton.1 hmem] at hchained
      cases hchained
  exclusive := h.exclusive.append fun k hk => by
    rw [h.running k, isRunning_false (hnone k hk)]
    rfl
  nodupBuffers := h.nodupBuffers
  nodupChains := h.nodupChains

/-- A task that is no buffer goes to the end of its chain. -/
theorem wired_enqueueKeyTask {s : State T} (h : Wired none s) (key : String) (task : Task)
    (htask : ∀ buffer, task ≠ .buffered buffer) : Wired (some key) (enqueueKeyTask s key task) where
  opened key' buffer hopen := by
    obtain ⟨object, hobject, hkey, htimer, hready, hlast⟩ := h.opened key' buffer hopen
    refine ⟨object, hobject, hkey, htimer, hready, fun hne => ?_⟩
    rw [waitingOf_enqueueKeyTask, if_neg fun heq => hne (congrArg some heq.symm)]
    exact hlast nofun
  refs key' buffer hmem := by
    rw [waitingOf_enqueueKeyTask] at hmem
    split at hmem
    case isTrue hkey =>
      rcases List.mem_append.1 hmem with hmem | hmem
      · exact hkey ▸ h.refs key buffer hmem
      · exact absurd (List.mem_singleton.1 hmem).symm (htask buffer)
    case isFalse => exact h.refs key' buffer hmem
  timers := h.timers
  running key' := by
    rw [isRunning_enqueueKeyTask]
    exact h.running key'
  keyed := h.keyed
  exclusive := h.exclusive
  nodupBuffers := h.nodupBuffers
  nodupChains := nodup_assign h.nodupChains _ _

/-- Where there is no buffer nothing closes. -/
theorem Wired.closed {s : State T} (h : Wired (some key) s) (hnone : s.buffers.lookup key = none) :
    Wired none s where
  opened key' buffer hopen := by
    obtain ⟨object, hobject, hkey, htimer, hready, hlast⟩ := h.opened key' buffer hopen
    refine ⟨object, hobject, hkey, htimer, hready, fun _ => hlast fun heq => ?_⟩
    cases heq
    cases hnone.symm.trans hopen
  refs := h.refs
  timers := h.timers
  running := h.running
  keyed := h.keyed
  exclusive := h.exclusive
  nodupBuffers := h.nodupBuffers
  nodupChains := h.nodupChains

theorem Wired.closing {s : State T} (h : Wired none s) (closing : Option String) : Wired closing s where
  opened key buffer hopen := by
    obtain ⟨object, hobject, hkey, htimer, hready, hlast⟩ := h.opened key buffer hopen
    exact ⟨object, hobject, hkey, htimer, hready, fun _ => hlast nofun⟩
  refs := h.refs
  timers := h.timers
  running := h.running
  keyed := h.keyed
  exclusive := h.exclusive
  nodupBuffers := h.nodupBuffers
  nodupChains := h.nodupChains

theorem getElem?_modify_items {heap : List DebounceBuffer} {f : DebounceBuffer → DebounceBuffer} {index : Nat}
    (h : (heap.modify buffer f)[index]? = some object) :
    ∃ old, heap[index]? = some old ∧ object = if buffer = index then f old else old := by
  rw [List.getElem?_modify] at h
  obtain ⟨old, hold, rfl⟩ := Option.map_eq_some_iff.1 h
  exact ⟨old, hold, by split <;> rfl⟩

theorem getElem?_modify_of {heap : List DebounceBuffer} (f : DebounceBuffer → DebounceBuffer) {index : Nat}
    (buffer : Nat) (h : heap[index]? = some old) :
    (heap.modify buffer f)[index]? = some (if buffer = index then f old else old) := by
  rw [List.getElem?_modify, h]
  split <;> rfl

/-- Closing a buffer releases its task. -/
theorem wired_flushBuffer {s : State T} (h : Wired (some key) s) (hopen : s.buffers.lookup key = some buffer) :
    Wired none (flushBuffer s key buffer) := by
  have hbuffers : (flushBuffer s key buffer).buffers = remove s.buffers key := if_pos hopen
  obtain ⟨closed, hclosed, hclosedKey, -⟩ := h.opened key buffer hopen
  refine ⟨?_, ?_, ?_, h.running, h.keyed, h.exclusive, ?_, h.nodupChains⟩
  · intro key' buffer' hopen'
    rw [hbuffers, lookup_remove] at hopen'
    split at hopen'
    case isTrue => cases hopen'
    case isFalse hne =>
      obtain ⟨object, hobject, hkey, htimer, hready, hlast⟩ := h.opened key' buffer' hopen'
      have hother : buffer ≠ buffer' := by
        rintro rfl
        cases hclosed.symm.trans hobject
        exact hne (hkey.symm.trans hclosedKey)
      refine ⟨object, ?_, hkey, htimer, hready, fun _ => hlast fun heq => hne (Option.some.inj heq).symm⟩
      exact (getElem?_modify_of _ buffer hobject).trans (by rw [if_neg hother])
  · intro key' buffer' hmem
    obtain ⟨object, hobject, hkey, hready⟩ := h.refs key' buffer' hmem
    refine ⟨_, getElem?_modify_of _ buffer hobject, ?_, ?_⟩
    · split <;> exact hkey
    · by_cases hsame : buffer = buffer'
      · rw [if_pos hsame]
        exact .inl rfl
      · rw [if_neg hsame, hbuffers, lookup_remove]
        refine hready.imp_right fun hlookup => ?_
        rwa [if_neg]
        rintro rfl
        exact hsame (Option.some.inj (hopen.symm.trans hlookup))
  · intro buffer' object hobject htimer
    obtain ⟨old, hold, rfl⟩ := getElem?_modify_items hobject
    split at htimer
    case isTrue => cases htimer
    case isFalse hother =>
      rw [if_neg hother, hbuffers, lookup_remove]
      have hlookup := h.timers buffer' old hold htimer
      rwa [if_neg]
      intro hkey
      rw [hkey, hopen] at hlookup
      exact hother (Option.some.inj hlookup)
  · rw [hbuffers]
    exact nodup_remove h.nodupBuffers key

theorem wired_flushKey {s : State T} (h : Wired (some key) s) : Wired none (flushKey s key) := by
  unfold flushKey
  cases hopen : s.buffers.lookup key with
  | none => exact h.closed hopen
  | some buffer => exact wired_flushBuffer h hopen

/-- An item joins the open buffer. -/
theorem wired_push {s : State T} (h : Wired none s) (hopen : s.buffers.lookup key = some existing)
    (debounceMs item : Nat) : Wired none { s with heap := s.heap.modify existing (.push item debounceMs) } where
  opened key' buffer hopen' := by
    obtain ⟨object, hobject, hkey, htimer, hready, hlast⟩ := h.opened key' buffer hopen'
    refine ⟨_, getElem?_modify_of _ existing hobject, ?_, ?_, ?_, hlast⟩ <;> split <;> first | assumption | rfl
  refs key' buffer hmem := by
    obtain ⟨object, hobject, hkey, hready⟩ := h.refs key' buffer hmem
    refine ⟨_, getElem?_modify_of _ existing hobject, ?_, ?_⟩ <;> split <;> assumption
  timers buffer object hobject htimer := by
    obtain ⟨old, hold, rfl⟩ := getElem?_modify_items hobject
    by_cases hsame : existing = buffer
    · subst hsame
      obtain ⟨object, hobject, hkey, -⟩ := h.opened key existing hopen
      cases hobject.symm.trans hold
      rw [if_pos rfl]
      exact hkey ▸ hopen
    · rw [if_neg hsame] at htimer ⊢
      exact h.timers buffer old hold htimer
  running := h.running
  keyed := h.keyed
  exclusive := h.exclusive
  nodupBuffers := h.nodupBuffers
  nodupChains := h.nodupChains

/-- A new buffer reserves the end of its chain. -/
theorem wired_open {s : State T} (h : Wired none s) (hnone : s.buffers.lookup key = none) (items : List Nat)
    (debounceMs : Nat) :
    Wired none { enqueueKeyTask s key (.buffered s.heap.length) with
      heap := s.heap ++ [⟨key, items, true, debounceMs, false⟩]
      buffers := assign s.buffers key s.heap.length } := by
  have hwaiting : ∀ key', waitingOf { enqueueKeyTask s key (.buffered s.heap.length) with
      heap := s.heap ++ [⟨key, items, true, debounceMs, false⟩]
      buffers := assign s.buffers key s.heap.length } key' =
        if key' = key then waitingOf s key ++ [.buffered s.heap.length] else waitingOf s key' :=
    fun key' => waitingOf_enqueueKeyTask s key key' _
  have hold : ∀ {buffer : Nat} {object : DebounceBuffer}, s.heap[buffer]? = some object →
      (s.heap ++ [⟨key, items, true, debounceMs, false⟩])[buffer]? = some object := by
    intro buffer object hobject
    rw [List.getElem?_append_left (List.getElem?_eq_some_iff.1 hobject).1, hobject]
  have hnew : (s.heap ++ [⟨key, items, true, debounceMs, false⟩])[s.heap.length]? =
      some ⟨key, items, true, debounceMs, false⟩ := by
    rw [List.getElem?_append_right (Nat.le_refl _), Nat.sub_self]
    rfl
  refine ⟨?_, ?_, ?_, ?_, h.keyed, h.exclusive, ?_, ?_⟩
  · intro key' buffer hopen
    rw [lookup_assign] at hopen
    rw [hwaiting]
    split at hopen
    case isTrue hkey =>
      cases hopen
      refine ⟨_, hnew, hkey.symm, rfl, rfl, fun _ => ?_⟩
      rw [if_pos hkey]
      refine ⟨_, rfl, fun hmem => ?_⟩
      exact absurd (h.heap_of_waiting hmem) (Nat.lt_irrefl _)
    case isFalse hkey =>
      obtain ⟨object, hobject, hrest⟩ := h.opened key' buffer hopen
      rw [if_neg hkey]
      exact ⟨object, hold hobject, hrest⟩
  · intro key' buffer hmem
    rw [hwaiting] at hmem
    have hbefore : .buffered buffer ∈ waitingOf s key' → ∃ object,
        (s.heap ++ [⟨key, items, true, debounceMs, false⟩])[buffer]? = some object ∧ object.key = key' ∧
          (object.readyReleased = true ∨ (assign s.buffers key s.heap.length).lookup key' = some buffer) := by
      intro hmem
      obtain ⟨object, hobject, hkey, hready⟩ := h.refs key' buffer hmem
      refine ⟨object, hold hobject, hkey, hready.imp_right fun hlookup => ?_⟩
      rw [lookup_assign, if_neg]
      · exact hlookup
      · rintro rfl
        cases hnone.symm.trans hlookup
    split at hmem
    case isTrue hkey =>
      rcases List.mem_append.1 hmem with hmem | hmem
      · exact hbefore (hkey ▸ hmem)
      · cases List.mem_singleton.1 hmem
        refine ⟨_, hnew, hkey.symm, .inr ?_⟩
        rw [lookup_assign, if_pos hkey]
    case isFalse => exact hbefore hmem
  · intro buffer object hobject htimer
    rw [lookup_assign]
    rcases Nat.lt_trichotomy buffer s.heap.length with hlt | rfl | hgt
    · rw [List.getElem?_append_left hlt] at hobject
      have hlookup := h.timers buffer object hobject htimer
      rw [if_neg]
      · exact hlookup
      · intro hkey
        rw [hkey, hnone] at hlookup
        cases hlookup
    · cases hnew.symm.trans hobject
      exact if_pos rfl
    · rw [List.getElem?_eq_none (by simp; omega)] at hobject
      cases hobject
  · intro key'
    exact (h.running key').trans (by rw [← isRunning_enqueueKeyTask s key key' (.buffered s.heap.length)]; rfl)
  · exact nodup_assign h.nodupBuffers _ _
  · exact nodup_assign h.nodupChains _ _

-- ---
-- Turns
-- ---

/-- The front of a chain changes, and with it perhaps the calls in flight. -/
theorem wired_setChain {s : State T} (h : Wired none s) {key : String} {chain : KeyChain} (flushes : List Flush)
    (calls : List (List Nat))
    (hsuffix : ∀ buffer, .buffered buffer ∈ chain.waiting → .buffered buffer ∈ waitingOf s key)
    (hlast : ∀ buffer before, waitingOf s key = before ++ [.buffered buffer] → .buffered buffer ∉ before →
      s.buffers.lookup key = some buffer →
        ∃ before, chain.waiting = before ++ [.buffered buffer] ∧ .buffered buffer ∉ before)
    (hrunning : ∀ key', flushes.countP (Flush.ofChain key') =
      if (if key' = key then chain.running else isRunning s key') then 1 else 0)
    (hkeyed : ∀ flush ∈ flushes, flush.chained = true → flush.key.isSome) (hexclusive : Exclusive flushes) :
    Wired none { setChain s key chain with flushes := flushes, calls := calls } := by
  have hwaiting : ∀ key', waitingOf { setChain s key chain with flushes := flushes, calls := calls } key' =
      if key' = key then chain.waiting else waitingOf s key' := fun key' => waitingOf_setChain s key key' chain
  refine ⟨?_, ?_, h.timers, ?_, hkeyed, hexclusive, h.nodupBuffers, nodup_assign h.nodupChains _ _⟩
  · intro key' buffer hopen
    obtain ⟨object, hobject, hkey, htimer, hready, hbefore⟩ := h.opened key' buffer hopen
    refine ⟨object, hobject, hkey, htimer, hready, fun hne => ?_⟩
    obtain ⟨before, heq, hnot⟩ := hbefore hne
    rw [hwaiting]
    split
    case isTrue hsame =>
      subst hsame
      exact hlast buffer before heq hnot hopen
    case isFalse => exact ⟨before, heq, hnot⟩
  · intro key' buffer hmem
    rw [hwaiting] at hmem
    split at hmem
    case isTrue hsame => exact h.refs key' buffer (hsame ▸ hsuffix buffer hmem)
    case isFalse => exact h.refs key' buffer hmem
  · intro key'
    refine (hrunning key').trans ?_
    rw [← isRunning_setChain s key key' chain]
    rfl

/-- The task at the front of a chain leaves it. An open buffer is never at the front
of a chain it can leave: it is not ready. -/
theorem front_leaves {s : State T} (h : Wired none s) (hchain : s.keyChains.lookup key = some ⟨running, task :: waiting⟩)
    (hready : readyItems s task = some items) :
    (∀ buffer, .buffered buffer ∈ waiting → .buffered buffer ∈ waitingOf s key) ∧
    (∀ buffer before, waitingOf s key = before ++ [.buffered buffer] → .buffered buffer ∉ before →
      s.buffers.lookup key = some buffer →
        ∃ before, waiting = before ++ [.buffered buffer] ∧ .buffered buffer ∉ before) := by
  have hwaiting : waitingOf s key = task :: waiting := by
    rw [waitingOf, hchain]
    rfl
  rw [hwaiting]
  refine ⟨fun buffer hmem => List.mem_cons_of_mem task hmem, ?_⟩
  intro buffer before heq hnot hopen
  cases before with
  | nil =>
    cases heq
    obtain ⟨object, hobject, -, -, hnotReady, -⟩ := h.opened key buffer hopen
    simp [readyItems, hobject, hnotReady] at hready
  | cons first before =>
    obtain ⟨rfl, rfl⟩ := List.cons.inj heq
    exact ⟨before, rfl, fun hmem => hnot (List.mem_cons_of_mem _ hmem)⟩

theorem countP_append_chained (flushes : List Flush) (key key' : String) (items : List Nat) :
    (flushes ++ [(⟨some key, items, true⟩ : Flush)]).countP (Flush.ofChain key') =
      flushes.countP (Flush.ofChain key') + if key' = key then 1 else 0 := by
  rw [List.countP_append, List.countP_singleton]
  by_cases hkey : key' = key <;> simp [Flush.ofChain, hkey, Ne.symm]

theorem wired_startTask {s s' : State T} (h : Wired none s) (hstep : startTask s key = some s') : Wired none s' := by
  unfold startTask at hstep
  split at hstep
  case h_1 task waiting hchain =>
    have hidle : isRunning s key = false := by
      rw [isRunning, hchain]
      rfl
    split at hstep
    case h_1 => cases hstep
    case h_2 hready =>
      cases hstep
      obtain ⟨hsuffix, hlast⟩ := front_leaves h hchain hready
      refine wired_setChain h s.flushes s.calls hsuffix hlast (fun key' => ?_) h.keyed h.exclusive
      rw [h.running key']
      by_cases hkey : key' = key
      · rw [if_pos hkey, hkey, hidle]
      · rw [if_neg hkey]
    case h_3 handed hne hready =>
      cases hstep
      obtain ⟨hsuffix, hlast⟩ := front_leaves h hchain hready
      refine wired_setChain h _ _ hsuffix hlast (fun key' => ?_) ?_ ?_
      · refine (countP_append_chained s.flushes key key' handed).trans ?_
        rw [h.running key']
        by_cases hkey : key' = key
        · rw [if_pos hkey, if_pos hkey, hkey, hidle]
          rfl
        · rw [if_neg hkey, if_neg hkey, Nat.add_zero]
      · intro flush hmem hchained
        rcases List.mem_append.1 hmem with hmem | hmem
        · exact h.keyed flush hmem hchained
        · rw [List.mem_singleton.1 hmem]
          rfl
      · refine h.exclusive.append fun key' hkey => ?_
        cases hkey
        rw [h.running key, hidle]
        rfl
  case h_2 => cases hstep

theorem wired_release {s s' : State T} (h : Wired none s) (hstep : releaseReserved s key = some s') :
    Wired none s' := by
  unfold releaseReserved at hstep
  split at hstep
  case h_1 item waiting hchain =>
    cases hstep
    have hwaiting : waitingOf s key = .reserved item false :: waiting := by
      rw [waitingOf, hchain]
      rfl
    refine wired_setChain h s.flushes s.calls ?_ ?_ (fun key' => ?_) h.keyed h.exclusive
    · intro buffer hmem
      rw [hwaiting]
      rcases List.mem_cons.1 hmem with hmem | hmem
      · cases hmem
      · exact List.mem_cons_of_mem _ hmem
    · intro buffer before heq hnot hopen
      rw [hwaiting] at heq
      cases before with
      | nil => cases heq
      | cons first before =>
        obtain ⟨rfl, rfl⟩ := List.cons.inj heq
        exact ⟨.reserved item true :: before, rfl, by simpa using hnot⟩
    · rw [h.running key']
      by_cases hkey : key' = key
      · rw [if_pos hkey, hkey, isRunning, hchain]
        rfl
      · rw [if_neg hkey]
  case h_2 => cases hstep

theorem wired_settle {s s' : State T} (h : Wired none s) (hstep : settle s key = some s') : Wired none s' := by
  unfold settle at hstep
  split at hstep
  case h_1 hchain =>
    cases hstep
    have hwaiting : ∀ key', waitingOf { s with keyChains := remove s.keyChains key } key' = waitingOf s key' := by
      intro key'
      unfold waitingOf
      simp only [lookup_remove]
      split
      case isTrue hkey => rw [hkey, hchain]; rfl
      case isFalse => rfl
    have hrunning : ∀ key', isRunning { s with keyChains := remove s.keyChains key } key' = isRunning s key' := by
      intro key'
      unfold isRunning
      simp only [lookup_remove]
      split
      case isTrue hkey => rw [hkey, hchain]; rfl
      case isFalse => rfl
    refine ⟨?_, ?_, h.timers, ?_, h.keyed, h.exclusive, h.nodupBuffers, nodup_remove h.nodupChains key⟩
    · intro key' buffer hopen
      rw [hwaiting]
      exact h.opened key' buffer hopen
    · intro key' buffer hmem
      rw [hwaiting] at hmem
      exact h.refs key' buffer hmem
    · intro key'
      rw [hrunning]
      exact h.running key'
  case h_2 => cases hstep

theorem complete_cases {s s' : State T} (hstep : complete s index = some s') :
    ∃ flush, s.flushes[index]? = some flush ∧
      ((∃ key, flush.chained = true ∧ flush.key = some key ∧
          s' = { setChain s key ⟨false, waitingOf s key⟩ with flushes := s.flushes.eraseIdx index }) ∨
        (flush.chained = false ∨ flush.key = none) ∧ s' = { s with flushes := s.flushes.eraseIdx index }) := by
  unfold complete at hstep
  split at hstep
  case h_1 => cases hstep
  case h_2 flush hflush =>
    refine ⟨flush, hflush, ?_⟩
    dsimp only at hstep
    split at hstep
    case h_1 key hchained hkey =>
      cases hstep
      exact .inl ⟨key, hchained, hkey, rfl⟩
    case h_2 hne =>
      cases hstep
      refine .inr ⟨?_, rfl⟩
      cases hchained : flush.chained with
      | false => exact .inl rfl
      | true =>
        cases hkey : flush.key with
        | none => exact .inr rfl
        | some key => exact absurd hkey (hne key hchained)

theorem wired_complete {s s' : State T} (h : Wired none s) (hstep : complete s index = some s') :
    Wired none s' := by
  obtain ⟨flush, hflush, ⟨key, hchained, hkey, rfl⟩ | ⟨hfree, rfl⟩⟩ := complete_cases hstep
  · refine wired_setChain h _ s.calls (fun _ => id) (fun _ before heq hnot _ => ⟨before, heq, hnot⟩) (fun key' => ?_)
      (fun flush hmem => h.keyed flush (List.mem_of_mem_eraseIdx hmem)) (h.exclusive.eraseIdx index)
    have hcount := countP_eraseIdx (p := Flush.ofChain key') s.flushes hflush
    rw [h.running key'] at hcount
    by_cases hsame : key' = key
    · subst hsame
      have hof : Flush.ofChain key' flush = true := by simp [Flush.ofChain, hchained, hkey]
      rw [if_pos rfl]
      rw [if_pos hof] at hcount
      simp only [Bool.false_eq_true, if_false]
      split at hcount <;> omega
    · have hof : Flush.ofChain key' flush = false := by simp [Flush.ofChain, hkey, Ne.symm hsame]
      rw [if_neg hsame]
      simpa [hof] using hcount
  · refine ⟨h.opened, h.refs, h.timers, fun key' => ?_, fun flush hmem => h.keyed flush (List.mem_of_mem_eraseIdx hmem),
      h.exclusive.eraseIdx index, h.nodupBuffers, h.nodupChains⟩
    have hcount := countP_eraseIdx (p := Flush.ofChain key') s.flushes hflush
    have hof : Flush.ofChain key' flush = false := by
      rcases hfree with hfree | hfree <;> simp [Flush.ofChain, hfree]
    rw [hof, if_neg Bool.false_ne_true, Nat.add_zero] at hcount
    exact hcount.trans (h.running key')

theorem wired_fireTimer {s s' : State T} (h : Wired none s) (hstep : fireTimer s buffer = some s') :
    Wired none s' := by
  unfold fireTimer at hstep
  split at hstep
  case h_1 object hobject =>
    split at hstep
    case isTrue htimer =>
      cases hstep
      exact wired_flushBuffer (h.closing _) (h.timers buffer object hobject htimer)
    case isFalse => cases hstep
  case h_2 => cases hstep

end OpenClaw.InboundDebounce
