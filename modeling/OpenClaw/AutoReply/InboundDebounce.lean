import Mathlib.Data.Rat.Floor
import OpenClaw.Lib.Members
import OpenClaw.Lib.Transition

/-!
# The inbound debouncer

Messages that come in fast for one key are collected in a buffer and handed over
together; others are handed over at once. What has to wait for its turn is queued
behind what the key is doing, in a chain of promises. The events are the calls of the
debouncer, its timers and the turns of the event loop that move a chain on.
-/

namespace OpenClaw.InboundDebounce

open Members Transition

-- ---
-- Parameters
-- ---

structure CreateParams (T : Type) where
  debounceMs : Rat
  maxTrackedKeys : Option Rat
  buildKey : T → Option String
  shouldDebounce : T → Bool
  /-- `none` where it is absent or gives no finite number. -/
  resolveDebounceMs : T → Option Rat

variable {T : Type} (params : CreateParams T)

/-- `Math.max(0, Math.trunc(value))` -/
def truncMs (value : Rat) : Nat := ⌊value⌋.toNat

def DEFAULT_MAX_TRACKED_KEYS : Rat := 2048

def CreateParams.maxTracked : Nat := max 1 (truncMs (params.maxTrackedKeys.getD DEFAULT_MAX_TRACKED_KEYS))

def CreateParams.debounceMsOf (item : T) : Nat := truncMs ((params.resolveDebounceMs item).getD params.debounceMs)

def CreateParams.canDebounce (item : T) : Bool := 0 < params.debounceMsOf item && params.shouldDebounce item

/-- The key of an item; the empty key counts as none. -/
def CreateParams.key (item : T) : Option String := (params.buildKey item).filter (· ≠ "")

-- ---
-- States
-- ---

/-- Items stand for the `enqueue` calls they came with, by number. -/
structure DebounceBuffer where
  key : String
  items : List Nat
  /-- A timeout is set. -/
  timer : Bool
  debounceMs : Nat
  readyReleased : Bool

/-- A task of a chain that has not started. -/
inductive Task
  | buffered (buffer : Nat)
  | immediate (item : Nat)
  | reserved (item : Nat) (readyReleased : Bool)
  deriving DecidableEq

structure KeyChain where
  /-- The task at the front has started. -/
  running : Bool
  waiting : List Task

/-- A call of `onFlush` that has not returned. -/
structure Flush where
  key : Option String
  items : List Nat
  chained : Bool
  deriving DecidableEq

structure State (T : Type) where
  enqueued : List T := []
  heap : List DebounceBuffer := []
  buffers : List (String × Nat) := []
  keyChains : List (String × KeyChain) := []
  flushes : List Flush := []
  /-- What `onFlush` was called with, in order. -/
  calls : List (List Nat) := []

-- ---
-- Operations
-- ---

def runFlush (s : State T) (key : Option String) (items : List Nat) (chained : Bool) : State T :=
  { s with flushes := s.flushes ++ [⟨key, items, chained⟩], calls := s.calls ++ [items] }

def enqueueKeyTask (s : State T) (key : String) (task : Task) : State T :=
  let chain := (s.keyChains.lookup key).getD ⟨false, []⟩
  { s with keyChains := assign s.keyChains key { chain with waiting := chain.waiting ++ [task] } }

/-- `flushBuffer`, until it waits for the task of the buffer. -/
def flushBuffer (s : State T) (key : String) (buffer : Nat) : State T :=
  { s with
    buffers := if s.buffers.lookup key = some buffer then remove s.buffers key else s.buffers
    heap := s.heap.modify buffer fun object => { object with timer := false, readyReleased := true } }

def flushKey (s : State T) (key : String) : State T :=
  match s.buffers.lookup key with
  | none => s
  | some buffer => flushBuffer s key buffer

def canTrackKey (s : State T) (key : String) : Bool :=
  (s.buffers.lookup key).isSome || (s.keyChains.lookup key).isSome ||
    (s.buffers.map Prod.fst ++ s.keyChains.map Prod.fst).dedup.length < params.maxTracked

/-- `enqueue` of an item that is not debounced. -/
def enqueueImmediate (s : State T) (key : Option String) (item : Nat) : State T :=
  match key with
  | none => runFlush s none [item] false
  | some key =>
    if (s.buffers.lookup key).isSome then
      flushKey (enqueueKeyTask s key (.reserved item false)) key
    else if (s.keyChains.lookup key).isSome then enqueueKeyTask s key (.immediate item)
    else runFlush s (some key) [item] false

/-- The item joins the buffer, and `scheduleFlush` sets the timer anew. -/
def DebounceBuffer.push (item debounceMs : Nat) (buffer : DebounceBuffer) : DebounceBuffer :=
  { buffer with items := buffer.items ++ [item], debounceMs := debounceMs, timer := true }

def enqueueDebounced (s : State T) (key : String) (debounceMs : Nat) (item : Nat) : State T :=
  match s.buffers.lookup key with
  | some existing => { s with heap := s.heap.modify existing (.push item debounceMs) }
  | none =>
    if !canTrackKey params s key then enqueueKeyTask s key (.immediate item)
    else
      let buffer := s.heap.length
      let s := enqueueKeyTask s key (.buffered buffer)
      { s with heap := s.heap ++ [⟨key, [item], true, debounceMs, false⟩], buffers := assign s.buffers key buffer }

def enqueue (s : State T) (item : T) : State T :=
  let number := s.enqueued.length
  let s := { s with enqueued := s.enqueued ++ [item] }
  match params.key item with
  | some key =>
    if params.canDebounce item then enqueueDebounced params s key (params.debounceMsOf item) number
    else enqueueImmediate s (some key) number
  | none => enqueueImmediate s none number

-- ---
-- Turns of the event loop
-- ---

inductive Event (T : Type)
  | enqueue (item : T)
  | flushKey (key : String)
  | timer (buffer : Nat)
  /-- The task at the front of the chain starts. -/
  | start (key : String)
  /-- The buffer before the reserved slot at the front has been flushed. -/
  | release (key : String)
  /-- A call of `onFlush` returns or throws. -/
  | complete (flush : Nat)
  /-- The last promise of the chain is settled. -/
  | settle (key : String)

def setChain (s : State T) (key : String) (chain : KeyChain) : State T :=
  { s with keyChains := assign s.keyChains key chain }

/-- What the task at the front hands over when it starts; `none` while it is not ready. -/
def readyItems (s : State T) : Task → Option (List Nat)
  | .buffered buffer => (s.heap[buffer]?).bind fun object => if object.readyReleased then some object.items else none
  | .immediate item => some [item]
  | .reserved item readyReleased => if readyReleased then some [item] else none

def startTask (s : State T) (key : String) : Option (State T) :=
  match s.keyChains.lookup key with
  | some ⟨false, task :: waiting⟩ =>
    match readyItems s task with
    | none => none
    | some [] => some (setChain s key ⟨false, waiting⟩)
    | some items => some (runFlush (setChain s key ⟨true, waiting⟩) (some key) items true)
  | _ => none

def releaseReserved (s : State T) (key : String) : Option (State T) :=
  match s.keyChains.lookup key with
  | some ⟨false, .reserved item false :: waiting⟩ =>
    some (setChain s key ⟨false, .reserved item true :: waiting⟩)
  | _ => none

def complete (s : State T) (index : Nat) : Option (State T) :=
  match s.flushes[index]? with
  | none => none
  | some flush =>
    let s := { s with flushes := s.flushes.eraseIdx index }
    match flush.chained, flush.key with
    | true, some key =>
      some (setChain s key ⟨false, ((s.keyChains.lookup key).map KeyChain.waiting).getD []⟩)
    | _, _ => some s

def settle (s : State T) (key : String) : Option (State T) :=
  match s.keyChains.lookup key with
  | some ⟨false, []⟩ => some { s with keyChains := remove s.keyChains key }
  | _ => none

def fireTimer (s : State T) (buffer : Nat) : Option (State T) :=
  match s.heap[buffer]? with
  | some object => if object.timer then some (flushBuffer s object.key buffer) else none
  | none => none

def step (s : State T) : Event T → Option (State T)
  | .enqueue item => some (enqueue params s item)
  | .flushKey key => some (flushKey s key)
  | .timer buffer => fireTimer s buffer
  | .start key => startTask s key
  | .release key => releaseReserved s key
  | .complete flush => complete s flush
  | .settle key => settle s key

def debouncer : System (State T) (Event T) where
  init s := s = {}
  step s e := step params s e

end OpenClaw.InboundDebounce
