import Mathlib.Logic.Function.Basic
import OpenClaw.Js.Value
import OpenClaw.Lib.Transition

/-!
# The command queue

Lanes of queued commands, each drained by a pump that starts entries while the
lane has room. The code runs on one stack: it gives way to other code only
where it calls out (an `onWait` callback, a diagnostic listener, the first part
of a task), and that code may call the queue again. A step is what happens
between two such points; promise reactions run on an empty stack. When a
callback is due, and what it does, is left open.
-/

namespace OpenClaw.CommandQueue

open Js (Number)

/-- A queue entry, by its identity: its task and callbacks are other code. -/
abbrev Entry := Nat

structure LaneState where
  queue : List Entry := []
  activeTaskIds : List Nat := []
  maxConcurrent : Number := .fin 1
  draining : Bool := false
  generation : Nat := 0

/-- A task that was called and is not finished. -/
structure Task where
  id : Nat
  lane : String
  generation : Nat
  entry : Entry

inductive Frame
  /-- `enqueueCommandInLane` in `logLaneEnqueue`, before it drains the lane. -/
  | enqueued (lane : String)
  /-- The loop of `pump`. -/
  | pump (lane : String)
  /-- The pump has shifted the entry and is in `onWait` or `logLaneDequeue`. -/
  | opening (lane : String) (entry : Entry)
  /-- The part of a task before its first `await`. -/
  | task (id : Nat)
  /-- A task of the current generation is complete, and the pump not yet called. -/
  | completing (lane : String) (entry : Entry)
  /-- `entry.resolve` or `entry.reject` after the pump. -/
  | settle (entry : Entry)
  /-- `resetAllLanes` with the lanes it has still to drain. -/
  | resetting (lanesToDrain : List String)
  deriving DecidableEq

structure Start where
  lane : String
  entry : Entry
  active : Nat
  maxConcurrent : Number

/-- What has happened so far; the code keeps no such record. -/
structure History where
  enqueued : List (String × Entry) := []
  cleared : List Entry := []
  starts : List Start := []
  /-- One element for each call of `resolve` or `reject`. -/
  settled : List Entry := []

structure QueueState where
  gatewayDraining : Bool := false
  lanes : String → LaneState := fun _ => {}
  /-- The lanes that exist, in the order of the map. -/
  laneOrder : List String := []
  nextTaskId : Nat := 1
  nextEntry : Entry := 0
  tasks : List Task := []
  stack : List Frame := []
  history : History := {}

def normalizeLane (lane : String) : String :=
  if Js.trim lane = "" then "main" else Js.trim lane

namespace QueueState

/-- Changes a lane, which `getLaneState` makes if it does not exist. -/
def setLane (s : QueueState) (lane : String) (f : LaneState → LaneState) : QueueState :=
  { s with
    lanes := Function.update s.lanes lane (f (s.lanes lane))
    laneOrder := if lane ∈ s.laneOrder then s.laneOrder else s.laneOrder ++ [lane] }

/-- `activeTaskIds.size < maxConcurrent` -/
def hasRoom (l : LaneState) : Bool := Number.lt (.ofInt l.activeTaskIds.length) l.maxConcurrent

def setStack (s : QueueState) (stack : List Frame) : QueueState := { s with stack }

def push (s : QueueState) (f : Frame) : QueueState := s.setStack (f :: s.stack)

def settle (s : QueueState) (entry : Entry) : QueueState :=
  { s with history := { s.history with settled := s.history.settled ++ [entry] } }

def drainLane (s : QueueState) (lane : String) : QueueState :=
  if (s.lanes lane).draining then s
  else (s.setLane lane fun l => { l with draining := true }).push (.pump lane)

/-- One round of the loop of `pump`, or its end. -/
def pump (s : QueueState) (lane : String) (rest : List Frame) : QueueState :=
  match (s.lanes lane).queue with
  | entry :: queue =>
    if hasRoom (s.lanes lane) then
      (s.setLane lane fun l => { l with queue }).setStack (.opening lane entry :: .pump lane :: rest)
    else (s.setLane lane fun l => { l with draining := false }).setStack rest
  | [] => (s.setLane lane fun l => { l with draining := false }).setStack rest

/-- `activeTaskIds.add` and the call of the task. -/
def start (s : QueueState) (lane : String) (entry : Entry) (rest : List Frame) : QueueState :=
  let l := s.lanes lane
  let taskId := s.nextTaskId
  let task : Task := { id := taskId, lane, generation := l.generation, entry }
  let start : Start :=
    { lane, entry, active := l.activeTaskIds.length, maxConcurrent := l.maxConcurrent }
  let s := s.setLane lane fun l => { l with activeTaskIds := l.activeTaskIds ++ [taskId] }
  { s with
    nextTaskId := taskId + 1
    tasks := s.tasks ++ [task]
    history := { s.history with starts := s.history.starts ++ [start] } }.setStack
    (.task taskId :: rest)

/-- The task has returned or failed. A task of an earlier generation only
settles its entry. -/
def completeTask (s : QueueState) (task : Task) : QueueState :=
  let s := { s with tasks := s.tasks.filter (·.id ≠ task.id) }
  if task.generation ≠ (s.lanes task.lane).generation then s.settle task.entry
  else
    (s.setLane task.lane fun l =>
      { l with activeTaskIds := l.activeTaskIds.filter (· ≠ task.id) }).push
      (.completing task.lane task.entry)

def enqueueCommandInLane (s : QueueState) (lane : String) : QueueState :=
  let entry := s.nextEntry
  let s := { s with nextEntry := s.nextEntry + 1 }
  if s.gatewayDraining then s.settle entry
  else
    let cleaned := normalizeLane lane
    let s := s.setLane cleaned fun l => { l with queue := l.queue ++ [entry] }
    { s with history := { s.history with
        enqueued := s.history.enqueued ++ [(cleaned, entry)] } }.push (.enqueued cleaned)

def setCommandLaneConcurrency (s : QueueState) (lane : String) (maxConcurrent : Number) :
    QueueState :=
  let cleaned := normalizeLane lane
  (s.setLane cleaned fun l =>
    { l with maxConcurrent := Number.max (.fin 1) maxConcurrent.floor }).drainLane cleaned

def clearCommandLane (s : QueueState) (lane : String) : QueueState :=
  let cleaned := normalizeLane lane
  if cleaned ∈ s.laneOrder then
    let pending := (s.lanes cleaned).queue
    let s := s.setLane cleaned fun l => { l with queue := [] }
    { s with history := { s.history with
        cleared := s.history.cleared ++ pending
        settled := s.history.settled ++ pending } }
  else s

def resetLane (l : LaneState) : LaneState :=
  { l with generation := l.generation + 1, activeTaskIds := [], draining := false }

def resetAllLanes (s : QueueState) : QueueState :=
  let lanesToDrain := s.laneOrder.filter fun lane => (s.lanes lane).queue ≠ []
  { s with
    gatewayDraining := false
    lanes := fun lane =>
      if lane ∈ s.laneOrder then resetLane (s.lanes lane) else s.lanes lane }.push (.resetting lanesToDrain)

end QueueState

inductive Event
  | enqueueCommandInLane (lane : String)
  | setCommandLaneConcurrency (lane : String) (maxConcurrent : Number)
  | clearCommandLane (lane : String)
  | resetAllLanes
  | markGatewayDraining
  /-- The frame on top goes on: its callback returns, or its own code runs on. -/
  | advance
  /-- The task on top throws before its first `await`. -/
  | throws
  /-- The promise of a task resolves or rejects. -/
  | finish (taskId : Nat)

/-- The frames in which other code runs. -/
def Frame.callsOut : Frame → Bool
  | .enqueued _ | .opening _ _ | .task _ | .completing _ _ => true
  | .pump _ | .settle _ | .resetting _ => false

def callable (stack : List Frame) : Bool :=
  match stack with
  | [] => true
  | frame :: _ => frame.callsOut

open QueueState

def advance (s : QueueState) : Option QueueState :=
  match s.stack with
  | [] => none
  | .enqueued lane :: rest => some ((s.setStack rest).drainLane lane)
  | .pump lane :: rest => some (s.pump lane rest)
  | .opening lane entry :: rest => some (s.start lane entry rest)
  | .task _ :: rest => some (s.setStack rest)
  | .completing lane entry :: rest => some (s.setStack (.pump lane :: .settle entry :: rest))
  | .settle entry :: rest => some ((s.setStack rest).settle entry)
  | .resetting [] :: rest => some (s.setStack rest)
  | .resetting (lane :: lanes) :: rest =>
    some ((s.setStack (.resetting lanes :: rest)).drainLane lane)

def step (s : QueueState) : Event → Option QueueState
  | .advance => advance s
  | .throws =>
    match s.stack with
    | .task id :: rest => do
      let task ← s.tasks.find? (·.id = id)
      return (s.setStack rest).completeTask task
    | _ => none
  | .finish taskId =>
    if s.stack = [] then do
      let task ← s.tasks.find? (·.id = taskId)
      return s.completeTask task
    else none
  | .enqueueCommandInLane lane =>
    if callable s.stack then some (s.enqueueCommandInLane lane) else none
  | .setCommandLaneConcurrency lane maxConcurrent =>
    if callable s.stack then some (s.setCommandLaneConcurrency lane maxConcurrent) else none
  | .clearCommandLane lane => if callable s.stack then some (s.clearCommandLane lane) else none
  | .resetAllLanes => if callable s.stack then some s.resetAllLanes else none
  | .markGatewayDraining =>
    if callable s.stack then some { s with gatewayDraining := true } else none

def system : Transition.System QueueState Event where
  init s := s = {}
  step := step

end OpenClaw.CommandQueue
