import OpenClaw.Lib.Transition
import Mathlib.Data.List.Perm.Basic

/-!
# The session write lock

A lock is a file that is created exclusively and removed to release it. A process that finds
the file reads who created it, and when; where that process is dead, or took too long, it
removes the file and tries again.
-/

namespace OpenClaw.SessionWriteLock

open Transition

-- ---
-- Payloads
-- ---

/-- What a lock file says, as far as it is valid. -/
structure LockFilePayload where
  pid : Option Nat
  createdAtMs : Option Int
  starttime : Option Nat
  deriving DecidableEq

inductive StaleReason where
  | missingPid
  | deadPid
  | recycledPid
  | invalidCreatedAt
  | tooOld
  | orphanSelfPid
  deriving DecidableEq

/-- What a process can learn about others: who is alive, and their start times, where these are available. -/
structure Machine where
  isPidAlive : Nat → Bool
  getProcessStartTime : Nat → Option Nat

/-- `Math.max(0, nowMs - sinceMs)` -/
def ageMs (nowMs sinceMs : Int) : Int := max 0 (nowMs - sinceMs)

def pidReasons (machine : Machine) (payload : Option LockFilePayload) : List StaleReason :=
  match (payload.bind LockFilePayload.pid).filter (0 < ·) with
  | none => [.missingPid]
  | some pid =>
    if machine.isPidAlive pid = false then [.deadPid]
    else
      match payload.bind LockFilePayload.starttime, machine.getProcessStartTime pid with
      | some storedStarttime, some currentStarttime => if currentStarttime ≠ storedStarttime then [.recycledPid] else []
      | _, _ => []

def ageReasons (payload : Option LockFilePayload) (staleMs nowMs : Int) : List StaleReason :=
  match payload.bind LockFilePayload.createdAtMs with
  | none => [.invalidCreatedAt]
  | some createdAtMs => if staleMs < ageMs nowMs createdAtMs then [.tooOld] else []

/-- The reasons for which the lock is stale. -/
def inspectLockPayload (machine : Machine) (payload : Option LockFilePayload) (staleMs nowMs : Int) : List StaleReason :=
  pidReasons machine payload ++ ageReasons payload staleMs nowMs

def lockInspectionNeedsMtimeStaleFallback (staleReasons : List StaleReason) : Bool :=
  staleReasons ≠ [] ∧ staleReasons.all fun reason => reason = .missingPid ∨ reason = .invalidCreatedAt

def shouldTreatAsOrphanSelfLock (payload : Option LockFilePayload) (ownPid : Nat) (held : Bool) : Bool :=
  if payload.bind LockFilePayload.pid ≠ some ownPid then false
  else if (payload.bind LockFilePayload.starttime).isSome then false
  else !held

-- ---
-- Processes
-- ---

/-- `bornMs` is when the file was created. -/
structure LockFile where
  id : Nat
  payload : Option LockFilePayload
  mtimeMs : Int
  bornMs : Int
  deriving DecidableEq

/-- Where an acquisition waits. It has created the file `id`, or has seen a file that was there. -/
inductive Stage where
  | trying
  | created (id : Nat)
  | prepared (id : Nat) (payload : LockFilePayload)
  | written (id : Nat)
  | contended
  | hasRead (seen : Option LockFile)
  | statting (nowMs : Int)
  | removing (seen : Option LockFile)

structure Task where
  staleMs : Int
  stage : Stage

structure HeldLock where
  id : Nat
  count : Nat

/-- `closing` are the files it has yet to remove, of locks that are being released or were never written. -/
structure Process where
  held : Option HeldLock
  tasks : List Task
  closing : List Nat

def Process.idle : Process := ⟨none, [], []⟩

/-- `Proc` are the processes there ever are, each with its pid and its start time. -/
structure World (Proc : Type) where
  now : Int
  alive : List Proc
  file : Option LockFile
  nextId : Nat
  procs : Proc → Process

structure Identity (Proc : Type) where
  pid : Proc → Nat
  pid_pos : ∀ p, 0 < pid p
  startTime : Proc → Nat

variable {Proc : Type} [DecidableEq Proc] (ident : Identity Proc)

/-- Start times are those of the processes that are alive, if they are available at all. -/
def World.machine (w : World Proc) (available : Bool) : Machine where
  isPidAlive pid := w.alive.any (ident.pid · = pid)
  getProcessStartTime pid := if available then (w.alive.find? (ident.pid · = pid)).map ident.startTime else none

namespace World

def put (w : World Proc) (p : Proc) (process : Process) : World Proc :=
  { w with procs := Function.update w.procs p process }

def setStage (w : World Proc) (p : Proc) (i : Nat) (task : Task) (stage : Stage) : World Proc :=
  w.put p { w.procs p with tasks := (w.procs p).tasks.set i { task with stage } }

def dropTask (w : World Proc) (p : Proc) (i : Nat) : World Proc :=
  w.put p { w.procs p with tasks := (w.procs p).tasks.eraseIdx i }

/-- `fs.open(lockPath, "wx")` -/
def openLock (w : World Proc) (p : Proc) (i : Nat) (task : Task) : World Proc :=
  match w.file with
  | some _ => w.setStage p i task .contended
  | none =>
    { w.setStage p i task (.created w.nextId) with
      file := some ⟨w.nextId, none, w.now, w.now⟩
      nextId := w.nextId + 1 }

/-- The payload of a lock that was created. -/
def lockPayload (w : World Proc) (p : Proc) (available : Bool) : LockFilePayload :=
  ⟨some (ident.pid p), some w.now, (w.machine ident available).getProcessStartTime (ident.pid p)⟩

/-- `handle.writeFile`, which writes the file that was created, wherever it is now. -/
def writeLock (w : World Proc) (p : Proc) (i : Nat) (task : Task) (id : Nat) (payload : LockFilePayload) : World Proc :=
  { w.setStage p i task (.written id) with
    file := w.file.map fun file => if file.id = id then { file with payload := some payload, mtimeMs := w.now } else file }

/-- The payload was not written: the file that was created is closed, and is to be removed. -/
def failLock (w : World Proc) (p : Proc) (i id : Nat) : World Proc :=
  w.put p { w.procs p with tasks := (w.procs p).tasks.eraseIdx i, closing := (w.procs p).closing ++ [id] }

def enter (w : World Proc) (p : Proc) (i : Nat) (id : Nat) : World Proc :=
  w.put p { w.procs p with held := some ⟨id, 1⟩, tasks := (w.procs p).tasks.eraseIdx i }

/-- What speaks against a lock file that was read. -/
def staleReasons (w : World Proc) (p : Proc) (staleMs : Int) (seen : Option LockFile) (available : Bool) : List StaleReason :=
  let payload := seen.bind LockFile.payload
  let inspected := inspectLockPayload (w.machine ident available) payload staleMs w.now
  if shouldTreatAsOrphanSelfLock payload (ident.pid p) (w.procs p).held.isSome then inspected ++ [.orphanSelfPid] else inspected

/-- What is done about it. -/
def inspect (w : World Proc) (p : Proc) (i : Nat) (task : Task) (seen : Option LockFile) (available : Bool) : World Proc :=
  if w.staleReasons ident p task.staleMs seen available = [] then w.setStage p i task .trying
  else if lockInspectionNeedsMtimeStaleFallback (w.staleReasons ident p task.staleMs seen available) then
    w.setStage p i task (.statting w.now)
  else w.setStage p i task (.removing seen)

/-- Without a payload, the time of the file decides. -/
def statLock (w : World Proc) (p : Proc) (i : Nat) (task : Task) (nowMs : Int) : World Proc :=
  match w.file with
  | none => w.setStage p i task .trying
  | some file =>
    if task.staleMs < ageMs nowMs file.mtimeMs then w.setStage p i task (.removing (some file)) else w.setStage p i task .trying

/-- `fs.rm(lockPath, { force: true })` of one that reclaims the lock. -/
def removeLock (w : World Proc) (p : Proc) (i : Nat) (task : Task) : World Proc :=
  { w.setStage p i task .trying with file := none }

/-- `acquireSessionWriteLock`, up to where it tries to create the file. -/
def acquire (w : World Proc) (p : Proc) (staleMs : Int) (allowReentrant : Bool) : World Proc :=
  match (w.procs p).held with
  | some held =>
    if allowReentrant then w.put p { w.procs p with held := some { held with count := held.count + 1 } }
    else w.put p { w.procs p with tasks := (w.procs p).tasks ++ [⟨staleMs, .trying⟩] }
  | none => w.put p { w.procs p with tasks := (w.procs p).tasks ++ [⟨staleMs, .trying⟩] }

/-- `releaseHeldLock`, up to where it removes the file. -/
def release (w : World Proc) (p : Proc) (held : HeldLock) : World Proc :=
  if 1 < held.count then w.put p { w.procs p with held := some { held with count := held.count - 1 } }
  else w.put p { w.procs p with held := none, closing := (w.procs p).closing ++ [held.id] }

/-- `fs.rm` of a file of its own, which removes the one that is there. -/
def removeOwn (w : World Proc) (p : Proc) (j : Nat) : World Proc :=
  { w.put p { w.procs p with closing := (w.procs p).closing.eraseIdx j } with file := none }

end World

-- ---
-- The system
-- ---

/-- Of a process, its `i`-th acquisition or its `j`-th release. -/
inductive Label (Proc : Type) where
  | tick (ms : Nat)
  | spawn (p : Proc)
  | crash (p : Proc)
  | acquire (p : Proc) (staleMs : Nat) (allowReentrant : Bool)
  | openLock (p : Proc) (i : Nat)
  | prepare (p : Proc) (i : Nat) (available : Bool)
  | writeLock (p : Proc) (i : Nat)
  | failLock (p : Proc) (i : Nat)
  | enter (p : Proc) (i : Nat)
  | readLock (p : Proc) (i : Nat)
  | inspect (p : Proc) (i : Nat) (available : Bool)
  | statLock (p : Proc) (i : Nat)
  | removeLock (p : Proc) (i : Nat)
  | giveUp (p : Proc) (i : Nat)
  | release (p : Proc)
  | removeOwn (p : Proc) (j : Nat)

/-- Of the processes that are alive no two have one pid. -/
def lockStep (w : World Proc) : Label Proc → Option (World Proc)
  | .tick ms => some { w with now := w.now + ms }
  | .spawn p =>
    if w.alive.all fun other => ident.pid other ≠ ident.pid p then some { w with alive := w.alive ++ [p] } else none
  | .crash p => some { w.put p .idle with alive := w.alive.filter (· ≠ p) }
  | .acquire p staleMs allowReentrant => if p ∈ w.alive then some (w.acquire p staleMs allowReentrant) else none
  | .openLock p i =>
    match (w.procs p).tasks[i]? with
    | some ⟨staleMs, .trying⟩ => some (w.openLock p i ⟨staleMs, .trying⟩)
    | _ => none
  | .prepare p i available =>
    match (w.procs p).tasks[i]? with
    | some ⟨staleMs, .created id⟩ =>
      some (w.setStage p i ⟨staleMs, .created id⟩ (.prepared id (w.lockPayload ident p available)))
    | _ => none
  | .writeLock p i =>
    match (w.procs p).tasks[i]? with
    | some ⟨staleMs, .prepared id payload⟩ => some (w.writeLock p i ⟨staleMs, .prepared id payload⟩ id payload)
    | _ => none
  | .failLock p i =>
    match (w.procs p).tasks[i]? with
    | some ⟨_, .prepared id _⟩ => some (w.failLock p i id)
    | _ => none
  | .enter p i =>
    match (w.procs p).tasks[i]? with
    | some ⟨_, .written id⟩ => some (w.enter p i id)
    | _ => none
  | .readLock p i =>
    match (w.procs p).tasks[i]? with
    | some ⟨staleMs, .contended⟩ => some (w.setStage p i ⟨staleMs, .contended⟩ (.hasRead w.file))
    | _ => none
  | .inspect p i available =>
    match (w.procs p).tasks[i]? with
    | some ⟨staleMs, .hasRead seen⟩ => some (w.inspect ident p i ⟨staleMs, .hasRead seen⟩ seen available)
    | _ => none
  | .statLock p i =>
    match (w.procs p).tasks[i]? with
    | some ⟨staleMs, .statting nowMs⟩ => some (w.statLock p i ⟨staleMs, .statting nowMs⟩ nowMs)
    | _ => none
  | .removeLock p i =>
    match (w.procs p).tasks[i]? with
    | some ⟨staleMs, .removing seen⟩ => some (w.removeLock p i ⟨staleMs, .removing seen⟩)
    | _ => none
  | .giveUp p i =>
    match (w.procs p).tasks[i]? with
    | some ⟨_, .trying⟩ => some (w.dropTask p i)
    | _ => none
  | .release p =>
    match (w.procs p).held with
    | some held => some (w.release p held)
    | none => none
  | .removeOwn p j => if j < (w.procs p).closing.length then some (w.removeOwn p j) else none

/-- Nothing runs yet. There may be a lock file, of processes that are gone. -/
structure World.Starts (w : World Proc) : Prop where
  alive : w.alive = []
  procs : ∀ p, w.procs p = .idle
  nextId : ∀ file ∈ w.file, file.id < w.nextId
  born : ∀ file ∈ w.file, file.bornMs ≤ file.mtimeMs ∧ file.mtimeMs ≤ w.now

def lockSystem : System (World Proc) (Label Proc) where
  init w := w.Starts
  step := lockStep ident

end OpenClaw.SessionWriteLock
