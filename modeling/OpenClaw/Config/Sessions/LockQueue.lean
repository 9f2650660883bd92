import OpenClaw.Config.Sessions.Durable

/-!
# Updates under the lock of the session store

Each process runs its updates of the store one after another: they wait in a queue, which a
drain empties and then drops. An update reads the store behind the lock of the file, which
processes hold one at a time, and saves what it made of it before the lock is released.
-/

namespace OpenClaw.Sessions

open Js Members Transition

variable {Json : Type} {Proc : Type} [DecidableEq Proc]

-- ---
-- Calls
-- ---

/-- The updates of a store. What is made of an entry has the patch merged in; `update` gives
nothing when it throws, and no entry where there is no patch. -/
inductive Call (Json : Type) where
  | updateSessionStore (update : Update Json)
  | updateSessionStoreEntry (sessionKey : Text) (update : SessionEntry Json → Option (Option (SessionEntry Json)))
  | recordSessionMetaFromInbound (sessionKey : Text) (createIfMissing : Bool)
      (next : Option (SessionEntry Json) → Option (SessionEntry Json))
  | updateLastRoute (sessionKey : Text) (next : Option (SessionEntry Json) → SessionEntry Json)

/-- The mutator of `recordSessionMetaFromInbound` -/
def recordMeta (code : Code Json) (sessionKey : Text) (createIfMissing : Bool)
    (next : Option (SessionEntry Json) → Option (SessionEntry Json)) (store : SessionStore Json) : SessionStore Json :=
  let resolved := resolveSessionStoreEntry code store sessionKey
  match next resolved.existing with
  | none =>
    match resolved.existing with
    | some existing => if 0 < resolved.legacyKeys.length then resolved.put store existing else store
    | none => store
  | some next => if resolved.existing.isNone ∧ createIfMissing = false then store else resolved.put store next

/-- What a call makes of the store it has read: nothing when it throws, and no store where there
is nothing to save. -/
def Call.run (code : Code Json) (store : SessionStore Json) : Call Json → Option (Option (SessionStore Json))
  | .updateSessionStore update => (update.run code store).map some
  | .updateSessionStoreEntry sessionKey update =>
    let resolved := resolveSessionStoreEntry code store sessionKey
    match resolved.existing with
    | none => some none
    | some existing => (update existing).map fun patched => patched.map (resolved.put store)
  | .recordSessionMetaFromInbound sessionKey createIfMissing next =>
    (Update.run code ⟨fun store => some (recordMeta code sessionKey createIfMissing next store), []⟩ store).map some
  | .updateLastRoute sessionKey next =>
    let resolved := resolveSessionStoreEntry code store sessionKey
    some (some (resolved.put store (next resolved.existing)))

/-- All but one read the file again. -/
def Call.skipsCache : Call Json → Bool
  | .updateLastRoute _ _ => false
  | _ => true

-- ---
-- Queues
-- ---

structure Task (Json : Type) where
  id : Nat
  call : Call Json

inductive Stage (Json : Type) where
  | acquiring
  | locked
  | loaded (store : SessionStore Json)
  | releasing (succeeded : Bool)

/-- A drain in the middle of its loop. -/
structure Drain (Json : Type) where
  task : Task Json
  stage : Stage Json

/-- `draining` is whether there is a `drainPromise`. -/
structure LockQueue (Json : Type) where
  pending : List (Task Json)
  draining : Bool

structure Process (Json : Type) where
  caches : Caches Json
  queue : Option (LockQueue Json)
  drains : List (Drain Json)
  called : List (Task Json)
  settled : List (Task Json × Bool)

namespace Process

/-- Where the loop of a drain goes on: with the next task, or to its end, and with it that of the queue. -/
def drainLoop (p : Process Json) : Process Json :=
  match p.queue with
  | none => p
  | some queue =>
    match queue.pending with
    | task :: pending => { p with queue := some { queue with pending }, drains := p.drains ++ [⟨task, .acquiring⟩] }
    | [] => { p with queue := none }

def drainSessionStoreLockQueue (p : Process Json) : Process Json :=
  match p.queue with
  | none => p
  | some queue => if queue.draining then p else drainLoop { p with queue := some { queue with draining := true } }

def withSessionStoreLock (p : Process Json) (task : Task Json) : Process Json :=
  let queue := p.queue.getD ⟨[], false⟩
  drainSessionStoreLockQueue
    { p with queue := some { queue with pending := queue.pending ++ [task] }, called := p.called ++ [task] }

/-- The task of a drain is resolved or rejected, and its loop goes on. -/
def settle (p : Process Json) (i : Nat) (task : Task Json) (succeeded : Bool) : Process Json :=
  drainLoop { p with drains := p.drains.eraseIdx i, settled := p.settled ++ [(task, succeeded)] }

def setStage (p : Process Json) (i : Nat) (drain : Drain Json) (stage : Stage Json) : Process Json :=
  { p with drains := p.drains.set i { drain with stage } }

end Process

-- ---
-- The system
-- ---

/-- `log` are the calls that succeeded, in the order of the lock. -/
structure Shared (Proc Json : Type) where
  file : Option File
  holder : Option Proc
  procs : Proc → Process Json
  log : List (Call Json)

/-- A drain is named by its place among those of its process. -/
inductive Label (Proc Json : Type) where
  | call (p : Proc) (task : Task Json)
  | acquire (p : Proc) (i : Nat)
  | acquireFails (p : Proc) (i : Nat)
  | load (p : Proc) (i : Nat) (cacheEnabled expired : Bool)
  | finish (p : Proc) (i : Nat) (env : SaveEnv Json)
  | release (p : Proc) (i : Nat)

variable (code : Code Json)

def Call.loadOptions (call : Call Json) (cacheEnabled expired : Bool) : LoadOptions := ⟨call.skipsCache, cacheEnabled, expired⟩

namespace Shared

def put (s : Shared Proc Json) (p : Proc) (process : Process Json) : Shared Proc Json :=
  { s with procs := Function.update s.procs p process }

/-- The store is made anew, and saved. -/
def finish (s : Shared Proc Json) (p : Proc) (i : Nat) (drain : Drain Json) (store : SessionStore Json) (env : SaveEnv Json) :
    Shared Proc Json :=
  let process := s.procs p
  match drain.task.call.run code store with
  | none => s.put p (process.setStage i drain (.releasing false))
  | some none => { s.put p (process.setStage i drain (.releasing true)) with log := s.log ++ [drain.task.call] }
  | some (some next) =>
    let saved := saveSessionStoreUnlocked code env next s.file process.caches
    { s.put p { process.setStage i drain (.releasing true) with caches := saved.caches } with
      file := saved.file
      log := s.log ++ [drain.task.call] }

end Shared

def lockStep (s : Shared Proc Json) : Label Proc Json → Option (Shared Proc Json)
  | .call p task => some (s.put p ((s.procs p).withSessionStoreLock task))
  | .acquire p i =>
    match s.holder, (s.procs p).drains[i]? with
    | none, some ⟨task, .acquiring⟩ =>
      some { s.put p ((s.procs p).setStage i ⟨task, .acquiring⟩ .locked) with holder := some p }
    | _, _ => none
  | .acquireFails p i =>
    match (s.procs p).drains[i]? with
    | some ⟨task, .acquiring⟩ => some (s.put p ((s.procs p).settle i task false))
    | _ => none
  | .load p i cacheEnabled expired =>
    match (s.procs p).drains[i]? with
    | some ⟨task, .locked⟩ =>
      let loaded := loadSessionStore code (task.call.loadOptions cacheEnabled expired) s.file (s.procs p).caches
      some (s.put p { (s.procs p).setStage i ⟨task, .locked⟩ (.loaded loaded.store) with caches := loaded.caches })
    | _ => none
  | .finish p i env =>
    match (s.procs p).drains[i]? with
    | some ⟨task, .loaded store⟩ => some (s.finish code p i ⟨task, .loaded store⟩ store env)
    | _ => none
  | .release p i =>
    match (s.procs p).drains[i]? with
    | some ⟨task, .releasing succeeded⟩ => some { s.put p ((s.procs p).settle i task succeeded) with holder := none }
    | _ => none

/-- Nothing is called yet. The processes may have cached something. -/
structure Shared.Starts (s : Shared Proc Json) (file : Option File) : Prop where
  file : s.file = file
  holder : s.holder = none
  log : s.log = []
  procs : ∀ p, ∃ caches, s.procs p = ⟨caches, none, [], [], []⟩

def lockSystem (Proc : Type) [DecidableEq Proc] (code : Code Json) (file : Option File) :
    System (Shared Proc Json) (Label Proc Json) where
  init s := s.Starts file
  step := lockStep code

/-- The text behind a call, given what it makes of the store. -/
def textAfter (content : Option Text) : Option (Option (SessionStore Json)) → Option Text
  | some (some next) => some (code.stringify (normalizeSessionStore code next))
  | _ => content

/-- The text a call leaves when no one else is there. -/
def Call.serial (content : Option Text) (call : Call Json) : Option Text :=
  textAfter code content (call.run code (readStoreFile code (content.map (⟨·, 0⟩))).1)

end OpenClaw.Sessions
