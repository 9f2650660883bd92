import OpenClaw.Js.Text
import OpenClaw.Lib.Members
import OpenClaw.Lib.Transition

/-!
# The exec approval manager

An approval is registered under an id, resolved or expired once, and stays for a grace period
in which its decision can be awaited and an allow-once decision be consumed.
-/

namespace OpenClaw.ExecApproval

open Js (Text trimChars)

-- ---
-- Records and entries
-- ---

inductive ExecApprovalDecision
  | allowOnce
  | allowAlways
  | deny
  deriving DecidableEq

structure ExecApprovalRecord (P : Type) where
  id : Text
  request : P
  createdAtMs : Int
  expiresAtMs : Int
  resolvedAtMs : Option Int
  decision : Option ExecApprovalDecision
  resolvedBy : Option Text

/-- `registration` stands for the entry object and for its promise. -/
structure PendingEntry (P : Type) where
  record : ExecApprovalRecord P
  registration : Nat

inductive ExecApprovalIdLookupResult
  | exact (id : Text)
  | prefixed (id : Text)
  | ambiguous (ids : List Text)
  | none
  deriving DecidableEq

/-- The map of entries, and the timers that are set, each with its entry and the id it was
set for. -/
structure ExecApprovalManager (P : Type) where
  pending : List (Text × PendingEntry P)
  timeouts : List (Nat × Text)
  graces : List (Nat × Text)
  nextRegistration : Nat

/-- What becomes of a registration's promise, and of its decision. -/
inductive Event
  | registered (registration : Nat) (id : Text)
  | settled (registration : Nat) (decision : Option ExecApprovalDecision)
  | consumed (registration : Nat)
  deriving DecidableEq

-- ---
-- Operations
-- ---

def create (request : P) (timeoutMs : Int) (id : Option Text) (randomUUID : Text) (now : Int) :
    ExecApprovalRecord P :=
  let trimmed := trimChars (id.getD [])
  { id := if trimmed = [] then randomUUID else trimmed
    request
    createdAtMs := now
    expiresAtMs := now + timeoutMs
    resolvedAtMs := none
    decision := none
    resolvedBy := none }

def alreadyResolved (id : Text) : Text :=
  "approval id \x27".toList ++ id ++ "\x27 already resolved".toList

namespace ExecApprovalManager

variable {P : Type}

def empty : ExecApprovalManager P := ⟨[], [], [], 0⟩

def get (s : ExecApprovalManager P) (id : Text) : Option (PendingEntry P) := s.pending.lookup id

def add (s : ExecApprovalManager P) (record : ExecApprovalRecord P) : ExecApprovalManager P :=
  { pending := s.pending ++ [(record.id, ⟨record, s.nextRegistration⟩)]
    timeouts := s.timeouts ++ [(s.nextRegistration, record.id)]
    graces := s.graces
    nextRegistration := s.nextRegistration + 1 }

/-- The promise of the registration that is pending under the record's id, a new one if none is. -/
def register (s : ExecApprovalManager P) (record : ExecApprovalRecord P) :
    Except Text (ExecApprovalManager P × Nat) :=
  match s.get record.id with
  | some existing =>
    if existing.record.resolvedAtMs = none then .ok (s, existing.registration)
    else .error (alreadyResolved record.id)
  | none => .ok (s.add record, s.nextRegistration)

def modify (s : ExecApprovalManager P) (id : Text)
    (f : ExecApprovalRecord P → ExecApprovalRecord P) : ExecApprovalManager P :=
  { s with pending := s.pending.map fun (key, entry) =>
      (key, if key = id then { entry with record := f entry.record } else entry) }

/-- The entry's timer is cleared, its promise resolved, and its grace period begins. -/
def settleEntry (s : ExecApprovalManager P) (recordId : Text) (registration : Nat)
    (decision : Option ExecApprovalDecision) (resolvedBy : Option Text) (now : Int) :
    ExecApprovalManager P :=
  let resolved := s.modify recordId fun record =>
    { record with resolvedAtMs := some now, decision, resolvedBy }
  { resolved with
    timeouts := s.timeouts.filter (·.1 ≠ registration)
    graces := s.graces ++ [(registration, recordId)] }

/-- The common part of `resolve` and `expire`: the answer is whether a promise was settled. -/
def settle (s : ExecApprovalManager P) (recordId : Text) (decision : Option ExecApprovalDecision)
    (resolvedBy : Option Text) (now : Int) : ExecApprovalManager P × Option Event :=
  match s.get recordId with
  | none => (s, none)
  | some pending =>
    if pending.record.resolvedAtMs = none then
      (s.settleEntry recordId pending.registration decision resolvedBy now,
        some (.settled pending.registration decision))
    else (s, none)

def resolve (s : ExecApprovalManager P) (recordId : Text) (decision : ExecApprovalDecision)
    (resolvedBy : Option Text) (now : Int) : ExecApprovalManager P × Option Event :=
  s.settle recordId (some decision) resolvedBy now

def expire (s : ExecApprovalManager P) (recordId : Text) (resolvedBy : Option Text) (now : Int) :
    ExecApprovalManager P × Option Event :=
  s.settle recordId none resolvedBy now

/-- The entry is deleted if it has not been replaced. -/
def endGrace (s : ExecApprovalManager P) (registration : Nat) (recordId : Text) :
    ExecApprovalManager P :=
  { s with
    pending :=
      if (s.get recordId).map (·.registration) = some registration then
        Members.remove s.pending recordId
      else s.pending
    graces := s.graces.filter (·.1 ≠ registration) }

def getSnapshot (s : ExecApprovalManager P) (recordId : Text) : Option (ExecApprovalRecord P) :=
  (s.get recordId).map (·.record)

/-- The answer is whether a decision was consumed. -/
def consumeAllowOnce (s : ExecApprovalManager P) (recordId : Text) :
    ExecApprovalManager P × Option Event :=
  match s.get recordId with
  | none => (s, none)
  | some entry =>
    if entry.record.decision = some .allowOnce then
      (s.modify recordId fun record => { record with decision := none },
        some (.consumed entry.registration))
    else (s, none)

def awaitDecision (s : ExecApprovalManager P) (recordId : Text) : Option Nat :=
  (s.get recordId).map (·.registration)

def lookupPendingId (toLowerCase : Text → Text) (s : ExecApprovalManager P) (input : Text) :
    ExecApprovalIdLookupResult :=
  let normalized := trimChars input
  if normalized = [] then .none
  else match s.get normalized with
    | some entry => if entry.record.resolvedAtMs = none then .exact normalized else .none
    | none =>
      let found := (s.pending.filter fun member =>
        decide (member.2.record.resolvedAtMs = none) &&
          (toLowerCase normalized).isPrefixOf (toLowerCase member.1)).map (·.1)
      match found with
      | [] => .none
      | [id] => .prefixed id
      | ids => .ambiguous ids

-- ---
-- Runs
-- ---

/-- Calls, and timers that fire: the timeout of a registration or the end of its grace period.
A registration is that of a record `create` has made. -/
inductive Op (P : Type)
  | register (request : P) (timeoutMs : Int) (id : Option Text) (randomUUID : Text) (now : Int)
  | resolve (recordId : Text) (decision : ExecApprovalDecision) (resolvedBy : Option Text)
      (now : Int)
  | expire (recordId : Text) (resolvedBy : Option Text) (now : Int)
  | timeoutFires (registration : Nat) (now : Int)
  | graceEnds (registration : Nat)
  | consumeAllowOnce (recordId : Text)
  | getSnapshot (recordId : Text)
  | awaitDecision (recordId : Text)
  | lookupPendingId (input : Text)

/-- Timers fire in any order, a timer only if it is set. -/
def step (s : ExecApprovalManager P) : Op P → Option (ExecApprovalManager P × Option Event)
  | .register request timeoutMs id randomUUID now =>
    let record := create request timeoutMs id randomUUID now
    match s.register record with
    | .error _ => some (s, none)
    | .ok (s', promise) =>
      some (s', if promise = s.nextRegistration then some (.registered promise record.id) else none)
  | .resolve recordId decision resolvedBy now => some (s.resolve recordId decision resolvedBy now)
  | .expire recordId resolvedBy now => some (s.expire recordId resolvedBy now)
  | .timeoutFires registration now =>
    (s.timeouts.lookup registration).map fun recordId =>
      { s with timeouts := s.timeouts.filter (·.1 ≠ registration) }.expire recordId none now
  | .graceEnds registration =>
    (s.graces.lookup registration).map fun recordId => (s.endGrace registration recordId, none)
  | .consumeAllowOnce recordId => some (s.consumeAllowOnce recordId)
  | .getSnapshot _ => some (s, none)
  | .awaitDecision _ => some (s, none)
  | .lookupPendingId _ => some (s, none)

def run (s : ExecApprovalManager P) : List (Op P) → Option (ExecApprovalManager P × List Event)
  | [] => some (s, [])
  | op :: ops => (s.step op).bind fun next =>
    (next.1.run ops).map fun last => (last.1, next.2.toList ++ last.2)

def system : Transition.System (ExecApprovalManager P) (Op P) where
  init s := s = empty
  step s op := (s.step op).map (·.1)

end ExecApprovalManager

end OpenClaw.ExecApproval
