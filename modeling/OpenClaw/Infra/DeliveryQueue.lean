import Mathlib.Data.List.AList
import Mathlib.Data.List.Sort
import OpenClaw.Lib.AtomicProgram
import OpenClaw.Js.Value

/-!
# The outbound delivery queue

A delivery is written to a directory before it is sent, acknowledged by a
rename and replayed by a recovery pass after a crash. Every file operation is
one request of a program, so that a crash may come between any two of them.
-/

namespace OpenClaw.DeliveryQueue

open AtomicProgram

-- ---
-- Entries and files
-- ---

/-- `Payload` is a `QueuedDeliveryPayload`, which the queue only copies. -/
structure QueuedDelivery (Payload : Type) where
  id : String
  enqueuedAt : Int
  payload : Payload
  retryCount : Nat
  lastAttemptAt : Option Int
  lastError : Option String
  deriving DecidableEq

/-- `{id}.json`, `{id}.delivered` and `{id}.json.{pid}.tmp` in the queue
directory, and `failed/{id}.json`. -/
inductive Path where
  | json (id : String)
  | delivered (id : String)
  | tmp (id : String) (pid : Nat)
  | failed (id : String)
  deriving DecidableEq

def Path.id : Path → String
  | .json id | .delivered id | .tmp id _ | .failed id => id

/-- What `readdir` of the queue directory lists. -/
def Path.queued : Path → Bool
  | .json _ | .delivered _ | .tmp _ _ => true
  | .failed _ => false

/-- An entry in the file of its own id. -/
abbrev Content (Payload : Type) (path : Path) :=
  { entry : QueuedDelivery Payload // entry.id = path.id }

abbrev Files (Payload : Type) := AList (Content Payload)

/-- The file that was at `src`, moved to `dst`. -/
def Content.move (content : Content P src) (h : src.id = dst.id) : Content P dst :=
  ⟨content.1, content.2.trans h⟩

structure NodeError where
  code : String
  message : String
  deriving DecidableEq

def enoent : NodeError := ⟨"ENOENT", "ENOENT: no such file or directory"⟩

-- ---
-- The world
-- ---

/-- What has happened to entries, as far as the world can tell. `stored` is
the rename of a temporary file to the entry's file, `attempted` a call of
`deliver`, `faulted` a file operation that failed. -/
inductive Event where
  | stored (id : String)
  | acknowledged (id : String)
  | failed (id : String)
  | attempted (id : String)
  | faulted
  | crashed
  deriving DecidableEq

/-- `log` has the newest event first. It is not read by any program. -/
structure World (P : Type) where
  files : Files P
  pid : Nat
  log : List Event

structure DeliverParams (P : Type) where
  payload : P
  skipQueue : Bool

inductive Op (P : Type) where
  | now
  | mkdir (dir : String)
  | writeFile (path : Path) (content : Content P path)
  | rename (src dst : Path) (h : src.id = dst.id)
  | unlink (path : Path)
  | readdir
  | stat (path : Path)
  | readFile (path : Path)
  | deliver (id : String) (params : DeliverParams P)

abbrev Answer (P : Type) : Op P → Type
  | .now => Int
  | .readdir => Except NodeError (List Path)
  | .readFile path => Except NodeError (Content P path)
  | .deliver _ _ => Except String Unit
  | .mkdir _ | .writeFile _ _ | .rename _ _ _ | .unlink _ | .stat _ => Except NodeError Unit

/-- What the world is free to choose: the time, the order of a listing (or that
the directory is missing), how a delivery ends and whether a file operation
fails. -/
inductive Choice where
  | ok
  | time (now : Int)
  | listing (files : List Path)
  | missing
  | rejected (message : String)
  | fault (err : NodeError)
  deriving DecidableEq

namespace World

variable {P : Type}

def push (w : World P) (e : Event) : World P :=
  { w with log := e :: w.log }

def setFiles (w : World P) (files : Files P) : World P :=
  { w with files }

/-- The event of a rename. -/
def renamed : Path → Path → List Event
  | .tmp id _, .json _ => [.stored id]
  | .json id, .delivered _ => [.acknowledged id]
  | .json id, .failed _ => [.failed id]
  | _, _ => []

def rename (w : World P) (src dst : Path) (h : src.id = dst.id) : Option (World P) :=
  (w.files.lookup src).map fun content =>
    { w with
      files := (w.files.erase src).insert dst (content.move h)
      log := renamed src dst ++ w.log }

/-- A fault changes no file. A missing file is not a fault. -/
def fault (w : World P) (answer : α) (err : NodeError) : Option (α × World P) :=
  if err.code = "ENOENT" then none else some (answer, w.push .faulted)

def perform (w : World P) : (o : Op P) → Choice → Option (Answer P o × World P)
  | .now, .time now => some (now, w)
  | .mkdir _, .ok => some (.ok (), w)
  | .writeFile path content, .ok => some (.ok (), w.setFiles (w.files.insert path content))
  | .rename src dst h, .ok =>
    match w.rename src dst h with
    | some w' => some (.ok (), w')
    | none => some (.error enoent, w)
  | .unlink path, .ok =>
    if path ∈ w.files then some (.ok (), w.setFiles (w.files.erase path))
    else some (.error enoent, w)
  | .readdir, .listing files =>
    if files.Perm (w.files.keys.filter Path.queued) then some (.ok files, w) else none
  | .readdir, .missing =>
    if w.files.keys.filter Path.queued = [] then some (.error enoent, w) else none
  | .stat path, .ok =>
    if path ∈ w.files then some (.ok (), w) else some (.error enoent, w)
  | .readFile path, .ok =>
    match w.files.lookup path with
    | some content => some (.ok content, w)
    | none => some (.error enoent, w)
  | .deliver id _, .ok => some (.ok (), w.push (.attempted id))
  | .deliver id _, .rejected message => some (.error message, w.push (.attempted id))
  | .mkdir _, .fault err | .writeFile _ _, .fault err | .rename _ _ _, .fault err
  | .unlink _, .fault err | .stat _, .fault err => w.fault (.error err) err
  | .readdir, .fault err => w.fault (.error err) err
  | .readFile _, .fault err => w.fault (.error err) err
  | _, _ => none

end World

-- ---
-- Storage
-- ---

abbrev Prog (P : Type) := Program (Answer P)

def ask (o : Op P) : Prog P (Answer P o) := Program.ask o

def unlinkBestEffort (path : Path) : Prog P Unit := do
  let _ ← ask (.unlink path)
  pure ()

def writeQueueEntry (pid : Nat) (id : String) (entry : Content P (.json id)) :
    Prog P (Except NodeError Unit) := do
  match ← ask (.writeFile (.tmp id pid) (entry.move rfl)) with
  | .error err => pure (.error err)
  | .ok () => ask (.rename (.tmp id pid) (.json id) rfl)

def hasTimestamp (t : Int) : Bool :=
  t > 0

/-- The entry to go on with, and whether it was migrated. -/
def normalizeLegacyQueuedDeliveryEntry (entry : QueuedDelivery P) : QueuedDelivery P × Bool :=
  if entry.lastAttemptAt.any hasTimestamp || entry.retryCount ≤ 0 then (entry, false)
  else if !hasTimestamp entry.enqueuedAt then (entry, false)
  else ({ entry with lastAttemptAt := some entry.enqueuedAt }, true)

theorem normalizeLegacyQueuedDeliveryEntry_id (entry : QueuedDelivery P) :
    (normalizeLegacyQueuedDeliveryEntry entry).1.id = entry.id := by
  unfold normalizeLegacyQueuedDeliveryEntry
  split
  · rfl
  · split <;> rfl

theorem normalizeLegacyQueuedDeliveryEntry_retryCount (entry : QueuedDelivery P) :
    (normalizeLegacyQueuedDeliveryEntry entry).1.retryCount = entry.retryCount := by
  unfold normalizeLegacyQueuedDeliveryEntry
  split
  · rfl
  · split <;> rfl

def ensureQueueDir : Prog P (Except NodeError Unit) := do
  match ← ask (.mkdir "delivery-queue") with
  | .error err => pure (.error err)
  | .ok () => ask (.mkdir "delivery-queue/failed")

/-- `id` is the fresh one that the secure generator gives. -/
def enqueueDelivery (pid : Nat) (id : String) (payload : P) : Prog P (Except NodeError Unit) := do
  match ← ensureQueueDir with
  | .error err => pure (.error err)
  | .ok () =>
    let now ← ask .now
    writeQueueEntry pid id
      ⟨{ id, enqueuedAt := now, payload, retryCount := 0, lastAttemptAt := none, lastError := none }, rfl⟩

def ackDelivery (id : String) : Prog P (Except NodeError Unit) := do
  match ← ask (.rename (.json id) (.delivered id) rfl) with
  | .error err =>
    if err.code = "ENOENT" then
      -- already gone: a previous ack may have left its marker
      unlinkBestEffort (.delivered id)
      pure (.ok ())
    else pure (.error err)
  | .ok () =>
    unlinkBestEffort (.delivered id)
    pure (.ok ())

def failed (content : Content P path) (now : Int) (error : String) : Content P path :=
  ⟨{ content.1 with
      retryCount := content.1.retryCount + 1, lastAttemptAt := some now, lastError := some error },
    content.2⟩

def failDelivery (pid : Nat) (id : String) (error : String) : Prog P (Except NodeError Unit) := do
  match ← ask (.readFile (.json id)) with
  | .error err => pure (.error err)
  | .ok entry =>
    let now ← ask .now
    writeQueueEntry pid id (failed entry now error)

def unlinkMarkers : List Path → Prog P Unit
  | [] => pure ()
  | .delivered id :: files => do
    unlinkBestEffort (.delivered id)
    unlinkMarkers files
  | _ :: files => unlinkMarkers files

def normalized (content : Content P path) : Content P path :=
  ⟨(normalizeLegacyQueuedDeliveryEntry content.1).1,
    (normalizeLegacyQueuedDeliveryEntry_id content.1).trans content.2⟩

theorem normalized_of_not_migrated {content : Content P path}
    (h : (normalizeLegacyQueuedDeliveryEntry content.1).2 = false) : normalized content = content := by
  refine Subtype.ext ?_
  simp only [normalized]
  unfold normalizeLegacyQueuedDeliveryEntry at h ⊢
  split
  · rfl
  · split
    · rfl
    · simp_all

/-- A malformed or inaccessible entry is skipped. -/
def loadEntry (pid : Nat) (id : String) : Prog P (Option (Content P (.json id))) := do
  match ← ask (.stat (.json id)) with
  | .error _ => pure none
  | .ok () =>
    match ← ask (.readFile (.json id)) with
    | .error _ => pure none
    | .ok content =>
      if (normalizeLegacyQueuedDeliveryEntry content.1).2 then
        match ← writeQueueEntry pid id (normalized content) with
        | .error _ => pure none
        | .ok () => pure (some (normalized content))
      else pure (some (normalized content))

def loadEntries (pid : Nat) : List Path → Prog P (List (QueuedDelivery P))
  | [] => pure []
  | .json id :: files => do
    let entry ← loadEntry pid id
    let entries ← loadEntries pid files
    pure ((entry.map Subtype.val).toList ++ entries)
  | _ :: files => loadEntries pid files

def loadPendingDeliveries (pid : Nat) : Prog P (Except NodeError (List (QueuedDelivery P))) := do
  match ← ask .readdir with
  | .error err => pure (if err.code = "ENOENT" then .ok [] else .error err)
  | .ok files =>
    unlinkMarkers files
    let entries ← loadEntries pid files
    pure (.ok entries)

def moveToFailed (id : String) : Prog P (Except NodeError Unit) := do
  match ← ask (.mkdir "delivery-queue/failed") with
  | .error err => pure (.error err)
  | .ok () => ask (.rename (.json id) (.failed id) rfl)

-- ---
-- Recovery
-- ---

structure RecoverySummary where
  recovered : Nat
  failed : Nat
  skippedMaxRetries : Nat
  deferredBackoff : Nat
  deriving DecidableEq

def createEmptyRecoverySummary : RecoverySummary :=
  ⟨0, 0, 0, 0⟩

def MAX_RETRIES : Nat := 5

def BACKOFF_MS : List Int := [5000, 25000, 120000, 600000]

def computeBackoffMs (retryCount : Nat) : Int :=
  if retryCount ≤ 0 then 0
  else (BACKOFF_MS[min (retryCount - 1) (BACKOFF_MS.length - 1)]?).getD
    (BACKOFF_MS.getLast?.getD 0)

/-- `none` when the entry may be retried, else the backoff that remains. -/
def remainingBackoffMs (entry : QueuedDelivery P) (now : Int) : Option Int :=
  let backoff := computeBackoffMs (entry.retryCount + 1)
  if backoff ≤ 0 then none
  else if entry.retryCount = 0 && entry.lastAttemptAt.isNone then
    -- the first replay after a crash
    none
  else
    let baseAttemptAt := (entry.lastAttemptAt.filter hasTimestamp).getD entry.enqueuedAt
    let nextEligibleAt := baseAttemptAt + backoff
    if now ≥ nextEligibleAt then none else some (nextEligibleAt - now)

/-- The literal parts of each pattern, in lower case, with `.*` between them. -/
def PERMANENT_ERROR_PATTERNS : List (List String) := [
  ["no conversation reference found"],
  ["chat not found"],
  ["user not found"],
  ["bot", "not", "member"],
  ["bot was blocked by the user"],
  ["forbidden: bot was kicked"],
  ["chat_id is empty"],
  ["recipient is not a valid"],
  ["outbound not configured for channel"],
  ["ambiguous ", " recipient"],
  ["user ", " not in room"]]

/-- The characters that `.` does not match. -/
def isLineTerminator (c : Char) : Bool :=
  c = '\n' || c = '\r' || c = '\u2028' || c = '\u2029'

/-- What may be left of a text once `.*` has matched its start. -/
def afterAny : List Char → List (List Char)
  | [] => [[]]
  | c :: cs => (c :: cs) :: if isLineTerminator c then [] else afterAny cs

def matchesHere : List String → List Char → Bool
  | [], _ => true
  | part :: parts, text =>
    part.toList.isPrefixOf text &&
      (parts.isEmpty || (afterAny (text.drop part.length)).any (matchesHere parts))

def isPermanentDeliveryError (error : String) : Bool :=
  PERMANENT_ERROR_PATTERNS.any fun parts =>
    (error.toList.map Char.toLower).tails.any (matchesHere parts)

def moveEntryToFailedWithLogging (id : String) : Prog P Unit := do
  let _ ← moveToFailed id
  pure ()

def deferEntry (pid : Nat) (entry : QueuedDelivery P) : Prog P Unit := do
  let _ ← failDelivery pid entry.id "recovery time budget exceeded"
  pure ()

def deferRemainingEntriesForBudget (pid : Nat) (entries : List (QueuedDelivery P)) : Prog P Unit :=
  Program.allSettled (entries.map (deferEntry pid))

/-- The replay skips the queue, so that it is not enqueued again. -/
def buildRecoveryDeliverParams (entry : QueuedDelivery P) : DeliverParams P :=
  ⟨entry.payload, true⟩

/-- The `try` block of a replay: the message of what it throws. -/
def deliverAndAck (entry : QueuedDelivery P) : Prog P (Except String Unit) := do
  match ← ask (.deliver entry.id (buildRecoveryDeliverParams entry)) with
  | .error message => pure (.error message)
  | .ok () =>
    match ← ackDelivery entry.id with
    | .error err => pure (.error err.message)
    | .ok () => pure (.ok ())

/-- Whether the entry was recovered. -/
def recoverEntry (pid : Nat) (entry : QueuedDelivery P) : Prog P Bool := do
  match ← deliverAndAck entry with
  | .ok () => pure true
  | .error errMsg =>
    if isPermanentDeliveryError errMsg then
      moveEntryToFailedWithLogging entry.id
      pure false
    else
      -- the update is best effort
      let _ ← failDelivery pid entry.id errMsg
      pure false

def recoverEntries (pid : Nat) (deadline : Int) :
    List (QueuedDelivery P) → RecoverySummary → Prog P RecoverySummary
  | [], summary => pure summary
  | entry :: rest, summary => do
    let now ← ask .now
    if now ≥ deadline then
      deferRemainingEntriesForBudget pid (entry :: rest)
      pure summary
    else if entry.retryCount ≥ MAX_RETRIES then
      moveEntryToFailedWithLogging entry.id
      recoverEntries pid deadline rest
        { summary with skippedMaxRetries := summary.skippedMaxRetries + 1 }
    else if (remainingBackoffMs entry now).isSome then
      recoverEntries pid deadline rest { summary with deferredBackoff := summary.deferredBackoff + 1 }
    else
      if ← recoverEntry pid entry then
        recoverEntries pid deadline rest { summary with recovered := summary.recovered + 1 }
      else
        recoverEntries pid deadline rest { summary with failed := summary.failed + 1 }

def sortPending (pending : List (QueuedDelivery P)) : List (QueuedDelivery P) :=
  pending.insertionSort fun a b => a.enqueuedAt ≤ b.enqueuedAt

def recoverPendingDeliveries (pid : Nat) (maxRecoveryMs : Option Int) :
    Prog P (Except NodeError RecoverySummary) := do
  match ← loadPendingDeliveries pid with
  | .error err => pure (.error err)
  | .ok pending =>
    if pending.length = 0 then pure (.ok createEmptyRecoverySummary)
    else
      let now ← ask .now
      let summary ← recoverEntries pid (now + maxRecoveryMs.getD 60000) (sortPending pending)
        createEmptyRecoverySummary
      pure (.ok summary)

-- ---
-- The machine
-- ---

inductive Command (P : Type) where
  | enqueueDelivery (id : String) (payload : P)
  | ackDelivery (id : String)
  | failDelivery (id : String) (error : String)
  | moveToFailed (id : String)
  | recoverPendingDeliveries (maxRecoveryMs : Option Int)

def Event.id? : Event → Option String
  | .stored id | .acknowledged id | .failed id | .attempted id => some id
  | .faulted | .crashed => none

/-- Whether a file or an event has this id. -/
def World.mentions (w : World P) (id : String) : Bool :=
  w.files.keys.any (·.id = id) || w.log.any (·.id? = some id)

/-- The callers' results are not kept. The generated id of an entry is new. -/
def program (w : World P) : Command P → Option (Prog P Unit)
  | .enqueueDelivery id payload =>
    if w.mentions id then none else some (discard (enqueueDelivery w.pid id payload))
  | .ackDelivery id => some (discard (ackDelivery id))
  | .failDelivery id error => some (discard (failDelivery w.pid id error))
  | .moveToFailed id => some (discard (moveToFailed id))
  | .recoverPendingDeliveries maxRecoveryMs =>
    some (discard (recoverPendingDeliveries w.pid maxRecoveryMs))
where
  discard {α : Type} (p : Prog P α) : Prog P Unit := do
    let _ ← p
    pure ()

/-- A queue directory with entries of any retry count, as an earlier run left
them, and nothing failed or acknowledged. -/
structure World.Initial (w : World P) : Prop where
  stored : ∀ id, .stored id ∈ w.log ↔ .json id ∈ w.files
  log : ∀ e ∈ w.log, ∃ id, e = .stored id
  failed : ∀ id, .failed id ∉ w.files

/-- A crash starts a new process. -/
def machine (P : Type) : Machine (Answer P) (World P) Choice (Command P) Nat where
  init := World.Initial
  perform := World.perform
  program := program
  crash w pid := { w with pid, log := .crashed :: w.log }

end OpenClaw.DeliveryQueue
