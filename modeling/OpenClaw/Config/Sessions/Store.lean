import OpenClaw.Js.LowerCase
import OpenClaw.Lib.Members
import OpenClaw.Lib.OrderedSet
import Mathlib.Data.List.Sort

/-!
# The session store

The sessions of an agent are saved in one file. A process keeps what it last read or wrote
of it in two caches: the store as an object, valid as long as the file has the same time and
size, and the text, by which a save that would change nothing is skipped.
-/

namespace OpenClaw.Sessions

open Js Members

-- ---
-- Entries
-- ---

structure SessionEntry (Json : Type) where
  sessionId : Text
  updatedAt : Option Int
  sessionFile : Option Text
  acp : Option Json
  /-- Its other members. -/
  rest : Json
  deriving DecidableEq

abbrev SessionStore (Json : Type) := List (Text × SessionEntry Json)

/-- How a store is written down and read, and what is done with each entry on the way:
`parse` gives what the text of a record holds. -/
structure Code (Json : Type) where
  lower : LowerCase
  parse : Text → Option (SessionStore Json)
  stringify : SessionStore Json → Text
  migrateEntry : SessionEntry Json → SessionEntry Json
  normalizeEntry : SessionEntry Json → SessionEntry Json

section Store

variable {Json : Type} (code : Code Json)

def applySessionStoreMigrations (store : SessionStore Json) : SessionStore Json :=
  store.map fun member => (member.1, code.migrateEntry member.2)

def normalizeSessionStore (store : SessionStore Json) : SessionStore Json :=
  store.map fun member => (member.1, code.normalizeEntry member.2)

def normalizeStoreSessionKey (sessionKey : Text) : Text := code.lower.toLowerCase (trimChars sessionKey)

structure ResolvedEntry (Json : Type) where
  normalizedKey : Text
  existing : Option (SessionEntry Json)
  legacyKeys : List Text

/-- The entry of a key, however it is spelled: of several the one that was updated last. -/
def resolveSessionStoreEntry (store : SessionStore Json) (sessionKey : Text) : ResolvedEntry Json :=
  let trimmedKey := trimChars sessionKey
  let normalizedKey := normalizeStoreSessionKey code trimmedKey
  let legacyKeys := if trimmedKey ≠ normalizedKey ∧ (store.lookup trimmedKey).isSome then [trimmedKey] else []
  let existing := store.lookup normalizedKey <|> if legacyKeys ≠ [] then store.lookup trimmedKey else none
  store.foldl
    (fun resolved (candidateKey, candidateEntry) =>
      if candidateKey = normalizedKey then resolved
      else if code.lower.toLowerCase candidateKey ≠ normalizedKey then resolved
      else
        { resolved with
          legacyKeys := OrderedSet.add resolved.legacyKeys candidateKey
          existing :=
            match resolved.existing with
            | none => some candidateEntry
            | some existing =>
              if existing.updatedAt.getD 0 < candidateEntry.updatedAt.getD 0 then some candidateEntry else some existing })
    ⟨normalizedKey, existing, legacyKeys⟩

/-- The entry of a key put in the place of what was resolved. -/
def ResolvedEntry.put (resolved : ResolvedEntry Json) (store : SessionStore Json) (next : SessionEntry Json) :
    SessionStore Json :=
  resolved.legacyKeys.foldl remove (assign store resolved.normalizedKey next)

-- ---
-- Metadata of ACP sessions
-- ---

def resolveMutableSessionStoreKey (store : SessionStore Json) (sessionKey : Text) : Option Text :=
  let trimmed := trimChars sessionKey
  if trimmed = [] then none
  else if (store.lookup trimmed).isSome then some trimmed
  else
    let normalized := normalizeStoreSessionKey code trimmed
    if (store.lookup normalized).isSome then some normalized
    else (store.map Prod.fst).find? fun key => normalizeStoreSessionKey code key = normalized

def collectAcpMetadataSnapshot (store : SessionStore Json) : List (Text × Json) :=
  store.filterMap fun member => member.2.acp.map fun acp => (member.1, acp)

def preserveExistingAcpMetadata (previousAcpByKey : List (Text × Json)) (nextStore : SessionStore Json)
    (allowDropSessionKeys : List Text) : SessionStore Json :=
  let allowDrop := allowDropSessionKeys.map (normalizeStoreSessionKey code)
  previousAcpByKey.foldl
    (fun nextStore (previousKey, previousAcp) =>
      if normalizeStoreSessionKey code previousKey ∈ allowDrop then nextStore
      else
        match resolveMutableSessionStoreKey code nextStore previousKey with
        | none => nextStore
        | some nextKey =>
          match nextStore.lookup nextKey with
          | none => nextStore
          | some nextEntry =>
            if nextEntry.acp.isSome then nextStore
            else assign nextStore nextKey { nextEntry with acp := some previousAcp })
    nextStore

-- ---
-- Maintenance
-- ---

inductive MaintenanceMode where
  | warn
  | enforce
  deriving DecidableEq

structure MaintenanceConfig where
  mode : MaintenanceMode
  pruneAfterMs : Int
  maxEntries : Nat
  rotateBytes : Nat

/-- `entry?.updatedAt != null && entry.updatedAt < cutoffMs` -/
def isStale (cutoffMs : Int) (entry : SessionEntry Json) : Bool := entry.updatedAt.any (· < cutoffMs)

def pruneStaleEntries (store : SessionStore Json) (maxAgeMs now : Int) : SessionStore Json :=
  store.filter fun member => !isStale (now - maxAgeMs) member.2

/-- Of two entries, the one that comes first was not updated earlier. -/
def updatedNoEarlier (a b : Text × SessionEntry Json) : Prop :=
  b.2.updatedAt.all fun bTime => a.2.updatedAt.any (bTime ≤ ·)

instance updatedNoEarlierDecidable : DecidableRel (@updatedNoEarlier Json) :=
  fun _ _ => inferInstanceAs (Decidable (_ = true))

def capEntryCount (store : SessionStore Json) (maxEntries : Nat) : SessionStore Json :=
  if store.length ≤ maxEntries then store
  else (((store.insertionSort updatedNoEarlier).drop maxEntries).map Prod.fst).foldl remove store

/-- What a save finds around it, besides the file and the caches. -/
structure SaveEnv (Json : Type) where
  skipMaintenance : Bool
  maintenance : MaintenanceConfig
  now : Int
  /-- The entries that the sweep of the disk budget evicts. -/
  evictForBudget : SessionStore Json → List Text
  /-- The store's own file goes with the transcripts, which is possible where it is called as one of them is. -/
  archivesStoreFile : SessionStore Json → Bool
  /-- The time of the file, should it be written. -/
  mtimeMs : Int
  cacheEnabled : Bool

-- ---
-- The file and the caches
-- ---

structure File where
  content : Text
  mtimeMs : Int
  deriving DecidableEq

def File.sizeBytes (file : File) : Nat := (file.content.map Char.utf8Size).sum

structure CachedStore (Json : Type) where
  store : SessionStore Json
  mtimeMs : Option Int
  sizeBytes : Option Nat

structure Caches (Json : Type) where
  object : Option (CachedStore Json)
  serialized : Option Text

def Caches.empty : Caches Json := ⟨none, none⟩

/-- A store that is cached with its text, if it has one. -/
def writeSessionStoreCache (caches : Caches Json) (store : SessionStore Json) (file : Option File) (serialized : Option Text) :
    Caches Json :=
  ⟨some ⟨store, file.map File.mtimeMs, file.map File.sizeBytes⟩, serialized <|> caches.serialized⟩

def readSessionStoreCache (caches : Caches Json) (file : Option File) : Option (SessionStore Json) × Caches Json :=
  match caches.object with
  | none => (none, caches)
  | some cached =>
    if file.map File.mtimeMs ≠ cached.mtimeMs ∨ file.map File.sizeBytes ≠ cached.sizeBytes then (none, .empty)
    else (some cached.store, caches)

/-- The store a file holds, with its text where it is one. -/
def readStoreFile (file : Option File) : SessionStore Json × Option Text :=
  match file.bind fun file => (code.parse file.content).map (·, file.content) with
  | none => ([], none)
  | some (store, raw) => (normalizeSessionStore code (applySessionStoreMigrations code store), some raw)

/-- `read` is the text that was read of the file, if it was read. -/
structure Loaded (Json : Type) where
  store : SessionStore Json
  caches : Caches Json
  read : Option (Option Text)

/-- How a store is loaded: a cached store may have expired. -/
structure LoadOptions where
  skipCache : Bool
  cacheEnabled : Bool
  expired : Bool

def loadStoreFile (useCache : Bool) (file : Option File) (caches : Caches Json) : Loaded Json :=
  let (store, serializedFromDisk) := readStoreFile code file
  let caches := { caches with serialized := serializedFromDisk }
  ⟨store, if useCache then writeSessionStoreCache caches store file serializedFromDisk else caches, some serializedFromDisk⟩

def loadSessionStore (opts : LoadOptions) (file : Option File) (caches : Caches Json) : Loaded Json :=
  if opts.skipCache = false ∧ opts.cacheEnabled then
    let caches := if opts.expired then { caches with object := none } else caches
    match readSessionStoreCache caches file with
    | (some store, caches) => ⟨store, caches, none⟩
    | (none, caches) => loadStoreFile code true file caches
  else loadStoreFile code false file caches

-- ---
-- Saving
-- ---

def rotateSessionFile (file : Option File) (maxBytes : Nat) : Option File := file.filter (·.sizeBytes ≤ maxBytes)

/-- The store and the file as maintenance leaves them. -/
def maintain (env : SaveEnv Json) (store : SessionStore Json) (file : Option File) : SessionStore Json × Option File :=
  if env.skipMaintenance ∨ env.maintenance.mode = .warn then (store, file)
  else
    let capped := capEntryCount (pruneStaleEntries store env.maintenance.pruneAfterMs env.now) env.maintenance.maxEntries
    let file := if env.archivesStoreFile store then none else rotateSessionFile file env.maintenance.rotateBytes
    ((env.evictForBudget capped).foldl remove capped, file)

def updateSessionStoreWriteCaches (cacheEnabled : Bool) (caches : Caches Json) (store : SessionStore Json) (file : Option File)
    (serialized : Text) : Caches Json :=
  let caches := { caches with serialized := some serialized }
  if cacheEnabled then writeSessionStoreCache caches store file (some serialized) else { caches with object := none }

/-- `left` is the store that maintenance has left. -/
structure Saved (Json : Type) where
  file : Option File
  caches : Caches Json
  left : SessionStore Json
  written : Bool

def saveSessionStoreUnlocked (env : SaveEnv Json) (store : SessionStore Json) (file : Option File) (caches : Caches Json) :
    Saved Json :=
  let (store, file) := maintain env (normalizeSessionStore code store) file
  let json := code.stringify store
  if caches.serialized = some json then
    ⟨file, updateSessionStoreWriteCaches env.cacheEnabled caches store file json, store, false⟩
  else
    let file := some ⟨json, env.mtimeMs⟩
    ⟨file, updateSessionStoreWriteCaches env.cacheEnabled caches store file json, store, true⟩

/-- `mutator` gives nothing when it throws. -/
structure Update (Json : Type) where
  mutator : SessionStore Json → Option (SessionStore Json)
  allowDropAcpMetaSessionKeys : List Text

/-- What an update makes of a store, before it is saved. -/
def Update.run (update : Update Json) (store : SessionStore Json) : Option (SessionStore Json) :=
  (update.mutator store).map fun next =>
    preserveExistingAcpMetadata code (collectAcpMetadataSnapshot store) next update.allowDropAcpMetaSessionKeys

end Store

end OpenClaw.Sessions
