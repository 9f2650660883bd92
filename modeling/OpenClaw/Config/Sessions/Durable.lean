import OpenClaw.Config.Sessions.Store
import OpenClaw.Lib.Transition

/-!
# Saves of the session store

A process loads, saves and updates the store while others write the file in between. The
cached text is the one the process last read of the file or wrote to it, so a save that is
skipped leaves the store in the file unless the file has gone, or has changed, since.
-/

namespace OpenClaw.Sessions

open Js Members Transition

variable {Json : Type} {code : Code Json} {file : Option File} {caches : Caches Json} {store left : SessionStore Json}

-- ---
-- Operations of a process
-- ---

/-- What a process does with the file: it reads the text of a store, or of none, or writes one. -/
inductive Access where
  | read (text : Option Text)
  | wrote (text : Text)

def Access.text : Access → Option Text
  | .read text => text
  | .wrote text => some text

/-- The text of a store that was last read or written. -/
def knownText (accesses : List Access) : Option Text := accesses.getLast?.bind Access.text

structure World (Json : Type) where
  file : Option File
  caches : Caches Json
  accesses : List Access

variable {w w' : World Json} {env : SaveEnv Json}

/-- `otherWrites` is by another process. -/
inductive Op (Json : Type) where
  | loadSessionStore (opts : LoadOptions)
  | saveSessionStore (store : SessionStore Json) (env : SaveEnv Json)
  | updateSessionStore (update : Update Json) (env : SaveEnv Json)
  | otherWrites (file : Option File)

def World.load (code : Code Json) (w : World Json) (opts : LoadOptions) : SessionStore Json × World Json :=
  let loaded := loadSessionStore code opts w.file w.caches
  (loaded.store, { w with caches := loaded.caches, accesses := w.accesses ++ (loaded.read.map Access.read).toList })

/-- A save, with the store that maintenance has left. -/
def World.save (code : Code Json) (w : World Json) (env : SaveEnv Json) (store : SessionStore Json) :
    World Json × SessionStore Json :=
  let saved := saveSessionStoreUnlocked code env store w.file w.caches
  (⟨saved.file, saved.caches, if saved.written then w.accesses ++ [.wrote (code.stringify saved.left)] else w.accesses⟩,
    saved.left)

def skipCache : LoadOptions := ⟨true, true, false⟩

/-- Where an operation that saves comes to it: what it saves, with what it has read. -/
def Op.atSave (code : Code Json) (w : World Json) : Op Json → Option (SessionStore Json × SaveEnv Json × World Json)
  | .saveSessionStore store env => some (store, env, w)
  | .updateSessionStore update env =>
    let (store, w) := w.load code skipCache
    (update.run code store).map fun next => (next, env, w)
  | _ => none

/-- An operation, with the store that was left by the maintenance of a save that resolves. -/
def perform (code : Code Json) (w : World Json) (op : Op Json) : World Json × Option (SessionStore Json) :=
  match op.atSave code w with
  | some (store, env, w) =>
    let (w, left) := w.save code env store
    (w, some left)
  | none =>
    match op with
    | .loadSessionStore opts => ((w.load code opts).2, none)
    | .updateSessionStore _ _ => ((w.load code skipCache).2, none)
    | .otherWrites file => ({ w with file }, none)
    | .saveSessionStore _ _ => (w, none)

def storeSystem (code : Code Json) : System (World Json) (Op Json) where
  init w := w.caches = .empty ∧ w.accesses = []
  step w op := some (perform code w op).1

-- ---
-- The cached text
-- ---

/-- The cached text is the one that was last read or written. -/
def World.Known (w : World Json) : Prop := w.caches.serialized = knownText w.accesses

theorem loadStoreFile_serialized (code : Code Json) (useCache : Bool) (file : Option File) (caches : Caches Json) :
    (loadStoreFile code useCache file caches).caches.serialized = (readStoreFile code file).2 := by
  cases useCache with
  | false => rfl
  | true =>
    unfold loadStoreFile writeSessionStoreCache
    obtain ⟨store, serializedFromDisk⟩ := readStoreFile code file
    cases serializedFromDisk <;> rfl

theorem loadStoreFile_read (code : Code Json) (useCache : Bool) (file : Option File) (caches : Caches Json) :
    (loadStoreFile code useCache file caches).read = some (readStoreFile code file).2 := rfl

/-- A load reads the file and caches its text, or leaves the text that is cached. -/
theorem loadSessionStore_serialized (code : Code Json) (opts : LoadOptions) (file : Option File) (caches : Caches Json) :
    (loadSessionStore code opts file caches).caches.serialized =
      (loadSessionStore code opts file caches).read.getD caches.serialized := by
  unfold loadSessionStore
  split
  · dsimp only
    have hdropped : (if opts.expired then { caches with object := none } else caches).serialized = caches.serialized := by
      split <;> rfl
    split
    case h_1 cached caches' hread =>
      unfold readSessionStoreCache at hread
      split at hread
      · cases hread
      · split at hread
        · cases hread
        · cases hread
          exact hdropped
    case h_2 => rw [loadStoreFile_serialized, loadStoreFile_read]; rfl
  · rw [loadStoreFile_serialized, loadStoreFile_read]
    rfl

theorem knownText_append (accesses : List Access) (access : Access) :
    knownText (accesses ++ [access]) = access.text := by
  rw [knownText, List.getLast?_concat]
  rfl

theorem World.Known.load (h : w.Known) (code : Code Json) (opts : LoadOptions) : (w.load code opts).2.Known := by
  unfold World.Known World.load
  dsimp only
  rw [loadSessionStore_serialized]
  cases (loadSessionStore code opts w.file w.caches).read with
  | none =>
    rw [Option.map_none, Option.toList_none, List.append_nil]
    exact h
  | some text =>
    rw [Option.map_some, Option.toList_some, knownText_append]
    rfl

theorem writeCaches_serialized (cacheEnabled : Bool) (caches : Caches Json) (store : SessionStore Json) (file : Option File)
    (serialized : Text) : (updateSessionStoreWriteCaches cacheEnabled caches store file serialized).serialized = some serialized := by
  unfold updateSessionStoreWriteCaches writeSessionStoreCache
  dsimp only
  split <;> rfl

theorem World.Known.save (h : w.Known) (code : Code Json) (env : SaveEnv Json) (store : SessionStore Json) :
    (w.save code env store).1.Known := by
  unfold World.Known World.save saveSessionStoreUnlocked
  dsimp only
  split
  case isTrue hsame =>
    dsimp only
    rw [writeCaches_serialized, if_neg Bool.false_ne_true, ← h, hsame]
  case isFalse =>
    dsimp only
    rw [writeCaches_serialized, if_pos rfl, knownText_append]
    rfl

theorem Op.known_atSave {op : Op Json} (h : w.Known) (hat : op.atSave code w = some (store, env, before)) : before.Known := by
  cases op with
  | saveSessionStore => cases hat; exact h
  | updateSessionStore update env =>
    obtain ⟨next, -, hnext⟩ := Option.map_eq_some_iff.1 hat
    cases hnext
    exact h.load code skipCache
  | loadSessionStore => cases hat
  | otherWrites => cases hat

theorem World.Known.perform (h : w.Known) (code : Code Json) (op : Op Json) : (perform code w op).1.Known := by
  unfold Sessions.perform
  split
  case h_1 store env before hat => exact (Op.known_atSave h hat).save code env store
  case h_2 =>
    cases op with
    | loadSessionStore opts => exact h.load code opts
    | updateSessionStore => exact h.load code skipCache
    | otherWrites => exact h
    | saveSessionStore => exact h

theorem known_of_reachable (h : (storeSystem code).Reachable w) : w.Known := by
  refine h.invariant ?_ ?_
  · rintro w ⟨hcaches, haccesses⟩
    rw [World.Known, hcaches, haccesses]
    rfl
  · intro w op w' hknown hstep
    obtain rfl := Option.some.inj hstep
    exact hknown.perform code op

-- ---
-- Durability
-- ---

/-- Maintenance moves the file away: it goes with the transcripts, or is rotated. -/
def SaveEnv.Moves (env : SaveEnv Json) (store : SessionStore Json) (file : Option File) : Prop :=
  env.skipMaintenance = false ∧ env.maintenance.mode = .enforce ∧
    (env.archivesStoreFile store ∨ file.any fun current => env.maintenance.rotateBytes < current.sizeBytes)

instance (env : SaveEnv Json) (store : SessionStore Json) (file : Option File) : Decidable (env.Moves store file) :=
  inferInstanceAs (Decidable (_ ∧ _))

theorem maintain_file (env : SaveEnv Json) (store : SessionStore Json) (file : Option File) (text : Text) :
    (maintain env store file).2.map File.content = some text ↔ file.map File.content = some text ∧ ¬ env.Moves store file := by
  unfold maintain SaveEnv.Moves
  cases hmode : env.maintenance.mode with
  | warn => simp
  | enforce =>
    cases hskip : env.skipMaintenance with
    | true => simp
    | false =>
      cases harchives : env.archivesStoreFile store with
      | true => simp
      | false =>
        cases file with
        | none => simp [rotateSessionFile]
        | some current =>
          simp only [rotateSessionFile, Option.filter]
          grind

/-- Where what is to be saved is the text that was last read or written, the file holds it still,
and maintenance does not move it away. -/
def Op.Grounded (code : Code Json) (w : World Json) (op : Op Json) : Prop :=
  ∀ store env before, op.atSave code w = some (store, env, before) →
    let kept := normalizeSessionStore code store
    knownText before.accesses = some (code.stringify (maintain env kept before.file).1) →
      before.file.map File.content = knownText before.accesses ∧ ¬ env.Moves kept before.file

theorem save_file (h : w.Known) (code : Code Json) (env : SaveEnv Json) (store : SessionStore Json) :
    (w.save code env store).1.file.map File.content = some (code.stringify (w.save code env store).2) ↔
      (knownText w.accesses = some (code.stringify (maintain env (normalizeSessionStore code store) w.file).1) →
        w.file.map File.content = knownText w.accesses ∧ ¬ env.Moves (normalizeSessionStore code store) w.file) := by
  unfold World.save saveSessionStoreUnlocked
  dsimp only
  rw [h]
  split
  case isTrue hsame =>
    dsimp only
    rw [maintain_file, hsame]
    exact ⟨fun hkept _ => hkept, fun hkept => hkept rfl⟩
  case isFalse hother => exact ⟨fun _ hsame => absurd hsame hother, fun _ => rfl⟩

/-- Behind a save that resolves, in whatever run, the file holds the store that maintenance has left
exactly where the save was grounded. -/
theorem save_durable_iff (h : (storeSystem code).Reachable w) (hleft : (perform code w op).2 = some left) :
    (perform code w op).1.file.map File.content = some (code.stringify left) ↔ op.Grounded code w := by
  have hknown := known_of_reachable h
  unfold perform at hleft ⊢
  split at hleft
  case h_1 store env before hat =>
    obtain rfl := Option.some.inj hleft
    dsimp only
    rw [save_file (Op.known_atSave hknown hat)]
    constructor
    · intro hkept store' env' before' hat'
      obtain ⟨rfl, rfl, rfl⟩ : store = store' ∧ env = env' ∧ before = before' := by simpa [hat] using hat'
      exact hkept
    · exact fun hgrounded => hgrounded store env before hat
  case h_2 => cases op <;> cases hleft

theorem readStoreFile_text (h : (readStoreFile code file).2 = some text) : file.map File.content = some text := by
  unfold readStoreFile at h
  split at h
  · cases h
  case h_2 store raw hraw =>
    obtain ⟨current, rfl, hparsed⟩ := Option.bind_eq_some_iff.1 hraw
    obtain ⟨parsed, -, hpair⟩ := Option.map_eq_some_iff.1 hparsed
    obtain ⟨rfl, rfl⟩ := Prod.mk.inj hpair
    exact h

-- ---
-- A store that is rotated away
-- ---

/-- The text of a store without entries is that of an object without members. -/
def plainCode : Code Unit where
  lower := .simple
  parse text := if text = "{}".toList then some [] else none
  stringify store := '{' :: store.flatMap Prod.fst ++ ['}']
  migrateEntry := id
  normalizeEntry := id

def plainEnv (mode : MaintenanceMode) : SaveEnv Unit where
  skipMaintenance := false
  maintenance := ⟨mode, 1000, 500, 1⟩
  now := 0
  evictForBudget _ := []
  archivesStoreFile _ := false
  mtimeMs := 1
  cacheEnabled := true

def plainUpdate (mode : MaintenanceMode) : Op Unit := .updateSessionStore ⟨some, []⟩ (plainEnv mode)

/-- A file that another process has written. -/
def plainWorld : World Unit := ⟨some ⟨"{}".toList, 0⟩, .empty, []⟩

theorem save_durable_iff_sample :
    (perform plainCode plainWorld (plainUpdate .warn)).1.file.map File.content = some (plainCode.stringify []) ↔
      (plainUpdate .warn).Grounded plainCode plainWorld :=
  save_durable_iff (.init ⟨rfl, rfl⟩) (by decide)

/-- An update that changes nothing can leave no file. -/
theorem not_save_durable : ¬ ∀ (w : World Unit) (op : Op Unit) (left : SessionStore Unit), (storeSystem plainCode).Reachable w →
    (perform plainCode w op).2 = some left →
      (perform plainCode w op).1.file.map File.content = some (plainCode.stringify left) := by
  intro hall
  have hfile := hall plainWorld (plainUpdate .enforce) [] (.init ⟨rfl, rfl⟩) (by decide)
  have hgone : (perform plainCode plainWorld (plainUpdate .enforce)).1.file = none := by decide
  rw [hgone] at hfile
  cases hfile

end OpenClaw.Sessions
