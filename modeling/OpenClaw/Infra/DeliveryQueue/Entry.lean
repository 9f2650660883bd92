import OpenClaw.Infra.DeliveryQueue

/-!
# One entry of the delivery queue

What the files and the log say of one id. An operation on another id leaves
this view alone, and each operation on the id itself has one lemma that says
all it can do to the view.
-/

namespace OpenClaw.DeliveryQueue

open AtomicProgram

-- ---
-- The log
-- ---

def attempts (log : List Event) (id : String) : Nat :=
  log.count (.attempted id)

/-- An attempt is in progress until its outcome is on disk, a file operation
fails or the process crashes. -/
@[simp]
def attempting : List Event → String → Bool
  | [], _ => false
  | .attempted i :: log, id => i = id || attempting log id
  | .stored i :: log, id | .acknowledged i :: log, id | .failed i :: log, id =>
    i ≠ id && attempting log id
  | .faulted :: _, _ | .crashed :: _, _ => false

/-- The attempts that a crash or a failed file operation has cut off. -/
@[simp]
def interruptions : List Event → String → Nat
  | [], _ => 0
  | .faulted :: log, id | .crashed :: log, id => interruptions log id + (attempting log id).toNat
  | .stored _ :: log, id | .acknowledged _ :: log, id | .failed _ :: log, id
  | .attempted _ :: log, id => interruptions log id

/-- Whether the entry was attempted after it was acknowledged. -/
@[simp]
def replayed : List Event → String → Bool
  | [], _ => false
  | .attempted i :: log, id => (i = id && .acknowledged id ∈ log) || replayed log id
  | _ :: log, id => replayed log id

theorem replayed_eq_false {id : String} :
    replayed log id = false ↔
      ∀ newer older, log = newer ++ .attempted id :: older → .acknowledged id ∉ older := by
  induction log with
  | nil => simp [replayed]
  | cons e log ih =>
    have hsplit (newer older) : e :: log = newer ++ .attempted id :: older ↔
        newer = [] ∧ e = .attempted id ∧ log = older ∨
          ∃ newer', newer = e :: newer' ∧ log = newer' ++ .attempted id :: older := by
      cases newer <;> simp [eq_comm]
    have hcons : (∀ newer older, e :: log = newer ++ .attempted id :: older → .acknowledged id ∉ older) ↔
        (e = .attempted id → .acknowledged id ∉ log) ∧ replayed log id = false := by
      simp only [hsplit, ih]
      constructor
      · exact fun h => ⟨fun he => h [] log (.inl ⟨rfl, he, rfl⟩),
          fun newer older hl => h (e :: newer) older (.inr ⟨newer, rfl, hl⟩)⟩
      · rintro ⟨hhead, htail⟩ newer older (⟨-, he, rfl⟩ | ⟨newer', -, hl⟩)
        · exact hhead he
        · exact htail newer' older hl
    rw [hcons]
    cases e <;> simp [replayed]

structure History where
  stored : Bool
  acknowledged : Bool
  attempts : Nat
  interruptions : Nat
  attempting : Bool
  replayed : Bool

def history (id : String) (log : List Event) : History where
  stored := .stored id ∈ log
  acknowledged := .acknowledged id ∈ log
  attempts := attempts log id
  interruptions := interruptions log id
  attempting := attempting log id
  replayed := replayed log id

/-- A crash or a failed file operation. -/
def History.interrupt (h : History) : History :=
  { h with interruptions := h.interruptions + h.attempting.toNat, attempting := false }

def History.attempt (h : History) : History :=
  { h with
    attempts := h.attempts + 1, attempting := true, replayed := h.acknowledged || h.replayed }

@[simp] theorem history_stored (id : String) (log) :
    history id (.stored id :: log) = { history id log with stored := true, attempting := false } := by
  simp [history, attempts]

@[simp] theorem history_acknowledged (id : String) (log) :
    history id (.acknowledged id :: log) =
      { history id log with acknowledged := true, attempting := false } := by
  simp [history, attempts]

@[simp] theorem history_failed (id : String) (log) :
    history id (.failed id :: log) = { history id log with attempting := false } := by
  simp [history, attempts]

@[simp] theorem history_attempted (id : String) (log) :
    history id (.attempted id :: log) = (history id log).attempt := by
  simp [history, attempts, History.attempt]

@[simp] theorem history_faulted (id : String) (log) :
    history id (.faulted :: log) = (history id log).interrupt := by
  simp [history, attempts, History.interrupt]

@[simp] theorem history_crashed (id : String) (log) :
    history id (.crashed :: log) = (history id log).interrupt := by
  simp [history, attempts, History.interrupt]

theorem History.interrupt_of_idle {h : History} (hi : h.attempting = false) : h.interrupt = h := by
  cases h
  cases hi
  rfl

/-- An event about another id. -/
theorem history_other {id i : String} (hne : i ≠ id) (he : e.id? = some i) :
    history id (e :: log) = history id log := by
  cases e <;> cases he <;>
    simp [history, attempts, hne, Ne.symm hne]

-- ---
-- The view
-- ---

structure View (P : Type) (id : String) where
  entry : Option (Content P (.json id))
  tmp : Nat → Option (Content P (.json id))
  inFailed : Bool
  history : History

def view (id : String) (w : World P) : View P id where
  entry := w.files.lookup (.json id)
  tmp pid := (w.files.lookup (.tmp id pid)).map (·.move rfl)
  inFailed := .failed id ∈ w.files
  history := history id w.log

variable {id : String}

namespace View

/-- A crash or a failed file operation. -/
def interrupt (v : View P id) : View P id :=
  { v with history := v.history.interrupt }

def attempt (v : View P id) : View P id :=
  { v with history := v.history.attempt }

/-- A process writes its temporary file. -/
def write (v : View P id) (pid : Nat) (content : Content P (.json id)) : View P id :=
  { v with tmp := Function.update v.tmp pid (some content) }

/-- A process renames its temporary file to the entry's. -/
def store (v : View P id) (pid : Nat) (content : Content P (.json id)) : View P id :=
  { v with
    entry := some content
    tmp := Function.update v.tmp pid none
    history := { v.history with stored := true, attempting := false } }

def acknowledge (v : View P id) : View P id :=
  { v with entry := none, history := { v.history with acknowledged := true, attempting := false } }

def moveToFailed (v : View P id) : View P id :=
  { v with entry := none, inFailed := true, history := { v.history with attempting := false } }

end View

theorem view_congr {w w' : World P}
    (hfiles : ∀ path : Path, path.id = id → path ≠ .delivered id →
      w'.files.lookup path = w.files.lookup path)
    (hlog : history id w'.log = history id w.log) : view id w' = view id w := by
  have hfailed : (.failed id ∈ w'.files) ↔ .failed id ∈ w.files := by
    rw [← AList.lookup_isSome, ← AList.lookup_isSome, hfiles (.failed id) rfl (by simp)]
  simp only [view, View.mk.injEq]
  exact ⟨hfiles _ rfl (by simp), funext fun pid => by rw [hfiles (.tmp id pid) rfl (by simp)],
    by simp [hfailed], hlog⟩

/-- The id whose view an operation may change. -/
@[simp]
def Op.about : Op P → Option String
  | .writeFile path _ | .rename path _ _ => some path.id
  | .unlink (.delivered _) => none
  | .unlink path => some path.id
  | .deliver id _ => some id
  | .now | .mkdir _ | .readdir | .stat _ | .readFile _ => none

theorem fault_view (id : String) {w : World P} {answer : α} (h : w.fault answer err = some (a, w')) :
    a = answer ∧ view id w' = (view id w).interrupt := by
  simp only [World.fault, Option.ite_none_left_eq_some, Option.some.injEq, Prod.mk.injEq] at h
  obtain ⟨-, rfl, rfl⟩ := h
  exact ⟨rfl, congrArg (fun h => { view id w with history := h }) (history_faulted id w.log)⟩

attribute [local simp] World.perform

/-- An operation on something else leaves the entry alone, but cuts off an
attempt in progress when it fails. -/
theorem perform_other {w : World P} (ho : o.about ≠ some id)
    (h : w.perform o c = some (a, w')) :
    view id w' = view id w ∨ view id w' = (view id w).interrupt := by
  have hother (path : Path) (hp : path.id = id) (dst : Path) (hd : dst.id ≠ id) : path ≠ dst :=
    fun heq => hd (heq ▸ hp)
  cases o with
  | now =>
    cases c <;> simp only [World.perform, reduceCtorEq, Option.some.injEq, Prod.mk.injEq] at h
    exact .inl (h.2 ▸ rfl)
  | mkdir dir =>
    cases c <;> simp only [World.perform, reduceCtorEq, Option.some.injEq, Prod.mk.injEq] at h
    · exact .inl (h.2 ▸ rfl)
    · exact .inr (fault_view id h).2
  | writeFile path content =>
    have hne : path.id ≠ id := fun heq => ho (congrArg some heq)
    cases c <;> simp only [World.perform, reduceCtorEq, Option.some.injEq, Prod.mk.injEq] at h
    · obtain ⟨-, rfl⟩ := h
      exact .inl (view_congr (fun p hp _ => AList.lookup_insert_ne (hother p hp path hne)) rfl)
    · exact .inr (fault_view id h).2
  | rename src dst hid =>
    have hne : src.id ≠ id := fun heq => ho (congrArg some heq)
    cases c <;> simp only [World.perform, reduceCtorEq] at h
    · split at h
      · rename_i m hm
        cases h
        simp only [World.rename, Option.map_eq_some_iff] at hm
        obtain ⟨content, -, rfl⟩ := hm
        refine .inl (view_congr (fun p hp _ => ?_) ?_)
        · rw [AList.lookup_insert_ne (hother p hp dst (hid ▸ hne)),
            AList.lookup_erase_ne (hother p hp src hne)]
        · have hevents : ∀ e ∈ World.renamed src dst, e.id? = some src.id := by
            cases src <;> cases dst <;> simp [World.renamed, Path.id, Event.id?]
          simp only [World.renamed] at hevents ⊢
          split at hevents <;> first
            | rfl
            | exact history_other hne (hevents _ List.mem_cons_self)
      · cases h
        exact .inl rfl
    · exact .inr (fault_view id h).2
  | unlink path =>
    cases c <;> simp only [World.perform, reduceCtorEq] at h
    · split at h
      · cases h
        refine .inl (view_congr (fun p hp hd => AList.lookup_erase_ne fun heq => ?_) rfl)
        subst heq
        cases p with
        | delivered i => exact hd (congrArg _ hp)
        | json i => exact ho (congrArg some hp)
        | tmp i pid => exact ho (congrArg some hp)
        | failed i => exact ho (congrArg some hp)
      · cases h
        exact .inl rfl
    · exact .inr (fault_view id h).2
  | readdir =>
    cases c <;> simp only [World.perform, reduceCtorEq, Option.ite_none_right_eq_some,
      Option.some.injEq, Prod.mk.injEq] at h
    · exact .inl (h.2.2 ▸ rfl)
    · exact .inl (h.2.2 ▸ rfl)
    · exact .inr (fault_view id h).2
  | stat path =>
    cases c <;> simp only [World.perform, reduceCtorEq] at h
    · split at h <;> cases h <;> exact .inl rfl
    · exact .inr (fault_view id h).2
  | readFile path =>
    cases c <;> simp only [World.perform, reduceCtorEq] at h
    · split at h <;> cases h <;> exact .inl rfl
    · exact .inr (fault_view id h).2
  | deliver i params =>
    have hne : i ≠ id := fun heq => ho (congrArg some heq)
    cases c <;> simp only [World.perform, reduceCtorEq, Option.some.injEq, Prod.mk.injEq] at h
    all_goals
      obtain ⟨-, rfl⟩ := h
      exact .inl (view_congr (fun _ _ _ => rfl) (history_other hne rfl))

/-- Nothing happens to the entry, unless one of its attempts is in progress. -/
def Quiet (id : String) (w w' : World P) : Prop :=
  (view id w).history.attempting = false → view id w' = view id w

theorem perform_quiet {w : World P} (ho : o.about ≠ some id)
    (h : w.perform o c = some (a, w')) : Quiet id w w' := by
  intro hidle
  rcases perform_other ho h with hv | hv
  · exact hv
  · rw [hv, View.interrupt, History.interrupt_of_idle hidle]

-- ---
-- Operations on the entry
-- ---

variable {w w' : World P}

theorem perform_now (h : w.perform .now c = some (a, w')) : w' = w := by
  cases c <;> simp only [World.perform, reduceCtorEq, Option.some.injEq, Prod.mk.injEq] at h
  exact h.2.symm

theorem perform_mkdir (id : String) (h : w.perform (.mkdir dir) c = some (a, w')) :
    a = .ok () ∧ w' = w ∨ (∃ err, a = .error err) ∧ view id w' = (view id w).interrupt := by
  cases c <;> simp only [World.perform, reduceCtorEq, Option.some.injEq, Prod.mk.injEq] at h
  · exact .inl ⟨h.1.symm, h.2.symm⟩
  · exact .inr ⟨⟨_, (fault_view id h).1⟩, (fault_view id h).2⟩

theorem perform_readFile (h : w.perform (.readFile (.json id)) c = some (a, w')) :
    (∃ content, a = .ok content ∧ (view id w).entry = some content ∧ w' = w) ∨
      (∃ err, a = .error err) ∧ (view id w).entry = none ∧ w' = w ∨
      (∃ err, a = .error err) ∧ view id w' = (view id w).interrupt := by
  cases c <;> simp only [World.perform, reduceCtorEq] at h
  · split at h
    · rename_i content hentry
      cases h
      exact .inl ⟨content, rfl, hentry, rfl⟩
    · rename_i hentry
      cases h
      exact .inr (.inl ⟨⟨_, rfl⟩, hentry, rfl⟩)
  · exact .inr (.inr ⟨⟨_, (fault_view id h).1⟩, (fault_view id h).2⟩)

theorem perform_writeFile {content : Content P (.tmp id pid)}
    (h : w.perform (.writeFile (.tmp id pid) content) c = some (a, w')) :
    a = .ok () ∧ view id w' = (view id w).write pid (content.move rfl) ∨
      (∃ err, a = .error err) ∧ view id w' = (view id w).interrupt := by
  cases c <;> simp only [World.perform, reduceCtorEq, Option.some.injEq, Prod.mk.injEq] at h
  · obtain ⟨rfl, rfl⟩ := h
    refine .inl ⟨rfl, ?_⟩
    simp only [view, World.setFiles, View.write, View.mk.injEq]
    refine ⟨AList.lookup_insert_ne (by simp), funext fun p => ?_, by simp, trivial⟩
    by_cases hp : p = pid
    · subst hp
      simp [AList.lookup_insert]
    · rw [AList.lookup_insert_ne (by simpa using hp), Function.update_of_ne hp]
  · exact .inr ⟨⟨_, (fault_view id h).1⟩, (fault_view id h).2⟩

theorem rename_view (id : String) {content : Content P src} (hentry : w.files.lookup src = some content)
    {hid : src.id = dst.id} (h : w.perform (.rename src dst hid) c = some (a, w')) :
    a = .ok () ∧ w' = { w with
        files := (w.files.erase src).insert dst (content.move hid)
        log := World.renamed src dst ++ w.log } ∨
      (∃ err, a = .error err) ∧ view id w' = (view id w).interrupt := by
  cases c <;> simp only [World.perform, reduceCtorEq] at h
  · simp only [World.rename, hentry, Option.map_some, Option.some.injEq, Prod.mk.injEq] at h
    exact .inl ⟨h.1.symm, h.2.symm⟩
  · exact .inr ⟨⟨_, (fault_view id h).1⟩, (fault_view id h).2⟩

theorem rename_missing (id : String) (hentry : w.files.lookup src = none) {hid : src.id = dst.id}
    (h : w.perform (.rename src dst hid) c = some (a, w')) :
    a = .error enoent ∧ w' = w ∨
      (∃ err, a = .error err) ∧ view id w' = (view id w).interrupt := by
  cases c <;> simp only [World.perform, reduceCtorEq] at h
  · simp only [World.rename, hentry, Option.map_none, Option.some.injEq, Prod.mk.injEq] at h
    exact .inl ⟨h.1.symm, h.2.symm⟩
  · exact .inr ⟨⟨_, (fault_view id h).1⟩, (fault_view id h).2⟩

theorem perform_store {content : Content P (.json id)} (htmp : (view id w).tmp pid = some content)
    (h : w.perform (.rename (.tmp id pid) (.json id) rfl) c = some (a, w')) :
    a = .ok () ∧ view id w' = (view id w).store pid content ∨
      (∃ err, a = .error err) ∧ view id w' = (view id w).interrupt := by
  obtain ⟨content', hlookup, rfl⟩ := Option.map_eq_some_iff.mp htmp
  refine (rename_view id hlookup h).imp_left fun ⟨ha, hw⟩ => ⟨ha, ?_⟩
  subst hw
  simp only [view, View.store, View.mk.injEq]
  refine ⟨AList.lookup_insert _, funext fun p => ?_, by simp, history_stored id w.log⟩
  rw [AList.lookup_insert_ne (by simp)]
  by_cases hp : p = pid
  · subst hp
    simp
  · rw [AList.lookup_erase_ne (by simpa using hp), Function.update_of_ne hp]

theorem perform_acknowledge {content : Content P (.json id)}
    (hentry : (view id w).entry = some content)
    (h : w.perform (.rename (.json id) (.delivered id) rfl) c = some (a, w')) :
    a = .ok () ∧ view id w' = (view id w).acknowledge ∨
      (∃ err, a = .error err) ∧ view id w' = (view id w).interrupt := by
  refine (rename_view id hentry h).imp_left fun ⟨ha, hw⟩ => ⟨ha, ?_⟩
  subst hw
  simp only [view, View.acknowledge, View.mk.injEq]
  refine ⟨?_, funext fun p => ?_, by simp, history_acknowledged id w.log⟩
  · rw [AList.lookup_insert_ne (by simp), AList.lookup_erase]
  · rw [AList.lookup_insert_ne (by simp), AList.lookup_erase_ne (by simp)]

theorem perform_moveToFailed {content : Content P (.json id)}
    (hentry : (view id w).entry = some content)
    (h : w.perform (.rename (.json id) (.failed id) rfl) c = some (a, w')) :
    a = .ok () ∧ view id w' = (view id w).moveToFailed ∨
      (∃ err, a = .error err) ∧ view id w' = (view id w).interrupt := by
  refine (rename_view id hentry h).imp_left fun ⟨ha, hw⟩ => ⟨ha, ?_⟩
  subst hw
  simp only [view, View.moveToFailed, View.mk.injEq]
  refine ⟨?_, funext fun p => ?_, by simp, history_failed id w.log⟩
  · rw [AList.lookup_insert_ne (by simp), AList.lookup_erase]
  · rw [AList.lookup_insert_ne (by simp), AList.lookup_erase_ne (by simp)]

theorem perform_deliver (h : w.perform (.deliver id params) c = some (a, w')) :
    view id w' = (view id w).attempt := by
  cases c <;> simp only [World.perform, reduceCtorEq, Option.some.injEq, Prod.mk.injEq] at h
  all_goals
    obtain ⟨-, rfl⟩ := h
    exact congrArg (fun h => { view id w with history := h }) (history_attempted id w.log)

end OpenClaw.DeliveryQueue
