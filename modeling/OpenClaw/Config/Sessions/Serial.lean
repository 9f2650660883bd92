import OpenClaw.Config.Sessions.LockQueue

/-!
# No update is lost

In every run a process has one drain at most, and settles its tasks in the order of the
calls, each once. The file holds what the calls make of it one after another, in the order of
the lock, as long as a store that is taken from a cache is the one the file holds.
-/

namespace OpenClaw.Sessions

open Js Members Transition

variable {Json : Type} {Proc : Type} [DecidableEq Proc] {code : Code Json} {file file₀ : Option File}

-- ---
-- One process
-- ---

section Process

variable {p : Process Json}

def Process.pending (p : Process Json) : List (Task Json) := p.queue.elim [] LockQueue.pending

/-- One drain as long as there is a queue, and the tasks in the order of the calls. -/
structure Process.Orderly (p : Process Json) : Prop where
  one : (p.queue = none ∧ p.drains = []) ∨
    ∃ queue drain, p.queue = some queue ∧ queue.draining = true ∧ p.drains = [drain]
  order : p.called = p.settled.map Prod.fst ++ p.drains.map Drain.task ++ p.pending

theorem Process.Orderly.alone (h : p.Orderly) (hdrain : p.drains[i]? = some drain) : i = 0 ∧ p.drains = [drain] := by
  rcases h.one with ⟨-, hnone⟩ | ⟨queue, other, -, -, hone⟩
  · rw [hnone] at hdrain
    cases hdrain
  · rw [hone] at hdrain ⊢
    cases i with
    | zero => exact ⟨rfl, congrArg (fun drain => [drain]) (Option.some.inj hdrain)⟩
    | succ i => cases hdrain

/-- A loop that goes on, with no other. -/
theorem Process.orderly_drainLoop {queue : LockQueue Json} (hdrains : p.drains = []) (hqueue : p.queue = some queue)
    (hdraining : queue.draining = true) (horder : p.called = p.settled.map Prod.fst ++ queue.pending) : p.drainLoop.Orderly := by
  unfold drainLoop
  rw [hqueue]
  dsimp only
  split
  case h_1 task pending hpending =>
    refine ⟨.inr ⟨_, _, rfl, hdraining, by rw [hdrains]; rfl⟩, ?_⟩
    dsimp only
    rw [horder, hpending, hdrains]
    simp [Process.pending]
  case h_2 hpending =>
    refine ⟨.inl ⟨rfl, hdrains⟩, ?_⟩
    dsimp only
    rw [horder, hpending, hdrains]
    simp [Process.pending]

theorem Process.Orderly.call (h : p.Orderly) (task : Task Json) : (p.withSessionStoreLock task).Orderly := by
  have horder := h.order
  unfold withSessionStoreLock drainSessionStoreLockQueue
  dsimp only
  rcases h.one with ⟨hqueue, hdrains⟩ | ⟨queue, drain, hqueue, hdraining, hdrains⟩
  · rw [hqueue]
    dsimp only [Option.getD_none]
    rw [if_neg Bool.false_ne_true]
    refine orderly_drainLoop hdrains rfl rfl ?_
    rw [Process.pending, hqueue, hdrains] at horder
    dsimp only
    rw [horder]
    simp
  · rw [hqueue]
    dsimp only [Option.getD_some]
    rw [if_pos hdraining]
    refine ⟨.inr ⟨_, drain, rfl, hdraining, hdrains⟩, ?_⟩
    rw [Process.pending, hqueue] at horder
    dsimp only [Process.pending, Option.elim_some]
    rw [horder]
    simp

theorem Process.Orderly.settle (h : p.Orderly) (hdrain : p.drains[i]? = some drain) (succeeded : Bool) :
    (p.settle i drain.task succeeded).Orderly := by
  obtain ⟨rfl, hone⟩ := h.alone hdrain
  have horder := h.order
  rcases h.one with ⟨-, hnone⟩ | ⟨queue, other, hqueue, hdraining, -⟩
  · rw [hnone] at hone
    cases hone
  · refine orderly_drainLoop ?_ hqueue hdraining ?_
    · rw [hone]
      rfl
    · dsimp only
      rw [horder, Process.pending, hqueue, hone]
      simp

theorem Process.Orderly.setStage (h : p.Orderly) (hdrain : p.drains[i]? = some drain) (stage : Stage Json) :
    (p.setStage i drain stage).Orderly := by
  obtain ⟨rfl, hone⟩ := h.alone hdrain
  have horder := h.order
  rcases h.one with ⟨-, hnone⟩ | ⟨queue, other, hqueue, hdraining, -⟩
  · rw [hnone] at hone
    cases hone
  · refine ⟨.inr ⟨queue, _, hqueue, hdraining, by rw [Process.setStage, hone]; rfl⟩, ?_⟩
    unfold Process.setStage Process.pending
    dsimp only
    rw [horder, hone, Process.pending]
    rfl

theorem Process.drainLoop_caches (p : Process Json) : p.drainLoop.caches = p.caches := by
  unfold drainLoop
  split
  · rfl
  · split <;> rfl

theorem Process.call_caches (p : Process Json) (task : Task Json) : (p.withSessionStoreLock task).caches = p.caches := by
  unfold withSessionStoreLock drainSessionStoreLockQueue
  dsimp only
  split
  · rfl
  · exact drainLoop_caches _

theorem Process.Orderly.setCaches (h : p.Orderly) (caches : Caches Json) : { p with caches }.Orderly := ⟨h.one, h.order⟩

/-- A task that has the lock. -/
def Stage.Holds : Stage Json → Prop
  | .acquiring => False
  | _ => True

theorem Process.acquiring_of_drainLoop (hdrains : p.drains = []) (hdrain : drain ∈ p.drainLoop.drains) :
    ¬ drain.stage.Holds := by
  unfold drainLoop at hdrain
  split at hdrain
  · rw [hdrains] at hdrain
    cases hdrain
  · split at hdrain
    · rw [hdrains] at hdrain
      obtain rfl := List.mem_singleton.1 hdrain
      exact id
    · rw [hdrains] at hdrain
      cases hdrain

/-- A call starts nothing that has the lock. -/
theorem Process.Orderly.holds_call (h : p.Orderly) (hdrain : drain ∈ (p.withSessionStoreLock task).drains)
    (hholds : drain.stage.Holds) : drain ∈ p.drains := by
  unfold withSessionStoreLock drainSessionStoreLockQueue at hdrain
  dsimp only at hdrain
  rcases h.one with ⟨hqueue, hdrains⟩ | ⟨queue, other, hqueue, hdraining, hdrains⟩
  · rw [hqueue] at hdrain
    dsimp only [Option.getD_none] at hdrain
    rw [if_neg Bool.false_ne_true] at hdrain
    exact absurd hholds (acquiring_of_drainLoop (by exact hdrains) hdrain)
  · rw [hqueue] at hdrain
    dsimp only [Option.getD_some] at hdrain
    rw [if_pos hdraining] at hdrain
    exact hdrain

theorem Process.Orderly.holds_settle (h : p.Orderly) (hdrain : p.drains[i]? = some drain)
    (hother : other ∈ (p.settle i drain.task succeeded).drains) : ¬ other.stage.Holds := by
  obtain ⟨rfl, hone⟩ := h.alone hdrain
  refine acquiring_of_drainLoop ?_ hother
  rw [hone]
  rfl

theorem Process.Orderly.mem_setStage (h : p.Orderly) (hdrain : p.drains[i]? = some drain)
    (hother : other ∈ (p.setStage i drain stage).drains) : other = { drain with stage } := by
  obtain ⟨rfl, hone⟩ := h.alone hdrain
  rw [Process.setStage, hone] at hother
  exact List.mem_singleton.1 hother

end Process

-- ---
-- The lock
-- ---

variable {s s' : Shared Proc Json} {p : Proc} {task : Task Json} {store : SessionStore Json}

structure Locked (s : Shared Proc Json) : Prop where
  orderly : ∀ p, (s.procs p).Orderly
  holder : ∀ p, ∀ drain ∈ (s.procs p).drains, drain.stage.Holds → s.holder = some p

theorem Locked.put {process : Process Json} {holder : Option Proc} (h : Locked s) (p : Proc) (horderly : process.Orderly)
    (hholds : ∀ drain ∈ process.drains, drain.stage.Holds → holder = some p)
    (hothers : ∀ other, other ≠ p → ∀ drain ∈ (s.procs other).drains, drain.stage.Holds → holder = some other) :
    Locked { s.put p process with holder } where
  orderly other := by
    by_cases heq : other = p
    · subst heq
      simpa [Shared.put] using horderly
    · simpa [Shared.put, heq] using h.orderly other
  holder other drain hdrain hstage := by
    by_cases heq : other = p
    · subst heq
      simp only [Shared.put, Function.update_self] at hdrain
      exact hholds drain hdrain hstage
    · simp only [Shared.put, Function.update_of_ne heq] at hdrain
      exact hothers other heq drain hdrain hstage

/-- The drain of a process, in another stage. -/
theorem Locked.setStage {holder : Option Proc} (h : Locked s) (hdrain : (s.procs p).drains[i]? = some drain)
    (stage : Stage Json) (caches : Caches Json) (hholder : holder = some p)
    (hothers : ∀ other, other ≠ p → ∀ drain ∈ (s.procs other).drains, ¬ drain.stage.Holds) :
    Locked { s.put p { (s.procs p).setStage i drain stage with caches } with holder } :=
  h.put p (((h.orderly p).setStage hdrain stage).setCaches caches) (fun _ _ _ => hholder)
    fun other hne drain hmem hholds => absurd hholds (hothers other hne drain hmem)

omit [DecidableEq Proc] in
/-- No one else has the lock. -/
theorem Locked.others (h : Locked s) (hmem : drain ∈ (s.procs p).drains) (hholds : drain.stage.Holds) :
    ∀ other, other ≠ p → ∀ drain ∈ (s.procs other).drains, ¬ drain.stage.Holds := by
  intro other hne otherDrain hother hotherHolds
  have hp := h.holder p drain hmem hholds
  have hotherHolder := h.holder other otherDrain hother hotherHolds
  exact hne (Option.some.inj (hotherHolder.symm.trans hp))

theorem Locked.finish (code : Code Json) (h : Locked s) (hdrain : (s.procs p).drains[i]? = some ⟨task, .loaded store⟩) (env : SaveEnv Json) :
    Locked (s.finish code p i ⟨task, .loaded store⟩ store env) := by
  have hmem := List.mem_of_getElem? hdrain
  have hholder := h.holder p _ hmem trivial
  have hothers := h.others hmem trivial
  have hset : ∀ caches succeeded, Locked { s.put p { (s.procs p).setStage i ⟨task, .loaded store⟩ (.releasing succeeded) with
      caches } with holder := s.holder } := fun caches succeeded => h.setStage hdrain _ caches hholder hothers
  unfold Shared.finish
  dsimp only
  split
  · exact hset _ false
  · exact ⟨(hset (s.procs p).caches true).orderly, (hset (s.procs p).caches true).holder⟩
  · exact ⟨(hset _ true).orderly, (hset _ true).holder⟩

theorem Locked.step (h : Locked s) (hstep : lockStep code s label = some s') : Locked s' := by
  cases label with
  | call p task =>
    obtain rfl := Option.some.inj hstep
    exact h.put p ((h.orderly p).call task)
      (fun drain hdrain hholds => h.holder p drain ((h.orderly p).holds_call hdrain hholds) hholds)
      fun other _ => h.holder other
  | acquire p i =>
    unfold lockStep at hstep
    dsimp only at hstep
    split at hstep
    case h_1 task hholder hdrain =>
      obtain rfl := Option.some.inj hstep
      refine h.setStage hdrain .locked _ rfl fun other _ drain hmem hholds => ?_
      rw [h.holder other drain hmem hholds] at hholder
      cases hholder
    case h_2 => cases hstep
  | acquireFails p i =>
    unfold lockStep at hstep
    dsimp only at hstep
    split at hstep
    case h_1 task hdrain =>
      obtain rfl := Option.some.inj hstep
      exact h.put p ((h.orderly p).settle hdrain false)
        (fun other hother hholds => absurd hholds ((h.orderly p).holds_settle hdrain hother)) fun other _ => h.holder other
    case h_2 => cases hstep
  | load p i cacheEnabled expired =>
    unfold lockStep at hstep
    dsimp only at hstep
    split at hstep
    case h_1 task hdrain =>
      obtain rfl := Option.some.inj hstep
      have hmem := List.mem_of_getElem? hdrain
      have hholds : (Stage.locked : Stage Json).Holds := trivial
      exact h.setStage hdrain _ _ (h.holder p _ hmem hholds) (h.others hmem hholds)
    case h_2 => cases hstep
  | finish p i env =>
    unfold lockStep at hstep
    dsimp only at hstep
    split at hstep
    case h_1 task store hdrain =>
      obtain rfl := Option.some.inj hstep
      exact Locked.finish code h hdrain env
    case h_2 => cases hstep
  | release p i =>
    unfold lockStep at hstep
    dsimp only at hstep
    split at hstep
    case h_1 task succeeded hdrain =>
      obtain rfl := Option.some.inj hstep
      have hothers := h.others (List.mem_of_getElem? hdrain) (show (Stage.releasing succeeded : Stage Json).Holds from trivial)
      exact h.put p ((h.orderly p).settle hdrain succeeded)
        (fun other hother hholds => absurd hholds ((h.orderly p).holds_settle hdrain hother))
        fun other hne drain hdrain hholds => absurd hholds (hothers other hne drain hdrain)
    case h_2 => cases hstep

omit [DecidableEq Proc] in
theorem Locked.starts (h : s.Starts file) : Locked s where
  orderly p := by
    obtain ⟨caches, heq⟩ := h.procs p
    rw [heq]
    exact ⟨.inl ⟨rfl, rfl⟩, rfl⟩
  holder p drain hdrain := by
    obtain ⟨caches, heq⟩ := h.procs p
    rw [heq] at hdrain
    cases hdrain

-- ---
-- The file
-- ---

/-- A store that is taken from the cache is the one the file holds, no entry is evicted, and no file
is moved away that holds already what is to be saved. -/
def Clean (code : Code Json) (s : Shared Proc Json) : Label Proc Json → Prop
  | .load p i cacheEnabled expired =>
    ∀ task, (s.procs p).drains[i]? = some ⟨task, .locked⟩ →
      let loaded := loadSessionStore code (task.call.loadOptions cacheEnabled expired) s.file (s.procs p).caches
      loaded.read = none → (loaded.store, loaded.caches.serialized) = readStoreFile code s.file
  | .finish p i env =>
    ∀ task store next, (s.procs p).drains[i]? = some ⟨task, .loaded store⟩ → task.call.run code store = some (some next) →
      let kept := normalizeSessionStore code next
      (maintain env kept s.file).1 = kept ∧
        (s.file.map File.content = some (code.stringify kept) → ¬ env.Moves kept s.file)
  | _ => True

/-- The file holds what the calls have made of it, and what a task has loaded. -/
structure Serial (code : Code Json) (file₀ : Option File) (s : Shared Proc Json) : Prop where
  locked : Locked s
  content : s.file.map File.content = s.log.foldl (Call.serial code) (file₀.map File.content)
  loaded : ∀ p task store, ⟨task, .loaded store⟩ ∈ (s.procs p).drains →
    (store, (s.procs p).caches.serialized) = readStoreFile code s.file

theorem readStoreFile_content (code : Code Json) (file : Option File) :
    readStoreFile code ((file.map File.content).map (⟨·, 0⟩)) = readStoreFile code file := by
  cases file <;> rfl

/-- A load gives what the file holds, if it is not from the cache. -/
theorem loadSessionStore_of_read (code : Code Json) (opts : LoadOptions) (file : Option File) (caches : Caches Json)
    (h : (loadSessionStore code opts file caches).read = none →
      ((loadSessionStore code opts file caches).store, (loadSessionStore code opts file caches).caches.serialized) =
        readStoreFile code file) :
    ((loadSessionStore code opts file caches).store, (loadSessionStore code opts file caches).caches.serialized) =
      readStoreFile code file := by
  have hfile : ∀ useCache caches, ((loadStoreFile code useCache file caches).store,
      (loadStoreFile code useCache file caches).caches.serialized) = readStoreFile code file := by
    intro useCache caches
    rw [loadStoreFile_serialized]
    rfl
  unfold loadSessionStore at h ⊢
  split
  case isTrue hcache =>
    rw [if_pos hcache] at h
    dsimp only at h ⊢
    split
    case h_1 hread =>
      rw [hread] at h
      exact h rfl
    case h_2 => exact hfile true _
  case isFalse => exact hfile false caches

/-- Behind a save the file holds what was saved. -/
theorem saved_content {env : SaveEnv Json} {next : SessionStore Json} {caches : Caches Json}
    (hserialized : caches.serialized = (readStoreFile code file).2)
    (hkept : (maintain env (normalizeSessionStore code next) file).1 = normalizeSessionStore code next)
    (hmoves : file.map File.content = some (code.stringify (normalizeSessionStore code next)) →
      ¬ env.Moves (normalizeSessionStore code next) file) :
    (saveSessionStoreUnlocked code env next file caches).file.map File.content =
      some (code.stringify (normalizeSessionStore code next)) := by
  unfold saveSessionStoreUnlocked
  dsimp only
  rw [hkept]
  split
  case isTrue hsame =>
    have hcontent := readStoreFile_text (hserialized.symm.trans hsame)
    exact (maintain_file _ _ _ _).2 ⟨hcontent, hmoves hcontent⟩
  case isFalse => rfl

omit [DecidableEq Proc] in
theorem Serial.same (h : Serial code file₀ s) (hlocked : Locked s') (hfile : s'.file = s.file) (hlog : s'.log = s.log)
    (hloaded : ∀ p task store, ⟨task, .loaded store⟩ ∈ (s'.procs p).drains →
      (store, (s'.procs p).caches.serialized) = readStoreFile code s.file) : Serial code file₀ s' where
  locked := hlocked
  content := by rw [hfile, hlog, h.content]
  loaded := hfile ▸ hloaded

/-- In the stead of one process, another that has loaded nothing, or what the file holds. -/
theorem Serial.loaded_put (h : Serial code file₀ s) {process : Process Json} (p : Proc)
    (hprocess : ∀ task store, ⟨task, .loaded store⟩ ∈ process.drains →
      (store, process.caches.serialized) = readStoreFile code s.file) :
    ∀ other task store, ⟨task, .loaded store⟩ ∈ ((s.put p process).procs other).drains →
      (store, ((s.put p process).procs other).caches.serialized) = readStoreFile code s.file := by
  intro other task store hmem
  by_cases heq : other = p
  · subst heq
    simp only [Shared.put, Function.update_self] at hmem ⊢
    exact hprocess task store hmem
  · simp only [Shared.put, Function.update_of_ne heq] at hmem ⊢
    exact h.loaded other task store hmem

theorem Serial.finish (h : Serial code file₀ s) (hdrain : (s.procs p).drains[i]? = some ⟨task, .loaded store⟩)
    {env : SaveEnv Json} (hclean : Clean code s (.finish p i env)) :
    Serial code file₀ (s.finish code p i ⟨task, .loaded store⟩ store env) := by
  have hlocked := Locked.finish code h.locked hdrain env
  have hmem := List.mem_of_getElem? hdrain
  have hholds : (Stage.loaded store : Stage Json).Holds := trivial
  have hothers := h.locked.others hmem hholds
  have hread := h.loaded p task store hmem
  -- Nothing is loaded any more: the drain is to release the lock, and no other has it.
  have hloaded : ∀ (process : Process Json) succeeded (file : Option File),
      process.drains = ((s.procs p).setStage i ⟨task, .loaded store⟩ (.releasing succeeded)).drains →
        ∀ other task store, ⟨task, .loaded store⟩ ∈ ((s.put p process).procs other).drains →
          (store, ((s.put p process).procs other).caches.serialized) = readStoreFile code file := by
    intro process succeeded file hdrains other otherTask otherStore hother
    by_cases heq : other = p
    · subst heq
      simp only [Shared.put, Function.update_self] at hother
      rw [hdrains] at hother
      cases (h.locked.orderly other).mem_setStage hdrain hother
    · simp only [Shared.put, Function.update_of_ne heq] at hother
      exact absurd trivial (hothers other heq _ hother)
  have hserial : Call.serial code (s.file.map File.content) task.call =
      textAfter code (s.file.map File.content) (task.call.run code store) := by
    rw [Call.serial, readStoreFile_content, ← hread]
  unfold Shared.finish at hlocked ⊢
  dsimp only at hlocked ⊢
  cases hrun : task.call.run code store with
  | none =>
    rw [hrun] at hlocked
    exact h.same hlocked rfl rfl (hloaded _ false _ rfl)
  | some saved =>
    rw [hrun] at hlocked hserial
    cases saved with
    | none =>
      refine ⟨hlocked, ?_, hloaded _ true _ rfl⟩
      dsimp only
      rw [List.foldl_append, ← h.content]
      exact hserial.symm
    | some next =>
      obtain ⟨hkept, hmoves⟩ := hclean task store next hdrain hrun
      refine ⟨hlocked, ?_, hloaded _ true _ rfl⟩
      dsimp only
      rw [List.foldl_append, ← h.content]
      exact (saved_content (Prod.mk.inj hread).2 hkept hmoves).trans hserial.symm

theorem Serial.step (h : Serial code file₀ s) (hclean : Clean code s label) (hstep : lockStep code s label = some s') :
    Serial code file₀ s' := by
  have hlocked := h.locked.step hstep
  cases label with
  | call p task =>
    obtain rfl := Option.some.inj hstep
    refine h.same hlocked rfl rfl (h.loaded_put p fun other store hother => ?_)
    rw [Process.call_caches]
    exact h.loaded p other store ((h.locked.orderly p).holds_call hother trivial)
  | acquire p i =>
    unfold lockStep at hstep
    dsimp only at hstep
    split at hstep
    case h_1 task _ hdrain =>
      obtain rfl := Option.some.inj hstep
      refine h.same hlocked rfl rfl (h.loaded_put p fun other store hother => ?_)
      cases (h.locked.orderly p).mem_setStage hdrain hother
    case h_2 => cases hstep
  | acquireFails p i =>
    unfold lockStep at hstep
    dsimp only at hstep
    split at hstep
    case h_1 task hdrain =>
      obtain rfl := Option.some.inj hstep
      refine h.same hlocked rfl rfl (h.loaded_put p fun other store hother => ?_)
      exact absurd trivial ((h.locked.orderly p).holds_settle hdrain hother)
    case h_2 => cases hstep
  | load p i cacheEnabled expired =>
    unfold lockStep at hstep
    dsimp only at hstep
    split at hstep
    case h_1 task hdrain =>
      obtain rfl := Option.some.inj hstep
      refine h.same hlocked rfl rfl (h.loaded_put p fun other store hother => ?_)
      cases (h.locked.orderly p).mem_setStage hdrain hother
      exact loadSessionStore_of_read code _ _ _ (hclean task hdrain)
    case h_2 => cases hstep
  | finish p i env =>
    unfold lockStep at hstep
    dsimp only at hstep
    split at hstep
    case h_1 task store hdrain =>
      obtain rfl := Option.some.inj hstep
      exact h.finish hdrain hclean
    case h_2 => cases hstep
  | release p i =>
    unfold lockStep at hstep
    dsimp only at hstep
    split at hstep
    case h_1 task succeeded hdrain =>
      obtain rfl := Option.some.inj hstep
      refine h.same hlocked rfl rfl (h.loaded_put p fun other store hother => ?_)
      exact absurd trivial ((h.locked.orderly p).holds_settle hdrain hother)
    case h_2 => cases hstep

omit [DecidableEq Proc] in
theorem Serial.starts (h : s.Starts file₀) : Serial code file₀ s where
  locked := .starts h
  content := by
    rw [h.file, h.log]
    rfl
  loaded p task store hmem := by
    obtain ⟨caches, heq⟩ := h.procs p
    rw [heq] at hmem
    cases hmem

/-- In every run the tasks of a process run one at a time, in the order of the calls, and each settles
once. In clean runs the file holds what the calls that succeeded make of it in the order of the lock. -/
theorem updates_serial (code : Code Json) (file₀ : Option File) (s : Shared Proc Json) :
    ((lockSystem Proc code file₀).Reachable s → ∀ p, (s.procs p).drains.length ≤ 1 ∧
      (s.procs p).called = (s.procs p).settled.map Prod.fst ++ (s.procs p).drains.map Drain.task ++ (s.procs p).pending ∧
      ((s.procs p).drains = [] → (s.procs p).pending = [])) ∧
    ((lockSystem Proc code file₀).ReachableBy (Clean code) s →
      s.file.map File.content = s.log.foldl (Call.serial code) (file₀.map File.content)) := by
  constructor
  · intro h p
    have hlocked : Locked s :=
      h.invariant (fun s hinit => .starts hinit) fun s label s' hlocked hstep => hlocked.step hstep
    have horderly := hlocked.orderly p
    refine ⟨?_, horderly.order, fun hnone => ?_⟩
    · rcases horderly.one with ⟨-, hdrains⟩ | ⟨queue, drain, -, -, hdrains⟩
      · simp [hdrains]
      · simp [hdrains]
    · rcases horderly.one with ⟨hqueue, -⟩ | ⟨queue, drain, -, -, hdrains⟩
      · rw [Process.pending, hqueue]
        rfl
      · rw [hnone] at hdrains
        cases hdrains
  · intro h
    have hserial : Serial code file₀ s :=
      h.invariant (fun s hinit => .starts hinit) fun s label s' hserial hclean hstep => hserial.step hclean hstep
    exact hserial.content

-- ---
-- Two processes
-- ---

/-- `rest` is a label and where the last message went. -/
def memberText (member : Text × SessionEntry (Text × Text)) : Text :=
  "  \"".toList ++ member.1 ++ "\": \x7b\n    \"sessionId\": \"".toList ++ member.2.sessionId ++
    "\",\n    \"label\": \"".toList ++ member.2.rest.1 ++ "\",\n    \"lastTo\": \"".toList ++ member.2.rest.2 ++
    "\"\n  \x7d".toList

def storeText (store : SessionStore (Text × Text)) : Text :=
  "\x7b\n".toList ++ List.intercalate ",\n".toList (store.map memberText) ++ "\n\x7d".toList

def mainStore (label lastTo : Text) : SessionStore (Text × Text) :=
  [("main".toList, ⟨"s".toList, none, none, none, label, lastTo⟩)]

def mainCode : Code (Text × Text) where
  lower := .simple
  parse text :=
    [mainStore ['a'] ['x'], mainStore ['a'] ['y'], mainStore ['b'] ['x'], mainStore ['b'] ['y']].find? (storeText · = text)
  stringify := storeText
  migrateEntry := id
  normalizeEntry := id

def mainEnv (mtimeMs : Int) : SaveEnv (Text × Text) where
  skipMaintenance := false
  maintenance := ⟨.warn, 1000, 500, 1000⟩
  now := 0
  evictForBudget _ := []
  archivesStoreFile _ := false
  mtimeMs
  cacheEnabled := true

def routeTo (lastTo : Text) : Call (Text × Text) :=
  .updateLastRoute "main".toList fun existing => ⟨"s".toList, none, none, none, (existing.map (·.rest.1)).getD [], lastTo⟩

def setLabel (label : Text) : Call (Text × Text) :=
  .updateSessionStore
    ⟨fun store => some (store.map fun member => (member.1, { member.2 with rest := (label, member.2.rest.2) })), []⟩

/-- A call, from its beginning to its end. -/
def wholeCall (p : Bool) (call : Call (Text × Text)) (mtimeMs : Int) : List (Label Bool (Text × Text)) :=
  [.call p ⟨0, call⟩, .acquire p 0, .load p 0 true false, .finish p 0 (mainEnv mtimeMs), .release p 0]

def mainFile : File := ⟨storeText (mainStore ['a'] ['x']), 0⟩

def mainShared : Shared Bool (Text × Text) := ⟨some mainFile, none, fun _ => ⟨.empty, none, [], [], []⟩, []⟩

theorem mainShared_starts : mainShared.Starts (some mainFile) := ⟨rfl, rfl, rfl, fun _ => ⟨.empty, rfl⟩⟩

/-- One process sets the route twice, and in between the other sets the label. -/
def routesAndLabel (mtimeMs : Int) : List (Label Bool (Text × Text)) :=
  wholeCall true (routeTo ['x']) 0 ++ wholeCall false (setLabel ['b']) mtimeMs ++ wholeCall true (routeTo ['y']) mtimeMs

/-- `Clean`, as it is decided for a step. -/
def cleanCheck (s : Shared Bool (Text × Text)) : Label Bool (Text × Text) → Bool
  | .load p i cacheEnabled expired =>
    match (s.procs p).drains[i]? with
    | some ⟨task, .locked⟩ =>
      let loaded := loadSessionStore mainCode (task.call.loadOptions cacheEnabled expired) s.file (s.procs p).caches
      loaded.read.isSome || decide ((loaded.store, loaded.caches.serialized) = readStoreFile mainCode s.file)
    | _ => true
  | .finish p i env =>
    match (s.procs p).drains[i]? with
    | some ⟨task, .loaded store⟩ =>
      (task.call.run mainCode store).join.all fun next =>
        decide ((maintain env (normalizeSessionStore mainCode next) s.file).1 = normalizeSessionStore mainCode next ∧
          ¬ env.Moves (normalizeSessionStore mainCode next) s.file)
    | _ => true
  | _ => true

theorem clean_of_check {s : Shared Bool (Text × Text)} (h : cleanCheck s label = true) : Clean mainCode s label := by
  cases label with
  | load p i cacheEnabled expired =>
    intro task hdrain loaded hread
    unfold cleanCheck at h
    dsimp only at h
    rw [hdrain] at h
    rcases Bool.or_eq_true_iff.1 h with hsome | heq
    · rw [hread] at hsome
      cases hsome
    · exact of_decide_eq_true heq
  | finish p i env =>
    intro task store next hdrain hrun
    unfold cleanCheck at h
    dsimp only at h
    rw [hdrain] at h
    dsimp only at h
    rw [hrun] at h
    obtain ⟨hkept, hmoves⟩ := of_decide_eq_true h
    exact ⟨hkept, fun _ => hmoves⟩
  | _ => trivial

/-- Where the time of the file tells that it was written, the label and the route are kept. -/
theorem updates_serial_sample : ∃ s, (lockSystem Bool mainCode (some mainFile)).ReachableBy (Clean mainCode) s ∧
    s.file.map File.content = some (storeText (mainStore ['b'] ['y'])) ∧
    s.file.map File.content = s.log.foldl (Call.serial mainCode) ((some mainFile).map File.content) := by
  have hrun : (((lockSystem Bool mainCode (some mainFile)).runBy (cleanCheck · · = true) mainShared (routesAndLabel 1)).map fun s =>
      s.file.map File.content) = some (some (storeText (mainStore ['b'] ['y']))) := by decide
  obtain ⟨s, hs, hcontent⟩ := Option.map_eq_some_iff.1 hrun
  have hstart : (lockSystem Bool mainCode (some mainFile)).ReachableBy (cleanCheck · · = true) mainShared :=
    .init mainShared_starts
  have hclean := (hstart.runBy hs).mono fun _ _ hcheck => clean_of_check hcheck
  exact ⟨s, hclean, hcontent, (updates_serial mainCode (some mainFile) s).2 hclean⟩

/-- Within one time of the file the label is lost. -/
theorem not_updates_serial : ¬ ∀ s : Shared Bool (Text × Text), (lockSystem Bool mainCode (some mainFile)).Reachable s →
    s.file.map File.content = s.log.foldl (Call.serial mainCode) ((some mainFile).map File.content) := by
  intro hall
  have hrun : (((lockSystem Bool mainCode (some mainFile)).run mainShared (routesAndLabel 0)).map fun s =>
      decide (s.file.map File.content = s.log.foldl (Call.serial mainCode) ((some mainFile).map File.content))) = some false := by
    decide
  obtain ⟨s, hs, hlost⟩ := Option.map_eq_some_iff.1 hrun
  have hstart : (lockSystem Bool mainCode (some mainFile)).Reachable mainShared := .init mainShared_starts
  exact of_decide_eq_false hlost (hall s (hstart.run hs))

end OpenClaw.Sessions
