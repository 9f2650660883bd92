import OpenClaw.Agents.SessionWriteLock
import Mathlib.Data.List.Sort

/-!
# Whose file it is

A process owns the files it has created and not yet removed. In the runs at issue what is
owned is the file in place, and what is written there says so: it is not stale to whoever
looks at it.
-/

namespace OpenClaw.SessionWriteLock

open Transition

variable {Proc : Type} [DecidableEq Proc] {ident : Identity Proc} {w w' : World Proc} {p q : Proc}

-- ---
-- Owners
-- ---

def Stage.creates : Stage → Option Nat
  | .created id => some id
  | .prepared id _ => some id
  | .written id => some id
  | _ => none

/-- The files a process has created, from then on until it removes them. -/
def Process.owned (process : Process) : List Nat :=
  (process.held.map HeldLock.id).toList ++ process.tasks.filterMap (·.stage.creates) ++ process.closing

/-- What a process writes into a file of its own. -/
def Honest (ident : Identity Proc) (p : Proc) (bornMs : Int) (payload : LockFilePayload) : Prop :=
  payload.pid = some (ident.pid p) ∧ (∀ starttime ∈ payload.starttime, starttime = ident.startTime p) ∧
    ∃ createdAtMs, payload.createdAtMs = some createdAtMs ∧ bornMs ≤ createdAtMs

/-- What a file says, if it is owned. -/
def Describes (ident : Identity Proc) (w : World Proc) (seen : LockFile) : Prop :=
  seen.id < w.nextId ∧ ∀ q, seen.id ∈ (w.procs q).owned →
    (∀ payload ∈ seen.payload, Honest ident q seen.bornMs payload) ∧ ∀ file ∈ w.file, file.bornMs = seen.bornMs

def StageOk (ident : Identity Proc) (w : World Proc) (p : Proc) : Stage → Prop
  | .prepared id payload =>
    id < w.nextId ∧ (id ∈ (w.procs p).owned → ∀ file ∈ w.file, Honest ident p file.bornMs payload)
  | .hasRead (some seen) => Describes ident w seen
  | .statting nowMs => nowMs ≤ w.now
  | .removing (some seen) => seen.id < w.nextId ∧ ∀ q, seen.id ∉ (w.procs q).owned
  | _ => True

structure Exclusive (ident : Identity Proc) (w : World Proc) : Prop where
  file : ∀ p, ∀ id ∈ (w.procs p).owned, ∃ file, w.file = some file ∧ file.id = id
  owner : ∀ p q, ∀ id ∈ (w.procs p).owned, id ∈ (w.procs q).owned → p = q
  one : ∀ p, (w.procs p).owned.length ≤ 1
  alive : ∀ p, p ∉ w.alive → w.procs p = .idle
  pids : ∀ p ∈ w.alive, ∀ q ∈ w.alive, ident.pid p = ident.pid q → p = q
  times : ∀ file ∈ w.file, file.bornMs ≤ file.mtimeMs ∧ file.mtimeMs ≤ w.now
  current : ∀ file ∈ w.file, Describes ident w file
  stages : ∀ p, ∀ task ∈ (w.procs p).tasks, StageOk ident w p task.stage

-- ---
-- Changes
-- ---

/-- From one world to another no file that was there before gets an owner, and a file that is there
was there before, or is new. -/
structure Grows (w w' : World Proc) : Prop where
  now : w.now ≤ w'.now
  nextId : w.nextId ≤ w'.nextId
  owned : ∀ q, ∀ id ∈ (w'.procs q).owned, id < w.nextId → id ∈ (w.procs q).owned
  file : ∀ q, ∀ id ∈ (w'.procs q).owned, ∃ file, w'.file = some file ∧ file.id = id
  born : ∀ file' ∈ w'.file, (∃ file ∈ w.file, file.bornMs = file'.bornMs) ∨ w.nextId ≤ file'.id

omit [DecidableEq Proc] in
theorem Grows.born_of_owned {id : Nat} {file' : LockFile} (h : Grows w w') (hid : id < w.nextId)
    (howned : id ∈ (w'.procs q).owned) (hfile : file' ∈ w'.file) : ∃ file ∈ w.file, file.bornMs = file'.bornMs := by
  obtain ⟨file, heq, rfl⟩ := h.file q id howned
  obtain rfl : file' = file := Option.some.inj (hfile.symm.trans heq)
  exact (h.born file' hfile).resolve_right (by omega)

omit [DecidableEq Proc] in
theorem Describes.grows (hseen : Describes ident w seen) (h : Grows w w') : Describes ident w' seen := by
  refine ⟨lt_of_lt_of_le hseen.1 h.nextId, fun q howned => ?_⟩
  obtain ⟨hhonest, hborn⟩ := hseen.2 q (h.owned q _ howned hseen.1)
  refine ⟨hhonest, fun file' hfile' => ?_⟩
  obtain ⟨file, hfile, heq⟩ := h.born_of_owned hseen.1 howned hfile'
  exact heq ▸ hborn file hfile

omit [DecidableEq Proc] in
theorem StageOk.grows (hstage : StageOk ident w p stage) (h : Grows w w') : StageOk ident w' p stage := by
  cases stage with
  | prepared id payload =>
    refine ⟨lt_of_lt_of_le hstage.1 h.nextId, fun howned file' hfile' => ?_⟩
    obtain ⟨file, hfile, heq⟩ := h.born_of_owned hstage.1 howned hfile'
    exact heq ▸ hstage.2 (h.owned p id howned hstage.1) file hfile
  | hasRead seen =>
    cases seen with
    | none => trivial
    | some seen => exact Describes.grows hstage h
  | statting nowMs => exact le_trans hstage h.now
  | removing seen =>
    cases seen with
    | none => trivial
    | some seen => exact ⟨lt_of_lt_of_le hstage.1 h.nextId, fun q howned => hstage.2 q (h.owned q _ howned hstage.1)⟩
  | _ => trivial

/-- Another world in which one process has changed. -/
theorem Exclusive.change (h : Exclusive ident w) (hgrows : Grows w w') (p : Proc) (hprocs : ∀ q, q ≠ p → w'.procs q = w.procs q)
    (halive : w'.alive = w.alive) (hp : p ∈ w.alive ∨ w'.procs p = .idle)
    (howner : ∀ q, ∀ id ∈ (w'.procs p).owned, id ∈ (w'.procs q).owned → p = q)
    (hone : (w'.procs p).owned.length ≤ 1) (htimes : ∀ file ∈ w'.file, file.bornMs ≤ file.mtimeMs ∧ file.mtimeMs ≤ w'.now)
    (hcurrent : ∀ file ∈ w'.file, Describes ident w' file)
    (hstages : ∀ task ∈ (w'.procs p).tasks, StageOk ident w' p task.stage) : Exclusive ident w' where
  file := hgrows.file
  owner q r id hq hr := by
    by_cases hqp : q = p
    · subst hqp
      exact howner r id hq hr
    · by_cases hrp : r = p
      · subst hrp
        exact (howner q id hr hq).symm
      · rw [hprocs q hqp] at hq
        rw [hprocs r hrp] at hr
        exact h.owner q r id hq hr
  one q := by
    by_cases hqp : q = p
    · subst hqp
      exact hone
    · rw [hprocs q hqp]
      exact h.one q
  alive q hq := by
    rw [halive] at hq
    by_cases hqp : q = p
    · subst hqp
      exact hp.resolve_left hq
    · rw [hprocs q hqp]
      exact h.alive q hq
  pids := halive ▸ h.pids
  times := htimes
  current := hcurrent
  stages q task htask := by
    by_cases hqp : q = p
    · subst hqp
      exact hstages task htask
    · rw [hprocs q hqp] at htask
      exact (h.stages q task htask).grows hgrows

theorem World.put_self (w : World Proc) (p : Proc) (process : Process) : (w.put p process).procs p = process :=
  Function.update_self _ _ _

theorem World.put_other (w : World Proc) (process : Process) (hq : q ≠ p) : (w.put p process).procs q = w.procs q :=
  Function.update_of_ne hq _ _

theorem World.owned_put {process : Process} (hsub : process.owned ⊆ (w.procs p).owned) (q : Proc) :
    ((w.put p process).procs q).owned ⊆ (w.procs q).owned := by
  by_cases hq : q = p
  · subst hq
    rw [World.put_self]
    exact hsub
  · rw [World.put_other w process hq]
    exact List.Subset.refl _

/-- The file stays, and one process owns no more than before. -/
theorem Exclusive.put (h : Exclusive ident w) {process : Process} (hp : p ∈ w.alive ∨ process = .idle)
    (hsub : process.owned.Subperm (w.procs p).owned) (hstages : ∀ task ∈ process.tasks, StageOk ident w p task.stage) :
    Exclusive ident (w.put p process) := by
  have howned := World.owned_put hsub.subset
  have hgrows : Grows w (w.put p process) := ⟨le_rfl, le_rfl, fun q id hid _ => howned q hid,
    fun q id hid => h.file q id (howned q hid), fun file hfile => .inl ⟨file, hfile, rfl⟩⟩
  refine h.change hgrows p (fun q => World.put_other w process) rfl ?_ ?_ ?_ h.times
    (fun file hfile => (h.current file hfile).grows hgrows) ?_
  · rw [World.put_self]
    exact hp
  · exact fun q id hp hq => h.owner p q id (howned p hp) (howned q hq)
  · rw [World.put_self]
    exact hsub.length_le.trans (h.one p)
  · rw [World.put_self]
    exact fun task htask => (hstages task htask).grows hgrows

omit [DecidableEq Proc] in
theorem Exclusive.alive_of_task {i : Nat} {task : Task} (h : Exclusive ident w) (htask : (w.procs p).tasks[i]? = some task) :
    p ∈ w.alive := by
  by_contra hdead
  rw [h.alive p hdead] at htask
  cases htask

-- ---
-- One acquisition
-- ---

/-- What a process owns beside its `i`-th acquisition. -/
def Process.others (process : Process) (i : Nat) : List Nat :=
  (process.held.map HeldLock.id).toList ++ (process.tasks.eraseIdx i).filterMap (·.stage.creates) ++ process.closing

theorem perm_creates {tasks rest : List Task} {task : Task} (hperm : tasks.Perm (task :: rest)) (held closing : List Nat) :
    (held ++ tasks.filterMap (·.stage.creates) ++ closing).Perm
      (task.stage.creates.toList ++ (held ++ rest.filterMap (·.stage.creates) ++ closing)) := by
  have htasks : (tasks.filterMap (·.stage.creates)).Perm (task.stage.creates.toList ++ rest.filterMap (·.stage.creates)) := by
    refine (hperm.filterMap _).trans ?_
    rw [List.filterMap_cons]
    cases task.stage.creates <;> exact .refl _
  refine ((htasks.append_left held).append_right closing).trans ?_
  rw [← List.append_assoc, ← List.append_assoc, ← List.append_assoc]
  exact ((List.perm_append_comm.append_right _).append_right _)

theorem Process.owned_perm {process : Process} (htask : process.tasks[i]? = some task) :
    process.owned.Perm (task.stage.creates.toList ++ process.others i) := by
  obtain ⟨hi, rfl⟩ := List.getElem?_eq_some_iff.1 htask
  exact perm_creates (List.getElem_cons_eraseIdx_perm hi).symm _ _

theorem Process.owned_set {process : Process} (htask : process.tasks[i]? = some task) (new : Task) :
    ({ process with tasks := process.tasks.set i new } : Process).owned.Perm (new.stage.creates.toList ++ process.others i) :=
  perm_creates (List.set_perm_cons_eraseIdx (List.getElem?_eq_some_iff.1 htask).1 new) _ _

/-- An acquisition that goes on, and has created nothing new. -/
theorem Exclusive.setStage (h : Exclusive ident w) (htask : (w.procs p).tasks[i]? = some task)
    (hcreates : stage.creates = none ∨ stage.creates = task.stage.creates) (hstage : StageOk ident w p stage) :
    Exclusive ident (w.setStage p i task stage) := by
  refine h.put (.inl (h.alive_of_task htask)) ?_ fun other hother => ?_
  · refine (Process.owned_set htask _).subperm.trans (.trans ?_ (Process.owned_perm htask).symm.subperm)
    rcases hcreates with hnone | hsame
    · dsimp only
      rw [hnone]
      exact (List.sublist_append_right _ _).subperm
    · dsimp only
      rw [hsame]
  · rcases List.mem_or_eq_of_mem_set hother with hmem | rfl
    · exact h.stages p other hmem
    · exact hstage

theorem Exclusive.dropTask (h : Exclusive ident w) (htask : (w.procs p).tasks[i]? = some task) :
    Exclusive ident (w.dropTask p i) := by
  refine h.put (.inl (h.alive_of_task htask)) ?_ fun other hother => h.stages p other (List.mem_of_mem_eraseIdx hother)
  exact (List.sublist_append_right _ _).subperm.trans (Process.owned_perm htask).symm.subperm

/-- What an acquisition has created, once it is the process's in another way. -/
theorem Exclusive.moves {id : Nat} {task : Task} (h : Exclusive ident w) (htask : (w.procs p).tasks[i]? = some task)
    (hcreates : task.stage.creates = some id)
    {process : Process} (htasks : process.tasks = (w.procs p).tasks.eraseIdx i)
    (howned : process.owned.Subperm (id :: (w.procs p).others i)) : Exclusive ident (w.put p process) := by
  refine h.put (.inl (h.alive_of_task htask)) ?_ fun other hother => ?_
  · have hperm := Process.owned_perm htask
    rw [hcreates] at hperm
    exact howned.trans hperm.symm.subperm
  · rw [htasks] at hother
    exact h.stages p other (List.mem_of_mem_eraseIdx hother)

-- ---
-- Looking at a lock
-- ---

/-- No live process has had the file for longer than `staleMs`. -/
def Brief (w : World Proc) (staleMs : Int) : Prop :=
  ∀ file ∈ w.file, ∀ q, file.id ∈ (w.procs q).owned → w.now - file.bornMs ≤ staleMs

omit [DecidableEq Proc] in
theorem Exclusive.alive_of_owned {id : Nat} (h : Exclusive ident w) (howned : id ∈ (w.procs p).owned) : p ∈ w.alive := by
  by_contra hdead
  rw [h.alive p hdead] at howned
  cases howned

theorem ageMs_le {now since staleMs : Int} (hnow : since ≤ now) (hage : now - since ≤ staleMs) (hlater : since ≤ since')
    (nowMs : Int) (hle : nowMs ≤ now) : ¬ staleMs < ageMs nowMs since' := by
  unfold ageMs
  omega

omit [DecidableEq Proc] in
/-- The age of a file that a live process has, in a way that matters to its inspection. -/
theorem Exclusive.age_le {staleMs nowMs sinceMs : Int} {file : LockFile} (h : Exclusive ident w) (hbrief : Brief w staleMs)
    (hfile : w.file = some file) (howned : file.id ∈ (w.procs q).owned) (hsince : file.bornMs ≤ sinceMs) (hnow : nowMs ≤ w.now) :
    ¬ staleMs < ageMs nowMs sinceMs := by
  obtain ⟨hborn, hmtime⟩ := h.times file hfile
  exact ageMs_le (hborn.trans hmtime) (hbrief file hfile q howned) hsince nowMs hnow

omit [DecidableEq Proc] in
/-- Whoever is asked about a process that is alive answers for it. -/
theorem Exclusive.find_pid (h : Exclusive ident w) (hq : q ∈ w.alive) : w.alive.find? (ident.pid · = ident.pid q) = some q := by
  cases hfind : w.alive.find? (ident.pid · = ident.pid q) with
  | none => exact absurd (decide_eq_true rfl) (List.find?_eq_none.1 hfind q hq)
  | some r =>
    have hr := List.mem_of_find?_eq_some hfind
    have hpid := List.find?_some hfind
    rw [decide_eq_true_iff] at hpid
    exact congrArg some (h.pids r hr q hq hpid)

omit [DecidableEq Proc] in
theorem Exclusive.pidReasons_eq_nil {payload : LockFilePayload} (h : Exclusive ident w) (hq : q ∈ w.alive)
    (hhonest : Honest ident q bornMs payload) (available : Bool) :
    pidReasons (w.machine ident available) (some payload) = [] := by
  obtain ⟨hpid, hstart, -⟩ := hhonest
  have halive : (w.machine ident available).isPidAlive (ident.pid q) = true :=
    List.any_eq_true.2 ⟨q, hq, decide_eq_true rfl⟩
  unfold pidReasons
  rw [Option.bind_some, Option.bind_some, hpid, Option.filter_some_pos (by exact decide_eq_true (ident.pid_pos q))]
  dsimp only
  rw [halive, if_neg Bool.false_ne_true.symm]
  split
  case h_1 storedStarttime currentStarttime hstored hcurrent =>
    rw [World.machine] at hcurrent
    dsimp only at hcurrent
    split at hcurrent
    · rw [h.find_pid hq] at hcurrent
      obtain rfl := Option.some.inj hcurrent
      exact if_neg fun hne => hne (hstart _ hstored).symm
    · cases hcurrent
  case h_2 => rfl

omit [DecidableEq Proc] in
/-- The lock of a live process is not stale, once its payload is there. -/
theorem Exclusive.inspect_eq_nil {payload : LockFilePayload} {seen : LockFile} (h : Exclusive ident w)
    (hseen : Describes ident w seen) (howned : seen.id ∈ (w.procs q).owned) (hbrief : Brief w staleMs)
    (hpayload : seen.payload = some payload) (available : Bool) :
    inspectLockPayload (w.machine ident available) (some payload) staleMs w.now = [] := by
  obtain ⟨hhonest, hborn⟩ := hseen.2 q howned
  have hhonest := hhonest payload hpayload
  obtain ⟨file, hfile, hid⟩ := h.file q _ howned
  obtain ⟨-, -, createdAtMs, hcreated, hle⟩ := id hhonest
  unfold inspectLockPayload
  rw [h.pidReasons_eq_nil (h.alive_of_owned howned) hhonest, List.nil_append, ageReasons, Option.bind_some, hcreated]
  exact if_neg (h.age_le hbrief hfile (hid ▸ howned) ((hborn file hfile).trans_le hle) le_rfl)

/-- A process looks at no file of its own as if it had left it behind. -/
def Forgets (ident : Identity Proc) (w : World Proc) (p : Proc) (seen : Option LockFile) : Prop :=
  shouldTreatAsOrphanSelfLock (seen.bind LockFile.payload) (ident.pid p) (w.procs p).held.isSome = true →
    ∀ file ∈ seen, file.id ∉ (w.procs p).owned

theorem pid_of_orphanSelfLock (h : shouldTreatAsOrphanSelfLock payload ownPid held = true) :
    payload.bind LockFilePayload.pid = some ownPid := by
  by_contra hne
  rw [shouldTreatAsOrphanSelfLock, if_pos hne] at h
  cases h

omit [DecidableEq Proc] in
theorem Exclusive.staleReasons (h : Exclusive ident w) (hp : p ∈ w.alive) {seen : LockFile} (hseen : Describes ident w seen)
    (howned : seen.id ∈ (w.procs q).owned) (hbrief : Brief w staleMs) (hforgets : Forgets ident w p (some seen))
    (available : Bool) :
    w.staleReasons ident p staleMs (some seen) available = [] ∨
      w.staleReasons ident p staleMs (some seen) available = [.missingPid, .invalidCreatedAt] := by
  rw [Forgets] at hforgets
  unfold World.staleReasons
  rw [Option.bind_some] at hforgets ⊢
  cases hpayload : seen.payload with
  | none => exact .inr rfl
  | some payload =>
    rw [hpayload] at hforgets
    refine .inl ?_
    dsimp only
    rw [h.inspect_eq_nil hseen howned hbrief hpayload]
    refine if_neg fun horphan => ?_
    -- it would be a lock of the process itself
    have hpid := pid_of_orphanSelfLock horphan
    rw [Option.bind_some, ((hseen.2 q howned).1 payload hpayload).1] at hpid
    obtain rfl := h.pids q (h.alive_of_owned howned) p hp (Option.some.inj hpid)
    exact hforgets horphan seen rfl howned

theorem Exclusive.inspect (h : Exclusive ident w) (htask : (w.procs p).tasks[i]? = some ⟨staleMs, .hasRead seen⟩)
    (hbrief : Brief w staleMs) (hforgets : Forgets ident w p seen) (available : Bool) :
    Exclusive ident (w.inspect ident p i ⟨staleMs, .hasRead seen⟩ seen available) := by
  have hstage : StageOk ident w p (.hasRead seen) := h.stages p _ (List.mem_of_getElem? htask)
  unfold World.inspect
  dsimp only
  split
  · exact h.setStage htask (.inl rfl) trivial
  split
  · exact h.setStage htask (.inl rfl) (show w.now ≤ w.now from le_rfl)
  rename_i hstale hfallback
  refine h.setStage htask (.inl rfl) ?_
  cases seen with
  | none => trivial
  | some seen =>
    refine ⟨hstage.1, fun q howned => ?_⟩
    rcases h.staleReasons (h.alive_of_task htask) hstage howned hbrief hforgets available with hnil | hunknown
    · exact hstale hnil
    · exact hfallback (hunknown ▸ rfl)

theorem Exclusive.statLock (h : Exclusive ident w) (htask : (w.procs p).tasks[i]? = some ⟨staleMs, .statting nowMs⟩)
    (hbrief : Brief w staleMs) : Exclusive ident (w.statLock p i ⟨staleMs, .statting nowMs⟩ nowMs) := by
  have hnow : nowMs ≤ w.now := h.stages p _ (List.mem_of_getElem? htask)
  unfold World.statLock
  split
  · exact h.setStage htask (.inl rfl) trivial
  · rename_i file hfile
    split
    · rename_i hold
      refine h.setStage htask (.inl rfl) ⟨(h.current file hfile).1, fun q howned => ?_⟩
      exact h.age_le hbrief hfile howned (h.times file hfile).1 hnow hold
    · exact h.setStage htask (.inl rfl) trivial

end OpenClaw.SessionWriteLock
