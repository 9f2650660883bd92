import OpenClaw.Agents.SessionWriteLock.Owners
import Mathlib.Data.Fintype.Basic

/-!
# One holder at a time

As long as no one reclaims a lock that a live process has created since it was looked at, or
that the same process is still creating or releasing, every lock file that a live process has
created and not yet removed is the one in place: so there is one holder at most.
-/

namespace OpenClaw.SessionWriteLock

open Transition

variable {Proc : Type} [DecidableEq Proc] {ident : Identity Proc} {w w' : World Proc} {p q : Proc}

-- ---
-- Creating
-- ---

omit [DecidableEq Proc] in
/-- Where there is no file no one owns any. -/
theorem Exclusive.owned_eq_nil (h : Exclusive ident w) (hfile : w.file = none) (p : Proc) : (w.procs p).owned = [] := by
  refine List.eq_nil_iff_forall_not_mem.2 fun id hid => ?_
  obtain ⟨file, hsome, -⟩ := h.file p id hid
  rw [hfile] at hsome
  cases hsome

theorem World.setStage_self (w : World Proc) (p : Proc) (i : Nat) (task : Task) (stage : Stage) :
    (w.setStage p i task stage).procs p = { w.procs p with tasks := (w.procs p).tasks.set i { task with stage } } :=
  World.put_self _ _ _

theorem Exclusive.openLock {task : Task} (h : Exclusive ident w) (htask : (w.procs p).tasks[i]? = some task) :
    Exclusive ident (w.openLock p i task) := by
  cases hfile : w.file with
  | some file =>
    unfold World.openLock
    rw [hfile]
    exact h.setStage htask (.inl rfl) trivial
  | none =>
    have hw : w.openLock p i task = { w.setStage p i task (.created w.nextId) with
        file := some ⟨w.nextId, none, w.now, w.now⟩, nextId := w.nextId + 1 } := by
      unfold World.openLock
      rw [hfile]
    rw [hw]
    have hothers : (w.procs p).others i = [] := by
      have hperm := Process.owned_perm htask
      rw [h.owned_eq_nil hfile p] at hperm
      exact (List.append_eq_nil_iff.1 hperm.nil_eq.symm).2
    have hself : ((w.setStage p i task (.created w.nextId)).procs p).owned = [w.nextId] := by
      rw [World.setStage_self]
      have hperm := Process.owned_set htask { task with stage := .created w.nextId }
      rw [hothers] at hperm
      exact hperm.eq_singleton
    have howned : ∀ q, ∀ id ∈ ((w.setStage p i task (.created w.nextId)).procs q).owned, q = p ∧ id = w.nextId := by
      intro q id hid
      by_cases hq : q = p
      · subst hq
        rw [hself] at hid
        exact ⟨rfl, List.mem_singleton.1 hid⟩
      · rw [World.setStage, World.put_other w _ hq, h.owned_eq_nil hfile] at hid
        cases hid
    have hnew : ∀ file ∈ some (LockFile.mk w.nextId none w.now w.now), file = ⟨w.nextId, none, w.now, w.now⟩ :=
      fun file hsome => (Option.some.inj hsome).symm
    have hgrows : Grows w { w.setStage p i task (.created w.nextId) with
        file := some ⟨w.nextId, none, w.now, w.now⟩, nextId := w.nextId + 1 } := by
      refine ⟨le_rfl, Nat.le_succ _, fun q id hid hlt => ?_, fun q id hid => ?_, fun file hsome => .inr ?_⟩
      · exact absurd ((howned q id hid).2 ▸ hlt) (Nat.lt_irrefl _)
      · exact ⟨_, rfl, (howned q id hid).2.symm⟩
      · rw [hnew file hsome]
    refine h.change hgrows p (fun q hq => World.put_other w _ hq) rfl (.inl (h.alive_of_task htask)) ?_ ?_ ?_ ?_ ?_
    · exact fun q id _ hq => (howned q id hq).1.symm
    · rw [hself]
      exact le_rfl
    · intro file hsome
      rw [hnew file hsome]
      exact ⟨le_rfl, le_rfl⟩
    · intro file hsome
      rw [hnew file hsome]
      refine ⟨Nat.lt_succ_self _, fun q _ => ⟨fun payload hpayload => ?_, fun file hsome => ?_⟩⟩
      · cases hpayload
      · rw [hnew file hsome]
    · intro other hother
      dsimp only at hother
      rw [World.setStage_self] at hother
      rcases List.mem_or_eq_of_mem_set hother with hmem | rfl
      · exact (h.stages p other hmem).grows hgrows
      · trivial

/-- What a process is about to write is true of it. -/
theorem Exclusive.prepare {id : Nat} (h : Exclusive ident w)
    (htask : (w.procs p).tasks[i]? = some ⟨staleMs, .created id⟩) (available : Bool) :
    Exclusive ident (w.setStage p i ⟨staleMs, .created id⟩ (.prepared id (w.lockPayload ident p available))) := by
  have hp := h.alive_of_task htask
  have howned : id ∈ (w.procs p).owned := (Process.owned_perm htask).symm.subset (List.mem_cons_self ..)
  obtain ⟨file, hfile, hid⟩ := h.file p id howned
  refine h.setStage htask (.inr rfl) ⟨hid ▸ (h.current file hfile).1, fun _ file hfile => ⟨rfl, ?_, w.now, rfl, ?_⟩⟩
  · intro starttime hstarttime
    rw [World.lockPayload, World.machine] at hstarttime
    dsimp only at hstarttime
    split at hstarttime
    · rw [h.find_pid hp] at hstarttime
      exact (Option.some.inj hstarttime).symm
    · cases hstarttime
  · exact (h.times file hfile).1.trans (h.times file hfile).2

omit [DecidableEq Proc] in
/-- A file that is written says who owns it. -/
theorem Exclusive.write {file : LockFile} (h : Exclusive ident w) (hfile : w.file = some file)
    (howned : file.id ∈ (w.procs p).owned) (hhonest : Honest ident p file.bornMs payload) :
    Exclusive ident { w with file := some { file with payload := some payload, mtimeMs := w.now } } := by
  have hgrows : Grows w { w with file := some { file with payload := some payload, mtimeMs := w.now } } := by
    refine ⟨le_rfl, le_rfl, fun q id hid _ => hid, fun q id hid => ⟨_, rfl, ?_⟩, fun other hother => .inl ⟨file, hfile, ?_⟩⟩
    · obtain ⟨other, hother, rfl⟩ := h.file q id hid
      obtain rfl := Option.some.inj (hfile.symm.trans hother)
      rfl
    · obtain rfl := Option.some.inj hother
      rfl
  obtain ⟨hborn, hmtime⟩ := h.times file hfile
  refine ⟨hgrows.file, h.owner, h.one, h.alive, h.pids, ?_, ?_, fun q task htask => (h.stages q task htask).grows hgrows⟩
  · intro other hother
    obtain rfl := Option.some.inj hother
    exact ⟨hborn.trans hmtime, le_rfl⟩
  · intro other hother
    obtain rfl := Option.some.inj hother
    refine ⟨(h.current file hfile).1, fun q hq => ⟨fun other hother => ?_, fun other hother => ?_⟩⟩
    · obtain rfl := Option.some.inj hother
      obtain rfl := h.owner p q _ howned hq
      exact hhonest
    · obtain rfl := Option.some.inj hother
      rfl

theorem Exclusive.writeLock {id : Nat} (h : Exclusive ident w)
    (htask : (w.procs p).tasks[i]? = some ⟨staleMs, .prepared id payload⟩) :
    Exclusive ident (w.writeLock p i ⟨staleMs, .prepared id payload⟩ id payload) := by
  have hmine : id ∈ (w.procs p).owned := (Process.owned_perm htask).symm.subset (List.mem_cons_self ..)
  have hmine' : id ∈ ((w.setStage p i ⟨staleMs, .prepared id payload⟩ (.written id)).procs p).owned := by
    rw [World.setStage_self]
    exact (Process.owned_set htask _).symm.subset (List.mem_cons_self ..)
  have hstage : StageOk ident w p (.prepared id payload) := h.stages p _ (List.mem_of_getElem? htask)
  obtain ⟨file, hfile, rfl⟩ := h.file p id hmine
  have hset : Exclusive ident (w.setStage p i ⟨staleMs, .prepared file.id payload⟩ (.written file.id)) :=
    h.setStage htask (.inr rfl) trivial
  have hwrite := hset.write hfile hmine' (hstage.2 hmine file hfile)
  unfold World.writeLock
  rw [hfile, Option.map_some, if_pos rfl]
  exact hwrite

theorem Exclusive.enter {id : Nat} (h : Exclusive ident w) (htask : (w.procs p).tasks[i]? = some ⟨staleMs, .written id⟩) :
    Exclusive ident (w.enter p i id) := by
  refine h.moves htask rfl rfl (List.Sublist.subperm (List.Sublist.cons_cons id ?_))
  exact (List.sublist_append_right _ _).append_right _

theorem Exclusive.failLock {id : Nat} (h : Exclusive ident w)
    (htask : (w.procs p).tasks[i]? = some ⟨staleMs, .prepared id payload⟩) : Exclusive ident (w.failLock p i id) := by
  refine h.moves htask rfl rfl (List.Perm.subperm ?_)
  unfold Process.owned
  dsimp only
  rw [← List.append_assoc]
  exact List.perm_append_singleton id _

theorem Exclusive.readLock {task : Task} (h : Exclusive ident w) (htask : (w.procs p).tasks[i]? = some task) :
    Exclusive ident (w.setStage p i task (.hasRead w.file)) := by
  refine h.setStage htask (.inl rfl) ?_
  cases hfile : w.file with
  | none => trivial
  | some file => exact h.current file hfile

-- ---
-- Removing
-- ---

omit [DecidableEq Proc] in
theorem Exclusive.remove (h : Exclusive ident w) (hnone : ∀ q, (w.procs q).owned = []) :
    Exclusive ident { w with file := none } := by
  have hfile : ∀ q, ∀ id ∈ (w.procs q).owned, ∃ file, (none : Option LockFile) = some file ∧ file.id = id := by
    intro q id hid
    rw [hnone q] at hid
    cases hid
  have hgrows : Grows w { w with file := none } := by
    refine ⟨le_rfl, le_rfl, fun q id hid _ => hid, hfile, fun file hsome => ?_⟩
    cases hsome
  refine ⟨hfile, h.owner, h.one, h.alive, h.pids, fun file hsome => ?_, fun file hsome => ?_,
    fun q task htask => (h.stages q task htask).grows hgrows⟩
  · cases hsome
  · cases hsome

/-- A reclaimer removes no file but the one it decided about, or one that no live process has created. -/
def Decided (w : World Proc) (seen : Option LockFile) : Prop :=
  ∀ file ∈ w.file, (∃ other ∈ seen, other.id = file.id) ∨ ∀ q, file.id ∉ (w.procs q).owned

theorem Exclusive.removeLock (h : Exclusive ident w) (htask : (w.procs p).tasks[i]? = some ⟨staleMs, .removing seen⟩)
    (hdecided : Decided w seen) : Exclusive ident (w.removeLock p i ⟨staleMs, .removing seen⟩) := by
  have hstage : StageOk ident w p (.removing seen) := h.stages p _ (List.mem_of_getElem? htask)
  have hnone : ∀ q, (w.procs q).owned = [] := by
    refine fun q => List.eq_nil_iff_forall_not_mem.2 fun id hid => ?_
    obtain ⟨file, hfile, rfl⟩ := h.file q id hid
    rcases hdecided file hfile with ⟨other, hseen, heq⟩ | hfree
    · obtain rfl : seen = some other := hseen
      exact hstage.2 q (heq ▸ hid)
    · exact hfree q hid
  exact (h.remove hnone).setStage htask (.inl rfl) trivial

omit [DecidableEq Proc] in
theorem Exclusive.alone {id : Nat} (h : Exclusive ident w) (hid : id ∈ (w.procs p).owned) (hne : q ≠ p) :
    (w.procs q).owned = [] := by
  refine List.eq_nil_iff_forall_not_mem.2 fun other hother => hne ?_
  obtain ⟨file, hfile, rfl⟩ := h.file p id hid
  obtain ⟨file', hfile', rfl⟩ := h.file q other hother
  obtain rfl := Option.some.inj (hfile.symm.trans hfile')
  exact h.owner q p _ hother hid

theorem Process.owned_closing {process : Process} (hj : j < process.closing.length) :
    process.owned.Perm (process.closing[j] :: ({ process with closing := process.closing.eraseIdx j } : Process).owned) :=
  ((List.getElem_cons_eraseIdx_perm hj).symm.append_left _).trans List.perm_middle

/-- A process that removes a file of its own: there is no other. -/
theorem Exclusive.removeOwn (h : Exclusive ident w) (hj : j < (w.procs p).closing.length) :
    Exclusive ident (w.removeOwn p j) := by
  have hperm := Process.owned_closing hj
  have hmine : (w.procs p).closing[j] ∈ (w.procs p).owned := hperm.symm.subset (List.mem_cons_self ..)
  have hput : Exclusive ident (w.put p { w.procs p with closing := (w.procs p).closing.eraseIdx j }) :=
    h.put (.inl (h.alive_of_owned hmine)) ((List.sublist_cons_self _ _).subperm.trans hperm.symm.subperm) (h.stages p)
  refine hput.remove fun q => ?_
  · by_cases hq : q = p
    · subst hq
      rw [World.put_self]
      have hlength := hperm.length_eq.symm.trans_le (h.one q)
      exact List.eq_nil_of_length_eq_zero (Nat.le_zero.1 (Nat.le_of_succ_le_succ hlength))
    · rw [World.put_other w _ hq]
      exact h.alone hmine hq

theorem Exclusive.release (h : Exclusive ident w) (hheld : (w.procs p).held = some held) :
    Exclusive ident (w.release p held) := by
  have hmine : held.id ∈ (w.procs p).owned := by
    unfold Process.owned
    rw [hheld]
    exact List.mem_append_left _ (List.mem_append_left _ (List.mem_cons_self ..))
  have hp := h.alive_of_owned hmine
  unfold World.release
  split
  · refine h.put (.inl hp) (List.Perm.subperm ?_) (h.stages p)
    unfold Process.owned
    rw [hheld]
    exact .refl _
  · refine h.put (.inl hp) (List.Perm.subperm ?_) (h.stages p)
    unfold Process.owned
    rw [hheld]
    dsimp only [Option.map_none, Option.map_some, Option.toList_none, Option.toList_some, List.nil_append]
    rw [← List.append_assoc]
    exact List.perm_append_singleton held.id _

-- ---
-- Runs
-- ---

theorem Exclusive.acquire (h : Exclusive ident w) (hp : p ∈ w.alive) (staleMs : Int) (allowReentrant : Bool) :
    Exclusive ident (w.acquire p staleMs allowReentrant) := by
  have hstart : Exclusive ident (w.put p { w.procs p with tasks := (w.procs p).tasks ++ [⟨staleMs, .trying⟩] }) := by
    refine h.put (.inl hp) (List.Perm.subperm ?_) fun task htask => ?_
    · unfold Process.owned
      dsimp only
      rw [List.filterMap_append]
      exact .of_eq (by rw [List.filterMap_cons_none rfl, List.filterMap_nil, List.append_nil])
    · rcases List.mem_append.1 htask with hmem | hnew
      · exact h.stages p task hmem
      · obtain rfl := List.mem_singleton.1 hnew
        trivial
  unfold World.acquire
  split
  · rename_i held hheld
    split
    · refine h.put (.inl hp) (List.Perm.subperm ?_) (h.stages p)
      unfold Process.owned
      rw [hheld]
      exact .refl _
    · exact hstart
  · exact hstart

omit [DecidableEq Proc] in
theorem Exclusive.tick (h : Exclusive ident w) (ms : Nat) : Exclusive ident { w with now := w.now + ms } := by
  have hnow : w.now ≤ w.now + ms := Int.le_add_of_nonneg_right (Int.natCast_nonneg ms)
  have hgrows : Grows w { w with now := w.now + ms } :=
    ⟨hnow, le_rfl, fun q id hid _ => hid, h.file, fun file hfile => .inl ⟨file, hfile, rfl⟩⟩
  exact ⟨h.file, h.owner, h.one, h.alive, h.pids,
    fun file hfile => ⟨(h.times file hfile).1, (h.times file hfile).2.trans hnow⟩,
    fun file hfile => (h.current file hfile).grows hgrows, fun q task htask => (h.stages q task htask).grows hgrows⟩

omit [DecidableEq Proc] in
theorem Exclusive.spawn (h : Exclusive ident w) (hp : w.alive.all (fun other => ident.pid other ≠ ident.pid p) = true) :
    Exclusive ident { w with alive := w.alive ++ [p] } := by
  have hfresh : ∀ other ∈ w.alive, ident.pid other ≠ ident.pid p := fun other hother =>
    of_decide_eq_true (List.all_eq_true.1 hp other hother)
  refine ⟨h.file, h.owner, h.one, fun q hq => ?_, fun q hq r hr heq => ?_, h.times, h.current, h.stages⟩
  · exact h.alive q fun hmem => hq (List.mem_append_left _ hmem)
  · rcases List.mem_append.1 hq with hq | hq <;> rcases List.mem_append.1 hr with hr | hr
    · exact h.pids q hq r hr heq
    · rw [List.mem_singleton.1 hr] at heq
      exact absurd heq (hfresh q hq)
    · rw [List.mem_singleton.1 hq] at heq
      exact absurd heq.symm (hfresh r hr)
    · rw [List.mem_singleton.1 hq, List.mem_singleton.1 hr]

theorem Exclusive.crash (h : Exclusive ident w) (p : Proc) :
    Exclusive ident { w.put p .idle with alive := w.alive.filter (· ≠ p) } := by
  have hidle := h.put (p := p) (.inr rfl) (List.nil_subperm ..) fun task htask => nomatch htask
  refine ⟨hidle.file, hidle.owner, hidle.one, fun q hq => ?_, fun q hq r hr => ?_, hidle.times, hidle.current, hidle.stages⟩
  · by_cases hqp : q = p
    · subst hqp
      exact World.put_self ..
    · exact hidle.alive q fun hmem => hq (List.mem_filter.2 ⟨hmem, decide_eq_true hqp⟩)
  · exact h.pids q (List.mem_filter.1 hq).1 r (List.mem_filter.1 hr).1

/-- No lock is held for too long, whoever asks. -/
def InTime (w : World Proc) : Label Proc → Prop
  | .inspect p i _ => ∀ task ∈ (w.procs p).tasks[i]?, Brief w task.staleMs
  | .statLock p i => ∀ task ∈ (w.procs p).tasks[i]?, Brief w task.staleMs
  | _ => True

def Stage.Clean (ident : Identity Proc) (w : World Proc) (p : Proc) : Stage → Prop
  | .hasRead seen => Forgets ident w p seen
  | .removing seen => Decided w seen
  | _ => True

/-- A step that forgets no lock of its own, and removes what it has decided about. -/
def Clean (ident : Identity Proc) (w : World Proc) : Label Proc → Prop
  | .inspect p i _ => ∀ task ∈ (w.procs p).tasks[i]?, task.stage.Clean ident w p
  | .removeLock p i => ∀ task ∈ (w.procs p).tasks[i]?, task.stage.Clean ident w p
  | _ => True

theorem Exclusive.lockStep (h : Exclusive ident w) (htime : InTime w label) (hclean : Clean ident w label)
    (hstep : lockStep ident w label = some w') : Exclusive ident w' := by
  cases label with
  | tick ms => exact Option.some.inj hstep ▸ h.tick ms
  | spawn p =>
    obtain ⟨hp, hstep⟩ := Option.ite_none_right_eq_some.1 hstep
    exact Option.some.inj hstep ▸ h.spawn hp
  | crash p => exact Option.some.inj hstep ▸ h.crash p
  | acquire p staleMs allowReentrant =>
    obtain ⟨hp, hstep⟩ := Option.ite_none_right_eq_some.1 hstep
    exact Option.some.inj hstep ▸ h.acquire hp staleMs allowReentrant
  | release p =>
    dsimp only [SessionWriteLock.lockStep] at hstep
    split at hstep
    case h_1 held hheld => exact Option.some.inj hstep ▸ h.release hheld
    case h_2 => cases hstep
  | removeOwn p j =>
    obtain ⟨hj, hstep⟩ := Option.ite_none_right_eq_some.1 hstep
    exact Option.some.inj hstep ▸ h.removeOwn hj
  | openLock p i =>
    dsimp only [SessionWriteLock.lockStep] at hstep
    split at hstep
    case h_1 htask => exact Option.some.inj hstep ▸ h.openLock htask
    case h_2 => cases hstep
  | prepare p i available =>
    dsimp only [SessionWriteLock.lockStep] at hstep
    split at hstep
    case h_1 htask => exact Option.some.inj hstep ▸ h.prepare htask available
    case h_2 => cases hstep
  | writeLock p i =>
    dsimp only [SessionWriteLock.lockStep] at hstep
    split at hstep
    case h_1 htask => exact Option.some.inj hstep ▸ h.writeLock htask
    case h_2 => cases hstep
  | failLock p i =>
    dsimp only [SessionWriteLock.lockStep] at hstep
    split at hstep
    case h_1 htask => exact Option.some.inj hstep ▸ h.failLock htask
    case h_2 => cases hstep
  | enter p i =>
    dsimp only [SessionWriteLock.lockStep] at hstep
    split at hstep
    case h_1 htask => exact Option.some.inj hstep ▸ h.enter htask
    case h_2 => cases hstep
  | readLock p i =>
    dsimp only [SessionWriteLock.lockStep] at hstep
    split at hstep
    case h_1 htask => exact Option.some.inj hstep ▸ h.readLock htask
    case h_2 => cases hstep
  | inspect p i available =>
    dsimp only [SessionWriteLock.lockStep] at hstep
    split at hstep
    case h_1 htask => exact Option.some.inj hstep ▸ h.inspect htask (htime _ htask) (hclean _ htask) available
    case h_2 => cases hstep
  | statLock p i =>
    dsimp only [SessionWriteLock.lockStep] at hstep
    split at hstep
    case h_1 htask => exact Option.some.inj hstep ▸ h.statLock htask (htime _ htask)
    case h_2 => cases hstep
  | removeLock p i =>
    dsimp only [SessionWriteLock.lockStep] at hstep
    split at hstep
    case h_1 htask => exact Option.some.inj hstep ▸ h.removeLock htask (hclean _ htask)
    case h_2 => cases hstep
  | giveUp p i =>
    dsimp only [SessionWriteLock.lockStep] at hstep
    split at hstep
    case h_1 htask => exact Option.some.inj hstep ▸ h.dropTask htask
    case h_2 => cases hstep

omit [DecidableEq Proc] in
theorem World.Starts.exclusive (h : w.Starts) : Exclusive ident w := by
  have howned : ∀ p, (w.procs p).owned = [] := fun p => by rw [h.procs p]; rfl
  refine ⟨fun p id hid => ?_, fun p q id hid => ?_, fun p => ?_, fun p _ => h.procs p, fun p hp => ?_, h.born,
    fun file hfile => ⟨h.nextId file hfile, fun q hq => ?_⟩, fun p task htask => ?_⟩
  · rw [howned p] at hid
    cases hid
  · rw [howned p] at hid
    cases hid
  · rw [howned p]
    exact Nat.zero_le _
  · rw [h.alive] at hp
    cases hp
  · rw [howned q] at hq
    cases hq
  · rw [h.procs p] at htask
    cases htask

/-- One process at most holds the lock, and as long as it does the file in place is its own. -/
def Excludes (w : World Proc) : Prop :=
  (∀ p q, (w.procs p).held.isSome → (w.procs q).held.isSome → p = q) ∧
    ∀ p, ∀ held ∈ (w.procs p).held, ∃ file ∈ w.file, file.id = held.id

omit [DecidableEq Proc] in
theorem Exclusive.excludes (h : Exclusive ident w) : Excludes w := by
  have howned : ∀ p, ∀ held ∈ (w.procs p).held, held.id ∈ (w.procs p).owned := by
    intro p held hheld
    unfold Process.owned
    rw [show (w.procs p).held = some held from hheld]
    exact List.mem_append_left _ (List.mem_append_left _ (List.mem_cons_self ..))
  refine ⟨fun p q hp hq => ?_, fun p held hheld => h.file p _ (howned p held hheld)⟩
  obtain ⟨held, hheld⟩ := Option.isSome_iff_exists.1 hp
  obtain ⟨other, hother⟩ := Option.isSome_iff_exists.1 hq
  by_contra hne
  have hnil := h.alone (howned q other hother) hne
  have hmem := howned p held hheld
  rw [hnil] at hmem
  cases hmem

theorem lock_excludes (h : (lockSystem ident).ReachableBy (fun w label => InTime w label ∧ Clean ident w label) w) :
    Excludes w :=
  (h.invariant (I := Exclusive ident) (fun _ => World.Starts.exclusive)
    fun _ _ _ hi hok hstep => hi.lockStep hok.1 hok.2 hstep).excludes

-- ---
-- Two processes, and a lock that a third has left
-- ---

section Runs

variable [Fintype Proc]

instance decidableBrief (staleMs : Int) : Decidable (Brief w staleMs) :=
  inferInstanceAs (Decidable (∀ file ∈ w.file, ∀ q, file.id ∈ (w.procs q).owned → w.now - file.bornMs ≤ staleMs))

instance decidableInTime : ∀ label, Decidable (InTime w label)
  | .inspect p i _ => inferInstanceAs (Decidable (∀ task ∈ (w.procs p).tasks[i]?, Brief w task.staleMs))
  | .statLock p i => inferInstanceAs (Decidable (∀ task ∈ (w.procs p).tasks[i]?, Brief w task.staleMs))
  | .tick _ | .spawn _ | .crash _ | .acquire .. | .openLock .. | .prepare .. | .writeLock .. | .failLock .. | .enter .. |
    .readLock .. | .removeLock .. | .giveUp .. | .release _ | .removeOwn .. => isTrue trivial

instance decidableForgets (seen : Option LockFile) : Decidable (Forgets ident w p seen) :=
  inferInstanceAs (Decidable
    (shouldTreatAsOrphanSelfLock (seen.bind LockFile.payload) (ident.pid p) (w.procs p).held.isSome = true →
      ∀ file ∈ seen, file.id ∉ (w.procs p).owned))

instance decidableDecided (seen : Option LockFile) : Decidable (Decided w seen) :=
  inferInstanceAs (Decidable (∀ file ∈ w.file, (∃ other ∈ seen, other.id = file.id) ∨ ∀ q, file.id ∉ (w.procs q).owned))

instance decidableStageClean : ∀ stage : Stage, Decidable (stage.Clean ident w p)
  | .hasRead seen => decidableForgets seen
  | .removing seen => decidableDecided seen
  | .trying | .created _ | .prepared _ _ | .written _ | .contended | .statting _ => isTrue trivial

instance decidableClean : ∀ label, Decidable (Clean ident w label)
  | .inspect p i _ => inferInstanceAs (Decidable (∀ task ∈ (w.procs p).tasks[i]?, task.stage.Clean ident w p))
  | .removeLock p i => inferInstanceAs (Decidable (∀ task ∈ (w.procs p).tasks[i]?, task.stage.Clean ident w p))
  | .tick _ | .spawn _ | .crash _ | .acquire .. | .openLock .. | .prepare .. | .writeLock .. | .failLock .. | .enter .. |
    .readLock .. | .statLock .. | .giveUp .. | .release _ | .removeOwn .. => isTrue trivial

end Runs

def sampleIdentity : Identity Bool where
  pid p := if p then 11 else 10
  pid_pos p := by cases p <;> decide
  startTime p := if p then 700 else 600

/-- The lock of a process with the pid 9, which is gone. -/
def leftBehind : World Bool where
  now := 5000
  alive := []
  file := some ⟨0, some ⟨some 9, some 4000, some 500⟩, 4000, 4000⟩
  nextId := 1
  procs _ := .idle

theorem leftBehind_starts : leftBehind.Starts := by
  refine ⟨rfl, fun _ => rfl, fun file hfile => ?_, fun file hfile => ?_⟩
  · obtain rfl := Option.some.inj hfile
    decide
  · obtain rfl := Option.some.inj hfile
    decide

def takesLock (p : Bool) : List (Label Bool) := [.openLock p 0, .prepare p 0 true, .writeLock p 0, .enter p 0]

def findsStale (p : Bool) : List (Label Bool) := [.openLock p 0, .readLock p 0, .inspect p 0 true]

def bothStart : List (Label Bool) := [.spawn false, .spawn true, .acquire false 1800000 true, .acquire true 1800000 true]

/-- One reclaims the lock, and the other finds it taken. -/
def oneReclaims : List (Label Bool) :=
  bothStart ++ findsStale false ++ [.removeLock false 0] ++ takesLock false ++ findsStale true

theorem lock_excludes_sample : ∃ w : World Bool, (w.procs false).held.isSome ∧ Excludes w := by
  obtain ⟨w, hrun, hheld⟩ : ∃ w, (lockSystem sampleIdentity).runBy
      (fun w label => InTime w label ∧ Clean sampleIdentity w label) leftBehind oneReclaims = some w ∧
        (w.procs false).held.isSome := ⟨_, rfl, rfl⟩
  exact ⟨w, hheld, lock_excludes (.runBy (.init leftBehind_starts) hrun)⟩

/-- Both find it stale. The second removes the lock that the first has taken. -/
def bothReclaim : List (Label Bool) :=
  bothStart ++ findsStale false ++ findsStale true ++ [.removeLock false 0] ++ takesLock false ++ [.removeLock true 0] ++
    takesLock true

theorem not_lock_excludes :
    ¬ ∀ (Proc : Type) [DecidableEq Proc] (ident : Identity Proc) (w : World Proc),
      (lockSystem ident).ReachableBy (fun w label => InTime w label) w → Excludes w := by
  intro h
  obtain ⟨w, hrun, hfalse, htrue⟩ : ∃ w,
      (lockSystem sampleIdentity).runBy (fun w label => InTime w label) leftBehind bothReclaim = some w ∧
        (w.procs false).held.isSome ∧ (w.procs true).held.isSome := ⟨_, rfl, rfl, rfl⟩
  have hexcludes := h Bool sampleIdentity w (.runBy (.init leftBehind_starts) hrun)
  cases hexcludes.1 false true hfalse htrue

end OpenClaw.SessionWriteLock
