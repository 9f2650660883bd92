import Mathlib.Data.List.Nodup
import OpenClaw.Process.CommandQueue

/-!
# The invariant of the command queue

Each lane accounts for its entries in order, has room for the entry its pump
has in hand, and is served by some frame of the stack whenever it could start
an entry.
-/

namespace OpenClaw.CommandQueue

open Js (Number)
open QueueState

-- ---
-- What the stack and the history hold
-- ---

def Frame.opens? (lane : String) : Frame → Option Entry
  | .opening lane' entry => if lane' = lane then some entry else none
  | _ => none

/-- The entries of a lane that are shifted and not started. -/
def openingIn (lane : String) (stack : List Frame) : List Entry := stack.filterMap (Frame.opens? lane)

def Frame.holds? : Frame → Option Entry
  | .completing _ entry => some entry
  | .settle entry => some entry
  | _ => none

/-- The entries of finished tasks that are not settled. -/
def held (stack : List Frame) : List Entry := stack.filterMap Frame.holds?

section
variable (lane l : String) (e : Entry) (stack : List Frame)

@[simp] theorem openingIn_nil : openingIn lane [] = [] := rfl

@[simp] theorem openingIn_opening :
    openingIn lane (.opening l e :: stack) = if l = lane then e :: openingIn lane stack
      else openingIn lane stack := by
  by_cases h : l = lane <;> simp [openingIn, Frame.opens?, h]

@[simp] theorem openingIn_enqueued :
    openingIn lane (.enqueued l :: stack) = openingIn lane stack := rfl

@[simp] theorem openingIn_pump : openingIn lane (.pump l :: stack) = openingIn lane stack := rfl

@[simp] theorem openingIn_task (id : Nat) :
    openingIn lane (.task id :: stack) = openingIn lane stack := rfl

@[simp] theorem openingIn_completing :
    openingIn lane (.completing l e :: stack) = openingIn lane stack := rfl

@[simp] theorem openingIn_settle : openingIn lane (.settle e :: stack) = openingIn lane stack := rfl

@[simp] theorem openingIn_resetting (lanes : List String) :
    openingIn lane (.resetting lanes :: stack) = openingIn lane stack := rfl

@[simp] theorem held_completing : held (.completing l e :: stack) = e :: held stack := rfl

@[simp] theorem held_settle : held (.settle e :: stack) = e :: held stack := rfl

end

/-- The frame will run the pump of the lane. -/
def Frame.serves (lane : String) : Frame → Bool
  | .enqueued lane' => lane' = lane
  | .pump lane' => lane' = lane
  | .completing lane' _ => lane' = lane
  | .resetting lanes => lane ∈ lanes
  | _ => false

def enqueuedIn (h : History) (lane : String) : List Entry :=
  (h.enqueued.filter (·.1 = lane)).map (·.2)

def startedIn (h : History) (lane : String) : List Entry :=
  (h.starts.filter (·.lane = lane)).map (·.entry)

/-- The entries of a lane in the order of their enqueuing, less those cleared. -/
def remaining (h : History) (lane : String) : List Entry :=
  (enqueuedIn h lane).filter (· ∉ h.cleared)

theorem mem_enqueuedIn {h : History} : entry ∈ enqueuedIn h lane ↔ (lane, entry) ∈ h.enqueued := by
  simp [enqueuedIn]

theorem mem_startedIn {h : History} :
    entry ∈ startedIn h lane ↔ ∃ r ∈ h.starts, r.lane = lane ∧ r.entry = entry := by
  simp [startedIn, and_assoc]

/-- A lane in good order; `extra` says that someone off the stack will serve it. -/
structure LaneOk (extra : Prop) (s : QueueState) (lane : String) : Prop where
  ledger : remaining s.history lane =
    startedIn s.history lane ++ openingIn lane s.stack ++ (s.lanes lane).queue
  one : (openingIn lane s.stack).length ≤ 1
  room : openingIn lane s.stack ≠ [] → hasRoom (s.lanes lane) = true
  limit : Number.lt (.ofInt 0) (s.lanes lane).maxConcurrent = true
  draining : (s.lanes lane).draining = true → .pump lane ∈ s.stack
  served : (s.lanes lane).queue ≠ [] → hasRoom (s.lanes lane) = true →
    (∃ f ∈ s.stack, f.serves lane = true) ∨ extra
  known : (s.lanes lane).queue ≠ [] → lane ∈ s.laneOrder

/-- Entries are numbered afresh, and each is settled by at most one party. -/
structure HistoryOk (s : QueueState) : Prop where
  nodup : (s.history.enqueued.map (·.2)).Nodup
  fresh : ∀ e ∈ s.history.enqueued, e.2 < s.nextEntry
  startsOnce : (s.history.starts.map (·.entry)).Nodup
  startsEnqueued : ∀ r ∈ s.history.starts, (r.lane, r.entry) ∈ s.history.enqueued
  withinLimit : ∀ r ∈ s.history.starts, Number.lt (.ofInt r.active) r.maxConcurrent = true
  settle : (s.tasks.map (·.entry) ++ held s.stack ++ s.history.settled).Nodup
  ongoing : ∀ e ∈ s.tasks.map (·.entry) ++ held s.stack, e ∈ s.history.starts.map (·.entry)
  clearedFresh : ∀ e ∈ s.history.cleared, e < s.nextEntry
  settledFresh : ∀ e ∈ s.history.settled, e < s.nextEntry
  settledFrom : ∀ e ∈ s.history.settled, e ∈ s.history.cleared ∨
    e ∈ s.history.starts.map (·.entry) ∨ e ∉ s.history.enqueued.map (·.2)

structure Inv (extra : String → Prop) (s : QueueState) : Prop where
  lane : ∀ lane, LaneOk (extra lane) s lane
  history : HistoryOk s

theorem inv_init : Inv (fun _ => False) {} where
  lane lane :=
    { ledger := rfl
      one := Nat.zero_le 1
      room := fun h => absurd rfl h
      limit := by simp [Number.lt, Number.ofInt]
      draining := nofun
      served := fun h => absurd rfl h
      known := fun h => absurd rfl h }
  history := by constructor <;> simp [held]

variable {s : QueueState} {extra extra' : String → Prop}

/-- What a lane depends on. -/
theorem LaneOk.congr {s s' : QueueState} {P P' : Prop} {lane : String} (h : LaneOk P s lane)
    (hlane : s'.lanes lane = s.lanes lane)
    (hremaining : remaining s'.history lane = remaining s.history lane)
    (hstarted : startedIn s'.history lane = startedIn s.history lane)
    (hopening : openingIn lane s'.stack = openingIn lane s.stack)
    (hpump : .pump lane ∈ s.stack → .pump lane ∈ s'.stack)
    (hserves : (∃ f ∈ s.stack, f.serves lane = true) → (∃ f ∈ s'.stack, f.serves lane = true) ∨ P')
    (hextra : P → P') (hknown : lane ∈ s.laneOrder → lane ∈ s'.laneOrder) : LaneOk P' s' lane where
  ledger := by rw [hremaining, hstarted, hopening, hlane]; exact h.ledger
  one := by rw [hopening]; exact h.one
  room := by rw [hopening, hlane]; exact h.room
  limit := by rw [hlane]; exact h.limit
  draining := by rw [hlane]; exact fun hd => hpump (h.draining hd)
  served := by
    rw [hlane]
    intro hq hr
    rcases h.served hq hr with hs | hp
    · exact hserves hs
    · exact .inr (hextra hp)
  known := by rw [hlane]; exact fun hq => hknown (h.known hq)

theorem Inv.mono (h : Inv extra s) (himp : ∀ lane, extra lane → extra' lane) : Inv extra' s where
  lane lane := (h.lane lane).congr rfl rfl rfl rfl id .inl (himp lane) id
  history := h.history

/-- The history depends on the frames only by what they hold. -/
theorem HistoryOk.congr {s s' : QueueState} (h : HistoryOk s) (hhistory : s'.history = s.history)
    (hnext : s'.nextEntry = s.nextEntry) (htasks : s'.tasks = s.tasks)
    (hheld : held s'.stack = held s.stack) : HistoryOk s' := by
  obtain ⟨nodup, fresh, once, enq, within, settle, ongoing, clearedFresh, settledFresh, hfrom⟩ := h
  constructor <;> simpa only [hhistory, hnext, htasks, hheld]

/-- A new start, of an entry that was waiting. -/
theorem HistoryOk.start {s s' : QueueState} (h : HistoryOk s) {r : Start} {task : Task}
    (hhistory : s'.history = { s.history with starts := s.history.starts ++ [r] })
    (hnext : s'.nextEntry = s.nextEntry) (htasks : s'.tasks = s.tasks ++ [task])
    (hentry : task.entry = r.entry) (hheld : held s'.stack = held s.stack)
    (henq : (r.lane, r.entry) ∈ s.history.enqueued) (hcleared : r.entry ∉ s.history.cleared)
    (hnew : r.entry ∉ s.history.starts.map (·.entry))
    (hroom : Number.lt (.ofInt r.active) r.maxConcurrent = true) : HistoryOk s' := by
  obtain ⟨nodup, fresh, once, enq, within, settle, ongoing, clearedFresh, settledFresh, hfrom⟩ := h
  have hsettled : r.entry ∉ s.history.settled := fun hmem => by
    rcases hfrom _ hmem with hc | hs | hn
    · exact hcleared hc
    · exact hnew hs
    · exact hn (List.mem_map_of_mem henq)
  have hstarts : s'.history.starts.map (·.entry) = s.history.starts.map (·.entry) ++ [r.entry] := by
    simp [hhistory]
  have hmem (e) (he : e ∈ s.history.starts.map (·.entry)) : e ∈ s'.history.starts.map (·.entry) :=
    hstarts ▸ List.mem_append_left _ he
  have hlist : s'.tasks.map (·.entry) ++ held s'.stack ++ s'.history.settled =
      s.tasks.map (·.entry) ++ r.entry :: (held s.stack ++ s.history.settled) := by
    simp [htasks, hentry, hheld, hhistory]
  constructor
  · simpa only [hhistory] using nodup
  · simpa only [hhistory, hnext] using fresh
  · rw [hstarts, List.nodup_append]
    refine ⟨once, List.nodup_singleton _, fun x hx y hy => ?_⟩
    rw [List.mem_singleton.mp hy]
    rintro rfl
    exact hnew hx
  · rw [hhistory]
    exact List.forall_mem_append.mpr ⟨enq, List.forall_mem_singleton.mpr henq⟩
  · rw [hhistory]
    exact List.forall_mem_append.mpr ⟨within, List.forall_mem_singleton.mpr hroom⟩
  · rw [hlist, List.nodup_middle, List.nodup_cons, ← List.append_assoc]
    refine ⟨fun hx => ?_, settle⟩
    rcases List.mem_append.mp hx with hx | hx
    · exact hnew (ongoing _ hx)
    · exact hsettled hx
  · intro e he
    have he : e = r.entry ∨ e ∈ s.tasks.map (·.entry) ++ held s.stack := by
      rw [htasks, hheld, List.map_append, List.map_singleton, hentry] at he
      simp only [List.mem_append, List.mem_singleton] at he ⊢
      tauto
    rcases he with rfl | he
    · rw [hstarts]
      exact List.mem_append_right _ (List.mem_singleton_self _)
    · exact hmem e (ongoing e he)
  · simpa only [hhistory, hnext] using clearedFresh
  · simpa only [hhistory, hnext] using settledFresh
  · intro e he
    rw [hhistory] at he
    rcases hfrom e he with hc | hs | hn
    · exact .inl (by rw [hhistory]; exact hc)
    · exact .inr (.inl (hmem e hs))
    · exact .inr (.inr (by rw [hhistory]; exact hn))

/-- A task is done, and its entry now in hand. -/
theorem HistoryOk.finish {s s' : QueueState} (h : HistoryOk s) {task : Task}
    (htask : task ∈ s.tasks) (hhistory : s'.history = s.history) (hnext : s'.nextEntry = s.nextEntry)
    (htasks : s'.tasks = s.tasks.filter (·.id ≠ task.id))
    (hheld : held s'.stack = task.entry :: held s.stack) : HistoryOk s' := by
  obtain ⟨nodup, fresh, once, enq, within, settle, ongoing, clearedFresh, settledFresh, hfrom⟩ := h
  have hother : task.entry ∉ s'.tasks.map (·.entry) := fun hmem => by
    obtain ⟨t, ht, heq⟩ := List.mem_map.mp hmem
    rw [htasks] at ht
    obtain ⟨ht, hid⟩ := List.mem_filter.mp ht
    have htasksNodup := (List.nodup_append.mp (List.nodup_append.mp settle).1).1
    obtain rfl := List.inj_on_of_nodup_map htasksNodup ht htask heq
    simp at hid
  have hsub : (s'.tasks.map (·.entry)).Sublist (s.tasks.map (·.entry)) := by
    rw [htasks]
    exact List.filter_sublist.map _
  have hin : task.entry ∈ s.tasks.map (·.entry) := List.mem_map_of_mem htask
  rw [List.append_assoc] at settle
  obtain ⟨-, hrest, hdisjoint⟩ := List.nodup_append.mp settle
  constructor
  · simpa only [hhistory] using nodup
  · simpa only [hhistory, hnext] using fresh
  · simpa only [hhistory] using once
  · simpa only [hhistory] using enq
  · simpa only [hhistory] using within
  · rw [hheld, hhistory, List.append_assoc, List.cons_append, List.nodup_middle, List.nodup_cons]
    refine ⟨fun hmem => ?_, (hsub.append (List.Sublist.refl _)).nodup settle⟩
    rcases List.mem_append.mp hmem with hmem | hmem
    · exact hother hmem
    · exact hdisjoint _ hin _ hmem rfl
  · intro e he
    rw [hhistory]
    rw [hheld] at he
    rcases List.mem_append.mp he with he | he
    · exact ongoing e (List.mem_append_left _ (hsub.subset he))
    · rcases List.mem_cons.mp he with rfl | he
      · exact ongoing _ (List.mem_append_left _ hin)
      · exact ongoing e (List.mem_append_right _ he)
  · simpa only [hhistory, hnext] using clearedFresh
  · simpa only [hhistory, hnext] using settledFresh
  · simpa only [hhistory] using hfrom

/-- The entry in hand is settled. -/
theorem HistoryOk.settled {s s' : QueueState} (h : HistoryOk s)
    (hhistory : s'.history = { s.history with settled := s.history.settled ++ [entry] })
    (hnext : s'.nextEntry = s.nextEntry) (htasks : s'.tasks = s.tasks)
    (hheld : held s.stack = entry :: held s'.stack) : HistoryOk s' := by
  obtain ⟨nodup, fresh, once, enq, within, settle, ongoing, clearedFresh, settledFresh, hfrom⟩ := h
  have hstarted : entry ∈ s.history.starts.map (·.entry) :=
    ongoing entry (List.mem_append_right _ (hheld ▸ List.mem_cons_self))
  obtain ⟨r, hr, rfl⟩ := List.mem_map.mp hstarted
  constructor
  · simpa only [hhistory] using nodup
  · simpa only [hhistory, hnext] using fresh
  · simpa only [hhistory] using once
  · simpa only [hhistory] using enq
  · simpa only [hhistory] using within
  · rw [hheld] at settle
    rw [hhistory, htasks, ← List.append_assoc]
    refine List.Perm.nodup ?_ settle
    rw [List.append_assoc, List.append_assoc, List.append_assoc]
    refine List.Perm.append_left _ ?_
    rw [← List.append_assoc]
    exact (List.perm_append_singleton _ _).symm
  · intro e he
    rw [hhistory]
    rw [htasks] at he
    refine ongoing e ?_
    rw [hheld]
    rcases List.mem_append.mp he with he | he
    · exact List.mem_append_left _ he
    · exact List.mem_append_right _ (List.mem_cons_of_mem _ he)
  · simpa only [hhistory, hnext] using clearedFresh
  · rw [hhistory, hnext]
    exact List.forall_mem_append.mpr
      ⟨settledFresh, List.forall_mem_singleton.mpr (fresh _ (enq r hr))⟩
  · rw [hhistory]
    exact List.forall_mem_append.mpr ⟨hfrom, List.forall_mem_singleton.mpr (.inr (.inl hstarted))⟩

/-- A new entry, queued in a lane or refused at once. -/
theorem HistoryOk.enqueue {s s' : QueueState} (h : HistoryOk s)
    (hhistory : s'.history = { s.history with
      enqueued := s.history.enqueued ++ [(lane, s.nextEntry)] })
    (hnext : s'.nextEntry = s.nextEntry + 1) (htasks : s'.tasks = s.tasks)
    (hheld : held s'.stack = held s.stack) : HistoryOk s' := by
  obtain ⟨nodup, fresh, once, enq, within, settle, ongoing, clearedFresh, settledFresh, hfrom⟩ := h
  have hnew : s.nextEntry ∉ s.history.enqueued.map (·.2) := fun hmem => by
    obtain ⟨e, he, heq⟩ := List.mem_map.mp hmem
    exact absurd (fresh e he) (by simp [heq])
  have hlist : s'.history.enqueued.map (·.2) = s.history.enqueued.map (·.2) ++ [s.nextEntry] := by
    simp [hhistory]
  constructor
  · rw [hlist, List.nodup_append]
    refine ⟨nodup, List.nodup_singleton _, fun x hx y hy => ?_⟩
    rw [List.mem_singleton.mp hy]
    rintro rfl
    exact hnew hx
  · rw [hhistory, hnext]
    exact List.forall_mem_append.mpr ⟨fun e he => Nat.lt_succ_of_lt (fresh e he),
      List.forall_mem_singleton.mpr (Nat.lt_succ_self _)⟩
  · simpa only [hhistory] using once
  · rw [hhistory]
    exact fun r hr => List.mem_append_left _ (enq r hr)
  · simpa only [hhistory] using within
  · simpa only [hhistory, htasks, hheld] using settle
  · simpa only [hhistory, htasks, hheld] using ongoing
  · rw [hhistory, hnext]
    exact fun e he => Nat.lt_succ_of_lt (clearedFresh e he)
  · rw [hhistory, hnext]
    exact fun e he => Nat.lt_succ_of_lt (settledFresh e he)
  · intro e he
    rw [hhistory] at he
    rw [hlist, hhistory]
    refine (hfrom e he).imp id (Or.imp id fun hn hmem => ?_)
    rcases List.mem_append.mp hmem with hmem | hmem
    · exact hn hmem
    · exact absurd (settledFresh e he) (by simp [List.mem_singleton.mp hmem])

theorem HistoryOk.refuse {s s' : QueueState} (h : HistoryOk s)
    (hhistory : s'.history = { s.history with settled := s.history.settled ++ [s.nextEntry] })
    (hnext : s'.nextEntry = s.nextEntry + 1) (htasks : s'.tasks = s.tasks)
    (hheld : held s'.stack = held s.stack) : HistoryOk s' := by
  obtain ⟨nodup, fresh, once, enq, within, settle, ongoing, clearedFresh, settledFresh, hfrom⟩ := h
  have hnew : s.nextEntry ∉ s.history.enqueued.map (·.2) := fun hmem => by
    obtain ⟨e, he, heq⟩ := List.mem_map.mp hmem
    exact absurd (fresh e he) (by simp [heq])
  have hnotStarted : s.nextEntry ∉ s.history.starts.map (·.entry) := fun hmem => by
    obtain ⟨r, hr, heq⟩ := List.mem_map.mp hmem
    exact hnew (heq ▸ List.mem_map_of_mem (enq r hr))
  constructor
  · simpa only [hhistory] using nodup
  · rw [hhistory, hnext]
    exact fun e he => Nat.lt_succ_of_lt (fresh e he)
  · simpa only [hhistory] using once
  · simpa only [hhistory] using enq
  · simpa only [hhistory] using within
  · rw [hhistory, htasks, hheld, ← List.append_assoc, List.nodup_append]
    refine ⟨settle, List.nodup_singleton _, fun x hx y hy => ?_⟩
    rw [List.mem_singleton.mp hy]
    rintro rfl
    rcases List.mem_append.mp hx with hx | hx
    · exact hnotStarted (ongoing _ hx)
    · exact Nat.lt_irrefl _ (settledFresh _ hx)
  · simpa only [hhistory, htasks, hheld] using ongoing
  · rw [hhistory, hnext]
    exact fun e he => Nat.lt_succ_of_lt (clearedFresh e he)
  · rw [hhistory, hnext]
    exact List.forall_mem_append.mpr ⟨fun e he => Nat.lt_succ_of_lt (settledFresh e he),
      List.forall_mem_singleton.mpr (Nat.lt_succ_self _)⟩
  · rw [hhistory]
    exact List.forall_mem_append.mpr ⟨hfrom, List.forall_mem_singleton.mpr (.inr (.inr hnew))⟩

/-- The entries that wait in a lane are cleared. -/
theorem HistoryOk.clear {s s' : QueueState} (h : HistoryOk s)
    (hhistory : s'.history = { s.history with
      cleared := s.history.cleared ++ pending, settled := s.history.settled ++ pending })
    (hnext : s'.nextEntry = s.nextEntry) (htasks : s'.tasks = s.tasks)
    (hheld : held s'.stack = held s.stack) (hpending : pending.Nodup)
    (hwaiting : ∀ e ∈ pending, e ∈ s.history.enqueued.map (·.2) ∧ e ∉ s.history.cleared ∧
      e ∉ s.history.starts.map (·.entry)) : HistoryOk s' := by
  obtain ⟨nodup, fresh, once, enq, within, settle, ongoing, clearedFresh, settledFresh, hfrom⟩ := h
  have hpendingFresh : ∀ e ∈ pending, e < s.nextEntry := fun e he => by
    obtain ⟨x, hx, rfl⟩ := List.mem_map.mp (hwaiting e he).1
    exact fresh x hx
  constructor
  · simpa only [hhistory] using nodup
  · simpa only [hhistory, hnext] using fresh
  · simpa only [hhistory] using once
  · simpa only [hhistory] using enq
  · simpa only [hhistory] using within
  · rw [hhistory, htasks, hheld, ← List.append_assoc, List.nodup_append]
    refine ⟨settle, hpending, fun x hx y hy => ?_⟩
    rintro rfl
    obtain ⟨henq, hcleared, hnew⟩ := hwaiting x hy
    rcases List.mem_append.mp hx with hx | hx
    · exact hnew (ongoing _ hx)
    · rcases hfrom x hx with hc | hs | hn
      · exact hcleared hc
      · exact hnew hs
      · exact hn henq
  · simpa only [hhistory, htasks, hheld] using ongoing
  · rw [hhistory, hnext]
    exact List.forall_mem_append.mpr ⟨clearedFresh, hpendingFresh⟩
  · rw [hhistory, hnext]
    exact List.forall_mem_append.mpr ⟨settledFresh, hpendingFresh⟩
  · rw [hhistory]
    refine List.forall_mem_append.mpr ⟨fun e he => ?_, fun e he => ?_⟩
    · exact (hfrom e he).imp (List.mem_append_left _) id
    · exact .inl (List.mem_append_right _ he)

/-- Frames may change as long as the same entries are in hand, and every lane
that was served still is. -/
theorem Inv.restack (t' : List Frame) (extra' : String → Prop) (h : Inv extra s)
    (hstack : s.stack = t)
    (hopening : ∀ lane, openingIn lane t' = openingIn lane t) (hheld : held t' = held t)
    (hpump : ∀ lane, .pump lane ∈ t → .pump lane ∈ t')
    (hserves : ∀ lane, (∃ f ∈ t, f.serves lane = true) →
      (∃ f ∈ t', f.serves lane = true) ∨ extra' lane) :
    Inv (fun lane => extra lane ∨ extra' lane) (s.setStack t') := by
  subst hstack
  refine ⟨fun lane => ?_, h.history.congr rfl rfl rfl hheld⟩
  exact (h.lane lane).congr rfl rfl rfl (hopening lane) (hpump lane)
    (fun hs => (hserves lane hs).imp id .inr) .inl id

-- ---
-- Draining
-- ---

@[simp] theorem setLane_self (lane : String) (f : LaneState → LaneState) :
    (s.setLane lane f).lanes lane = f (s.lanes lane) := by simp [setLane]

@[simp] theorem setLane_other {lane lane' : String} (f : LaneState → LaneState) (h : lane' ≠ lane) :
    (s.setLane lane f).lanes lane' = s.lanes lane' := by simp [setLane, h]

@[simp] theorem setLane_stack (lane : String) (f : LaneState → LaneState) :
    (s.setLane lane f).stack = s.stack := rfl

@[simp] theorem setLane_history (lane : String) (f : LaneState → LaneState) :
    (s.setLane lane f).history = s.history := rfl

@[simp] theorem setLane_tasks (lane : String) (f : LaneState → LaneState) :
    (s.setLane lane f).tasks = s.tasks := rfl

@[simp] theorem setStack_tasks (stack : List Frame) : (s.setStack stack).tasks = s.tasks := rfl

@[simp] theorem setStack_stack (stack : List Frame) : (s.setStack stack).stack = stack := rfl

@[simp] theorem setStack_lanes (stack : List Frame) : (s.setStack stack).lanes = s.lanes := rfl

@[simp] theorem setStack_history (stack : List Frame) : (s.setStack stack).history = s.history := rfl

/-- The lanes that exist once `getLaneState` was asked for one. -/
abbrev noted (s : QueueState) (lane : String) : List String :=
  if lane ∈ s.laneOrder then s.laneOrder else s.laneOrder ++ [lane]

theorem mem_noted (s : QueueState) (lane : String) : lane ∈ noted s lane := by
  simp only [noted]
  split
  · assumption
  · simp

theorem noted_of_mem {lane lane' : String} (h : lane' ∈ s.laneOrder) : lane' ∈ noted s lane := by
  simp only [noted]
  split
  · exact h
  · exact List.mem_append_left _ h

theorem served_of_subset {t t' : List Frame} (hsub : t ⊆ t') (h : ∃ f ∈ t, Frame.serves lane f = true) :
    ∃ f ∈ t', f.serves lane = true :=
  h.imp fun _ hf => And.imp_left (hsub ·) hf

/-- A lane that is not touched stays in order. -/
theorem LaneOk.frame {P P' : Prop} {lane lane' : String} {stack : List Frame}
    (h : LaneOk P s lane') (f : LaneState → LaneState) (hne : lane' ≠ lane)
    (hopening : openingIn lane' stack = openingIn lane' s.stack)
    (hpump : .pump lane' ∈ s.stack → .pump lane' ∈ stack)
    (hserves : (∃ g ∈ s.stack, g.serves lane' = true) → ∃ g ∈ stack, g.serves lane' = true)
    (hextra : P → P') : LaneOk P' ((s.setLane lane f).setStack stack) lane' :=
  h.congr (setLane_other f hne) rfl rfl hopening hpump (fun hs => .inl (hserves hs)) hextra
    noted_of_mem

/-- Draining a lane serves it: by a new pump, or by the one that is running. -/
theorem Inv.drainLane (h : Inv extra s) (lane : String) :
    Inv (fun l => extra l ∧ l ≠ lane) (s.drainLane lane) := by
  simp only [QueueState.drainLane]
  split
  · rename_i hd
    refine ⟨fun lane' => ?_, h.history⟩
    by_cases hne : lane' = lane
    · subst hne
      have hl := h.lane lane'
      exact { hl with served := fun _ _ => .inl ⟨_, hl.draining hd, by simp [Frame.serves]⟩ }
    · exact (h.lane lane').congr rfl rfl rfl rfl id .inl (fun he => ⟨he, hne⟩) id
  · refine ⟨fun lane' => ?_, h.history.congr rfl rfl rfl rfl⟩
    by_cases hne : lane' = lane
    · subst hne
      have hl := h.lane lane'
      refine ⟨?_, hl.one, ?_, ?_, fun _ => List.mem_cons_self, fun _ _ => .inl ⟨.pump lane',
        List.mem_cons_self, by simp [Frame.serves]⟩,
        fun _ => mem_noted s lane'⟩
      · simpa [push] using hl.ledger
      · simpa [push, hasRoom] using hl.room
      · simpa [push] using hl.limit
    · exact (h.lane lane').frame _ hne rfl (List.mem_cons_of_mem _)
        (served_of_subset (List.subset_cons_self _ _)) (fun he => ⟨he, hne⟩)

end OpenClaw.CommandQueue
