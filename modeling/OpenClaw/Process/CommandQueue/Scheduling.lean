import OpenClaw.Process.CommandQueue.Invariant

/-!
# Scheduling

Every function of the queue keeps the invariant, as long as no pump takes an
entry of a lane while another entry of the lane is shifted and not started.
-/

namespace OpenClaw.CommandQueue

open Js (Number)
open QueueState

variable {s : QueueState}

/-- No lane waits for anyone off the stack. -/
abbrev Settled (s : QueueState) : Prop := Inv (fun _ => False) s

theorem Inv.drained {lane : String} (h : Inv (fun l => l = lane) s) :
    Settled (s.drainLane lane) :=
  (h.drainLane lane).mono fun _ hl => hl.2 hl.1

theorem hasRoom_of_le {l l' : LaneState} (hmax : l'.maxConcurrent = l.maxConcurrent)
    (hle : l'.activeTaskIds.length ≤ l.activeTaskIds.length) (h : hasRoom l = true) :
    hasRoom l' = true := by
  simp only [hasRoom, hmax] at h ⊢
  exact Number.lt_ofInt_of_le (by exact_mod_cast hle) h

-- ---
-- The pump
-- ---

theorem pump_exit (h : Settled s) (hstack : s.stack = .pump lane :: rest)
    (hidle : (s.lanes lane).queue ≠ [] → hasRoom (s.lanes lane) = true → False) :
    Settled ((s.setLane lane fun l => { l with draining := false }).setStack rest) := by
  refine ⟨fun lane' => ?_, h.history.congr rfl rfl rfl (by rw [hstack]; rfl)⟩
  have hopening : openingIn lane' rest = openingIn lane' s.stack := by rw [hstack]; rfl
  by_cases hne : lane' = lane
  · subst hne
    have hl := h.lane lane'
    refine ⟨?_, hopening ▸ hl.one, ?_, ?_, ?_, ?_,
      fun _ => mem_noted s lane'⟩
    · simpa [hopening] using hl.ledger
    · simpa [hopening, hasRoom] using hl.room
    · simpa using hl.limit
    · simp
    · intro hq hr
      exact absurd (by simpa [hasRoom] using hr) (hidle (by simpa using hq))
  · refine (h.lane lane').frame _ hne hopening (fun hp => ?_) ?_ id
    · rw [hstack] at hp
      rcases List.mem_cons.mp hp with hp | hp
      · cases hp
        exact absurd rfl hne
      · exact hp
    · rintro ⟨f, hf, hs⟩
      rw [hstack] at hf
      rcases List.mem_cons.mp hf with rfl | hf
      · have heq : lane = lane' := by simpa [Frame.serves] using hs
        exact absurd heq.symm hne
      · exact ⟨f, hf, hs⟩

/-- The pump takes the first entry, when no other is in hand. -/
theorem pump_shift (h : Settled s) (hstack : s.stack = .pump lane :: rest)
    (hqueue : (s.lanes lane).queue = entry :: queue) (hroom : hasRoom (s.lanes lane) = true)
    (hopening : openingIn lane rest = []) :
    Settled ((s.setLane lane fun l => { l with queue }).setStack
      (.opening lane entry :: .pump lane :: rest)) := by
  refine ⟨fun lane' => ?_, h.history.congr rfl rfl rfl (by rw [hstack]; rfl)⟩
  have hmem : ∀ f ∈ s.stack, f ∈ Frame.opening lane entry :: .pump lane :: rest := fun f hf =>
    List.mem_cons_of_mem _ (hstack ▸ hf)
  by_cases hne : lane' = lane
  · subst hne
    have hl := h.lane lane'
    refine ⟨?_, ?_, fun _ => ?_, ?_, fun hd => ?_, fun _ _ => .inl ⟨.pump lane', by simp, ?_⟩,
      fun _ => mem_noted s lane'⟩
    · have := hl.ledger
      rw [hstack, hqueue] at this
      simpa [hopening] using this
    · simp [hopening]
    · simpa [hasRoom] using hroom
    · simpa using hl.limit
    · exact hmem _ (hl.draining (by simpa using hd))
    · simp [Frame.serves]
  · refine (h.lane lane').frame _ hne ?_ (hmem _) (served_of_subset hmem) id
    simp [Ne.symm hne, hstack]

theorem pump_keeps (h : Settled s) (hstack : s.stack = .pump lane :: rest)
    (hclear : openingIn lane rest = [] ∨ (s.lanes lane).queue = [] ∨ hasRoom (s.lanes lane) = false) :
    Settled (s.pump lane rest) := by
  simp only [QueueState.pump]
  split
  · rename_i entry queue hqueue
    split
    · rename_i hroom
      refine pump_shift h hstack hqueue hroom (hclear.resolve_right ?_)
      simp [hqueue, hroom]
    · rename_i hroom
      exact pump_exit h hstack fun _ hr => hroom hr
  · rename_i hqueue
    exact pump_exit h hstack fun hq => absurd hqueue hq

-- ---
-- Starting and finishing tasks
-- ---

theorem remaining_nodup (h : HistoryOk s) (lane : String) : (remaining s.history lane).Nodup := by
  have hsub : (enqueuedIn s.history lane).Sublist (s.history.enqueued.map (·.2)) :=
    List.filter_sublist.map _
  exact (hsub.nodup h.nodup).filter _

/-- An entry belongs to one lane. -/
theorem lane_unique (h : HistoryOk s) {entry : Entry} (h₁ : (lane₁, entry) ∈ s.history.enqueued)
    (h₂ : (lane₂, entry) ∈ s.history.enqueued) : lane₁ = lane₂ :=
  congrArg Prod.fst (List.inj_on_of_nodup_map h.nodup h₁ h₂ rfl)

/-- An entry still in hand or in the queue was not started. -/
theorem not_started (h : Settled s) {entry : Entry}
    (hmem : entry ∈ openingIn lane s.stack ++ (s.lanes lane).queue) :
    (lane, entry) ∈ s.history.enqueued ∧ entry ∉ s.history.cleared ∧
      entry ∉ s.history.starts.map (·.entry) := by
  have hledger := (h.lane lane).ledger
  rw [List.append_assoc] at hledger
  have hremaining : entry ∈ remaining s.history lane := by
    rw [hledger]
    exact List.mem_append_right _ hmem
  obtain ⟨henq, hcleared⟩ := List.mem_filter.mp hremaining
  refine ⟨mem_enqueuedIn.mp henq, by simpa using hcleared, fun hstarted => ?_⟩
  obtain ⟨r, hr, rfl⟩ := List.mem_map.mp hstarted
  -- the start was in the same lane, so the entry would stand there twice
  have hlane := lane_unique h.history (h.history.startsEnqueued r hr) (mem_enqueuedIn.mp henq)
  have hnodup := remaining_nodup h.history lane
  rw [hledger] at hnodup
  exact (List.nodup_append.mp hnodup).2.2 r.entry (mem_startedIn.mpr ⟨r, hr, hlane, rfl⟩) r.entry
    hmem rfl

theorem startedIn_append (hist : History) (r : Start) (lane : String) :
    startedIn { hist with starts := hist.starts ++ [r] } lane =
      startedIn hist lane ++ if r.lane = lane then [r.entry] else [] := by
  by_cases h : r.lane = lane <;> simp [startedIn, h]

theorem start_keeps (h : Settled s) (hstack : s.stack = .opening lane entry :: rest) :
    Settled (s.start lane entry rest) := by
  have hl := h.lane lane
  have hin : openingIn lane s.stack = entry :: openingIn lane rest := by simp [hstack]
  have hrest : openingIn lane rest = [] := by
    have := hl.one
    rw [hin] at this
    simpa using this
  have hroom : hasRoom (s.lanes lane) = true := hl.room (by simp [hin])
  obtain ⟨henq, hcleared, hnew⟩ := not_started h
    (List.mem_append_left _ (by rw [hin]; exact List.mem_cons_self))
  have hmem : ∀ f ∈ s.stack, f = .opening lane entry ∨ f ∈ rest := by simp [hstack]
  have hheld : held s.stack = held rest := by rw [hstack]; rfl
  refine ⟨fun lane' => ?_, ?_⟩
  · have hserves : (∃ f ∈ s.stack, f.serves lane' = true) →
        ∃ f ∈ Frame.task s.nextTaskId :: rest, f.serves lane' = true := by
      rintro ⟨f, hf, hs⟩
      rcases hmem f hf with rfl | hf
      · cases hs
      · exact ⟨f, List.mem_cons_of_mem _ hf, hs⟩
    have hpump : .pump lane' ∈ s.stack → .pump lane' ∈ Frame.task s.nextTaskId :: rest := fun hp =>
      List.mem_cons_of_mem _ ((hmem _ hp).resolve_left (by simp))
    by_cases hne : lane' = lane
    · subst hne
      refine ⟨?_, ?_, ?_, ?_, ?_, ?_, fun _ => mem_noted s lane'⟩
      · have hledger := hl.ledger
        rw [hin, hrest] at hledger
        refine Eq.trans hledger ?_
        simp [start, startedIn_append, hrest]
      · simp [start, hrest]
      · simp [start, hrest]
      · simpa [start] using hl.limit
      · simpa [start] using fun hd => hpump (hl.draining hd)
      · intro hq hr
        exact .inl (hserves ((hl.served (by simpa [start] using hq) hroom).resolve_right id))
    · refine (h.lane lane').congr ?_ rfl ?_ ?_ hpump (fun hs => .inl (hserves hs)) id
        noted_of_mem
      · simp [start, hne]
      · simp [start, startedIn_append, Ne.symm hne]
      · simp [start, hstack, Ne.symm hne]
  · exact h.history.start rfl rfl rfl rfl hheld.symm henq hcleared
      hnew hroom

theorem completeTask_keeps (h : Inv (fun _ => False) s) (htask : task ∈ s.tasks) :
    Settled (s.completeTask task) := by
  simp only [QueueState.completeTask]
  split
  · -- a task of an earlier generation: only its entry is settled
    have hfinish : HistoryOk (({ s with tasks := s.tasks.filter (·.id ≠ task.id) } : QueueState).push
        (.settle task.entry)) := h.history.finish htask rfl rfl rfl rfl
    exact ⟨fun lane => (h.lane lane).congr rfl rfl rfl rfl id .inl id id,
      hfinish.settled rfl rfl rfl rfl⟩
  · refine ⟨fun lane => ?_, h.history.finish htask rfl rfl rfl rfl⟩
    by_cases hne : lane = task.lane
    · subst hne
      have hl := h.lane task.lane
      refine ⟨?_, ?_, fun ho => ?_, ?_, fun hd => List.mem_cons_of_mem _ (hl.draining ?_),
        fun _ _ => .inl ⟨.completing task.lane task.entry, List.mem_cons_self, ?_⟩,
        fun _ => mem_noted s task.lane⟩
      · simpa [push, setLane] using hl.ledger
      · simpa [push, setLane] using hl.one
      · refine hasRoom_of_le ?_ ?_ (hl.room (by simpa [push, setLane] using ho))
        · simp [push, setLane]
        · simpa [push, setLane] using List.length_filter_le _ _
      · simpa [push, setLane] using hl.limit
      · simpa [push, setLane] using hd
      · simp [Frame.serves]
    · refine (h.lane lane).congr ?_ rfl rfl rfl (List.mem_cons_of_mem _)
        (fun hs => .inl (served_of_subset (List.subset_cons_self _ _) hs)) id noted_of_mem
      simp [push, setLane, hne]

-- ---
-- Calls
-- ---

theorem remaining_enqueue (hist : History) (h : entry ∉ hist.cleared) (lane lane' : String) :
    remaining { hist with enqueued := hist.enqueued ++ [(lane, entry)] } lane' =
      remaining hist lane' ++ if lane = lane' then [entry] else [] := by
  by_cases heq : lane = lane' <;> simp [remaining, enqueuedIn, heq, h]

theorem enqueueCommandInLane_keeps (h : Settled s) (lane : String) :
    Settled (s.enqueueCommandInLane lane) := by
  simp only [QueueState.enqueueCommandInLane]
  generalize normalizeLane lane = cleaned
  split
  · exact ⟨fun lane' => (h.lane lane').congr rfl rfl rfl rfl id .inl id id,
      h.history.refuse rfl rfl rfl rfl⟩
  · have hfresh : s.nextEntry ∉ s.history.cleared := fun hmem =>
      Nat.lt_irrefl _ (h.history.clearedFresh _ hmem)
    refine ⟨fun lane' => ?_, h.history.enqueue rfl rfl rfl rfl⟩
    by_cases hne : lane' = cleaned
    · subst hne
      have hl := h.lane lane'
      refine ⟨?_, ?_, ?_, ?_, fun hd => List.mem_cons_of_mem _ (hl.draining ?_),
        fun _ _ => .inl ⟨Frame.enqueued lane', List.mem_cons_self, by simp [Frame.serves]⟩,
        fun _ => mem_noted s lane'⟩
      · refine (remaining_enqueue s.history hfresh _ _).trans ?_
        rw [hl.ledger]
        simp [push, setLane, startedIn]
      · simpa [push] using hl.one
      · simpa [push, setLane, hasRoom] using hl.room
      · simpa [push, setLane] using hl.limit
      · simpa [push, setLane] using hd
    · refine (h.lane lane').congr ?_ ?_ rfl rfl (List.mem_cons_of_mem _)
        (fun hs => .inl (served_of_subset (List.subset_cons_self _ _) hs)) id noted_of_mem
      · simp [push, setLane, hne]
      · refine (remaining_enqueue s.history hfresh _ _).trans ?_
        simp [Ne.symm hne]

theorem limit_pos (h : n ≠ Number.nan) :
    Number.lt (.ofInt 0) (Number.max (.fin 1) n.floor) = true := by
  cases n with
  | nan => exact absurd rfl h
  | posInf => rfl
  | negInf => simp [Number.max, Number.floor, Number.lt, Number.ofInt]
  | fin q =>
    simp only [Number.max, Number.floor, Number.ofInt, reduceCtorEq, or_self, ↓reduceIte]
    by_cases hlt : (1 : Rat) < q.floor
    · simpa [Number.lt, hlt] using lt_trans one_pos hlt
    · simp [Number.lt, hlt]

theorem setCommandLaneConcurrency_keeps (h : Settled s) (lane : String) (hn : n ≠ .nan)
    (hopen : openingIn (normalizeLane lane) s.stack = [] ∨
      Number.lt (.ofInt (s.lanes (normalizeLane lane)).activeTaskIds.length)
        (Number.max (.fin 1) n.floor) = true) :
    Settled (s.setCommandLaneConcurrency lane n) := by
  simp only [QueueState.setCommandLaneConcurrency]
  generalize normalizeLane lane = cleaned at hopen ⊢
  refine Inv.drained ⟨fun lane' => ?_, h.history.congr rfl rfl rfl rfl⟩
  by_cases hne : lane' = cleaned
  · subst hne
    have hl := h.lane lane'
    refine ⟨?_, hl.one, fun ho => ?_, ?_, fun hd => hl.draining ?_, fun _ _ => .inr rfl,
      fun _ => mem_noted s lane'⟩
    · simpa using hl.ledger
    · simpa [hasRoom] using hopen.resolve_left ho
    · simpa using limit_pos hn
    · simpa using hd
  · exact (h.lane lane').congr (setLane_other _ hne) rfl rfl rfl id .inl False.elim noted_of_mem

theorem remaining_clear (hist : History) (pending settled : List Entry) (lane : String) :
    remaining { hist with cleared := hist.cleared ++ pending, settled } lane =
      (remaining hist lane).filter (· ∉ pending) := by
  simp [remaining, enqueuedIn, List.filter_filter, Bool.and_comm]

theorem clearCommandLane_keeps (h : Settled s) (lane : String) :
    Settled (s.clearCommandLane lane) := by
  simp only [QueueState.clearCommandLane]
  generalize normalizeLane lane = cleaned
  split
  · have hwaiting (e) (he : e ∈ (s.lanes cleaned).queue) :=
      not_started h (List.mem_append_right (openingIn cleaned s.stack) he)
    have hnodup := remaining_nodup h.history cleaned
    rw [(h.lane cleaned).ledger] at hnodup
    obtain ⟨-, hpending, hdisjoint⟩ := List.nodup_append.mp hnodup
    refine ⟨fun lane' => ?_, h.history.clear rfl rfl rfl rfl hpending fun e he => ?_⟩
    · by_cases hne : lane' = cleaned
      · subst hne
        have hl := h.lane lane'
        refine ⟨?_, hl.one, ?_, ?_, fun hd => hl.draining ?_, fun hq => ?_, fun hq => ?_⟩
        · refine (remaining_clear s.history _ _ _).trans ?_
          rw [hl.ledger, List.filter_append, List.filter_eq_self.mpr, List.filter_eq_nil_iff.mpr]
          · simp [setLane, startedIn]
          · simp
          · exact fun e he => by simpa using fun hmem => hdisjoint e he e hmem rfl
        · simpa [hasRoom] using hl.room
        · simpa using hl.limit
        · simpa using hd
        · simp at hq
        · simp at hq
      · refine (h.lane lane').congr (by simp [hne]) ?_ rfl rfl id .inl id noted_of_mem
        refine (remaining_clear s.history _ _ _).trans (List.filter_eq_self.mpr fun e he => ?_)
        have henq := mem_enqueuedIn.mp (List.mem_filter.mp he).1
        simpa using fun hmem => hne (lane_unique h.history henq (hwaiting e hmem).1)
    · obtain ⟨henq, hcleared, hnew⟩ := hwaiting e he
      exact ⟨List.mem_map_of_mem henq, hcleared, hnew⟩
  · exact h

theorem resetAllLanes_keeps (h : Settled s) : Settled s.resetAllLanes := by
  refine ⟨fun lane => ?_, h.history.congr rfl rfl rfl rfl⟩
  have hl := h.lane lane
  have hlane : s.resetAllLanes.lanes lane =
      if lane ∈ s.laneOrder then resetLane (s.lanes lane) else s.lanes lane := rfl
  by_cases hknown : lane ∈ s.laneOrder
  · rw [if_pos hknown] at hlane
    refine ⟨?_, hl.one, fun _ => ?_, ?_, fun hd => ?_, fun hq _ => .inl ?_, fun _ => hknown⟩
    · rw [hlane]
      exact hl.ledger
    · rw [hlane]
      simpa [hasRoom, resetLane] using hl.limit
    · rw [hlane]
      exact hl.limit
    · rw [hlane] at hd
      cases hd
    · rw [hlane] at hq
      exact ⟨_, List.mem_cons_self, decide_eq_true (List.mem_filter.mpr
        ⟨hknown, by simpa [resetLane] using hq⟩)⟩
  · rw [if_neg hknown] at hlane
    exact hl.congr hlane rfl rfl rfl (List.mem_cons_of_mem _)
      (fun hs => .inl (served_of_subset (List.subset_cons_self _ _) hs)) id id

-- ---
-- Steps
-- ---

/-- The pump on top takes no entry of a lane one of whose entries is in hand. -/
def PumpUndisturbed (s : QueueState) : List Frame → Prop
  | .pump lane :: rest =>
    openingIn lane rest = [] ∨ (s.lanes lane).queue = [] ∨ hasRoom (s.lanes lane) = false
  | _ => True

/-- The steps that leave an entry in hand alone: no pump takes an entry of its
lane, and the limit of its lane is not lowered to the tasks it has; and no
limit is `NaN`. -/
def Undisturbed (s : QueueState) : Event → Prop
  | .advance => PumpUndisturbed s s.stack
  | .setCommandLaneConcurrency lane n => n ≠ .nan ∧
      (openingIn (normalizeLane lane) s.stack = [] ∨
        Number.lt (.ofInt (s.lanes (normalizeLane lane)).activeTaskIds.length)
          (Number.max (.fin 1) n.floor) = true)
  | _ => True

instance (s : QueueState) (stack : List Frame) : Decidable (PumpUndisturbed s stack) :=
  match stack with
  | .pump _ :: _ => inferInstanceAs (Decidable (_ ∨ _))
  | .enqueued _ :: _ | .opening _ _ :: _ | .task _ :: _ | .completing _ _ :: _ | .settle _ :: _
  | .resetting _ :: _ | [] => .isTrue trivial

instance (s : QueueState) (e : Event) : Decidable (Undisturbed s e) :=
  match e with
  | .advance => inferInstanceAs (Decidable (PumpUndisturbed s s.stack))
  | .setCommandLaneConcurrency _ _ => inferInstanceAs (Decidable (_ ∧ _))
  | .enqueueCommandInLane _ | .clearCommandLane _ | .resetAllLanes | .markGatewayDraining
  | .throws | .finish _ => .isTrue trivial

/-- A frame that has nothing in hand goes; only the lanes it serves notice. -/
theorem Inv.pop (h : Settled s) (hstack : s.stack = f :: rest)
    (hopens : ∀ lane, f.opens? lane = none) (hholds : f.holds? = none)
    (hpump : ∀ lane, f ≠ .pump lane) : Inv (fun lane => f.serves lane = true) (s.setStack rest) := by
  have hpopped := h.restack rest (fun lane => f.serves lane = true) hstack
    (fun lane => by simp [openingIn, hopens]) (by simp [held, hholds])
    (fun lane hp => (List.mem_cons.mp hp).resolve_left fun heq => hpump lane heq.symm) ?_
  · exact hpopped.mono fun lane hl => hl.resolve_left id
  · rintro lane ⟨g, hg, hs⟩
    rcases List.mem_cons.mp hg with rfl | hg
    · exact .inr hs
    · exact .inl ⟨g, hg, hs⟩

theorem settle_keeps (h : Settled s) (hstack : s.stack = .settle entry :: rest) :
    Settled ((s.setStack rest).settle entry) := by
  refine ⟨fun lane => ?_, h.history.settled rfl rfl rfl (by rw [hstack]; rfl)⟩
  refine (h.lane lane).congr rfl rfl rfl (by rw [hstack]; rfl) (fun hp => ?_) ?_ id id
  · rw [hstack] at hp
    exact (List.mem_cons.mp hp).resolve_left (by simp)
  · rintro ⟨f, hf, hs⟩
    rw [hstack] at hf
    rcases List.mem_cons.mp hf with rfl | hf
    · cases hs
    · exact .inl ⟨f, hf, hs⟩

theorem advance_keeps (h : Settled s) (hok : Undisturbed s .advance)
    (hstep : advance s = some s') : Settled s' := by
  unfold advance at hstep
  split at hstep
  · cases hstep
  · rename_i lane rest hstack
    cases hstep
    have hpop := h.pop hstack (fun _ => rfl) rfl (by simp)
    exact (hpop.mono fun l hl => (of_decide_eq_true hl).symm).drained
  · rename_i lane rest hstack
    cases hstep
    simp only [Undisturbed, hstack] at hok
    exact pump_keeps h hstack hok
  · rename_i lane entry rest hstack
    cases hstep
    exact start_keeps h hstack
  · rename_i id rest hstack
    cases hstep
    exact (h.pop hstack (fun _ => rfl) rfl (by simp)).mono fun l hl => by simp [Frame.serves] at hl
  · rename_i lane entry rest hstack
    cases hstep
    refine (h.restack (.pump lane :: .settle entry :: rest) (fun _ => False) hstack
      (fun _ => rfl) rfl (fun l hp => ?_) ?_).mono fun l => Or.rec id id
    · exact List.mem_cons_of_mem _ (List.mem_cons_of_mem _ ((List.mem_cons.mp hp).resolve_left (by simp)))
    · rintro l ⟨f, hf, hs⟩
      rcases List.mem_cons.mp hf with rfl | hf
      · exact .inl ⟨.pump lane, List.mem_cons_self, hs⟩
      · exact .inl ⟨f, List.mem_cons_of_mem _ (List.mem_cons_of_mem _ hf), hs⟩
  · rename_i entry rest hstack
    cases hstep
    exact settle_keeps h hstack
  · rename_i rest hstack
    cases hstep
    exact (h.pop hstack (fun _ => rfl) rfl (by simp)).mono fun l hl => by simp [Frame.serves] at hl
  · rename_i lane lanes rest hstack
    cases hstep
    refine Inv.drained ((h.restack (.resetting lanes :: rest) (fun l => l = lane) hstack
      (fun _ => rfl) rfl (fun l hp => ?_) ?_).mono fun l => Or.rec False.elim id)
    · exact List.mem_cons_of_mem _ ((List.mem_cons.mp hp).resolve_left (by simp))
    · rintro l ⟨f, hf, hs⟩
      rcases List.mem_cons.mp hf with rfl | hf
      · rcases List.mem_cons.mp (of_decide_eq_true hs) with heq | hmem
        · exact .inr heq
        · exact .inl ⟨_, List.mem_cons_self, decide_eq_true hmem⟩
      · exact .inl ⟨f, List.mem_cons_of_mem _ hf, hs⟩

theorem step_keeps (h : Settled s) (hok : Undisturbed s e) (hstep : step s e = some s') :
    Settled s' := by
  cases e with
  | advance => exact advance_keeps h hok hstep
  | throws =>
    simp only [step] at hstep
    split at hstep
    · rename_i id rest hstack
      obtain ⟨task, htask, hs'⟩ := Option.bind_eq_some_iff.mp hstep
      cases hs'
      have hpop : Settled (s.setStack rest) := (h.pop hstack (fun _ => rfl) rfl (by simp)).mono fun l hl => by simp [Frame.serves] at hl
      exact completeTask_keeps hpop (List.mem_of_find?_eq_some htask)
    · cases hstep
  | finish taskId =>
    simp only [step] at hstep
    split at hstep
    · obtain ⟨task, htask, hs'⟩ := Option.bind_eq_some_iff.mp hstep
      cases hs'
      exact completeTask_keeps h (List.mem_of_find?_eq_some htask)
    · cases hstep
  | enqueueCommandInLane lane =>
    simp only [step, Option.ite_none_right_eq_some, Option.some.injEq] at hstep
    obtain ⟨-, rfl⟩ := hstep
    exact enqueueCommandInLane_keeps h lane
  | setCommandLaneConcurrency lane n =>
    simp only [step, Option.ite_none_right_eq_some, Option.some.injEq] at hstep
    obtain ⟨-, rfl⟩ := hstep
    exact setCommandLaneConcurrency_keeps h lane hok.1 hok.2
  | clearCommandLane lane =>
    simp only [step, Option.ite_none_right_eq_some, Option.some.injEq] at hstep
    obtain ⟨-, rfl⟩ := hstep
    exact clearCommandLane_keeps h lane
  | resetAllLanes =>
    simp only [step, Option.ite_none_right_eq_some, Option.some.injEq] at hstep
    obtain ⟨-, rfl⟩ := hstep
    exact resetAllLanes_keeps h
  | markGatewayDraining =>
    simp only [step, Option.ite_none_right_eq_some, Option.some.injEq] at hstep
    obtain ⟨-, rfl⟩ := hstep
    exact ⟨fun lane => (h.lane lane).congr rfl rfl rfl rfl id .inl id id,
      h.history.congr rfl rfl rfl rfl⟩

-- ---
-- The schedule
-- ---

/-- What the queue promises of its lanes. -/
structure WellScheduled (s : QueueState) : Prop where
  /-- The entries of a lane start in the order of their enqueuing, less those cleared. -/
  fifo : ∀ lane, startedIn s.history lane <+: remaining s.history lane
  startedOnce : (s.history.starts.map (·.entry)).Nodup
  settledOnce : s.history.settled.Nodup
  withinLimit : ∀ r ∈ s.history.starts, Number.lt (.ofInt r.active) r.maxConcurrent = true
  workConserving : s.stack = [] → ∀ lane, (s.lanes lane).queue ≠ [] →
    Number.le (s.lanes lane).maxConcurrent (.ofInt (s.lanes lane).activeTaskIds.length) = true

theorem Inv.wellScheduled (h : Settled s) : WellScheduled s where
  fifo lane := by
    rw [(h.lane lane).ledger, List.append_assoc]
    exact List.prefix_append _ _
  startedOnce := h.history.startsOnce
  settledOnce := (List.nodup_append.mp h.history.settle).2.1
  withinLimit := h.history.withinLimit
  workConserving := by
    intro hstack lane hq
    have hl := h.lane lane
    have hnan : (s.lanes lane).maxConcurrent ≠ .nan := fun hn => by
      have := hl.limit
      rw [hn] at this
      cases this
    refine Number.le_of_not_lt nofun hnan (Bool.eq_false_iff.mpr fun hr => ?_)
    rcases hl.served hq hr with ⟨f, hf, -⟩ | he
    · rw [hstack] at hf
      cases hf
    · exact he

/-- Every run that leaves the entries in hand alone keeps the schedule. -/
theorem wellScheduled_of_undisturbed (h : system.ReachableBy Undisturbed s) : WellScheduled s := by
  refine Inv.wellScheduled (h.invariant (fun s hs => ?_) fun s e s' hi hok hstep => ?_)
  · cases hs
    exact inv_init
  · exact step_keeps hi hok hstep

/-- Two entries of one lane: the second starts when the first is done. -/
theorem twoEntries_wellScheduled :
    ∃ s, s.history.starts.map (·.entry) = [0, 1] ∧ WellScheduled s := by
  have hrun : (system.runBy Undisturbed {} [.enqueueCommandInLane "main", .advance, .advance,
      .advance, .advance, .advance, .enqueueCommandInLane "main", .advance, .advance, .finish 1,
      .advance, .advance, .advance]).map (fun s => s.history.starts.map (·.entry)) =
      some [0, 1] := by decide
  obtain ⟨s, hs, hstarts⟩ := Option.map_eq_some_iff.mp hrun
  exact ⟨s, hstarts, wellScheduled_of_undisturbed (.runBy (.init rfl) hs)⟩

/-- In such a run the entries ever enqueued in a lane and not cleared are those started, the
one being opened, and those that wait, in this order; and what was settled was cleared,
started, or refused when it came. -/
theorem entries_accounted (h : system.ReachableBy Undisturbed s) :
    (∀ lane, remaining s.history lane = startedIn s.history lane ++ openingIn lane s.stack ++
        (s.lanes lane).queue ∧ (openingIn lane s.stack).length ≤ 1) ∧
      ∀ entry ∈ s.history.settled, entry ∈ s.history.cleared ∨
        entry ∈ s.history.starts.map (·.entry) ∨ entry ∉ s.history.enqueued.map (·.2) := by
  have hinv : Settled s := by
    refine h.invariant (fun s hs => ?_) fun s e s' hi hok hstep => step_keeps hi hok hstep
    cases hs
    exact inv_init
  exact ⟨fun lane => ⟨(hinv.lane lane).ledger, (hinv.lane lane).one⟩, hinv.history.settledFrom⟩

/-- One entry runs and one waits. -/
theorem twoEntries_accounted : ∃ s : QueueState, s.history.starts.map (·.entry) = [0] ∧
    (s.lanes "main").queue = [1] ∧ remaining s.history "main" =
      startedIn s.history "main" ++ openingIn "main" s.stack ++ (s.lanes "main").queue := by
  have hrun : (system.runBy Undisturbed {} [.enqueueCommandInLane "main", .advance, .advance,
      .advance, .advance, .advance, .enqueueCommandInLane "main", .advance, .advance]).map
        (fun s => (s.history.starts.map (·.entry), (s.lanes "main").queue)) = some ([0], [1]) := by
    decide
  obtain ⟨s, hs, hstate⟩ := Option.map_eq_some_iff.mp hrun
  obtain ⟨hstarts, hqueue⟩ := Prod.mk.inj hstate
  exact ⟨s, hstarts, hqueue, ((entries_accounted (.runBy (.init rfl) hs)).1 "main").1⟩

/-- A task runs and another waits in its lane. When the first is done, the
`onWait` callback of the second enqueues a third, which starts at once. -/
def reentrantWait : List Event :=
  [.enqueueCommandInLane "main", .advance, .advance, .advance, .advance, .advance,
    .enqueueCommandInLane "main", .advance, .advance,
    .finish 1, .advance, .advance, .enqueueCommandInLane "main", .advance, .advance, .advance,
    .advance, .advance, .advance]

def limitNaN : List Event :=
  [.setCommandLaneConcurrency "main" .nan, .advance, .enqueueCommandInLane "main", .advance, .advance]

/-- The third entry overtakes the second, which then starts in a full lane; and
a lane without a limit starts nothing. -/
theorem not_wellScheduled :
    (∃ s, system.run {} reentrantWait = some s ∧
      ¬ startedIn s.history "main" <+: remaining s.history "main" ∧
      ¬ ∀ r ∈ s.history.starts, Number.lt (.ofInt r.active) r.maxConcurrent = true) ∧
    (∃ s, system.run {} limitNaN = some s ∧ ¬ (s.stack = [] → ∀ lane, (s.lanes lane).queue ≠ [] →
      Number.le (s.lanes lane).maxConcurrent (.ofInt (s.lanes lane).activeTaskIds.length) = true)) ∧
    ¬ ∀ s, system.Reachable s → WellScheduled s := by
  have hwait : (system.run {} reentrantWait).map (fun s =>
      decide (startedIn s.history "main" <+: remaining s.history "main")) = some false := by
    decide
  have hlimit : (system.run {} reentrantWait).map (fun s => s.history.starts.all fun r =>
      Number.lt (.ofInt r.active) r.maxConcurrent) = some false := by decide
  have hnan : (system.run {} limitNaN).map (fun s => decide (s.stack = [] ∧
      (s.lanes "main").queue ≠ [] ∧ (s.lanes "main").maxConcurrent = .nan)) = some true := by
    decide
  obtain ⟨s, hs, hfifo⟩ := Option.map_eq_some_iff.mp hwait
  rw [hs, Option.map_some, Option.some.injEq] at hlimit
  have hfifo := of_decide_eq_false hfifo
  refine ⟨⟨s, hs, hfifo, fun h => ?_⟩, ?_, fun h => ?_⟩
  · rw [List.all_eq_true.mpr h] at hlimit
    cases hlimit
  · obtain ⟨t, ht, hall⟩ := Option.map_eq_some_iff.mp hnan
    obtain ⟨hstack, hq, hmax⟩ := of_decide_eq_true hall
    refine ⟨t, ht, fun h => ?_⟩
    have := h hstack "main" hq
    rw [hmax] at this
    cases this
  · exact hfifo ((h s ((Transition.System.Reachable.init rfl).run hs)).fifo "main")

end OpenClaw.CommandQueue
