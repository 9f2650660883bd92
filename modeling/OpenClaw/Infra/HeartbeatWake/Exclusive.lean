import OpenClaw.Infra.HeartbeatWake.NotAgain

/-!
# One batch with a handler

Registering a handler makes the module idle although a batch of the handler before may
still run, and the end of that batch makes it idle again although the new handler's may
run by then. As long as neither happens for the handler that is registered, no handler
works on two batches; and with what a rejection queues again being unserved, no wake
that ran is run again.
-/

namespace OpenClaw.HeartbeatWake

open Js Members Transition

variable {s s' : State}

-- ---
-- Handlers
-- ---

structure Exclusive (s : State) : Prop where
  apart : (s.batches.map Batch.active).Nodup
  free : s.running = false → ∀ batch ∈ s.batches, s.handler ≠ some batch.active

theorem Exclusive.congr (h : Exclusive s) (hbatches : s'.batches = s.batches) (hhandler : s'.handler = s.handler)
    (hrunning : s'.running = s.running) : Exclusive s' := by
  constructor
  case apart => exact hbatches ▸ h.apart
  case free => exact hbatches ▸ hhandler ▸ hrunning ▸ h.free

theorem Exclusive.schedule (h : Exclusive s) (coalesceMs : Number) (kind : WakeTimerKind) (now : Rat) :
    Exclusive (schedule s coalesceMs kind now) := by
  obtain ⟨timer, heq⟩ := schedule_eq s coalesceMs kind now
  rw [heq]
  exact h.congr rfl rfl rfl

/-- A batch of the registered handler does not run when another ends. -/
theorem Exclusive.endBatch (h : Exclusive s) (hidle : ∀ batch ∈ s.batches, s.handler ≠ some batch.active)
    (delay now : Rat) : Exclusive (endBatch s delay now) := by
  obtain ⟨timer, heq, -⟩ := endBatch_eq s delay now
  rw [heq]
  exact ⟨h.apart, fun _ => hidle⟩

theorem Exclusive.runBatch {waiting : List PendingWakeReason} (h : Exclusive s) (active : Nat)
    (hidle : waiting = [] → ∀ batch ∈ s.batches, s.handler ≠ some batch.active)
    (hfresh : ∀ batch ∈ s.batches, batch.active ≠ active) (hbusy : s.running = false → s.handler ≠ some active)
    (delay : Rat) (answered : List PendingWakeReason) (now : Rat) :
    Exclusive (runBatch s active delay answered waiting now) := by
  cases waiting with
  | nil => exact h.endBatch (hidle rfl) delay now
  | cons wake waiting =>
    constructor
    case apart =>
      rw [HeartbeatWake.runBatch, List.map_append]
      refine List.Nodup.append h.apart (List.nodup_singleton _) ?_
      intro other hother hsame
      obtain ⟨batch, hbatch, rfl⟩ := List.mem_map.1 hother
      exact hfresh batch hbatch (List.mem_singleton.1 hsame)
    case free =>
      intro hrunning batch hbatch
      rcases List.mem_append.1 hbatch with hbatch | hbatch
      · exact h.free hrunning batch hbatch
      · rw [List.mem_singleton.1 hbatch]
        exact hbusy hrunning

theorem foldl_requeue_eq (now : Rat) (s : State) (wakes : List PendingWakeReason) :
    ∃ pendingWakes, wakes.foldl (requeue now) s = { s with pendingWakes } := by
  induction wakes generalizing s with
  | nil => exact ⟨s.pendingWakes, rfl⟩
  | cons wake wakes ih =>
    obtain ⟨pendingWakes, heq⟩ := ih (requeue now s wake)
    exact ⟨pendingWakes, heq⟩

theorem answer_eq (s : State) (wake : PendingWakeReason) (res : HeartbeatRunResult) (now : Rat) :
    ∃ pendingWakes timer log, answer s wake res now = { s with pendingWakes, timer, log } := by
  cases res with
  | ran => exact ⟨_, _, _, rfl⟩
  | skipped reason =>
    unfold answer
    dsimp only
    split
    · obtain ⟨timer, heq⟩ := schedule_eq (requeue now s wake) (.fin DEFAULT_RETRY_MS) .retry now
      exact ⟨_, _, _, heq⟩
    · exact ⟨_, _, _, rfl⟩
  | failed reason => exact ⟨_, _, _, rfl⟩

/-- The settling ends the batch. -/
def Batch.Ends (batch : Batch) (settled : Settled) : Prop := settled.isNone ∨ batch.waiting = []

instance (batch : Batch) (settled : Settled) : Decidable (batch.Ends settled) := inferInstanceAs (Decidable (_ ∨ _))

theorem active_ne_of_erased {index : Nat} {batch other : Batch} (h : (s.batches.map Batch.active).Nodup)
    (hbatch : s.batches[index]? = some batch) (hother : other ∈ s.batches.eraseIdx index) :
    other.active ≠ batch.active := by
  obtain ⟨hlt, rfl⟩ := List.getElem?_eq_some_iff.1 hbatch
  have hperm := (List.getElem_cons_eraseIdx_perm hlt).map Batch.active
  rw [← hperm.nodup_iff, List.map_cons, List.nodup_cons] at h
  exact fun heq => h.1 (heq ▸ List.mem_map_of_mem hother)

theorem Exclusive.settle {index : Nat} {batch : Batch} (h : Exclusive s) (hbatch : s.batches[index]? = some batch)
    (settled : Settled)
    (hidle : batch.Ends settled → ∀ other ∈ s.batches.eraseIdx index, s.handler ≠ some other.active) (now : Rat) :
    Exclusive (settle { s with batches := s.batches.eraseIdx index } batch settled now) := by
  have htaken : Exclusive { s with batches := s.batches.eraseIdx index } := by
    constructor
    case apart => exact h.apart.sublist ((List.eraseIdx_sublist s.batches index).map _)
    case free => exact fun hrunning other hother => h.free hrunning other (List.mem_of_mem_eraseIdx hother)
  cases settled with
  | none =>
    obtain ⟨pendingWakes, heq⟩ := foldl_requeue_eq now { s with batches := s.batches.eraseIdx index } batch.pendingBatch
    obtain ⟨timer, hschedule⟩ :=
      schedule_eq { s with batches := s.batches.eraseIdx index, pendingWakes } (.fin DEFAULT_RETRY_MS) .retry now
    rw [HeartbeatWake.settle, heq, hschedule]
    refine Exclusive.endBatch ?_ (hidle (.inl rfl)) _ now
    exact htaken.congr rfl rfl rfl
  | some res =>
    obtain ⟨pendingWakes, timer, log, heq⟩ :=
      answer_eq { s with batches := s.batches.eraseIdx index } batch.current res now
    rw [HeartbeatWake.settle, heq]
    refine Exclusive.runBatch ?_ batch.active (fun hlast => hidle (.inr hlast)) ?_ ?_ batch.delay _ now
    · exact htaken.congr rfl rfl rfl
    · exact fun other hother => active_ne_of_erased h.apart hbatch hother
    · exact fun hrunning => h.free hrunning batch (List.mem_of_getElem? hbatch)

theorem Exclusive.fire (h : Exclusive s) (timer : Timer) (now : Rat) : Exclusive (fire s timer now) := by
  unfold HeartbeatWake.fire
  dsimp only
  cases hhandler : s.handler with
  | none => exact h.congr rfl hhandler.symm rfl
  | some active =>
    dsimp only
    split
    · refine Exclusive.schedule ?_ _ _ now
      exact h.congr rfl hhandler.symm rfl
    case isFalse hrunning =>
      have hfree := h.free (Bool.eq_false_iff.2 hrunning)
      rw [hhandler] at hfree
      refine Exclusive.runBatch ?_ active (fun _ => hfree) ?_ (fun hbusy => Bool.noConfusion hbusy) timer.delay [] now
      · exact ⟨h.apart, fun hbusy => Bool.noConfusion hbusy⟩
      · exact fun batch hbatch heq => hfree batch hbatch (heq ▸ rfl)

theorem Exclusive.setHeartbeatWakeHandler (h : Exclusive s) (next : Option Nat)
    (hnext : ∀ batch ∈ s.batches, next ≠ some batch.active) (now : Rat) :
    Exclusive (setHeartbeatWakeHandler s next now) := by
  unfold HeartbeatWake.setHeartbeatWakeHandler
  dsimp only
  split <;> split
  · refine Exclusive.schedule ?_ _ _ now
    exact ⟨h.apart, fun _ => hnext⟩
  · exact ⟨h.apart, fun _ => hnext⟩
  · refine Exclusive.schedule ?_ _ _ now
    exact ⟨h.apart, fun _ => hnext⟩
  · exact ⟨h.apart, fun _ => hnext⟩

theorem Exclusive.dispose (h : Exclusive s) (generation : Nat) (next : Option Nat) :
    Exclusive (dispose s generation next) := by
  rcases dispose_cases s generation next with heq | heq
  · rw [heq]
    exact h
  · rw [heq]
    exact ⟨h.apart, fun _ _ _ hnone => nomatch hnone⟩

theorem Exclusive.requestHeartbeatNow (h : Exclusive s) (reason agentId sessionKey : Option Text)
    (coalesceMs : Option Number) (now : Rat) :
    Exclusive (requestHeartbeatNow s reason agentId sessionKey coalesceMs now) := by
  refine Exclusive.schedule ?_ _ _ now
  exact h.congr rfl rfl rfl

-- ---
-- Undisturbed runs
-- ---

/-- No handler is registered while a batch runs with it, no batch ends while another
runs with the registered handler, and no rejection finds an answered wake served. -/
def Undisturbed (s : State) : Label → Prop
  | .setHeartbeatWakeHandler next _ => ∀ batch ∈ s.batches, next ≠ some batch.active
  | .settled index settled _ =>
    ∀ batch ∈ s.batches[index]?,
      (batch.Ends settled → ∀ other ∈ s.batches.eraseIdx index, s.handler ≠ some other.active) ∧
        (settled.isNone → ∀ wake ∈ batch.answered, Unserved s wake)
  | _ => True

instance (s : State) (label : Label) : Decidable (Undisturbed s label) := by
  cases label <;> unfold Undisturbed <;> infer_instance

theorem undisturbed_step (h : Exclusive s ∧ Owning [] s) {label : Label} (hok : Undisturbed s label)
    (hstep : step s label = some s') : Exclusive s' ∧ Owning [] s' := by
  obtain ⟨hexclusive, howning⟩ := h
  cases label with
  | requestHeartbeatNow reason agentId sessionKey coalesceMs now =>
    cases hstep
    exact ⟨hexclusive.requestHeartbeatNow .., howning.requestHeartbeatNow ..⟩
  | setHeartbeatWakeHandler next now =>
    cases hstep
    exact ⟨hexclusive.setHeartbeatWakeHandler next hok now, howning.setHeartbeatWakeHandler next now⟩
  | dispose registration =>
    obtain ⟨made, -, rfl⟩ := Option.map_eq_some_iff.1 hstep
    exact ⟨hexclusive.dispose made.1 made.2, howning.dispose made.1 made.2⟩
  | fire now =>
    obtain ⟨timer, -, rfl⟩ := Option.map_eq_some_iff.1 hstep
    exact ⟨hexclusive.fire timer now, howning.fire timer now⟩
  | settled index settled now =>
    obtain ⟨batch, hbatch, rfl⟩ := Option.map_eq_some_iff.1 hstep
    obtain ⟨hidle, hunserved⟩ := hok batch hbatch
    refine ⟨hexclusive.settle hbatch settled hidle now, howning.settle hbatch settled ?_ now⟩
    rintro rfl
    exact hunserved rfl

theorem heartbeatHandlers_exclusive (h : system.ReachableBy Undisturbed s) :
    (s.batches.map Batch.active).Nodup ∧ NotRunAgain s.log := by
  have hkept : Exclusive s ∧ Owning [] s := by
    refine h.invariant (I := fun s => Exclusive s ∧ Owning [] s) ?_ fun s label s' hkept hok hstep => undisturbed_step hkept hok hstep
    rintro s rfl
    exact ⟨⟨List.nodup_nil, fun _ batch hbatch => absurd hbatch List.not_mem_nil⟩, owning_initial⟩
  exact ⟨hkept.1.apart, hkept.2.notAgain⟩

/-- A batch with two wakes, the second of which its handler is still at work on. -/
theorem heartbeatHandlers_exclusive_sample :
    ∃ s, system.runBy Undisturbed .initial
        [.setHeartbeatWakeHandler (some 0) 0, .requestHeartbeatNow none none (some "a".toList) none 0,
          .requestHeartbeatNow none none (some "b".toList) none 10, .fire 250, .settled 0 (some .ran) 300] = some s ∧
      (s.batches.map Batch.active).Nodup ∧ NotRunAgain s.log := by
  have hrun : (system.runBy Undisturbed .initial
      [.setHeartbeatWakeHandler (some 0) 0, .requestHeartbeatNow none none (some "a".toList) none 0,
        .requestHeartbeatNow none none (some "b".toList) none 10, .fire 250, .settled 0 (some .ran) 300]).isSome := by
    decide +kernel
  obtain ⟨s, hs⟩ := Option.isSome_iff_exists.1 hrun
  exact ⟨s, hs, heartbeatHandlers_exclusive (.runBy (.init rfl) hs)⟩

/-- Handler 1 is registered while a batch runs with handler 0, whose end lets a second
batch with handler 1 begin; and a rejection queues a wake again that has run. -/
theorem not_heartbeatHandlers_exclusive :
    (∃ s, system.Reachable s ∧ ¬ (s.batches.map Batch.active).Nodup) ∧
      ∃ s, system.Reachable s ∧ ¬ NotRunAgain s.log := by
  have hoverlapping : (system.run .initial
      [.setHeartbeatWakeHandler (some 0) 0, .requestHeartbeatNow none none (some "a".toList) none 0, .fire 250,
        .setHeartbeatWakeHandler (some 1) 300, .requestHeartbeatNow none none (some "b".toList) none 300, .fire 550,
        .requestHeartbeatNow none none (some "c".toList) none 600, .settled 0 (some .ran) 700, .fire 850]).any
      fun s => ¬ (s.batches.map Batch.active).Nodup := by decide +kernel
  have hrerun : (system.run .initial
      [.setHeartbeatWakeHandler (some 0) 0, .requestHeartbeatNow none none (some "a".toList) none 0,
        .requestHeartbeatNow none none (some "b".toList) none 0, .fire 250, .settled 0 (some .ran) 300,
        .settled 0 none 400, .fire 1400]).any fun s => ¬ NotRunAgain s.log := by decide +kernel
  obtain ⟨overlapping, hrun, hnot⟩ := (Option.any_eq_true _ _).1 hoverlapping
  obtain ⟨rerun, hrun', hnot'⟩ := (Option.any_eq_true _ _).1 hrerun
  exact ⟨⟨overlapping, .run (.init rfl) hrun, of_decide_eq_true hnot⟩, rerun, .run (.init rfl) hrun', of_decide_eq_true hnot'⟩

end OpenClaw.HeartbeatWake
