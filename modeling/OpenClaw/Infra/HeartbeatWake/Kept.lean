import OpenClaw.Infra.HeartbeatWake
import OpenClaw.Lib.Delimited

/-!
# Heartbeat wakes are kept

A target that was requested and not handed to a handler since is pending or waits in a
batch that runs, and pending wakes have a timer as soon as there is a handler.

A target is known by its key. The key of an agent and a session determines both where
no agent id contains a colon, as the ids do that the callers normalise.
-/

namespace OpenClaw.HeartbeatWake

open Js Members Transition

-- ---
-- What the log asks for
-- ---

/-- One that is `asked` for was requested and not handed to a handler since. -/
def Awaited (asked : WakeTarget → Prop) : List Entry → Prop
  | [] => False
  | .requested _ target :: log => asked target ∨ Awaited asked log
  | .handed _ wake :: log => ¬ asked wake.toWakeTarget ∧ Awaited asked log
  | .ran _ :: log => Awaited asked log

def requestedTargets : List Entry → List WakeTarget
  | [] => []
  | .requested _ target :: log => target :: requestedTargets log
  | .handed _ _ :: log => requestedTargets log
  | .ran _ :: log => requestedTargets log

def handedTargets : List Entry → List WakeTarget
  | [] => []
  | .requested _ _ :: log => handedTargets log
  | .handed _ wake :: log => wake.toWakeTarget :: handedTargets log
  | .ran _ :: log => handedTargets log

def State.queued (s : State) : List PendingWakeReason :=
  s.pendingWakes.map Prod.snd ++ s.batches.flatMap Batch.waiting

/-- The agent id has no colon, so that the key shows where it ends. -/
def WakeTarget.Plain (target : WakeTarget) : Prop := ∀ agentId ∈ target.agentId, ':' ∉ agentId

instance : DecidablePred WakeTarget.Plain := fun target => by
  unfold WakeTarget.Plain
  infer_instance

theorem Awaited.congr {asked asked' : WakeTarget → Prop} (hrequested : ∀ target ∈ requestedTargets log, asked target → asked' target)
    (hhanded : ∀ target ∈ handedTargets log, asked' target → asked target) (h : Awaited asked log) :
    Awaited asked' log := by
  induction log with
  | nil => exact h
  | cons entry log ih =>
    cases entry with
    | requested request target =>
      simp only [requestedTargets, List.forall_mem_cons] at hrequested
      exact h.imp hrequested.1 (ih hrequested.2 hhanded)
    | handed active wake =>
      simp only [handedTargets, List.forall_mem_cons] at hhanded
      exact ⟨fun hasked => h.1 (hhanded.1 hasked), ih hrequested hhanded.2 h.2⟩
    | ran wake => exact ih hrequested hhanded h

variable {s s' : State} {held held' : List PendingWakeReason} {target : WakeTarget}

/-- What holds while the running code holds on to the wakes `held`. -/
structure Kept (held : List PendingWakeReason) (s : State) : Prop where
  keyed : ∀ member ∈ s.pendingWakes, getWakeTargetKey member.2.toWakeTarget = member.1
  normal : ∀ target ∈ requestedTargets s.log, target.normalize = target
  handed : ∀ target ∈ handedTargets s.log, target ∈ requestedTargets s.log
  pending : ∀ member ∈ s.pendingWakes, member.2.toWakeTarget ∈ requestedTargets s.log
  inHand : ∀ wake ∈ held, wake.toWakeTarget ∈ requestedTargets s.log
  batches : ∀ batch ∈ s.batches, ∀ wake ∈ batch.pendingBatch, wake.toWakeTarget ∈ requestedTargets s.log
  kept : ∀ key, Awaited (getWakeTargetKey · = key) s.log →
    key ∈ s.pendingWakes.map Prod.fst ∨
      ∃ wake ∈ held ++ s.batches.flatMap Batch.waiting, getWakeTargetKey wake.toWakeTarget = key

def Armed (s : State) : Prop := s.pendingWakes ≠ [] → s.handler.isSome → s.timer.isSome

theorem Kept.congr (h : Kept held s) (hpending : s'.pendingWakes = s.pendingWakes) (hbatches : s'.batches = s.batches)
    (hlog : s'.log = s.log) : Kept held s' := by
  constructor
  case keyed => exact hpending ▸ h.keyed
  case normal => exact hlog ▸ h.normal
  case handed => exact hlog ▸ h.handed
  case pending => exact hpending ▸ hlog ▸ h.pending
  case inHand => exact hlog ▸ h.inHand
  case batches => exact hbatches ▸ hlog ▸ h.batches
  case kept =>
    rw [hpending, hbatches, hlog]
    exact h.kept

/-- More may be held than has to be. -/
theorem Kept.hold (h : Kept held s) (hsub : ∀ wake ∈ held, wake ∈ held')
    (hheld : ∀ wake ∈ held', wake.toWakeTarget ∈ requestedTargets s.log) : Kept held' s := by
  refine { h with inHand := hheld, kept := fun key hkey => (h.kept key hkey).imp_right ?_ }
  rintro ⟨wake, hwake, heq⟩
  exact ⟨wake, List.mem_append.2 ((List.mem_append.1 hwake).imp_left (hsub wake)), heq⟩

theorem Kept.schedule (h : Kept held s) (coalesceMs : Number) (kind : WakeTimerKind) (now : Rat) :
    Kept held (schedule s coalesceMs kind now) := by
  obtain ⟨timer, heq⟩ := schedule_eq s coalesceMs kind now
  rw [heq]
  exact h.congr rfl rfl rfl

theorem armed_schedule (s : State) (coalesceMs : Number) (kind : WakeTimerKind) (now : Rat) :
    Armed (HeartbeatWake.schedule s coalesceMs kind now) := by
  obtain ⟨timer, heq⟩ := schedule_eq s coalesceMs kind now
  rw [heq]
  exact fun _ _ => rfl

theorem armed_endBatch (s : State) (delay now : Rat) : Armed (endBatch s delay now) := by
  obtain ⟨timer, heq, harmed⟩ := endBatch_eq s delay now
  rw [heq]
  exact fun hpending _ => harmed (.inl hpending)

theorem Kept.endBatch (h : Kept held s) (delay now : Rat) : Kept held (endBatch s delay now) := by
  obtain ⟨timer, heq, -⟩ := endBatch_eq s delay now
  rw [heq]
  exact h.congr rfl rfl rfl

/-- What is put into the map waits there. -/
theorem Kept.queue (h : Kept held s) (htarget : target.normalize ∈ requestedTargets s.log)
    (hsub : ∀ wake ∈ held, wake ∈ held' ∨ getWakeTargetKey wake.toWakeTarget = getWakeTargetKey target)
    (hheld : ∀ wake ∈ held', wake ∈ held) (reason : Option Text) (requests : List Nat) (now : Rat) :
    Kept held' (queuePendingWakeReason s reason target requests now) := by
  obtain ⟨wake, heq, -, hwake⟩ := queuePendingWakeReason_eq s reason target requests now
  rw [heq]
  have hmem : wake.toWakeTarget ∈ requestedTargets s.log ∧ getWakeTargetKey wake.toWakeTarget = getWakeTargetKey target := by
    rcases hwake with hwake | ⟨previous, hlookup, hwake⟩
    · rw [hwake]
      exact ⟨htarget, getWakeTargetKey_normalize target⟩
    · rw [hwake]
      exact ⟨h.pending _ (mem_of_lookup hlookup), h.keyed _ (mem_of_lookup hlookup)⟩
  constructor
  case keyed =>
    intro member hmember
    rcases mem_assign hmember with hmember | rfl
    · exact h.keyed member hmember
    · exact hmem.2
  case normal => exact h.normal
  case handed => exact h.handed
  case pending =>
    intro member hmember
    rcases mem_assign hmember with hmember | rfl
    · exact h.pending member hmember
    · exact hmem.1
  case inHand => exact fun wake hwake => h.inHand wake (hheld wake hwake)
  case batches => exact h.batches
  case kept =>
    intro key hkey
    rw [mem_keys_assign]
    rcases h.kept key hkey with hkey | ⟨wake, hwake, rfl⟩
    · exact .inl (.inl hkey)
    · rcases List.mem_append.1 hwake with hwake | hwake
      · rcases hsub wake hwake with hwake | hkey
        · exact .inr ⟨wake, List.mem_append_left _ hwake, rfl⟩
        · exact .inl (.inr hkey)
      · exact .inr ⟨wake, List.mem_append_right _ hwake, rfl⟩

theorem Kept.requeue (h : Kept held s) (hwake : wake.toWakeTarget ∈ requestedTargets s.log) (now : Rat) :
    Kept held (requeue now s wake) :=
  h.queue (by rwa [h.normal _ hwake]) (fun _ hmem => .inl hmem) (fun _ hmem => hmem) _ _ now

/-- All wakes that are held are queued again. -/
theorem Kept.requeue_all (h : Kept held s) (now : Rat) : Kept [] (held.foldl (HeartbeatWake.requeue now) s) := by
  induction held generalizing s with
  | nil => exact h
  | cons wake held ih =>
    have hwake : wake.toWakeTarget ∈ requestedTargets s.log := h.inHand wake List.mem_cons_self
    refine ih (h.queue (by rwa [h.normal _ hwake]) ?_ (fun _ hmem => List.mem_cons_of_mem _ hmem) _ _ now)
    intro other hmem
    rcases List.mem_cons.1 hmem with rfl | hmem
    · exact .inr rfl
    · exact .inl hmem

theorem Kept.runBatch (h : Kept waiting s) (hanswered : ∀ wake ∈ answered, wake.toWakeTarget ∈ requestedTargets s.log)
    (active : Nat) (delay now : Rat) : Kept [] (runBatch s active delay answered waiting now) := by
  cases waiting with
  | nil => exact h.endBatch delay now
  | cons wake waiting =>
    have hwaiting := List.forall_mem_cons.1 h.inHand
    constructor
    case keyed => exact h.keyed
    case normal => exact h.normal
    case handed => exact List.forall_mem_cons.2 ⟨hwaiting.1, h.handed⟩
    case pending => exact h.pending
    case inHand => exact fun _ hmem => absurd hmem List.not_mem_nil
    case batches =>
      intro batch hbatch
      rcases List.mem_append.1 hbatch with hbatch | hbatch
      · exact h.batches batch hbatch
      · obtain rfl := List.mem_singleton.1 hbatch
        exact List.forall_mem_append.2 ⟨hanswered, h.inHand⟩
    case kept =>
      rintro key ⟨hne, hkey⟩
      refine (h.kept key hkey).imp_right ?_
      rintro ⟨other, hmem, rfl⟩
      refine ⟨other, ?_, rfl⟩
      simp only [List.cons_append, List.mem_cons, List.mem_append] at hmem
      have hbatches : (s.batches ++ [Batch.mk active delay answered wake waiting]).flatMap Batch.waiting =
          s.batches.flatMap Batch.waiting ++ waiting := by rw [List.flatMap_append, List.flatMap_singleton]
      rw [List.nil_append, HeartbeatWake.runBatch, hbatches]
      rcases hmem with rfl | hmem | hmem
      · exact absurd rfl hne
      · exact List.mem_append_right _ hmem
      · exact List.mem_append_left _ hmem

theorem armed_runBatch (h : Armed s) (active : Nat) (delay : Rat) (answered waiting : List PendingWakeReason)
    (now : Rat) : Armed (HeartbeatWake.runBatch s active delay answered waiting now) := by
  cases waiting with
  | nil => exact armed_endBatch s delay now
  | cons wake waiting => exact h

theorem Kept.answer (h : Kept held s) (hwake : wake.toWakeTarget ∈ requestedTargets s.log)
    (res : HeartbeatRunResult) (now : Rat) : Kept held (answer s wake res now) := by
  cases res with
  | ran => exact { h with }
  | skipped reason =>
    unfold HeartbeatWake.answer
    dsimp only
    split
    · exact (h.requeue hwake now).schedule _ _ now
    · exact h
  | failed reason => exact h

theorem armed_answer (h : Armed s) (wake : PendingWakeReason) (res : HeartbeatRunResult) (now : Rat) :
    Armed (answer s wake res now) := by
  cases res with
  | ran => exact h
  | skipped reason =>
    unfold HeartbeatWake.answer
    dsimp only
    split
    · exact armed_schedule _ _ _ now
    · exact h
  | failed reason => exact h

theorem requestedTargets_answer (s : State) (wake : PendingWakeReason) (res : HeartbeatRunResult) (now : Rat) :
    requestedTargets (answer s wake res now).log = requestedTargets s.log := by
  cases res with
  | ran => rfl
  | skipped reason =>
    unfold HeartbeatWake.answer
    dsimp only
    split
    · obtain ⟨timer, heq⟩ := schedule_eq (requeue now s wake) (.fin DEFAULT_RETRY_MS) .retry now
      rw [heq]
      rfl
    · rfl
  | failed reason => rfl

theorem Kept.settle (h : Kept batch.waiting s) (hbatch : ∀ wake ∈ batch.pendingBatch, wake.toWakeTarget ∈ requestedTargets s.log)
    (settled : Settled) (now : Rat) : Kept [] (settle s batch settled now) := by
  cases settled with
  | none =>
    have hheld : Kept batch.pendingBatch s :=
      h.hold (fun wake hmem => List.mem_append_right _ (List.mem_cons_of_mem _ hmem)) hbatch
    exact ((hheld.requeue_all now).schedule _ _ now).endBatch _ now
  | some res =>
    obtain ⟨hanswered, hwaiting⟩ := List.forall_mem_append.1 hbatch
    obtain ⟨hcurrent, -⟩ := List.forall_mem_cons.1 hwaiting
    refine (h.answer hcurrent res now).runBatch ?_ batch.active batch.delay now
    rw [requestedTargets_answer]
    exact List.forall_mem_append.2 ⟨hanswered, List.forall_mem_singleton.2 hcurrent⟩

theorem armed_settle (h : Armed s) (batch : Batch) (settled : Settled) (now : Rat) :
    Armed (HeartbeatWake.settle s batch settled now) := by
  cases settled with
  | none => exact armed_endBatch _ _ now
  | some res => exact armed_runBatch (armed_answer h _ res now) _ _ _ _ now

/-- The batch whose promise settled is in the hands of the code. -/
theorem Kept.take (h : Kept [] s) (hbatch : s.batches[index]? = some batch) :
    Kept batch.waiting { s with batches := s.batches.eraseIdx index } := by
  constructor
  case keyed => exact h.keyed
  case normal => exact h.normal
  case handed => exact h.handed
  case pending => exact h.pending
  case inHand =>
    exact fun wake hwake => h.batches batch (List.mem_of_getElem? hbatch) wake
      (List.mem_append_right _ (List.mem_cons_of_mem _ hwake))
  case batches => exact fun other hmem => h.batches other (List.mem_of_mem_eraseIdx hmem)
  case kept =>
    intro key hkey
    refine (h.kept key hkey).imp_right ?_
    rintro ⟨wake, hwake, rfl⟩
    obtain ⟨other, hother, hwake⟩ := List.mem_flatMap.1 hwake
    refine ⟨wake, ?_, rfl⟩
    obtain ⟨hlt, rfl⟩ := List.getElem?_eq_some_iff.1 hbatch
    rcases List.mem_cons.1 ((List.getElem_cons_eraseIdx_perm hlt).mem_iff.2 hother) with rfl | hother
    · exact List.mem_append_left _ hwake
    · exact List.mem_append_right _ (List.mem_flatMap.2 ⟨other, hother, hwake⟩)

theorem Kept.fire (h : Kept [] s) (timer : Timer) (now : Rat) : Kept [] (fire s timer now) := by
  unfold HeartbeatWake.fire
  dsimp only
  cases s.handler with
  | none => exact h.congr rfl rfl rfl
  | some active =>
    dsimp only
    split
    · refine Kept.schedule ?_ _ _ now
      exact h.congr rfl rfl rfl
    · refine Kept.runBatch ?_ (fun _ hmem => absurd hmem List.not_mem_nil) active timer.delay now
      constructor
      case keyed => exact fun _ hmem => absurd hmem List.not_mem_nil
      case normal => exact h.normal
      case handed => exact h.handed
      case pending => exact fun _ hmem => absurd hmem List.not_mem_nil
      case inHand =>
        intro wake hwake
        obtain ⟨member, hmember, rfl⟩ := List.mem_map.1 hwake
        exact h.pending member hmember
      case batches => exact h.batches
      case kept =>
        intro key hkey
        refine .inr ?_
        rcases h.kept key hkey with hkey | ⟨wake, hwake, rfl⟩
        · obtain ⟨member, hmember, rfl⟩ := List.mem_map.1 hkey
          exact ⟨member.2, List.mem_append_left _ (List.mem_map_of_mem hmember), h.keyed member hmember⟩
        · exact ⟨wake, List.mem_append_right _ hwake, rfl⟩

theorem armed_fire (s : State) (timer : Timer) (now : Rat) : Armed (HeartbeatWake.fire s timer now) := by
  unfold HeartbeatWake.fire
  dsimp only
  cases s.handler with
  | none => exact fun _ hhandled => by simp at hhandled
  | some active =>
    dsimp only
    split
    · exact armed_schedule _ _ _ now
    · exact armed_runBatch (fun hpending => absurd rfl hpending) _ _ _ _ now

theorem Kept.setHeartbeatWakeHandler (h : Kept [] s) (next : Option Nat) (now : Rat) :
    Kept [] (setHeartbeatWakeHandler s next now) := by
  unfold HeartbeatWake.setHeartbeatWakeHandler
  dsimp only
  split <;> split
  · refine Kept.schedule ?_ _ _ now
    exact h.congr rfl rfl rfl
  · exact h.congr rfl rfl rfl
  · refine Kept.schedule ?_ _ _ now
    exact h.congr rfl rfl rfl
  · exact h.congr rfl rfl rfl

theorem armed_setHeartbeatWakeHandler (s : State) (next : Option Nat) (now : Rat) :
    Armed (HeartbeatWake.setHeartbeatWakeHandler s next now) := by
  unfold HeartbeatWake.setHeartbeatWakeHandler
  dsimp only
  generalize (if next.isSome = true then _ else _ : State) = registered
  split
  case isTrue => exact armed_schedule _ _ _ now
  case isFalse hidle => exact fun hpending hhandled => absurd ⟨hhandled, List.length_pos_of_ne_nil hpending⟩ hidle

theorem Kept.dispose (h : Kept [] s) (generation : Nat) (next : Option Nat) : Kept [] (dispose s generation next) := by
  rcases dispose_cases s generation next with heq | heq
  · rw [heq]
    exact h
  · rw [heq]
    exact h.congr rfl rfl rfl

theorem armed_dispose (h : Armed s) (generation : Nat) (next : Option Nat) :
    Armed (HeartbeatWake.dispose s generation next) := by
  rcases dispose_cases s generation next with heq | heq
  · rw [heq]
    exact h
  · rw [heq]
    exact fun _ hhandled => absurd hhandled Bool.false_ne_true

/-- The request is in the code's hands until it is in the map. -/
theorem Kept.requested (h : Kept [] s) (target : WakeTarget) (wake : PendingWakeReason)
    (hwake : wake.toWakeTarget = target.normalize) (request nextRequest : Nat) :
    Kept [wake] { s with nextRequest, log := .requested request target.normalize :: s.log } := by
  constructor
  case keyed => exact h.keyed
  case normal => exact List.forall_mem_cons.2 ⟨target.normalize_normalize, h.normal⟩
  case handed => exact fun other hmem => List.mem_cons_of_mem _ (h.handed other hmem)
  case pending => exact fun member hmem => List.mem_cons_of_mem _ (h.pending member hmem)
  case inHand =>
    rintro other hmem
    rw [List.mem_singleton.1 hmem, hwake]
    exact List.mem_cons_self
  case batches => exact fun batch hbatch other hmem => List.mem_cons_of_mem _ (h.batches batch hbatch other hmem)
  case kept =>
    rintro key (hkey | hkey)
    · exact .inr ⟨wake, List.mem_cons_self, by rw [hwake, hkey]⟩
    · refine (h.kept key hkey).imp_right ?_
      rintro ⟨other, hmem, heq⟩
      exact ⟨other, List.mem_cons_of_mem _ hmem, heq⟩

theorem Kept.requestHeartbeatNow (h : Kept [] s) (reason agentId sessionKey : Option Text)
    (coalesceMs : Option Number) (now : Rat) :
    Kept [] (requestHeartbeatNow s reason agentId sessionKey coalesceMs now) := by
  let target : WakeTarget := ⟨agentId, sessionKey⟩
  let wake : PendingWakeReason := { target.normalize with reason := [], priority := 0, requestedAt := now, requests := [] }
  have hasked := h.requested target wake rfl s.nextRequest (s.nextRequest + 1)
  refine Kept.schedule (hasked.queue List.mem_cons_self ?_ (fun _ hmem => absurd hmem List.not_mem_nil) _ _ now) _ _ now
  intro other hmem
  rw [List.mem_singleton.1 hmem]
  exact .inr (getWakeTargetKey_normalize target)

theorem Kept.step (h : Kept [] s) (hstep : step s label = some s') : Kept [] s' := by
  cases label with
  | requestHeartbeatNow reason agentId sessionKey coalesceMs now =>
    cases hstep
    exact h.requestHeartbeatNow reason agentId sessionKey coalesceMs now
  | setHeartbeatWakeHandler next now =>
    cases hstep
    exact h.setHeartbeatWakeHandler next now
  | dispose registration =>
    obtain ⟨made, -, rfl⟩ := Option.map_eq_some_iff.1 hstep
    exact h.dispose made.1 made.2
  | fire now =>
    obtain ⟨timer, -, rfl⟩ := Option.map_eq_some_iff.1 hstep
    exact h.fire timer now
  | settled index settled now =>
    obtain ⟨batch, hbatch, rfl⟩ := Option.map_eq_some_iff.1 hstep
    exact (h.take hbatch).settle (h.batches batch (List.mem_of_getElem? hbatch)) settled now

theorem Armed.step (h : Armed s) (hstep : step s label = some s') : Armed s' := by
  cases label with
  | requestHeartbeatNow reason agentId sessionKey coalesceMs now =>
    cases hstep
    exact armed_schedule _ _ _ now
  | setHeartbeatWakeHandler next now =>
    cases hstep
    exact armed_setHeartbeatWakeHandler s next now
  | dispose registration =>
    obtain ⟨made, -, rfl⟩ := Option.map_eq_some_iff.1 hstep
    exact armed_dispose h made.1 made.2
  | fire now =>
    obtain ⟨timer, -, rfl⟩ := Option.map_eq_some_iff.1 hstep
    exact armed_fire s timer now
  | settled index settled now =>
    obtain ⟨batch, -, rfl⟩ := Option.map_eq_some_iff.1 hstep
    refine armed_settle ?_ batch settled now
    exact h

end OpenClaw.HeartbeatWake
