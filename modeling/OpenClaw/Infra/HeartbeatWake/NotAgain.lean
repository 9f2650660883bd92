import OpenClaw.Infra.HeartbeatWake
import OpenClaw.Lib.Tokens

/-!
# No wake is run again

Every wake that is pending or in a batch stands for a request of its own, one that no
answer `ran` has served and no other such wake stands for. A rejection queues its whole
batch again, also what was answered: this keeps the property where each answered wake is
pending again or has a request left, and no batch works for such a request meanwhile.
-/

namespace OpenClaw.HeartbeatWake

open Js Members Transition

-- ---
-- What the log says
-- ---

/-- The requests of the wakes whose handler completed with `ran`. -/
def ranRequests : List Entry → List Nat
  | [] => []
  | .requested _ _ :: log => ranRequests log
  | .handed _ _ :: log => ranRequests log
  | .ran wake :: log => wake.requests ++ ranRequests log

def requestKey : List Entry → Nat → Option Text
  | [], _ => none
  | .requested request target :: log, request' =>
    if request' = request then some (getWakeTargetKey target) else requestKey log request'
  | .handed _ _ :: log, request => requestKey log request
  | .ran _ :: log, request => requestKey log request

/-- A wake is handed to a handler for a request that none before has run for. -/
def NotRunAgain : List Entry → Prop
  | [] => True
  | .requested _ _ :: log => NotRunAgain log
  | .handed _ wake :: log => (∃ request ∈ wake.requests, request ∉ ranRequests log) ∧ NotRunAgain log
  | .ran _ :: log => NotRunAgain log

instance NotRunAgain.decidable : (log : List Entry) → Decidable (NotRunAgain log)
  | [] => .isTrue trivial
  | .requested _ _ :: log => NotRunAgain.decidable log
  | .handed _ wake :: log =>
    have := NotRunAgain.decidable log
    inferInstanceAs (Decidable ((∃ request ∈ wake.requests, request ∉ ranRequests log) ∧ NotRunAgain log))
  | .ran _ :: log => NotRunAgain.decidable log

/-- The wakes of a batch whose handler has not answered. -/
def Batch.unfinished (batch : Batch) : List PendingWakeReason := batch.current :: batch.waiting

def State.executing (s : State) : List PendingWakeReason := s.batches.flatMap Batch.unfinished

/-- The wakes that are pending, in the hands of the code, or in a batch. -/
def live (held : List PendingWakeReason) (s : State) : List PendingWakeReason :=
  s.pendingWakes.map Prod.snd ++ (held ++ s.executing)

def PendingWakeReason.key (wake : PendingWakeReason) : Text := getWakeTargetKey wake.toWakeTarget

def AskedFor (log : List Entry) (wake : PendingWakeReason) : Prop :=
  ∀ request ∈ wake.requests, requestKey log request = some wake.key

-- ---
-- The invariant
-- ---

structure Owning (held : List PendingWakeReason) (s : State) : Prop where
  nodup : (s.pendingWakes.map Prod.fst).Nodup
  keyed : ∀ member ∈ s.pendingWakes, member.2.key = member.1
  owned : Tokens.Owned PendingWakeReason.requests (ranRequests s.log) (live held s)
  asked : ∀ wake ∈ live held s, AskedFor s.log wake
  answered : ∀ batch ∈ s.batches, ∀ wake ∈ batch.answered, AskedFor s.log wake
  numbered : ∀ request, (requestKey s.log request).isSome → request < s.nextRequest
  ran : ∀ request ∈ ranRequests s.log, (requestKey s.log request).isSome
  notAgain : NotRunAgain s.log

variable {s s' : State} {held held' waiting answered : List PendingWakeReason} {wake : PendingWakeReason}
  {target : WakeTarget} {request : Nat} {key : Text}

theorem Owning.congr (h : Owning held s) (hpending : s'.pendingWakes = s.pendingWakes) (hbatches : s'.batches = s.batches)
    (hlog : s'.log = s.log) (hnext : s'.nextRequest = s.nextRequest) : Owning held s' := by
  have hlive : live held s' = live held s := by rw [live, State.executing, hpending, hbatches, live, State.executing]
  constructor
  case nodup => exact hpending ▸ h.nodup
  case keyed => exact hpending ▸ h.keyed
  case owned => exact hlive ▸ hlog ▸ h.owned
  case asked => exact hlive ▸ hlog ▸ h.asked
  case answered => exact hbatches ▸ hlog ▸ h.answered
  case numbered => exact hnext ▸ hlog ▸ h.numbered
  case ran => exact hlog ▸ h.ran
  case notAgain => exact hlog ▸ h.notAgain

theorem Owning.schedule (h : Owning held s) (coalesceMs : Number) (kind : WakeTimerKind) (now : Rat) :
    Owning held (schedule s coalesceMs kind now) := by
  obtain ⟨timer, heq⟩ := schedule_eq s coalesceMs kind now
  rw [heq]
  exact h.congr rfl rfl rfl rfl

theorem Owning.endBatch (h : Owning held s) (delay now : Rat) : Owning held (endBatch s delay now) := by
  obtain ⟨timer, heq, -⟩ := endBatch_eq s delay now
  rw [heq]
  exact h.congr rfl rfl rfl rfl

/-- A wake the code lets go of. -/
theorem Owning.drop (h : Owning (wake :: held) s) : Owning held s := by
  have hperm : (live (wake :: held) s).Perm (wake :: live held s) := List.perm_middle
  exact
    { h with
      owned := (h.owned.perm hperm).tail
      asked := fun other hmem => h.asked other (hperm.mem_iff.2 (List.mem_cons_of_mem _ hmem)) }

/-- The handler of a wake completed with `ran`. -/
theorem Owning.served (h : Owning (wake :: held) s) : Owning held { s with log := .ran wake :: s.log } := by
  have hperm : (live (wake :: held) s).Perm (wake :: live held s) := List.perm_middle
  have hwake : AskedFor s.log wake := h.asked wake (hperm.mem_iff.2 List.mem_cons_self)
  constructor
  case nodup => exact h.nodup
  case keyed => exact h.keyed
  case owned => exact (h.owned.perm hperm).spend
  case asked => exact fun other hmem => h.asked other (hperm.mem_iff.2 (List.mem_cons_of_mem _ hmem))
  case answered => exact h.answered
  case numbered => exact h.numbered
  case ran =>
    intro request hrequest
    rcases List.mem_append.1 hrequest with hrequest | hrequest
    · exact Option.isSome_iff_exists.2 ⟨_, hwake request hrequest⟩
    · exact h.ran request hrequest
  case notAgain => exact h.notAgain

-- ---
-- Putting into the map
-- ---

/-- The wake that is queued is a new one, or takes the place of the one for its key. -/
theorem live_queue (h : Owning held s) (reason : Option Text) (target : WakeTarget) (requests : List Nat) (now : Rat) :
    ∃ (wake : PendingWakeReason) (rest : List PendingWakeReason),
      queuePendingWakeReason s reason target requests now =
        { s with pendingWakes := assign s.pendingWakes (getWakeTargetKey target) wake } ∧
      (live held (queuePendingWakeReason s reason target requests now)).Perm (wake :: rest) ∧
      wake.key = getWakeTargetKey target ∧
      (∀ other ∈ rest, other.key = getWakeTargetKey target → other ∈ held ++ s.executing) ∧
      (getWakeTargetKey target ∉ s.pendingWakes.map Prod.fst ∧ rest.Perm (live held s) ∧ wake.requests = requests ∨
        ∃ previous, (live held s).Perm (previous :: rest) ∧ previous.key = getWakeTargetKey target ∧
          wake.requests = previous.requests ++ requests) := by
  obtain ⟨wake, heq, hrequests, hwake⟩ := queuePendingWakeReason_eq s reason target requests now
  have hrest : ∀ other ∈ (remove s.pendingWakes (getWakeTargetKey target)).map Prod.snd ++ (held ++ s.executing),
      other.key = getWakeTargetKey target → other ∈ held ++ s.executing := by
    intro other hother hkey
    refine (List.mem_append.1 hother).resolve_left fun hpending => ?_
    obtain ⟨member, hmember, rfl⟩ := List.mem_map.1 hpending
    obtain ⟨hmember, hne⟩ := List.mem_filter.1 hmember
    exact of_decide_eq_true hne ((h.keyed member hmember).symm.trans hkey)
  have hwakeKey : wake.key = getWakeTargetKey target := by
    rcases hwake with hwake | ⟨previous, hlookup, hwake⟩
    · rw [PendingWakeReason.key, hwake, getWakeTargetKey_normalize]
    · rw [PendingWakeReason.key, hwake]
      exact h.keyed (_, previous) (mem_of_lookup hlookup)
  have hafter : (live held (queuePendingWakeReason s reason target requests now)).Perm
      (wake :: ((remove s.pendingWakes (getWakeTargetKey target)).map Prod.snd ++ (held ++ s.executing))) := by
    rw [heq]
    exact ((perm_assign h.nodup _ wake).map Prod.snd).append_right _
  refine ⟨wake, _, heq, hafter, hwakeKey, hrest, ?_⟩
  cases hlookup : s.pendingWakes.lookup (getWakeTargetKey target) with
  | none =>
    have hkey := lookup_eq_none.1 hlookup
    refine .inl ⟨hkey, ?_, ?_⟩
    · rw [remove_eq_self hkey]
      exact .refl _
    · rw [hrequests, State.requestsFor, hlookup]
      rfl
  | some previous =>
    have hprevious : previous.key = getWakeTargetKey target := h.keyed (_, previous) (mem_of_lookup hlookup)
    refine .inr ⟨previous, ?_, hprevious, ?_⟩
    · exact ((perm_remove h.nodup hlookup).map Prod.snd).append_right _
    · rw [hrequests, State.requestsFor, hlookup]
      rfl

/-- The rest of the invariant, once the wake in the map has a request of its own. -/
theorem Owning.of_queue (h : Owning held s) (reason : Option Text) (target : WakeTarget) (requests : List Nat) (now : Rat)
    (hasked : ∀ request ∈ requests, requestKey s.log request = some (getWakeTargetKey target))
    (howned : Tokens.Owned PendingWakeReason.requests (ranRequests s.log)
      (live held (queuePendingWakeReason s reason target requests now))) :
    Owning held (queuePendingWakeReason s reason target requests now) := by
  obtain ⟨wake, rest, heq, hafter, hkey, -, hcases⟩ := live_queue h reason target requests now
  constructor
  case nodup =>
    rw [heq]
    exact nodup_assign h.nodup _ wake
  case keyed =>
    rw [heq]
    intro member hmember
    rcases mem_assign hmember with hmember | rfl
    · exact h.keyed member hmember
    · exact hkey
  case owned => exact howned
  case asked =>
    intro other hother
    rcases List.mem_cons.1 (hafter.mem_iff.1 hother) with rfl | hother
    · intro request hrequest
      rw [hkey]
      rcases hcases with ⟨-, -, hwake⟩ | ⟨previous, hlive, hprevious, hwake⟩
      · exact hasked request (hwake ▸ hrequest)
      · rcases List.mem_append.1 (hwake ▸ hrequest) with hrequest | hrequest
        · rw [← hprevious]
          exact h.asked previous (hlive.mem_iff.2 List.mem_cons_self) request hrequest
        · exact hasked request hrequest
    · rcases hcases with ⟨-, hrest, -⟩ | ⟨previous, hlive, -, -⟩
      · exact h.asked other (hrest.mem_iff.1 hother)
      · exact h.asked other (hlive.mem_iff.2 (List.mem_cons_of_mem _ hother))
  case answered => exact h.answered
  case numbered => exact h.numbered
  case ran => exact h.ran
  case notAgain => exact h.notAgain

/-- Requests are put into the map that nothing else is at work for. -/
theorem Owning.queue (h : Owning held s) (reason : Option Text) (target : WakeTarget) (requests : List Nat) (now : Rat)
    (hasked : ∀ request ∈ requests, requestKey s.log request = some (getWakeTargetKey target))
    (hfree : ∀ request ∈ requests, request ∉ ranRequests s.log →
      ∀ other ∈ held ++ s.executing, request ∉ other.requests)
    (hnew : getWakeTargetKey target ∈ s.pendingWakes.map Prod.fst ∨ ∃ request ∈ requests, request ∉ ranRequests s.log) :
    Owning held (queuePendingWakeReason s reason target requests now) := by
  refine h.of_queue reason target requests now hasked ?_
  obtain ⟨wake, rest, -, hafter, -, hrest, hcases⟩ := live_queue h reason target requests now
  -- A wake for another key stands for other requests.
  have hothers : (∀ other ∈ rest, AskedFor s.log other) → ∀ request ∈ requests, request ∉ ranRequests s.log →
      ∀ other ∈ rest, request ∉ other.requests := by
    intro hrestAsked request hrequest hunserved other hother hcarried
    have hkey : other.key = getWakeTargetKey target :=
      Option.some.inj ((hrestAsked other hother request hcarried).symm.trans (hasked request hrequest))
    exact hfree request hrequest hunserved other (hrest other hother hkey) hcarried
  refine Tokens.Owned.perm ?_ hafter.symm
  rcases hcases with ⟨hkey, hlive, hwake⟩ | ⟨previous, hlive, -, hwake⟩
  · refine (h.owned.perm hlive.symm).cons ?_ ?_
    · rw [hwake]
      exact hnew.resolve_left hkey
    · rw [hwake]
      exact hothers fun other hother => h.asked other (hlive.mem_iff.1 hother)
  · have hrestAsked : ∀ other ∈ rest, AskedFor s.log other :=
      fun other hother => h.asked other (hlive.mem_iff.2 (List.mem_cons_of_mem _ hother))
    refine (h.owned.perm hlive).replace ?_ ?_
    · rw [hwake]
      exact fun request hrequest => List.mem_append_left _ hrequest
    · rw [hwake]
      intro request hrequest hunserved
      rcases List.mem_append.1 hrequest with hrequest | hrequest
      · exact .inl hrequest
      · exact .inr (hothers hrestAsked request hrequest hunserved)

/-- A wake goes from the hands of the code into the map. -/
theorem Owning.requeue (h : Owning (wake :: held) s) (now : Rat) : Owning held (requeue now s wake) := by
  have hperm : (live (wake :: held) s).Perm (wake :: live held s) := List.perm_middle
  have howned := h.owned.perm hperm
  refine h.drop.of_queue (some wake.reason) wake.toWakeTarget wake.requests now
    (h.asked wake (hperm.mem_iff.2 List.mem_cons_self)) ?_
  obtain ⟨entry, rest, -, hafter, -, -, hcases⟩ :=
    live_queue h.drop (some wake.reason) wake.toWakeTarget wake.requests now
  refine Tokens.Owned.perm ?_ hafter.symm
  rcases hcases with ⟨-, hlive, hentry⟩ | ⟨previous, hlive, -, hentry⟩
  · refine (howned.perm (hlive.symm.cons wake)).replace ?_ ?_
    · rw [hentry]
      exact fun _ hrequest => hrequest
    · rw [hentry]
      exact fun _ hrequest _ => .inl hrequest
  · refine (howned.perm ((hlive.cons wake).trans (.swap _ _ _))).merge ?_
    intro request
    rw [hentry, List.mem_append]

theorem Owning.requeue_all (h : Owning held s) (now : Rat) :
    Owning [] (held.foldl (HeartbeatWake.requeue now) s) := by
  induction held generalizing s with
  | nil => exact h
  | cons wake held ih => exact ih (h.requeue now)

/-- A wake that was answered can be queued again: it is pending, or has a request left;
and no batch works for such a request. -/
def Unserved (s : State) (wake : PendingWakeReason) : Prop :=
  (wake.key ∈ s.pendingWakes.map Prod.fst ∨ ∃ request ∈ wake.requests, request ∉ ranRequests s.log) ∧
  ∀ request ∈ wake.requests, request ∉ ranRequests s.log → ∀ other ∈ s.executing, request ∉ other.requests

instance (s : State) : DecidablePred (Unserved s) := fun wake => by
  unfold Unserved
  infer_instance

theorem Owning.requeue_answered (h : Owning held s) (now : Rat)
    (hasked : ∀ wake ∈ answered, AskedFor s.log wake)
    (hnew : ∀ wake ∈ answered, wake.key ∈ s.pendingWakes.map Prod.fst ∨ ∃ request ∈ wake.requests, request ∉ ranRequests s.log)
    (hfree : ∀ wake ∈ answered, ∀ request ∈ wake.requests, request ∉ ranRequests s.log →
      ∀ other ∈ held ++ s.executing, request ∉ other.requests) :
    Owning held (answered.foldl (HeartbeatWake.requeue now) s) := by
  induction answered generalizing s with
  | nil => exact h
  | cons wake answered ih =>
    rw [List.forall_mem_cons] at hasked hnew hfree
    have hqueued : Owning held (HeartbeatWake.requeue now s wake) := h.queue _ _ _ now hasked.1 hfree.1 hnew.1
    refine ih hqueued hasked.2 ?_ hfree.2
    intro other hother
    refine (hnew.2 other hother).imp_left fun hkey => ?_
    obtain ⟨entry, heq, -, -⟩ := queuePendingWakeReason_eq s (some wake.reason) wake.toWakeTarget wake.requests now
    rw [HeartbeatWake.requeue, heq]
    exact mem_keys_assign.2 (.inl hkey)

-- ---
-- The steps
-- ---

theorem Owning.runBatch (h : Owning waiting s) (hanswered : ∀ wake ∈ answered, AskedFor s.log wake) (active : Nat)
    (delay now : Rat) : Owning [] (runBatch s active delay answered waiting now) := by
  cases waiting with
  | nil => exact h.endBatch delay now
  | cons wake waiting =>
    have hlive : (live [] (HeartbeatWake.runBatch s active delay answered (wake :: waiting) now)).Perm
        (live (wake :: waiting) s) := by
      have hexecuting : (s.batches ++ [Batch.mk active delay answered wake waiting]).flatMap Batch.unfinished =
          s.executing ++ wake :: waiting := by rw [List.flatMap_append, List.flatMap_singleton]; rfl
      rw [live, live, List.nil_append, State.executing, HeartbeatWake.runBatch, hexecuting]
      exact List.perm_append_comm.append_left _
    constructor
    case nodup => exact h.nodup
    case keyed => exact h.keyed
    case owned => exact h.owned.perm hlive.symm
    case asked => exact fun other hother => h.asked other (hlive.mem_iff.1 hother)
    case answered =>
      intro batch hbatch
      rcases List.mem_append.1 hbatch with hbatch | hbatch
      · exact h.answered batch hbatch
      · obtain rfl := List.mem_singleton.1 hbatch
        exact hanswered
    case numbered => exact h.numbered
    case ran => exact h.ran
    case notAgain =>
      obtain ⟨request, hrequest, hunserved, -⟩ :=
        h.owned wake (List.mem_append_right _ (List.mem_append_left _ List.mem_cons_self))
      exact ⟨⟨request, hrequest, hunserved⟩, h.notAgain⟩

theorem requestKey_answer (s : State) (wake : PendingWakeReason) (res : HeartbeatRunResult) (now : Rat) :
    requestKey (answer s wake res now).log = requestKey s.log := by
  cases res with
  | ran => rfl
  | skipped reason =>
    unfold HeartbeatWake.answer
    dsimp only
    split
    · obtain ⟨timer, heq⟩ := schedule_eq (requeue now s wake) (.fin DEFAULT_RETRY_MS) .retry now
      rw [heq]
      rfl
    · rfl
  | failed reason => rfl

theorem Owning.answer (h : Owning (wake :: held) s) (res : HeartbeatRunResult) (now : Rat) :
    Owning held (answer s wake res now) := by
  cases res with
  | ran => exact h.served
  | skipped reason =>
    unfold HeartbeatWake.answer
    dsimp only
    split
    · exact (h.requeue now).schedule _ _ now
    · exact h.drop
  | failed reason => exact h.drop

theorem executing_take {index : Nat} {batch : Batch} (hbatch : s.batches[index]? = some batch) :
    s.executing.Perm (batch.unfinished ++ { s with batches := s.batches.eraseIdx index }.executing) := by
  obtain ⟨hlt, rfl⟩ := List.getElem?_eq_some_iff.1 hbatch
  exact (List.getElem_cons_eraseIdx_perm hlt).symm.flatMap_right _

/-- The batch whose promise settled is in the hands of the code. -/
theorem Owning.take {index : Nat} {batch : Batch} (h : Owning [] s) (hbatch : s.batches[index]? = some batch) :
    Owning batch.unfinished { s with batches := s.batches.eraseIdx index } := by
  have hlive : (live batch.unfinished { s with batches := s.batches.eraseIdx index }).Perm (live [] s) :=
    (executing_take hbatch).symm.append_left _
  constructor
  case nodup => exact h.nodup
  case keyed => exact h.keyed
  case owned => exact h.owned.perm hlive.symm
  case asked => exact fun wake hwake => h.asked wake (hlive.mem_iff.1 hwake)
  case answered => exact fun other hother => h.answered other (List.mem_of_mem_eraseIdx hother)
  case numbered => exact h.numbered
  case ran => exact h.ran
  case notAgain => exact h.notAgain

theorem Owning.settle {index : Nat} {batch : Batch} (h : Owning [] s) (hbatch : s.batches[index]? = some batch)
    (settled : Settled) (hunserved : settled = none → ∀ wake ∈ batch.answered, Unserved s wake) (now : Rat) :
    Owning [] (settle { s with batches := s.batches.eraseIdx index } batch settled now) := by
  have htake := h.take hbatch
  have hanswered : ∀ wake ∈ batch.answered, AskedFor s.log wake := h.answered batch (List.mem_of_getElem? hbatch)
  cases settled with
  | none =>
    have hfree : ∀ wake ∈ batch.answered, ∀ request ∈ wake.requests, request ∉ ranRequests s.log →
        ∀ other ∈ batch.unfinished ++ { s with batches := s.batches.eraseIdx index }.executing,
          request ∉ other.requests :=
      fun wake hwake request hrequest hleft other hother =>
        (hunserved rfl wake hwake).2 request hrequest hleft other ((executing_take hbatch).mem_iff.2 hother)
    have hrequeued := htake.requeue_answered now hanswered (fun wake hwake => (hunserved rfl wake hwake).1) hfree
    have hall := hrequeued.requeue_all now
    rw [← List.foldl_append] at hall
    exact (hall.schedule _ _ now).endBatch _ now
  | some res =>
    refine (htake.answer res now).runBatch ?_ batch.active batch.delay now
    have hcurrent : AskedFor s.log batch.current :=
      htake.asked _ (List.mem_append_right _ (List.mem_append_left _ List.mem_cons_self))
    simp only [AskedFor, requestKey_answer]
    exact List.forall_mem_append.2 ⟨hanswered, List.forall_mem_singleton.2 hcurrent⟩

theorem Owning.fire (h : Owning [] s) (timer : Timer) (now : Rat) : Owning [] (fire s timer now) := by
  unfold HeartbeatWake.fire
  dsimp only
  cases s.handler with
  | none => exact h.congr rfl rfl rfl rfl
  | some active =>
    dsimp only
    split
    · refine Owning.schedule ?_ _ _ now
      exact h.congr rfl rfl rfl rfl
    · refine Owning.runBatch ?_ (fun _ hmem => absurd hmem List.not_mem_nil) active timer.delay now
      exact
        { h with
          nodup := List.nodup_nil
          keyed := fun _ hmem => absurd hmem List.not_mem_nil }

theorem Owning.setHeartbeatWakeHandler (h : Owning [] s) (next : Option Nat) (now : Rat) :
    Owning [] (setHeartbeatWakeHandler s next now) := by
  unfold HeartbeatWake.setHeartbeatWakeHandler
  dsimp only
  split <;> split
  · refine Owning.schedule ?_ _ _ now
    exact h.congr rfl rfl rfl rfl
  · exact h.congr rfl rfl rfl rfl
  · refine Owning.schedule ?_ _ _ now
    exact h.congr rfl rfl rfl rfl
  · exact h.congr rfl rfl rfl rfl

theorem Owning.dispose (h : Owning [] s) (generation : Nat) (next : Option Nat) :
    Owning [] (dispose s generation next) := by
  rcases dispose_cases s generation next with heq | heq
  · rw [heq]
    exact h
  · rw [heq]
    exact h.congr rfl rfl rfl rfl

theorem requestKey_requested (h : Owning [] s) (target : WakeTarget) (hrequest : (requestKey s.log request).isSome) :
    requestKey (.requested s.nextRequest target :: s.log) request = requestKey s.log request := by
  rw [requestKey, if_neg (h.numbered request hrequest).ne]

theorem Owning.requested (h : Owning [] s) (target : WakeTarget) :
    Owning [] { s with nextRequest := s.nextRequest + 1, log := .requested s.nextRequest target :: s.log } := by
  have hasked : ∀ {wake : PendingWakeReason}, AskedFor s.log wake →
      AskedFor (.requested s.nextRequest target :: s.log) wake := by
    intro wake hwake request hrequest
    have hkey := hwake request hrequest
    rw [requestKey_requested h target (Option.isSome_iff_exists.2 ⟨_, hkey⟩), hkey]
  constructor
  case nodup => exact h.nodup
  case keyed => exact h.keyed
  case owned => exact h.owned
  case asked => exact fun wake hwake => hasked (h.asked wake hwake)
  case answered => exact fun batch hbatch wake hwake => hasked (h.answered batch hbatch wake hwake)
  case numbered =>
    intro request hrequest
    by_cases heq : request = s.nextRequest
    · exact heq ▸ Nat.lt_succ_self _
    · rw [requestKey, if_neg heq] at hrequest
      exact (h.numbered request hrequest).trans (Nat.lt_succ_self _)
  case ran =>
    intro request hrequest
    have hsome := h.ran request hrequest
    rw [requestKey_requested h target hsome]
    exact hsome
  case notAgain => exact h.notAgain

theorem Owning.requestHeartbeatNow (h : Owning [] s) (reason agentId sessionKey : Option Text)
    (coalesceMs : Option Number) (now : Rat) :
    Owning [] (requestHeartbeatNow s reason agentId sessionKey coalesceMs now) := by
  have hfresh : requestKey s.log s.nextRequest = none := by
    refine Option.not_isSome_iff_eq_none.1 fun hsome => ?_
    exact absurd (h.numbered _ hsome) (Nat.lt_irrefl _)
  refine Owning.schedule ?_ _ _ now
  refine (h.requested (WakeTarget.mk agentId sessionKey).normalize).queue reason _ _ now ?_ ?_ ?_
  · intro request hrequest
    rw [List.mem_singleton.1 hrequest, requestKey, if_pos rfl, getWakeTargetKey_normalize]
  · intro request hrequest _ other hother hcarried
    have hkey := h.asked other (List.mem_append_right _ hother) request hcarried
    rw [List.mem_singleton.1 hrequest, hfresh] at hkey
    cases hkey
  · refine .inr ⟨s.nextRequest, List.mem_cons_self, fun hran => ?_⟩
    have hsome := h.ran _ hran
    rw [hfresh] at hsome
    cases hsome

theorem owning_initial : Owning [] State.initial := by
  constructor <;> simp [State.initial, live, State.executing, Tokens.Owned, requestKey, ranRequests, NotRunAgain]

end OpenClaw.HeartbeatWake
