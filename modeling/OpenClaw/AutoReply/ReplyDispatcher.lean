import Mathlib.Data.List.Basic
import Mathlib.Tactic.SplitIfs
import OpenClaw.Lib.Transition

/-!
# Reply dispatcher

`createReplyDispatcher` sends the replies of a run one after another over a chain of promises,
and counts what is pending so that a gateway restart waits for it. The count starts with a
reservation, which is cleared once no more replies will come and all are sent.

A step is a call into the dispatcher or a callback of a promise. The lists of what was
accepted, handed to `deliver` and finished are a log; the code has none.
-/

namespace OpenClaw.ReplyDispatcher

open Transition

inductive ReplyDispatchKind
  | tool
  | block
  | final
  deriving DecidableEq

structure Reply (α : Type u) where
  kind : ReplyDispatchKind
  payload : α
  shouldDelay : Bool

/-- How far the link of the chain is whose reply is being sent. -/
inductive Phase
  | delaying
  | delivering
  | failed
  | finishing (threw : Bool)
  deriving DecidableEq

/-- `rejected` where the last link that ended was rejected, by a callback that threw;
`checks` are the microtasks of `markComplete`. -/
structure State (α : Type u) where
  pending : Int := 1
  completeCalled : Bool := false
  sentFirstBlock : Bool := false
  queuedCounts : ReplyDispatchKind → Nat := fun _ => 0
  failedCounts : ReplyDispatchKind → Nat := fun _ => 0
  registered : Bool := true
  waiting : List (Reply α) := []
  sending : Option (Reply α × Phase) := none
  rejected : Bool := false
  checks : Nat := 0
  accepted : List (Reply α) := []
  delivered : List (Reply α) := []
  finished : List (Reply α) := []
  idles : Nat := 0

inductive Action (α : Type u)
  | send (kind : ReplyDispatchKind) (payload : α)
  | start (delays : Bool)
  | wake
  | settle (fails : Bool)
  | caught (throws : Bool)
  | settled (throws : Bool)
  | markComplete
  | check

def bump (counts : ReplyDispatchKind → Nat) (kind : ReplyDispatchKind) : ReplyDispatchKind → Nat :=
  fun other => if other = kind then counts other + 1 else counts other

variable {α : Type u} {β : Type v}

/-- `sendToolResult`, `sendBlockReply` and `sendFinalReply`. -/
def enqueue (normalizeReplyPayload : β → Option α) (s : State α) (kind : ReplyDispatchKind)
    (payload : β) : State α :=
  match normalizeReplyPayload payload with
  | none => s
  | some normalized =>
    let shouldDelay := kind = .block && s.sentFirstBlock
    let reply : Reply α := ⟨kind, normalized, shouldDelay⟩
    { s with
      queuedCounts := bump s.queuedCounts kind
      pending := s.pending + 1
      sentFirstBlock := if kind = .block then true else s.sentFirstBlock
      waiting := s.waiting ++ [reply]
      accepted := s.accepted ++ [reply] }

/-- The part of the `then` callback that calls `deliver`. -/
def deliver (s : State α) (reply : Reply α) : State α :=
  { s with sending := some (reply, .delivering), delivered := s.delivered ++ [reply] }

/-- The `then` callback; a rejected chain passes it by. -/
def start (s : State α) (delays : Bool) : Option (State α) :=
  match s.sending, s.waiting with
  | none, reply :: waiting =>
    let s := { s with waiting }
    if s.rejected then some { s with sending := some (reply, .failed) }
    else if reply.shouldDelay && delays then some { s with sending := some (reply, .delaying) }
    else some (deliver s reply)
  | _, _ => none

/-- Where nothing is pending any more: `unregister()` and `onIdle`. -/
def idle (s : State α) : State α :=
  if s.pending = 0 then { s with registered := false, idles := s.idles + 1 } else s

/-- The reservation is cleared where only it is left and no reply will come. -/
def clear (s : State α) : State α :=
  if s.pending = 1 ∧ s.completeCalled then { s with pending := s.pending - 1 } else s

/-- The `finally` callback; `throws` where `onIdle` throws, if it is called. -/
def settled (s : State α) (reply : Reply α) (threw throws : Bool) : State α :=
  let s' := idle (clear { s with pending := s.pending - 1 })
  { s' with
    sending := none
    rejected := threw || (s'.idles ≠ s.idles && throws)
    finished := s.finished ++ [reply] }

def markComplete (s : State α) : State α :=
  if s.completeCalled then s else { s with completeCalled := true, checks := s.checks + 1 }

/-- The microtask of `markComplete`. -/
def check (s : State α) : State α :=
  if s.pending = 1 ∧ s.completeCalled then idle { s with pending := s.pending - 1 } else s

def step (normalizeReplyPayload : β → Option α) (s : State α) : Action β → Option (State α)
  | .send kind payload => some (enqueue normalizeReplyPayload s kind payload)
  | .start delays => start s delays
  | .wake =>
    match s.sending with
    | some (reply, .delaying) => some (deliver s reply)
    | _ => none
  | .settle fails =>
    match s.sending with
    | some (reply, .delivering) =>
      some { s with sending := some (reply, if fails then .failed else .finishing false) }
    | _ => none
  | .caught throws =>
    match s.sending with
    | some (reply, .failed) =>
      some { s with
        failedCounts := bump s.failedCounts reply.kind
        sending := some (reply, .finishing throws) }
    | _ => none
  | .settled throws =>
    match s.sending with
    | some (reply, .finishing threw) => some (settled s reply threw throws)
    | _ => none
  | .markComplete => some (markComplete s)
  | .check => if s.checks = 0 then none else some (check { s with checks := s.checks - 1 })

def dispatcher (normalizeReplyPayload : β → Option α) : System (State α) (Action β) where
  init s := s = {}
  step := step normalizeReplyPayload

/-- No reply comes once the dispatcher has been idle. -/
def Timely (s : State α) : Action β → Prop
  | .send _ _ => s.idles = 0
  | _ => True

/-- No callback throws. -/
def Quiet (_ : State α) : Action β → Prop
  | .caught throws => throws = false
  | .settled throws => throws = false
  | _ => True

-- ---
-- Going idle
-- ---

/-- How many replies are on their way. -/
def State.unsent (s : State α) : Nat := s.waiting.length + s.sending.toList.length

/-- What holds of the count and of the signals that hang on it. -/
structure Accounted (s : State α) : Prop where
  pending : s.pending = s.unsent + if s.idles = 0 then 1 else 0
  once : s.idles ≤ 1
  complete : s.idles = 1 → s.completeCalled = true ∧ s.unsent = 0
  registered : s.registered = true ↔ s.idles = 0
  checks : 0 < s.checks → s.completeCalled = true
  live : s.completeCalled = true → s.idles = 1 ∨ 0 < s.checks ∨ 0 < s.unsent

variable {normalizeReplyPayload : β → Option α} {s s' : State α}

theorem Accounted.enqueue (h : Accounted s) (hidle : s.idles = 0) (kind : ReplyDispatchKind)
    (payload : β) : Accounted (enqueue normalizeReplyPayload s kind payload) := by
  unfold ReplyDispatcher.enqueue
  split
  case h_1 => exact h
  case h_2 normalized _ =>
    have hpending := h.pending
    refine ⟨?_, h.once, fun hone => ?_, h.registered, h.checks, fun hcomplete => .inr (.inr ?_)⟩
    · simp only [State.unsent, List.length_append, hidle] at hpending ⊢
      simp only [List.length_singleton]
      omega
    · exact absurd hone (by simp [hidle])
    · simp only [State.unsent, List.length_append, List.length_singleton]
      omega

/-- What changes neither the count nor what is on its way. -/
theorem Accounted.of_eq (h : Accounted s) (hpending : s'.pending = s.pending)
    (hunsent : s'.unsent = s.unsent) (hidles : s'.idles = s.idles)
    (hcomplete : s'.completeCalled = s.completeCalled) (hregistered : s'.registered = s.registered)
    (hchecks : s'.checks = s.checks) : Accounted s' := by
  refine ⟨?_, ?_, ?_, ?_, ?_, ?_⟩
  · rw [hpending, hunsent, hidles, h.pending]
  · rw [hidles]
    exact h.once
  · rw [hidles, hcomplete, hunsent]
    exact h.complete
  · rw [hregistered, hidles]
    exact h.registered
  · rw [hchecks, hcomplete]
    exact h.checks
  · rw [hcomplete, hidles, hchecks, hunsent]
    exact h.live

theorem unsent_of_sending (hsending : s.sending = some (reply, phase)) :
    s.unsent = s.waiting.length + 1 := by
  simp [State.unsent, hsending]

theorem Accounted.start (h : Accounted s) (hs : start s delays = some s') : Accounted s' := by
  unfold ReplyDispatcher.start at hs
  split at hs
  case h_1 reply waiting hsending hwaiting =>
    have hunsent : s.unsent = waiting.length + 1 := by simp [State.unsent, hsending, hwaiting]
    dsimp only at hs
    split_ifs at hs <;> cases hs <;>
      exact h.of_eq rfl (by simp [State.unsent, deliver, hsending, hwaiting]) rfl rfl rfl rfl
  case h_2 => cases hs

theorem Accounted.settled (h : Accounted s)
    (hsending : s.sending = some (reply, .finishing threw)) :
    Accounted (settled s reply threw throws) := by
  have hunsent := unsent_of_sending hsending
  have hidle : s.idles = 0 := by
    by_contra hne
    have hzero := (h.complete (by have := h.once; omega)).2
    omega
  have hpending := h.pending
  rw [hunsent, if_pos hidle] at hpending
  have hregistered := h.registered.2 hidle
  unfold ReplyDispatcher.settled clear
  dsimp only
  split
  case isTrue hlast =>
    have hnone : s.waiting.length = 0 := by omega
    rw [idle, if_pos (by dsimp only; omega)]
    exact ⟨by simp [State.unsent, hnone, hidle, hlast.1], by simp [hidle],
      fun _ => ⟨hlast.2, by simp [State.unsent, hnone]⟩, by simp [hidle], h.checks,
      fun _ => .inl (by simp [hidle])⟩
  case isFalse hmore =>
    rw [idle, if_neg (by dsimp only; omega)]
    refine ⟨?_, h.once, fun hone => absurd hone (by simp [hidle]), h.registered, h.checks,
      fun hcomplete => .inr (.inr ?_)⟩
    · simp only [State.unsent, hidle, if_true, Option.toList_none, List.length_nil]
      omega
    · have hlast : s.pending - 1 ≠ 1 := fun hlast => hmore ⟨hlast, hcomplete⟩
      simp only [State.unsent, Option.toList_none, List.length_nil]
      omega

theorem Accounted.markComplete (h : Accounted s) : Accounted (markComplete s) := by
  unfold ReplyDispatcher.markComplete
  split
  case isTrue => exact h
  case isFalse hopen =>
    exact ⟨h.pending, h.once, fun hone => absurd (h.complete hone).1 hopen, h.registered,
      fun _ => rfl, fun _ => .inr (.inl (Nat.succ_pos _))⟩

theorem Accounted.check (h : Accounted s) (hchecks : s.checks ≠ 0) :
    Accounted (check { s with checks := s.checks - 1 }) := by
  have hcomplete := h.checks (Nat.pos_of_ne_zero hchecks)
  have hpending := h.pending
  have honce := h.once
  unfold ReplyDispatcher.check
  dsimp only
  split
  case isTrue hlast =>
    have hidle : s.idles = 0 := by
      by_contra hne
      have hzero := (h.complete (by omega)).2
      rw [if_neg hne] at hpending
      omega
    rw [if_pos hidle] at hpending
    have hzero : s.unsent = 0 := by omega
    rw [idle, if_pos (by dsimp only; omega)]
    exact ⟨by change s.pending - 1 = s.unsent + _; simp [hzero, hidle, hlast.1], by simp [hidle],
      fun _ => ⟨hcomplete, hzero⟩, by simp [hidle], fun _ => hcomplete,
      fun _ => .inl (by simp [hidle])⟩
  case isFalse hmore =>
    refine ⟨hpending, honce, h.complete, h.registered, fun _ => hcomplete, fun _ => ?_⟩
    by_cases hidle : s.idles = 0
    · have hlast : s.pending ≠ 1 := fun hlast => hmore ⟨hlast, hcomplete⟩
      rw [if_pos hidle] at hpending
      exact .inr (.inr (by change 0 < s.unsent; omega))
    · exact .inl (by change s.idles = 1; omega)

theorem Accounted.step {action : Action β} (h : Accounted s) (htimely : Timely s action)
    (hs : step normalizeReplyPayload s action = some s') : Accounted s' := by
  cases action with
  | send kind payload =>
    cases hs
    exact h.enqueue htimely kind payload
  | start delays => exact h.start hs
  | wake =>
    simp only [ReplyDispatcher.step] at hs
    split at hs <;> cases hs
    exact h.of_eq rfl (by simp [State.unsent, deliver, *]) rfl rfl rfl rfl
  | settle fails =>
    simp only [ReplyDispatcher.step] at hs
    split at hs <;> cases hs
    exact h.of_eq rfl (by simp [State.unsent, *]) rfl rfl rfl rfl
  | caught throws =>
    simp only [ReplyDispatcher.step] at hs
    split at hs <;> cases hs
    exact h.of_eq rfl (by simp [State.unsent, *]) rfl rfl rfl rfl
  | settled throws =>
    simp only [ReplyDispatcher.step] at hs
    split at hs
    case h_1 hsending =>
      cases hs
      exact h.settled hsending
    case h_2 => cases hs
  | markComplete =>
    cases hs
    exact h.markComplete
  | check =>
    simp only [ReplyDispatcher.step] at hs
    split at hs <;> cases hs
    exact h.check ‹_›

/-- While no reply comes late, the dispatcher is idle once and only when no reply is on its
way or will come; until then the count is above the number of replies on their way, and where
nothing is left to do after `markComplete` it has been idle. -/
theorem dispatcher_idles (h : (dispatcher normalizeReplyPayload).ReachableBy Timely s) :
    s.idles ≤ 1 ∧ (s.registered = true ↔ s.idles = 0) ∧
      (s.idles = 1 → s.completeCalled = true ∧ s.unsent = 0 ∧ s.pending = 0) ∧
      (s.idles = 0 → s.pending = s.unsent + 1) ∧
      (s.completeCalled = true → s.checks = 0 → s.unsent = 0 → s.idles = 1) := by
  have haccounted : Accounted s := by
    refine h.invariant ?_ fun s a s' hi hok hs => hi.step hok hs
    rintro _ rfl
    exact ⟨rfl, Nat.zero_le 1, nofun, ⟨fun _ => rfl, fun _ => rfl⟩, nofun, nofun⟩
  refine ⟨haccounted.once, haccounted.registered, fun hone => ?_, fun hzero => ?_, fun hdone => ?_⟩
  · obtain ⟨hcomplete, hunsent⟩ := haccounted.complete hone
    exact ⟨hcomplete, hunsent, by simp [haccounted.pending, hunsent, hone]⟩
  · rw [haccounted.pending, if_pos hzero]
  · intro hchecks hunsent
    rcases haccounted.live hdone with hone | hpos | hpos
    · exact hone
    · omega
    · omega

/-- A reply is sent and the run completes before its link ends. -/
theorem dispatcher_idles_sent : ∃ s : State Nat,
    s.idles = 1 ∧ s.completeCalled = true ∧ s.unsent = 0 ∧ s.pending = 0 := by
  have hrun : ∃ s, (dispatcher (some : Nat → Option Nat)).ReachableBy Timely s ∧ s.idles = 1 :=
    ⟨_, .step (a := .settled false) (.step (a := .markComplete) (.step (a := .settle false)
      (.step (a := .start false) (.step (a := .send .final 0) (.init rfl)
        (by exact rfl) rfl) (by exact trivial) rfl) (by exact trivial) rfl) (by exact trivial) rfl)
      (by exact trivial) rfl, rfl⟩
  obtain ⟨s, hs, hone⟩ := hrun
  exact ⟨s, hone, (dispatcher_idles hs).2.2.1 hone⟩

-- ---
-- Order
-- ---

/-- The accepted replies that were not handed to `deliver` yet. -/
def State.undelivered (s : State α) : List (Reply α) :=
  match s.sending with
  | some (reply, .delaying) => reply :: s.waiting
  | _ => s.waiting

/-- The reply that `deliver` has, or that was sent and whose link has not ended. -/
def State.begun (s : State α) : List (Reply α) :=
  match s.sending with
  | none | some (_, .delaying) => []
  | some (reply, _) => [reply]

structure InOrder (s : State α) : Prop where
  accepted : s.accepted = s.delivered ++ s.undelivered
  delivered : s.delivered = s.finished ++ s.begun
  resolved : s.rejected = false
  unthrown : ∀ reply, s.sending ≠ some (reply, .finishing true)
  counts : ∀ kind, s.queuedCounts kind = s.accepted.countP fun reply => reply.kind = kind

theorem InOrder.deliver (h : InOrder s) (hundelivered : s.undelivered = reply :: waiting)
    (hbegun : s.begun = []) : InOrder (deliver { s with waiting } reply) where
  accepted := by
    rw [ReplyDispatcher.deliver, h.accepted, hundelivered]
    exact (List.append_cons ..)
  delivered := by
    rw [ReplyDispatcher.deliver, h.delivered, hbegun, List.append_nil]
    rfl
  resolved := h.resolved
  unthrown := nofun
  counts := h.counts

theorem InOrder.enqueue (h : InOrder s) (kind : ReplyDispatchKind) (payload : β) :
    InOrder (enqueue normalizeReplyPayload s kind payload) := by
  unfold ReplyDispatcher.enqueue
  split
  case h_1 => exact h
  case h_2 normalized _ =>
    refine ⟨?_, h.delivered, h.resolved, h.unthrown, fun other => ?_⟩
    · simp only [h.accepted, State.undelivered]
      split <;> simp
    · simp only [bump, h.counts, List.countP_append, List.countP_singleton]
      by_cases hkind : other = kind
      · simp [hkind]
      · simp [hkind, Ne.symm hkind]

theorem InOrder.start (h : InOrder s) (hs : start s delays = some s') : InOrder s' := by
  unfold ReplyDispatcher.start at hs
  split at hs
  case h_1 reply waiting hsending hwaiting =>
    dsimp only at hs
    rw [if_neg (by simp [h.resolved])] at hs
    split_ifs at hs <;> cases hs
    · refine ⟨?_, ?_, h.resolved, nofun, h.counts⟩
      · simp [State.undelivered, h.accepted, hsending, hwaiting]
      · simp [State.begun, h.delivered, hsending]
    · exact h.deliver (by simp [State.undelivered, hsending, hwaiting])
        (by simp [State.begun, hsending])
  case h_2 => cases hs

theorem InOrder.settled (h : InOrder s) (hsending : s.sending = some (reply, .finishing threw)) :
    InOrder (settled s reply threw false) := by
  have hthrew : threw = false := by
    cases threw with
    | false => rfl
    | true => exact absurd hsending (h.unthrown reply)
  have haccepted := h.accepted
  have hdelivered := h.delivered
  simp only [State.undelivered, State.begun, hsending] at haccepted hdelivered
  subst hthrew
  unfold ReplyDispatcher.settled clear idle
  split_ifs <;>
    exact ⟨haccepted, hdelivered.trans (List.append_nil _).symm, by simp, nofun, h.counts⟩

theorem InOrder.step {action : Action β} (h : InOrder s) (hquiet : Quiet s action)
    (hs : step normalizeReplyPayload s action = some s') : InOrder s' := by
  cases action with
  | send kind payload =>
    cases hs
    exact h.enqueue kind payload
  | start delays => exact h.start hs
  | wake =>
    simp only [ReplyDispatcher.step] at hs
    split at hs <;> cases hs
    exact h.deliver (by simp [State.undelivered, *]) (by simp [State.begun, *])
  | settle fails =>
    simp only [ReplyDispatcher.step] at hs
    split at hs <;> cases hs
    cases fails <;>
      exact ⟨by simp_all [h.accepted, State.undelivered], by simp_all [h.delivered, State.begun],
        h.resolved, nofun, h.counts⟩
  | caught throws =>
    simp only [ReplyDispatcher.step] at hs
    split at hs <;> cases hs
    obtain rfl : throws = false := hquiet
    exact ⟨by simp_all [h.accepted, State.undelivered], by simp_all [h.delivered, State.begun],
      h.resolved, nofun, h.counts⟩
  | settled throws =>
    simp only [ReplyDispatcher.step] at hs
    split at hs
    case h_1 hsending =>
      cases hs
      obtain rfl : throws = false := hquiet
      exact h.settled hsending
    case h_2 => cases hs
  | markComplete =>
    cases hs
    unfold markComplete
    split
    · exact h
    · exact ⟨h.accepted, h.delivered, h.resolved, h.unthrown, h.counts⟩
  | check =>
    simp only [ReplyDispatcher.step] at hs
    split at hs <;> cases hs
    unfold check idle
    split_ifs <;> exact ⟨h.accepted, h.delivered, h.resolved, h.unthrown, h.counts⟩

/-- Where no callback throws, the replies are handed to `deliver` in the order in which they
were accepted, none left out and none twice, each after the one before was sent. -/
theorem dispatcher_delivers_in_order (h : (dispatcher normalizeReplyPayload).ReachableBy Quiet s) :
    s.accepted = s.delivered ++ s.undelivered ∧
      (s.delivered = s.finished ∨ ∃ reply, s.delivered = s.finished ++ [reply]) ∧
      ∀ kind, s.queuedCounts kind = s.accepted.countP fun reply => reply.kind = kind := by
  have horder : InOrder s := by
    refine h.invariant ?_ fun s a s' hi hok hs => hi.step hok hs
    rintro _ rfl
    exact ⟨rfl, rfl, rfl, nofun, fun _ => rfl⟩
  refine ⟨horder.accepted, ?_, horder.counts⟩
  rw [horder.delivered]
  unfold State.begun
  split
  · exact .inl (List.append_nil _)
  · exact .inl (List.append_nil _)
  · exact .inr ⟨_, rfl⟩

/-- The second reply waits while the first is on its way. -/
theorem dispatcher_delivers_two_in_order : ∃ s : State Nat,
    s.accepted.length = 2 ∧ s.delivered.length = 1 ∧ s.accepted = s.delivered ++ s.undelivered := by
  have hrun : ∃ s, (dispatcher (some : Nat → Option Nat)).ReachableBy Quiet s ∧
      s.accepted.length = 2 ∧ s.delivered.length = 1 :=
    ⟨_, .step (a := .start false) (.step (a := .send .final 1) (.step (a := .send .block 0)
      (.init rfl) (by exact trivial) rfl) (by exact trivial) rfl) (by exact trivial) rfl, rfl, rfl⟩
  obtain ⟨s, hs, htwo, hone⟩ := hrun
  exact ⟨s, htwo, hone, (dispatcher_delivers_in_order hs).1⟩

end OpenClaw.ReplyDispatcher
