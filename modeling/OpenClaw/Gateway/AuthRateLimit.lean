import Mathlib.Data.Rat.Floor
import Mathlib.Logic.Function.Basic
import Mathlib.Tactic.Linarith
import OpenClaw.Js.Text

/-!
# The rate limiter for authentication

Failed attempts are kept for each scope and client, as far as they lie in a sliding window,
and too many of them lock the client out for a time.
-/

namespace OpenClaw.Gateway.AuthRateLimit

open Js (Text trimChars)

-- ---
-- Configuration
-- ---

/-- `none` is a member that is missing. -/
structure RateLimitConfig where
  maxAttempts : Option Rat := none
  windowMs : Option Rat := none
  lockoutMs : Option Rat := none
  exemptLoopback : Option Bool := none

def AUTH_RATE_LIMIT_SCOPE_DEFAULT : Text := "default".toList

def DEFAULT_MAX_ATTEMPTS : Rat := 10
def DEFAULT_WINDOW_MS : Rat := 60000
def DEFAULT_LOCKOUT_MS : Rat := 300000

/-- A limiter: the config with its defaults, and the functions on addresses it calls. -/
structure Limiter where
  maxAttempts : Rat
  windowMs : Rat
  lockoutMs : Rat
  exemptLoopback : Bool
  /-- `normalizeIpAddress`, `none` for what is no address. -/
  normalizeIpAddress : Option Text → Option Text
  isLoopbackAddress : Text → Bool

def RateLimitConfig.limiter (config : RateLimitConfig)
    (normalizeIpAddress : Option Text → Option Text) (isLoopbackAddress : Text → Bool) :
    Limiter where
  maxAttempts := config.maxAttempts.getD DEFAULT_MAX_ATTEMPTS
  windowMs := config.windowMs.getD DEFAULT_WINDOW_MS
  lockoutMs := config.lockoutMs.getD DEFAULT_LOCKOUT_MS
  exemptLoopback := config.exemptLoopback.getD true
  normalizeIpAddress := normalizeIpAddress
  isLoopbackAddress := isLoopbackAddress

-- ---
-- Clients
-- ---

/-- The address and the scope that a call is given. -/
structure Caller where
  rawIp : Option Text
  rawScope : Option Text

/-- A scope and a client, in their one representation. -/
structure Client where
  scope : Text
  ip : Text
  deriving DecidableEq

def normalizeScope (scope : Option Text) : Text :=
  let trimmed := trimChars (scope.getD AUTH_RATE_LIMIT_SCOPE_DEFAULT)
  if trimmed = [] then AUTH_RATE_LIMIT_SCOPE_DEFAULT else trimmed

section
variable (limiter : Limiter)

/-- `resolveClientIp`, where no proxy is trusted, or `unknown`. -/
def Limiter.normalizeRateLimitClientIp (ip : Option Text) : Text :=
  (limiter.normalizeIpAddress ip).getD "unknown".toList

def Limiter.client (caller : Caller) : Client where
  scope := normalizeScope caller.rawScope
  ip := limiter.normalizeRateLimitClientIp caller.rawIp

def Client.key (client : Client) : Text := client.scope ++ ':' :: client.ip

def Limiter.isExempt (client : Client) : Bool :=
  limiter.exemptLoopback && limiter.isLoopbackAddress client.ip

end

-- ---
-- Entries
-- ---

/-- `lockedUntil` is `none` for `undefined`. -/
structure RateLimitEntry where
  attempts : List Rat
  lockedUntil : Option Rat

abbrev Entries := Text → Option RateLimitEntry

structure RateLimitCheckResult where
  allowed : Bool
  remaining : Rat
  retryAfterMs : Rat
  deriving DecidableEq

/-- `entry.lockedUntil && now < entry.lockedUntil`, with the time. -/
def RateLimitEntry.lockAt (entry : RateLimitEntry) (now : Rat) : Option Rat :=
  entry.lockedUntil.filter fun lockedUntil => lockedUntil ≠ 0 && now < lockedUntil

/-- `entry.lockedUntil && now >= entry.lockedUntil` -/
def RateLimitEntry.isExpired (entry : RateLimitEntry) (now : Rat) : Bool :=
  entry.lockedUntil.any fun lockedUntil => lockedUntil ≠ 0 && lockedUntil ≤ now

section
variable (limiter : Limiter)

/-- The attempts that lie in the window. -/
def Limiter.recent (attempts : List Rat) (now : Rat) : List Rat :=
  attempts.filter (now - limiter.windowMs < ·)

def Limiter.slideWindow (entry : RateLimitEntry) (now : Rat) : RateLimitEntry :=
  { entry with attempts := limiter.recent entry.attempts now }

def Limiter.unlimited : RateLimitCheckResult := ⟨true, limiter.maxAttempts, 0⟩

def Limiter.remaining (attempts : List Rat) : Rat := max 0 (limiter.maxAttempts - attempts.length)

/-- The answer for an entry, and the entry after it. -/
def Limiter.checkEntry (entry : RateLimitEntry) (now : Rat) :
    RateLimitCheckResult × RateLimitEntry :=
  match entry.lockAt now with
  | some lockedUntil => (⟨false, 0, lockedUntil - now⟩, entry)
  | none =>
    let entry := if entry.isExpired now then ⟨[], none⟩ else entry
    let entry := limiter.slideWindow entry now
    let remaining := limiter.remaining entry.attempts
    (⟨0 < remaining, remaining, 0⟩, entry)

def Limiter.recordEntry (entry : RateLimitEntry) (now : Rat) : RateLimitEntry :=
  if (entry.lockAt now).isSome then entry
  else
    let entry := limiter.slideWindow entry now
    let entry := { entry with attempts := entry.attempts ++ [now] }
    if limiter.maxAttempts ≤ entry.attempts.length then
      { entry with lockedUntil := some (now + limiter.lockoutMs) }
    else entry

/-- `none` when the entry is deleted. -/
def Limiter.pruneEntry (entry : RateLimitEntry) (now : Rat) : Option RateLimitEntry :=
  if (entry.lockAt now).isSome then some entry
  else
    let entry := limiter.slideWindow entry now
    if entry.attempts = [] then none else some entry

-- ---
-- Calls
-- ---

def Limiter.check (entries : Entries) (caller : Caller) (now : Rat) :
    RateLimitCheckResult × Entries :=
  let client := limiter.client caller
  if limiter.isExempt client then (limiter.unlimited, entries)
  else
    match entries client.key with
    | none => (limiter.unlimited, entries)
    | some entry =>
      let checked := limiter.checkEntry entry now
      (checked.1, Function.update entries client.key (some checked.2))

def Limiter.recordFailure (entries : Entries) (caller : Caller) (now : Rat) : Entries :=
  let client := limiter.client caller
  if limiter.isExempt client then entries
  else
    Function.update entries client.key
      (some (limiter.recordEntry ((entries client.key).getD ⟨[], none⟩) now))

def Limiter.reset (entries : Entries) (caller : Caller) : Entries :=
  Function.update entries (limiter.client caller).key none

def Limiter.prune (entries : Entries) (now : Rat) : Entries :=
  fun key => (entries key).bind (limiter.pruneEntry · now)

inductive Op
  | check (caller : Caller)
  | recordFailure (caller : Caller)
  | reset (caller : Caller)
  | prune

/-- A call, at a time. -/
structure Event where
  now : Rat
  op : Op

def Limiter.step (entries : Entries) (event : Event) : Entries :=
  match event.op with
  | .check caller => (limiter.check entries caller event.now).2
  | .recordFailure caller => limiter.recordFailure entries caller event.now
  | .reset caller => limiter.reset entries caller
  | .prune => limiter.prune entries event.now

/-- The answer of a call, if it is a check. -/
def Limiter.answer (entries : Entries) (event : Event) : Option RateLimitCheckResult :=
  match event.op with
  | .check caller => some (limiter.check entries caller event.now).1
  | _ => none

/-- The entries after some calls. -/
def Limiter.after (events : List Event) (entries : Entries) : Entries :=
  events.foldl limiter.step entries

/-- The answers of the checks among some calls. -/
def Limiter.answers : List Event → Entries → List RateLimitCheckResult
  | [], _ => []
  | event :: events, entries =>
    (limiter.answer entries event).toList ++ answers events (limiter.step entries event)

end

-- ---
-- The window
-- ---

section
variable {limiter : Limiter}

theorem recent_recent (attempts : List Rat) (h : now ≤ later) :
    limiter.recent (limiter.recent attempts now) later = limiter.recent attempts later := by
  unfold Limiter.recent
  rw [List.filter_filter]
  refine List.filter_congr fun attempt _ => ?_
  rw [Bool.and_eq_left_iff_imp]
  intro hlater
  have hlt := of_decide_eq_true hlater
  exact decide_eq_true (by linarith)

theorem recent_snoc (attempts : List Rat) (hwindow : 0 < limiter.windowMs) :
    limiter.recent (limiter.recent attempts now ++ [now]) now =
      limiter.recent attempts now ++ [now] := by
  have hkeep : limiter.recent [now] now = [now] := by
    simp [Limiter.recent, hwindow]
  rw [Limiter.recent, List.filter_append]
  exact congrArg₂ _ (recent_recent attempts le_rfl) hkeep

theorem lockAt_eq_some {entry : RateLimitEntry} (hpos : ∀ u ∈ entry.lockedUntil, 0 < u) :
    entry.lockAt now = some u ↔ entry.lockedUntil = some u ∧ now < u := by
  rw [RateLimitEntry.lockAt, Option.filter_eq_some_iff, Bool.and_eq_true, decide_eq_true_eq,
    decide_eq_true_eq]
  constructor
  · rintro ⟨hlock, -, hlt⟩
    exact ⟨hlock, hlt⟩
  · rintro ⟨hlock, hlt⟩
    exact ⟨hlock, ne_of_gt (hpos u hlock), hlt⟩

theorem lockAt_none {entry : RateLimitEntry} (h : entry.lockedUntil = none) :
    entry.lockAt now = none := by
  rw [RateLimitEntry.lockAt, h, Option.filter_none]

theorem isExpired_none {entry : RateLimitEntry} (h : entry.lockedUntil = none) :
    entry.isExpired now = false := by
  rw [RateLimitEntry.isExpired, h]
  rfl

/-- A lock holds up to its end, and has expired from then on. -/
theorem lockAt_or_isExpired {entry : RateLimitEntry} (hlock : entry.lockedUntil = some u)
    (hpos : 0 < u) :
    (now < u ∧ entry.lockAt now = some u) ∨
      (u ≤ now ∧ entry.lockAt now = none ∧ entry.isExpired now = true) := by
  rcases lt_or_ge now u with hlt | hle
  · exact .inl ⟨hlt, by simp [RateLimitEntry.lockAt, hlock, hlt, ne_of_gt hpos]⟩
  · exact .inr ⟨hle, by simp [RateLimitEntry.lockAt, hlock, hle],
      by simp [RateLimitEntry.isExpired, hlock, hle, ne_of_gt hpos]⟩

-- ---
-- One entry
-- ---

/-- What a check does where there may be no entry. -/
def Limiter.checkKey (limiter : Limiter) (entry : Option RateLimitEntry) (now : Rat) :
    RateLimitCheckResult × Option RateLimitEntry :=
  match entry with
  | none => (limiter.unlimited, none)
  | some entry => ((limiter.checkEntry entry now).1, some (limiter.checkEntry entry now).2)

def Limiter.recordKey (limiter : Limiter) (entry : Option RateLimitEntry) (now : Rat) :
    RateLimitEntry :=
  limiter.recordEntry (entry.getD ⟨[], none⟩) now

theorem check_eq (entries : Entries) (caller : Caller) :
    limiter.check entries caller now =
      if limiter.isExempt (limiter.client caller) then (limiter.unlimited, entries)
      else ((limiter.checkKey (entries (limiter.client caller).key) now).1,
        Function.update entries (limiter.client caller).key
          (limiter.checkKey (entries (limiter.client caller).key) now).2) := by
  unfold Limiter.check
  dsimp only
  split
  · rfl
  · split
    · rename_i hnone
      rw [hnone, Limiter.checkKey, ← hnone, Function.update_eq_self]
    · rename_i entry hsome
      rw [hsome, Limiter.checkKey]

theorem recordEntry_locked {entry : RateLimitEntry} (h : entry.lockAt now = some u) :
    limiter.recordEntry entry now = entry := by
  rw [Limiter.recordEntry, if_pos (h ▸ rfl)]

/-- A failure that is recorded: the attempts with it, and the lock if they are too many. -/
theorem recordEntry_open {entry : RateLimitEntry} (h : entry.lockAt now = none) :
    limiter.recordEntry entry now =
      ⟨limiter.recent entry.attempts now ++ [now],
        if limiter.maxAttempts ≤ ((limiter.recent entry.attempts now).length + 1 : Nat) then
          some (now + limiter.lockoutMs)
        else entry.lockedUntil⟩ := by
  have hlocked : (entry.lockAt now).isSome ≠ true := by simp [h]
  rw [Limiter.recordEntry, if_neg hlocked]
  simp only [Limiter.slideWindow, List.length_append, List.length_singleton]
  split <;> rfl

theorem checkEntry_locked {entry : RateLimitEntry} (h : entry.lockAt now = some u) :
    limiter.checkEntry entry now = (⟨false, 0, u - now⟩, entry) := by
  rw [Limiter.checkEntry, h]

theorem checkEntry_open {entry : RateLimitEntry} (h : entry.lockAt now = none)
    (hexpired : entry.isExpired now = false) :
    limiter.checkEntry entry now =
      (⟨0 < limiter.remaining (limiter.recent entry.attempts now),
        limiter.remaining (limiter.recent entry.attempts now), 0⟩,
        limiter.slideWindow entry now) := by
  rw [Limiter.checkEntry, h]
  simp only [hexpired, Bool.false_eq_true, if_false]
  rfl

theorem checkEntry_expired {entry : RateLimitEntry} (h : entry.lockAt now = none)
    (hexpired : entry.isExpired now = true) :
    limiter.checkEntry entry now =
      (⟨0 < limiter.remaining [], limiter.remaining [], 0⟩, ⟨[], none⟩) := by
  rw [Limiter.checkEntry, h]
  simp only [hexpired, if_true]
  rfl

theorem remaining_nil (hmax : 0 < limiter.maxAttempts) :
    limiter.remaining [] = limiter.maxAttempts := by
  rw [Limiter.remaining, List.length_nil]
  simp [le_of_lt hmax]

theorem pruneEntry_locked {entry : RateLimitEntry} (h : entry.lockAt now = some u) :
    limiter.pruneEntry entry now = some entry := by
  rw [Limiter.pruneEntry, if_pos (h ▸ rfl)]

theorem pruneEntry_open {entry : RateLimitEntry} (h : entry.lockAt now = none) :
    limiter.pruneEntry entry now =
      if limiter.recent entry.attempts now = [] then none
      else some (limiter.slideWindow entry now) := by
  have hlocked : (entry.lockAt now).isSome ≠ true := by simp [h]
  rw [Limiter.pruneEntry, if_neg hlocked]
  rfl

-- ---
-- Entries with and without pruning
-- ---

/-- An entry of a limiter that is pruned, and the one of a limiter that is not. -/
inductive Agrees (limiter : Limiter) (now : Rat) :
    Option RateLimitEntry → Option RateLimitEntry → Prop
  | missing : Agrees limiter now none none
  | dead (hlock : ∀ u ∈ entry.lockedUntil, 0 < u ∧ u ≤ now)
      (hrecent : limiter.recent entry.attempts now = []) : Agrees limiter now none (some entry)
  | same (hlock : entry.lockedUntil = other.lockedUntil) (hpos : ∀ u ∈ other.lockedUntil, 0 < u)
      (hrecent : limiter.recent entry.attempts now = limiter.recent other.attempts now) :
      Agrees limiter now (some entry) (some other)

theorem Agrees.mono (h : Agrees limiter now pruned kept) (hle : now ≤ later) :
    Agrees limiter later pruned kept := by
  cases h with
  | missing => exact .missing
  | dead hlock hrecent =>
    refine .dead (fun u hu => ⟨(hlock u hu).1, (hlock u hu).2.trans hle⟩) ?_
    rw [← recent_recent _ hle, hrecent]
    rfl
  | same hlock hpos hrecent =>
    refine .same hlock hpos ?_
    rw [← recent_recent _ hle, hrecent, recent_recent _ hle]

theorem Agrees.prune (h : Agrees limiter now pruned kept) :
    Agrees limiter now (pruned.bind (limiter.pruneEntry · now)) kept := by
  cases h with
  | missing => exact .missing
  | dead hlock hrecent => exact .dead hlock hrecent
  | @same entry other hlock hpos hrecent =>
    have hposEntry : ∀ u ∈ entry.lockedUntil, 0 < u := hlock ▸ hpos
    rw [Option.bind_some]
    cases hat : entry.lockAt now with
    | some u =>
      rw [pruneEntry_locked hat]
      exact .same hlock hpos hrecent
    | none =>
      rw [pruneEntry_open hat]
      split
      · rename_i hempty
        refine .dead (fun u hu => ⟨hpos u hu, ?_⟩) (hrecent ▸ hempty)
        rcases lockAt_or_isExpired (hlock.trans hu) (hpos u hu) with ⟨-, hsome⟩ | ⟨hle, -⟩
        · rw [hat] at hsome
          cases hsome
        · exact hle
      · exact .same hlock hpos ((recent_recent _ le_rfl).trans hrecent)

theorem Agrees.check (hmax : 0 < limiter.maxAttempts) (h : Agrees limiter now pruned kept) :
    (limiter.checkKey pruned now).1 = (limiter.checkKey kept now).1 ∧
      Agrees limiter now (limiter.checkKey pruned now).2 (limiter.checkKey kept now).2 := by
  cases h with
  | missing => exact ⟨rfl, .missing⟩
  | @dead entry hlock hrecent =>
    simp only [Limiter.checkKey]
    cases hu : entry.lockedUntil with
    | none =>
      rw [checkEntry_open (lockAt_none hu) (isExpired_none hu), hrecent, remaining_nil hmax]
      refine ⟨by simp [Limiter.unlimited, hmax], .dead ?_ ((recent_recent _ le_rfl).trans hrecent)⟩
      intro u hmem
      exact hlock u hmem
    | some u =>
      obtain ⟨hpos, hle⟩ := hlock u hu
      rcases lockAt_or_isExpired hu hpos with ⟨hlt, -⟩ | ⟨-, hat, hexpired⟩
      · exact absurd hle (not_le.mpr hlt)
      · rw [checkEntry_expired hat hexpired, remaining_nil hmax]
        exact ⟨by simp [Limiter.unlimited, hmax], .dead (by simp) rfl⟩
  | @same entry other hlock hpos hrecent =>
    simp only [Limiter.checkKey]
    cases hu : other.lockedUntil with
    | none =>
      have hentry := hlock.trans hu
      rw [checkEntry_open (lockAt_none hu) (isExpired_none hu),
        checkEntry_open (lockAt_none hentry) (isExpired_none hentry), hrecent]
      refine ⟨rfl, .same hlock hpos ?_⟩
      exact (recent_recent _ le_rfl).trans (hrecent.trans (recent_recent _ le_rfl).symm)
    | some u =>
      have hentry := hlock.trans hu
      rcases lockAt_or_isExpired hu (hpos u hu) with ⟨hlt, hat⟩ | ⟨hle, hat, hexpired⟩
      · have hatEntry := (lockAt_eq_some (hlock ▸ hpos)).mpr ⟨hentry, hlt⟩
        rw [checkEntry_locked hat, checkEntry_locked hatEntry]
        exact ⟨rfl, .same hlock hpos hrecent⟩
      · rcases lockAt_or_isExpired hentry (hpos u hu) with ⟨hlt, -⟩ | ⟨-, hatEntry, hexpiredEntry⟩
        · exact absurd hle (not_le.mpr hlt)
        · rw [checkEntry_expired hat hexpired, checkEntry_expired hatEntry hexpiredEntry]
          exact ⟨rfl, .same rfl (by simp) rfl⟩

theorem Agrees.record (hlockout : 0 < limiter.lockoutMs) (hnow : 0 ≤ now)
    (h : Agrees limiter now pruned kept) (hexpired : ∀ entry ∈ kept, entry.isExpired now = false) :
    Agrees limiter now (some (limiter.recordKey pruned now))
      (some (limiter.recordKey kept now)) := by
  have hend : 0 < now + limiter.lockoutMs := by linarith
  -- two entries that are open and have the same recent attempts
  have hopen (entry other : RateLimitEntry) (hentry : entry.lockedUntil = none)
      (hother : other.lockedUntil = none)
      (hrecent : limiter.recent entry.attempts now = limiter.recent other.attempts now) :
      Agrees limiter now (some (limiter.recordEntry entry now))
        (some (limiter.recordEntry other now)) := by
    rw [recordEntry_open (lockAt_none hentry), recordEntry_open (lockAt_none hother), hrecent,
      hentry, hother]
    refine .same rfl (fun u hu => ?_) rfl
    simp only at hu
    split at hu
    · cases hu
      exact hend
    · cases hu
  cases h with
  | missing => exact hopen _ _ rfl rfl rfl
  | @dead entry hlock hrecent =>
    refine hopen _ _ rfl ?_ hrecent.symm
    cases hu : entry.lockedUntil with
    | none => exact hu
    | some u =>
      obtain ⟨hpos, hle⟩ := hlock u hu
      rcases lockAt_or_isExpired hu hpos with ⟨hlt, -⟩ | ⟨-, -, htrue⟩
      · exact absurd hle (not_le.mpr hlt)
      · exact absurd htrue (by simp [hexpired entry rfl])
  | @same entry other hlock hpos hrecent =>
    cases hu : other.lockedUntil with
    | none => exact hopen _ _ (hlock.trans hu) hu hrecent
    | some u =>
      rcases lockAt_or_isExpired hu (hpos u hu) with ⟨hlt, hat⟩ | ⟨-, -, htrue⟩
      · have hatEntry := (lockAt_eq_some (hlock ▸ hpos)).mpr ⟨hlock.trans hu, hlt⟩
        simp only [Limiter.recordKey, Option.getD_some]
        rw [recordEntry_locked hat, recordEntry_locked hatEntry]
        exact .same hlock hpos hrecent
      · exact absurd htrue (by simp [hexpired other rfl])

/-- An entry that is not expired where nothing is pruned is not where it is. -/
theorem Agrees.isExpired (h : Agrees limiter now pruned kept)
    (hexpired : ∀ entry ∈ kept, entry.isExpired now = false) :
    ∀ entry ∈ pruned, entry.isExpired now = false := by
  cases h with
  | missing => exact hexpired
  | dead hlock hrecent => simp
  | @same entry other hlock hpos hrecent =>
    rintro _ ⟨⟩
    rw [RateLimitEntry.isExpired, hlock]
    exact hexpired other rfl

end

-- ---
-- Runs
-- ---

/-- The caller of a call, of a `prune` none. -/
def Op.caller? : Op → Option Caller
  | .check caller | .recordFailure caller | .reset caller => some caller
  | .prune => none

def Limiter.client? (limiter : Limiter) (event : Event) : Option Client :=
  event.op.caller?.map limiter.client

def Event.IsPrune (event : Event) : Prop := event.op = .prune

instance Event.decidableIsPrune (event : Event) : Decidable event.IsPrune :=
  match h : event.op with
  | .prune => .isTrue h
  | .check _ | .recordFailure _ | .reset _ => .isFalse (by simp [Event.IsPrune, h])

/-- The calls less those of `prune`. -/
def withoutPrunes (events : List Event) : List Event := events.filter (¬ ·.IsPrune)

/-- The calls come one after the other. -/
structure InOrder (events : List Event) : Prop where
  sorted : events.Pairwise (·.now ≤ ·.now)
  nonneg : ∀ event ∈ events, 0 ≤ event.now

theorem InOrder.tail (h : InOrder (event :: events)) : InOrder events :=
  ⟨(List.pairwise_cons.mp h.sorted).2, fun e he => h.nonneg e (List.mem_cons_of_mem _ he)⟩

section
variable (limiter : Limiter)

/-- No failure is recorded on an entry whose lock has ended. -/
def Limiter.NoFailureOnExpired : List Event → Entries → Prop
  | [], _ => True
  | event :: events, entries =>
    (∀ caller, event.op = .recordFailure caller →
      ∀ entry ∈ entries (limiter.client caller).key, entry.isExpired event.now = false) ∧
    NoFailureOnExpired events (limiter.step entries event)

/-- No two of the clients that are called have the same key. -/
def Limiter.NoKeyClash (events : List Event) : Prop :=
  ∀ event ∈ events, ∀ other ∈ events, ∀ client ∈ limiter.client? event,
    ∀ client' ∈ limiter.client? other, client.key = client'.key → client = client'

def Limiter.IsCalled (events : List Event) (client : Client) : Prop :=
  ∃ event ∈ events, limiter.client? event = some client

variable {limiter}

theorem step_check {event : Event} {caller : Caller} (h : event.op = .check caller)
    (entries : Entries) :
    limiter.step entries event = (limiter.check entries caller event.now).2 := by
  rw [Limiter.step, h]

theorem step_recordFailure {event : Event} {caller : Caller} (h : event.op = .recordFailure caller)
    (entries : Entries) :
    limiter.step entries event = limiter.recordFailure entries caller event.now := by
  rw [Limiter.step, h]

theorem step_reset {event : Event} {caller : Caller} (h : event.op = .reset caller)
    (entries : Entries) :
    limiter.step entries event = limiter.reset entries caller := by
  rw [Limiter.step, h]

theorem step_prune {event : Event} (h : event.op = .prune) (entries : Entries) :
    limiter.step entries event = limiter.prune entries event.now := by
  rw [Limiter.step, h]

theorem answer_prune {event : Event} (h : event.op = .prune) (entries : Entries) :
    limiter.answer entries event = none := by
  rw [Limiter.answer, h]

/-- A call that is no `prune` answers alike with and without pruning. -/
theorem agrees_step (hmax : 0 < limiter.maxAttempts) (hlockout : 0 < limiter.lockoutMs)
    {event : Event} (hnow : 0 ≤ event.now)
    (hagrees : ∀ key, Agrees limiter event.now (pruned key) (kept key))
    (hfresh : ∀ caller, event.op = .recordFailure caller →
      ∀ entry ∈ kept (limiter.client caller).key, entry.isExpired event.now = false)
    (hprune : ¬ event.IsPrune) :
    limiter.answer pruned event = limiter.answer kept event ∧
      ∀ key, Agrees limiter event.now (limiter.step pruned event key)
        (limiter.step kept event key) := by
  have hupdate (key : Text) {entry other : Option RateLimitEntry}
      (h : Agrees limiter event.now entry other) (key' : Text) :
      Agrees limiter event.now (Function.update pruned key entry key')
        (Function.update kept key other key') := by
    by_cases heq : key' = key
    · subst heq
      simpa only [Function.update_self] using h
    · simpa only [Function.update_of_ne heq] using hagrees key'
  cases hop : event.op with
  | prune => exact absurd hop hprune
  | check caller =>
    rw [step_check hop, step_check hop, Limiter.answer, Limiter.answer, hop]
    simp only [check_eq]
    split
    · exact ⟨rfl, hagrees⟩
    · obtain ⟨hanswer, hafter⟩ := (hagrees (limiter.client caller).key).check hmax
      exact ⟨congrArg some hanswer, hupdate _ hafter⟩
  | recordFailure caller =>
    rw [step_recordFailure hop, step_recordFailure hop, Limiter.answer, Limiter.answer, hop]
    refine ⟨rfl, ?_⟩
    simp only [Limiter.recordFailure]
    split
    · exact hagrees
    · exact hupdate _ ((hagrees _).record hlockout hnow (hfresh caller hop))
  | reset caller =>
    rw [step_reset hop, step_reset hop, Limiter.answer, Limiter.answer, hop]
    exact ⟨rfl, hupdate _ .missing⟩

/-- The run of a limiter that is pruned, along the run of one that is not. -/
theorem agrees_run (hmax : 0 < limiter.maxAttempts) (hlockout : 0 < limiter.lockoutMs)
    {events : List Event} (horder : InOrder events)
    (hagrees : ∀ key, ∀ event ∈ events.head?, Agrees limiter event.now (pruned key) (kept key))
    (hfresh : limiter.NoFailureOnExpired (withoutPrunes events) kept) :
    limiter.answers events pruned = limiter.answers (withoutPrunes events) kept ∧
      limiter.NoFailureOnExpired events pruned := by
  induction events generalizing pruned kept with
  | nil => exact ⟨rfl, trivial⟩
  | cons event events ih =>
    have hnow := horder.nonneg event List.mem_cons_self
    have hagree (key : Text) := hagrees key event rfl
    -- the entries agree up to the next call
    have hnext {pruned kept : Entries}
        (h : ∀ key, Agrees limiter event.now (pruned key) (kept key)) :
        ∀ key, ∀ later ∈ events.head?, Agrees limiter later.now (pruned key) (kept key) :=
      fun key later hlater => (h key).mono
        ((List.pairwise_cons.mp horder.sorted).1 later (List.mem_of_mem_head? hlater))
    by_cases hprune : event.IsPrune
    · have hwithout : withoutPrunes (event :: events) = withoutPrunes events := by
        simp [withoutPrunes, hprune]
      rw [hwithout] at hfresh ⊢
      have hpruned : ∀ key,
          Agrees limiter event.now (limiter.step pruned event key) (kept key) := by
        intro key
        rw [step_prune hprune]
        exact (hagree key).prune
      obtain ⟨hanswers, hfresh'⟩ := ih horder.tail (hnext hpruned) hfresh
      refine ⟨?_, ?_, hfresh'⟩
      · rw [Limiter.answers, answer_prune hprune, hanswers]
        rfl
      · intro caller hop
        rw [hprune] at hop
        cases hop
    · have hwithout : withoutPrunes (event :: events) = event :: withoutPrunes events := by
        simp [withoutPrunes, hprune]
      rw [hwithout] at hfresh ⊢
      obtain ⟨hanswer, hafter⟩ :=
        agrees_step hmax hlockout hnow hagree hfresh.1 hprune
      obtain ⟨hanswers, hfresh'⟩ := ih horder.tail (hnext hafter) hfresh.2
      refine ⟨?_, fun caller hop => (hagree _).isExpired (hfresh.1 caller hop), hfresh'⟩
      rw [Limiter.answers, Limiter.answers, hanswer, hanswers]

-- ---
-- One client
-- ---

variable (limiter)

/-- The calls of a client, and those of `prune`. -/
def Limiter.Concerns (client : Client) (event : Event) : Prop :=
  event.IsPrune ∨ limiter.client? event = some client

instance Limiter.decidableConcerns (client : Client) (event : Event) :
    Decidable (limiter.Concerns client event) :=
  inferInstanceAs (Decidable (_ ∨ _))

/-- The answers of the checks of a client. -/
def Limiter.answersTo (client : Client) : List Event → Entries → List RateLimitCheckResult
  | [], _ => []
  | event :: events, entries =>
    (if limiter.client? event = some client then (limiter.answer entries event).toList else []) ++
      answersTo client events (limiter.step entries event)

variable {limiter}

/-- A call reads and changes the entry of its client only. -/
theorem step_congr {event : Event} (h : entries key = others key)
    (hown : limiter.Concerns client event) (hkey : client.key = key) :
    limiter.step entries event key = limiter.step others event key ∧
      limiter.answer entries event = limiter.answer others event := by
  subst hkey
  rcases hown with hprune | hclient
  · rw [step_prune hprune, step_prune hprune, answer_prune hprune, answer_prune hprune]
    exact ⟨congrArg (Option.bind · _) h, rfl⟩
  · unfold Limiter.client? at hclient
    cases hop : event.op with
    | prune =>
      rw [hop] at hclient
      cases hclient
    | check caller =>
      rw [hop] at hclient
      cases hclient
      rw [step_check hop, step_check hop, Limiter.answer, Limiter.answer, hop]
      simp only [check_eq]
      split
      · exact ⟨h, rfl⟩
      · simp only [Function.update_self, h, and_self]
    | recordFailure caller =>
      rw [hop] at hclient
      cases hclient
      rw [step_recordFailure hop, step_recordFailure hop, Limiter.answer, Limiter.answer, hop]
      refine ⟨?_, rfl⟩
      simp only [Limiter.recordFailure]
      split
      · exact h
      · simp only [Function.update_self, h]
    | reset caller =>
      rw [hop] at hclient
      cases hclient
      rw [step_reset hop, step_reset hop, Limiter.answer, Limiter.answer, hop]
      simp only [Limiter.reset, Function.update_self, and_self]

/-- A call leaves the entries under other keys alone. -/
theorem step_of_ne {event : Event} (hclient : limiter.client? event = some client)
    (hkey : client.key ≠ key) (entries : Entries) :
    limiter.step entries event key = entries key := by
  unfold Limiter.client? at hclient
  cases hop : event.op with
  | prune =>
    rw [hop] at hclient
    cases hclient
  | check caller =>
    rw [hop] at hclient
    cases hclient
    rw [step_check hop, check_eq]
    split
    · rfl
    · exact Function.update_of_ne hkey.symm _ _
  | recordFailure caller =>
    rw [hop] at hclient
    cases hclient
    rw [step_recordFailure hop]
    simp only [Limiter.recordFailure]
    split
    · rfl
    · exact Function.update_of_ne hkey.symm _ _
  | reset caller =>
    rw [hop] at hclient
    cases hclient
    rw [step_reset hop]
    exact Function.update_of_ne hkey.symm _ _

theorem Limiter.NoKeyClash.ne {client : Client} (hkeys : limiter.NoKeyClash events)
    (hcalled : limiter.IsCalled events client)
    {event : Event} (hmem : event ∈ events) (hown : ¬ limiter.Concerns client event) :
    ∃ other, limiter.client? event = some other ∧ other.key ≠ client.key := by
  obtain ⟨hprune, hother⟩ := not_or.mp hown
  cases hclient : limiter.client? event with
  | none =>
    unfold Limiter.client? at hclient
    cases hop : event.op <;> simp [hop, Op.caller?] at hclient
    exact absurd hop hprune
  | some other =>
    refine ⟨other, rfl, fun hkey => hother ?_⟩
    obtain ⟨call, hcall, hcaller⟩ := hcalled
    rw [hclient, hkeys event hmem call hcall other hclient client hcaller hkey]

/-- The calls of others make no difference to a client. -/
theorem answersTo_filter {events : List Event} (h : entries client.key = others client.key)
    (hother : ∀ event ∈ events, ¬ limiter.Concerns client event →
      ∃ other, limiter.client? event = some other ∧ other.key ≠ client.key) :
    limiter.answersTo client events entries =
      limiter.answersTo client (events.filter (limiter.Concerns client ·)) others := by
  induction events generalizing entries others with
  | nil => rfl
  | cons event events ih =>
    obtain ⟨hfirst, hrest⟩ := List.forall_mem_cons.mp hother
    by_cases hown : limiter.Concerns client event
    · obtain ⟨hstep, hanswer⟩ := step_congr h hown rfl
      rw [List.filter_cons_of_pos (by simpa using hown), Limiter.answersTo, Limiter.answersTo,
        hanswer, ih hstep hrest]
    · obtain ⟨other, hclient, hkey⟩ := hfirst hown
      have hnot : limiter.client? event ≠ some client := fun hsame => hown (.inr hsame)
      rw [List.filter_cons_of_neg (by simpa using hown), Limiter.answersTo, if_neg hnot]
      exact ih ((step_of_ne hclient hkey entries).trans h) hrest

end

end OpenClaw.Gateway.AuthRateLimit
