import OpenClaw.Gateway.AuthRateLimit

/-!
# When the rate limiter locks a client out

A lock starts at the failure that makes up the number, lasts its time, and neither a failure
nor another client changes it.
-/

namespace OpenClaw.Gateway.AuthRateLimit

open Js (Text)

-- ---
-- What is seen of a client
-- ---

def Entries.empty : Entries := fun _ => none

section
variable (limiter : Limiter)

/-- The end of the lock that holds for a client. -/
def lockOf (entries : Entries) (client : Client) (now : Rat) : Option Rat :=
  (entries client.key).bind (·.lockAt now)

def Limiter.IsFailureOf (client : Client) (event : Event) : Prop :=
  ∃ caller, event.op = .recordFailure caller ∧ limiter.client caller = client ∧
    limiter.isExempt client = false

def Limiter.IsResetOf (client : Client) (event : Event) : Prop :=
  ∃ caller, event.op = .reset caller ∧ limiter.client caller = client

/-- The failures of a client since the last reset, and the end of its last lock since then. -/
structure Track where
  failures : List Rat
  lockEnd : Option Rat

def Track.fresh : Track := ⟨[], none⟩

/-- The failures that count at a time: in the window, and not before the end of the last lock. -/
def Limiter.counted (track : Track) (now : Rat) : List Rat :=
  limiter.recent (track.failures.filter fun failure => track.lockEnd.all (· ≤ failure)) now

def Limiter.observe (client : Client) (entries : Entries) (track : Track) (event : Event) : Track :=
  match event.op with
  | .recordFailure caller =>
    if limiter.client caller = client ∧ limiter.isExempt client = false then
      ⟨track.failures ++ [event.now],
        (lockOf (limiter.step entries event) client event.now).or track.lockEnd⟩
    else track
  | .reset caller => if limiter.client caller = client then .fresh else track
  | .check _ | .prune => track

/-- What has been seen of a client after some calls. -/
def Limiter.trackOf (client : Client) : List Event → Entries → Track → Track
  | [], _, track => track
  | event :: events, entries, track =>
    trackOf client events (limiter.step entries event) (limiter.observe client entries track event)

/-- What a call may do to the lock of a client. -/
structure Limiter.LockLaw (client : Client) (entries : Entries) (track : Track) (event : Event) :
    Prop where
  /-- A lock starts at the failure that makes up the number. -/
  starts (hbefore : lockOf entries client event.now = none)
    (hafter : lockOf (limiter.step entries event) client event.now = some u) :
    limiter.IsFailureOf client event ∧ u = event.now + limiter.lockoutMs ∧
      (limiter.counted track event.now).length < limiter.maxAttempts ∧
      limiter.maxAttempts ≤ ((limiter.counted track event.now).length + 1 : Nat)
  /-- It holds up to its end, and no longer. -/
  lasts (hafter : lockOf (limiter.step entries event) client event.now = some u) (later : Rat) :
    lockOf (limiter.step entries event) client later = if later < u then some u else none
  /-- While it holds, only a reset changes it. -/
  held (hbefore : lockOf entries client event.now = some u)
    (hreset : ¬ limiter.IsResetOf client event) (later : Rat) :
    lockOf (limiter.step entries event) client later = lockOf entries client later

end

-- ---
-- The failures that count
-- ---

section
variable {limiter : Limiter}

theorem counted_mono (track : Track) (h : now ≤ later) :
    limiter.recent (limiter.counted track now) later = limiter.counted track later :=
  recent_recent _ h

theorem counted_eq_nil {track : Track} (hend : track.lockEnd = some u)
    (hlt : ∀ failure ∈ track.failures, failure < u) : limiter.counted track now = [] := by
  have hnone : track.failures.filter (fun failure => track.lockEnd.all (· ≤ failure)) = [] := by
    rw [List.filter_eq_nil_iff]
    intro failure hmem
    simpa [hend] using hlt failure hmem
  rw [Limiter.counted, hnone]
  rfl

theorem counted_snoc {track : Track} (hwindow : 0 < limiter.windowMs)
    (hend : ∀ u ∈ track.lockEnd, u ≤ now) :
    limiter.counted ⟨track.failures ++ [now], track.lockEnd⟩ now =
      limiter.counted track now ++ [now] := by
  have hkeep : [now].filter (fun failure => track.lockEnd.all (· ≤ failure)) = [now] := by
    rw [List.filter_eq_self]
    intro failure hmem
    rw [List.mem_singleton.mp hmem, Option.all_eq_true]
    exact fun u hu => decide_eq_true (hend u hu)
  have hrecent : limiter.recent [now] now = [now] := by
    simp [Limiter.recent, hwindow]
  rw [Limiter.counted, List.filter_append, hkeep, Limiter.recent, List.filter_append]
  exact congrArg _ hrecent

-- ---
-- An entry and what has been seen
-- ---

/-- What an entry keeps of what has been seen. -/
inductive Tracks (limiter : Limiter) (now : Rat) : Option RateLimitEntry → Track → Prop
  | missing (hcounted : limiter.counted track now = [])
      (hend : ∀ u ∈ track.lockEnd, u ≤ now)
      (hpast : ∀ failure ∈ track.failures, failure ≤ now) : Tracks limiter now none track
  | locked (hentry : entry.lockedUntil = some u) (hend : track.lockEnd = some u) (hpos : 0 < u)
      (hpast : ∀ failure ∈ track.failures, failure < u) : Tracks limiter now (some entry) track
  | opened (hentry : entry.lockedUntil = none)
      (hcounted : limiter.recent entry.attempts now = limiter.counted track now)
      (hfew : entry.attempts.length < limiter.maxAttempts)
      (hend : ∀ u ∈ track.lockEnd, u ≤ now)
      (hpast : ∀ failure ∈ track.failures, failure ≤ now) : Tracks limiter now (some entry) track

theorem Tracks.mono (h : Tracks limiter now entry track) (hle : now ≤ later) :
    Tracks limiter later entry track := by
  cases h with
  | missing hcounted hend hpast =>
    refine .missing ?_ (fun u hu => (hend u hu).trans hle) (fun f hf => (hpast f hf).trans hle)
    rw [← counted_mono track hle, hcounted]
    rfl
  | locked hentry hend hpos hpast => exact .locked hentry hend hpos hpast
  | opened hentry hcounted hfew hend hpast =>
    refine .opened hentry ?_ hfew (fun u hu => (hend u hu).trans hle)
      (fun f hf => (hpast f hf).trans hle)
    rw [← counted_mono track hle, ← hcounted, recent_recent _ hle]

theorem length_recent_le (attempts : List Rat) :
    (limiter.recent attempts now).length ≤ attempts.length :=
  List.length_filter_le _ _

theorem Tracks.fresh : Tracks limiter now none .fresh :=
  .missing rfl (by simp [Track.fresh]) (by simp [Track.fresh])

/-- A lock that has ended, and an entry without one, are as if nothing counted before. -/
theorem Tracks.ended (hend : track.lockEnd = some u) (hle : u ≤ now)
    (hpast : ∀ failure ∈ track.failures, failure < u) : Tracks limiter now none track := by
  refine .missing (counted_eq_nil hend hpast) (fun u' hu' => ?_)
    (fun f hf => ((hpast f hf).trans_le hle).le)
  rw [hend] at hu'
  cases hu'
  exact hle

theorem Tracks.check (hmax : 0 < limiter.maxAttempts) (h : Tracks limiter now entry track) :
    Tracks limiter now (limiter.checkKey entry now).2 track := by
  cases h with
  | missing hcounted hend hpast => exact .missing hcounted hend hpast
  | locked hentry hend hpos hpast =>
    simp only [Limiter.checkKey]
    rcases lockAt_or_isExpired hentry hpos with ⟨-, hat⟩ | ⟨hle, hat, hexpired⟩
    · rw [checkEntry_locked hat]
      exact .locked hentry hend hpos hpast
    · rw [checkEntry_expired hat hexpired]
      have hended : Tracks limiter now none _ := .ended hend hle hpast
      cases hended with
      | missing hcounted hend hpast =>
        exact .opened rfl hcounted.symm (by simpa using hmax) hend hpast
  | opened hentry hcounted hfew hend hpast =>
    simp only [Limiter.checkKey]
    rw [checkEntry_open (lockAt_none hentry) (isExpired_none hentry)]
    refine .opened hentry ((recent_recent _ le_rfl).trans hcounted) ?_ hend hpast
    exact lt_of_le_of_lt (by exact_mod_cast length_recent_le _) hfew

theorem Tracks.prune (h : Tracks limiter now entry track) :
    Tracks limiter now (entry.bind (limiter.pruneEntry · now)) track := by
  cases h with
  | missing hcounted hend hpast => exact .missing hcounted hend hpast
  | locked hentry hend hpos hpast =>
    rw [Option.bind_some]
    rcases lockAt_or_isExpired hentry hpos with ⟨-, hat⟩ | ⟨hle, hat, -⟩
    · rw [pruneEntry_locked hat]
      exact .locked hentry hend hpos hpast
    · rw [pruneEntry_open hat]
      split
      · exact Tracks.ended hend hle hpast
      · exact .locked hentry hend hpos hpast
  | opened hentry hcounted hfew hend hpast =>
    rw [Option.bind_some, pruneEntry_open (lockAt_none hentry)]
    split
    · rename_i hempty
      exact .missing (hcounted ▸ hempty) hend hpast
    · refine .opened hentry ((recent_recent _ le_rfl).trans hcounted) ?_ hend hpast
      exact lt_of_le_of_lt (by exact_mod_cast length_recent_le _) hfew

/-- A failure on an entry without a lock. -/
theorem Tracks.record_open (hwindow : 0 < limiter.windowMs) (hlockout : 0 < limiter.lockoutMs)
    (hnow : 0 ≤ now) {entry : RateLimitEntry} (hentry : entry.lockedUntil = none)
    (hcounted : limiter.recent entry.attempts now = limiter.counted track now)
    (hend : ∀ u ∈ track.lockEnd, u ≤ now) (hpast : ∀ failure ∈ track.failures, failure ≤ now) :
    Tracks limiter now (some (limiter.recordEntry entry now))
      ⟨track.failures ++ [now], ((limiter.recordEntry entry now).lockAt now).or track.lockEnd⟩ := by
  rw [recordEntry_open (lockAt_none hentry), hentry]
  have hlt : now < now + limiter.lockoutMs := by linarith
  have hpos : 0 < now + limiter.lockoutMs := hnow.trans_lt hlt
  by_cases hmany :
      limiter.maxAttempts ≤ ((limiter.recent entry.attempts now).length + 1 : Nat)
  · simp only [if_pos hmany]
    rw [(lockAt_eq_some (by simpa using hpos)).mpr ⟨rfl, hlt⟩]
    refine .locked rfl rfl hpos fun failure hmem => ?_
    rcases List.mem_append.mp hmem with hold | hnew
    · exact (hpast failure hold).trans_lt hlt
    · exact List.mem_singleton.mp hnew ▸ hlt
  · simp only [if_neg hmany]
    rw [lockAt_none rfl, Option.none_or]
    refine .opened rfl ?_ ?_ hend fun failure hmem => ?_
    · rw [recent_snoc _ hwindow, counted_snoc hwindow hend, hcounted]
    · rw [List.length_append]
      exact not_le.mp hmany
    · rcases List.mem_append.mp hmem with hold | hnew
      · exact hpast failure hold
      · exact le_of_eq (List.mem_singleton.mp hnew)

theorem Tracks.record (hwindow : 0 < limiter.windowMs) (hlockout : 0 < limiter.lockoutMs)
    (hnow : 0 ≤ now) (h : Tracks limiter now entry track)
    (hexpired : ∀ e ∈ entry, e.isExpired now = false) :
    Tracks limiter now (some (limiter.recordKey entry now))
      ⟨track.failures ++ [now], ((limiter.recordKey entry now).lockAt now).or track.lockEnd⟩ := by
  cases h with
  | missing hcounted hend hpast =>
    exact .record_open hwindow hlockout hnow rfl hcounted.symm hend hpast
  | @locked u entry _ hentry hend hpos hpast =>
    simp only [Limiter.recordKey, Option.getD_some]
    rcases lockAt_or_isExpired hentry hpos with ⟨hlt, hat⟩ | ⟨-, -, htrue⟩
    · rw [recordEntry_locked hat, hat]
      refine .locked hentry rfl hpos fun failure hmem => ?_
      rcases List.mem_append.mp hmem with hold | hnew
      · exact hpast failure hold
      · exact List.mem_singleton.mp hnew ▸ hlt
    · exact absurd htrue (by simp [hexpired entry rfl])
  | opened hentry hcounted _ hend hpast =>
    exact .record_open hwindow hlockout hnow hentry hcounted hend hpast

-- ---
-- One call
-- ---

/-- What a call does to the entry of a client. -/
inductive Turn (limiter : Limiter) (client : Client) (entries : Entries) (event : Event) : Prop
  | kept (hfailure : ¬ limiter.IsFailureOf client event) (hreset : ¬ limiter.IsResetOf client event)
      (hstep : limiter.step entries event client.key = entries client.key)
  | checked (hfailure : ¬ limiter.IsFailureOf client event)
      (hreset : ¬ limiter.IsResetOf client event)
      (hstep : limiter.step entries event client.key =
        (limiter.checkKey (entries client.key) event.now).2)
  | recorded (hfailure : limiter.IsFailureOf client event)
      (hreset : ¬ limiter.IsResetOf client event)
      (hstep : limiter.step entries event client.key =
        some (limiter.recordKey (entries client.key) event.now))
  | reset (hfailure : ¬ limiter.IsFailureOf client event) (hreset : limiter.IsResetOf client event)
      (hstep : limiter.step entries event client.key = none)
  | pruned (hfailure : ¬ limiter.IsFailureOf client event)
      (hreset : ¬ limiter.IsResetOf client event)
      (hstep : limiter.step entries event client.key =
        (entries client.key).bind (limiter.pruneEntry · event.now))

theorem not_isFailureOf {event : Event} (h : ∀ caller, event.op ≠ .recordFailure caller) :
    ¬ limiter.IsFailureOf client event :=
  fun ⟨caller, hop, _⟩ => h caller hop

theorem not_isResetOf {event : Event} (h : ∀ caller, event.op ≠ .reset caller) :
    ¬ limiter.IsResetOf client event :=
  fun ⟨caller, hop, _⟩ => h caller hop

theorem client?_eq_some {event : Event} (caller : Caller) (h : event.op.caller? = some caller) :
    limiter.client? event = some (limiter.client caller) := by
  rw [Limiter.client?, h, Option.map_some]

theorem turn {event : Event} (entries : Entries)
    (hcall : limiter.Concerns client event ∨
      ∃ other, limiter.client? event = some other ∧ other.key ≠ client.key) :
    Turn limiter client entries event := by
  rcases hcall with hown | ⟨other, hclient, hkey⟩
  · rcases hown with hprune | hclient
    · refine .pruned (not_isFailureOf ?_) (not_isResetOf ?_) ?_
      · simp [show event.op = .prune from hprune]
      · simp [show event.op = .prune from hprune]
      · rw [step_prune hprune]
        rfl
    · cases hop : event.op with
      | prune => simp [Limiter.client?, hop, Op.caller?] at hclient
      | check caller =>
        rw [client?_eq_some caller (by rw [hop]; rfl)] at hclient
        cases hclient
        have hfailure : ¬ limiter.IsFailureOf (limiter.client caller) event :=
          not_isFailureOf (by simp [hop])
        have hreset : ¬ limiter.IsResetOf (limiter.client caller) event :=
          not_isResetOf (by simp [hop])
        by_cases hexempt : limiter.isExempt (limiter.client caller)
        · refine .kept hfailure hreset ?_
          rw [step_check hop, check_eq, if_pos hexempt]
        · refine .checked hfailure hreset ?_
          rw [step_check hop, check_eq, if_neg hexempt]
          exact Function.update_self _ _ _
      | recordFailure caller =>
        rw [client?_eq_some caller (by rw [hop]; rfl)] at hclient
        cases hclient
        have hreset : ¬ limiter.IsResetOf (limiter.client caller) event :=
          not_isResetOf (by simp [hop])
        cases hexempt : limiter.isExempt (limiter.client caller) with
        | true =>
          refine .kept ?_ hreset ?_
          · rintro ⟨other, hother, hsame, hnot⟩
            rw [hexempt] at hnot
            cases hnot
          · rw [step_recordFailure hop, Limiter.recordFailure, if_pos hexempt]
        | false =>
          refine .recorded ⟨caller, hop, rfl, hexempt⟩ hreset ?_
          rw [step_recordFailure hop, Limiter.recordFailure, hexempt, if_neg Bool.false_ne_true,
            Function.update_self, Limiter.recordKey]
      | reset caller =>
        rw [client?_eq_some caller (by rw [hop]; rfl)] at hclient
        cases hclient
        refine .reset (not_isFailureOf (by simp [hop])) ⟨caller, hop, rfl⟩ ?_
        rw [step_reset hop, Limiter.reset, Function.update_self]
  · have hne (caller : Caller) (hcaller : event.op.caller? = some caller) :
        limiter.client caller ≠ client := by
      rintro rfl
      rw [client?_eq_some caller hcaller] at hclient
      cases hclient
      exact hkey rfl
    refine .kept ?_ ?_ (step_of_ne hclient hkey entries)
    · rintro ⟨caller, hop, hsame, -⟩
      exact hne caller (by rw [hop]; rfl) hsame
    · rintro ⟨caller, hop, hsame⟩
      exact hne caller (by rw [hop]; rfl) hsame

theorem observe_failure {event : Event} (h : limiter.IsFailureOf client event) (entries : Entries)
    (track : Track) :
    limiter.observe client entries track event =
      ⟨track.failures ++ [event.now],
        (lockOf (limiter.step entries event) client event.now).or track.lockEnd⟩ := by
  obtain ⟨caller, hop, hclient, hexempt⟩ := h
  unfold Limiter.observe
  rw [hop]
  exact if_pos ⟨hclient, hexempt⟩

theorem observe_reset {event : Event} (h : limiter.IsResetOf client event) (entries : Entries)
    (track : Track) : limiter.observe client entries track event = .fresh := by
  obtain ⟨caller, hop, hclient⟩ := h
  unfold Limiter.observe
  rw [hop]
  exact if_pos hclient

theorem observe_other {event : Event} (hfailure : ¬ limiter.IsFailureOf client event)
    (hreset : ¬ limiter.IsResetOf client event) (entries : Entries) (track : Track) :
    limiter.observe client entries track event = track := by
  unfold Limiter.observe
  cases hop : event.op with
  | recordFailure caller =>
    exact if_neg fun ⟨hsame, hexempt⟩ => hfailure ⟨caller, hop, hsame, hexempt⟩
  | reset caller => exact if_neg fun hsame => hreset ⟨caller, hop, hsame⟩
  | check caller => rfl
  | prune => rfl

/-- No failure of a call is recorded on an entry whose lock has ended. -/
theorem isExpired_of_fresh {entries : Entries} {event : Event}
    (hfailure : limiter.IsFailureOf client event)
    (hfresh : ∀ caller, event.op = .recordFailure caller →
      ∀ entry ∈ entries (limiter.client caller).key, entry.isExpired event.now = false) :
    ∀ entry ∈ entries client.key, entry.isExpired event.now = false := by
  obtain ⟨caller, hop, rfl, -⟩ := hfailure
  exact hfresh caller hop

theorem tracks_step (hmax : 0 < limiter.maxAttempts) (hwindow : 0 < limiter.windowMs)
    (hlockout : 0 < limiter.lockoutMs) {event : Event} (hnow : 0 ≤ event.now)
    (h : Tracks limiter event.now (entries client.key) track)
    (hturn : Turn limiter client entries event)
    (hfresh : ∀ caller, event.op = .recordFailure caller →
      ∀ entry ∈ entries (limiter.client caller).key, entry.isExpired event.now = false) :
    Tracks limiter event.now (limiter.step entries event client.key)
      (limiter.observe client entries track event) := by
  cases hturn with
  | kept hfailure hreset hstep =>
    rw [hstep, observe_other hfailure hreset]
    exact h
  | checked hfailure hreset hstep =>
    rw [hstep, observe_other hfailure hreset]
    exact h.check hmax
  | recorded hfailure hreset hstep =>
    rw [observe_failure hfailure, lockOf, hstep]
    exact h.record hwindow hlockout hnow (isExpired_of_fresh hfailure hfresh)
  | reset hfailure hreset hstep =>
    rw [hstep, observe_reset hreset]
    exact .fresh
  | pruned hfailure hreset hstep =>
    rw [hstep, observe_other hfailure hreset]
    exact h.prune

-- ---
-- Locks
-- ---

theorem lockAt_eq_ite {entry : RateLimitEntry} (hlock : entry.lockedUntil = some u) (hpos : 0 < u)
    (later : Rat) : entry.lockAt later = if later < u then some u else none := by
  obtain ⟨hlt, hat⟩ | ⟨hle, hat, -⟩ : (later < u ∧ entry.lockAt later = some u) ∨
      (u ≤ later ∧ entry.lockAt later = none ∧ _) := lockAt_or_isExpired hlock hpos
  · rw [hat, if_pos hlt]
  · rw [hat, if_neg (not_lt.mpr hle)]

/-- A lock that holds at a time is the entry's, up to its end. -/
theorem lockOf_of_holds (hnow : 0 ≤ now) (h : lockOf entries client now = some u) (later : Rat) :
    lockOf entries client later = if later < u then some u else none := by
  obtain ⟨entry, hentry, hat⟩ := Option.bind_eq_some_iff.mp h
  obtain ⟨hlock, hlt⟩ := Option.filter_eq_some_iff.mp hat
  simp only [Bool.and_eq_true, decide_eq_true_eq] at hlt
  rw [lockOf, hentry]
  exact lockAt_eq_ite hlock (hnow.trans_lt hlt.2) later

theorem lockAt_check {entry : Option RateLimitEntry} (h : entry.bind (·.lockAt now) = none) :
    (limiter.checkKey entry now).2.bind (·.lockAt now) = none := by
  cases entry with
  | none => rfl
  | some entry =>
    simp only [Limiter.checkKey, Option.bind_some] at h ⊢
    cases hexpired : entry.isExpired now with
    | false =>
      rw [checkEntry_open h hexpired]
      exact h
    | true =>
      rw [checkEntry_expired h hexpired]
      exact lockAt_none rfl

theorem lockAt_prune {entry : Option RateLimitEntry} (h : entry.bind (·.lockAt now) = none) :
    (entry.bind (limiter.pruneEntry · now)).bind (·.lockAt now) = none := by
  cases entry with
  | none => rfl
  | some entry =>
    simp only [Option.bind_some] at h ⊢
    rw [pruneEntry_open h]
    split
    · rfl
    · exact h

/-- A failure that starts a lock makes up the number. -/
theorem Tracks.starts (hmax : 0 < limiter.maxAttempts) (h : Tracks limiter now entry track)
    (hexpired : ∀ e ∈ entry, e.isExpired now = false)
    (hbefore : entry.bind (·.lockAt now) = none)
    (hafter : (limiter.recordKey entry now).lockAt now = some u) :
    u = now + limiter.lockoutMs ∧ (limiter.counted track now).length < limiter.maxAttempts ∧
      limiter.maxAttempts ≤ ((limiter.counted track now).length + 1 : Nat) := by
  -- an entry without a lock, whose recent attempts are those that count
  have hopen (entry : RateLimitEntry) (hentry : entry.lockedUntil = none)
      (hcounted : limiter.recent entry.attempts now = limiter.counted track now)
      (hfew : entry.attempts.length < limiter.maxAttempts)
      (hafter : (limiter.recordEntry entry now).lockAt now = some u) :
      u = now + limiter.lockoutMs ∧ (limiter.counted track now).length < limiter.maxAttempts ∧
        limiter.maxAttempts ≤ ((limiter.counted track now).length + 1 : Nat) := by
    rw [recordEntry_open (lockAt_none hentry), hentry] at hafter
    split at hafter
    · rename_i hmany
      have hlock := (Option.filter_eq_some_iff.mp hafter).1
      rw [← hcounted]
      refine ⟨(Option.some.inj hlock).symm, ?_, hmany⟩
      exact lt_of_le_of_lt (by exact_mod_cast length_recent_le _) hfew
    · rw [lockAt_none rfl] at hafter
      cases hafter
  cases h with
  | missing hcounted _ _ => exact hopen ⟨[], none⟩ rfl hcounted.symm (by simpa using hmax) hafter
  | @locked u entry _ hentry _ hpos _ =>
    rcases lockAt_or_isExpired hentry hpos with ⟨-, hat⟩ | ⟨-, -, htrue⟩
    · rw [Option.bind_some, hat] at hbefore
      cases hbefore
    · exact absurd htrue (by simp [hexpired entry rfl])
  | opened hentry hcounted hfew _ _ => exact hopen _ hentry hcounted hfew hafter

theorem lockLaw_step (hmax : 0 < limiter.maxAttempts) {event : Event} (hnow : 0 ≤ event.now)
    (h : Tracks limiter event.now (entries client.key) track)
    (hturn : Turn limiter client entries event)
    (hfresh : ∀ caller, event.op = .recordFailure caller →
      ∀ entry ∈ entries (limiter.client caller).key, entry.isExpired event.now = false) :
    limiter.LockLaw client entries track event where
  starts hbefore hafter := by
    rename_i u
    rw [lockOf] at hbefore hafter
    cases hturn with
    | kept _ _ hstep =>
      rw [hstep, hbefore] at hafter
      cases hafter
    | checked _ _ hstep =>
      rw [hstep, lockAt_check hbefore] at hafter
      cases hafter
    | recorded hfailure _ hstep =>
      rw [hstep] at hafter
      exact ⟨hfailure, h.starts hmax (isExpired_of_fresh hfailure hfresh) hbefore hafter⟩
    | reset _ _ hstep =>
      rw [hstep] at hafter
      cases hafter
    | pruned _ _ hstep =>
      rw [hstep, lockAt_prune hbefore] at hafter
      cases hafter
  lasts hafter later := lockOf_of_holds hnow hafter later
  held hbefore hreset later := by
    obtain ⟨entry, hentry, hat⟩ := Option.bind_eq_some_iff.mp hbefore
    have hkeeps : limiter.step entries event client.key = entries client.key := by
      cases hturn with
      | kept _ _ hstep => exact hstep
      | checked _ _ hstep =>
        rw [hstep, hentry, Limiter.checkKey, checkEntry_locked hat]
      | recorded _ _ hstep =>
        rw [hstep, hentry, Limiter.recordKey, Option.getD_some, recordEntry_locked hat]
      | reset _ hown _ => exact absurd hown hreset
      | pruned _ _ hstep =>
        rw [hstep, hentry, Option.bind_some, pruneEntry_locked hat]
    rw [lockOf, lockOf, hkeeps]

-- ---
-- Runs
-- ---

theorem lockLaw_run (hmax : 0 < limiter.maxAttempts) (hwindow : 0 < limiter.windowMs)
    (hlockout : 0 < limiter.lockoutMs) {events : List Event} (horder : InOrder events)
    (h : ∀ event ∈ events.head?, Tracks limiter event.now (entries client.key) track)
    (hcalls : ∀ event ∈ events, limiter.Concerns client event ∨
      ∃ other, limiter.client? event = some other ∧ other.key ≠ client.key)
    (hfresh : limiter.NoFailureOnExpired events entries)
    (hsplit : events = past ++ event :: rest) :
    limiter.LockLaw client (limiter.after past entries) (limiter.trackOf client past entries track)
      event := by
  induction past generalizing events entries track with
  | nil =>
    subst hsplit
    exact lockLaw_step hmax (horder.nonneg event List.mem_cons_self) (h event rfl)
      (turn entries (hcalls event List.mem_cons_self)) hfresh.1
  | cons first past ih =>
    subst hsplit
    have hstep := tracks_step hmax hwindow hlockout (horder.nonneg first List.mem_cons_self)
      (h first rfl) (turn entries (hcalls first List.mem_cons_self)) hfresh.1
    refine ih horder.tail (fun later hlater => ?_)
      (fun later hlater => hcalls later (List.mem_cons_of_mem _ hlater)) hfresh.2 rfl
    exact hstep.mono ((List.pairwise_cons.mp horder.sorted).1 later (List.mem_of_mem_head? hlater))

variable (limiter)

/-- A run in which pruning, locks and clients are as they should be. -/
structure Limiter.Lawful (events : List Event) : Prop where
  /-- Pruning makes no difference to the answers. -/
  prunes : limiter.answers events .empty = limiter.answers (withoutPrunes events) .empty
  locks {client : Client} (hcalled : limiter.IsCalled events client)
    (hsplit : events = past ++ event :: rest) :
    limiter.LockLaw client (limiter.after past .empty) (limiter.trackOf client past .empty .fresh)
      event
  /-- The calls of others make no difference to a client. -/
  apart {client : Client} (hcalled : limiter.IsCalled events client) :
    limiter.answersTo client events .empty =
      limiter.answersTo client (events.filter (limiter.Concerns client ·)) .empty

variable {limiter}

theorem lawful_of_noFailureOnExpired (hmax : 0 < limiter.maxAttempts)
    (hwindow : 0 < limiter.windowMs) (hlockout : 0 < limiter.lockoutMs) (events : List Event)
    (horder : InOrder events) (hfresh : limiter.NoFailureOnExpired (withoutPrunes events) .empty)
    (hkeys : limiter.NoKeyClash events) : limiter.Lawful events := by
  have hrun : limiter.answers events .empty = limiter.answers (withoutPrunes events) .empty ∧
      limiter.NoFailureOnExpired events .empty :=
    agrees_run hmax hlockout horder (fun _ _ _ => .missing) hfresh
  obtain ⟨hprunes, hfresh'⟩ := hrun
  have hothers {client : Client} (hcalled : limiter.IsCalled events client) :
      ∀ event ∈ events, ¬ limiter.Concerns client event →
        ∃ other, limiter.client? event = some other ∧ other.key ≠ client.key :=
    fun event hmem hown => hkeys.ne hcalled hmem hown
  refine ⟨hprunes, @fun past event rest client hcalled hsplit => ?_, fun hcalled => ?_⟩
  · refine lockLaw_run hmax hwindow hlockout horder (fun _ _ => .fresh) (fun event hmem => ?_)
      hfresh' hsplit
    by_cases hown : limiter.Concerns client event
    · exact .inl hown
    · exact .inr (hothers hcalled event hmem hown)
  · exact answersTo_filter rfl (hothers hcalled)

/-- A limiter of two attempts, for clients that are all addresses. -/
def sampleLimiter : Limiter :=
  RateLimitConfig.limiter ⟨some 2, some 60000, some 10000, none⟩ (fun ip => ip) (fun _ => false)

def sampleCaller : Caller := ⟨some "203.0.113.9".toList, none⟩

theorem lawful_sample :
    sampleLimiter.Lawful [⟨0, .recordFailure sampleCaller⟩, ⟨0, .recordFailure sampleCaller⟩,
      ⟨20000, .check sampleCaller⟩, ⟨20000, .recordFailure sampleCaller⟩, ⟨20000, .prune⟩] := by
  refine lawful_of_noFailureOnExpired (by decide) (by decide) (by decide) _
    ⟨by decide, by decide⟩ ⟨?_, ?_, ?_, ?_, trivial⟩ ?_
  · rintro _ ⟨⟩
    decide
  · rintro _ ⟨⟩
    decide
  · rintro _ ⟨⟩
  · rintro _ ⟨⟩
    decide +kernel
  · have hone : ∀ event ∈ [⟨0, .recordFailure sampleCaller⟩, ⟨0, .recordFailure sampleCaller⟩,
        ⟨20000, .check sampleCaller⟩, ⟨20000, .recordFailure sampleCaller⟩, ⟨20000, .prune⟩],
        ∀ client ∈ sampleLimiter.client? event, client = sampleLimiter.client sampleCaller := by
      decide
    intro event hevent other hother client hclient client' hclient' _
    rw [hone event hevent client hclient, hone other hother client' hclient']

/-- One failure after the end of a lock starts the next. -/
theorem not_lawful_sample :
    ¬ sampleLimiter.Lawful [⟨0, .recordFailure sampleCaller⟩, ⟨0, .recordFailure sampleCaller⟩,
      ⟨20000, .recordFailure sampleCaller⟩] := by
  intro h
  have hsplit : [⟨0, .recordFailure sampleCaller⟩, ⟨0, .recordFailure sampleCaller⟩,
      ⟨20000, .recordFailure sampleCaller⟩] =
      [⟨0, .recordFailure sampleCaller⟩, ⟨0, .recordFailure sampleCaller⟩] ++
        (⟨20000, .recordFailure sampleCaller⟩ : Event) :: [] := rfl
  have hlaw := h.locks ⟨⟨0, .recordFailure sampleCaller⟩, List.mem_cons_self, rfl⟩ hsplit
  have hstarts := hlaw.starts (u := 30000) (by decide +kernel) (by decide +kernel)
  exact absurd hstarts.2.2.2 (by decide +kernel)

end

end OpenClaw.Gateway.AuthRateLimit
