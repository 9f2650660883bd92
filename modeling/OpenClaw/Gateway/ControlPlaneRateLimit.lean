import Mathlib.Logic.Function.Basic
import Mathlib.Tactic.SplitIfs
import OpenClaw.Js.Text
import OpenClaw.Lib.FixedWindow
import OpenClaw.Lib.Transition

/-!
# The write budget of the control plane

Writes to the gateway's control plane are counted for each client, in a fixed window. A run is
the calls in turn, each some time after the one before. The times of what was allowed are a
log; the code has none.
-/

namespace OpenClaw.Gateway.ControlPlaneRateLimit

open Js (Text trimChars)
open FixedWindow (countIn)
open Transition

def CONTROL_PLANE_RATE_LIMIT_MAX_REQUESTS : Nat := 3
def CONTROL_PLANE_RATE_LIMIT_WINDOW_MS : Int := 60000

structure Bucket where
  count : Nat
  windowStartMs : Int

/-- What the key is made from; `none` is a member that is missing or no string. -/
structure GatewayClient where
  deviceId : Option Text
  clientIp : Option Text
  connId : Option Text

def normalizePart (value : Option Text) (fallback : Text) : Text :=
  match value with
  | none => fallback
  | some value =>
    let normalized := trimChars value
    if normalized.length > 0 then normalized else fallback

def resolveControlPlaneRateLimitKey (client? : Option GatewayClient) : Text :=
  let deviceId := normalizePart (client?.bind (·.deviceId)) "unknown-device".toList
  let clientIp := normalizePart (client?.bind (·.clientIp)) "unknown-ip".toList
  let key := deviceId ++ "|".toList ++ clientIp
  if deviceId = "unknown-device".toList ∧ clientIp = "unknown-ip".toList then
    let connId := normalizePart (client?.bind (·.connId)) []
    if connId ≠ [] then key ++ "|conn=".toList ++ connId else key
  else key

structure Budget where
  allowed : Bool
  retryAfterMs : Int
  remaining : Nat
  key : Text

abbrev Buckets := Text → Option Bucket

def Bucket.passed (bucket : Bucket) (nowMs : Int) : Bool :=
  nowMs - bucket.windowStartMs ≥ CONTROL_PLANE_RATE_LIMIT_WINDOW_MS

/-- A bucket whose window passed is none. -/
def consumeControlPlaneWriteBudget (buckets : Buckets) (client? : Option GatewayClient)
    (nowMs : Int) : Budget × Buckets :=
  let key := resolveControlPlaneRateLimitKey client?
  match (buckets key).filter fun bucket => !bucket.passed nowMs with
  | none =>
    (⟨true, 0, CONTROL_PLANE_RATE_LIMIT_MAX_REQUESTS - 1, key⟩,
      Function.update buckets key (some ⟨1, nowMs⟩))
  | some bucket =>
    if bucket.count ≥ CONTROL_PLANE_RATE_LIMIT_MAX_REQUESTS then
      (⟨false, max 0 (bucket.windowStartMs + CONTROL_PLANE_RATE_LIMIT_WINDOW_MS - nowMs), 0, key⟩,
        buckets)
    else
      let bucket := { bucket with count := bucket.count + 1 }
      (⟨true, 0, CONTROL_PLANE_RATE_LIMIT_MAX_REQUESTS - bucket.count, key⟩,
        Function.update buckets key (some bucket))

structure State where
  buckets : Buckets
  nowMs : Int
  allowed : Text → List Int

/-- The client calls again after some time. -/
structure Call where
  elapsedMs : Nat
  client? : Option GatewayClient

def call (s : State) (c : Call) : State :=
  let nowMs := s.nowMs + c.elapsedMs
  let (budget, buckets) := consumeControlPlaneWriteBudget s.buckets c.client? nowMs
  let allowed :=
    if budget.allowed then
      Function.update s.allowed budget.key (nowMs :: s.allowed budget.key)
    else s.allowed
  ⟨buckets, nowMs, allowed⟩

def writeBudget : System State Call where
  init s := s.buckets = (fun _ => none) ∧ s.allowed = fun _ => []
  step s c := some (call s c)

-- ---
-- The window of a key
-- ---

def Bucket.window (bucket : Bucket) : FixedWindow := ⟨bucket.windowStartMs, bucket.count⟩

/-- Where there is no bucket, the window begins now. -/
def window (bucket? : Option Bucket) (nowMs : Int) : FixedWindow :=
  (bucket?.map Bucket.window).getD ⟨nowMs, 0⟩

def consume : FixedWindow → Int → Bool × FixedWindow :=
  FixedWindow.consume CONTROL_PLANE_RATE_LIMIT_MAX_REQUESTS CONTROL_PLANE_RATE_LIMIT_WINDOW_MS

theorem consume_window
    (h : consumeControlPlaneWriteBudget buckets client? nowMs = (budget, buckets')) :
    budget.key = resolveControlPlaneRateLimitKey client? ∧
      ∃ bucket : Bucket, buckets' = Function.update buckets budget.key (some bucket) ∧
        consume (window (buckets budget.key) nowMs) nowMs = (budget.allowed, bucket.window) ∧
        (budget.allowed = false →
          bucket.windowStartMs + CONTROL_PLANE_RATE_LIMIT_WINDOW_MS ≤
            nowMs + budget.retryAfterMs) := by
  unfold consumeControlPlaneWriteBudget at h
  unfold consume FixedWindow.consume FixedWindow.current
  cases hbucket : buckets (resolveControlPlaneRateLimitKey client?) with
  | none =>
    simp only [hbucket] at h
    cases h
    exact ⟨rfl, _, rfl, by simp [hbucket, window, CONTROL_PLANE_RATE_LIMIT_MAX_REQUESTS,
      Bucket.window]⟩
  | some bucket =>
    by_cases hpassed : nowMs - bucket.windowStartMs ≥ CONTROL_PLANE_RATE_LIMIT_WINDOW_MS
    · simp only [hbucket, Option.filter_some, Bucket.passed, hpassed, decide_true] at h
      cases h
      exact ⟨rfl, _, rfl, by simp [hbucket, window, Bucket.window, hpassed,
        CONTROL_PLANE_RATE_LIMIT_MAX_REQUESTS]⟩
    · simp only [hbucket, Option.filter_some, Bucket.passed, hpassed, decide_false] at h
      by_cases hfull : bucket.count ≥ CONTROL_PLANE_RATE_LIMIT_MAX_REQUESTS
      · simp only [Bool.not_false, if_true, hfull] at h
        cases h
        refine ⟨rfl, bucket, ?_, ?_, fun _ => by dsimp only; omega⟩
        · rw [← hbucket, Function.update_eq_self]
        · simp [hbucket, window, Bucket.window, hpassed, hfull]
      · simp only [Bool.not_false, if_true, hfull] at h
        cases h
        exact ⟨rfl, _, rfl, by simp [hbucket, window, Bucket.window, hpassed, hfull]⟩

/-- The law of fixed windows, for every call to come. -/
def Counted (bucket? : Option Bucket) (allowed : List Int) (nowMs : Int) : Prop :=
  ∀ nowMs' ≥ nowMs, FixedWindow.Lawful CONTROL_PLANE_RATE_LIMIT_MAX_REQUESTS
    CONTROL_PLANE_RATE_LIMIT_WINDOW_MS allowed (window bucket? nowMs') nowMs'

theorem Counted.later (h : Counted bucket? allowed nowMs) (hle : nowMs ≤ nowMs') :
    Counted bucket? allowed nowMs' :=
  fun _ hlater => h _ (Int.le_trans hle hlater)

theorem call_counted (hcounted : ∀ key, Counted (s.buckets key) (s.allowed key) s.nowMs)
    (c : Call) (key : Text) :
    Counted ((call s c).buckets key) ((call s c).allowed key) (call s c).nowMs := by
  have hle : s.nowMs ≤ s.nowMs + c.elapsedMs := by omega
  unfold call
  rcases hbudget : consumeControlPlaneWriteBudget s.buckets c.client? (s.nowMs + c.elapsedMs)
    with ⟨budget, buckets⟩
  obtain ⟨-, bucket, rfl, hconsume, -⟩ := consume_window hbudget
  simp only [hbudget]
  by_cases heq : key = budget.key
  · subst heq
    have hlawful := (hcounted budget.key _ hle).consume (by decide)
    rw [← consume, hconsume] at hlawful
    rw [Function.update_self]
    refine fun nowMs' hlater => (?_ : FixedWindow.Lawful _ _ _ _ _).later hlater
    cases hallowed : budget.allowed <;> simpa [hallowed, window] using hlawful
  · rw [Function.update_of_ne heq]
    have hothers : (if budget.allowed then Function.update s.allowed budget.key
        ((s.nowMs + c.elapsedMs) :: s.allowed budget.key) else s.allowed) key = s.allowed key := by
      split_ifs
      · exact Function.update_of_ne heq ..
      · rfl
    rw [hothers]
    exact (hcounted key).later hle

/-- A client writes at most six times in any minute, and is refused only after three writes of
its own in the last minute, until the time it is told. -/
theorem write_budget (h : writeBudget.Reachable s) :
    (∀ key a, countIn (s.allowed key) a (a + CONTROL_PLANE_RATE_LIMIT_WINDOW_MS) ≤
      2 * CONTROL_PLANE_RATE_LIMIT_MAX_REQUESTS) ∧
    ∀ client? nowMs budget buckets, s.nowMs ≤ nowMs →
      consumeControlPlaneWriteBudget s.buckets client? nowMs = (budget, buckets) →
      budget.allowed = false →
        CONTROL_PLANE_RATE_LIMIT_MAX_REQUESTS ≤ countIn (s.allowed budget.key)
          (nowMs - CONTROL_PLANE_RATE_LIMIT_WINDOW_MS + 1) (nowMs + 1) ∧
        ∀ nowMs' ≥ nowMs + budget.retryAfterMs,
          (consumeControlPlaneWriteBudget buckets client? nowMs').1.allowed := by
  have hcounted : ∀ key, Counted (s.buckets key) (s.allowed key) s.nowMs := by
    refine h.invariant (I := fun s => ∀ key, Counted (s.buckets key) (s.allowed key) s.nowMs) ?_ ?_
    · rintro s ⟨hbuckets, hallowed⟩ key nowMs' -
      rw [hbuckets, hallowed]
      exact .fresh ..
    · rintro s c _ hi hs
      cases hs
      exact call_counted hi c
  refine ⟨fun key => (hcounted key _ (Int.le_refl _)).spans, ?_⟩
  intro client? nowMs budget buckets hle hbudget hrefused
  obtain ⟨hkey, bucket, rfl, hconsume, hretry⟩ := consume_window hbudget
  refine ⟨(hcounted budget.key nowMs hle).refused (by decide) ?_, fun nowMs' hlater => ?_⟩
  · exact (congrArg Prod.fst hconsume).trans hrefused
  · rcases hagain : consumeControlPlaneWriteBudget _ client? nowMs' with ⟨again, buckets'⟩
    obtain ⟨hkey', _, -, hconsume', -⟩ := consume_window hagain
    rw [hkey', ← hkey, Function.update_self] at hconsume'
    have hpassed : bucket.window.start + CONTROL_PLANE_RATE_LIMIT_WINDOW_MS ≤ nowMs' :=
      Int.le_trans (hretry hrefused) hlater
    have hgranted : (consume bucket.window nowMs').1 = true :=
      FixedWindow.consume_passed (by decide) hpassed
    rw [window, Option.map_some, Option.getD_some] at hconsume'
    rwa [hconsume'] at hgranted

theorem write_budget_fourth :
    CONTROL_PLANE_RATE_LIMIT_MAX_REQUESTS ≤
      countIn ((call (call (call ⟨fun _ => none, 0, fun _ => []⟩ ⟨0, none⟩) ⟨9, none⟩)
          ⟨9, none⟩).allowed (resolveControlPlaneRateLimitKey none))
        (25 - CONTROL_PLANE_RATE_LIMIT_WINDOW_MS + 1) (25 + 1) := by
  have hinit : writeBudget.init ⟨fun _ => none, 0, fun _ => []⟩ := ⟨rfl, rfl⟩
  have hreach := System.Reachable.step (T := writeBudget) (a := ⟨9, none⟩)
    (.step (a := ⟨9, none⟩) (.step (a := ⟨0, none⟩) (.init hinit) rfl) rfl) rfl
  exact ((write_budget hreach).2 none 25 _ _ (by decide) rfl (by decide)).1

end OpenClaw.Gateway.ControlPlaneRateLimit
