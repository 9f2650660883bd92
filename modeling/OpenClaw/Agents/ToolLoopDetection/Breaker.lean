import OpenClaw.Agents.ToolLoopDetection
import OpenClaw.Lib.Paging

/-!
# When the circuit breaker can be reached

A run of identical calls leaves the window full of one record, so the streak
the breaker compares with its threshold is at most the window's size. The
resolver clamps the thresholds against each other and not against the window.
-/

namespace OpenClaw.ToolLoopDetection

open Js (Json Number)
open Window

/-- One tool call and what running it gives. -/
structure Call where
  toolName : String
  params : Json
  result : Option Json := none
  error : Option Thrown := none

def Call.outcomeHash (host : Host) (call : Call) : Option String :=
  hashToolOutcome host call.toolName call.params call.result call.error

/-- A call as the tool wrapper records it: before it runs, and once it ended. -/
def recordCall (host : Host) (config : Option ToolLoopDetectionConfig) (call : Call)
    (toolCallId : Option String) (history : List ToolCallRecord) : List ToolCallRecord :=
  recordToolCallOutcome host
    (recordToolCall host history call.toolName call.params toolCallId config)
    { toolName := call.toolName, toolParams := call.params, toolCallId,
      result := call.result, error := call.error } config

/-- `k` consecutive calls, the `i`-th under the id `ids i`. -/
def recordCalls (host : Host) (config : Option ToolLoopDetectionConfig) (call : Call)
    (ids : Nat → Option String) : Nat → List ToolCallRecord → List ToolCallRecord
  | 0, history => history
  | k + 1, history => recordCall host config call (ids k) (recordCalls host config call ids k history)

def IsBreakerVerdict (verdict : Option Stuck) : Prop :=
  ∃ stuck, verdict = some stuck ∧ stuck.level = .critical ∧ stuck.detector = .global_circuit_breaker

instance (verdict : Option Stuck) : Decidable (IsBreakerVerdict verdict) :=
  match verdict with
  | none => .isFalse (by rintro ⟨_, h, _⟩; cases h)
  | some stuck =>
    decidable_of_iff (stuck.level = .critical ∧ stuck.detector = .global_circuit_breaker)
      ⟨fun h => ⟨stuck, rfl, h⟩, fun ⟨_, h, hv⟩ => by cases h; exact hv⟩

-- ---
-- The streak
-- ---

theorem noProgressLoop_le (h : latest = none → streak = 0) :
    (noProgressLoop toolName argsHash l streak latest).1 ≤ streak + l.length := by
  induction l generalizing streak latest with
  | nil => simp [noProgressLoop]
  | cons call older ih =>
    have skip : (noProgressLoop toolName argsHash older streak latest).1 ≤
        streak + (older.length + 1) := Nat.le_trans (ih h) (by omega)
    simp only [noProgressLoop, List.length_cons]
    split
    · exact skip
    · cases call.resultHash with
      | none => exact skip
      | some hash =>
        by_cases hempty : hash = ""
        · simpa [hempty] using skip
        · cases latest with
          | none =>
            have := @ih (some hash) 1 (by simp)
            simp only [hempty, ↓reduceIte]
            omega
          | some latestHash =>
            have := @ih (some latestHash) (streak + 1) (by simp)
            simp only [hempty, ↓reduceIte]
            split
            · omega
            · omega

theorem noProgressLoop_uniform {hash : String} (hne : hash ≠ "")
    (h : ∀ call ∈ l, call.toolName = toolName ∧ call.argsHash = argsHash ∧
      call.resultHash = some hash) :
    (noProgressLoop toolName argsHash l streak (some hash)).1 = streak + l.length := by
  induction l generalizing streak with
  | nil => rfl
  | cons call older ih =>
    obtain ⟨⟨hn, ha, hr⟩, hrest⟩ := List.forall_mem_cons.mp h
    have := @ih (streak + 1) hrest
    simp only [noProgressLoop, hn, ha, hr, hne, List.length_cons, ne_eq, not_true_eq_false,
      or_self, ↓reduceIte]
    omega

theorem getNoProgressStreak_le :
    (getNoProgressStreak history toolName argsHash).1 ≤ history.length := by
  have : (getNoProgressStreak history toolName argsHash).1 ≤ 0 + history.reverse.length :=
    noProgressLoop_le fun _ => rfl
  simpa using this

theorem getNoProgressStreak_uniform {hash : String} (hne : hash ≠ "")
    (h : ∀ call ∈ history, call.toolName = toolName ∧ call.argsHash = argsHash ∧
      call.resultHash = some hash) :
    (getNoProgressStreak history toolName argsHash).1 = history.length := by
  unfold getNoProgressStreak
  have hrev : ∀ call ∈ history.reverse, call.toolName = toolName ∧ call.argsHash = argsHash ∧
      call.resultHash = some hash := fun call hm => h call (List.mem_reverse.mp hm)
  rw [← List.length_reverse]
  cases hl : history.reverse with
  | nil => rfl
  | cons call older =>
    rw [hl] at hrev
    obtain ⟨⟨hn, ha, hr⟩, hrest⟩ := List.forall_mem_cons.mp hrev
    have : (noProgressLoop toolName argsHash older 1 (some hash)).1 = 1 + older.length :=
      noProgressLoop_uniform hne hrest
    simp only [noProgressLoop, hn, ha, hr, hne, List.length_cons]
    simpa [Nat.add_comm] using this

-- ---
-- The window after identical calls
-- ---

section
variable {host : Host} {config : Option ToolLoopDetectionConfig} {call : Call} {hash : String}

/-- The record a completed call leaves. -/
def Call.record (host : Host) (call : Call) (hash : String) (toolCallId : Option String) :
    ToolCallRecord :=
  { toolName := call.toolName, argsHash := hashToolCall host call.toolName call.params,
    toolCallId, resultHash := some hash }

theorem recordToolCall_snoc (host : Host) (config : Option ToolLoopDetectionConfig) (history : List ToolCallRecord) (toolName : String) (params : Json)
    (toolCallId : Option String) :
    ∃ older, recordToolCall host history toolName params toolCallId config =
        older ++ [{ toolName, argsHash := hashToolCall host toolName params, toolCallId }] ∧
      ∀ r, (older ++ [r]).rtake (resolveLoopDetectionConfig config).historySize =
        (history ++ [r]).rtake (resolveLoopDetectionConfig config).historySize := by
  have hsize := (resolveLoopDetectionConfig_ordered config).1
  simp only [recordToolCall]
  split
  · rename_i hlong
    cases history with
    | nil => simp at hlong; omega
    | cons oldest rest =>
      refine ⟨rest, by simp, fun r => ?_⟩
      have hlong : (resolveLoopDetectionConfig config).historySize ≤ (rest ++ [r]).length := by
        simp at hlong ⊢
        omega
      exact (rtake_append_of_le [oldest] (rest ++ [r]) hlong).symm
  · exact ⟨history, rfl, fun _ => rfl⟩

/-- A call's outcome lands on the record the call pushed, whatever its id. -/
theorem recordCall_eq (hhash : call.outcomeHash host = some hash) (hne : hash ≠ "")
    (toolCallId : Option String) (history : List ToolCallRecord) :
    recordCall host config call toolCallId history =
      (history ++ [call.record host hash toolCallId]).rtake
        (resolveLoopDetectionConfig config).historySize := by
  obtain ⟨older, hpush, hwindow⟩ :=
    recordToolCall_snoc host config history call.toolName call.params toolCallId
  have hawaits : awaitsOutcome call.toolName (hashToolCall host call.toolName call.params) toolCallId
      { toolName := call.toolName, argsHash := hashToolCall host call.toolName call.params,
        toolCallId } = true := by
    simp [awaitsOutcome]
  rw [← hwindow]
  simp only [recordCall, hpush, recordToolCallOutcome]
  rw [show hashToolOutcome host call.toolName call.params call.result call.error = some hash
    from hhash]
  simp [hne, setOutcome, hawaits, Call.record, List.rtake]

/-- The records of `k` completed calls. -/
def Call.records (host : Host) (call : Call) (hash : String) (ids : Nat → Option String) (k : Nat) :
    List ToolCallRecord :=
  (List.range k).map fun i => call.record host hash (ids i)

theorem recordCalls_succ_eq (hhash : call.outcomeHash host = some hash) (hne : hash ≠ "")
    (ids : Nat → Option String) (k : Nat) (history : List ToolCallRecord) :
    recordCalls host config call ids (k + 1) history =
      (history ++ call.records host hash ids (k + 1)).rtake
        (resolveLoopDetectionConfig config).historySize := by
  induction k with
  | zero => simp [recordCalls, recordCall_eq hhash hne, Call.records]
  | succ k ih =>
    rw [recordCalls, ih, recordCall_eq hhash hne, rtake_push]
    simp [Call.records, List.range_succ]

theorem recordCalls_uniform (hhash : call.outcomeHash host = some hash) (hne : hash ≠ "")
    (ids : Nat → Option String) (history : List ToolCallRecord)
    (hk : (resolveLoopDetectionConfig config).historySize ≤ k) :
    let recorded := recordCalls host config call ids k history
    recorded.length = (resolveLoopDetectionConfig config).historySize ∧
      ∀ r ∈ recorded, r.toolName = call.toolName ∧
        r.argsHash = hashToolCall host call.toolName call.params ∧ r.resultHash = some hash := by
  have hsize := (resolveLoopDetectionConfig_ordered config).1
  obtain ⟨j, rfl⟩ : ∃ j, k = j + 1 := ⟨k - 1, by omega⟩
  have hlen : (call.records host hash ids (j + 1)).length = j + 1 := by simp [Call.records]
  rw [recordCalls_succ_eq hhash hne, rtake_append_of_le _ _ (by omega)]
  refine ⟨by rw [length_rtake, hlen]; omega, fun r hr => ?_⟩
  obtain ⟨i, -, rfl⟩ := List.mem_map.mp (mem_of_mem_rtake _ hr)
  exact ⟨rfl, rfl, rfl⟩

theorem recordCalls_length_le (hhash : call.outcomeHash host = some hash) (hne : hash ≠ "")
    (ids : Nat → Option String) (history : List ToolCallRecord) (k : Nat) :
    (recordCalls host config call ids (k + 1) history).length ≤
      (resolveLoopDetectionConfig config).historySize := by
  rw [recordCalls_succ_eq hhash hne, length_rtake]
  exact Nat.min_le_left _ _

-- ---
-- The breaker
-- ---

/-- The breaker is the first check: it fires exactly on the streak. -/
theorem isBreakerVerdict_iff {history : List ToolCallRecord} {toolName : String} {params : Json}
    (henabled : (resolveLoopDetectionConfig config).enabled = true) :
    IsBreakerVerdict (detectToolCallLoop host history toolName params config) ↔
      (resolveLoopDetectionConfig config).globalCircuitBreakerThreshold ≤
        (getNoProgressStreak history toolName (hashToolCall host toolName params)).1 := by
  simp only [detectToolCallLoop, henabled, Bool.not_true, Bool.false_eq_true, ↓reduceIte]
  constructor
  · rintro ⟨stuck, hv, -, hdet⟩
    split at hv
    · assumption
    · exfalso
      repeat' split at hv
      all_goals first
        | (cases hv; simp at hdet)
        | simp at hv
  · intro h
    rw [if_pos h]
    exact ⟨_, rfl, rfl, rfl⟩

theorem outcomeHash_ne_empty (hsha : ∀ text, host.sha256 text ≠ "")
    (hhash : call.outcomeHash host = some hash) : hash ≠ "" := by
  unfold Call.outcomeHash hashToolOutcome at hhash
  split at hhash
  · cases hhash
    intro h
    have := congrArg String.length h
    simp at this
  · split at hhash
    · cases hhash
    · simp only at hhash
      repeat' split at hhash
      all_goals (cases hhash; exact hsha _)
    · cases hhash; exact hsha _

/-- After at least one recorded call a breaker's verdict needs a window as long
as the threshold. -/
theorem threshold_le_of_verdict (hhash : call.outcomeHash host = some hash) (hne : hash ≠ "")
    (henabled : (resolveLoopDetectionConfig config).enabled = true)
    (hverdict : IsBreakerVerdict (detectToolCallLoop host
      (recordCalls host config call ids (k + 1) history) call.toolName call.params config)) :
    (resolveLoopDetectionConfig config).globalCircuitBreakerThreshold ≤
      (resolveLoopDetectionConfig config).historySize := by
  have hstreak := Nat.le_trans ((isBreakerVerdict_iff henabled).mp hverdict) getNoProgressStreak_le
  exact Nat.le_trans hstreak (recordCalls_length_le hhash hne _ _ k)

end

/-- Some number of consecutive calls, each recording the same outcome, makes
every further identical call a breaker's verdict, from any history and under
any call ids. -/
def BreakerReachable (host : Host) (config : Option ToolLoopDetectionConfig) (call : Call) : Prop :=
  ∃ n, ∀ history ids k, n ≤ k → IsBreakerVerdict (detectToolCallLoop host
    (recordCalls host config call ids k history) call.toolName call.params config)

/-- The breaker is reachable exactly when the history window is at least as
long as the breaker's threshold. -/
theorem breaker_reachable_iff (host : Host) (config : Option ToolLoopDetectionConfig) (call : Call)
    (hsha : ∀ text, host.sha256 text ≠ "")
    (henabled : (resolveLoopDetectionConfig config).enabled = true)
    (hrecorded : call.outcomeHash host ≠ none) :
    BreakerReachable host config call ↔
      (resolveLoopDetectionConfig config).globalCircuitBreakerThreshold ≤
        (resolveLoopDetectionConfig config).historySize := by
  obtain ⟨hash, hhash⟩ := Option.ne_none_iff_exists'.mp hrecorded
  have hne := outcomeHash_ne_empty hsha hhash
  constructor
  · rintro ⟨n, h⟩
    exact threshold_le_of_verdict hhash hne henabled (h [] (fun _ => none) (n + 1) (by omega))
  · intro hle
    refine ⟨(resolveLoopDetectionConfig config).historySize, fun history ids k hk => ?_⟩
    obtain ⟨hlen, hall⟩ := recordCalls_uniform hhash hne ids history hk
    rw [isBreakerVerdict_iff henabled, getNoProgressStreak_uniform hne hall, hlen]
    exact hle

-- ---
-- A window shorter than the threshold
-- ---

/-- SHA-256 on the two texts the sample call hashes; any digest elsewhere. -/
def sampleHost : Host where
  sha256 text :=
    if text = "\x7b\x7d" then "44136fa355b3678a1146ad16f7e8649e94fb4fc21fe77e8310c060f61caaff8a"
    else if text = Js.quote "ok" then "c48b5b1a9776c84602de2306d7903a7241158a5077e7a8519af75c33441b8334"
    else "e3b0c44298fc1c149afbf4c8996fb92427ae41e4649b934ca495991b7852b855"
  numberText _ := "0"

def sampleCall : Call where
  toolName := "read"
  params := .obj []
  result := some (.str "ok")

theorem sampleHost_sha256_ne (text : String) : sampleHost.sha256 text ≠ "" := by
  simp only [sampleHost]
  split
  · decide
  · split <;> decide

theorem breaker_reachable_default :
    (resolveLoopDetectionConfig (some { enabled := some true })).enabled = true ∧
      BreakerReachable sampleHost (some { enabled := some true }) sampleCall :=
  ⟨by decide, (breaker_reachable_iff sampleHost (some { enabled := some true }) sampleCall
    sampleHost_sha256_ne (by decide) (by simp [Call.outcomeHash, hashToolOutcome, sampleCall])).mpr
    (by decide)⟩

/-- A window of ten calls never shows the thirty repeats the breaker counts. -/
theorem breaker_unreachable_short_window :
    ¬ BreakerReachable sampleHost
      (some { enabled := some true, historySize := some (.ofInt 10) }) sampleCall := by
  rintro ⟨n, h⟩
  have hhash : sampleCall.outcomeHash sampleHost = some _ := rfl
  have hle := threshold_le_of_verdict hhash (sampleHost_sha256_ne _) (by decide)
    (h [] (fun _ => none) (n + 1) (by omega))
  revert hle
  decide

end OpenClaw.ToolLoopDetection
