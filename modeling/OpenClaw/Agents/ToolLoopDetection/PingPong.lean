import OpenClaw.Agents.ToolLoopDetection

/-!
# Ping-pong

The calls at the end of the history that alternate between two signatures, read back
from the call that is about to go on with them.
-/

namespace OpenClaw.ToolLoopDetection

open Js (Json)

-- ---
-- Alternation
-- ---

/-- `a`, `b`, `a` and so on, newest first. -/
def Alternates (a b : String) : List ToolCallRecord → Prop
  | [] => True
  | call :: older => call.argsHash = a ∧ Alternates b a older

/-- The end of a history that alternates between two signatures, both of which occur, of
which the current call has one and the last call the other. -/
structure PingPongSuffix (history : List ToolCallRecord) (currentSignature : String)
    (calls : List ToolCallRecord) : Prop where
  suffix : calls <:+ history
  both : 2 ≤ calls.length
  alternates : ∃ other, other ≠ currentSignature ∧ Alternates other currentSignature calls.reverse

structure LongestPingPong (history : List ToolCallRecord) (currentSignature : String)
    (calls : List ToolCallRecord) : Prop where
  pingPong : PingPongSuffix history currentSignature calls
  longest (calls' : List ToolCallRecord) :
    PingPongSuffix history currentSignature calls' → calls'.length ≤ calls.length

/-- The call has the outcome that is given for its signature. -/
def HasOutcome (side : String → String) (call : ToolCallRecord) : Prop :=
  side call.argsHash ≠ "" ∧ call.resultHash = some (side call.argsHash)

/-- Each signature has one outcome throughout. -/
def ConstantOutcomes (calls : List ToolCallRecord) : Prop :=
  ∃ side : String → String, ∀ call ∈ calls, HasOutcome side call

/-- What the detector takes for no call: an empty signature, or the empty name of the tool
that was called before the last call. -/
def Nameless (currentSignature : String) (calls : List ToolCallRecord) : Prop :=
  currentSignature = "" ∨ ∃ call, calls.reverse[1]? = some call ∧ call.toolName = ""

theorem alternates_take (a b : String) (l : List ToolCallRecord) :
    Alternates a b (l.take (alternatingTail a b l)) := by
  induction l generalizing a b with
  | nil => trivial
  | cons call older ih =>
    rw [alternatingTail]
    split
    case isTrue => trivial
    case isFalse h => exact ⟨not_not.mp h, ih b a⟩

theorem alternatingTail_le (a b : String) (l : List ToolCallRecord) :
    alternatingTail a b l ≤ l.length := by
  induction l generalizing a b with
  | nil => exact le_rfl
  | cons call older ih =>
    rw [alternatingTail]
    split
    case isTrue => exact Nat.zero_le _
    case isFalse => exact Nat.succ_le_succ (ih b a)

/-- No alternating start of the list is longer. -/
theorem Alternates.length_le (h : Alternates a b l) (rest : List ToolCallRecord) :
    l.length ≤ alternatingTail a b (l ++ rest) := by
  induction l generalizing a b with
  | nil => exact Nat.zero_le _
  | cons call older ih =>
    obtain ⟨hcall, holder⟩ := h
    rw [List.cons_append, alternatingTail, if_neg (not_not.mpr hcall)]
    exact Nat.succ_le_succ (ih holder)

theorem Alternates.argsHash (h : Alternates a b l) (hmem : call ∈ l) :
    call.argsHash = a ∨ call.argsHash = b := by
  induction l generalizing a b with
  | nil => cases hmem
  | cons call' older ih =>
    obtain ⟨hcall, holder⟩ := h
    obtain rfl | hmem := List.mem_cons.mp hmem
    · exact .inl hcall
    · exact (ih holder hmem).symm

-- ---
-- The detector by the last two calls
-- ---

theorem getPingPongStreak_pair {history : List ToolCallRecord}
    (h : history.reverse = last :: second :: older) (hne : second.argsHash ≠ last.argsHash)
    (currentSignature : String) :
    getPingPongStreak history currentSignature =
      if second.argsHash = "" ∨ second.toolName = "" ∨ currentSignature ≠ second.argsHash then
        { count := 0, noProgressEvidence := false }
      else
        let tail := alternatingTail last.argsHash second.argsHash history.reverse
        let outcomes := stableOutcomes last.argsHash second.argsHash
          (history.drop (history.length - tail)) none none
        { count := tail + 1
          pairedToolName := some last.toolName
          pairedSignature := some last.argsHash
          noProgressEvidence := outcomes.1 && outcomes.2.1.isSome && outcomes.2.2.isSome } := by
  have hfind : (second :: older).find? (·.argsHash ≠ last.argsHash) = some second :=
    List.find?_cons_of_pos (by simpa using hne)
  have htail : ¬alternatingTail last.argsHash second.argsHash (last :: second :: older) < 2 := by
    simp [alternatingTail]
  unfold getPingPongStreak
  rw [h]
  simp only [hfind, htail, if_false]
  by_cases hhash : second.argsHash = ""
  · simp [hhash]
  by_cases hname : second.toolName = ""
  · simp [hname]
  by_cases hcurrent : currentSignature = second.argsHash
  · simp [hhash, hname, hcurrent]
  · simp [hcurrent]

/-- Where the last two calls have one signature, or there are not two, nothing is reported. -/
theorem getPingPongStreak_alone {history : List ToolCallRecord}
    (h : ∀ last second older, history.reverse = last :: second :: older →
      second.argsHash = last.argsHash)
    (currentSignature : String) :
    getPingPongStreak history currentSignature = { count := 0, noProgressEvidence := false } := by
  unfold getPingPongStreak
  cases hreverse : history.reverse with
  | nil => rfl
  | cons last older =>
    cases older with
    | nil => rfl
    | cons second older =>
      have hsame := h last second older hreverse
      cases hfind : (second :: older).find? (·.argsHash ≠ last.argsHash) with
      | none => simp only [hfind]
      | some other =>
        have hne : other.argsHash ≠ last.argsHash := by simpa using List.find?_some hfind
        have htail :
            alternatingTail last.argsHash other.argsHash (last :: second :: older) = 1 := by
          simp [alternatingTail, hsame, Ne.symm hne]
        simp only [hfind, htail]
        split <;> rfl

-- ---
-- Outcomes
-- ---

/-- What the scan finds on one side, once it ends well. -/
theorem stableOutcomes_sides {a b : String} (hab : a ≠ b)
    (hcalls : ∀ call ∈ calls, call.argsHash = a ∨ call.argsHash = b) (hashA hashB : Option String) :
    (stableOutcomes a b calls hashA hashB).1 = true ↔
      ∃ side : String → String, (∀ hash ∈ hashA, hash = side a) ∧ (∀ hash ∈ hashB, hash = side b) ∧
        ∀ call ∈ calls, HasOutcome side call := by
  induction calls generalizing hashA hashB with
  | nil =>
    simp only [stableOutcomes, List.not_mem_nil, false_implies, implies_true, and_true, true_iff]
    refine ⟨fun signature => (if signature = a then hashA else hashB).getD "", ?_, ?_⟩
    · intro hash hmem
      simp [Option.mem_def.mp hmem]
    · intro hash hmem
      simp [Option.mem_def.mp hmem, Ne.symm hab]
  | cons call rest ih =>
    obtain ⟨hcall, hrest⟩ := List.forall_mem_cons.mp hcalls
    -- the outcome that the assignment of hashes has to give to this call
    have hhead (hash : String) (hresult : call.resultHash = some hash) (hne : hash ≠ "")
        (side : String → String) :
        (∀ call' ∈ call :: rest, HasOutcome side call') ↔
          hash = side call.argsHash ∧ ∀ call' ∈ rest, HasOutcome side call' := by
      rw [List.forall_mem_cons, HasOutcome, hresult, Option.some.injEq]
      refine and_congr_left fun _ => ⟨And.right, fun heq => ⟨heq ▸ hne, heq⟩⟩
    rw [stableOutcomes]
    cases hresult : call.resultHash with
    | none => simp [HasOutcome, hresult]
    | some hash =>
      by_cases hempty : hash = ""
      · simp only [hempty, if_true, Bool.false_eq_true, false_iff]
        rintro ⟨side, -, -, hside⟩
        obtain ⟨hne, heq⟩ := hside call List.mem_cons_self
        rw [hresult, hempty, Option.some.injEq] at heq
        exact hne heq.symm
      · simp only [hempty, if_false, hhead hash hresult hempty]
        obtain hargs | hargs := hcall
        · cases hashA with
          | none => simp [hargs, ih hrest, and_left_comm]
          | some hashA =>
            by_cases hsame : hashA = hash
            · simp [hargs, hsame, ih hrest]
              exact exists_congr fun side =>
                ⟨fun ⟨h, hb, hr⟩ => ⟨h, hb, h, hr⟩, fun ⟨h, hb, _, hr⟩ => ⟨h, hb, hr⟩⟩
            · simp [hargs, hsame]
              intro side hA _ hcall
              exact absurd (hA.trans hcall.symm) hsame
        · have hneA : call.argsHash ≠ a := fun h => hab (h.symm.trans hargs)
          cases hashB with
          | none => simp [hargs, hab.symm, ih hrest, and_left_comm]
          | some hashB =>
            by_cases hsame : hashB = hash
            · simp [hargs, hab.symm, hsame, ih hrest]
            · simp [hargs, hab.symm, hsame]
              intro side _ hB hcall
              exact absurd (hB.trans hcall.symm) hsame

/-- A scan that ends well has found the outcome of every side it met. -/
theorem stableOutcomes_found {a b : String} {hashA hashB : Option String}
    (h : (stableOutcomes a b calls hashA hashB).1 = true) :
    ((hashA.isSome = true ∨ ∃ call ∈ calls, call.argsHash = a) →
        (stableOutcomes a b calls hashA hashB).2.1.isSome = true) ∧
      ((hashB.isSome = true ∨ ∃ call ∈ calls, call.argsHash ≠ a ∧ call.argsHash = b) →
        (stableOutcomes a b calls hashA hashB).2.2.isSome = true) := by
  induction calls generalizing hashA hashB with
  | nil => simp [stableOutcomes]
  | cons call rest ih =>
    rw [stableOutcomes] at h ⊢
    cases hresult : call.resultHash with
    | none => simp [hresult] at h
    | some hash =>
      simp only [hresult] at h ⊢
      by_cases hempty : hash = ""
      · simp [hempty] at h
      by_cases hargsA : call.argsHash = a
      · -- the other side is met in the rest only
        cases hashA with
        | none =>
          simp only [hempty, hargsA, if_false, if_true] at h ⊢
          simpa [hargsA] using ih h
        | some hashA =>
          by_cases hsame : hashA = hash
          · simp only [hempty, hargsA, hsame, if_false, if_true, reduceCtorEq, ne_eq,
              not_true_eq_false] at h ⊢
            simpa [hargsA] using ih h
          · simp [hempty, hargsA, hsame] at h
      · by_cases hargsB : call.argsHash = b
        · have hba : b ≠ a := fun hba => hargsA (hargsB.trans hba)
          cases hashB with
          | none =>
            simp only [hempty, hargsB, hba, if_false, if_true] at h ⊢
            simpa [hargsB, hba] using ih h
          | some hashB =>
            by_cases hsame : hashB = hash
            · simp only [hempty, hargsB, hba, hsame, if_false, if_true, reduceCtorEq, ne_eq,
                not_true_eq_false] at h ⊢
              simpa [hargsB, hba] using ih h
            · simp [hempty, hargsB, hba, hsame] at h
        · simp [hempty, hargsA, hargsB] at h

-- ---
-- The longest alternation
-- ---

theorem PingPongSuffix.shape (h : PingPongSuffix history currentSignature calls) :
    ∃ last second older rest, calls.reverse = last :: second :: older ∧
      history.reverse = calls.reverse ++ rest ∧ last.argsHash ≠ currentSignature ∧
      second.argsHash = currentSignature ∧
      Alternates last.argsHash currentSignature calls.reverse := by
  obtain ⟨other, hother, halternates⟩ := h.alternates
  obtain ⟨rest, hrest⟩ := List.reverse_prefix.mpr h.suffix
  have hlength : 2 ≤ calls.reverse.length := by simpa using h.both
  cases hcalls : calls.reverse with
  | nil => simp [hcalls] at hlength
  | cons last older =>
    cases older with
    | nil => simp [hcalls] at hlength
    | cons second older =>
      rw [hcalls] at halternates hrest
      obtain ⟨rfl, hsecond, holder⟩ := halternates
      exact ⟨last, second, older, rest, rfl, hrest.symm, hother, hsecond, rfl, hsecond, holder⟩

/-- The tail that the detector finds is an alternation. -/
theorem pingPongSuffix_tail {history : List ToolCallRecord}
    (h : history.reverse = last :: second :: older) (hne : second.argsHash ≠ last.argsHash) :
    PingPongSuffix history second.argsHash
      (history.drop
        (history.length - alternatingTail last.argsHash second.argsHash history.reverse)) where
  suffix := List.drop_suffix _ _
  both := by
    have htail := alternatingTail_le last.argsHash second.argsHash history.reverse
    have htwo : 2 ≤ alternatingTail last.argsHash second.argsHash history.reverse := by
      rw [h]
      simp [alternatingTail]
    rw [List.length_reverse] at htail
    rw [List.length_drop]
    omega
  alternates := by
    refine ⟨last.argsHash, Ne.symm hne, ?_⟩
    rw [← List.take_reverse]
    exact alternates_take _ _ _

/-- The longest alternation is the tail that the detector finds. -/
theorem LongestPingPong.eq_drop (h : LongestPingPong history currentSignature calls)
    (hreverse : history.reverse = last :: second :: older)
    (hlast : last.argsHash ≠ currentSignature) (hsecond : second.argsHash = currentSignature) :
    alternatingTail last.argsHash second.argsHash history.reverse = calls.length ∧
      history.drop (history.length - calls.length) = calls := by
  subst hsecond
  have hdrop : history.drop (history.length - calls.length) = calls :=
    (List.suffix_iff_eq_drop.mp h.pingPong.suffix).symm
  refine ⟨Nat.le_antisymm ?_ ?_, hdrop⟩
  · have htail := alternatingTail_le last.argsHash second.argsHash history.reverse
    have hle := h.longest _ (pingPongSuffix_tail hreverse (Ne.symm hlast))
    rw [List.length_reverse] at htail
    rw [List.length_drop] at hle
    omega
  · obtain ⟨last', second', older', rest, hcalls, hrest, -, -, halternates⟩ := h.pingPong.shape
    have hsame : last' = last := by
      rw [hcalls, hreverse] at hrest
      exact (List.cons.inj hrest).1.symm
    subst hsame
    rw [hrest, ← List.length_reverse]
    exact halternates.length_le rest

theorem getPingPongStreak_of_none (h : ∀ calls, ¬PingPongSuffix history currentSignature calls) :
    getPingPongStreak history currentSignature = { count := 0, noProgressEvidence := false } := by
  by_cases hpair : ∃ last second older, history.reverse = last :: second :: older ∧
      second.argsHash ≠ last.argsHash
  · obtain ⟨last, second, older, hreverse, hne⟩ := hpair
    have hcurrent : currentSignature ≠ second.argsHash := by
      rintro rfl
      exact h _ (pingPongSuffix_tail hreverse hne)
    rw [getPingPongStreak_pair hreverse hne, if_pos (.inr (.inr hcurrent))]
  · refine getPingPongStreak_alone ?_ currentSignature
    intro last second older hreverse
    by_contra hne
    exact hpair ⟨last, second, older, hreverse, hne⟩

theorem getPingPongStreak_of_nameless (h : PingPongSuffix history currentSignature calls)
    (hnameless : Nameless currentSignature calls) :
    getPingPongStreak history currentSignature = { count := 0, noProgressEvidence := false } := by
  obtain ⟨last, second, older, rest, hcalls, hrest, hlast, rfl, -⟩ := h.shape
  rw [hcalls] at hrest
  rw [getPingPongStreak_pair hrest (Ne.symm hlast), if_pos]
  obtain hempty | ⟨call, hcall, hname⟩ := hnameless
  · exact .inl hempty
  · rw [hcalls] at hcall
    cases hcall
    exact .inr (.inl hname)

theorem getPingPongStreak_of_longest (h : LongestPingPong history currentSignature calls)
    (hnamed : ¬Nameless currentSignature calls) :
    (getPingPongStreak history currentSignature).count = calls.length + 1 ∧
      ((getPingPongStreak history currentSignature).noProgressEvidence = true ↔
        ConstantOutcomes calls) := by
  obtain ⟨last, second, older, rest, hcalls, hrest, hlast, hsecond, halternates⟩ := h.pingPong.shape
  have hreverse : history.reverse = last :: second :: (older ++ rest) := by rw [hrest, hcalls]; rfl
  obtain ⟨htail, hdrop⟩ := h.eq_drop hreverse hlast hsecond
  have hname :
      ¬(second.argsHash = "" ∨ second.toolName = "" ∨ currentSignature ≠ second.argsHash) := by
    rintro (hempty | hname | hne)
    · exact hnamed (.inl (hsecond.symm.trans hempty))
    · exact hnamed (.inr ⟨second, by rw [hcalls]; rfl, hname⟩)
    · exact hne hsecond.symm
  rw [getPingPongStreak_pair hreverse (hsecond ▸ Ne.symm hlast), if_neg hname]
  simp only [htail, hdrop, true_and]
  subst hsecond
  have hsides (call) (hcall : call ∈ calls) :
      call.argsHash = last.argsHash ∨ call.argsHash = second.argsHash :=
    halternates.argsHash (List.mem_reverse.mpr hcall)
  have hstable := stableOutcomes_sides hlast hsides none none
  simp only [Option.mem_def, reduceCtorEq, false_implies, implies_true, true_and] at hstable
  have hmem (call) (hcall : call ∈ calls.reverse) : call ∈ calls := List.mem_reverse.mp hcall
  have hlastMem : last ∈ calls := hmem last (by simp [hcalls])
  have hsecondMem : second ∈ calls := hmem second (by simp [hcalls])
  rw [ConstantOutcomes, ← hstable, Bool.and_eq_true, Bool.and_eq_true]
  refine ⟨fun hevidence => hevidence.1.1, fun hevidence => ?_⟩
  obtain ⟨hfoundA, hfoundB⟩ := stableOutcomes_found hevidence
  exact ⟨⟨hevidence, hfoundA (.inr ⟨last, hlastMem, rfl⟩)⟩,
    hfoundB (.inr ⟨second, hsecondMem, Ne.symm hlast, rfl⟩)⟩

-- ---
-- The verdict
-- ---

/-- A verdict without its texts. -/
structure Verdict where
  level : Level
  detector : LoopDetectorKind
  count : Nat
  deriving DecidableEq

def Stuck.verdict (stuck : Stuck) : Verdict := ⟨stuck.level, stuck.detector, stuck.count⟩

section
variable (resolved : ResolvedLoopDetectionConfig)

def circuitBreaker? (streak : Nat) : Option Verdict :=
  if resolved.globalCircuitBreakerThreshold ≤ streak then
    some ⟨.critical, .global_circuit_breaker, streak⟩
  else none

def knownPoll? (knownPollTool : Bool) (streak : Nat) : Option Verdict :=
  if knownPollTool && resolved.detectors.knownPollNoProgress &&
      resolved.warningThreshold ≤ streak then
    some ⟨if resolved.criticalThreshold ≤ streak then .critical else .warning,
      .known_poll_no_progress, streak⟩
  else none

def pingPong? (pingPong : PingPong) : Option Verdict :=
  if resolved.detectors.pingPong && resolved.warningThreshold ≤ pingPong.count then
    let critical := resolved.criticalThreshold ≤ pingPong.count && pingPong.noProgressEvidence
    some ⟨if critical then .critical else .warning, .ping_pong, pingPong.count⟩
  else none

def genericRepeat? (knownPollTool : Bool) (recentCount : Nat) : Option Verdict :=
  if !knownPollTool && resolved.detectors.genericRepeat &&
      resolved.warningThreshold ≤ recentCount then
    some ⟨.warning, .generic_repeat, recentCount⟩
  else none

end

/-- The first of the detectors that has a verdict gives it. -/
def firstVerdict (host : Host) (history : List ToolCallRecord) (toolName : String) (params : Json)
    (config : Option ToolLoopDetectionConfig) : Option Verdict :=
  let resolved := resolveLoopDetectionConfig config
  let currentHash := hashToolCall host toolName params
  let streak := (getNoProgressStreak history toolName currentHash).1
  let knownPollTool := isKnownPollToolCall toolName params
  let recentCount := history.countP fun h => h.toolName = toolName && h.argsHash = currentHash
  if resolved.enabled then
    [circuitBreaker? resolved streak, knownPoll? resolved knownPollTool streak,
      pingPong? resolved (getPingPongStreak history currentHash),
      genericRepeat? resolved knownPollTool recentCount].findSome? id
  else none

theorem detectToolCallLoop_verdict (host : Host) (history : List ToolCallRecord) (toolName : String)
    (params : Json) (config : Option ToolLoopDetectionConfig) :
    (detectToolCallLoop host history toolName params config).map Stuck.verdict =
      firstVerdict host history toolName params config := by
  obtain ⟨-, -, hcritical, -⟩ := resolveLoopDetectionConfig_ordered config
  unfold detectToolCallLoop firstVerdict
  simp only [List.findSome?_cons, List.findSome?_nil, id]
  generalize resolveLoopDetectionConfig config = resolved at *
  generalize getNoProgressStreak history toolName (hashToolCall host toolName params) = streak at *
  generalize getPingPongStreak history (hashToolCall host toolName params) = pingPong at *
  generalize isKnownPollToolCall toolName params = knownPollTool at *
  cases resolved.enabled with
  | false => rfl
  | true =>
    simp only [Bool.not_true, Bool.false_eq_true, if_false, if_true]
    by_cases hbreaker : resolved.globalCircuitBreakerThreshold ≤ streak.1
    · simp [circuitBreaker?, hbreaker, Stuck.verdict]
    simp only [circuitBreaker?, ge_iff_le, hbreaker, if_false]
    by_cases hpoll : (knownPollTool && resolved.detectors.knownPollNoProgress) = true ∧
        resolved.warningThreshold ≤ streak.1
    · obtain ⟨hon, hwarning⟩ := hpoll
      by_cases hlevel : resolved.criticalThreshold ≤ streak.1
      · simp [knownPoll?, hon, hwarning, hlevel, Stuck.verdict]
      · simp [knownPoll?, hon, hwarning, hlevel, Stuck.verdict]
    have hpollCritical : ¬((knownPollTool && resolved.detectors.knownPollNoProgress) = true ∧
        resolved.criticalThreshold ≤ streak.1) :=
      fun h => hpoll ⟨h.1, hcritical.le.trans h.2⟩
    simp only [knownPoll?, Bool.and_eq_true, decide_eq_true_eq] at hpoll hpollCritical ⊢
    simp only [hpoll, hpollCritical, if_false]
    by_cases hpingPong : resolved.detectors.pingPong = true ∧
        resolved.warningThreshold ≤ pingPong.count
    · obtain ⟨hon, hwarning⟩ := hpingPong
      by_cases hlevel : resolved.criticalThreshold ≤ pingPong.count ∧
          pingPong.noProgressEvidence = true
      · simp [pingPong?, hon, hwarning, hlevel, Stuck.verdict]
      · simp [pingPong?, hon, hwarning, hlevel, Stuck.verdict]
    have hpingPongCritical : ¬((resolved.detectors.pingPong = true ∧
        resolved.criticalThreshold ≤ pingPong.count) ∧ pingPong.noProgressEvidence = true) :=
      fun h => hpingPong ⟨h.1.1, hcritical.le.trans h.1.2⟩
    simp only [pingPong?, Bool.and_eq_true, decide_eq_true_eq, hpingPong, hpingPongCritical,
      if_false]
    by_cases hgeneric : (!knownPollTool && resolved.detectors.genericRepeat) = true ∧
        resolved.warningThreshold ≤ history.countP fun h =>
          h.toolName = toolName && h.argsHash = hashToolCall host toolName params
    · obtain ⟨hon, hwarning⟩ := hgeneric
      have hboth : knownPollTool = false ∧ resolved.detectors.genericRepeat = true := by
        simpa using hon
      simp [genericRepeat?, hboth, hwarning, Stuck.verdict]
    · simp only [genericRepeat?, Bool.and_eq_true, decide_eq_true_eq] at hgeneric ⊢
      simp only [hgeneric, if_false]
      rfl

-- ---
-- Streak and verdict
-- ---

/-- What a report says about the longest alternation there is. -/
def ReportsPingPong (history : List ToolCallRecord) (currentSignature : String)
    (report : PingPong) : Prop :=
  ((∀ calls, ¬PingPongSuffix history currentSignature calls) →
      report.count = 0 ∧ report.noProgressEvidence = false) ∧
    ∀ calls, LongestPingPong history currentSignature calls →
      (Nameless currentSignature calls → report.count = 0 ∧ report.noProgressEvidence = false) ∧
        (¬Nameless currentSignature calls → report.count = calls.length + 1 ∧
          (report.noProgressEvidence = true ↔ ConstantOutcomes calls))

theorem pingPong_reported_and_first_verdict :
    (∀ (history : List ToolCallRecord) (currentSignature : String),
      ReportsPingPong history currentSignature (getPingPongStreak history currentSignature)) ∧
      ∀ (host : Host) (history : List ToolCallRecord) (toolName : String) (params : Json)
        (config : Option ToolLoopDetectionConfig),
        (detectToolCallLoop host history toolName params config).map Stuck.verdict =
          firstVerdict host history toolName params config := by
  refine ⟨fun history currentSignature => ⟨fun hnone => ?_, fun calls hlongest => ⟨?_, ?_⟩⟩,
    detectToolCallLoop_verdict⟩
  · rw [getPingPongStreak_of_none hnone]
    exact ⟨rfl, rfl⟩
  · intro hnameless
    rw [getPingPongStreak_of_nameless hlongest.pingPong hnameless]
    exact ⟨rfl, rfl⟩
  · exact getPingPongStreak_of_longest hlongest

/-- A tool without a name, and one with a name. -/
def namelessCalls : List ToolCallRecord :=
  [{ toolName := "", argsHash := ":x", resultHash := some "r" },
    { toolName := "b", argsHash := "b:y", resultHash := some "s" }]

theorem not_pingPong_counts_longest :
    ¬∀ (history : List ToolCallRecord) (currentSignature : String) (calls : List ToolCallRecord),
      LongestPingPong history currentSignature calls →
        (getPingPongStreak history currentSignature).count = calls.length + 1 := by
  intro hall
  have hlongest : LongestPingPong namelessCalls ":x" namelessCalls :=
    { pingPong := ⟨List.suffix_refl _, le_rfl, "b:y", by decide, rfl, rfl, trivial⟩
      longest := fun calls hcalls => hcalls.suffix.length_le }
  have hcount := hall namelessCalls ":x" namelessCalls hlongest
  revert hcount
  decide

end OpenClaw.ToolLoopDetection
