import OpenClaw.Agents.ToolLoopDetection

/-!
# The history of tool calls

Over any run of recorded calls and outcomes the history is a window of what was recorded, in
its order, and an outcome sets the result of one record at most.
-/

namespace OpenClaw.ToolLoopDetection

open Js (Json)

/-- A call of `recordToolCall` or `recordToolCallOutcome`, under its own config. -/
inductive Recording where
  | call (toolName : String) (params : Json) (toolCallId : Option String)
    (config : Option ToolLoopDetectionConfig)
  | outcome (params : OutcomeParams) (config : Option ToolLoopDetectionConfig)

def Recording.config : Recording → Option ToolLoopDetectionConfig
  | .call _ _ _ config | .outcome _ config => config

def Recording.historySize (r : Recording) : Nat := (resolveLoopDetectionConfig r.config).historySize

/-- A record without its result. -/
structure CallKey where
  toolName : String
  argsHash : String
  toolCallId : Option String

def ToolCallRecord.key (call : ToolCallRecord) : CallKey :=
  ⟨call.toolName, call.argsHash, call.toolCallId⟩

section
variable (host : Host)

def Recording.apply (history : List ToolCallRecord) : Recording → List ToolCallRecord
  | .call toolName params toolCallId config =>
    recordToolCall host history toolName params toolCallId config
  | .outcome params config => recordToolCallOutcome host history params config

def Recording.key : Recording → CallKey
  | .call toolName params toolCallId _ => ⟨toolName, hashToolCall host toolName params, toolCallId⟩
  | .outcome params _ =>
    ⟨params.toolName, hashToolCall host params.toolName params.toolParams, params.toolCallId⟩

/-- The result an outcome records. -/
def OutcomeParams.hash? (params : OutcomeParams) : Option String :=
  (hashToolOutcome host params.toolName params.toolParams params.result params.error).filter
    (· ≠ "")

/-- Whether a new record is pushed: an outcome is pushed if no record awaits it. -/
def Recording.pushes (history : List ToolCallRecord) : Recording → Bool
  | .call .. => true
  | .outcome params _ =>
    (params.hash? host).isSome &&
      !history.any (awaitsOutcome params.toolName
        (hashToolCall host params.toolName params.toolParams) params.toolCallId)

/-- The history, and the keys of all records pushed so far. -/
structure Recorded where
  history : List ToolCallRecord := []
  pushed : List CallKey := []

def Recorded.step (s : Recorded) (r : Recording) : Recorded where
  history := r.apply host s.history
  pushed := if r.pushes host s.history then s.pushed ++ [r.key host] else s.pushed

def recordAll (recordings : List Recording) : Recorded := recordings.foldl (Recorded.step host) {}

/-- What an outcome does to the records before old ones are dropped: it sets the result of one
that has none, of its id where it has one, or pushes a new record. -/
inductive Lands (params : OutcomeParams) (hash : String) :
    List ToolCallRecord → List ToolCallRecord → Prop
  | set (older : List ToolCallRecord) (call : ToolCallRecord) (newer : List ToolCallRecord)
    (hcall : call.resultHash = none)
    (hid : params.toolCallId = none ∨ params.toolCallId = some "" ∨
      call.toolCallId = params.toolCallId)
    (hkey : call.toolName = params.toolName ∧
      call.argsHash = hashToolCall host params.toolName params.toolParams) :
    Lands params hash (older ++ call :: newer)
      (older ++ { call with resultHash := some hash } :: newer)
  | push (history : List ToolCallRecord) : Lands params hash history
    (history ++ [{ toolName := params.toolName,
                   argsHash := hashToolCall host params.toolName params.toolParams,
                   toolCallId := params.toolCallId, resultHash := some hash }])

end

-- ---
-- Outcomes
-- ---

section
variable {host : Host}

theorem setOutcome_eq_some
    (h : setOutcome toolName argsHash toolCallId resultHash reversed = some marked) :
    ∃ newer call older, reversed = newer ++ call :: older ∧
      awaitsOutcome toolName argsHash toolCallId call = true ∧
      marked = newer ++ { call with resultHash := some resultHash } :: older := by
  induction reversed generalizing marked with
  | nil => cases h
  | cons call older ih =>
    rw [setOutcome] at h
    split at h
    · rename_i hawaits
      cases h
      exact ⟨[], call, older, rfl, hawaits, rfl⟩
    · obtain ⟨marked, hmarked, rfl⟩ := Option.map_eq_some_iff.1 h
      obtain ⟨newer, found, rest, rfl, hawaits, rfl⟩ := ih hmarked
      exact ⟨call :: newer, found, rest, rfl, hawaits, rfl⟩

theorem setOutcome_isSome :
    (setOutcome toolName argsHash toolCallId resultHash reversed).isSome =
      reversed.any (awaitsOutcome toolName argsHash toolCallId) := by
  induction reversed with
  | nil => rfl
  | cons call older ih =>
    rw [setOutcome, List.any_cons]
    split
    · rename_i hawaits
      rw [hawaits]
      rfl
    · rename_i hawaits
      rw [Option.isSome_map, ih, Bool.eq_false_iff.2 hawaits, Bool.false_or]

theorem awaitsOutcome_eq_true (h : awaitsOutcome toolName argsHash toolCallId call = true) :
    (toolCallId = none ∨ toolCallId = some "" ∨ call.toolCallId = toolCallId) ∧
      (call.toolName = toolName ∧ call.argsHash = argsHash) ∧ call.resultHash = none := by
  simpa [awaitsOutcome, or_assoc, and_assoc] using h

/-- An outcome without a result changes nothing, any other lands. -/
theorem recordToolCallOutcome_spec (host : Host) (history : List ToolCallRecord)
    (params : OutcomeParams) (config : Option ToolLoopDetectionConfig) :
    let r : Recording := .outcome params config
    (params.hash? host = none ∧ recordToolCallOutcome host history params config = history) ∨
      ∃ hash recorded, params.hash? host = some hash ∧ Lands host params hash history recorded ∧
        recorded.map ToolCallRecord.key =
          history.map ToolCallRecord.key ++ (if r.pushes host history then [r.key host] else []) ∧
        recordToolCallOutcome host history params config =
          recorded.drop (recorded.length - r.historySize) := by
  intro r
  have hfilter : params.hash? host =
      (hashToolOutcome host params.toolName params.toolParams params.result params.error).filter
        (· ≠ "") := rfl
  simp only [recordToolCallOutcome]
  cases hhash : hashToolOutcome host params.toolName params.toolParams params.result
    params.error with
  | none => exact .inl ⟨by rw [hfilter, hhash]; rfl, rfl⟩
  | some hash =>
    by_cases hempty : hash = ""
    · exact .inl ⟨by rw [hfilter, hhash, hempty]; rfl, if_pos hempty⟩
    have hsome : params.hash? host = some hash := by simp [hfilter, hhash, hempty]
    have hpushes : r.pushes host history = !(setOutcome params.toolName
        (hashToolCall host params.toolName params.toolParams) params.toolCallId hash
        history.reverse).isSome := by
      rw [setOutcome_isSome, List.any_reverse]
      simp only [r, Recording.pushes, hsome, Option.isSome_some, Bool.true_and]
    dsimp only
    rw [if_neg hempty]
    cases hmarked : setOutcome params.toolName (hashToolCall host params.toolName params.toolParams)
        params.toolCallId hash history.reverse with
    | none =>
      refine .inr ⟨hash, _, hsome, .push history, ?_, rfl⟩
      rw [hpushes, hmarked]
      exact List.map_append
    | some marked =>
      obtain ⟨newer, call, older, hreversed, hawaits, rfl⟩ := setOutcome_eq_some hmarked
      obtain ⟨hid, hkey, hcall⟩ := awaitsOutcome_eq_true hawaits
      have hhistory : history = older.reverse ++ call :: newer.reverse := by
        rw [← history.reverse_reverse, hreversed]
        simp
      refine .inr ⟨hash, older.reverse ++ { call with resultHash := some hash } :: newer.reverse,
        hsome, ?_, ?_, by simp [r, Recording.historySize, Recording.config]⟩
      · rw [hhistory]
        exact .set older.reverse call newer.reverse hcall hid hkey
      · rw [hpushes, hmarked]
        simp [hhistory, ToolCallRecord.key]

-- ---
-- Runs
-- ---

/-- The history is a window of what was pushed, of at most `size` records. -/
structure Windowed (size : Nat) (s : Recorded) : Prop where
  length_le : s.history.length ≤ size
  order : s.history.map ToolCallRecord.key <:+ s.pushed

theorem recordToolCall_spec (host : Host) (history : List ToolCallRecord) (toolName : String)
    (params : Json) (toolCallId : Option String) (config : Option ToolLoopDetectionConfig) :
    ∃ k, (recordToolCall host history toolName params toolCallId config).map ToolCallRecord.key =
        (history.map ToolCallRecord.key ++
          [(⟨toolName, hashToolCall host toolName params, toolCallId⟩ : CallKey)]).drop k ∧
      (recordToolCall host history toolName params toolCallId config).length ≤
        max history.length (resolveLoopDetectionConfig config).historySize := by
  simp only [recordToolCall]
  split
  · refine ⟨1, by rw [List.map_drop, List.map_append]; rfl, ?_⟩
    rw [List.length_drop, List.length_append, List.length_singleton, Nat.add_sub_cancel]
    exact le_max_left _ _
  · rename_i hshort
    exact ⟨0, by rw [List.map_append]; rfl, (Nat.not_lt.1 hshort).trans (le_max_right _ _)⟩

theorem Windowed.step (h : Windowed size s) (hsize : r.historySize ≤ size) :
    Windowed size (s.step host r) := by
  have hsuffix (keys : List CallKey) :
      s.history.map ToolCallRecord.key ++ keys <:+ s.pushed ++ keys := by
    obtain ⟨dropped, hdropped⟩ := h.order
    exact ⟨dropped, by rw [← hdropped, List.append_assoc]⟩
  cases r with
  | call toolName params toolCallId config =>
    obtain ⟨k, hkeys, hlength⟩ :=
      recordToolCall_spec host s.history toolName params toolCallId config
    refine ⟨hlength.trans (max_le h.length_le hsize), ?_⟩
    simp only [Recorded.step, Recording.apply, Recording.pushes, if_true, hkeys]
    exact (List.drop_suffix k _).trans (hsuffix _)
  | outcome params config =>
    obtain ⟨hhash, hsame⟩ | ⟨hash, recorded, hhash, -, hkeys, hdrop⟩ :=
      recordToolCallOutcome_spec host s.history params config
    · have hpushes : (Recording.outcome params config).pushes host s.history = false := by
        simp only [Recording.pushes, hhash, Option.isSome_none, Bool.false_and]
      simp only [Recorded.step, Recording.apply, hsame, hpushes, Bool.false_eq_true, if_false]
      exact ⟨h.length_le, h.order⟩
    · constructor
      · simp only [Recorded.step, Recording.apply, hdrop, List.length_drop]
        omega
      · simp only [Recorded.step, Recording.apply, hdrop, List.map_drop, hkeys]
        refine (List.drop_suffix _ _).trans ?_
        have hall := hsuffix (if (Recording.outcome params config).pushes host s.history then
          [(Recording.outcome params config).key host] else [])
        split at hall
        · rename_i hpushes
          simpa only [hpushes, if_true] using hall
        · rename_i hpushes
          simpa only [hpushes, if_false, List.append_nil, Bool.false_eq_true] using hall

theorem Windowed.recordAll (host : Host) (hsize : ∀ r ∈ recordings, r.historySize ≤ size) :
    Windowed size (recordAll host recordings) := by
  have hrun : ∀ s, Windowed size s → Windowed size (recordings.foldl (Recorded.step host) s) := by
    intro s hs
    induction recordings generalizing s with
    | nil => exact hs
    | cons r rest ih =>
      obtain ⟨hr, hrest⟩ := List.forall_mem_cons.1 hsize
      exact ih hrest _ (hs.step hr)
  exact hrun {} ⟨Nat.zero_le _, List.suffix_refl _⟩

/-- What the history of a run is, and what the next outcome does to it. -/
structure HistoryLaw (host : Host) (size : Nat) (recordings : List Recording) : Prop where
  window : Windowed size (recordAll host recordings)
  outcome : ∀ params config hash, params.hash? host = some hash →
    ∃ recorded, Lands host params hash (recordAll host recordings).history recorded ∧
      recordToolCallOutcome host (recordAll host recordings).history params config <:+ recorded
  noResult : ∀ params config, params.hash? host = none →
    recordToolCallOutcome host (recordAll host recordings).history params config =
      (recordAll host recordings).history

theorem toolCallHistory_law (host : Host) (recordings : List Recording)
    (hsize : ∀ r ∈ recordings, r.historySize ≤ size) : HistoryLaw host size recordings := by
  refine ⟨.recordAll host hsize, fun params config hash hhash => ?_, fun params config hhash => ?_⟩
  · obtain ⟨hnone, -⟩ | ⟨hash', recorded, hhash', hlands, -, hdrop⟩ :=
      recordToolCallOutcome_spec host (recordAll host recordings).history params config
    · rw [hhash] at hnone
      cases hnone
    · rw [hhash] at hhash'
      cases hhash'
      exact ⟨recorded, hlands, hdrop ▸ List.drop_suffix _ _⟩
  · obtain ⟨-, hsame⟩ | ⟨hash, recorded, hhash', -⟩ :=
      recordToolCallOutcome_spec host (recordAll host recordings).history params config
    · exact hsame
    · rw [hhash] at hhash'
      cases hhash'

end

/-- Two calls in a window of one. -/
theorem historyLaw_ofOne :
    let config : Option ToolLoopDetectionConfig := some { historySize := some (.fin 1) }
    HistoryLaw ⟨fun text => text, fun _ => "0"⟩ 1
      [.call "read" .null (some "a") config, .call "read" .null (some "b") config] := by
  intro config
  exact toolCallHistory_law _ _ (List.forall_mem_cons.2 ⟨by decide, List.forall_mem_cons.2
    ⟨by decide, fun _ h => absurd h List.not_mem_nil⟩⟩)

end OpenClaw.ToolLoopDetection
