import OpenClaw.Infra.Exec.ShellAllowlist

/-!
# Shell commands and their parts

A shell command is let through just where each of its parts is, and what is kept of the
segments stands at their places.
-/

namespace OpenClaw.Exec

open Js

section
variable (host : Host) {Entry : Type} (context : ExecAllowlistContext Entry)

-- ---
-- Segments in order
-- ---

/-- What a segment of a command comes to. -/
def segmentOutcome (segment : ExecCommandSegment) : SegmentOutcome Entry :=
  evaluateSegment host context
    (some (evaluateSegments host context (MAX_SHELL_WRAPPER_INLINE_EVAL_DEPTH - 2))) segment

/-- The segment is let through. -/
def LetThrough (segment : ExecCommandSegment) : Prop :=
  (segmentOutcome host context segment).satisfiedBy ≠ none

/-- What is kept stands at the places of the first segments. -/
structure KeptOf (looked : List ExecCommandSegment) (entries : List (Option Entry))
    (satisfiedBy : List (Option ExecSegmentSatisfiedBy)) : Prop where
  entries_eq : entries = looked.map fun segment => (segmentOutcome host context segment).entry
  satisfiedBy_eq :
    satisfiedBy = looked.map fun segment => (segmentOutcome host context segment).satisfiedBy

/-- An evaluation of segments: all of them are kept if they are let through, and else those up
to the first that is not, or none. -/
structure Evaluates (segments : List ExecCommandSegment) (satisfied : Bool)
    (entries : List (Option Entry)) (satisfiedBy : List (Option ExecSegmentSatisfiedBy)) :
    Prop where
  through : satisfied = true → ∀ segment ∈ segments, LetThrough host context segment
  whole : satisfied = true → KeptOf host context segments entries satisfiedBy
  front : ∃ looked, looked <+: segments ∧ KeptOf host context looked entries satisfiedBy

variable {host context}

theorem KeptOf.append (h : KeptOf host context looked entries satisfiedBy)
    (h' : KeptOf host context looked' entries' satisfiedBy') :
    KeptOf host context (looked ++ looked') (entries ++ entries') (satisfiedBy ++ satisfiedBy') :=
  ⟨by rw [h.entries_eq, h'.entries_eq, List.map_append],
    by rw [h.satisfiedBy_eq, h'.satisfiedBy_eq, List.map_append]⟩

theorem KeptOf.nil : KeptOf host context [] ([] : List (Option Entry)) [] := ⟨rfl, rfl⟩

theorem Evaluates.nil : Evaluates host context [] true ([] : List (Option Entry)) [] :=
  ⟨by simp, fun _ => .nil, [], List.nil_prefix, .nil⟩

/-- After segments that are let through. -/
theorem Evaluates.after (hfirst : KeptOf host context first entries satisfiedBy)
    (hthrough : ∀ segment ∈ first, LetThrough host context segment)
    (h : Evaluates host context rest satisfied entries' satisfiedBy') :
    Evaluates host context (first ++ rest) satisfied (entries ++ entries')
      (satisfiedBy ++ satisfiedBy') where
  through hsatisfied := List.forall_mem_append.mpr ⟨hthrough, h.through hsatisfied⟩
  whole hsatisfied := hfirst.append (h.whole hsatisfied)
  front := by
    obtain ⟨looked, hprefix, hkept⟩ := h.front
    exact ⟨first ++ looked, (List.prefix_append_right_inj first).mpr hprefix, hfirst.append hkept⟩

/-- Nothing behind a segment that is not let through is looked at. -/
theorem Evaluates.stop (h : Evaluates host context first false entries satisfiedBy)
    (rest : List ExecCommandSegment) :
    Evaluates host context (first ++ rest) false entries satisfiedBy where
  through := Bool.noConfusion
  whole := Bool.noConfusion
  front := by
    obtain ⟨looked, hprefix, hkept⟩ := h.front
    exact ⟨looked, hprefix.trans (List.prefix_append first rest), hkept⟩

theorem Evaluates.none (segments : List ExecCommandSegment) :
    Evaluates host context segments false ([] : List (Option Entry)) [] :=
  ⟨Bool.noConfusion, Bool.noConfusion, [], List.nil_prefix, .nil⟩

variable (host context) in
theorem evaluateSegments_evaluates (segments : List ExecCommandSegment) :
    Evaluates host context segments
      (evaluateSegments host context (MAX_SHELL_WRAPPER_INLINE_EVAL_DEPTH - 1) segments).satisfied
      (evaluateSegments host context (MAX_SHELL_WRAPPER_INLINE_EVAL_DEPTH - 1)
        segments).segmentAllowlistEntries
      (evaluateSegments host context (MAX_SHELL_WRAPPER_INLINE_EVAL_DEPTH - 1)
        segments).segmentSatisfiedBy := by
  induction segments with
  | nil => exact .nil
  | cons segment rest ih =>
    have hone : KeptOf host context [segment] [(segmentOutcome host context segment).entry]
        [(segmentOutcome host context segment).satisfiedBy] := ⟨rfl, rfl⟩
    have hstep : evaluateSegments host context (MAX_SHELL_WRAPPER_INLINE_EVAL_DEPTH - 1)
        (segment :: rest) =
        if (segmentOutcome host context segment).satisfiedBy.isNone then
          ⟨false, (segmentOutcome host context segment).allowlistMatches,
            [(segmentOutcome host context segment).entry],
            [(segmentOutcome host context segment).satisfiedBy]⟩
        else
          let result := evaluateSegments host context (MAX_SHELL_WRAPPER_INLINE_EVAL_DEPTH - 1) rest
          ⟨result.satisfied,
            (segmentOutcome host context segment).allowlistMatches ++ result.allowlistMatches,
            (segmentOutcome host context segment).entry :: result.segmentAllowlistEntries,
            (segmentOutcome host context segment).satisfiedBy :: result.segmentSatisfiedBy⟩ := rfl
    rw [hstep]
    split
    · rename_i hnone
      rw [Option.isNone_iff_eq_none] at hnone
      have hstop : Evaluates host context [segment] false
          [(segmentOutcome host context segment).entry]
          [(segmentOutcome host context segment).satisfiedBy] :=
        ⟨Bool.noConfusion, Bool.noConfusion, [segment], List.prefix_refl _, hone⟩
      exact hstop.stop rest
    · rename_i hsome
      refine Evaluates.after hone ?_ ih
      intro only honly
      obtain rfl := List.mem_singleton.mp honly
      simpa [LetThrough] using hsome

-- ---
-- Parts
-- ---

/-- An evaluation that keeps nothing where it is not satisfied. -/
theorem evaluateGroups_evaluates (groups : List (List ExecCommandSegment)) :
    Evaluates host context groups.flatten
        (evaluateGroups host context true groups).allowlistSatisfied
        (evaluateGroups host context true groups).segmentAllowlistEntries
        (evaluateGroups host context true groups).segmentSatisfiedBy ∧
      ((evaluateGroups host context true groups).allowlistSatisfied = false →
        (evaluateGroups host context true groups).segmentAllowlistEntries = [] ∧
          (evaluateGroups host context true groups).segmentSatisfiedBy = []) := by
  induction groups with
  | nil => exact ⟨.nil, Bool.noConfusion⟩
  | cons group rest ih =>
    have hgroup := evaluateSegments_evaluates host context group
    rw [List.flatten_cons, evaluateGroups]
    dsimp only
    split
    · exact ⟨.none _, fun _ => ⟨rfl, rfl⟩⟩
    · rename_i hsatisfied
      rw [Bool.not_eq_true', Bool.not_eq_false] at hsatisfied
      split
      · rename_i hunsatisfied
        rw [Bool.not_eq_true'] at hunsatisfied
        obtain ⟨hentries, hsatisfiedBy⟩ := ih.2 hunsatisfied
        rw [hunsatisfied, hentries, hsatisfiedBy]
        exact ⟨.none _, fun _ => ⟨rfl, rfl⟩⟩
      · rename_i hrest
        rw [Bool.not_eq_true', Bool.not_eq_false] at hrest
        refine ⟨?_, Bool.noConfusion⟩
        have hall := ih.1
        rw [hrest] at hall
        exact .after (hgroup.whole hsatisfied) (hgroup.through hsatisfied) hall

/-- The chains of an analysis are its segments. -/
def Flat (analysis : ExecCommandAnalysis) : Prop :=
  ∀ chains, analysis.chains = some chains → chains.flatten = analysis.segments

variable (host context) in
theorem evaluateExecAllowlist_evaluates (hflat : Flat analysis) :
    Evaluates host context analysis.segments
      (evaluateExecAllowlist host context analysis).allowlistSatisfied
      (evaluateExecAllowlist host context analysis).segmentAllowlistEntries
      (evaluateExecAllowlist host context analysis).segmentSatisfiedBy := by
  unfold evaluateExecAllowlist
  split
  · exact .none _
  · cases hchains : analysis.chains with
    | some chains =>
      rw [← hflat chains hchains]
      exact (evaluateGroups_evaluates chains).1
    | none =>
      have hsegments := evaluateSegments_evaluates host context analysis.segments
      simp only [Option.isSome_none, Option.getD_none, evaluateGroups]
      split
      · rename_i hunsatisfied
        rw [Bool.not_eq_true'] at hunsatisfied
        rwa [hunsatisfied] at hsegments
      · rename_i hsatisfied
        rw [Bool.not_eq_true', Bool.not_eq_false] at hsatisfied
        rw [hsatisfied] at hsegments
        simpa using hsegments

variable (host context) in
theorem analyzeShellCommand_flat (command : Text) :
    Flat (analyzeShellCommand host context command) := by
  intro chains hchains
  unfold analyzeShellCommand at hchains ⊢
  by_cases hwindows : isWindowsPlatform host context.platform = true
  · rw [if_pos hwindows] at hchains
    cases hargv : (context.shell.windowsArgv command).filter (· ≠ []) with
    | none =>
      rw [hargv] at hchains
      cases hchains
    | some argv =>
      rw [hargv] at hchains
      cases hchains
  · rw [if_neg hwindows] at hchains ⊢
    cases hsplit : splitCommandChain command with
    | none =>
      rw [hsplit] at hchains
      cases hpipeline : analyzePipeline host context command <;>
        simp [hpipeline, analyzeFailure] at hchains
    | some chainParts =>
      rw [hsplit] at hchains
      cases hparts : chainParts.mapM (analyzePipeline host context) with
      | none => simp [hparts, analyzeFailure] at hchains
      | some groups =>
        simp only [hparts, Option.some.injEq] at hchains ⊢
        rw [hchains]

/-- What is evaluated of a part. -/
structure PartOf (host : Host) (context : ExecAllowlistContext Entry) (part : ShellChainPart)
    (evaluated : ChainEvaluation Entry) : Prop where
  ok : (analyzeShellCommand host context part.part).ok = true
  analysis_eq : evaluated.analysis = analyzeShellCommand host context part.part
  evaluation_eq : evaluated.evaluation = evaluateExecAllowlist host context evaluated.analysis

variable (host context) in
theorem evaluatePart_cases (part : ShellChainPart) :
    (evaluatePart host context part = none ∧
        (analyzeShellCommand host context part.part).ok = false) ∨
      ∃ evaluated, evaluatePart host context part = some evaluated ∧
        PartOf host context part evaluated := by
  unfold evaluatePart
  cases hok : (analyzeShellCommand host context part.part).ok with
  | false => exact .inl ⟨by simp [hok], rfl⟩
  | true => exact .inr ⟨_, by simp only [hok]; rfl, hok, rfl, rfl⟩

/-- The parts of a command: those of a chain, or the command itself. -/
def commandParts (host : Host) (context : ExecAllowlistContext Entry) (command : Text) :
    List Text :=
  ((chainPartsOf host context command).map (·.map (·.part))).getD [command]

/-- A part is read, and all its segments are let through. -/
def PartSatisfied (host : Host) (context : ExecAllowlistContext Entry) (part : Text) : Prop :=
  (analyzeShellCommand host context part).ok = true ∧
    (evaluateExecAllowlist host context
      (analyzeShellCommand host context part)).allowlistSatisfied = true

theorem evaluateParts_none (parts : List ShellChainPart)
    (h : parts.mapM (evaluatePart host context) = none) :
    ¬∀ part ∈ parts.map (·.part), PartSatisfied host context part := by
  induction parts with
  | nil => simp at h
  | cons part parts ih =>
    intro hall
    obtain ⟨hfirst, hrest⟩ := List.forall_mem_cons.mp hall
    rcases evaluatePart_cases host context part with ⟨-, hok⟩ | ⟨evaluated, hevaluated, -⟩
    · simp [PartSatisfied, hok] at hfirst
    · cases hparts : parts.mapM (evaluatePart host context) with
      | none => exact ih hparts hrest
      | some evaluations => simp [List.mapM_cons, hevaluated, hparts] at h

/-- Without preludes, the parts are joined up to the first that is not satisfied. -/
theorem joinParts_evaluates (parts : List ShellChainPart)
    (h : parts.mapM (evaluatePart host context) = some evaluations)
    (hlength : preludes.length = evaluations.length) (hpreludes : true ∉ preludes) :
    ((joinParts evaluations preludes).allowlistSatisfied = true ↔
        ∀ part ∈ parts.map (·.part), PartSatisfied host context part) ∧
      Evaluates host context (joinParts evaluations preludes).segments
        (joinParts evaluations preludes).allowlistSatisfied
        (joinParts evaluations preludes).segmentAllowlistEntries
        (joinParts evaluations preludes).segmentSatisfiedBy := by
  induction parts generalizing evaluations preludes with
  | nil =>
    simp only [List.mapM_nil, Option.pure_def, Option.some.injEq] at h
    subst h
    exact ⟨by simp [joinParts], .nil⟩
  | cons part parts ih =>
    rcases evaluatePart_cases host context part with ⟨hnone, -⟩ | ⟨evaluated, hevaluated, hpart⟩
    · simp [List.mapM_cons, hnone] at h
    · cases hparts : parts.mapM (evaluatePart host context) with
      | none => simp [List.mapM_cons, hevaluated, hparts] at h
      | some rest =>
        simp only [List.mapM_cons, hevaluated, hparts, Option.pure_def, Option.bind_eq_bind,
          Option.bind_some, Option.some.injEq] at h
        subst h
        cases preludes with
        | nil => simp at hlength
        | cons prelude preludes =>
          simp only [List.mem_cons, not_or] at hpreludes
          obtain rfl : prelude = false := by simpa using Ne.symm hpreludes.1
          have hrest := ih hparts (by simpa using hlength) hpreludes.2
          obtain ⟨analysis, evaluation, opToNext⟩ := evaluated
          obtain ⟨hok, hanalysis, hevaluation⟩ := hpart
          dsimp only at hanalysis hevaluation
          have hflat : Flat analysis := hanalysis ▸ analyzeShellCommand_flat host context part.part
          have hfirst := evaluateExecAllowlist_evaluates host context hflat
          rw [← hevaluation] at hfirst
          have hsatisfied : PartSatisfied host context part.part ↔
              evaluation.allowlistSatisfied = true := by
            rw [PartSatisfied, ← hanalysis, ← hevaluation, hanalysis]
            exact and_iff_right hok
          rw [List.map_cons, List.forall_mem_cons, hsatisfied, joinParts]
          cases hcase : evaluation.allowlistSatisfied with
          | false =>
            rw [hcase] at hfirst
            simpa using hfirst
          | true =>
            obtain ⟨hjoined, hevaluates⟩ := hrest
            simp only [List.forall_mem_map] at hjoined
            simpa using ⟨hjoined, .after (hfirst.whole hcase) (hfirst.through hcase) hevaluates⟩

theorem scanPreludes_length (evaluations : List (ChainEvaluation Entry)) :
    (scanPreludes host context evaluations).1.length = evaluations.length := by
  induction evaluations with
  | nil => rfl
  | cons evaluation rest ih =>
    obtain ⟨analysis, evaluation, opToNext⟩ := evaluation
    unfold scanPreludes
    dsimp only
    repeat' split
    all_goals simpa using ih

-- ---
-- Commands
-- ---

/-- A part is let through as the prelude of a skill. -/
def skillPreludeInPlay (host : Host) (context : ExecAllowlistContext Entry) (command : Text) :
    Bool :=
  ((chainPartsOf host context command).bind (·.mapM (evaluatePart host context))).any
    fun evaluations => (scanPreludes host context evaluations).1.contains true

theorem evaluateShellAllowlist_evaluates
    (hprelude : skillPreludeInPlay host context command = false) :
    ((evaluateShellAllowlist host context command).allowlistSatisfied = true ↔
        hasShellLineContinuation command = false ∧
          ∀ part ∈ commandParts host context command, PartSatisfied host context part) ∧
      Evaluates host context (evaluateShellAllowlist host context command).segments
        (evaluateShellAllowlist host context command).allowlistSatisfied
        (evaluateShellAllowlist host context command).segmentAllowlistEntries
        (evaluateShellAllowlist host context command).segmentSatisfiedBy := by
  unfold evaluateShellAllowlist
  cases hcontinuation : hasShellLineContinuation command with
  | true => simpa [analysisFailure] using Evaluates.none []
  | false =>
    unfold commandParts
    cases hchain : chainPartsOf host context command with
    | none =>
      cases hok : (analyzeShellCommand host context command).ok with
      | false => simpa [analysisFailure, PartSatisfied, hok] using Evaluates.none []
      | true =>
        simpa [PartSatisfied, hok] using evaluateExecAllowlist_evaluates host context
          (analyzeShellCommand_flat host context command)
    | some chainParts =>
      cases hparts : chainParts.mapM (evaluatePart host context) with
      | none =>
        have hsome := evaluateParts_none chainParts hparts
        refine ⟨iff_of_false (by simp [analysisFailure, hparts]) ?_, ?_⟩
        · exact fun hall => hsome (by simpa using hall.2)
        · simpa [analysisFailure, hparts] using Evaluates.none []
      | some evaluations =>
        have hnone : true ∉ (scanPreludes host context evaluations).1 := by
          simpa [skillPreludeInPlay, hchain, hparts] using hprelude
        have hjoined := joinParts_evaluates chainParts hparts
          (scanPreludes_length evaluations) hnone
        simpa [hparts] using hjoined

/-- A command is let through just where all its parts are. What is kept then has an entry for
each segment, and what let it through. -/
theorem evaluateShellAllowlist_agrees (host : Host) (context : ExecAllowlistContext Entry)
    (command : Text) (hprelude : skillPreludeInPlay host context command = false) :
    ((evaluateShellAllowlist host context command).allowlistSatisfied = true ↔
        hasShellLineContinuation command = false ∧
          ∀ part ∈ commandParts host context command, PartSatisfied host context part) ∧
      ((evaluateShellAllowlist host context command).allowlistSatisfied = true →
        (evaluateShellAllowlist host context command).segmentAllowlistEntries.length =
            (evaluateShellAllowlist host context command).segments.length ∧
          (evaluateShellAllowlist host context command).segmentSatisfiedBy.length =
            (evaluateShellAllowlist host context command).segments.length ∧
          none ∉ (evaluateShellAllowlist host context command).segmentSatisfiedBy) ∧
      ∃ looked, looked <+: (evaluateShellAllowlist host context command).segments ∧
        KeptOf host context looked
          (evaluateShellAllowlist host context command).segmentAllowlistEntries
          (evaluateShellAllowlist host context command).segmentSatisfiedBy := by
  obtain ⟨hiff, hevaluates⟩ := evaluateShellAllowlist_evaluates hprelude
  refine ⟨hiff, ?_, hevaluates.front⟩
  intro hsatisfied
  obtain ⟨hentries, hsatisfiedBy⟩ := hevaluates.whole hsatisfied
  refine ⟨by rw [hentries, List.length_map], by rw [hsatisfiedBy, List.length_map], ?_⟩
  intro hnone
  rw [hsatisfiedBy] at hnone
  obtain ⟨segment, hsegment, hnot⟩ := List.mem_map.mp hnone
  exact hevaluates.through hsatisfied segment hsegment hnot

end

-- ---
-- Two commands
-- ---

/-- Pipelines without quotes. -/
def sampleShell : ShellSyntax where
  splitShellPipeline command := some ((command.splitOn '|').map trimChars)
  windowsArgv _ := none

/-- An allowlist that is empty, or whose one entry is `*`. -/
def sampleContext (everything : Bool) : ExecAllowlistContext Unit where
  matchAllowlist resolution _ := if everything && resolution.isSome then some () else none
  safeBins := []
  isTrustedSafeBinPath _ := false
  validateSafeBinArgv _ _ := false
  cwd := none
  env := none
  platform := some "linux".toList
  skillBins := []
  autoAllowSkills := false
  shell := sampleShell

theorem evaluateShellAllowlist_agrees_sample :
    none ∉ (evaluateShellAllowlist sampleHost (sampleContext true)
      "ls && cat notes | wc".toList).segmentSatisfiedBy := by
  have hagrees := evaluateShellAllowlist_agrees sampleHost (sampleContext true)
    "ls && cat notes | wc".toList (by decide +kernel)
  exact (hagrees.2.1 (by decide +kernel)).2.2

/-- A line continuation fails a command whose one part is satisfied, and behind a segment that
is not let through nothing is kept. -/
theorem not_evaluateShellAllowlist_agrees :
    ((∀ part ∈ commandParts sampleHost (sampleContext true) "ls \\\n-l".toList,
        PartSatisfied sampleHost (sampleContext true) part) ∧
      (evaluateShellAllowlist sampleHost (sampleContext true)
        "ls \\\n-l".toList).allowlistSatisfied = false) ∧
    (evaluateShellAllowlist sampleHost (sampleContext false) "ls | wc".toList).segments.length = 2 ∧
      (evaluateShellAllowlist sampleHost (sampleContext false)
        "ls | wc".toList).segmentSatisfiedBy.length = 1 := by
  refine ⟨⟨?_, by decide⟩, by decide, by decide⟩
  intro part hpart
  have hparts : commandParts sampleHost (sampleContext true) "ls \\\n-l".toList =
      ["ls \\\n-l".toList] := by decide
  rw [hparts] at hpart
  obtain rfl := List.mem_singleton.mp hpart
  exact ⟨by decide, by decide⟩

end OpenClaw.Exec
