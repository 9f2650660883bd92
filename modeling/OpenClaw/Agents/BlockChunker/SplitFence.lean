import OpenClaw.Agents.BlockChunker.Lossless

/-!
# The chunks of a split fence

A fence that no break can be found in front of is split where the limit falls, and the line
that closes it comes on top. So a chunk that splits a fence is longer than the limit, and
the chunks keep to it just where no fence has to be split.
-/

namespace OpenClaw.Agents.BlockChunker

open Js (CodeUnits unit isBlank slice)
open Markdown

-- ---
-- What a round does
-- ---

inductive Action
  | stop
  | flush (paragraphBreak : ParagraphBreak)
  | cut (breakResult : BreakResult)
  | rest

/-- A chunk that is handed out, with the fence that is opened again in front of it and the
fence that is closed at its end because it goes on behind. -/
structure Emission where
  chunk : CodeUnits
  reopened : Option FenceSpan
  split : Option FenceSpan

/-- The chunk is handed out while a fence is split. -/
def Emission.DuringSplit (e : Emission) : Prop := e.reopened.isSome = true ∨ e.split.isSome = true

section
variable (chunking : BlockReplyChunking) (minChars maxChars : Limit) (force : Bool)
  (source : CodeUnits) (fenceSpans : List FenceSpan)

/-- The paragraph that `flushOnParagraph` flushes. -/
def paragraphToFlush (st : DrainState) : Option ParagraphBreak :=
  (findNextParagraphBreak source fenceSpans st.start minChars).filter fun paragraphBreak =>
    (atLeastOne (maxChars.1.map (· - (reopenPrefix st.reopenFence).length))).ge
      (paragraphBreak.index - st.start)

def chooseBreak (st : DrainState) : Option BreakResult :=
  if force ∧ maxChars.ge (remainingLength source st) then
    pickSoftBreakIndex chunking (source.drop st.start) fenceSpans (some 1) st.start
  else
    pickBreakIndex chunking (source.drop st.start) fenceSpans (if force then some 1 else none)
      st.start

def breakAction (st : DrainState) : Action :=
  match chooseBreak chunking maxChars force source fenceSpans st with
  | none | some ⟨0, _⟩ => if force then .rest else .stop
  | some breakResult => .cut breakResult

def action (st : DrainState) : Action :=
  if st.start < source.length then
    if ¬force ∧ !minChars.le (remainingLength source st) then .stop
    else if chunking.flushOnParagraph = some true ∧ ¬force then
      match paragraphToFlush minChars maxChars source fenceSpans st with
      | some paragraphBreak => .flush paragraphBreak
      | none =>
        if !maxChars.le (remainingLength source st) then .stop
        else breakAction chunking maxChars force source fenceSpans st
    else breakAction chunking maxChars force source fenceSpans st
  else .stop

def Action.perform (st : DrainState) : Action → DrainState ⊕ Drained
  | .stop => .inr (st.done source)
  | .flush paragraphBreak => .inl (flushParagraph source paragraphBreak st)
  | .rest =>
    .inr (((st.emit (reopenPrefix st.reopenFence ++ source.drop st.start)).goto source.length
      none).done source)
  | .cut breakResult =>
    let next := emitBreakResult source breakResult st
    if !minChars.le (remainingLength source next) ∧ ¬force then .inr (next.done source)
    else if !maxChars.le (remainingLength source next) ∧ ¬force ∧
        chunking.flushOnParagraph ≠ some true then .inr (next.done source)
    else .inl next

def Action.emission (st : DrainState) : Action → Option Emission
  | .stop => none
  | .flush paragraphBreak =>
    let chunk := reopenPrefix st.reopenFence ++ slice source st.start paragraphBreak.index
    if isBlank chunk then none else some ⟨chunk, st.reopenFence, none⟩
  | .rest => some ⟨reopenPrefix st.reopenFence ++ source.drop st.start, st.reopenFence, none⟩
  | .cut breakResult =>
    let rawChunk :=
      reopenPrefix st.reopenFence ++ slice source st.start (st.start + breakResult.index)
    if isBlank rawChunk then none
    else
      match breakResult.fenceSplit with
      | some fenceSplit =>
        some ⟨rawChunk ++ closeFence rawChunk fenceSplit.closeFenceLine, st.reopenFence,
          some fenceSplit.fence⟩
      | none => some ⟨rawChunk, st.reopenFence, none⟩

variable {chunking minChars maxChars force source fenceSpans} {st st' : DrainState}

theorem drainBreak_perform :
    drainBreak chunking minChars maxChars force source fenceSpans st =
      (breakAction chunking maxChars force source fenceSpans st).perform chunking minChars maxChars
        force source st := by
  unfold drainBreak breakAction chooseBreak
  dsimp only
  generalize ite (force = true ∧ maxChars.ge (remainingLength source st) = true) _ _ = breakResult
  rcases breakResult with _ | ⟨_ | index, fenceSplit⟩
  · cases force <;> rfl
  · cases force <;> rfl
  · rfl

/-- A round of the loop is its action. -/
theorem drainBody_perform :
    drainBody chunking minChars maxChars force source fenceSpans st =
      (action chunking minChars maxChars force source fenceSpans st).perform chunking minChars
        maxChars force source st := by
  unfold drainBody action paragraphToFlush
  split
  · split
    · rfl
    · split
      · dsimp only
        cases findNextParagraphBreak source fenceSpans st.start minChars with
        | none =>
          simp only [Option.filter_none]
          split
          · rfl
          · exact drainBreak_perform
        | some paragraphBreak =>
          simp only [Option.filter_some]
          split
          · rfl
          · split
            · rfl
            · exact drainBreak_perform
      · exact drainBreak_perform
  · rfl

/-- What is handed out comes to the chunks so far. -/
theorem emitBreakResult_emitted (breakResult : BreakResult) :
    (emitBreakResult source breakResult st).emitted =
      st.emitted ++ ((Action.cut breakResult).emission source st).toList.map Emission.chunk ∧
    (emitBreakResult source breakResult st).reopenFence =
      ((Action.cut breakResult).emission source st).bind Emission.split := by
  unfold emitBreakResult Action.emission
  dsimp only
  split
  · simp [DrainState.goto]
  · cases breakResult.fenceSplit with
    | none => simp [DrainState.goto, DrainState.emit]
    | some fenceSplit => simp [DrainState.goto, DrainState.emit]

theorem flushParagraph_emitted (paragraphBreak : ParagraphBreak) :
    (flushParagraph source paragraphBreak st).emitted =
      st.emitted ++ ((Action.flush paragraphBreak).emission source st).toList.map Emission.chunk ∧
    (flushParagraph source paragraphBreak st).reopenFence =
      ((Action.flush paragraphBreak).emission source st).bind Emission.split := by
  unfold flushParagraph Action.emission
  dsimp only
  split
  · simp [DrainState.goto]
  · simp [DrainState.goto, DrainState.emit]

/-- A fence is open after a round that goes on just when its chunk splits it. -/
theorem perform_next (act : Action)
    (h : act.perform chunking minChars maxChars force source st = .inl st') :
    st'.emitted = st.emitted ++ (act.emission source st).toList.map Emission.chunk ∧
      st'.reopenFence = (act.emission source st).bind Emission.split := by
  cases act with
  | stop => cases h
  | rest => cases h
  | flush paragraphBreak =>
    cases h
    exact flushParagraph_emitted paragraphBreak
  | cut breakResult =>
    simp only [Action.perform] at h
    split at h
    · cases h
    · split at h
      · cases h
      · cases h
        exact emitBreakResult_emitted breakResult

theorem perform_done (act : Action)
    (h : act.perform chunking minChars maxChars force source st = .inr drained) :
    drained.chunks = st.emitted ++ (act.emission source st).toList.map Emission.chunk := by
  cases act with
  | stop =>
    cases h
    exact (List.append_nil _).symm
  | rest =>
    cases h
    rfl
  | flush paragraphBreak => cases h
  | cut breakResult =>
    simp only [Action.perform] at h
    split at h
    · cases h
      exact (emitBreakResult_emitted breakResult).1
    · split at h
      · cases h
        exact (emitBreakResult_emitted breakResult).1
      · cases h

end

-- ---
-- The rounds of a drain
-- ---

/-- A round of the loop of `drain`: the call it belongs to and the state it starts in. -/
structure DrainRound where
  force : Bool
  source : CodeUnits
  st : DrainState

section
variable (chunking : BlockReplyChunking)

def minCharsLimit : Limit := atLeastOne (floorChars chunking.minChars)

def maxCharsLimit : Limit := (minCharsLimit chunking).max (floorChars chunking.maxChars)

def DrainRound.act (round : DrainRound) : Action :=
  action chunking (minCharsLimit chunking) (maxCharsLimit chunking) round.force round.source
    (parseFenceSpans round.source) round.st

def DrainRound.emission (round : DrainRound) : Option Emission :=
  (round.act chunking).emission round.source round.st

/-- `drain` hands the buffer out, or keeps it, without a look at its fences. -/
def isShort (force : Bool) (buffer : CodeUnits) : Bool :=
  if force then (maxCharsLimit chunking).ge buffer.length
  else !(minCharsLimit chunking).le buffer.length

def drainRounds (force : Bool) (buffer : CodeUnits) : List DrainRound :=
  if isShort chunking force buffer then []
  else
    (Loop.visited (drainBody chunking (minCharsLimit chunking) (maxCharsLimit chunking) force buffer
      (parseFenceSpans buffer)) (buffer.length + 1) ⟨0, none, []⟩).map fun st => ⟨force, buffer, st⟩

/-- What a drain hands out. -/
def drainEmissions (force : Bool) (buffer : CodeUnits) : List Emission :=
  if isShort chunking force buffer then
    if !force || isBlank buffer then [] else [⟨buffer, none, none⟩]
  else (drainRounds chunking force buffer).flatMap fun round => (round.emission chunking).toList

variable {chunking}

theorem drain_def :
    drain chunking force buffer =
      if !(minCharsLimit chunking).le buffer.length ∧ ¬force then some ⟨[], buffer⟩
      else if force ∧ (maxCharsLimit chunking).ge buffer.length then
        some ⟨if isBlank buffer then [] else [buffer], []⟩
      else
        Loop.rounds (drainBody chunking (minCharsLimit chunking) (maxCharsLimit chunking) force
          buffer (parseFenceSpans buffer)) (buffer.length + 1) ⟨0, none, []⟩ := rfl

/-- The chunks of a drain are those its rounds hand out. -/
theorem drain_chunks (h : drain chunking force buffer = some drained) :
    drained.chunks = (drainEmissions chunking force buffer).map Emission.chunk := by
  rw [drain_def] at h
  unfold drainEmissions drainRounds isShort
  split at h
  · rename_i hshort
    cases h
    simp_all
  · split at h
    · rename_i hlong hshort
      cases h
      cases hblank : isBlank buffer <;> simp_all
    · rename_i hlong hlonger
      have houtput := Loop.rounds_output
        (fun st st' hst => (perform_next _ (drainBody_perform ▸ hst)).1)
        (fun st drained hst => perform_done _ (drainBody_perform ▸ hst)) h
      rw [houtput]
      cases force <;>
        simp_all [DrainRound.emission, DrainRound.act, List.flatMap_map, List.map_flatMap]

end

-- ---
-- Splits
-- ---

/-- The break at the limit, when the limit lies in a fence. -/
theorem hardBreak_split : (hardBreak fenceSpans n offset).fenceSplit = some fenceSplit ↔
    ∃ fence, findFenceSpanAt fenceSpans (offset + n) = some fence ∧
      fenceSplit = ⟨fence.indent ++ fence.marker, fence.openLine, fence⟩ := by
  unfold hardBreak isSafeFenceBreak
  cases findFenceSpanAt fenceSpans (offset + n) with
  | none => simp [BreakResult.at]
  | some fence => simp [eq_comm]

@[simp] theorem hardBreak_index : (hardBreak fenceSpans n offset).index = n := by
  unfold hardBreak
  split
  · rfl
  · split <;> rfl

theorem pickSoftBreakIndex_split
    (h : pickSoftBreakIndex chunking buffer fenceSpans minCharsOverride offset = some b) :
    b.fenceSplit = none := by
  simp only [pickSoftBreakIndex] at h
  split at h
  · cases h
  · obtain ⟨index, -, rfl⟩ := Option.map_eq_some_iff.mp h
    rfl

section
variable (chunking : BlockReplyChunking) (minCharsOverride : Option Nat)

def breakLimit : Limit := (minCharsOf chunking minCharsOverride).max (floorChars chunking.maxChars)

/-- The part of the text in which a break is looked for. -/
def breakWindow (buffer : CodeUnits) : CodeUnits :=
  buffer.take ((breakLimit chunking minCharsOverride).cap buffer.length)

/-- There is no place to break at, and the limit lies in a fence. -/
structure FenceAtLimit (buffer : CodeUnits) (fenceSpans : List FenceSpan) (offset n : Nat)
    (fence : FenceSpan) : Prop where
  enough : (minCharsOf chunking minCharsOverride).le buffer.length = true
  noBreak : preferredBreak chunking (breakWindow chunking minCharsOverride buffer) fenceSpans
    (minCharsOf chunking minCharsOverride) true offset = none
  noSpace : lastSpace (breakWindow chunking minCharsOverride buffer) fenceSpans
    (minCharsOf chunking minCharsOverride) offset
    (breakWindow chunking minCharsOverride buffer).length = none
  limit : (breakLimit chunking minCharsOverride).1 = some n
  le_length : n ≤ buffer.length
  inFence : findFenceSpanAt fenceSpans (offset + n) = some fence

variable {chunking minCharsOverride}

theorem pickBreakIndex_split :
    pickBreakIndex chunking buffer fenceSpans minCharsOverride offset = some b ∧
        b.fenceSplit = some fenceSplit ↔
      ∃ n fence, FenceAtLimit chunking minCharsOverride buffer fenceSpans offset n fence ∧
        b = ⟨n, some fenceSplit⟩ ∧
        fenceSplit = ⟨fence.indent ++ fence.marker, fence.openLine, fence⟩ := by
  constructor
  · rintro ⟨hpick, hsplit⟩
    simp only [pickBreakIndex] at hpick
    split at hpick
    · cases hpick
    · rename_i henough
      split at hpick
      · cases hpick
        cases hsplit
      · rename_i hnobreak
        split at hpick
        · cases hpick
        · split at hpick
          · cases hpick
            cases hsplit
          · rename_i hnospace
            obtain ⟨n, hn, rfl⟩ := Option.map_eq_some_iff.mp hpick
            obtain ⟨hlimit, hlong⟩ := Option.filter_eq_some_iff.mp hn
            obtain ⟨fence, hfence, rfl⟩ := hardBreak_split.mp hsplit
            refine ⟨n, fence, ⟨by simpa using henough, hnobreak, hnospace, hlimit,
              of_decide_eq_true hlong, hfence⟩, ?_, rfl⟩
            have hindex : (hardBreak fenceSpans n offset).index = n := hardBreak_index
            calc hardBreak fenceSpans n offset
                = ⟨(hardBreak fenceSpans n offset).index,
                  (hardBreak fenceSpans n offset).fenceSplit⟩ := rfl
              _ = _ := by rw [hindex, hsplit]
  · rintro ⟨n, fence, h, rfl, rfl⟩
    refine ⟨?_, rfl⟩
    have hle : (breakLimit chunking minCharsOverride).le buffer.length = true := by
      rw [Limit.le, h.limit]
      exact decide_eq_true h.le_length
    have hhard : (hardBreak fenceSpans n offset) =
        ⟨n, some ⟨fence.indent ++ fence.marker, fence.openLine, fence⟩⟩ := by
      unfold hardBreak isSafeFenceBreak
      rw [h.inFence]
      rfl
    have hlast := h.noSpace
    have hnobreak := h.noBreak
    unfold breakWindow breakLimit at hlast hnobreak
    unfold breakLimit at hle
    simp only [pickBreakIndex, h.enough, hnobreak, hle, hlast, Bool.not_true, Bool.false_eq_true,
      and_false, if_false]
    have hlimit := h.limit
    unfold breakLimit at hlimit
    rw [hlimit, Option.filter_some, if_pos (decide_eq_true h.le_length), Option.map_some, hhard]

theorem FenceAtLimit.pos
    (h : FenceAtLimit chunking minCharsOverride buffer fenceSpans offset n fence) : 0 < n :=
  Nat.pos_of_ne_zero fun hzero => (breakLimit chunking minCharsOverride).2 (hzero ▸ h.limit)

end

section
variable (chunking : BlockReplyChunking)

/-- A round gets to the choice of a break: what is left is neither kept for later nor flushed
up to a paragraph. -/
def getsToBreak (minChars maxChars : Limit) (force : Bool) (source : CodeUnits)
    (fenceSpans : List FenceSpan) (st : DrainState) : Bool :=
  st.start < source.length && (force || minChars.le (remainingLength source st)) &&
    (force || chunking.flushOnParagraph != some true ||
      (paragraphToFlush minChars maxChars source fenceSpans st).isNone &&
        maxChars.le (remainingLength source st))

theorem action_cut {minChars maxChars : Limit} :
    action chunking minChars maxChars force source fenceSpans st = .cut b ↔
      getsToBreak chunking minChars maxChars force source fenceSpans st = true ∧
        breakAction chunking maxChars force source fenceSpans st = .cut b := by
  unfold action getsToBreak
  by_cases hstart : st.start < source.length
  · cases force with
    | true => simp [hstart]
    | false =>
      cases minChars.le (remainingLength source st) with
      | false => simp [hstart]
      | true =>
        by_cases hflush : chunking.flushOnParagraph = some true
        · cases paragraphToFlush minChars maxChars source fenceSpans st with
          | some paragraphBreak => simp [hstart, hflush]
          | none => cases maxChars.le (remainingLength source st) <;> simp [hstart, hflush]
        · simp [hstart, hflush]
  · simp [hstart]

theorem breakAction_cut {maxChars : Limit} :
    breakAction chunking maxChars force source fenceSpans st = .cut b ↔
      chooseBreak chunking maxChars force source fenceSpans st = some b ∧ 0 < b.index := by
  unfold breakAction
  rcases chooseBreak chunking maxChars force source fenceSpans st with _ | ⟨_ | index, fenceSplit⟩
  · cases force <;> simp
  · cases force <;> simp
    all_goals
      rintro rfl
      simp
  · simp
    rintro rfl
    simp

def DrainRound.minCharsOverride (round : DrainRound) : Option Nat :=
  if round.force then some 1 else none

/-- The round splits a fence: it has to break the text, there is no place to break at, and the
limit lies in a fence. -/
def DrainRound.BreaksFence (round : DrainRound) (n : Nat) (fence : FenceSpan) : Prop :=
  getsToBreak chunking (minCharsLimit chunking) (maxCharsLimit chunking) round.force round.source
      (parseFenceSpans round.source) round.st = true ∧
    ¬(round.force = true ∧
      (maxCharsLimit chunking).ge (remainingLength round.source round.st) = true) ∧
    FenceAtLimit chunking round.minCharsOverride (round.source.drop round.st.start)
      (parseFenceSpans round.source) round.st.start n fence ∧
    isBlank (reopenPrefix round.st.reopenFence ++
      slice round.source round.st.start (round.st.start + n)) = false

variable {chunking} {round : DrainRound}

theorem DrainRound.BreaksFence.act (h : round.BreaksFence chunking n fence) :
    round.act chunking = .cut ⟨n, some ⟨fence.indent ++ fence.marker, fence.openLine, fence⟩⟩ := by
  obtain ⟨hgets, hlong, hlimit, -⟩ := h
  have hpos := hlimit.pos
  refine (action_cut chunking).mpr ⟨hgets, (breakAction_cut chunking).mpr ⟨?_, hpos⟩⟩
  rw [chooseBreak, if_neg hlong]
  exact (pickBreakIndex_split.mpr ⟨n, fence, hlimit, rfl, rfl⟩).1

/-- The chunk that a round splits a fence with. -/
theorem emission_split :
    (∃ e ∈ round.emission chunking, e.split = some fence) ↔
      ∃ n, round.BreaksFence chunking n fence := by
  constructor
  · rintro ⟨e, he, hsplit⟩
    cases hact : round.act chunking with
    | stop =>
      rw [DrainRound.emission, hact] at he
      cases he
    | rest =>
      rw [DrainRound.emission, hact] at he
      cases he
      cases hsplit
    | flush paragraphBreak =>
      rw [DrainRound.emission, hact] at he
      simp only [Action.emission] at he
      split at he
      · cases he
      · cases he
        cases hsplit
    | cut b =>
      rw [DrainRound.emission, hact] at he
      simp only [Action.emission] at he
      split at he
      · cases he
      · rename_i hblank
        split at he
        · rename_i fenceSplit hfence
          cases he
          cases hsplit
          obtain ⟨hgets, hbreak⟩ := (action_cut chunking).mp hact
          obtain ⟨hchoose, hpos⟩ := (breakAction_cut chunking).mp hbreak
          unfold chooseBreak at hchoose
          split at hchoose
          · rw [pickSoftBreakIndex_split hchoose] at hfence
            cases hfence
          · rename_i hlong
            obtain ⟨n, fence, hlimit, rfl, rfl⟩ := pickBreakIndex_split.mp ⟨hchoose, hfence⟩
            exact ⟨n, hgets, hlong, hlimit, by simpa using hblank⟩
        · cases he
          cases hsplit
  · rintro ⟨n, h⟩
    rw [DrainRound.emission, h.act]
    simp only [Action.emission, h.2.2.2]
    exact ⟨_, rfl, rfl⟩

end

-- ---
-- The length of a chunk that splits a fence
-- ---

theorem Limit.max_some {limit : Limit} (h : (limit.max value).1 = some n) :
    ∃ m, value = some m ∧ m ≤ n := by
  obtain ⟨limit, hlimit⟩ := limit
  cases value with
  | none => cases h
  | some m =>
    refine ⟨m, rfl, ?_⟩
    cases limit with
    | none => cases h
    | some k =>
      cases h
      exact Nat.le_max_right k m

/-- A limit of the config is below the next number of characters. -/
theorem FenceAtLimit.lt
    (h : FenceAtLimit chunking minCharsOverride buffer fenceSpans offset n fence) :
    ∃ limit, chunking.maxChars = some limit ∧ limit < n + 1 := by
  obtain ⟨m, hm, hle⟩ := Limit.max_some h.limit
  obtain ⟨limit, hlimit, rfl⟩ := Option.map_eq_some_iff.mp hm
  refine ⟨limit, hlimit, ?_⟩
  have hfloor : limit < (limit.floor : Rat) + 1 := by exact_mod_cast Rat.lt_floor_add_one limit
  have hnat : (limit.floor : Rat) ≤ n := by
    have hint : limit.floor ≤ (n : Int) := by omega
    exact_mod_cast hint
  linarith

theorem closeFence_pos (rawChunk closeFenceLine : CodeUnits) :
    0 < (closeFence rawChunk closeFenceLine).length := by
  unfold closeFence
  split <;> simp

section
variable {chunking : BlockReplyChunking} {round : DrainRound}

/-- The chunk of a round that splits a fence is longer than the limit. -/
theorem DrainRound.BreaksFence.emission (h : round.BreaksFence chunking n fence) :
    ∃ e, round.emission chunking = some e ∧ e.split = some fence ∧
      ∃ limit, chunking.maxChars = some limit ∧ limit < e.chunk.length := by
  obtain ⟨limit, hlimit, hlt⟩ := h.2.2.1.lt
  have hblank := h.2.2.2
  rw [DrainRound.emission, h.act]
  simp only [Action.emission, hblank]
  refine ⟨_, rfl, rfl, limit, hlimit, ?_⟩
  have hlen : n ≤ round.source.length - round.st.start := by
    have := h.2.2.1.le_length
    rwa [List.length_drop] at this
  have hslice : (slice round.source round.st.start (round.st.start + n)).length = n := by
    have hpos := h.2.2.1.pos
    rw [slice, List.length_drop, List.length_take]
    omega
  refine hlt.trans_le ?_
  have hclose := closeFence_pos (reopenPrefix round.st.reopenFence ++
    slice round.source round.st.start (round.st.start + n)) (fence.indent ++ fence.marker)
  have hchunk : n + 1 ≤ (reopenPrefix round.st.reopenFence ++
      slice round.source round.st.start (round.st.start + n) ++
      closeFence (reopenPrefix round.st.reopenFence ++
        slice round.source round.st.start (round.st.start + n))
        (fence.indent ++ fence.marker)).length := by
    rw [List.length_append, List.length_append, hslice]
    omega
  exact_mod_cast hchunk

theorem emission_reopened (h : e ∈ round.emission chunking) :
    e.reopened = round.st.reopenFence := by
  rw [DrainRound.emission] at h
  cases hact : round.act chunking with
  | stop =>
    rw [hact] at h
    cases h
  | rest =>
    rw [hact] at h
    cases h
    rfl
  | flush paragraphBreak =>
    rw [hact] at h
    simp only [Action.emission] at h
    split at h
    · cases h
    · cases h
      rfl
  | cut b =>
    rw [hact] at h
    simp only [Action.emission] at h
    split at h
    · cases h
    · split at h <;> cases h <;> rfl

end

-- ---
-- Sequences of calls
-- ---

section
variable (chunking : BlockReplyChunking)

/-- The rounds of all drains of a sequence of calls. -/
def callRounds : List Call → CodeUnits → List DrainRound
  | [], _ => []
  | .append text :: calls, buffer => callRounds calls (append buffer text)
  | .drain force :: calls, buffer =>
    drainRounds chunking force buffer ++
      match drain chunking force buffer with
      | some drained => callRounds calls drained.buffer
      | none => []

def callEmissions : List Call → CodeUnits → List Emission
  | [], _ => []
  | .append text :: calls, buffer => callEmissions calls (append buffer text)
  | .drain force :: calls, buffer =>
    drainEmissions chunking force buffer ++
      match drain chunking force buffer with
      | some drained => callEmissions calls drained.buffer
      | none => []

variable {chunking}

/-- The chunks of a sequence of calls are those that are handed out. -/
theorem runCalls_chunks (h : runCalls chunking calls s = some s') :
    s'.chunks = s.chunks ++ (callEmissions chunking calls s.buffer).map Emission.chunk := by
  induction calls generalizing s with
  | nil =>
    cases h
    simp [callEmissions]
  | cons call calls ih =>
    simp only [runCalls, Option.bind_eq_some_iff] at h
    obtain ⟨next, hnext, hrest⟩ := h
    rw [ih hrest]
    cases call with
    | append text =>
      cases hnext
      rfl
    | drain force =>
      simp only [Call.run, Option.map_eq_some_iff] at hnext
      obtain ⟨drained, hdrained, rfl⟩ := hnext
      simp only [callEmissions, hdrained, List.map_append, ← drain_chunks hdrained,
        List.append_assoc]

/-- No round splits a fence. -/
def NoSplit (chunking : BlockReplyChunking) (rounds : List DrainRound) : Prop :=
  ∀ round ∈ rounds, ∀ n fence, ¬ round.BreaksFence chunking n fence

/-- Where no round of a drain splits a fence, none is open in a round. -/
theorem drainRounds_closed
    (h : NoSplit chunking (drainRounds chunking force buffer)) :
    ∀ round ∈ drainRounds chunking force buffer, round.st.reopenFence = none := by
  cases hshort : isShort chunking force buffer with
  | true => simp [drainRounds, hshort]
  | false =>
    simp only [NoSplit, drainRounds, hshort, Bool.false_eq_true, if_false,
      List.forall_mem_map] at h ⊢
    refine Loop.visited_invariant rfl (fun st st' _ hst hbody => ?_) h
    rw [(perform_next _ (drainBody_perform ▸ hbody)).2]
    refine Option.eq_none_iff_forall_ne_some.mpr fun fence hfence => ?_
    obtain ⟨e, he, hsplit⟩ := Option.bind_eq_some_iff.mp hfence
    have hemission : e ∈ (DrainRound.mk force buffer st).emission chunking := he
    obtain ⟨n, hbreaks⟩ := emission_split.mp ⟨e, hemission, hsplit⟩
    exact hst n fence hbreaks

theorem drainEmissions_quiet
    (h : NoSplit chunking (drainRounds chunking force buffer)) :
    ∀ e ∈ drainEmissions chunking force buffer, ¬ e.DuringSplit := by
  intro e he
  unfold drainEmissions at he
  split at he
  · split at he
    · cases he
    · rw [List.mem_singleton.mp he]
      simp [Emission.DuringSplit]
  · obtain ⟨round, hround, he⟩ := List.mem_flatMap.mp he
    have hemission : e ∈ round.emission chunking := Option.mem_toList.mp he
    rintro (hreopened | hsplit)
    · rw [emission_reopened hemission, drainRounds_closed h round hround] at hreopened
      cases hreopened
    · obtain ⟨fence, hfence⟩ := Option.isSome_iff_exists.mp hsplit
      obtain ⟨n, hbreaks⟩ := emission_split.mp ⟨e, hemission, hfence⟩
      exact h round hround n fence hbreaks

theorem callEmissions_quiet
    (h : NoSplit chunking (callRounds chunking calls buffer)) :
    ∀ e ∈ callEmissions chunking calls buffer, ¬ e.DuringSplit := by
  induction calls generalizing buffer with
  | nil => simp [callEmissions]
  | cons call calls ih =>
    cases call with
    | append text => exact ih h
    | drain force =>
      simp only [NoSplit, callRounds, List.forall_mem_append] at h
      simp only [callEmissions, List.forall_mem_append]
      refine ⟨drainEmissions_quiet h.1, ?_⟩
      cases hdrain : drain chunking force buffer with
      | none => simp
      | some drained =>
        rw [hdrain] at h
        exact ih h.2

theorem callEmissions_of_round {round : DrainRound}
    (hround : round ∈ callRounds chunking calls buffer)
    (he : e ∈ round.emission chunking) : e ∈ callEmissions chunking calls buffer := by
  induction calls generalizing buffer with
  | nil => cases hround
  | cons call calls ih =>
    cases call with
    | append text => exact ih hround
    | drain force =>
      simp only [callRounds, List.mem_append] at hround
      simp only [callEmissions, List.mem_append]
      rcases hround with hround | hround
      · left
        cases hshort : isShort chunking force buffer with
        | true => simp [drainRounds, hshort] at hround
        | false =>
          simp only [drainEmissions, hshort]
          exact List.mem_flatMap.mpr ⟨round, hround, Option.mem_toList.mpr he⟩
      · right
        cases hdrain : drain chunking force buffer with
        | none => simp [hdrain] at hround
        | some drained =>
          rw [hdrain] at hround
          exact ih hround

/-- While a fence is split each chunk is balanced and keeps to the limit, and the chunk behind
one that splits a fence opens it again. -/
structure SplitsHold (maxChars : Option Rat) (emissions : List Emission) : Prop where
  balanced : ∀ e ∈ emissions, e.DuringSplit → Balanced e.chunk
  length_le : ∀ e ∈ emissions, e.DuringSplit → ∀ limit ∈ maxChars, (e.chunk.length : Rat) ≤ limit
  reopened : emissions.IsChain fun e next =>
    ∀ fence ∈ e.split, reopenPrefix (some fence) <+: next.chunk

theorem splitsHold_of_quiet (h : ∀ e ∈ emissions, ¬ e.DuringSplit) :
    SplitsHold maxChars emissions := by
  refine ⟨fun e he hsplit => absurd hsplit (h e he), fun e he hsplit => absurd hsplit (h e he), ?_⟩
  refine List.Pairwise.isChain (List.Pairwise.imp_of_mem (fun he _ _ fence hfence => ?_)
    (List.pairwise_of_forall fun _ _ => trivial))
  exact absurd (Or.inr (Option.isSome_of_mem hfence)) (h _ he)

/-- Whatever is appended and drained, the chunks handed out while a fence is split are balanced
and within the limit just where no round has to split a fence. -/
theorem runCalls_splitsHold_iff (chunking : BlockReplyChunking) (calls : List Call) :
    (∃ s, runCalls chunking calls ⟨[], []⟩ = some s ∧
        s.chunks = (callEmissions chunking calls []).map Emission.chunk) ∧
      (SplitsHold chunking.maxChars (callEmissions chunking calls []) ↔
        NoSplit chunking (callRounds chunking calls [])) := by
  constructor
  · obtain ⟨s, hs, -⟩ := runCalls_holds .refl calls
    exact ⟨s, hs, runCalls_chunks hs⟩
  · refine ⟨fun hholds round hround n fence hbreaks => ?_, fun hnone =>
      splitsHold_of_quiet (callEmissions_quiet hnone)⟩
    obtain ⟨e, he, hsplit, limit, hlimit, hlt⟩ := hbreaks.emission
    have hmem := callEmissions_of_round hround he
    have hduring : e.DuringSplit := .inr (hsplit ▸ rfl)
    exact absurd (hholds.length_le e hmem hduring limit hlimit) (not_le.mpr hlt)

/-- Limits of ten characters, and a fence with a line of twelve. -/
def tenChars : BlockReplyChunking := ⟨some 1, some 10, none, none⟩

def longFence : CodeUnits := "```\naaaaaaaaaaaa\n```\n".toList.map unit

theorem not_runCalls_splitsHold :
    ¬ SplitsHold tenChars.maxChars
      (callEmissions tenChars [.append longFence, .drain false] []) := by
  intro hholds
  have hlong : ∃ e ∈ callEmissions tenChars [.append longFence, .drain false] [],
      e.split.isSome = true ∧ 10 < e.chunk.length := by decide +kernel
  obtain ⟨e, he, hsplit, hlt⟩ := hlong
  have hle := hholds.length_le e he (.inr hsplit) 10 rfl
  exact absurd hlt (Nat.not_lt.mpr (by exact_mod_cast hle))

end

end OpenClaw.Agents.BlockChunker
