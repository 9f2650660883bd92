import OpenClaw.Agents.BlockChunker
import OpenClaw.Lib.Stable

/-!
# The chunker loses no text

A break lies ahead of the last one and inside the text, and only white space is
skipped after it. What else is in the chunks are the lines that close a split
fence and open it again.
-/

namespace OpenClaw.Agents.BlockChunker

open Js (CodeUnit CodeUnits unit isSpaceUnit isBlank slice indexOf lastIndexOf)
open Markdown
open Insertion (Inserted)

-- ---
-- Breaks
-- ---

/-- Where a text of the given length may be broken. -/
def InText (length index : Nat) : Prop := 1 ≤ index ∧ index ≤ length

theorem sentenceEnds_bounds (h : j ∈ sentenceEnds text i) : i ≤ j ∧ j < i + text.length := by
  induction text generalizing i with
  | nil => cases h
  | cons u text ih =>
    simp only [sentenceEnds] at h
    split at h
    · rcases List.mem_cons.mp h with rfl | hrest
      · simp
      · obtain ⟨hle, hlt⟩ := ih hrest
        simp only [List.length_cons]
        omega
    · obtain ⟨hle, hlt⟩ := ih h
      simp only [List.length_cons]
      omega

theorem findSafeSentenceBreakIndex_inText
    (h : findSafeSentenceBreakIndex text fenceSpans minChars offset = some index) :
    InText text.length index := by
  obtain ⟨hfold, hmin⟩ := Option.filter_eq_some_iff.mp h
  refine ⟨Limit.pos hmin, ?_⟩
  have hfound (ends : List Nat) (hends : ∀ i ∈ ends, i < text.length) (sentenceIdx : Option Nat)
      (hsentence : ∀ i ∈ sentenceIdx, i ≤ text.length) :
      ∀ j ∈ ends.foldl (fun sentenceIdx (i : Nat) =>
        if !minChars.le i then sentenceIdx
        else if isSafeFenceBreak fenceSpans (offset + (i + 1)) then some (i + 1)
        else sentenceIdx) sentenceIdx, j ≤ text.length := by
    induction ends generalizing sentenceIdx with
    | nil => exact hsentence
    | cons i ends ih =>
      obtain ⟨hi, hends⟩ := List.forall_mem_cons.mp hends
      refine ih hends _ ?_
      dsimp only
      split
      · exact hsentence
      · split
        · rintro j ⟨⟩
          exact hi
        · exact hsentence
  refine hfound _ ?_ none (by simp) index hfold
  intro i hi
  have := (sentenceEnds_bounds hi).2
  omega

theorem paragraphCandidate_inText
    (h : paragraphCandidate text fenceSpans minChars offset paragraphIdx = some index) :
    InText text.length index := by
  have hcandidate := List.find?_some h
  simp only [Bool.and_eq_true, decide_eq_true_eq] at hcandidate
  exact ⟨Limit.pos hcandidate.1.1, Nat.le_of_lt hcandidate.1.2⟩

theorem paragraphForward_inText
    (h : paragraphForward text fenceSpans minChars offset position = some index) :
    InText text.length index := by
  fun_induction paragraphForward with
  | case1 => cases h
  | case2 position paragraphIdx _ candidate hfound =>
    cases h
    exact paragraphCandidate_inText hfound
  | case3 position paragraphIdx _ hnone ih => exact ih h

theorem paragraphReverse_inText
    (h : paragraphReverse text fenceSpans minChars offset position = some index) :
    InText text.length index := by
  fun_induction paragraphReverse with
  | case1 => cases h
  | case2 position paragraphIdx _ _ candidate hfound =>
    cases h
    exact paragraphCandidate_inText hfound
  | case3 position paragraphIdx _ _ hnone ih => exact ih h
  | case4 => cases h

theorem findSafeParagraphBreakIndex_inText
    (h : findSafeParagraphBreakIndex text fenceSpans minChars reverse offset = some index) :
    InText text.length index := by
  unfold findSafeParagraphBreakIndex at h
  split at h
  · exact paragraphReverse_inText h
  · exact paragraphForward_inText h

theorem newlineCandidate_inText (h : newlineCandidate fenceSpans minChars offset index = true)
    (hindex : index < length) : InText length index := by
  simp only [newlineCandidate, Bool.and_eq_true] at h
  exact ⟨Limit.pos h.1, Nat.le_of_lt hindex⟩

theorem newlineForward_inText
    (h : newlineForward text fenceSpans minChars offset position = some index) :
    InText text.length index := by
  fun_induction newlineForward with
  | case1 => cases h
  | case2 position newlineIdx hfound hcandidate =>
    cases h
    exact newlineCandidate_inText hcandidate (Js.indexOf_bounds hfound).2
  | case3 position newlineIdx _ _ ih => exact ih h

theorem newlineReverse_inText
    (h : newlineReverse text fenceSpans minChars offset position = some index) :
    InText text.length index := by
  fun_induction newlineReverse with
  | case1 => cases h
  | case2 position newlineIdx hfound _ hcandidate =>
    cases h
    exact newlineCandidate_inText hcandidate
      (Js.startsAt_lt (by simp) (Js.lastIndexOf_startsAt hfound))
  | case3 position newlineIdx _ _ _ ih => exact ih h
  | case4 => cases h

theorem findSafeNewlineBreakIndex_inText
    (h : findSafeNewlineBreakIndex text fenceSpans minChars reverse offset = some index) :
    InText text.length index := by
  unfold findSafeNewlineBreakIndex at h
  split at h
  · exact newlineReverse_inText h
  · exact newlineForward_inText h

theorem ite_none_eq_some {α : Type u} {p : Prop} [Decidable p] {o : Option α} {a : α}
    (h : (if p then o else none) = some a) : o = some a := by
  split at h
  · exact h
  · cases h

theorem preferredBreak_inText
    (h : preferredBreak chunking text fenceSpans minChars reverse offset = some index) :
    InText text.length index := by
  simp only [preferredBreak, Option.orElse_eq_orElse, Option.orElse_eq_or, Option.or_eq_some_iff] at h
  rcases h with h | ⟨-, h | ⟨-, h⟩⟩
  · exact findSafeParagraphBreakIndex_inText (ite_none_eq_some h)
  · exact findSafeNewlineBreakIndex_inText (ite_none_eq_some h)
  · exact findSafeSentenceBreakIndex_inText (ite_none_eq_some h)

theorem preferredBreak_take_inText {text : CodeUnits} {n : Nat}
    (h : preferredBreak chunking (text.take n) fenceSpans minChars reverse offset = some index) :
    InText text.length index := by
  obtain ⟨hpos, hle⟩ := preferredBreak_inText h
  exact ⟨hpos, hle.trans (List.length_take_le' n text)⟩

theorem lastSpace_bounds (h : lastSpace window fenceSpans minChars offset n = some index) :
    1 ≤ index ∧ index < n := by
  induction n with
  | zero => cases h
  | succ n ih =>
    simp only [lastSpace] at h
    split at h
    · rename_i hmin
      split at h
      · cases h
        exact ⟨Limit.pos hmin, Nat.lt_succ_self _⟩
      · obtain ⟨hpos, hlt⟩ := ih h
        exact ⟨hpos, Nat.lt_succ_of_lt hlt⟩
    · cases h

/-- A break in the text. The fence it splits goes on after it. -/
structure BreakResult.Ok (fenceSpans : List FenceSpan) (length offset : Nat) (b : BreakResult) : Prop where
  inText : InText length b.index
  split : ∀ fenceSplit ∈ b.fenceSplit, fenceSplit.fence ∈ fenceSpans ∧
    offset + b.index < fenceSplit.fence.stop ∧
    fenceSplit.closeFenceLine = fenceSplit.fence.indent ++ fenceSplit.fence.marker

theorem BreakResult.Ok.at {index : Nat} (h : InText length index) :
    (BreakResult.at index).Ok fenceSpans length offset :=
  ⟨h, by rintro fenceSplit ⟨⟩⟩

theorem hardBreak_ok (h : InText length index) :
    (hardBreak fenceSpans index offset).Ok fenceSpans length offset := by
  unfold hardBreak
  split
  · exact .at h
  · split
    · rename_i fence hfence
      obtain ⟨hmem, -, hstop⟩ := findFenceSpanAt_some hfence
      refine ⟨h, ?_⟩
      rintro fenceSplit ⟨⟩
      exact ⟨hmem, hstop, rfl⟩
    · exact .at h

theorem pickSoftBreakIndex_ok
    (h : pickSoftBreakIndex chunking buffer fenceSpans minCharsOverride offset = some b) :
    b.Ok fenceSpans buffer.length offset := by
  simp only [pickSoftBreakIndex] at h
  split at h
  · cases h
  · obtain ⟨index, hindex, rfl⟩ := Option.map_eq_some_iff.mp h
    exact .at (preferredBreak_inText hindex)

theorem pickBreakIndex_ok
    (h : pickBreakIndex chunking buffer fenceSpans minCharsOverride offset = some b) :
    b.Ok fenceSpans buffer.length offset := by
  simp only [pickBreakIndex] at h
  split at h
  · cases h
  · split at h
    · rename_i index hindex
      cases h
      exact .at (preferredBreak_take_inText hindex)
    · split at h
      · cases h
      · split at h
        · rename_i index hindex
          cases h
          obtain ⟨hpos, hlt⟩ := lastSpace_bounds hindex
          refine .at ⟨hpos, (Nat.le_of_lt hlt).trans (List.length_take_le' _ _)⟩
        · obtain ⟨n, hn, rfl⟩ := Option.map_eq_some_iff.mp h
          obtain ⟨hlimit, hlong⟩ := Option.filter_eq_some_iff.mp hn
          have hpos : 1 ≤ n := Nat.one_le_iff_ne_zero.mpr fun hzero =>
            ((minCharsOf chunking minCharsOverride).max (floorChars chunking.maxChars)).2 (hzero ▸ hlimit)
          exact hardBreak_ok ⟨hpos, of_decide_eq_true hlong⟩

-- ---
-- Visible text
-- ---

/-- The characters that are no white space. -/
def visible (text : CodeUnits) : CodeUnits := text.filter (!isSpaceUnit ·)

@[simp] theorem visible_append (text more : CodeUnits) :
    visible (text ++ more) = visible text ++ visible more := List.filter_append text more

@[simp] theorem visible_nil : visible [] = [] := rfl

@[simp] theorem visible_newline (text : CodeUnits) : visible (unit '\n' :: text) = visible text := by
  have hspace : isSpaceUnit (unit '\n') = true := by decide
  simp [visible, hspace]

theorem visible_blank (h : isBlank text = true) : visible text = [] := by
  refine List.filter_eq_nil_iff.mpr fun u hu => ?_
  simp [List.all_eq_true.mp h u hu]

/-- White space may be skipped. -/
theorem visible_take_add {source : CodeUnits} (h : isBlank ((source.drop i).take k) = true) :
    visible (source.take (i + k)) = visible (source.take i) := by
  rw [List.take_add, visible_append, visible_blank h, List.append_nil]

theorem take_takeWhile_length (p : CodeUnit → Bool) (text : CodeUnits) :
    text.take (text.takeWhile p).length = text.takeWhile p :=
  (List.prefix_iff_eq_take.mp (List.takeWhile_prefix p)).symm

theorem isBlank_takeWhile {p : CodeUnit → Bool} (hp : ∀ u, p u = true → isSpaceUnit u = true)
    (text : CodeUnits) : isBlank (text.takeWhile p) = true :=
  List.all_eq_true.mpr fun u hu => hp u (List.mem_takeWhile_imp hu)

theorem visible_skipLeadingNewlines (source : CodeUnits) (i : Nat) :
    visible (source.take (skipLeadingNewlines source i)) = visible (source.take i) := by
  refine visible_take_add ?_
  rw [take_takeWhile_length]
  refine isBlank_takeWhile (fun u hu => ?_) _
  rw [of_decide_eq_true hu]
  decide

theorem visible_stripLeadingNewlines (text : CodeUnits) :
    visible (stripLeadingNewlines text) = visible text := by
  have hskip := visible_skipLeadingNewlines text 0
  calc visible (stripLeadingNewlines text)
      = visible (text.take (skipLeadingNewlines text 0)) ++ visible (stripLeadingNewlines text) := by
        rw [hskip]
        rfl
    _ = visible text := by
        rw [← visible_append, stripLeadingNewlines, List.take_append_drop]

/-- The match of a paragraph break is white space. -/
theorem matchParagraphBreak_blank {text : CodeUnits} (h : matchParagraphBreak text = some k) :
    isBlank (text.take k) = true := by
  cases text with
  | nil => cases h
  | cons u rest =>
    simp only [matchParagraphBreak] at h
    split at h
    · rename_i hfeed
      split at h
      · cases h
      · cases h
        rw [Nat.add_assoc, Nat.add_comm 1, List.take_succ_cons, List.take_add, take_takeWhile_length,
          take_takeWhile_length, hfeed]
        simp only [isBlank, List.all_cons, List.all_append, Bool.and_eq_true]
        refine ⟨by decide, isBlank_takeWhile (fun u hu => ?_) rest, isBlank_takeWhile (fun u hu => ?_) _⟩
        · rcases Bool.or_eq_true_iff.mp hu with htab | hspace
          · rw [of_decide_eq_true htab]
            decide
          · rw [of_decide_eq_true hspace]
            decide
        · rw [of_decide_eq_true hu]
          decide
    · cases h

theorem execParagraphBreak_match {source : CodeUnits} (h : execParagraphBreak (source.drop i) i = some found) :
    matchParagraphBreak (source.drop found.index) = some found.length := by
  generalize hrest : source.drop i = rest at h
  induction rest generalizing i with
  | nil => cases h
  | cons u rest ih =>
    rw [execParagraphBreak] at h
    split at h
    · rename_i length hmatch
      cases h
      show matchParagraphBreak (source.drop i) = some length
      rw [hrest]
      exact hmatch
    · refine ih ?_ h
      rw [← List.drop_drop, hrest]
      rfl

theorem nextParagraphBreak_some {source : CodeUnits}
    (h : nextParagraphBreak source fenceSpans startIndex minChars lastIndex = some found) :
    startIndex < found.index ∧ isBlank ((source.drop found.index).take found.length) = true := by
  fun_induction nextParagraphBreak with
  | case1 => cases h
  | case2 lastIndex other hexec hsafe =>
    cases h
    refine ⟨?_, matchParagraphBreak_blank (execParagraphBreak_match hexec)⟩
    have hmin := Limit.pos (Bool.and_eq_true_iff.mp hsafe).1
    omega
  | case3 lastIndex other hexec _ ih => exact ih h

/-- A paragraph break that is found is white space behind the start. -/
theorem findNextParagraphBreak_some {source : CodeUnits}
    (h : findNextParagraphBreak source fenceSpans startIndex minChars = some found) :
    startIndex < found.index ∧ isBlank ((source.drop found.index).take found.length) = true :=
  nextParagraphBreak_some h

/-- One character of white space after a break. -/
theorem visible_skipSpace {source : CodeUnits} (h : source[i]?.any isSpaceUnit = true) :
    visible (source.take (i + 1)) = visible (source.take i) := by
  refine visible_take_add ?_
  cases hu : source[i]? with
  | none =>
    rw [hu] at h
    cases h
  | some u =>
    rw [hu] at h
    rw [List.take_one, List.head?_drop, hu]
    simpa [isBlank] using h

-- ---
-- One round
-- ---

/-- The lines the chunker inserts: those that open a fence and those that close it. -/
inductive FenceInsert : CodeUnits → Prop
  | reopen (h : matchFence openLine = some m) : FenceInsert (openLine ++ [unit '\n'])
  | close (h : matchFence openLine = some m) : FenceInsert (m.indent ++ m.marker ++ [unit '\n'])

def VisibleInsert (piece : CodeUnits) : Prop := ∃ line, FenceInsert line ∧ piece = visible line

/-- A fence that a line of the source opened. -/
def Opened (fence : FenceSpan) : Prop :=
  ∃ m, matchFence fence.openLine = some m ∧ fence.marker = m.marker ∧ fence.indent = m.indent

/-- Of the source up to `start` nothing is lost, and a fence is open in the rest only. -/
structure Lossless (source : CodeUnits) (st : DrainState) : Prop where
  text : Inserted VisibleInsert (visible (source.take st.start)) (visible st.emitted.flatten)
  reopen : ∀ fence ∈ st.reopenFence, Opened fence ∧ st.start < source.length

theorem reopenPrefix_inserted (h : ∀ fence ∈ reopenFence, Opened fence) (text : CodeUnits) :
    Inserted VisibleInsert text (visible (reopenPrefix reopenFence) ++ text) := by
  cases reopenFence with
  | none => exact .refl
  | some fence =>
    obtain ⟨m, hm, -⟩ := h fence rfl
    exact .piece_left ⟨_, .reopen hm, rfl⟩ text

theorem closeFence_inserted (h : Opened fence) (rawChunk text : CodeUnits) :
    Inserted VisibleInsert text
      (text ++ visible (closeFence rawChunk (fence.indent ++ fence.marker))) := by
  obtain ⟨m, hm, hmarker, hindent⟩ := h
  refine .piece_right ⟨_, .close hm, ?_⟩ text
  rw [hmarker, hindent, closeFence]
  split
  · rfl
  · rw [List.cons_append, visible_newline]

theorem visible_slice (source : CodeUnits) (hij : i ≤ j) :
    visible (source.take i) ++ visible (slice source i j) = visible (source.take j) := by
  rw [← visible_append, Js.slice_append source hij]

section
variable {source : CodeUnits} {st : DrainState}

/-- A chunk from the start to a break, with what is inserted after it. -/
theorem Lossless.chunk (h : Lossless source st) (hstop : st.start ≤ stop) {suffix : CodeUnits}
    (hsuffix : ∀ text, Inserted VisibleInsert text (text ++ visible suffix)) :
    Inserted VisibleInsert (visible (source.take stop))
      (visible (st.emitted ++
        [reopenPrefix st.reopenFence ++ slice source st.start stop ++ suffix]).flatten) := by
  rw [← visible_slice source hstop, List.flatten_append, List.flatten_singleton, visible_append,
    visible_append, visible_append]
  have hreopen := reopenPrefix_inserted (fun fence hfence => (h.reopen fence hfence).1)
    (visible (slice source st.start stop))
  exact h.text.append (hreopen.trans (hsuffix _))

/-- A blank chunk is not handed out. -/
theorem Lossless.blank (h : Lossless source st) (hstop : st.start ≤ stop)
    (hblank : isBlank (reopenPrefix st.reopenFence ++ slice source st.start stop) = true) :
    Inserted VisibleInsert (visible (source.take stop)) (visible st.emitted.flatten) := by
  have hnil : visible (slice source st.start stop) = [] := by
    have := visible_blank hblank
    rw [visible_append] at this
    exact (List.append_eq_nil_iff.mp this).2
  rw [← visible_slice source hstop, hnil, List.append_nil]
  exact h.text

/-- White space after a break may be skipped, and no fence is open after it. -/
theorem Lossless.skip (h : Inserted VisibleInsert (visible (source.take stop)) (visible emitted.flatten))
    (hskip : visible (source.take start) = visible (source.take stop)) :
    Lossless source ⟨start, none, emitted⟩ :=
  ⟨hskip ▸ h, by rintro fence ⟨⟩⟩

theorem inserted_nil (text : CodeUnits) : Inserted VisibleInsert text (text ++ visible []) := by
  rw [visible_nil, List.append_nil]
  exact .refl

theorem flushParagraph_lossless (h : Lossless source st)
    (hbreak : findNextParagraphBreak source fenceSpans st.start minChars = some paragraphBreak) :
    Lossless source (flushParagraph source paragraphBreak st) := by
  obtain ⟨hstart, hblank⟩ := findNextParagraphBreak_some hbreak
  have hskip : visible (source.take
      (skipLeadingNewlines source (paragraphBreak.index + paragraphBreak.length))) =
      visible (source.take paragraphBreak.index) := by
    rw [visible_skipLeadingNewlines, visible_take_add hblank]
  have hstop := Nat.le_of_lt hstart
  unfold flushParagraph
  dsimp only
  split
  · rename_i hchunk
    exact .skip (h.blank hstop hchunk) hskip
  · refine .skip ?_ hskip
    have := h.chunk hstop inserted_nil
    rwa [List.append_nil] at this

theorem emitBreakResult_lossless (h : Lossless source st)
    (hb : b.Ok (parseFenceSpans source) (source.length - st.start) st.start) :
    Lossless source (emitBreakResult source b st) := by
  have hstop : st.start ≤ st.start + b.index := Nat.le_add_right _ _
  unfold emitBreakResult
  dsimp only
  split
  · rename_i hchunk
    exact .skip (h.blank hstop hchunk) (visible_skipLeadingNewlines _ _)
  · split
    · rename_i fenceSplit hsplit
      obtain ⟨hfence, hlt, hclose⟩ := hb.split fenceSplit hsplit
      have hof := parseFenceSpans_of hfence
      refine ⟨?_, ?_⟩
      · rw [hclose]
        exact h.chunk hstop (closeFence_inserted hof.opened _)
      · rintro fence ⟨⟩
        exact ⟨hof.opened, Nat.lt_of_lt_of_le hlt hof.stop_le⟩
    · have hchunk := h.chunk hstop inserted_nil
      rw [List.append_nil] at hchunk
      refine .skip hchunk ?_
      rw [visible_skipLeadingNewlines]
      split
      · rename_i hspace
        exact visible_skipSpace hspace
      · rfl

theorem leftover_lossless (h : Lossless source st) :
    Inserted VisibleInsert (visible source)
      (visible ((st.done source).chunks.flatten ++ (st.done source).buffer)) := by
  have hsource : visible source = visible (source.take st.start) ++ visible (source.drop st.start) := by
    rw [← visible_append, List.take_append_drop]
  rw [hsource, visible_append]
  refine h.text.append ?_
  show Inserted VisibleInsert _ (visible (leftover source st))
  unfold leftover
  split
  · rename_i fence hfence
    have := reopenPrefix_inserted (fun fence hfence => (h.reopen fence hfence).1)
      (visible (source.drop st.start))
    rwa [hfence, reopenPrefix, ← visible_append] at this
  · rw [visible_stripLeadingNewlines]
    exact .refl

/-- The rest of the source in one chunk. -/
theorem emitRest_lossless (h : Lossless source st) :
    Lossless source ((st.emit (reopenPrefix st.reopenFence ++ source.drop st.start)).goto
      source.length none) := by
  have hchunk : Inserted VisibleInsert _ _ := h.text.append
    (reopenPrefix_inserted (fun fence hfence => (h.reopen fence hfence).1) (visible (source.drop st.start)))
  refine ⟨?_, by rintro fence ⟨⟩⟩
  rw [← visible_append, ← visible_append, List.take_append_drop] at hchunk
  show Inserted VisibleInsert (visible (source.take source.length))
    (visible (st.emitted ++ [reopenPrefix st.reopenFence ++ source.drop st.start]).flatten)
  rwa [List.take_length, List.flatten_append, List.flatten_singleton, visible_append]

end

-- ---
-- The loop
-- ---

section
variable {chunking : BlockReplyChunking} {minChars maxChars : Limit} {force : Bool}
  {source : CodeUnits} {st st' : DrainState}

/-- What a round can do: break the text further on, or be done with it. -/
inductive Round (force : Bool) (source : CodeUnits) (st : DrainState) : DrainState ⊕ Drained → Prop
  | flush {least : Limit} (h : findNextParagraphBreak source (parseFenceSpans source) st.start least =
      some paragraphBreak) : Round force source st (.inl (flushParagraph source paragraphBreak st))
  | emit (h : b.Ok (parseFenceSpans source) (source.length - st.start) st.start) :
      Round force source st (.inl (emitBreakResult source b st))
  | stop (h : force = false) : Round force source st (.inr (st.done source))
  | stopAfter (h : force = false)
      (hb : b.Ok (parseFenceSpans source) (source.length - st.start) st.start) :
      Round force source st (.inr ((emitBreakResult source b st).done source))
  | last (h : source.length ≤ st.start) : Round force source st (.inr (st.done source))
  | rest : Round force source st
      (.inr (((st.emit (reopenPrefix st.reopenFence ++ source.drop st.start)).goto source.length
        none).done source))

theorem drainBreak_round :
    Round force source st
      (drainBreak chunking minChars maxChars force source (parseFenceSpans source) st) := by
  simp only [drainBreak]
  generalize hpick : ite (force = true ∧ maxChars.ge (remainingLength source st) = true) _ _ = breakResult
  have hok (b : BreakResult) (hb : breakResult = some b) :
      b.Ok (parseFenceSpans source) (source.length - st.start) st.start := by
    rw [← List.length_drop]
    rw [hb] at hpick
    split at hpick
    · exact pickSoftBreakIndex_ok hpick
    · exact pickBreakIndex_ok hpick
  split
  · split
    · exact .rest
    · exact .stop (by simpa using ‹¬force = true›)
  · split
    · exact .rest
    · exact .stop (by simpa using ‹¬force = true›)
  · rename_i b _
    split
    · rename_i hless
      exact .stopAfter (by simpa using hless.2) (hok b rfl)
    · split
      · rename_i hless
        exact .stopAfter (by simpa using hless.2.1) (hok b rfl)
      · exact .emit (hok b rfl)

theorem drainBody_round :
    Round force source st
      (drainBody chunking minChars maxChars force source (parseFenceSpans source) st) := by
  unfold drainBody
  split
  · split
    · rename_i hshort
      exact .stop (by simpa using hshort.1)
    · split
      · rename_i hflush
        have hforce : force = false := by simpa using hflush.2
        dsimp only
        split
        · rename_i paragraphBreak hbreak
          split
          · exact .flush hbreak
          · split
            · exact .stop hforce
            · exact drainBreak_round
        · split
          · exact .stop hforce
          · exact drainBreak_round
      · exact drainBreak_round
  · rename_i hend
    exact .last (Nat.not_lt.mp hend)

theorem le_skipLeadingNewlines (source : CodeUnits) (i : Nat) : i ≤ skipLeadingNewlines source i :=
  Nat.le_add_right _ _

theorem flushParagraph_start_lt
    (h : findNextParagraphBreak source (parseFenceSpans source) st.start minChars = some paragraphBreak) :
    st.start < (flushParagraph source paragraphBreak st).start := by
  have hstart := (findNextParagraphBreak_some h).1
  have hskip := le_skipLeadingNewlines source (paragraphBreak.index + paragraphBreak.length)
  have heq : (flushParagraph source paragraphBreak st).start =
      skipLeadingNewlines source (paragraphBreak.index + paragraphBreak.length) := by
    unfold flushParagraph
    dsimp only
    split <;> rfl
  omega

theorem emitBreakResult_start_lt (h : b.Ok fenceSpans length offset) :
    st.start < (emitBreakResult source b st).start := by
  have hpos := h.inText.1
  have hend : st.start + b.index ≤ (emitBreakResult source b st).start := by
    unfold emitBreakResult
    dsimp only
    split
    · exact le_skipLeadingNewlines _ _
    · split
      · exact Nat.le_refl _
      · split
        · exact (Nat.le_succ _).trans (le_skipLeadingNewlines _ _)
        · exact le_skipLeadingNewlines _ _
  omega

/-- The loop goes on further behind in the source. -/
theorem drainBody_next
    (h : drainBody chunking minChars maxChars force source (parseFenceSpans source) st = .inl st') :
    st.start < source.length ∧ st.start < st'.start := by
  refine ⟨?_, ?_⟩
  · by_contra hend
    rw [drainBody, if_neg hend] at h
    cases h
  · have hround : Round force source st (.inl st') := h ▸ drainBody_round
    cases hround with
    | flush hbreak => exact flushParagraph_start_lt hbreak
    | emit hb => exact emitBreakResult_start_lt hb

theorem drainBody_lossless (hst : Lossless source st)
    (h : drainBody chunking minChars maxChars force source (parseFenceSpans source) st = .inl st') :
    Lossless source st' := by
  have hround : Round force source st (.inl st') := h ▸ drainBody_round
  cases hround with
  | flush hbreak => exact flushParagraph_lossless hst hbreak
  | emit hb => exact emitBreakResult_lossless hst hb

/-- What a drain keeps of the buffer it was called on. -/
structure Kept (force : Bool) (source : CodeUnits) (drained : Drained) : Prop where
  text : Inserted VisibleInsert (visible source) (visible (drained.chunks.flatten ++ drained.buffer))
  empty : force = true → drained.buffer = []

theorem Kept.done (hst : Lossless source st) (hforce : force = true → source.length ≤ st.start) :
    Kept force source (st.done source) := by
  refine ⟨leftover_lossless hst, fun hf => ?_⟩
  have hend := hforce hf
  show leftover source st = []
  unfold leftover
  split
  · rename_i fence hfence
    have := (hst.reopen fence hfence).2
    omega
  · rw [List.drop_eq_nil_of_le hend]
    rfl

theorem drainBody_kept (hst : Lossless source st)
    (h : drainBody chunking minChars maxChars force source (parseFenceSpans source) st = .inr drained) :
    Kept force source drained := by
  have hround : Round force source st (.inr drained) := h ▸ drainBody_round
  cases hround with
  | stop hforce => exact .done hst (by simp [hforce])
  | stopAfter hforce hb => exact .done (emitBreakResult_lossless hst hb) (by simp [hforce])
  | last hend => exact .done hst fun _ => hend
  | rest => exact .done (emitRest_lossless hst) fun _ => Nat.le_refl _

end

-- ---
-- Drains
-- ---

theorem drain_isSome (chunking : BlockReplyChunking) (force : Bool) (buffer : CodeUnits) :
    (drain chunking force buffer).isSome = true := by
  simp only [drain]
  split
  · rfl
  · split
    · rfl
    · refine Loop.rounds_isSome (fun st => buffer.length - st.start) (fun st st' h => ?_)
        (Nat.lt_succ_self _)
      have := drainBody_next h
      omega

theorem drain_kept (h : drain chunking force buffer = some drained) : Kept force buffer drained := by
  simp only [drain] at h
  split at h
  · rename_i hshort
    cases h
    refine ⟨.refl, fun hforce => absurd hforce hshort.2⟩
  · split at h
    · cases h
      refine ⟨?_, fun _ => rfl⟩
      split
      · rename_i hblank
        rw [visible_blank hblank]
        exact .refl
      · rw [List.flatten_singleton, List.append_nil]
        exact .refl
    · have hstart : Lossless buffer ⟨0, none, []⟩ := ⟨.refl, by rintro fence ⟨⟩⟩
      exact Loop.rounds_invariant hstart (fun st st' => drainBody_lossless)
        (fun st drained => drainBody_kept) h

-- ---
-- Sequences of calls
-- ---

/-- The text after some calls, as chunks and buffer, and the text appended so far. -/
def Holds (text : CodeUnits) (s : Drained) : Prop :=
  Inserted VisibleInsert (visible text) (visible (s.chunks.flatten ++ s.buffer))

theorem Call.run_holds (chunking : BlockReplyChunking) (h : Holds text s) (call : Call) :
    ∃ s', call.run chunking s = some s' ∧ Holds (text ++ call.appended) s' := by
  cases call with
  | append more =>
    refine ⟨_, rfl, ?_⟩
    show Inserted VisibleInsert (visible (text ++ more)) (visible (s.chunks.flatten ++ (s.buffer ++ more)))
    rw [← List.append_assoc, visible_append, visible_append _ more]
    exact h.append_right _
  | drain force =>
    obtain ⟨drained, hdrained⟩ := Option.isSome_iff_exists.mp (drain_isSome chunking force s.buffer)
    refine ⟨⟨s.chunks ++ drained.chunks, drained.buffer⟩, by simp [Call.run, hdrained], ?_⟩
    show Inserted VisibleInsert (visible (text ++ []))
      (visible ((s.chunks ++ drained.chunks).flatten ++ drained.buffer))
    rw [List.append_nil, List.flatten_append, List.append_assoc, visible_append]
    refine h.trans ?_
    rw [visible_append]
    exact (drain_kept hdrained).text.append_left _

theorem runCalls_holds (h : Holds text s) (calls : List Call) :
    ∃ s', runCalls chunking calls s = some s' ∧ Holds (text ++ calls.flatMap Call.appended) s' := by
  induction calls generalizing text s with
  | nil => exact ⟨s, rfl, by simpa using h⟩
  | cons call calls ih =>
    obtain ⟨next, hnext, hholds⟩ := Call.run_holds chunking h call
    obtain ⟨s', hs', hfinal⟩ := ih hholds
    refine ⟨s', by simp [runCalls, hnext, hs'], ?_⟩
    rwa [List.flatMap_cons, ← List.append_assoc]

end OpenClaw.Agents.BlockChunker
