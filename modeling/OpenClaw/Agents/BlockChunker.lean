import OpenClaw.Lib.Loop
import OpenClaw.Markdown.Fences

/-!
# The block chunker

Streamed reply text is buffered and drained in chunks. A chunk ends where the
text may be broken: at a paragraph, a line or a sentence, outside of fenced code
where that is possible. A fence that is split all the same is closed at the end
of the chunk and opened again before the next.
-/

namespace OpenClaw.Agents.BlockChunker

open Js (CodeUnits unit isSpaceUnit isBlank slice indexOf lastIndexOf)
open Markdown

-- ---
-- Configuration
-- ---

inductive BreakPreference
  | paragraph
  | newline
  | sentence
  deriving DecidableEq

/-- The limits are numbers other than `NaN`, `none` being `Infinity`. -/
structure BlockReplyChunking where
  minChars : Option Rat
  maxChars : Option Rat
  breakPreference : Option BreakPreference
  flushOnParagraph : Option Bool

/-- A limit is at least one character, or `Infinity`. -/
abbrev Limit := {limit : Option Nat // limit ≠ some 0}

/-- `Math.floor(value)`, of which only what is above 0 is kept. -/
def floorChars (value : Option Rat) : Option Nat := value.map fun q => q.floor.toNat

/-- `Math.max(1, value)` -/
def atLeastOne : Option Nat → Limit
  | some n => ⟨some (max 1 n), by simp only [ne_eq, Option.some.injEq]; omega⟩
  | none => ⟨none, nofun⟩

/-- `Math.max(limit, value)` -/
def Limit.max (limit : Limit) : Option Nat → Limit
  | none => ⟨none, nofun⟩
  | some n =>
    match limit with
    | ⟨some m, h⟩ => ⟨some (Max.max m n), by
        simp only [ne_eq, Option.some.injEq] at h ⊢
        omega⟩
    | ⟨none, h⟩ => ⟨none, h⟩

/-- `limit <= n` -/
def Limit.le (limit : Limit) (n : Nat) : Bool := limit.1.any (· ≤ n)

/-- `n <= limit` -/
def Limit.ge (limit : Limit) (n : Nat) : Bool := limit.1.all (n ≤ ·)

/-- `Math.min(limit, n)` -/
def Limit.cap (limit : Limit) (n : Nat) : Nat := limit.1.elim n (min · n)

theorem Limit.pos {limit : Limit} (h : limit.le n = true) : 1 ≤ n := by
  obtain ⟨limit, hlimit⟩ := limit
  cases limit with
  | none => cases h
  | some m =>
    have hle : m ≤ n := of_decide_eq_true h
    simp only [ne_eq, Option.some.injEq] at hlimit
    omega

-- ---
-- Places to break
-- ---

/-- The positions `/[.!?](?=\s|$)/g` matches, `i` being the position of the text. -/
def sentenceEnds : CodeUnits → Nat → List Nat
  | [], _ => []
  | u :: rest, i =>
    if (u = unit '.' ∨ u = unit '!' ∨ u = unit '?') ∧ rest.head?.all isSpaceUnit then
      i :: sentenceEnds rest (i + 1)
    else sentenceEnds rest (i + 1)

/-- `none` is -1, here and below. -/
def findSafeSentenceBreakIndex (text : CodeUnits) (fenceSpans : List FenceSpan) (minChars : Limit)
    (offset : Nat) : Option Nat :=
  let sentenceIdx : Option Nat := (sentenceEnds text 0).foldl (fun sentenceIdx (i : Nat) =>
    if !minChars.le i then sentenceIdx
    else if isSafeFenceBreak fenceSpans (offset + (i + 1)) then some (i + 1)
    else sentenceIdx) none
  sentenceIdx.filter minChars.le

def newlines : CodeUnits := [unit '\n', unit '\n']

/-- The candidates at one paragraph break. -/
def paragraphCandidate (text : CodeUnits) (fenceSpans : List FenceSpan) (minChars : Limit)
    (offset paragraphIdx : Nat) : Option Nat :=
  [paragraphIdx, paragraphIdx + 1].find? fun candidate =>
    minChars.le candidate && candidate < text.length && isSafeFenceBreak fenceSpans (offset + candidate)

def paragraphForward (text : CodeUnits) (fenceSpans : List FenceSpan) (minChars : Limit)
    (offset position : Nat) : Option Nat :=
  match _h : indexOf text newlines position with
  | none => none
  | some paragraphIdx =>
    match paragraphCandidate text fenceSpans minChars offset paragraphIdx with
    | some candidate => some candidate
    | none => paragraphForward text fenceSpans minChars offset (paragraphIdx + 2)
termination_by text.length - position
decreasing_by
  have := Js.indexOf_bounds _h
  omega

def paragraphReverse (text : CodeUnits) (fenceSpans : List FenceSpan) (minChars : Limit)
    (offset position : Nat) : Option Nat :=
  match _h : lastIndexOf text newlines position with
  | none => none
  | some paragraphIdx =>
    if _hmin : minChars.le paragraphIdx then
      match paragraphCandidate text fenceSpans minChars offset paragraphIdx with
      | some candidate => some candidate
      | none => paragraphReverse text fenceSpans minChars offset (paragraphIdx - 1)
    else none
termination_by position
decreasing_by
  have := Js.lastIndexOf_le _h
  have := Limit.pos _hmin
  omega

def findSafeParagraphBreakIndex (text : CodeUnits) (fenceSpans : List FenceSpan) (minChars : Limit)
    (reverse : Bool) (offset : Nat) : Option Nat :=
  if reverse then paragraphReverse text fenceSpans minChars offset text.length
  else paragraphForward text fenceSpans minChars offset 0

def newlineCandidate (fenceSpans : List FenceSpan) (minChars : Limit) (offset newlineIdx : Nat) : Bool :=
  minChars.le newlineIdx && isSafeFenceBreak fenceSpans (offset + newlineIdx)

def newlineForward (text : CodeUnits) (fenceSpans : List FenceSpan) (minChars : Limit)
    (offset position : Nat) : Option Nat :=
  match _h : indexOf text [unit '\n'] position with
  | none => none
  | some newlineIdx =>
    if newlineCandidate fenceSpans minChars offset newlineIdx then some newlineIdx
    else newlineForward text fenceSpans minChars offset (newlineIdx + 1)
termination_by text.length - position
decreasing_by
  have := Js.indexOf_bounds _h
  omega

def newlineReverse (text : CodeUnits) (fenceSpans : List FenceSpan) (minChars : Limit)
    (offset position : Nat) : Option Nat :=
  match _h : lastIndexOf text [unit '\n'] position with
  | none => none
  | some newlineIdx =>
    if _hmin : minChars.le newlineIdx then
      if newlineCandidate fenceSpans minChars offset newlineIdx then some newlineIdx
      else newlineReverse text fenceSpans minChars offset (newlineIdx - 1)
    else none
termination_by position
decreasing_by
  have := Js.lastIndexOf_le _h
  have := Limit.pos _hmin
  omega

def findSafeNewlineBreakIndex (text : CodeUnits) (fenceSpans : List FenceSpan) (minChars : Limit)
    (reverse : Bool) (offset : Nat) : Option Nat :=
  if reverse then newlineReverse text fenceSpans minChars offset text.length
  else newlineForward text fenceSpans minChars offset 0

/-- `/\n[\t ]*\n+/` at the start of the text: the length of the match. -/
def matchParagraphBreak : CodeUnits → Option Nat
  | [] => none
  | u :: rest =>
    if u = unit '\n' then
      let blank := rest.takeWhile fun u => u = unit '\t' || u = unit ' '
      let feeds := (rest.drop blank.length).takeWhile (· = unit '\n')
      if feeds = [] then none else some (1 + blank.length + feeds.length)
    else none

structure ParagraphBreak where
  index : Nat
  length : Nat

/-- `re.exec(buffer)` from `i` on. -/
def execParagraphBreak : CodeUnits → Nat → Option ParagraphBreak
  | [], _ => none
  | u :: rest, i =>
    match matchParagraphBreak (u :: rest) with
    | some length => some ⟨i, length⟩
    | none => execParagraphBreak rest (i + 1)

theorem execParagraphBreak_bounds (h : execParagraphBreak rest i = some found) :
    i ≤ found.index ∧ found.index < i + rest.length ∧ 0 < found.length := by
  induction rest generalizing i with
  | nil => cases h
  | cons u rest ih =>
    rw [execParagraphBreak] at h
    split at h
    · rename_i length hmatch
      cases h
      refine ⟨Nat.le_refl _, by simp, ?_⟩
      simp only [matchParagraphBreak] at hmatch
      split at hmatch
      · split at hmatch <;> cases hmatch
        show 0 < 1 + _ + _
        omega
      · cases hmatch
    · obtain ⟨hle, hlt, hpos⟩ := ih h
      simp only [List.length_cons]
      omega

def nextParagraphBreak (buffer : CodeUnits) (fenceSpans : List FenceSpan) (startIndex : Nat)
    (minCharsFromStart : Limit) (lastIndex : Nat) : Option ParagraphBreak :=
  match _h : execParagraphBreak (buffer.drop lastIndex) lastIndex with
  | none => none
  | some found =>
    if minCharsFromStart.le (found.index - startIndex) && isSafeFenceBreak fenceSpans found.index then
      some found
    else
      nextParagraphBreak buffer fenceSpans startIndex minCharsFromStart (found.index + found.length)
termination_by buffer.length - lastIndex
decreasing_by
  have := execParagraphBreak_bounds _h
  simp only [List.length_drop] at this
  omega

def findNextParagraphBreak (buffer : CodeUnits) (fenceSpans : List FenceSpan) (startIndex : Nat)
    (minCharsFromStart : Limit) : Option ParagraphBreak :=
  nextParagraphBreak buffer fenceSpans startIndex minCharsFromStart startIndex

-- ---
-- Choice of the break
-- ---

structure FenceSplit where
  closeFenceLine : CodeUnits
  reopenFenceLine : CodeUnits
  fence : FenceSpan

structure BreakResult where
  index : Nat
  fenceSplit : Option FenceSplit

def BreakResult.at (index : Nat) : BreakResult := ⟨index, none⟩

def BlockReplyChunking.preference (chunking : BlockReplyChunking) : BreakPreference :=
  chunking.breakPreference.getD .paragraph

/-- The break that the preference asks for, in the whole text or in the window. -/
def preferredBreak (chunking : BlockReplyChunking) (text : CodeUnits) (fenceSpans : List FenceSpan)
    (minChars : Limit) (reverse : Bool) (offset : Nat) : Option Nat :=
  let paragraphIdx :=
    if chunking.preference = .paragraph then
      findSafeParagraphBreakIndex text fenceSpans minChars reverse offset
    else none
  let newlineIdx :=
    if chunking.preference = .paragraph ∨ chunking.preference = .newline then
      findSafeNewlineBreakIndex text fenceSpans minChars reverse offset
    else none
  let sentenceIdx :=
    if chunking.preference ≠ .newline then findSafeSentenceBreakIndex text fenceSpans minChars offset
    else none
  paragraphIdx <|> newlineIdx <|> sentenceIdx

def minCharsOf (chunking : BlockReplyChunking) (override : Option Nat) : Limit :=
  atLeastOne (override.or (floorChars chunking.minChars))

def pickSoftBreakIndex (chunking : BlockReplyChunking) (buffer : CodeUnits)
    (fenceSpans : List FenceSpan) (minCharsOverride : Option Nat) (offset : Nat) : Option BreakResult :=
  let minChars := minCharsOf chunking minCharsOverride
  if !minChars.le buffer.length then none
  else (preferredBreak chunking buffer fenceSpans minChars false offset).map .at

/-- `for (let i = window.length - 1; i >= minChars; i--)` -/
def lastSpace (window : CodeUnits) (fenceSpans : List FenceSpan) (minChars : Limit) (offset : Nat) :
    Nat → Option Nat
  | 0 => none
  | i + 1 =>
    if minChars.le i then
      if window[i]?.any isSpaceUnit && isSafeFenceBreak fenceSpans (offset + i) then some i
      else lastSpace window fenceSpans minChars offset i
    else none

/-- The break at `maxChars`, which splits the fence it lies in. -/
def hardBreak (fenceSpans : List FenceSpan) (maxChars offset : Nat) : BreakResult :=
  if isSafeFenceBreak fenceSpans (offset + maxChars) then .at maxChars
  else
    match findFenceSpanAt fenceSpans (offset + maxChars) with
    | some fence => ⟨maxChars, some ⟨fence.indent ++ fence.marker, fence.openLine, fence⟩⟩
    | none => .at maxChars

def pickBreakIndex (chunking : BlockReplyChunking) (buffer : CodeUnits)
    (fenceSpans : List FenceSpan) (minCharsOverride : Option Nat) (offset : Nat) : Option BreakResult :=
  let minChars := minCharsOf chunking minCharsOverride
  let maxChars := minChars.max (floorChars chunking.maxChars)
  if !minChars.le buffer.length then none
  else
    let window := buffer.take (maxChars.cap buffer.length)
    match preferredBreak chunking window fenceSpans minChars true offset with
    | some index => some (.at index)
    | none =>
      if chunking.preference = .newline ∧ !maxChars.le buffer.length then none
      else
        match lastSpace window fenceSpans minChars offset window.length with
        | some index => some (.at index)
        | none =>
          (maxChars.1.filter (· ≤ buffer.length)).map (hardBreak fenceSpans · offset)

-- ---
-- Draining
-- ---

def skipLeadingNewlines (value : CodeUnits) (start : Nat) : Nat :=
  start + ((value.drop start).takeWhile (· = unit '\n')).length

def stripLeadingNewlines (value : CodeUnits) : CodeUnits := value.drop (skipLeadingNewlines value 0)

/-- The loop of `drain`. `emitted` are the chunks handed to the callback. -/
structure DrainState where
  start : Nat
  reopenFence : Option FenceSpan
  emitted : List CodeUnits

def reopenPrefix : Option FenceSpan → CodeUnits
  | some fence => fence.openLine ++ [unit '\n']
  | none => []

def DrainState.emit (st : DrainState) (chunk : CodeUnits) : DrainState :=
  { st with emitted := st.emitted ++ [chunk] }

def DrainState.goto (st : DrainState) (start : Nat) (reopenFence : Option FenceSpan) : DrainState :=
  { st with start := start, reopenFence := reopenFence }

def closeFence (rawChunk closeFenceLine : CodeUnits) : CodeUnits :=
  if rawChunk.getLast? = some (unit '\n') then closeFenceLine ++ [unit '\n']
  else unit '\n' :: closeFenceLine ++ [unit '\n']

/-- `breakResult.index` is positive. -/
def emitBreakResult (source : CodeUnits) (breakResult : BreakResult) (st : DrainState) : DrainState :=
  let absoluteBreakIdx := st.start + breakResult.index
  let rawChunk := reopenPrefix st.reopenFence ++ slice source st.start absoluteBreakIdx
  if isBlank rawChunk then st.goto (skipLeadingNewlines source absoluteBreakIdx) none
  else
    match breakResult.fenceSplit with
    | some fenceSplit =>
      (st.emit (rawChunk ++ closeFence rawChunk fenceSplit.closeFenceLine)).goto absoluteBreakIdx
        (some fenceSplit.fence)
    | none =>
      let nextStart :=
        if source[absoluteBreakIdx]?.any isSpaceUnit then absoluteBreakIdx + 1 else absoluteBreakIdx
      (st.emit rawChunk).goto (skipLeadingNewlines source nextStart) none

/-- What is kept of the source when the loop is left. -/
def leftover (source : CodeUnits) (st : DrainState) : CodeUnits :=
  match st.reopenFence with
  | some fence => fence.openLine ++ [unit '\n'] ++ source.drop st.start
  | none => stripLeadingNewlines (source.drop st.start)

structure Drained where
  chunks : List CodeUnits
  buffer : CodeUnits
  deriving DecidableEq

def DrainState.done (source : CodeUnits) (st : DrainState) : Drained := ⟨st.emitted, leftover source st⟩

/-- The paragraph that is flushed, with its chunk, when `flushOnParagraph` is set. -/
def flushParagraph (source : CodeUnits) (paragraphBreak : ParagraphBreak) (st : DrainState) :
    DrainState :=
  let chunk := reopenPrefix st.reopenFence ++ slice source st.start paragraphBreak.index
  let next := st.goto (skipLeadingNewlines source (paragraphBreak.index + paragraphBreak.length)) none
  if isBlank chunk then next else next.emit chunk

section
variable (chunking : BlockReplyChunking) (minChars maxChars : Limit) (force : Bool)
  (source : CodeUnits) (fenceSpans : List FenceSpan)

def remainingLength (st : DrainState) : Nat :=
  (reopenPrefix st.reopenFence).length + (source.length - st.start)

/-- The part of the body from the choice of a break on. -/
def drainBreak (st : DrainState) : DrainState ⊕ Drained :=
  let view := source.drop st.start
  let breakResult :=
    if force ∧ maxChars.ge (remainingLength source st) then
      pickSoftBreakIndex chunking view fenceSpans (some 1) st.start
    else pickBreakIndex chunking view fenceSpans (if force then some 1 else none) st.start
  match breakResult with
  | none | some ⟨0, _⟩ =>
    if force then
      .inr (((st.emit (reopenPrefix st.reopenFence ++ source.drop st.start)).goto source.length
        none).done source)
    else .inr (st.done source)
  | some breakResult =>
    let next := emitBreakResult source breakResult st
    if !minChars.le (remainingLength source next) ∧ ¬force then .inr (next.done source)
    else if !maxChars.le (remainingLength source next) ∧ ¬force ∧
        chunking.flushOnParagraph ≠ some true then .inr (next.done source)
    else .inl next

def drainBody (st : DrainState) : DrainState ⊕ Drained :=
  if st.start < source.length then
    if ¬force ∧ !minChars.le (remainingLength source st) then .inr (st.done source)
    else if chunking.flushOnParagraph = some true ∧ ¬force then
      let paragraphLimit := atLeastOne (maxChars.1.map (· - (reopenPrefix st.reopenFence).length))
      match findNextParagraphBreak source fenceSpans st.start minChars with
      | some paragraphBreak =>
        if paragraphLimit.ge (paragraphBreak.index - st.start) then
          .inl (flushParagraph source paragraphBreak st)
        else if !maxChars.le (remainingLength source st) then .inr (st.done source)
        else drainBreak chunking minChars maxChars force source fenceSpans st
      | none =>
        if !maxChars.le (remainingLength source st) then .inr (st.done source)
        else drainBreak chunking minChars maxChars force source fenceSpans st
    else drainBreak chunking minChars maxChars force source fenceSpans st
  else .inr (st.done source)

end

/-- `drain`: the chunks it emits and the buffer it leaves, `none` when the loop
goes on for longer than there are characters. -/
def drain (chunking : BlockReplyChunking) (force : Bool) (buffer : CodeUnits) : Option Drained :=
  let minChars := atLeastOne (floorChars chunking.minChars)
  let maxChars := minChars.max (floorChars chunking.maxChars)
  if !minChars.le buffer.length ∧ ¬force then some ⟨[], buffer⟩
  else if force ∧ maxChars.ge buffer.length then
    some ⟨if isBlank buffer then [] else [buffer], []⟩
  else
    Loop.rounds (drainBody chunking minChars maxChars force buffer (parseFenceSpans buffer))
      (buffer.length + 1) ⟨0, none, []⟩

def append (buffer text : CodeUnits) : CodeUnits := buffer ++ text

-- ---
-- Calls
-- ---

inductive Call
  | append (text : CodeUnits)
  | drain (force : Bool)

def Call.run (chunking : BlockReplyChunking) (call : Call) (s : Drained) : Option Drained :=
  match call with
  | .append text => some { s with buffer := BlockChunker.append s.buffer text }
  | .drain force =>
    (BlockChunker.drain chunking force s.buffer).map fun drained =>
      ⟨s.chunks ++ drained.chunks, drained.buffer⟩

/-- All chunks that a sequence of calls emits, and the buffer after it. -/
def runCalls (chunking : BlockReplyChunking) : List Call → Drained → Option Drained
  | [], s => some s
  | call :: calls, s => (call.run chunking s).bind (runCalls chunking calls)

def Call.appended : Call → CodeUnits
  | .append text => text
  | .drain _ => []

end OpenClaw.Agents.BlockChunker
