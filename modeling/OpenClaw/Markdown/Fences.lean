import OpenClaw.Js.CodeUnits

/-!
# Fence spans

Where the fenced code blocks of a Markdown text lie, and whether a position is
inside one.
-/

namespace OpenClaw.Markdown

open Js (CodeUnit CodeUnits unit indexOf indexOf_bounds)

structure FenceSpan where
  start : Nat
  stop : Nat
  openLine : CodeUnits
  marker : CodeUnits
  indent : CodeUnits
  deriving DecidableEq

-- ---
-- Fence lines
-- ---

/-- The groups of `/^( {0,3})(`{3,}|~{3,})(.*)$/`, less the last. -/
structure FenceMatch where
  indent : CodeUnits
  markerChar : CodeUnit
  markerLen : Nat
  deriving DecidableEq

def FenceMatch.marker (m : FenceMatch) : CodeUnits := List.replicate m.markerLen m.markerChar

/-- What `.` does not match. -/
def isLineTerminator (u : CodeUnit) : Bool :=
  u = unit '\n' || u = unit '\r' || u = 0x2028 || u = 0x2029

def countPrefix (u : CodeUnit) (text : CodeUnits) : Nat := (text.takeWhile (· = u)).length

def matchFence (line : CodeUnits) : Option FenceMatch :=
  let indent := line.takeWhile (· = unit ' ')
  match line.dropWhile (· = unit ' ') with
  | [] => none
  | markerChar :: rest =>
    let markerLen := countPrefix markerChar rest + 1
    if indent.length ≤ 3 ∧ (markerChar = unit '\x60' ∨ markerChar = unit '~') ∧ 3 ≤ markerLen ∧
        (rest.dropWhile (· = markerChar)).all (!isLineTerminator ·) then
      some ⟨indent, markerChar, markerLen⟩
    else none

-- ---
-- Spans
-- ---

structure OpenFence where
  start : Nat
  fence : FenceMatch
  openLine : CodeUnits
  deriving DecidableEq

def OpenFence.close (f : OpenFence) (stop : Nat) : FenceSpan where
  start := f.start
  stop := stop
  openLine := f.openLine
  marker := f.fence.marker
  indent := f.fence.indent

/-- What one line does to the spans so far and to the fence that is open. -/
def fenceLine (line : CodeUnits) (offset lineEnd : Nat) (spans : List FenceSpan)
    (opened : Option OpenFence) : List FenceSpan × Option OpenFence :=
  match matchFence line with
  | none => (spans, opened)
  | some m =>
    match opened with
    | none => (spans, some ⟨offset, m, line⟩)
    | some f =>
      if f.fence.markerChar = m.markerChar ∧ f.fence.markerLen ≤ m.markerLen then
        (spans ++ [f.close lineEnd], none)
      else (spans, some f)

/-- The lines from `offset` on. -/
def parseLines (buffer : CodeUnits) (offset : Nat) (spans : List FenceSpan)
    (opened : Option OpenFence) : List FenceSpan × Option OpenFence :=
  match _h : indexOf buffer [unit '\n'] offset with
  | none => fenceLine (buffer.drop offset) offset buffer.length spans opened
  | some nextNewline =>
    let (spans', opened') := fenceLine (Js.slice buffer offset nextNewline) offset nextNewline spans opened
    parseLines buffer (nextNewline + 1) spans' opened'
termination_by buffer.length - offset
decreasing_by
  have := indexOf_bounds _h
  omega

def parseFenceSpans (buffer : CodeUnits) : List FenceSpan :=
  match parseLines buffer 0 [] none with
  | (spans, none) => spans
  | (spans, some f) => spans ++ [f.close buffer.length]

/-- Each fence that the text opens is closed in it. -/
def Balanced (buffer : CodeUnits) : Prop := (parseLines buffer 0 [] none).2 = none

-- ---
-- Positions
-- ---

/-- The binary search between `low` and `high`, which may be -1. -/
def searchSpan (spans : List FenceSpan) (index : Nat) (low high : Int) : Option FenceSpan :=
  if low ≤ high then
    let mid := (low + high) / 2
    match spans[mid.toNat]? with
    | none => none
    | some span =>
      if index ≤ span.start then searchSpan spans index low (mid - 1)
      else if span.stop ≤ index then searchSpan spans index (mid + 1) high
      else some span
  else none
termination_by (high + 1 - low).toNat

def findFenceSpanAt (spans : List FenceSpan) (index : Nat) : Option FenceSpan :=
  searchSpan spans index 0 (spans.length - 1)

def isSafeFenceBreak (spans : List FenceSpan) (index : Nat) : Bool :=
  (findFenceSpanAt spans index).isNone

theorem searchSpan_some (h : searchSpan spans index low high = some span) :
    span ∈ spans ∧ span.start < index ∧ index < span.stop := by
  fun_induction searchSpan with
  | case1 => cases h
  | case2 low high _ mid other hspan hstart ih => exact ih h
  | case3 low high _ mid other hspan hstart hstop ih => exact ih h
  | case4 low high _ mid other hspan hstart hstop =>
    cases h
    exact ⟨List.mem_of_getElem? hspan, by omega, by omega⟩
  | case5 => cases h

/-- A position found in a fence is inside it. -/
theorem findFenceSpanAt_some (h : findFenceSpanAt spans index = some span) :
    span ∈ spans ∧ span.start < index ∧ index < span.stop := searchSpan_some h

-- ---
-- What the spans of a text are
-- ---

/-- A span that a fence line of the text opens and that ends in the text. -/
structure FenceSpan.Of (length : Nat) (span : FenceSpan) : Prop where
  stop_le : span.stop ≤ length
  opened : ∃ m, matchFence span.openLine = some m ∧ span.marker = m.marker ∧ span.indent = m.indent

def OpenFence.Read (f : OpenFence) : Prop := matchFence f.openLine = some f.fence

theorem OpenFence.Read.close {f : OpenFence} (hf : f.Read) (hstop : stop ≤ length) :
    (f.close stop).Of length :=
  ⟨hstop, f.fence, hf, rfl, rfl⟩

/-- Closed spans that end in the text, and an open fence that was read off its line. -/
def Parsed (length : Nat) (parsed : List FenceSpan × Option OpenFence) : Prop :=
  (∀ span ∈ parsed.1, span.Of length) ∧ ∀ f ∈ parsed.2, f.Read

theorem fenceLine_parsed (hstop : lineEnd ≤ length) (h : Parsed length (spans, opened)) :
    Parsed length (fenceLine line offset lineEnd spans opened) := by
  obtain ⟨hspans, hopened⟩ := h
  unfold fenceLine
  cases hm : matchFence line with
  | none => exact ⟨hspans, hopened⟩
  | some m =>
    cases opened with
    | none =>
      refine ⟨hspans, ?_⟩
      rintro f ⟨⟩
      exact hm
    | some f =>
      dsimp only
      split
      · refine ⟨?_, by rintro f ⟨⟩⟩
        intro span hspan
        rcases List.mem_append.mp hspan with hold | hnew
        · exact hspans span hold
        · rw [List.mem_singleton.mp hnew]
          exact (hopened f rfl).close hstop
      · exact ⟨hspans, hopened⟩

theorem parseLines_parsed (h : Parsed buffer.length (spans, opened)) :
    Parsed buffer.length (parseLines buffer offset spans opened) := by
  fun_induction parseLines with
  | case1 => exact fenceLine_parsed (Nat.le_refl _) h
  | case2 offset spans opened nextNewline hnext spans' opened' hline ih =>
    have hlt := (indexOf_bounds hnext).2
    exact ih (hline ▸ fenceLine_parsed (Nat.le_of_lt hlt) h)

theorem parseFenceSpans_of (hspan : span ∈ parseFenceSpans buffer) : span.Of buffer.length := by
  have hparsed : Parsed buffer.length (parseLines buffer 0 [] none) :=
    parseLines_parsed ⟨by simp, by simp⟩
  unfold parseFenceSpans at hspan
  obtain ⟨hspans, hopened⟩ := hparsed
  split at hspan
  · rename_i spans heq
    rw [heq] at hspans
    exact hspans span hspan
  · rename_i spans f heq
    rw [heq] at hspans hopened
    rcases List.mem_append.mp hspan with hclosed | hlast
    · exact hspans span hclosed
    · rw [List.mem_singleton.mp hlast]
      exact (hopened f rfl).close (Nat.le_refl _)

-- ---
-- Every position in a fence is found
-- ---

/-- Spans one behind the other. -/
structure Sorted (spans : List FenceSpan) : Prop where
  apart : spans.Pairwise fun span other => span.stop ≤ other.start
  start_le : ∀ span ∈ spans, span.start ≤ span.stop

theorem Sorted.lt {i j : Nat} (h : Sorted spans) (hi : spans[i]? = some span)
    (hj : spans[j]? = some other) (hij : i < j) : span.stop ≤ other.start := by
  obtain ⟨hilt, rfl⟩ := List.getElem?_eq_some_iff.mp hi
  obtain ⟨hjlt, rfl⟩ := List.getElem?_eq_some_iff.mp hj
  exact List.pairwise_iff_getElem.mp h.apart i j hilt hjlt hij

/-- What is parsed so far ends in front of `offset`. -/
structure Ordered (offset : Nat) (parsed : List FenceSpan × Option OpenFence) : Prop where
  sorted : Sorted parsed.1
  stop_le : ∀ span ∈ parsed.1, span.stop ≤ offset
  opened : ∀ f ∈ parsed.2, f.start ≤ offset ∧ ∀ span ∈ parsed.1, span.stop ≤ f.start

theorem Sorted.snoc (h : Sorted spans) (hstop : ∀ span ∈ spans, span.stop ≤ last.start)
    (hlast : last.start ≤ last.stop) : Sorted (spans ++ [last]) := by
  refine ⟨?_, fun span hspan => ?_⟩
  · rw [List.pairwise_append]
    refine ⟨h.apart, List.pairwise_singleton _ _, fun span hspan other hother => ?_⟩
    rw [List.mem_singleton.mp hother]
    exact hstop span hspan
  · rcases List.mem_append.mp hspan with hspan | hspan
    · exact h.start_le span hspan
    · rwa [List.mem_singleton.mp hspan]

theorem Ordered.mono (h : Ordered offset parsed) (hle : offset ≤ offset') :
    Ordered offset' parsed :=
  ⟨h.sorted, fun span hspan => Nat.le_trans (h.stop_le span hspan) hle,
    fun f hf => ⟨Nat.le_trans (h.opened f hf).1 hle, (h.opened f hf).2⟩⟩

end OpenClaw.Markdown
