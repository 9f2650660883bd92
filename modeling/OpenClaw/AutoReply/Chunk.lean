import OpenClaw.Markdown.Fences

/-!
# Chunks of Markdown

A reply longer than a channel takes is cut into chunks, at a line or a word outside of
fenced code and parentheses. Where only fenced code is in reach the fence is closed at
the end of the chunk and opened again in front of the next.
-/

namespace OpenClaw.AutoReply.Chunk

open Js (CodeUnits unit isSpaceUnit slice lastIndexOf)
open Markdown

-- ---
-- Places to break
-- ---

/-- `none` is -1. -/
structure Breakpoints where
  lastNewline : Option Nat := none
  lastWhitespace : Option Nat := none
  depth : Nat := 0

def scanPosition (text : CodeUnits) (isAllowed : Nat → Bool) (s : Breakpoints) (i : Nat) :
    Breakpoints :=
  if !isAllowed i then s
  else match text[i]? with
    | none => s
    | some char =>
      if char = unit '(' then { s with depth := s.depth + 1 }
      else if char = unit ')' ∧ 0 < s.depth then { s with depth := s.depth - 1 }
      else if s.depth ≠ 0 then s
      else if char = unit '\n' then { s with lastNewline := some i }
      else if isSpaceUnit char then { s with lastWhitespace := some i }
      else s

def scanParenAwareBreakpoints (text : CodeUnits) (start stop : Nat) (isAllowed : Nat → Bool) :
    Breakpoints :=
  (List.range' start (stop - start)).foldl (scanPosition text isAllowed) {}

def pickSafeBreakIndex (text : CodeUnits) (start stop : Nat) (spans : List FenceSpan) :
    Option Nat :=
  let found := scanParenAwareBreakpoints text start stop (isSafeFenceBreak spans)
  match found.lastNewline.filter (start < ·) with
  | some lastNewline => some lastNewline
  | none => found.lastWhitespace.filter (start < ·)

def skipLeadingNewlines (value : CodeUnits) (start : Nat) : Nat :=
  start + ((value.drop start).takeWhile (· = unit '\n')).length

-- ---
-- Splitting a fence
-- ---

def closeLine (span : FenceSpan) : CodeUnits := span.indent ++ span.marker

/-- The least position at which the fence is split. -/
def minProgressIdx (text : CodeUnits) (start : Nat) (fence : FenceSpan) : Nat :=
  min text.length (max (start + 1) (fence.start + fence.openLine.length + 2))

structure ChunkState where
  start : Nat := 0
  reopenFence : Option FenceSpan := none

/-- What one turn of the loop does. -/
inductive Turn where
  | last (chunk : CodeUnits)
  | stop
  | next (chunk : CodeUnits) (s : ChunkState)

def reopenPrefix : Option FenceSpan → CodeUnits
  | some fence => fence.openLine ++ [unit '\n']
  | none => []

end OpenClaw.AutoReply.Chunk
