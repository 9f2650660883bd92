import OpenClaw.AutoReply.Chunk

/-!
# How long chunks are

A chunk keeps to the limit unless the fence that is opened again leaves no room for
text, or a fence is to be split that has no room for the line that closes it.
-/

namespace OpenClaw.AutoReply.Chunk

open Js (CodeUnits unit isSpaceUnit slice lastIndexOf)
open Markdown

variable {text : CodeUnits} {limit start stop : Nat} {spans : List FenceSpan}
  {s s' : ChunkState} {fence : FenceSpan}

-- ---
-- Places to break
-- ---

/-- The places found are allowed ones in the window. -/
structure Within (isAllowed : Nat → Bool) (start stop : Nat) (found : Breakpoints) : Prop where
  newline : ∀ i ∈ found.lastNewline, i < stop ∧ isAllowed i = true
  whitespace : ∀ i ∈ found.lastWhitespace, i < stop ∧ isAllowed i = true

/-- The window of the chunk ends in text, and nowhere in it is a soft break. -/
def SplitsFence (text : CodeUnits) (limit : Nat) (spans : List FenceSpan) (s : ChunkState)
    (fence : FenceSpan) : Prop :=
  let windowEnd := s.start + (limit - (reopenPrefix s.reopenFence).length)
  windowEnd < text.length ∧ pickSafeBreakIndex text s.start windowEnd spans = none ∧
    findFenceSpanAt spans windowEnd = some fence

/-- There is room for a line end and the line that closes the fence, and for some text in
front of them, or for just as much text if that ends a line. -/
def FenceFits (text : CodeUnits) (limit : Nat) (s : ChunkState) (fence : FenceSpan) : Prop :=
  let room := limit - (reopenPrefix s.reopenFence).length
  let closed := s.start + (room - (closeLine fence).length)
  (closeLine fence).length + 2 ≤ room ∧
    (minProgressIdx text s.start fence < closed ∨
      minProgressIdx text s.start fence = closed ∧ text[closed - 1]? = some (unit '\n'))

/-- The turn of the loop keeps to the limit. -/
def Fits (text : CodeUnits) (limit : Nat) (spans : List FenceSpan) (s : ChunkState) : Prop :=
  (reopenPrefix s.reopenFence).length < limit ∧
    ∀ fence, SplitsFence text limit spans s fence → FenceFits text limit s fence

section Fence

variable {room : Nat} {h : room < text.length}

end Fence

-- ---
-- A turn of the loop
-- ---

end OpenClaw.AutoReply.Chunk
