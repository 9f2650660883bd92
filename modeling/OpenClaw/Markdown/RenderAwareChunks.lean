import OpenClaw.Markdown.Chunks

/-!
# Chunks within a rendered limit

A chunk that renders to more than the limit is cut at the longest prefix that does not, until
nothing is left to cut. Chunks of white space go to their neighbours, or are dropped.
-/

namespace OpenClaw.Markdown

open Js

structure RenderResolver (R : Type u) where
  measureRendered : R → Number
  renderChunk : MarkdownIR → R

structure RenderedMarkdownChunk (R : Type u) where
  rendered : R
  source : MarkdownIR

def sliceMarkdownIR (ir : MarkdownIR) (start stop : Nat) : MarkdownIR where
  text := slice ir.text start stop
  styles := sliceStyleSpans ir.styles start stop
  links := sliceLinkSpans ir.links start stop

-- ---
-- Places to split
-- ---

/-- What the scan for a split remembers, `none` being -1. -/
structure SplitScan where
  lastOutsideParenNewlineBreak : Option Nat := none
  lastOutsideParenWhitespaceBreak : Option Nat := none
  lastOutsideParenWhitespaceRunStart : Option Nat := none
  lastAnyNewlineBreak : Option Nat := none
  lastAnyWhitespaceBreak : Option Nat := none
  lastAnyWhitespaceRunStart : Option Nat := none
  parenDepth : Nat := 0
  sawNonWhitespace : Bool := false

def scanSplit (text : CodeUnits) (start : Nat) (s : SplitScan) (index : Nat) : SplitScan :=
  match text[index]? with
  | none => s
  | some char =>
    if char = unit '(' then { s with sawNonWhitespace := true, parenDepth := s.parenDepth + 1 }
    else if char = unit ')' ∧ 0 < s.parenDepth then
      { s with sawNonWhitespace := true, parenDepth := s.parenDepth - 1 }
    else if !isSpaceUnit char then { s with sawNonWhitespace := true }
    else if !s.sawNonWhitespace then s
    else if char = unit '\n' then
      { s with
        lastAnyNewlineBreak := some (index + 1)
        lastOutsideParenNewlineBreak :=
          if s.parenDepth = 0 then some (index + 1) else s.lastOutsideParenNewlineBreak }
    else
      let whitespaceRunStart :=
        if index = start ∨ ¬(text[index - 1]?).any isSpaceUnit then some index
        else s.lastAnyWhitespaceRunStart
      { s with
        lastAnyWhitespaceBreak := some (index + 1)
        lastAnyWhitespaceRunStart := whitespaceRunStart
        lastOutsideParenWhitespaceBreak :=
          if s.parenDepth = 0 then some (index + 1) else s.lastOutsideParenWhitespaceBreak
        lastOutsideParenWhitespaceRunStart :=
          if s.parenDepth = 0 then whitespaceRunStart else s.lastOutsideParenWhitespaceRunStart }

/-- A break inside of a run of white space goes to the beginning of the run. -/
def resolveWhitespaceBreak (text : CodeUnits) (start breakIdx : Nat) (runStart : Option Nat) :
    Nat :=
  match runStart.filter (start < ·) with
  | none => breakIdx
  | some runStart => if (text[breakIdx]?).any isSpaceUnit then runStart else breakIdx

def findMarkdownIRPreservedSplitIndex (text : CodeUnits) (start limit : Nat) : Nat :=
  let maxEnd := min text.length (start + limit)
  if text.length ≤ maxEnd then text.length
  else
    let found := (List.range' start (maxEnd - start)).foldl (scanSplit text start) {}
    match found.lastOutsideParenNewlineBreak.filter (start < ·),
      found.lastOutsideParenWhitespaceBreak.filter (start < ·),
      found.lastAnyNewlineBreak.filter (start < ·),
      found.lastAnyWhitespaceBreak.filter (start < ·) with
    | some breakIdx, _, _, _ => breakIdx
    | none, some breakIdx, _, _ =>
      resolveWhitespaceBreak text start breakIdx found.lastOutsideParenWhitespaceRunStart
    | none, none, some breakIdx, _ => breakIdx
    | none, none, none, some breakIdx =>
      resolveWhitespaceBreak text start breakIdx found.lastAnyWhitespaceRunStart
    | none, none, none, none => maxEnd

/-- Everything that was found is behind no more than `stop`. -/
structure SplitScan.Within (s : SplitScan) (stop : Nat) : Prop where
  outsideNewline : ∀ i ∈ s.lastOutsideParenNewlineBreak, i ≤ stop
  outsideWhitespace : ∀ i ∈ s.lastOutsideParenWhitespaceBreak, i ≤ stop
  outsideRunStart : ∀ i ∈ s.lastOutsideParenWhitespaceRunStart, i ≤ stop
  anyNewline : ∀ i ∈ s.lastAnyNewlineBreak, i ≤ stop
  anyWhitespace : ∀ i ∈ s.lastAnyWhitespaceBreak, i ≤ stop
  anyRunStart : ∀ i ∈ s.lastAnyWhitespaceRunStart, i ≤ stop

theorem mem_if_some_le {found : Option Nat} (hle : last ≤ stop) (h : ∀ i ∈ found, i ≤ stop)
    (outside : Prop) [Decidable outside] :
    ∀ i ∈ if outside then some last else found, i ≤ stop := by
  split
  · rintro i ⟨⟩
    exact hle
  · exact h

theorem SplitScan.Within.scanSplit (h : s.Within stop) (text : CodeUnits) (start : Nat)
    (hindex : index < stop) : (Markdown.scanSplit text start s index).Within stop := by
  unfold Markdown.scanSplit
  split
  · exact h
  split
  · exact { h with }
  split
  · exact { h with }
  split
  · exact { h with }
  split
  · exact h
  split
  · exact
      { h with
        anyNewline := by
          rintro i ⟨⟩
          exact hindex
        outsideNewline := mem_if_some_le hindex h.outsideNewline _ }
  · have hrun := mem_if_some_le hindex.le h.anyRunStart
      (index = start ∨ ¬(text[index - 1]?).any isSpaceUnit)
    refine
      { h with
        anyWhitespace := ?_
        anyRunStart := hrun
        outsideWhitespace := mem_if_some_le hindex h.outsideWhitespace _
        outsideRunStart := ?_ }
    · dsimp only
      split
      · exact hrun
      · exact h.outsideRunStart
    · rintro i ⟨⟩
      exact hindex

theorem found_within (text : CodeUnits) (start maxEnd : Nat) :
    ((List.range' start (maxEnd - start)).foldl (Markdown.scanSplit text start) {}).Within
      maxEnd := by
  refine List.foldlRecOn (motive := fun s => SplitScan.Within s maxEnd) _ _ ?_
    fun s h index hindex => ?_
  · constructor <;> rintro i ⟨⟩
  · refine h.scanSplit text start ?_
    rw [List.mem_range'_1] at hindex
    omega

theorem resolveWhitespaceBreak_bounds (hbreak : start < breakIdx) (hle : breakIdx ≤ stop)
    (hrun : ∀ i ∈ runStart, i ≤ stop) (text : CodeUnits) :
    start < resolveWhitespaceBreak text start breakIdx runStart ∧
      resolveWhitespaceBreak text start breakIdx runStart ≤ stop := by
  unfold resolveWhitespaceBreak
  split
  · exact ⟨hbreak, hle⟩
  next hsome =>
    obtain ⟨hmem, hlt⟩ := Option.filter_eq_some_iff.mp hsome
    split
    · exact ⟨by simpa using hlt, hrun _ hmem⟩
    · exact ⟨hbreak, hle⟩

theorem splitIndex_bounds (hstart : start < text.length) (hlimit : 0 < limit) :
    start < findMarkdownIRPreservedSplitIndex text start limit ∧
      findMarkdownIRPreservedSplitIndex text start limit ≤ min text.length (start + limit) := by
  have hfound := found_within text start (min text.length (start + limit))
  unfold findMarkdownIRPreservedSplitIndex
  dsimp only
  split
  · omega
  have hmem {found : Option Nat} {i : Nat} (h : found.filter (start < ·) = some i) :
      i ∈ found ∧ start < i := by
    obtain ⟨hmem, hlt⟩ := Option.filter_eq_some_iff.mp h
    exact ⟨hmem, by simpa using hlt⟩
  split
  next hbreak =>
    obtain ⟨hbreak, hlt⟩ := hmem hbreak
    exact ⟨hlt, hfound.outsideNewline _ hbreak⟩
  next hbreak =>
    obtain ⟨hbreak, hlt⟩ := hmem hbreak
    exact resolveWhitespaceBreak_bounds hlt (hfound.outsideWhitespace _ hbreak)
      hfound.outsideRunStart text
  next hbreak =>
    obtain ⟨hbreak, hlt⟩ := hmem hbreak
    exact ⟨hlt, hfound.anyNewline _ hbreak⟩
  next hbreak =>
    obtain ⟨hbreak, hlt⟩ := hmem hbreak
    exact resolveWhitespaceBreak_bounds hlt (hfound.anyWhitespace _ hbreak)
      hfound.anyRunStart text
  · omega

-- ---
-- Splitting a chunk
-- ---

/-- The slices from `cursor` on. -/
def splitPreservedFrom (ir : MarkdownIR) (limit : Nat) (cursor : Nat) : List MarkdownIR :=
  if _h : cursor < ir.text.length then
    let stop := findMarkdownIRPreservedSplitIndex ir.text cursor (max 1 limit)
    sliceMarkdownIR ir cursor stop :: splitPreservedFrom ir limit stop
  else []
termination_by ir.text.length - cursor
decreasing_by
  have := (splitIndex_bounds _h (lt_of_lt_of_le zero_lt_one (le_max_left 1 limit))).1
  omega

def splitMarkdownIRPreserveWhitespace (ir : MarkdownIR) (limit : Nat) : List MarkdownIR :=
  if ir.text = [] then []
  else if ir.text.length ≤ max 1 limit then [ir]
  else splitPreservedFrom ir limit 0

/-- The greatest number from `candidateLength` down that fits, zero if there is none. -/
def largestFrom (fits : Nat → Bool) : Nat → Nat
  | 0 => 0
  | candidateLength + 1 =>
    if fits (candidateLength + 1) then candidateLength + 1 else largestFrom fits candidateLength

section Render

variable {R : Type u} (options : RenderResolver R) (limit : Number)

/-- The chunk renders within the limit. -/
def RenderResolver.fits (ir : MarkdownIR) : Bool :=
  (options.measureRendered (options.renderChunk ir)).le limit

def findLargestChunkTextLengthWithinRenderedLimit (chunk : MarkdownIR) : Nat :=
  if chunk.text.length ≤ 1 then chunk.text.length
  else
    largestFrom
      (fun candidateLength => options.fits limit (sliceMarkdownIR chunk 0 candidateLength))
      (chunk.text.length - 1)

def splitMarkdownIRByRenderedLimit (chunk : MarkdownIR) : List MarkdownIR :=
  if chunk.text.length ≤ 1 then [chunk]
  else
    let splitLimit := findLargestChunkTextLengthWithinRenderedLimit options limit chunk
    if splitLimit = 0 then [chunk]
    else
      let split := splitMarkdownIRPreserveWhitespace chunk splitLimit
      if split.head?.any (options.fits limit) then split
      else
        [sliceMarkdownIR chunk 0 splitLimit, sliceMarkdownIR chunk splitLimit chunk.text.length]

end Render

/-- The texts of the chunks, one behind the other. -/
def textsOf (chunks : List MarkdownIR) : CodeUnits := chunks.flatMap MarkdownIR.text

@[simp] theorem textsOf_nil : textsOf [] = [] := rfl

@[simp] theorem textsOf_cons (chunk : MarkdownIR) (chunks : List MarkdownIR) :
    textsOf (chunk :: chunks) = chunk.text ++ textsOf chunks := List.flatMap_cons

@[simp] theorem textsOf_append (chunks more : List MarkdownIR) :
    textsOf (chunks ++ more) = textsOf chunks ++ textsOf more := List.flatMap_append

/-- The pieces are those of a text cut in at least two. -/
structure Divides (chunk : MarkdownIR) (pieces : List MarkdownIR) : Prop where
  many : 2 ≤ pieces.length
  nonempty : ∀ piece ∈ pieces, piece.text ≠ []
  texts : textsOf pieces = chunk.text

theorem slice_ne_nil {text : CodeUnits} (hlt : start < stop) (hle : stop ≤ text.length) :
    slice text start stop ≠ [] := by
  intro hnil
  have hlength := congrArg List.length hnil
  rw [slice, List.length_drop, List.length_take, List.length_nil] at hlength
  omega

theorem slice_append_drop {text : CodeUnits} (hle : start ≤ stop) :
    slice text start stop ++ text.drop stop = text.drop start := by
  rw [slice, List.drop_take]
  conv_lhs => rw [← Nat.add_sub_of_le hle, Nat.add_sub_cancel_left, ← List.drop_drop]
  exact List.take_append_drop _ _

theorem splitPreservedFrom_cons {ir : MarkdownIR} (h : cursor < ir.text.length) (limit : Nat) :
    splitPreservedFrom ir limit cursor =
      sliceMarkdownIR ir cursor
          (findMarkdownIRPreservedSplitIndex ir.text cursor (max 1 limit)) ::
        splitPreservedFrom ir limit
          (findMarkdownIRPreservedSplitIndex ir.text cursor (max 1 limit)) := by
  rw [splitPreservedFrom, dif_pos h]

theorem splitPreservedFrom_spec (ir : MarkdownIR) (limit cursor : Nat) :
    (∀ piece ∈ splitPreservedFrom ir limit cursor, piece.text ≠ []) ∧
      textsOf (splitPreservedFrom ir limit cursor) = ir.text.drop cursor := by
  induction hleft : ir.text.length - cursor using Nat.strong_induction_on generalizing cursor with
  | _ left ih =>
    by_cases hlt : cursor < ir.text.length
    · rw [splitPreservedFrom_cons hlt]
      obtain ⟨hstop, hle⟩ :=
        splitIndex_bounds hlt (lt_of_lt_of_le zero_lt_one (le_max_left 1 limit))
      generalize findMarkdownIRPreservedSplitIndex ir.text cursor (max 1 limit) = stop at *
      have hend : stop ≤ ir.text.length := hle.trans (min_le_left _ _)
      obtain ⟨hnonempty, htexts⟩ := ih (ir.text.length - stop) (by omega) stop rfl
      refine ⟨List.forall_mem_cons.mpr ⟨slice_ne_nil hstop hend, hnonempty⟩, ?_⟩
      rw [textsOf_cons, htexts]
      exact slice_append_drop hstop.le
    · rw [splitPreservedFrom, dif_neg hlt]
      exact ⟨List.forall_mem_nil _, (List.drop_eq_nil_of_le (by omega)).symm⟩

theorem largestFrom_spec (fits : Nat → Bool) (n : Nat) :
    largestFrom fits n = 0 ∧ (∀ m, 0 < m → m ≤ n → fits m = false) ∨
      0 < largestFrom fits n ∧ largestFrom fits n ≤ n ∧ fits (largestFrom fits n) = true := by
  induction n with
  | zero => exact .inl ⟨rfl, fun m hpos hle => absurd hpos (by omega)⟩
  | succ n ih =>
    unfold largestFrom
    cases hfits : fits (n + 1) with
    | true => exact .inr ⟨by simp, by simp, by simpa⟩
    | false =>
      simp only [Bool.false_eq_true, if_false]
      rcases ih with ⟨hzero, hnone⟩ | ⟨hpos, hle, hfit⟩
      · refine .inl ⟨hzero, fun m hpos hle => ?_⟩
        rcases Nat.le_succ_iff.mp hle with hle | rfl
        · exact hnone m hpos hle
        · exact hfits
      · exact .inr ⟨hpos, hle.trans (Nat.le_succ n), hfit⟩

theorem divides_preserved {chunk : MarkdownIR} (hpos : 0 < limit)
    (hlt : limit < chunk.text.length) :
    Divides chunk (splitMarkdownIRPreserveWhitespace chunk limit) := by
  have hne : chunk.text ≠ [] := List.ne_nil_of_length_pos (by omega)
  obtain ⟨hnonempty, htexts⟩ := splitPreservedFrom_spec chunk limit 0
  rw [splitMarkdownIRPreserveWhitespace, if_neg hne, if_neg (by omega)]
  refine ⟨?_, hnonempty, by rw [htexts, List.drop_zero]⟩
  have hstart : 0 < chunk.text.length := List.length_pos_iff.mpr hne
  obtain ⟨hstop, hle⟩ :=
    splitIndex_bounds hstart (lt_of_lt_of_le zero_lt_one (le_max_left 1 limit))
  rw [splitPreservedFrom_cons hstart, splitPreservedFrom_cons (by omega)]
  simp

theorem divides_halves {chunk : MarkdownIR} (hpos : 0 < limit)
    (hlt : limit < chunk.text.length) :
    Divides chunk
      [sliceMarkdownIR chunk 0 limit, sliceMarkdownIR chunk limit chunk.text.length] where
  many := by simp
  nonempty := by
    simp only [List.forall_mem_cons, List.not_mem_nil, false_imp_iff, implies_true, and_true]
    exact ⟨slice_ne_nil hpos hlt.le, slice_ne_nil hlt (Nat.le_refl _)⟩
  texts := by
    simp [textsOf, sliceMarkdownIR, slice]

section Render

variable {R : Type u} {options : RenderResolver R} {limit : Number}

/-- The chunk renders within the limit, is a single character, or has no prefix that does. -/
def RenderResolver.Fitted (options : RenderResolver R) (limit : Number) (chunk : MarkdownIR) :
    Prop :=
  options.fits limit chunk = true ∨ chunk.text.length = 1 ∨
    ∀ length, 0 < length → length < chunk.text.length →
      options.fits limit (sliceMarkdownIR chunk 0 length) = false

/-- A chunk is left as it is where it cannot be cut, and else it is divided. -/
theorem splitMarkdownIRByRenderedLimit_spec {chunk : MarkdownIR} (hlong : 1 < chunk.text.length) :
    splitMarkdownIRByRenderedLimit options limit chunk = [chunk] ∧
        (∀ length, 0 < length → length < chunk.text.length →
          options.fits limit (sliceMarkdownIR chunk 0 length) = false) ∨
      Divides chunk (splitMarkdownIRByRenderedLimit options limit chunk) := by
  have hspec := largestFrom_spec
    (fun candidateLength => options.fits limit (sliceMarkdownIR chunk 0 candidateLength))
    (chunk.text.length - 1)
  unfold splitMarkdownIRByRenderedLimit findLargestChunkTextLengthWithinRenderedLimit
  simp only [if_neg (show ¬ chunk.text.length ≤ 1 by omega)]
  rcases hspec with ⟨hzero, hnone⟩ | ⟨hpos, hle, -⟩
  · rw [if_pos hzero]
    exact .inl ⟨rfl, fun length hpos hlt => hnone length hpos (by omega)⟩
  · rw [if_neg (by omega)]
    refine .inr ?_
    split
    · exact divides_preserved hpos (by omega)
    · exact divides_halves hpos (by omega)

-- ---
-- The worklist
-- ---

/-- What there is to do for a chunk. A cut leaves less to do than there was. -/
def work (chunk : MarkdownIR) : Nat := max 1 (2 * chunk.text.length - 1)

theorem sum_work {chunks : List MarkdownIR} (h : ∀ chunk ∈ chunks, chunk.text ≠ []) :
    (chunks.map work).sum + chunks.length = 2 * (textsOf chunks).length := by
  induction chunks with
  | nil => rfl
  | cons chunk chunks ih =>
    obtain ⟨hchunk, hchunks⟩ := List.forall_mem_cons.mp h
    have hpos := List.length_pos_iff.mpr hchunk
    have hrest := ih hchunks
    rw [List.map_cons, List.sum_cons, List.length_cons, textsOf_cons, List.length_append, work]
    omega

theorem Divides.work_lt (h : Divides chunk pieces) : (pieces.map work).sum < work chunk := by
  have hsum := sum_work h.nonempty
  have hmany := h.many
  rw [h.texts] at hsum
  rw [work]
  omega

theorem Divides.sum_lt (h : Divides chunk pieces) (pending : List MarkdownIR) :
    ((pieces ++ pending).map work).sum < ((chunk :: pending).map work).sum := by
  have hlt := h.work_lt
  rw [List.map_append, List.sum_append, List.map_cons, List.sum_cons]
  omega

theorem sum_lt_cons (chunk : MarkdownIR) (pending : List MarkdownIR) :
    (pending.map work).sum < ((chunk :: pending).map work).sum := by
  have hpos : 1 ≤ work chunk := le_max_left _ _
  rw [List.map_cons, List.sum_cons]
  omega

theorem divides_of_many {chunk : MarkdownIR} (hlong : 1 < chunk.text.length)
    (hmany : ¬ (splitMarkdownIRByRenderedLimit options limit chunk).length ≤ 1) :
    Divides chunk (splitMarkdownIRByRenderedLimit options limit chunk) := by
  refine (splitMarkdownIRByRenderedLimit_spec hlong).resolve_left fun h => hmany ?_
  rw [h.1, List.length_singleton]

/-- The chunks that are settled, one after the other. -/
def finalizeChunks (options : RenderResolver R) (limit : Number) : List MarkdownIR → List MarkdownIR
  | [] => []
  | chunk :: pending =>
    if options.fits limit chunk then chunk :: finalizeChunks options limit pending
    else if _hlong : 1 < chunk.text.length then
      let split := splitMarkdownIRByRenderedLimit options limit chunk
      if _hmany : split.length ≤ 1 then chunk :: finalizeChunks options limit pending
      else finalizeChunks options limit (split ++ pending)
    else chunk :: finalizeChunks options limit pending
termination_by pending => (pending.map work).sum
decreasing_by
  · exact sum_lt_cons chunk pending
  · exact sum_lt_cons chunk pending
  · exact (divides_of_many _hlong _hmany).sum_lt pending
  · exact sum_lt_cons chunk pending

/-- A chunk of the result: it has a text, and fits as far as it can be cut to. -/
def RenderResolver.Settled (options : RenderResolver R) (limit : Number) (chunk : MarkdownIR) :
    Prop := chunk.text ≠ [] ∧ options.Fitted limit chunk

/-- Settling chunks loses nothing of their texts. -/
theorem finalizeChunks_spec {pending : List MarkdownIR} (h : ∀ chunk ∈ pending, chunk.text ≠ []) :
    (∀ chunk ∈ finalizeChunks options limit pending, options.Settled limit chunk) ∧
      textsOf (finalizeChunks options limit pending) = textsOf pending := by
  have hsettle {chunk : MarkdownIR} {pending : List MarkdownIR}
      (h : ∀ piece ∈ chunk :: pending, piece.text ≠ []) (hchunk : options.Fitted limit chunk)
      (ih : (∀ chunk ∈ pending, chunk.text ≠ []) →
        (∀ chunk ∈ finalizeChunks options limit pending, options.Settled limit chunk) ∧
          textsOf (finalizeChunks options limit pending) = textsOf pending) :
      (∀ piece ∈ chunk :: finalizeChunks options limit pending, options.Settled limit piece) ∧
        textsOf (chunk :: finalizeChunks options limit pending) = textsOf (chunk :: pending) := by
    obtain ⟨hne, hpending⟩ := List.forall_mem_cons.mp h
    obtain ⟨hsettled, htexts⟩ := ih hpending
    exact ⟨List.forall_mem_cons.mpr ⟨⟨hne, hchunk⟩, hsettled⟩,
      by rw [textsOf_cons, htexts, textsOf_cons]⟩
  fun_induction finalizeChunks options limit pending with
  | case1 => exact ⟨List.forall_mem_nil _, rfl⟩
  | case2 chunk pending hfits ih => exact hsettle h (.inl hfits) ih
  | case3 chunk pending hfits hlong split hmany ih =>
    refine hsettle h ?_ ih
    rcases splitMarkdownIRByRenderedLimit_spec hlong with ⟨-, hnone⟩ | hdivides
    · exact .inr (.inr hnone)
    · exact absurd (hdivides.many.trans hmany) (by omega)
  | case4 chunk pending hfits hlong split hmany ih =>
    have hdivides := divides_of_many hlong hmany
    obtain ⟨hne, hpending⟩ := List.forall_mem_cons.mp h
    obtain ⟨hsettled, htexts⟩ := ih (List.forall_mem_append.mpr ⟨hdivides.nonempty, hpending⟩)
    refine ⟨hsettled, ?_⟩
    rw [htexts, textsOf_append, hdivides.texts, textsOf_cons]
  | case5 chunk pending hfits hlong ih =>
    have hpos := List.length_pos_iff.mpr (List.forall_mem_cons.mp h).1
    exact hsettle h (.inr (.inl (by omega))) ih

end Render

-- ---
-- Chunks of white space
-- ---

/-- The loop, `last` being the last span that was merged. -/
def mergeAdjacentStylesInto (last : MarkdownStyleSpan) :
    List MarkdownStyleSpan → List MarkdownStyleSpan
  | [] => [last]
  | span :: rest =>
    if last.style = span.style ∧ span.start ≤ last.stop then
      mergeAdjacentStylesInto { last with stop := max last.stop span.stop } rest
    else last :: mergeAdjacentStylesInto span rest

def mergeAdjacentStyleSpans : List MarkdownStyleSpan → List MarkdownStyleSpan
  | [] => []
  | span :: rest => mergeAdjacentStylesInto span rest

def mergeAdjacentLinksInto (last : MarkdownLinkSpan) :
    List MarkdownLinkSpan → List MarkdownLinkSpan
  | [] => [last]
  | link :: rest =>
    if last.href = link.href ∧ link.start ≤ last.stop then
      mergeAdjacentLinksInto { last with stop := max last.stop link.stop } rest
    else last :: mergeAdjacentLinksInto link rest

def mergeAdjacentLinkSpans : List MarkdownLinkSpan → List MarkdownLinkSpan
  | [] => []
  | link :: rest => mergeAdjacentLinksInto link rest

def mergeMarkdownIRChunks (left right : MarkdownIR) : MarkdownIR :=
  let offset := left.text.length
  { text := left.text ++ right.text
    styles :=
      mergeAdjacentStyleSpans
        (left.styles ++ right.styles.map fun span =>
          { span with start := span.start + offset, stop := span.stop + offset })
    links :=
      mergeAdjacentLinkSpans
        (left.links ++ right.links.map fun link =>
          { link with start := link.start + offset, stop := link.stop + offset }) }

section Coalesce

variable (canMerge : MarkdownIR → Bool)

/-- The blank chunk goes to the end of the previous one. -/
def mergePrev? (coalesced : List MarkdownIR) (chunk : MarkdownIR) : Option (List MarkdownIR) :=
  coalesced.getLast?.bind fun prev =>
    let mergedPrev := mergeMarkdownIRChunks prev chunk
    if canMerge mergedPrev then some (coalesced.dropLast ++ [mergedPrev]) else none

/-- The blank chunk goes to the beginning of the next one. -/
def mergeNext? (chunk : MarkdownIR) : List MarkdownIR → Option (List MarkdownIR)
  | [] => none
  | next :: rest =>
    let mergedNext := mergeMarkdownIRChunks chunk next
    if canMerge mergedNext then some (mergedNext :: rest) else none

/-- The blank chunk goes to both, the longest part that can to the previous one. -/
def mergeBoth? (coalesced : List MarkdownIR) (chunk : MarkdownIR) (rest : List MarkdownIR) :
    Option (List MarkdownIR × List MarkdownIR) :=
  (List.range' 1 (chunk.text.length - 1)).reverse.findSome? fun prefixLength =>
    (mergePrev? canMerge coalesced (sliceMarkdownIR chunk 0 prefixLength)).bind fun coalesced =>
      (mergeNext? canMerge (sliceMarkdownIR chunk prefixLength chunk.text.length) rest).map
        (coalesced, ·)

/-- What becomes of the chunks before and behind a blank one. -/
def placeBlank (coalesced : List MarkdownIR) (chunk : MarkdownIR) (rest : List MarkdownIR) :
    List MarkdownIR × List MarkdownIR :=
  match mergePrev? canMerge coalesced chunk with
  | some coalesced => (coalesced, rest)
  | none =>
    match mergeNext? canMerge chunk rest with
    | some rest => (coalesced, rest)
    | none => (mergeBoth? canMerge coalesced chunk rest).getD (coalesced, rest)

/-- Nothing but blank characters were added, or none; the chunks that changed can be merged. -/
structure Placed (coalesced chunks coalesced' chunks' : List MarkdownIR) : Prop where
  length : chunks'.length = chunks.length
  texts : (textsOf coalesced' ++ textsOf chunks').filter (!isSpaceUnit ·) =
    (textsOf coalesced ++ textsOf chunks).filter (!isSpaceUnit ·)
  before : ∀ chunk ∈ coalesced', chunk ∈ coalesced ∨ chunk.text ≠ [] ∧ canMerge chunk = true
  behind : ∀ chunk ∈ chunks', chunk ∈ chunks ∨ chunk.text ≠ [] ∧ canMerge chunk = true

variable {canMerge}

theorem mergePrev?_eq_some (h : mergePrev? canMerge coalesced chunk = some coalesced') :
    ∃ init prev, coalesced = init ++ [prev] ∧
      coalesced' = init ++ [mergeMarkdownIRChunks prev chunk] ∧
        canMerge (mergeMarkdownIRChunks prev chunk) = true := by
  obtain ⟨prev, hlast, hmerged⟩ := Option.bind_eq_some_iff.mp h
  obtain ⟨init, rfl⟩ := List.getLast?_eq_some_iff.mp hlast
  simp only [Option.ite_none_right_eq_some, List.dropLast_concat, Option.some.injEq] at hmerged
  exact ⟨init, prev, rfl, hmerged.2.symm, hmerged.1⟩

theorem mergeNext?_eq_some (h : mergeNext? canMerge chunk chunks = some chunks') :
    ∃ next rest, chunks = next :: rest ∧ chunks' = mergeMarkdownIRChunks chunk next :: rest ∧
      canMerge (mergeMarkdownIRChunks chunk next) = true := by
  cases chunks with
  | nil => cases h
  | cons next rest =>
    simp only [mergeNext?, Option.ite_none_right_eq_some, Option.some.injEq] at h
    exact ⟨next, rest, rfl, h.2.symm, h.1⟩

theorem filter_blank {text : CodeUnits} (h : isBlank text = true) :
    text.filter (!isSpaceUnit ·) = [] := by
  rw [List.filter_eq_nil_iff]
  exact fun u hu => by simp [List.all_eq_true.mp h u hu]

@[simp] theorem merged_text (left right : MarkdownIR) :
    (mergeMarkdownIRChunks left right).text = left.text ++ right.text := rfl

theorem placed_prev (hne : ∀ chunk ∈ coalesced, chunk.text ≠ [])
    (hblank : isBlank chunk.text = true)
    (h : mergePrev? canMerge coalesced chunk = some coalesced') (chunks : List MarkdownIR) :
    Placed canMerge coalesced chunks coalesced' chunks := by
  obtain ⟨init, prev, rfl, rfl, hmerge⟩ := mergePrev?_eq_some h
  refine ⟨rfl, ?_, ?_, fun chunk hmem => .inl hmem⟩
  · simp [List.filter_append, filter_blank hblank]
  · intro merged hmem
    rcases List.mem_append.mp hmem with hmem | hmem
    · exact .inl (List.mem_append_left _ hmem)
    · rw [List.mem_singleton.mp hmem]
      refine .inr ⟨?_, hmerge⟩
      simp [hne prev (by simp)]

theorem placed_next (hne : ∀ chunk ∈ chunks, chunk.text ≠ [])
    (hblank : isBlank chunk.text = true)
    (h : mergeNext? canMerge chunk chunks = some chunks') (coalesced : List MarkdownIR) :
    Placed canMerge coalesced chunks coalesced chunks' := by
  obtain ⟨next, rest, rfl, rfl, hmerge⟩ := mergeNext?_eq_some h
  refine ⟨rfl, ?_, fun chunk hmem => .inl hmem, ?_⟩
  · simp [List.filter_append, filter_blank hblank]
  · intro merged hmem
    rcases List.mem_cons.mp hmem with rfl | hmem
    · refine .inr ⟨?_, hmerge⟩
      simp [hne next (by simp)]
    · exact .inl (List.mem_cons_of_mem _ hmem)

theorem isBlank_slice (h : isBlank text = true) (start stop : Nat) :
    isBlank (slice text start stop) = true :=
  List.all_eq_true.mpr fun u hu =>
    List.all_eq_true.mp h u (List.mem_of_mem_take (List.mem_of_mem_drop hu))

theorem Placed.trans (h : Placed canMerge coalesced chunks coalesced' chunks')
    (h' : Placed canMerge coalesced' chunks' coalesced'' chunks'') :
    Placed canMerge coalesced chunks coalesced'' chunks'' where
  length := h'.length.trans h.length
  texts := h'.texts.trans h.texts
  before chunk hmem := (h'.before chunk hmem).elim (h.before chunk) .inr
  behind chunk hmem := (h'.behind chunk hmem).elim (h.behind chunk) .inr

theorem placeBlank_placed (hcoalesced : ∀ chunk ∈ coalesced, chunk.text ≠ [])
    (hchunks : ∀ chunk ∈ chunks, chunk.text ≠ []) (hblank : isBlank chunk.text = true) :
    Placed canMerge coalesced chunks (placeBlank canMerge coalesced chunk chunks).1
      (placeBlank canMerge coalesced chunk chunks).2 := by
  unfold placeBlank
  split
  next hprev => exact placed_prev hcoalesced hblank hprev chunks
  split
  next hnext => exact placed_next hchunks hblank hnext coalesced
  cases hboth : mergeBoth? canMerge coalesced chunk chunks with
  | none => exact ⟨rfl, rfl, fun chunk hmem => .inl hmem, fun chunk hmem => .inl hmem⟩
  | some both =>
    obtain ⟨prefixLength, -, hparts⟩ := List.exists_of_findSome?_eq_some hboth
    obtain ⟨coalesced', hprev, hparts⟩ := Option.bind_eq_some_iff.mp hparts
    obtain ⟨chunks', hnext, rfl⟩ := Option.map_eq_some_iff.mp hparts
    exact (placed_prev hcoalesced (isBlank_slice hblank _ _) hprev chunks).trans
      (placed_next hchunks (isBlank_slice hblank _ _) hnext coalesced')

theorem length_mergeNext? (h : mergeNext? canMerge chunk chunks = some chunks') :
    chunks'.length = chunks.length := by
  obtain ⟨next, rest, rfl, rfl, -⟩ := mergeNext?_eq_some h
  rfl

theorem length_placeBlank (canMerge : MarkdownIR → Bool) (coalesced : List MarkdownIR)
    (chunk : MarkdownIR) (chunks : List MarkdownIR) :
    (placeBlank canMerge coalesced chunk chunks).2.length = chunks.length := by
  unfold placeBlank
  split
  · rfl
  split
  next hnext => exact length_mergeNext? hnext
  cases hboth : mergeBoth? canMerge coalesced chunk chunks with
  | none => rfl
  | some both =>
    obtain ⟨prefixLength, -, hparts⟩ := List.exists_of_findSome?_eq_some hboth
    obtain ⟨coalesced', -, hparts⟩ := Option.bind_eq_some_iff.mp hparts
    obtain ⟨chunks', hnext, rfl⟩ := Option.map_eq_some_iff.mp hparts
    exact length_mergeNext? hnext

/-- The loop over the chunks that are left. -/
def coalesceFrom (canMerge : MarkdownIR → Bool) (coalesced : List MarkdownIR) :
    List MarkdownIR → List MarkdownIR
  | [] => coalesced
  | chunk :: chunks =>
    if !isBlank chunk.text then coalesceFrom canMerge (coalesced ++ [chunk]) chunks
    else
      let placed := placeBlank canMerge coalesced chunk chunks
      coalesceFrom canMerge placed.1 placed.2
termination_by chunks => chunks.length
decreasing_by
  · exact Nat.lt_succ_self _
  · exact Nat.lt_succ_of_le (length_placeBlank canMerge coalesced chunk chunks).le

theorem coalesceFrom_spec {coalesced chunks : List MarkdownIR} {P : MarkdownIR → Prop}
    (hP : ∀ chunk, chunk.text ≠ [] → canMerge chunk = true → P chunk)
    (hne : ∀ chunk, P chunk → chunk.text ≠ []) (hcoalesced : ∀ chunk ∈ coalesced, P chunk)
    (hchunks : ∀ chunk ∈ chunks, P chunk) :
    (∀ chunk ∈ coalesceFrom canMerge coalesced chunks, P chunk) ∧
      (textsOf (coalesceFrom canMerge coalesced chunks)).filter (!isSpaceUnit ·) =
        (textsOf coalesced ++ textsOf chunks).filter (!isSpaceUnit ·) := by
  fun_induction coalesceFrom canMerge coalesced chunks with
  | case1 coalesced => exact ⟨hcoalesced, by simp⟩
  | case2 coalesced chunk chunks hplain ih =>
    obtain ⟨hchunk, hchunks⟩ := List.forall_mem_cons.mp hchunks
    obtain ⟨hall, htexts⟩ := ih (List.forall_mem_append.mpr ⟨hcoalesced, by simpa⟩) hchunks
    exact ⟨hall, by simpa using htexts⟩
  | case3 coalesced chunk chunks hblank placed ih =>
    obtain ⟨-, hchunks⟩ := List.forall_mem_cons.mp hchunks
    have hblank : isBlank chunk.text = true := by simpa using hblank
    have hplaced : Placed canMerge coalesced chunks placed.1 placed.2 :=
      placeBlank_placed (fun chunk hmem => hne chunk (hcoalesced chunk hmem))
        (fun chunk hmem => hne chunk (hchunks chunk hmem)) hblank
    obtain ⟨hall, htexts⟩ := ih
      (fun chunk hmem =>
        (hplaced.before chunk hmem).elim (hcoalesced chunk) fun h => hP chunk h.1 h.2)
      (fun chunk hmem =>
        (hplaced.behind chunk hmem).elim (hchunks chunk) fun h => hP chunk h.1 h.2)
    refine ⟨hall, htexts.trans (hplaced.texts.trans ?_)⟩
    simp [List.filter_append, filter_blank hblank]

end Coalesce

-- ---
-- Rendered chunks
-- ---

section Render

variable {R : Type u}

def coalesceWhitespaceOnlyMarkdownIRChunks (options : RenderResolver R) (limit : Number)
    (chunks : List MarkdownIR) : List MarkdownIR :=
  coalesceFrom (options.fits limit) [] chunks

theorem normalizedLimit_atLeastOne (limit : Number) :
    (Number.max (.ofInt 1) limit.floor).lt (.ofInt 1) = false := by
  unfold Number.max
  split
  next hnan =>
    rfl
  · split
    next hlt =>
      cases hfloor : limit.floor with
      | fin q =>
        simp only [hfloor, Number.lt, Number.ofInt, decide_eq_true_eq] at hlt
        simp [Number.lt, Number.ofInt] at hlt ⊢
        exact hlt.le
      | _ => simp_all [Number.lt, Number.ofInt]
    · simp [Number.lt, Number.ofInt]

/-- `Math.max(1, Math.floor(limit))` -/
def normalizeLimit (limit : Number) : ChunkLimit where
  value := Number.max (.ofInt 1) limit.floor
  atLeastOne := normalizedLimit_atLeastOne limit

def renderMarkdownIRChunksWithinLimit (options : RenderResolver R) (ir : MarkdownIR)
    (limit : Number) : List (RenderedMarkdownChunk R) :=
  if ir.text = [] then []
  else
    let normalizedLimit := normalizeLimit limit
    let finalized :=
      finalizeChunks options normalizedLimit.value (chunkMarkdownIR ir normalizedLimit)
    (coalesceWhitespaceOnlyMarkdownIRChunks options normalizedLimit.value finalized).map
      fun source => { source, rendered := options.renderChunk source }

theorem map_text_placeChunks {ir : MarkdownIR} {chunks : List CodeUnits}
    (h : ∀ chunk ∈ chunks, chunk ≠ []) (first : Bool) (cursor : Nat) :
    (placeChunks ir first cursor chunks).map MarkdownIR.text = chunks := by
  induction chunks generalizing first cursor with
  | nil => rfl
  | cons chunk chunks ih =>
    obtain ⟨hchunk, hchunks⟩ := List.forall_mem_cons.mp h
    simp only [placeChunks, if_neg hchunk, List.map_cons, ih hchunks]

theorem chunkMarkdownIR_texts (ir : MarkdownIR) (limit : ChunkLimit) :
    (∀ chunk ∈ chunkMarkdownIR ir limit, chunk.text ≠ []) ∧
      (textsOf (chunkMarkdownIR ir limit)).filter (!isSpaceUnit ·) =
        ir.text.filter (!isSpaceUnit ·) := by
  by_cases hempty : ir.text = []
  · rw [chunkMarkdownIR, if_pos hempty]
    exact ⟨List.forall_mem_nil _, by rw [hempty]; rfl⟩
  have hcases : chunkMarkdownIR ir limit = [ir] ∧ _ ∨ _ := chunkMarkdownIR_eq hempty
  rcases hcases with ⟨heq, -⟩ | heq
  · rw [heq]
    exact ⟨by simpa, by simp⟩
  · have hne : ∀ chunk ∈ chunkRemaining limit lastBreak ir.text, chunk ≠ [] :=
      ne_nil_of_mem_chunkRemaining
    have htexts : (placeChunks ir true 0 _).map MarkdownIR.text = _ :=
      map_text_placeChunks hne true 0
    rw [heq]
    constructor
    · intro chunk hmem
      refine hne chunk.text ?_
      rw [← htexts]
      exact List.mem_map_of_mem hmem
    · rw [textsOf, List.flatMap_def, htexts, filter_chunkRemaining]

theorem coalesceWhitespaceOnlyMarkdownIRChunks_spec {options : RenderResolver R}
    {chunks : List MarkdownIR} (h : ∀ chunk ∈ chunks, options.Settled limit chunk) :
    (∀ chunk ∈ coalesceWhitespaceOnlyMarkdownIRChunks options limit chunks,
        options.Settled limit chunk) ∧
      (textsOf (coalesceWhitespaceOnlyMarkdownIRChunks options limit chunks)).filter
          (!isSpaceUnit ·) = (textsOf chunks).filter (!isSpaceUnit ·) :=
  coalesceFrom_spec (P := options.Settled limit) (fun _ hne hfits => ⟨hne, .inl hfits⟩)
    (fun _ h => h.1) (List.forall_mem_nil _) h

/-- The chunks have the characters of the text, except for white space, and each one renders
within the limit if it can. -/
theorem renderMarkdownIRChunksWithinLimit_spec (options : RenderResolver R) (ir : MarkdownIR)
    (limit : Number) :
    ((renderMarkdownIRChunksWithinLimit options ir limit).flatMap (·.source.text)).filter
        (!isSpaceUnit ·) = ir.text.filter (!isSpaceUnit ·) ∧
      ∀ chunk ∈ renderMarkdownIRChunksWithinLimit options ir limit,
        chunk.rendered = options.renderChunk chunk.source ∧
          options.Settled (normalizeLimit limit).value chunk.source := by
  unfold renderMarkdownIRChunksWithinLimit
  split
  next hempty => simp [hempty]
  dsimp only
  obtain ⟨hne, htexts⟩ := chunkMarkdownIR_texts ir (normalizeLimit limit)
  generalize chunkMarkdownIR ir (normalizeLimit limit) = pending at hne htexts
  generalize (normalizeLimit limit).value = limit
  have hfinal : (∀ chunk ∈ finalizeChunks options limit pending, options.Settled limit chunk) ∧
      textsOf (finalizeChunks options limit pending) = textsOf pending := finalizeChunks_spec hne
  obtain ⟨hsettled, hsame⟩ := hfinal
  obtain ⟨hall, hplain⟩ := coalesceWhitespaceOnlyMarkdownIRChunks_spec hsettled
  constructor
  · rw [List.flatMap_map]
    exact hplain.trans (by rw [hsame, htexts])
  · intro chunk hmem
    obtain ⟨source, hsource, rfl⟩ := List.mem_map.mp hmem
    exact ⟨rfl, hall source hsource⟩

end Render

/-- A size that is no integer: two letters are wider than one. -/
def letterWidth : RenderResolver CodeUnits where
  measureRendered rendered := if rendered.length ≤ 1 then .fin (11 / 5) else .fin 3
  renderChunk := MarkdownIR.text

/-- Within a limit that is no integer, what counts is the limit rounded down. -/
theorem not_fitted_fraction :
    ¬ ∀ (R : Type) (options : RenderResolver R) (ir : MarkdownIR) (limit : Number),
      ∀ chunk ∈ renderMarkdownIRChunksWithinLimit options ir limit,
        options.Fitted limit chunk.source := by
  intro h
  have htexts :
      (renderMarkdownIRChunksWithinLimit letterWidth ⟨[unit 'a', unit 'b'], [], []⟩
        (.fin (5 / 2))).map (·.source.text) = [[unit 'a', unit 'b']] := by decide +kernel
  obtain ⟨chunk, hmem, htext⟩ := List.mem_map.mp (htexts ▸ List.mem_singleton_self _)
  have hfits (ir : MarkdownIR) : letterWidth.fits (.fin (5 / 2)) ir =
      (letterWidth.measureRendered ir.text).le (.fin (5 / 2)) := rfl
  rcases h CodeUnits letterWidth _ _ chunk hmem with hwhole | hone | hnone
  · rw [hfits, htext] at hwhole
    exact absurd hwhole (by decide +kernel)
  · rw [htext] at hone
    cases hone
  · have hprefix := hnone 1 zero_lt_one (by rw [htext]; exact Nat.lt_succ_self 1)
    have hslice : (sliceMarkdownIR chunk.source 0 1).text = [unit 'a'] :=
      congrArg (slice · 0 1) htext
    rw [hfits, hslice] at hprefix
    exact absurd hprefix (by decide +kernel)

end OpenClaw.Markdown
