import OpenClaw.AutoReply.Chunk
import OpenClaw.Js.Double
import OpenClaw.Markdown.Render

/-!
# Chunks of a formatted text

A text is cut at line ends and spaces, and the white space at the cuts is dropped. The chunks
are then found again in the text, for the styles and links that fall on them.
-/

namespace OpenClaw.Markdown

open Js
open AutoReply.Chunk (scanParenAwareBreakpoints)

-- ---
-- Cutting a text
-- ---

/-- What a text can be cut to, from one on. Nothing is longer than `NaN`. -/
structure ChunkLimit where
  value : Number
  atLeastOne : value.lt (.ofInt 1) = false

/-- The position that a number stands for in `slice`. -/
def position : Number → Nat
  | .fin q => floorNat q
  | _ => 0

/-- Where the next chunk ends, `none` being -1. -/
def breakIndex (limit : Number) (candidateBreak : Option Nat) : Nat :=
  match candidateBreak with
  | some candidateBreak =>
    if 0 < candidateBreak ∧ (Number.ofInt candidateBreak).le limit then candidateBreak
    else position limit
  | none => position limit

/-- The chunk up to the break, `trimEnd` of it. -/
def chunkBefore (remaining : CodeUnits) (breakIdx : Nat) : CodeUnits :=
  (remaining.take breakIdx).rdropWhile isSpaceUnit

/-- What remains behind the break and a separator there, `trimStart` of it. -/
def remainingAfter (remaining : CodeUnits) (breakIdx : Nat) : CodeUnits :=
  let brokeOnSeparator := (remaining[breakIdx]?).any isSpaceUnit
  let nextStart := min remaining.length (breakIdx + if brokeOnSeparator then 1 else 0)
  (remaining.drop nextStart).dropWhile isSpaceUnit

-- ---
-- What a cut takes away
-- ---

theorem remainingAfter_eq (remaining : CodeUnits) (breakIdx : Nat) :
    remainingAfter remaining breakIdx = (remaining.drop breakIdx).dropWhile isSpaceUnit := by
  unfold remainingAfter
  cases hdrop : remaining.drop breakIdx with
  | nil =>
    have hlength : remaining.length ≤ breakIdx := List.drop_eq_nil_iff.mp hdrop
    simp [hlength]
  | cons u rest =>
    have hlt : breakIdx < remaining.length := by
      by_contra hle
      rw [List.drop_eq_nil_of_le (by omega)] at hdrop
      cases hdrop
    have hu : remaining[breakIdx]? = some u := by
      rw [← List.head?_drop, hdrop, List.head?_cons]
    have hrest : remaining.drop (breakIdx + 1) = rest := by
      rw [← List.tail_drop, hdrop, List.tail_cons]
    cases hspace : isSpaceUnit u with
    | true => simp [hu, hspace, Nat.min_eq_right hlt, hrest]
    | false => simp [hu, hspace, Nat.min_eq_right hlt.le, hdrop]

/-- A cut leaves out white space only. -/
theorem exists_gap (remaining : CodeUnits) (breakIdx : Nat) :
    ∃ gap : CodeUnits, (∀ u ∈ gap, isSpaceUnit u = true) ∧
      remaining = chunkBefore remaining breakIdx ++ (gap ++ remainingAfter remaining breakIdx) := by
  refine ⟨(remaining.take breakIdx).rtakeWhile isSpaceUnit ++
    (remaining.drop breakIdx).takeWhile isSpaceUnit, ?_, ?_⟩
  · intro u hu
    rcases List.mem_append.mp hu with hu | hu
    · exact List.mem_rtakeWhile_imp hu
    · exact List.mem_takeWhile_imp hu
  · rw [remainingAfter_eq, chunkBefore, List.append_assoc, List.takeWhile_append_dropWhile,
      ← List.append_assoc, List.rdropWhile_append_rtakeWhile, List.take_append_drop]

theorem remainingAfter_trimmed (remaining : CodeUnits) (breakIdx : Nat) :
    (remainingAfter remaining breakIdx).dropWhile isSpaceUnit =
      remainingAfter remaining breakIdx := by
  rw [remainingAfter_eq, List.dropWhile_idempotent]

theorem lt_lengthOf_iff {limit : ChunkLimit} {text : CodeUnits} :
    limit.value.lt (lengthOf text) = true ↔
      ∃ q : Rat, limit.value = .fin q ∧ 1 ≤ q ∧ q < text.length := by
  obtain ⟨limit, hlimit⟩ := limit
  cases limit with
  | nan => simp [Number.lt]
  | posInf => simp [Number.lt]
  | negInf => simp [Number.lt, Number.ofInt] at hlimit
  | fin q =>
    simp only [Number.lt, Number.ofInt, Int.cast_one, decide_eq_false_iff_not, not_lt] at hlimit
    simp [Number.lt, lengthOf, Number.ofInt, hlimit]

theorem breakIndex_bounds {limit : ChunkLimit}
    (hlong : limit.value.lt (lengthOf remaining) = true) (candidateBreak : Option Nat) :
    0 < breakIndex limit.value candidateBreak ∧
      breakIndex limit.value candidateBreak < remaining.length := by
  obtain ⟨q, hq, hone, hlt⟩ := lt_lengthOf_iff.mp hlong
  rw [hq]
  have hposition : 0 < position (.fin q) ∧ position (.fin q) < remaining.length := by
    have hfloor : 0 < q.floor := by
      have : (1 : Int) ≤ q.floor := by
        rw [Rat.le_floor_iff]
        exact_mod_cast hone
      omega
    have hle : (q.floor : Rat) ≤ q := Rat.floor_le q
    have hlength : q.floor < remaining.length := by
      exact_mod_cast lt_of_le_of_lt hle hlt
    simp only [position, floorNat]
    omega
  unfold breakIndex
  split
  · split
    next hcandidate =>
      obtain ⟨hpos, hle⟩ := hcandidate
      refine ⟨hpos, ?_⟩
      simp only [Number.le, Number.lt, Number.ofInt, Bool.not_eq_true', decide_eq_false_iff_not,
        not_lt] at hle
      exact_mod_cast lt_of_le_of_lt hle hlt
    · exact hposition
  · exact hposition

theorem length_remainingAfter (hpos : 0 < breakIdx) (hlt : breakIdx < remaining.length) :
    (remainingAfter remaining breakIdx).length < remaining.length := by
  rw [remainingAfter_eq]
  have hle := (List.dropWhile_suffix isSpaceUnit (l := remaining.drop breakIdx)).length_le
  rw [List.length_drop] at hle
  omega

-- ---
-- Chunks
-- ---

section Chunks

variable {limit : ChunkLimit} {resolveBreakIndex : CodeUnits → Option Nat}

/-- Where the text is cut first. -/
def firstBreak (limit : ChunkLimit) (resolveBreakIndex : CodeUnits → Option Nat)
    (remaining : CodeUnits) : Nat :=
  breakIndex limit.value (resolveBreakIndex (remaining.take (position limit.value)))

theorem firstBreak_bounds (hlong : limit.value.lt (lengthOf remaining) = true) :
    0 < firstBreak limit resolveBreakIndex remaining ∧
      firstBreak limit resolveBreakIndex remaining < remaining.length :=
  breakIndex_bounds hlong _

theorem length_remainingAfter_firstBreak
    (hlong : limit.value.lt (lengthOf remaining) = true) :
    (remainingAfter remaining (firstBreak limit resolveBreakIndex remaining)).length <
      remaining.length :=
  length_remainingAfter (firstBreak_bounds hlong).1 (firstBreak_bounds hlong).2

def chunkRemaining (limit : ChunkLimit) (resolveBreakIndex : CodeUnits → Option Nat)
    (remaining : CodeUnits) : List CodeUnits :=
  if _hlong : limit.value.lt (lengthOf remaining) = true then
    let breakIdx := firstBreak limit resolveBreakIndex remaining
    let chunk := chunkBefore remaining breakIdx
    let next := remainingAfter remaining breakIdx
    if chunk ≠ [] then chunk :: chunkRemaining limit resolveBreakIndex next
    else chunkRemaining limit resolveBreakIndex next
  else if remaining ≠ [] then [remaining] else []
termination_by remaining.length
decreasing_by all_goals exact length_remainingAfter_firstBreak _hlong

def chunkTextByBreakResolver (text : CodeUnits) (limit : ChunkLimit)
    (resolveBreakIndex : CodeUnits → Option Nat) : List CodeUnits :=
  if text = [] then []
  else if limit.value.le (.ofInt 0) || (lengthOf text).le limit.value then [text]
  else chunkRemaining limit resolveBreakIndex text

/-- The last line end of the window, else its last white space, outside of parentheses. -/
def lastBreak (window : CodeUnits) : Option Nat :=
  let found := scanParenAwareBreakpoints window 0 window.length fun _ => true
  if found.lastNewline.any (0 < ·) then found.lastNewline else found.lastWhitespace

def chunkText (text : CodeUnits) (limit : ChunkLimit) : List CodeUnits :=
  chunkTextByBreakResolver text limit lastBreak

theorem chunkRemaining_short (hshort : limit.value.lt (lengthOf remaining) = false) :
    chunkRemaining limit resolveBreakIndex remaining =
      if remaining ≠ [] then [remaining] else [] := by
  rw [chunkRemaining, hshort, dif_neg Bool.false_ne_true]

theorem chunkRemaining_long (hlong : limit.value.lt (lengthOf remaining) = true) :
    chunkRemaining limit resolveBreakIndex remaining =
      if chunkBefore remaining (firstBreak limit resolveBreakIndex remaining) ≠ [] then
        chunkBefore remaining (firstBreak limit resolveBreakIndex remaining) ::
          chunkRemaining limit resolveBreakIndex
            (remainingAfter remaining (firstBreak limit resolveBreakIndex remaining))
      else
        chunkRemaining limit resolveBreakIndex
          (remainingAfter remaining (firstBreak limit resolveBreakIndex remaining)) := by
  rw [chunkRemaining, dif_pos hlong]

/-- The chunks of a text come from cuts in what remains of it. -/
theorem chunkRemaining_induct {P : CodeUnits → List CodeUnits → Prop}
    (hshort : ∀ remaining, P remaining (if remaining ≠ [] then [remaining] else []))
    (hcut : ∀ remaining breakIdx chunks, 0 < breakIdx → breakIdx < remaining.length →
      P (remainingAfter remaining breakIdx) chunks →
        P remaining (if chunkBefore remaining breakIdx ≠ [] then
          chunkBefore remaining breakIdx :: chunks else chunks))
    (remaining : CodeUnits) : P remaining (chunkRemaining limit resolveBreakIndex remaining) := by
  induction hlength : remaining.length using Nat.strong_induction_on generalizing remaining with
  | _ length ih =>
    cases hlong : limit.value.lt (lengthOf remaining) with
    | false =>
      rw [chunkRemaining_short hlong]
      exact hshort remaining
    | true =>
      obtain ⟨hpos, hlt⟩ := firstBreak_bounds hlong
      rw [chunkRemaining_long hlong]
      exact hcut remaining _ _ hpos hlt
        (ih _ (hlength ▸ length_remainingAfter hpos hlt) _ rfl)

theorem ne_nil_of_mem_chunkRemaining {remaining : CodeUnits} :
    ∀ chunk ∈ chunkRemaining limit resolveBreakIndex remaining, chunk ≠ [] := by
  refine chunkRemaining_induct (P := fun _ chunks => ∀ chunk ∈ chunks, chunk ≠ [])
    (fun remaining => ?_) (fun remaining breakIdx chunks _ _ ih => ?_) remaining
  · split
    · simpa
    · simp
  · split
    next hne => exact List.forall_mem_cons.mpr ⟨hne, ih⟩
    · exact ih

/-- The chunks keep every character that is no white space. -/
theorem filter_chunkRemaining (remaining : CodeUnits) :
    (chunkRemaining limit resolveBreakIndex remaining).flatten.filter (!isSpaceUnit ·) =
      remaining.filter (!isSpaceUnit ·) := by
  refine chunkRemaining_induct
    (P := fun remaining chunks =>
      chunks.flatten.filter (!isSpaceUnit ·) = remaining.filter (!isSpaceUnit ·))
    (fun remaining => ?_) (fun remaining breakIdx chunks _ _ ih => ?_) remaining
  · split
    · simp
    next hempty => simp [not_not.mp hempty]
  · obtain ⟨gap, hgap, heq⟩ := exists_gap remaining breakIdx
    have hnone : gap.filter (!isSpaceUnit ·) = [] := by
      rw [List.filter_eq_nil_iff]
      exact fun u hu => by simp [hgap u hu]
    conv_rhs => rw [heq, List.filter_append, List.filter_append, hnone, List.nil_append, ← ih]
    split
    · rw [List.flatten_cons, List.filter_append]
    next hempty => rw [not_not.mp hempty, List.filter_nil, List.nil_append]

end Chunks

-- ---
-- Slices
-- ---

def resolveSliceBounds (spanStart spanStop start stop : Nat) : Option (Nat × Nat) :=
  let sliceStart := max spanStart start
  let sliceStop := min spanStop stop
  if sliceStop ≤ sliceStart then none else some (sliceStart, sliceStop)

/-- The order of `localeCompare` on the names of styles. -/
def LOCALE_ORDER : List MarkdownStyle :=
  [.blockquote, .bold, .code, .codeBlock, .italic, .spoiler, .strikethrough]

def compareSpans (a b : MarkdownStyleSpan) : Int :=
  if a.start ≠ b.start then a.start - b.start
  else if a.stop ≠ b.stop then a.stop - b.stop
  else LOCALE_ORDER.idxOf a.style - LOCALE_ORDER.idxOf b.style

/-- Two quotes that only touch are not joined. -/
def joins (prev span : MarkdownStyleSpan) : Bool :=
  prev.style = span.style &&
    (span.start < prev.stop || (span.start = prev.stop && span.style ≠ .blockquote))

/-- The loop over the sorted spans, `prev` being the last one that was merged. -/
def mergeInto (prev : MarkdownStyleSpan) : List MarkdownStyleSpan → List MarkdownStyleSpan
  | [] => [prev]
  | span :: rest =>
    if joins prev span then mergeInto { prev with stop := max prev.stop span.stop } rest
    else prev :: mergeInto span rest

def mergeStyleSpans (spans : List MarkdownStyleSpan) : List MarkdownStyleSpan :=
  match toSorted compareSpans spans with
  | [] => []
  | span :: rest => mergeInto span rest

/-- The parts of the spans in the slice. -/
def clipStyleSpans (spans : List MarkdownStyleSpan) (start stop : Nat) : List MarkdownStyleSpan :=
  spans.filterMap fun span =>
    (resolveSliceBounds span.start span.stop start stop).map fun bounds =>
      ⟨bounds.1 - start, bounds.2 - start, span.style⟩

def sliceStyleSpans (spans : List MarkdownStyleSpan) (start stop : Nat) :
    List MarkdownStyleSpan :=
  mergeStyleSpans (clipStyleSpans spans start stop)

def sliceLinkSpans (spans : List MarkdownLinkSpan) (start stop : Nat) : List MarkdownLinkSpan :=
  spans.filterMap fun span =>
    (resolveSliceBounds span.start span.stop start stop).map fun bounds =>
      ⟨bounds.1 - start, bounds.2 - start, span.href⟩

-- ---
-- Chunks of an IR
-- ---

/-- The next position from `cursor` on that is no white space, or the end. -/
def skipSpace (text : CodeUnits) (cursor : Nat) : Nat :=
  cursor + ((text.drop cursor).takeWhile isSpaceUnit).length

/-- The chunks from `cursor` on, `first` for the one with the index zero. -/
def placeChunks (ir : MarkdownIR) : Bool → Nat → List CodeUnits → List MarkdownIR
  | _, _, [] => []
  | first, cursor, chunk :: chunks =>
    if chunk = [] then placeChunks ir false cursor chunks
    else
      let start := if first then cursor else skipSpace ir.text cursor
      let stop := min ir.text.length (start + chunk.length)
      { text := chunk
        styles := sliceStyleSpans ir.styles start stop
        links := sliceLinkSpans ir.links start stop } :: placeChunks ir false stop chunks

def chunkMarkdownIR (ir : MarkdownIR) (limit : ChunkLimit) : List MarkdownIR :=
  if ir.text = [] then []
  else if limit.value.le (.ofInt 0) || (lengthOf ir.text).le limit.value then [ir]
  else placeChunks ir true 0 (chunkText ir.text limit)

-- ---
-- What falls on a position
-- ---

def Styled (spans : List MarkdownStyleSpan) (p : Nat) (style : MarkdownStyle) : Prop :=
  ∃ span ∈ spans, span.start ≤ p ∧ p < span.stop ∧ span.style = style

def Linked (spans : List MarkdownLinkSpan) (p : Nat) (href : CodeUnits) : Prop :=
  ∃ span ∈ spans, span.start ≤ p ∧ p < span.stop ∧ span.href = href

theorem resolveSliceBounds_eq_some :
    resolveSliceBounds spanStart spanStop start stop = some bounds ↔
      max spanStart start < min spanStop stop ∧
        bounds = (max spanStart start, min spanStop stop) := by
  simp only [resolveSliceBounds, Option.ite_none_left_eq_some, not_le, Option.some.injEq,
    eq_comm (a := bounds)]

theorem mem_clipStyleSpans :
    part ∈ clipStyleSpans spans start stop ↔
      ∃ span ∈ spans, max span.start start < min span.stop stop ∧
        part = ⟨max span.start start - start, min span.stop stop - start, span.style⟩ := by
  simp only [clipStyleSpans, List.mem_filterMap, Option.map_eq_some_iff,
    resolveSliceBounds_eq_some]
  constructor
  · rintro ⟨span, hmem, bounds, ⟨hlt, rfl⟩, rfl⟩
    exact ⟨span, hmem, hlt, rfl⟩
  · rintro ⟨span, hmem, hlt, rfl⟩
    exact ⟨span, hmem, _, ⟨hlt, rfl⟩, rfl⟩

theorem mem_sliceLinkSpans :
    part ∈ sliceLinkSpans spans start stop ↔
      ∃ span ∈ spans, max span.start start < min span.stop stop ∧
        part = ⟨max span.start start - start, min span.stop stop - start, span.href⟩ := by
  simp only [sliceLinkSpans, List.mem_filterMap, Option.map_eq_some_iff,
    resolveSliceBounds_eq_some]
  constructor
  · rintro ⟨span, hmem, bounds, ⟨hlt, rfl⟩, rfl⟩
    exact ⟨span, hmem, hlt, rfl⟩
  · rintro ⟨span, hmem, hlt, rfl⟩
    exact ⟨span, hmem, _, ⟨hlt, rfl⟩, rfl⟩

theorem styled_clipStyleSpans :
    Styled (clipStyleSpans spans start stop) p style ↔
      p < stop - start ∧ Styled spans (start + p) style := by
  simp only [Styled, mem_clipStyleSpans]
  constructor
  · rintro ⟨_, ⟨span, hmem, -, rfl⟩, hstart, hstop, rfl⟩
    dsimp only at hstart hstop
    exact ⟨by omega, span, hmem, by omega, by omega, rfl⟩
  · rintro ⟨hlt, span, hmem, hstart, hstop, rfl⟩
    exact ⟨_, ⟨span, hmem, by omega, rfl⟩, by dsimp only; omega, by dsimp only; omega, rfl⟩

theorem linked_sliceLinkSpans :
    Linked (sliceLinkSpans spans start stop) p href ↔
      p < stop - start ∧ Linked spans (start + p) href := by
  simp only [Linked, mem_sliceLinkSpans]
  constructor
  · rintro ⟨_, ⟨span, hmem, -, rfl⟩, hstart, hstop, rfl⟩
    dsimp only at hstart hstop
    exact ⟨by omega, span, hmem, by omega, by omega, rfl⟩
  · rintro ⟨hlt, span, hmem, hstart, hstop, rfl⟩
    exact ⟨_, ⟨span, hmem, by omega, rfl⟩, by dsimp only; omega, by dsimp only; omega, rfl⟩

@[simp] theorem styled_cons :
    Styled (span :: spans) p style ↔
      (span.start ≤ p ∧ p < span.stop ∧ span.style = style) ∨ Styled spans p style := by
  simp [Styled]

/-- Merging sorted spans changes nothing at any position. -/
theorem styled_mergeInto (hstart : ∀ span ∈ spans, prev.start ≤ span.start)
    (hsorted : spans.Pairwise fun a b => a.start ≤ b.start) :
    Styled (mergeInto prev spans) p style ↔ Styled (prev :: spans) p style := by
  induction spans generalizing prev with
  | nil => rfl
  | cons span spans ih =>
    obtain ⟨hspan, hrest⟩ := List.pairwise_cons.mp hsorted
    obtain ⟨hle, hstart⟩ := List.forall_mem_cons.mp hstart
    unfold mergeInto
    split
    next hjoins =>
      have hmerged := @ih { prev with stop := max prev.stop span.stop } hstart hrest
      rw [hmerged, styled_cons, styled_cons, styled_cons, ← or_assoc]
      refine or_congr_left ?_
      simp only [joins, Bool.and_eq_true, Bool.or_eq_true, decide_eq_true_eq] at hjoins
      obtain ⟨hstyle, htouch⟩ := hjoins
      have htouch : span.start ≤ prev.stop := htouch.elim le_of_lt fun h => h.1.le
      rw [← hstyle]
      constructor
      · rintro ⟨hp, hlt, rfl⟩
        rcases lt_max_iff.mp hlt with hlt | hlt
        · exact .inl ⟨hp, hlt, rfl⟩
        · exact (lt_or_ge p prev.stop).imp (⟨hp, ·, rfl⟩) fun hge => ⟨htouch.trans hge, hlt, rfl⟩
      · rintro (⟨hp, hlt, rfl⟩ | ⟨hp, hlt, rfl⟩)
        · exact ⟨hp, hlt.trans_le (le_max_left _ _), rfl⟩
        · exact ⟨hle.trans hp, hlt.trans_le (le_max_right _ _), rfl⟩
    · rw [styled_cons, ih hspan hrest, styled_cons, styled_cons, styled_cons]

theorem start_le_of_compareSpans (h : compareSpans a b ≤ 0) : a.start ≤ b.start := by
  unfold compareSpans at h
  split at h <;> omega

theorem compareSpans_total (a b : MarkdownStyleSpan) :
    compareSpans a b ≤ 0 ∨ compareSpans b a ≤ 0 := by
  unfold compareSpans
  split_ifs <;> omega

theorem compareSpans_trans (hab : compareSpans a b ≤ 0) (hbc : compareSpans b c ≤ 0) :
    compareSpans a c ≤ 0 := by
  unfold compareSpans at *
  split at hab <;> split at hbc <;> split <;> omega

theorem sorted_compareSpans (spans : List MarkdownStyleSpan) :
    (toSorted compareSpans spans).Pairwise fun a b => a.start ≤ b.start := by
  have : Std.Total fun a b => compareSpans a b ≤ 0 := ⟨compareSpans_total⟩
  have : IsTrans MarkdownStyleSpan fun a b => compareSpans a b ≤ 0 :=
    ⟨fun _ _ _ => compareSpans_trans⟩
  exact (List.pairwise_insertionSort _ _).imp start_le_of_compareSpans

theorem styled_sliceStyleSpans :
    Styled (sliceStyleSpans spans start stop) p style ↔
      p < stop - start ∧ Styled spans (start + p) style := by
  rw [← styled_clipStyleSpans, sliceStyleSpans, mergeStyleSpans]
  have hsorted := sorted_compareSpans (clipStyleSpans spans start stop)
  have hsame : Styled (toSorted compareSpans (clipStyleSpans spans start stop)) p style ↔
      Styled (clipStyleSpans spans start stop) p style := by
    simp only [Styled, mem_toSorted]
  rw [← hsame]
  cases heq : toSorted compareSpans (clipStyleSpans spans start stop) with
  | nil => rfl
  | cons span rest =>
    rw [heq] at hsorted
    obtain ⟨hstart, hrest⟩ := List.pairwise_cons.mp hsorted
    exact styled_mergeInto hstart hrest

/-- Merging keeps spans within what they are in. -/
theorem mergeInto_within (h : ∀ span ∈ prev :: spans, span.start ≤ span.stop ∧ span.stop ≤ length) :
    ∀ span ∈ mergeInto prev spans, span.start ≤ span.stop ∧ span.stop ≤ length := by
  induction spans generalizing prev with
  | nil => exact h
  | cons span spans ih =>
    obtain ⟨hprev, hrest⟩ := List.forall_mem_cons.mp h
    obtain ⟨hspan, hspans⟩ := List.forall_mem_cons.mp hrest
    unfold mergeInto
    split
    · refine ih (List.forall_mem_cons.mpr ⟨?_, hspans⟩)
      dsimp only
      omega
    · exact List.forall_mem_cons.mpr ⟨hprev, ih hrest⟩

theorem sliceStyleSpans_within (spans : List MarkdownStyleSpan) (start stop : Nat) :
    ∀ span ∈ sliceStyleSpans spans start stop,
      span.start ≤ span.stop ∧ span.stop ≤ stop - start := by
  have hclip : ∀ span ∈ toSorted compareSpans (clipStyleSpans spans start stop),
      span.start ≤ span.stop ∧ span.stop ≤ stop - start := by
    intro part hpart
    obtain ⟨span, -, hlt, rfl⟩ := mem_clipStyleSpans.mp (mem_toSorted.mp hpart)
    dsimp only
    omega
  unfold sliceStyleSpans mergeStyleSpans
  cases hsorted : toSorted compareSpans (clipStyleSpans spans start stop) with
  | nil => exact List.forall_mem_nil _
  | cons span rest =>
    rw [hsorted] at hclip
    exact mergeInto_within hclip

theorem sliceLinkSpans_within (spans : List MarkdownLinkSpan) (start stop : Nat) :
    ∀ span ∈ sliceLinkSpans spans start stop,
      span.start ≤ span.stop ∧ span.stop ≤ stop - start := by
  intro part hpart
  obtain ⟨span, -, hlt, rfl⟩ := mem_sliceLinkSpans.mp hpart
  dsimp only
  omega

-- ---
-- Chunks and their places
-- ---

/-- The chunk is the part of the text from `start` on, with the styles and links there. -/
structure PartOf (ir : MarkdownIR) (start : Nat) (chunk : MarkdownIR) : Prop where
  text : chunk.text = slice ir.text start (start + chunk.text.length)
  styles (p : Nat) (hp : p < chunk.text.length) (style : MarkdownStyle) :
    Styled chunk.styles p style ↔ Styled ir.styles (start + p) style
  links (p : Nat) (hp : p < chunk.text.length) (href : CodeUnits) :
    Linked chunk.links p href ↔ Linked ir.links (start + p) href
  inside : ir.Inside → chunk.Inside

/-- The chunks are parts of the text in order, from `cursor` on, with white space between and
around them. -/
inductive Aligned (ir : MarkdownIR) : Nat → List MarkdownIR → Prop
  | nil (h : ∀ u ∈ ir.text.drop cursor, isSpaceUnit u = true) : Aligned ir cursor []
  | cons (start : Nat) (hle : cursor ≤ start)
      (hspace : ∀ u ∈ slice ir.text cursor start, isSpaceUnit u = true)
      (hpart : PartOf ir start chunk) (hrest : Aligned ir (start + chunk.text.length) chunks) :
      Aligned ir cursor (chunk :: chunks)

theorem PartOf.getElem?_start {ir chunk : MarkdownIR} (h : PartOf ir start chunk)
    (htext : chunk.text = u :: tail) : ir.text[start]? = some u := by
  have hhead := congrArg List.head? h.text
  rw [slice, List.drop_take, Nat.add_sub_cancel_left, htext, List.length_cons, List.head?_take,
    if_neg (Nat.succ_ne_zero tail.length), List.head?_drop] at hhead
  exact hhead.symm

theorem partOf_self (ir : MarkdownIR) : PartOf ir 0 ir where
  text := by simp [slice]
  styles p _ style := by rw [Nat.zero_add]
  links p _ href := by rw [Nat.zero_add]
  inside h := h

theorem partOf_slices {ir : MarkdownIR} (htext : ir.text.drop start = text ++ rest) :
    PartOf ir start
      { text := text
        styles := sliceStyleSpans ir.styles start (start + text.length)
        links := sliceLinkSpans ir.links start (start + text.length) } where
  text := by rw [slice, List.drop_take, htext, Nat.add_sub_cancel_left, List.take_left]
  styles p hp style := by
    rw [styled_sliceStyleSpans, Nat.add_sub_cancel_left, and_iff_right hp]
  links p hp href := by
    rw [linked_sliceLinkSpans, Nat.add_sub_cancel_left, and_iff_right hp]
  inside _ :=
    { styles := by simpa using sliceStyleSpans_within ir.styles start (start + text.length)
      links := by simpa using sliceLinkSpans_within ir.links start (start + text.length) }

theorem drop_skipSpace (text : CodeUnits) (cursor : Nat) :
    text.drop (skipSpace text cursor) = (text.drop cursor).dropWhile isSpaceUnit := by
  have hsplit := List.takeWhile_append_dropWhile (p := isSpaceUnit) (l := text.drop cursor)
  rw [skipSpace, ← List.drop_drop]
  exact (congrArg (List.drop _) hsplit.symm).trans List.drop_left

theorem space_before_skipSpace (text : CodeUnits) (cursor : Nat) :
    ∀ u ∈ slice text cursor (skipSpace text cursor), isSpaceUnit u = true := by
  have hsplit := List.takeWhile_append_dropWhile (p := isSpaceUnit) (l := text.drop cursor)
  have hslice : slice text cursor (skipSpace text cursor) =
      (text.drop cursor).takeWhile isSpaceUnit := by
    rw [slice, List.drop_take, skipSpace, Nat.add_sub_cancel_left]
    exact (congrArg (List.take _) hsplit.symm).trans List.take_left
  rw [hslice]
  exact fun u hu => List.mem_takeWhile_imp hu

theorem mem_slice_zero {text : CodeUnits} (h : text[i]? = some u) (hlt : i < stop) :
    u ∈ slice text 0 stop := by
  rw [slice, List.drop_zero]
  exact List.mem_of_getElem? ((List.getElem?_take_of_lt hlt).trans h)

/-- A chunk at its place, where the ones behind it are at theirs. -/
theorem Aligned.place {ir : MarkdownIR} {first : Bool} (start : Nat) (hne : chunk ≠ [])
    (hstart : start = if first then cursor else skipSpace ir.text cursor)
    (htext : ir.text.drop start = chunk ++ rest)
    (hrest : Aligned ir (start + chunk.length)
      (placeChunks ir false (start + chunk.length) chunks)) :
    Aligned ir cursor (placeChunks ir first cursor (chunk :: chunks)) := by
  have hstop : min ir.text.length (start + chunk.length) = start + chunk.length := by
    have hlength := congrArg List.length htext
    have hpos := List.length_pos_iff.mpr hne
    rw [List.length_drop, List.length_append] at hlength
    omega
  simp only [placeChunks, if_neg hne, ← hstart, hstop]
  refine .cons start ?_ ?_ (partOf_slices htext) hrest
  · rw [hstart]
    split
    · exact Nat.le_refl cursor
    · exact Nat.le_add_right cursor _
  · rw [hstart]
    split
    · simp [slice]
    · exact space_before_skipSpace ir.text cursor

theorem head_of_trimmed (htrimmed : (u :: rest).dropWhile isSpaceUnit = u :: rest) :
    isSpaceUnit u = false := by
  by_contra hspace
  rw [List.dropWhile_cons_of_pos (by simpa using hspace)] at htrimmed
  have hle := (List.dropWhile_suffix isSpaceUnit (l := rest)).length_le
  rw [htrimmed, List.length_cons] at hle
  omega

/-- What begins with no white space has a chunk before any break. -/
theorem chunkBefore_ne_nil (htrimmed : remaining.dropWhile isSpaceUnit = remaining)
    (hpos : 0 < breakIdx) (hne : remaining ≠ []) : chunkBefore remaining breakIdx ≠ [] := by
  intro hnil
  obtain ⟨u, rest, rfl⟩ := List.exists_cons_of_ne_nil hne
  have hmem : u ∈ (u :: rest).take breakIdx := by
    rw [← Nat.succ_pred_eq_of_pos hpos, List.take_succ_cons]
    exact List.mem_cons_self
  have hspace := List.rdropWhile_eq_nil_iff.mp hnil u hmem
  rw [head_of_trimmed htrimmed] at hspace
  cases hspace

section Placing

variable {limit : ChunkLimit}

/-- Behind a chunk, the cursor is followed by white space and what remains. -/
theorem aligned_placeChunks (ir : MarkdownIR) (remaining : CodeUnits) (cursor : Nat)
    (hcursor : (ir.text.drop cursor).dropWhile isSpaceUnit = remaining) :
    Aligned ir cursor
      (placeChunks ir false cursor (chunkRemaining limit resolveBreakIndex remaining)) := by
  refine chunkRemaining_induct
    (P := fun remaining chunks => ∀ cursor,
      (ir.text.drop cursor).dropWhile isSpaceUnit = remaining →
        Aligned ir cursor (placeChunks ir false cursor chunks))
    (fun remaining cursor hcursor => ?_)
    (fun remaining breakIdx chunks hpos hlt ih cursor hcursor => ?_) remaining cursor hcursor
  · rw [← drop_skipSpace] at hcursor
    split
    next hne =>
      refine .place (skipSpace ir.text cursor) hne rfl
        (hcursor.trans (List.append_nil remaining).symm) (.nil ?_)
      rw [← List.drop_drop, hcursor, List.drop_length]
      exact List.forall_mem_nil _
    next hempty =>
      refine .nil (List.dropWhile_eq_nil_iff.mp ?_)
      rw [← drop_skipSpace, hcursor, not_not.mp hempty]
  · obtain ⟨gap, hgap, heq⟩ := exists_gap remaining breakIdx
    have htrimmed : remaining.dropWhile isSpaceUnit = remaining := by
      rw [← hcursor, List.dropWhile_idempotent]
    have hne := chunkBefore_ne_nil htrimmed hpos (List.ne_nil_of_length_pos (by omega))
    have hbehind : remaining.drop (chunkBefore remaining breakIdx).length =
        gap ++ remainingAfter remaining breakIdx :=
      (congrArg (List.drop _) heq).trans List.drop_left
    rw [if_pos hne]
    rw [← drop_skipSpace] at hcursor
    refine .place (skipSpace ir.text cursor) hne rfl (hcursor.trans heq) (ih _ ?_)
    rw [← List.drop_drop, hcursor, hbehind, List.dropWhile_append_of_pos hgap,
      remainingAfter_trimmed]

/-- A text that begins with no white space begins with its first chunk. -/
theorem exists_first_chunk (resolveBreakIndex : CodeUnits → Option Nat)
    (htrimmed : remaining.dropWhile isSpaceUnit = remaining)
    (hne : remaining ≠ []) :
    ∃ chunk chunks rest, chunkRemaining limit resolveBreakIndex remaining = chunk :: chunks ∧
      chunk ≠ [] ∧ remaining = chunk ++ rest := by
  cases hlong : limit.value.lt (lengthOf remaining) with
  | false =>
    rw [chunkRemaining_short hlong, if_pos hne]
    exact ⟨remaining, [], [], rfl, hne, (List.append_nil _).symm⟩
  | true =>
    obtain ⟨hpos, -⟩ := firstBreak_bounds hlong
    have hchunk := chunkBefore_ne_nil htrimmed hpos hne
    obtain ⟨gap, -, heq⟩ := exists_gap remaining (firstBreak limit resolveBreakIndex remaining)
    rw [chunkRemaining_long hlong]
    exact ⟨_, _, _, if_pos hchunk, hchunk, heq⟩

end Placing

/-- The first chunk would be white space only, and another one takes its place. -/
def LeadingBlankChunk (text : CodeUnits) (limit : ChunkLimit) : Prop :=
  limit.value.lt (lengthOf text) = true ∧
    (∀ u ∈ text.take (firstBreak limit lastBreak text), isSpaceUnit u = true) ∧
      ∃ u ∈ text, isSpaceUnit u = false

/-- The first letter is bold. -/
def leadingBold (text : CodeUnits) : MarkdownIR where
  text := text
  styles := [⟨skipSpace text 0, skipSpace text 0 + 1, .bold⟩]
  links := []

section Alignment

variable {limit : ChunkLimit}

theorem chunkMarkdownIR_eq {ir : MarkdownIR} (hne : ir.text ≠ []) :
    chunkMarkdownIR ir limit = [ir] ∧ limit.value.lt (lengthOf ir.text) = false ∨
      chunkMarkdownIR ir limit =
        placeChunks ir true 0 (chunkRemaining limit lastBreak ir.text) := by
  unfold chunkMarkdownIR chunkText chunkTextByBreakResolver
  rw [if_neg hne, if_neg hne]
  split
  next hshort =>
    refine .inl ⟨rfl, ?_⟩
    by_contra hlong
    obtain ⟨q, hq, hone, hlt⟩ := lt_lengthOf_iff.mp (by simpa using hlong)
    have hpos : 0 < q := zero_lt_one.trans_le hone
    simp [hq, Number.le, Number.lt, Number.ofInt, lengthOf, hpos, hlt] at hshort
  · exact .inr rfl

theorem chunkRemaining_nil {resolveBreakIndex : CodeUnits → Option Nat} :
    chunkRemaining limit resolveBreakIndex [] = [] := by
  refine chunkRemaining_short ?_
  by_contra hlong
  obtain ⟨q, -, hone, hneg⟩ := lt_lengthOf_iff.mp (by simpa using hlong)
  exact absurd (hone.trans_lt hneg) (by norm_num)

theorem chunkMarkdownIR_long {ir : MarkdownIR}
    (hlong : limit.value.lt (lengthOf ir.text) = true) :
    chunkMarkdownIR ir limit =
      placeChunks ir true 0 (chunkRemaining limit lastBreak ir.text) := by
  have hne : ir.text ≠ [] := by
    intro hempty
    obtain ⟨q, -, hone, hlt⟩ := lt_lengthOf_iff.mp hlong
    rw [hempty, List.length_nil, Nat.cast_zero] at hlt
    exact absurd (hone.trans_lt hlt) (by norm_num)
  rcases chunkMarkdownIR_eq hne with ⟨-, hshort⟩ | heq
  · rw [hlong] at hshort
    cases hshort
  · exact heq

theorem chunkMarkdownIR_aligned {ir : MarkdownIR} (h : ¬ LeadingBlankChunk ir.text limit) :
    Aligned ir 0 (chunkMarkdownIR ir limit) := by
  by_cases hempty : ir.text = []
  · rw [chunkMarkdownIR, if_pos hempty]
    exact .nil (by simp [hempty])
  rcases chunkMarkdownIR_eq hempty with ⟨heq, -⟩ | heq
  · rw [heq]
    refine .cons 0 (Nat.le_refl 0) (by simp [slice]) (partOf_self ir) (.nil ?_)
    rw [Nat.zero_add, List.drop_length]
    exact List.forall_mem_nil _
  rw [heq]
  cases hlong : limit.value.lt (lengthOf ir.text) with
  | false =>
    rw [chunkRemaining_short hlong, if_pos hempty]
    refine .place 0 hempty rfl (List.append_nil ir.text).symm (.nil ?_)
    rw [Nat.zero_add, List.drop_length]
    exact List.forall_mem_nil _
  | true =>
    obtain ⟨gap, hgap, hsplit⟩ := exists_gap ir.text (firstBreak limit lastBreak ir.text)
    rw [chunkRemaining_long hlong]
    split
    next hne =>
      refine .place 0 hne rfl hsplit (aligned_placeChunks ir _ _ ?_)
      have hbehind := (congrArg (List.drop (chunkBefore ir.text
        (firstBreak limit lastBreak ir.text)).length) hsplit).trans List.drop_left
      rw [Nat.zero_add, hbehind, List.dropWhile_append_of_pos hgap, remainingAfter_trimmed]
    next hnil =>
      -- the text is nothing but white space
      have hblank := List.rdropWhile_eq_nil_iff.mp (not_not.mp hnil)
      have hall : ∀ u ∈ ir.text, isSpaceUnit u = true := by
        by_contra hnot
        simp only [not_forall, Bool.not_eq_true] at hnot
        obtain ⟨u, hmem, hu⟩ := hnot
        exact h ⟨hlong, hblank, u, hmem, hu⟩
      have hnext : remainingAfter ir.text (firstBreak limit lastBreak ir.text) = [] := by
        rw [remainingAfter_eq, List.dropWhile_eq_nil_iff]
        exact fun u hu => hall u (List.mem_of_mem_drop hu)
      rw [hnext, chunkRemaining_nil]
      exact .nil hall

/-- Where the first chunk is dropped as blank, the next one gets the styles of the beginning. -/
theorem not_aligned_leadingBold {text : CodeUnits} (h : LeadingBlankChunk text limit) :
    ¬ Aligned (leadingBold text) 0 (chunkMarkdownIR (leadingBold text) limit) := by
  obtain ⟨hlong, hblank, v, hv, hplain⟩ := h
  obtain ⟨hpos, -⟩ : 0 < firstBreak limit lastBreak text ∧ _ := firstBreak_bounds hlong
  have hnext : remainingAfter text (firstBreak limit lastBreak text) =
      text.dropWhile isSpaceUnit := by
    rw [remainingAfter_eq, ← List.dropWhile_append_of_pos hblank, List.take_append_drop]
  have hne : text.dropWhile isSpaceUnit ≠ [] := by
    intro hnil
    rw [List.dropWhile_eq_nil_iff.mp hnil v hv] at hplain
    cases hplain
  obtain ⟨chunk, chunks, rest, hchunks, hchunk, htail⟩ :=
    exists_first_chunk lastBreak
      (List.dropWhile_idempotent (p := isSpaceUnit) (l := text)) hne
  -- the place of the first chunk is behind the leading white space
  have hplace : text.drop (skipSpace text 0) = chunk ++ rest := by
    rw [drop_skipSpace, List.drop_zero, htail]
  have hbehind : 0 < skipSpace text 0 := by
    obtain ⟨u, tail, rfl⟩ := List.exists_cons_of_ne_nil (List.ne_nil_of_mem hv)
    have hmem : u ∈ (u :: tail).take (firstBreak limit lastBreak (u :: tail)) := by
      rw [← Nat.succ_pred_eq_of_pos hpos, List.take_succ_cons]
      exact List.mem_cons_self
    rw [skipSpace, List.drop_zero, List.takeWhile_cons_of_pos (hblank u hmem), List.length_cons]
    omega
  have heq : chunkMarkdownIR (leadingBold text) limit =
      placeChunks (leadingBold text) true 0 (chunk :: chunks) := by
    have hnil : chunkBefore text (firstBreak limit lastBreak text) = [] :=
      List.rdropWhile_eq_nil_iff.mpr hblank
    have hcut : chunkRemaining limit lastBreak text = _ := chunkRemaining_long hlong
    rw [hnext, hchunks, if_neg (not_not.mpr hnil)] at hcut
    rw [chunkMarkdownIR_long hlong]
    exact congrArg (placeChunks (leadingBold text) true 0) hcut
  intro haligned
  rw [heq, placeChunks, if_neg hchunk] at haligned
  cases haligned with
  | cons start hle hspace hpart hrest =>
    have hstart : start = skipSpace text 0 := by
      obtain ⟨u, tail, rfl⟩ := List.exists_cons_of_ne_nil hchunk
      have hu : isSpaceUnit u = false := by
        have htrimmed : (u :: (tail ++ rest)).dropWhile isSpaceUnit = u :: (tail ++ rest) := by
          rw [← List.cons_append, ← htail, List.dropWhile_idempotent]
        exact head_of_trimmed htrimmed
      have hfirst : text[skipSpace text 0]? = some u := by
        rw [← List.head?_drop, hplace, List.cons_append, List.head?_cons]
      have hthere : text[start]? = some u := hpart.getElem?_start rfl
      rcases lt_trichotomy start (skipSpace text 0) with hlt | heq | hlt
      · have hsp := space_before_skipSpace text 0 u (mem_slice_zero hthere hlt)
        rw [hu] at hsp
        cases hsp
      · exact heq
      · have hsp := hspace u (mem_slice_zero hfirst hlt)
        rw [hu] at hsp
        cases hsp
    have hstyle := hpart.styles 0 (List.length_pos_iff.mpr hchunk) .bold
    rw [styled_sliceStyleSpans] at hstyle
    obtain ⟨-, span, hmem, hspan, -⟩ := hstyle.mpr
      ⟨_, List.mem_singleton_self _, by dsimp only; omega, by dsimp only; omega, rfl⟩
    have hzero : skipSpace text 0 ≤ 0 := by simpa [List.mem_singleton.mp hmem] using hspan
    omega

/-- The chunks are aligned for all styles and links, unless a leading chunk is dropped as blank. -/
theorem chunkMarkdownIR_aligned_iff (text : CodeUnits) :
    (∀ styles links,
        Aligned ⟨text, styles, links⟩ 0 (chunkMarkdownIR ⟨text, styles, links⟩ limit)) ↔
      ¬ LeadingBlankChunk text limit := by
  constructor
  · exact fun hall hblank => not_aligned_leadingBold hblank (hall _ [])
  · exact fun h styles links => chunkMarkdownIR_aligned h

end Alignment

/-- Of five letters behind two spaces the third one gets what the first one has. -/
theorem not_chunkMarkdownIR_aligned :
    ¬ ∀ (ir : MarkdownIR) (limit : ChunkLimit), Aligned ir 0 (chunkMarkdownIR ir limit) := by
  intro h
  have hblank : LeadingBlankChunk ("  abcde".toList.map unit) ⟨.ofInt 4, by decide⟩ :=
    ⟨by decide, List.all_eq_true.mp (by decide), unit 'a', by decide,
      by decide⟩
  exact not_aligned_leadingBold hblank (h _ _)

end OpenClaw.Markdown
