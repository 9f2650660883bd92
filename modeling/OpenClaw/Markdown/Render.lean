import Mathlib.Data.List.Dedup
import Mathlib.Data.List.Sort
import OpenClaw.Js.CodeUnits
import OpenClaw.Lib.Brackets
import OpenClaw.Lib.Sweep

/-!
# Rendering markdown with markers

The style and link spans of a text become markers around its slices. A sweep over the
boundary points of the spans closes what ends at a point, as long as it is on top of the
stack, and then opens what starts there.
-/

namespace OpenClaw.Markdown

open Js Brackets

inductive MarkdownStyle where
  | bold
  | italic
  | strikethrough
  | code
  | codeBlock
  | spoiler
  | blockquote
  deriving DecidableEq

/-- From `start` up to `stop`, the `end` of the source. -/
structure MarkdownStyleSpan where
  start : Nat
  stop : Nat
  style : MarkdownStyle

structure MarkdownLinkSpan where
  start : Nat
  stop : Nat
  href : CodeUnits

structure MarkdownIR where
  text : CodeUnits
  styles : List MarkdownStyleSpan
  links : List MarkdownLinkSpan

/-- The marker that opens, the `open` of the source, and the one that closes. -/
structure RenderStyleMarker where
  opening : CodeUnits
  closing : CodeUnits

structure RenderLink where
  start : Nat
  stop : Nat
  opening : CodeUnits
  closing : CodeUnits

structure RenderOptions where
  styleMarkers : MarkdownStyle → Option RenderStyleMarker
  escapeText : CodeUnits → CodeUnits
  buildLink : Option (MarkdownLinkSpan → CodeUnits → Option RenderLink)

def STYLE_ORDER : List MarkdownStyle := [.blockquote, .codeBlock, .code, .bold, .italic, .strikethrough, .spoiler]

def STYLE_RANK (style : MarkdownStyle) : Nat := STYLE_ORDER.idxOf style

inductive OpeningKind where
  | link
  | style (style : MarkdownStyle)
  deriving DecidableEq

structure OpeningItem where
  stop : Nat
  opening : CodeUnits
  closing : CodeUnits
  kind : OpeningKind
  index : Nat
  deriving DecidableEq

-- ---
-- Orders
-- ---

/-- Longer spans first, then by rank. -/
def compareStops (a b : MarkdownStyleSpan) : Int :=
  if a.stop ≠ b.stop then b.stop - a.stop else STYLE_RANK a.style - STYLE_RANK b.style

def compareStyleSpans (a b : MarkdownStyleSpan) : Int :=
  if a.start ≠ b.start then a.start - b.start else compareStops a b

def compareOpeningItems (a b : OpeningItem) : Int :=
  if a.stop ≠ b.stop then b.stop - a.stop
  else
    match a.kind, b.kind with
    | .link, .style _ => -1
    | .style _, .link => 1
    | .style style, .style style' => STYLE_RANK style - STYLE_RANK style'
    | .link, .link => a.index - b.index

/-- `items.toSorted(compare)`, which keeps the order of what compares as equal. -/
def toSorted (compare : α → α → Int) (items : List α) : List α := items.insertionSort fun a b => compare a b ≤ 0

-- ---
-- Spans
-- ---

def sortStyleSpans (spans : List MarkdownStyleSpan) : List MarkdownStyleSpan := toSorted compareStyleSpans spans

/-- The spans that have a marker and are not empty. -/
def styledSpans (ir : MarkdownIR) (options : RenderOptions) : List MarkdownStyleSpan :=
  (sortStyleSpans (ir.styles.filter fun span => (options.styleMarkers span.style).isSome)).filter fun span =>
    span.start ≠ span.stop

def renderedLinks (ir : MarkdownIR) (options : RenderOptions) : List RenderLink :=
  match options.buildLink with
  | none => []
  | some buildLink => (ir.links.filter fun link => link.start ≠ link.stop).filterMap fun link => buildLink link ir.text

def startsAt (styled : List MarkdownStyleSpan) (pos : Nat) : List MarkdownStyleSpan :=
  toSorted compareStops (styled.filter fun span => span.start = pos)

def linkStarts (links : List RenderLink) (pos : Nat) : List RenderLink := links.filter fun link => link.start = pos

/-- The items of a list, each made of its index and of itself. -/
def withIndex (make : Nat → α → Option β) (items : List α) : List β :=
  items.zipIdx.filterMap fun item => make item.2 item.1

def openingItems (ir : MarkdownIR) (options : RenderOptions) (pos : Nat) : List OpeningItem :=
  let openingLinks := withIndex (fun index (link : RenderLink) =>
    some ⟨link.stop, link.opening, link.closing, .link, index⟩) (linkStarts (renderedLinks ir options) pos)
  let openingStyles := withIndex (fun index (span : MarkdownStyleSpan) =>
    (options.styleMarkers span.style).map fun marker =>
      ⟨span.stop, marker.opening, marker.closing, .style span.style, index⟩) (startsAt (styledSpans ir options) pos)
  toSorted compareOpeningItems (openingLinks ++ openingStyles)

def boundaries (ir : MarkdownIR) (options : RenderOptions) : List Nat :=
  0 :: ir.text.length :: ((styledSpans ir options).flatMap (fun span => [span.start, span.stop]) ++
    (renderedLinks ir options).flatMap fun link => [link.start, link.stop])

def renderPoints (ir : MarkdownIR) (options : RenderOptions) : List Nat :=
  (boundaries ir options).dedup.insertionSort (· ≤ ·)

-- ---
-- The sweep
-- ---

abbrev Piece := Letter OpeningItem CodeUnits

/-- The stack, its top first, without the items that end at `pos`. -/
def closeAt (pos : Nat) (stack : List OpeningItem) : List OpeningItem := stack.dropWhile (·.stop = pos)

/-- The pieces from the next point on. -/
def renderFrom (ir : MarkdownIR) (options : RenderOptions) : List Nat → List OpeningItem → List Piece
  | [], _ => []
  | pos :: rest, stack =>
    let closing := stack.takeWhile (·.stop = pos)
    let opening := openingItems ir options pos
    let text : List Piece :=
      match rest.head? with
      | none => []
      | some next => if pos < next then [.plain (slice ir.text pos next)] else []
    closing.map .closed ++ opening.map .opened ++ text ++
      renderFrom ir options rest (opening.reverse ++ closeAt pos stack)

def renderPieces (ir : MarkdownIR) (options : RenderOptions) : List Piece :=
  if ir.text = [] then [] else renderFrom ir options (renderPoints ir options) []

def renderPiece (options : RenderOptions) : Piece → CodeUnits
  | .opened item => item.opening
  | .closed item => item.closing
  | .plain text => options.escapeText text

def renderMarkdownWithMarkers (ir : MarkdownIR) (options : RenderOptions) : CodeUnits :=
  (renderPieces ir options).flatMap (renderPiece options)

end OpenClaw.Markdown

/-!
# Rendered markers are well nested

The markers of spans are well nested when no two spans partially overlap. Of two that do,
the one below on the stack is never closed, since it is not on top at the point where it
ends. The slices between the markers are the text in either case.
-/

namespace OpenClaw.Markdown

open Js Brackets Sweep

variable {ir : MarkdownIR} {options : RenderOptions}

/-- From where to where the spans go that get markers. -/
def openedSpans (ir : MarkdownIR) (options : RenderOptions) : List (Nat × Nat) :=
  (ir.styles.filter fun span => (options.styleMarkers span.style).isSome ∧ span.start ≠ span.stop).map
      (fun span => (span.start, span.stop)) ++
    (renderedLinks ir options).map fun link => (link.start, link.stop)

/-- Every span goes forward, and one that starts inside another does not go beyond it. -/
structure Uncrossed (spans : List (Nat × Nat)) : Prop where
  forward : ∀ span ∈ spans, span.1 < span.2
  inside : ∀ outer ∈ spans, ∀ inner ∈ spans, outer.1 < inner.1 → inner.1 < outer.2 → inner.2 ≤ outer.2

-- ---
-- What opens at a point
-- ---

theorem mem_toSorted {order : α → α → Int} {items : List α} : item ∈ toSorted order items ↔ item ∈ items :=
  List.mem_insertionSort _

/-- The items made of a list, by what only depends on the item. -/
theorem exists_mem_withIndex {make : Nat → α → Option β} {items : List α} {P : β → Prop} {Q : α → Prop}
    (hmake : ∀ index, ∀ item ∈ items, (∃ made, make index item = some made ∧ P made) ↔ Q item) :
    (∃ made ∈ withIndex make items, P made) ↔ ∃ item ∈ items, Q item := by
  constructor
  · rintro ⟨made, hmade, hP⟩
    obtain ⟨⟨item, index⟩, hitem, hsome⟩ := List.mem_filterMap.1 hmade
    have hmem := List.fst_mem_of_mem_zipIdx hitem
    exact ⟨item, hmem, (hmake index item hmem).1 ⟨made, hsome, hP⟩⟩
  · rintro ⟨item, hmem, hQ⟩
    obtain ⟨index, hindex⟩ := List.getElem?_of_mem hmem
    obtain ⟨made, hsome, hP⟩ := (hmake index item hmem).2 hQ
    exact ⟨made, List.mem_filterMap.2 ⟨(item, index), List.mem_zipIdx_iff_getElem?.2 hindex, hsome⟩, hP⟩

theorem mem_styledSpans : span ∈ styledSpans ir options ↔
    span ∈ ir.styles ∧ (options.styleMarkers span.style).isSome ∧ span.start ≠ span.stop := by
  simp [styledSpans, sortStyleSpans, mem_toSorted, and_assoc]

theorem mem_openedSpans : (start, stop) ∈ openedSpans ir options ↔
    (∃ link ∈ renderedLinks ir options, link.start = start ∧ link.stop = stop) ∨
      ∃ span ∈ styledSpans ir options, span.start = start ∧ span.stop = stop := by
  rw [or_comm]
  simp [openedSpans, mem_styledSpans, and_assoc]

theorem exists_openingItem_iff :
    (∃ item ∈ openingItems ir options pos, item.stop = stop) ↔ (pos, stop) ∈ openedSpans ir options := by
  simp only [openingItems, mem_toSorted, List.mem_append, or_and_right, exists_or, mem_openedSpans]
  refine or_congr ?_ ?_
  · rw [exists_mem_withIndex (Q := fun link : RenderLink => link.stop = stop) fun index link _ => by simp]
    simp [linkStarts, and_assoc]
  · rw [exists_mem_withIndex (Q := fun span : MarkdownStyleSpan => span.stop = stop) fun index span hspan => ?_]
    · simp [startsAt, mem_toSorted, and_assoc]
    · have hspan := (List.mem_filter.1 (mem_toSorted.1 hspan)).1
      obtain ⟨marker, hmarker⟩ := Option.isSome_iff_exists.1 (mem_styledSpans.1 hspan).2.1
      simp [hmarker]

-- ---
-- Orders
-- ---

theorem stop_le_of_compare (h : compareOpeningItems a b ≤ 0) : b.stop ≤ a.stop := by
  unfold compareOpeningItems at h
  split at h <;> omega

theorem compareOpeningItems_total (a b : OpeningItem) : compareOpeningItems a b ≤ 0 ∨ compareOpeningItems b a ≤ 0 := by
  unfold compareOpeningItems
  rcases a with ⟨stop, _, _, kind, index⟩
  rcases b with ⟨stop', _, _, kind', index'⟩
  cases kind <;> cases kind' <;> dsimp only <;> split <;> split <;> omega

theorem compareOpeningItems_trans (hab : compareOpeningItems a b ≤ 0) (hbc : compareOpeningItems b c ≤ 0) :
    compareOpeningItems a c ≤ 0 := by
  have hstopab := stop_le_of_compare hab
  have hstopbc := stop_le_of_compare hbc
  unfold compareOpeningItems at *
  split
  · omega
  · rw [if_neg (by omega)] at hab hbc
    rcases a with ⟨_, _, _, _ | _, _⟩ <;> rcases b with ⟨_, _, _, _ | _, _⟩ <;> rcases c with ⟨_, _, _, _ | _, _⟩ <;>
      dsimp only at * <;> omega

/-- Items open in the order of their ends, the last one first. -/
theorem openingItems_pairwise (ir : MarkdownIR) (options : RenderOptions) (pos : Nat) :
    (openingItems ir options pos).Pairwise fun a b => b.stop ≤ a.stop := by
  have : Std.Total fun a b => compareOpeningItems a b ≤ 0 := ⟨compareOpeningItems_total⟩
  have : IsTrans OpeningItem fun a b => compareOpeningItems a b ≤ 0 := ⟨fun _ _ _ => compareOpeningItems_trans⟩
  exact (List.pairwise_insertionSort _ _).imp stop_le_of_compare

theorem renderPoints_pairwise (ir : MarkdownIR) (options : RenderOptions) :
    (renderPoints ir options).Pairwise (· < ·) := by
  have hsorted : (renderPoints ir options).Pairwise (· ≤ ·) := List.pairwise_insertionSort _ _
  have hnodup : (renderPoints ir options).Nodup :=
    (List.perm_insertionSort _ _).nodup_iff.2 (List.nodup_dedup _)
  exact (hsorted.and hnodup).imp fun h => Nat.lt_of_le_of_ne h.1 h.2

theorem mem_renderPoints : pos ∈ renderPoints ir options ↔ pos ∈ boundaries ir options := by
  rw [renderPoints, List.mem_insertionSort, List.mem_dedup]

theorem mem_renderPoints_of_opened (h : (start, stop) ∈ openedSpans ir options) :
    start ∈ renderPoints ir options ∧ stop ∈ renderPoints ir options := by
  simp only [mem_renderPoints, boundaries, List.mem_cons, List.mem_append, List.mem_flatMap]
  rcases mem_openedSpans.1 h with ⟨link, hlink, rfl, rfl⟩ | ⟨span, hspan, rfl, rfl⟩
  · exact ⟨.inr (.inr (.inr ⟨link, hlink, by simp⟩)), .inr (.inr (.inr ⟨link, hlink, by simp⟩))⟩
  · exact ⟨.inr (.inr (.inl ⟨span, hspan, by simp⟩)), .inr (.inr (.inl ⟨span, hspan, by simp⟩))⟩

theorem laminar_iff_uncrossed :
    Laminar OpeningItem.stop (openingItems ir options) (renderPoints ir options) ↔ Uncrossed (openedSpans ir options) := by
  have hopened : ∀ pos item, item ∈ openingItems ir options pos → (pos, item.stop) ∈ openedSpans ir options :=
    fun pos item hitem => exists_openingItem_iff.1 ⟨item, hitem, rfl⟩
  constructor
  · rintro ⟨hforward, hinside⟩
    constructor
    · rintro ⟨start, stop⟩ hspan
      obtain ⟨item, hitem, rfl⟩ := exists_openingItem_iff.2 hspan
      exact hforward start (mem_renderPoints_of_opened hspan).1 item hitem
    · rintro ⟨start, stop⟩ houter ⟨start', stop'⟩ hinner hlt hlt'
      obtain ⟨item, hitem, rfl⟩ := exists_openingItem_iff.2 houter
      obtain ⟨item', hitem', rfl⟩ := exists_openingItem_iff.2 hinner
      exact hinside start (mem_renderPoints_of_opened houter).1 start' (mem_renderPoints_of_opened hinner).1
        hlt item hitem item' hitem' hlt'
  · rintro ⟨hforward, hinside⟩
    constructor
    · exact fun pos _ item hitem => hforward _ (hopened pos item hitem)
    · exact fun pos _ pos' _ hlt item hitem item' hitem' hlt' =>
        hinside _ (hopened pos item hitem) _ (hopened pos' item' hitem') hlt hlt'

-- ---
-- The pieces
-- ---

theorem read_closed (pos : Nat) (stack : List OpeningItem) (word : List Piece) :
    read stack ((stack.takeWhile (·.stop = pos)).map .closed ++ word) = read (Markdown.closeAt pos stack) word := by
  induction stack with
  | nil => rfl
  | cons item stack ih =>
    by_cases hstop : item.stop = pos
    · simpa [Markdown.closeAt, hstop, Brackets.read] using ih
    · simp [Markdown.closeAt, hstop]

theorem read_opened (opening stack : List OpeningItem) (word : List Piece) :
    read stack (opening.map .opened ++ word) = read (opening.reverse ++ stack) word := by
  induction opening generalizing stack with
  | nil => rfl
  | cons item opening ih =>
    rw [List.map_cons, List.cons_append, Brackets.read, ih, List.reverse_cons, List.append_assoc]
    rfl

/-- The pieces, read as brackets, move the stack as the sweep does. -/
theorem read_renderFrom (points : List Nat) (stack : List OpeningItem) :
    read stack (renderFrom ir options points stack) =
      some (sweep OpeningItem.stop (openingItems ir options) points stack) := by
  induction points generalizing stack with
  | nil => rfl
  | cons pos rest ih =>
    rw [renderFrom]
    simp only [List.append_assoc]
    rw [read_closed, read_opened]
    refine Eq.trans ?_ (ih _)
    cases rest with
    | nil => rfl
    | cons next rest =>
      dsimp only [List.head?_cons]
      split <;> rfl

theorem nested_renderFrom_iff :
    Nested (renderFrom ir options (renderPoints ir options) []) ↔ Uncrossed (openedSpans ir options) := by
  rw [nested_iff_read, read_renderFrom, Option.some_inj, ← laminar_iff_uncrossed]
  refine sweep_eq_nil_iff (renderPoints_pairwise ir options) (fun pos _ => openingItems_pairwise ir options pos) ?_
  intro pos _ item hitem
  exact (mem_renderPoints_of_opened (exists_openingItem_iff.1 ⟨item, hitem, rfl⟩)).2

/-- From a point on, the slices are the rest of the text, when a point is behind it. -/
theorem plainLetters_renderFrom (hpoints : (pos :: rest).Pairwise (· < ·))
    (hend : ∃ point ∈ pos :: rest, ir.text.length ≤ point) (stack : List OpeningItem) :
    ir.text.take pos ++ (plainLetters (renderFrom ir options (pos :: rest) stack)).flatten = ir.text := by
  induction rest generalizing pos stack with
  | nil =>
    obtain ⟨point, hpoint, hlength⟩ := hend
    obtain rfl := List.mem_singleton.1 hpoint
    simp [renderFrom, plainLetters, List.take_of_length_le hlength]
  | cons next rest ih =>
    obtain ⟨hfirst, hrest⟩ := List.pairwise_cons.1 hpoints
    have hnext := hfirst next List.mem_cons_self
    have hend : ∃ point ∈ next :: rest, ir.text.length ≤ point := by
      obtain ⟨point, hpoint, hlength⟩ := hend
      rcases List.mem_cons.1 hpoint with rfl | hpoint
      · exact ⟨next, List.mem_cons_self, hlength.trans hnext.le⟩
      · exact ⟨point, hpoint, hlength⟩
    have hpieces : plainLetters (renderFrom ir options (pos :: next :: rest) stack) = slice ir.text pos next ::
        plainLetters (renderFrom ir options (next :: rest)
          ((openingItems ir options pos).reverse ++ Markdown.closeAt pos stack)) := by
      rw [renderFrom]
      simp [hnext]
    rw [hpieces, List.flatten_cons, ← List.append_assoc, slice_append _ hnext.le]
    exact ih hrest hend _

theorem renderPoints_eq_cons (ir : MarkdownIR) (options : RenderOptions) :
    ∃ rest, renderPoints ir options = 0 :: rest := by
  have hzero : 0 ∈ renderPoints ir options := mem_renderPoints.2 List.mem_cons_self
  cases hpoints : renderPoints ir options with
  | nil => simp [hpoints] at hzero
  | cons pos rest =>
    have hsorted := renderPoints_pairwise ir options
    rw [hpoints] at hzero hsorted
    rcases List.mem_cons.1 hzero with rfl | hrest
    · exact ⟨rest, rfl⟩
    · exact absurd (List.rel_of_pairwise_cons hsorted hrest) (Nat.not_lt_zero _)

/-- Whatever the spans are, the slices are the text. -/
theorem plainLetters_renderPieces (ir : MarkdownIR) (options : RenderOptions) :
    (plainLetters (renderPieces ir options)).flatten = ir.text := by
  unfold renderPieces
  split
  case isTrue hempty => rw [hempty]; rfl
  case isFalse =>
    obtain ⟨rest, hpoints⟩ := renderPoints_eq_cons ir options
    have hlength : ir.text.length ∈ renderPoints ir options :=
      mem_renderPoints.2 (List.mem_cons_of_mem _ List.mem_cons_self)
    have hsorted := renderPoints_pairwise ir options
    rw [hpoints] at hlength hsorted ⊢
    exact plainLetters_renderFrom hsorted ⟨_, hlength, Nat.le_refl _⟩ []

/-- The markers are well nested and, without them, the text is left. -/
def WellNested (ir : MarkdownIR) (options : RenderOptions) : Prop :=
  Nested (renderPieces ir options) ∧ (plainLetters (renderPieces ir options)).flatten = ir.text

/-- Markers of a text are well nested exactly when their spans go forward and do not cross. -/
theorem renderMarkdownWithMarkers_wellNested_iff (ir : MarkdownIR) (options : RenderOptions) :
    WellNested ir options ↔ ir.text = [] ∨ Uncrossed (openedSpans ir options) := by
  rw [WellNested, and_iff_left (plainLetters_renderPieces ir options), renderPieces]
  split
  case isTrue hempty => exact iff_of_true .nil (.inl hempty)
  case isFalse hempty => rw [nested_renderFrom_iff, or_iff_right hempty]

-- ---
-- Spans that cross
-- ---

/-- Every span lies inside the text. -/
structure MarkdownIR.Inside (ir : MarkdownIR) : Prop where
  styles : ∀ span ∈ ir.styles, span.start ≤ span.stop ∧ span.stop ≤ ir.text.length
  links : ∀ link ∈ ir.links, link.start ≤ link.stop ∧ link.stop ≤ ir.text.length

/-- What `**a||b**c||` is parsed to, with spoilers. -/
def crossing : MarkdownIR where
  text := [unit 'a', unit 'b', unit 'c']
  styles := [⟨0, 2, .bold⟩, ⟨1, 3, .spoiler⟩]
  links := []

def boldAndSpoiler : RenderOptions where
  styleMarkers
    | .bold => some ⟨[unit '*'], [unit '*']⟩
    | .spoiler => some ⟨[unit '|'], [unit '|']⟩
    | _ => none
  escapeText := id
  buildLink := none

theorem not_wellNested_of_inside : ¬ ∀ ir options, ir.Inside → WellNested ir options := by
  intro h
  have hinside : crossing.Inside := ⟨by simp [crossing], by simp [crossing]⟩
  have hnested : Nested (renderFrom crossing boldAndSpoiler (renderPoints crossing boldAndSpoiler) []) :=
    (h crossing boldAndSpoiler hinside).1
  have hcross := (nested_renderFrom_iff.1 hnested).inside (0, 2) (by simp [openedSpans, crossing, boldAndSpoiler])
    (1, 3) (by simp [openedSpans, crossing, boldAndSpoiler])
  simp at hcross

end OpenClaw.Markdown
