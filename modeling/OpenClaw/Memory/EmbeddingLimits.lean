import Mathlib.Algebra.Order.Floor.Ring
import Mathlib.Data.List.Chain
import Mathlib.Data.Rat.Floor
import OpenClaw.Js.Utf8

/-!
# Splitting embedding inputs

`splitTextToUtf8ByteLimit` looks for the longest part that fits by bisection and steps back
from the inside of a surrogate pair. Where a pair takes more than the limit it steps back to
where it was and drops the rest.
-/

namespace OpenClaw.Memory

open Js

-- ---
-- The code
-- ---

theorem mid_bounds {low : Nat} {high : Rat} (h : (low : Rat) ≤ high) :
    low ≤ ⌊((low : Rat) + high) / 2⌋.toNat ∧ (⌊((low : Rat) + high) / 2⌋.toNat : Rat) ≤ high := by
  have hfloor : (low : Int) ≤ ⌊((low : Rat) + high) / 2⌋ := by
    rw [Int.le_floor]
    push_cast
    linarith
  have hcast : ((⌊((low : Rat) + high) / 2⌋.toNat : Int) : Rat) =
      (⌊((low : Rat) + high) / 2⌋ : Int) := by
    rw [Int.toNat_of_nonneg (by omega)]
  refine ⟨by omega, ?_⟩
  have hle := Int.floor_le (((low : Rat) + high) / 2)
  rw [← Int.cast_natCast, hcast]
  linarith

/-- The bisection, with the greatest position so far that fits. -/
def bisect (fits : Nat → Bool) (low : Nat) (high : Rat) (best : Nat) : Nat :=
  if h : (low : Rat) ≤ high then
    let mid := ⌊((low : Rat) + high) / 2⌋.toNat
    if fits mid then bisect fits (mid + 1) high mid else bisect fits low (mid - 1) best
  else best
termination_by (⌊high⌋ + 1 - low).toNat
decreasing_by
  · have hmid := mid_bounds h
    have hfloor : (low : Int) ≤ ⌊high⌋ := Int.le_floor.2 (by exact_mod_cast h)
    push_cast
    omega
  · have hmid := mid_bounds h
    have hfloor : (low : Int) ≤ ⌊high⌋ := Int.le_floor.2 (by exact_mod_cast h)
    have hnext : ⌊((⌊((low : Rat) + high) / 2⌋.toNat : Nat) : Rat) - 1⌋ =
        (⌊((low : Rat) + high) / 2⌋.toNat : Int) - 1 := by
      rw [Int.floor_sub_one, Int.floor_natCast]
    have hle : (⌊((low : Rat) + high) / 2⌋.toNat : Int) ≤ ⌊high⌋ :=
      Int.le_floor.2 (by exact_mod_cast hmid.2)
    omega

/-- The end of the longest part from `cursor` on that fits, but of one unit at least. -/
def longestCut (text : CodeUnits) (maxUtf8Bytes : Rat) (cursor : Nat) : Nat :=
  let fits (stop : Nat) : Bool := (utf8Bytes (slice text cursor stop) : Rat) ≤ maxUtf8Bytes
  let best := bisect fits (cursor + 1) (min (text.length : Rat) (cursor + maxUtf8Bytes)) cursor
  if best ≤ cursor then min text.length (cursor + 1) else best

def nextCut (text : CodeUnits) (maxUtf8Bytes : Rat) (cursor : Nat) : Nat :=
  let best := longestCut text maxUtf8Bytes cursor
  if best < text.length && cursor < best && text[best - 1]?.any isHighSurrogate &&
      text[best]?.any isLowSurrogate then
    best - 1
  else best

theorem slice_ne_nil (h : slice text cursor stop ≠ []) : cursor < stop ∧ cursor < text.length := by
  rw [slice, Ne, List.drop_eq_nil_iff, List.length_take] at h
  omega

def splitFrom (text : CodeUnits) (maxUtf8Bytes : Rat) (cursor : Nat) : List CodeUnits :=
  if cursor < text.length then
    let best := nextCut text maxUtf8Bytes cursor
    if slice text cursor best = [] then []
    else slice text cursor best :: splitFrom text maxUtf8Bytes best
  else []
termination_by text.length - cursor
decreasing_by
  rename_i hne
  have hlt := slice_ne_nil hne
  omega

def splitTextToUtf8ByteLimit (text : CodeUnits) (maxUtf8Bytes : Rat) : List CodeUnits :=
  if maxUtf8Bytes ≤ 0 then [text]
  else if (utf8Bytes text : Rat) ≤ maxUtf8Bytes then [text]
  else splitFrom text maxUtf8Bytes 0

inductive EmbeddingInputPart where
  | text (text : CodeUnits)
  | inlineData (mimeType data : CodeUnits)

/-- An input without parts has the empty list of them. -/
structure EmbeddingInput where
  text : CodeUnits
  parts : List EmbeddingInputPart := []

structure MemoryChunk where
  startLine : Nat
  endLine : Nat
  text : CodeUnits
  hash : CodeUnits
  embeddingInput : Option EmbeddingInput

def isInlineDataEmbeddingInputPart : EmbeddingInputPart → Bool
  | .text _ => false
  | .inlineData _ _ => true

def hasNonTextEmbeddingParts (input : Option EmbeddingInput) : Bool :=
  input.any fun input => input.parts.any isInlineDataEmbeddingInputPart

def maxInputTokens (providerMaxInputTokens : Rat) (hardMaxInputTokens : Option Rat) : Rat :=
  match hardMaxInputTokens with
  | some hard => if 0 < hard then min providerMaxInputTokens hard else providerMaxInputTokens
  | none => providerMaxInputTokens

/-- The provider's limit is looked up by the caller of the model. -/
def enforceEmbeddingMaxInputTokens (hashText : CodeUnits → CodeUnits) (providerMaxInputTokens : Rat)
    (chunks : List MemoryChunk) (hardMaxInputTokens : Option Rat) : List MemoryChunk :=
  let maxTokens := maxInputTokens providerMaxInputTokens hardMaxInputTokens
  chunks.flatMap fun chunk =>
    if hasNonTextEmbeddingParts chunk.embeddingInput then [chunk]
    else if (utf8Bytes chunk.text : Rat) ≤ maxTokens then [chunk]
    else (splitTextToUtf8ByteLimit chunk.text maxTokens).map fun text =>
      { chunk with text, hash := hashText text, embeddingInput := some { text } }

-- ---
-- Bisection
-- ---

/-- Where all smaller positions of one that fits fit too, the greatest one is found. -/
theorem bisect_spec {fits : Nat → Bool} (high : Rat)
    (hmono : ∀ j k, j ≤ k → fits k = true → fits j = true)
    (hbest : best < low) :
    (bisect fits low high best = best ∨
      fits (bisect fits low high best) = true ∧ low ≤ bisect fits low high best ∧
        (bisect fits low high best : Rat) ≤ high) ∧
      ∀ k, low ≤ k → (k : Rat) ≤ high → fits k = true → k ≤ bisect fits low high best := by
  fun_induction bisect fits low high best with
  | case1 low high best h mid hfits ih =>
    have hmid := mid_bounds h
    obtain ⟨hfound, hall⟩ := ih (Nat.lt_succ_self mid)
    have hle : mid ≤ bisect fits (mid + 1) high mid := by
      obtain heq | hfound := hfound <;> omega
    refine ⟨.inr ?_, fun k hlow hhigh hk => ?_⟩
    · obtain heq | ⟨hfits', hlow', hhigh'⟩ := hfound
      · rw [heq]
        exact ⟨hfits, hmid⟩
      · exact ⟨hfits', by omega, hhigh'⟩
    · obtain hkmid | hkmid := Nat.lt_or_ge mid k
      · exact hall k hkmid hhigh hk
      · omega
  | case2 low high best h mid hfits ih =>
    have hmid := mid_bounds h
    obtain ⟨hfound, hall⟩ := ih hbest
    refine ⟨hfound.imp_right fun ⟨hfits', hlow', hhigh'⟩ => ⟨hfits', hlow', by linarith [hmid.2]⟩,
      fun k hlow hhigh hk => hall k hlow ?_ hk⟩
    have hlt : k < mid := by
      by_contra hge
      exact hfits (hmono mid k (Nat.not_lt.1 hge) hk)
    have hcast : ((k + 1 : Nat) : Rat) ≤ mid := by exact_mod_cast hlt
    push_cast at hcast
    linarith
  | case3 low high best h =>
    refine ⟨.inl rfl, fun k hlow hhigh _ => absurd (le_trans ?_ hhigh) h⟩
    exact_mod_cast hlow

-- ---
-- Cuts
-- ---

theorem slice_append_slice (text : CodeUnits) (hij : i ≤ j) (hjk : j ≤ k) :
    slice text i j ++ slice text j k = slice text i k := by
  refine (List.append_right_inj (text.take i)).1 ?_
  rw [← List.append_assoc, slice_append text hij, slice_append text hjk,
    slice_append text (hij.trans hjk)]

/-- A longer part takes no fewer bytes. -/
theorem utf8Bytes_slice_mono (text : CodeUnits) (cursor : Nat) (hjk : j ≤ k) :
    utf8Bytes (slice text cursor j) ≤ utf8Bytes (slice text cursor k) := by
  obtain hcursor | hcursor := Nat.lt_or_ge j cursor
  · have hnil : slice text cursor j = [] := by
      rw [slice, List.drop_eq_nil_iff, List.length_take]
      omega
    rw [hnil]
    exact Nat.zero_le _
  · rw [← slice_append_slice text hcursor hjk]
    exact utf8Bytes_le_append _ _

section
variable {text : CodeUnits} {maxUtf8Bytes : Rat} {cursor : Nat}

theorem fits_of_le (text : CodeUnits) (maxUtf8Bytes : Rat) (cursor j k : Nat) (hjk : j ≤ k)
    (hk : decide ((utf8Bytes (slice text cursor k) : Rat) ≤ maxUtf8Bytes) = true) :
    decide ((utf8Bytes (slice text cursor j) : Rat) ≤ maxUtf8Bytes) = true := by
  rw [decide_eq_true_eq] at hk ⊢
  exact le_trans (by exact_mod_cast utf8Bytes_slice_mono text cursor hjk) hk

theorem longestCut_spec (maxUtf8Bytes : Rat) (hcursor : cursor < text.length) :
    cursor < longestCut text maxUtf8Bytes cursor ∧ longestCut text maxUtf8Bytes cursor ≤ text.length ∧
      ((utf8Bytes (slice text cursor (longestCut text maxUtf8Bytes cursor)) : Rat) ≤ maxUtf8Bytes ∨
        longestCut text maxUtf8Bytes cursor = cursor + 1) := by
  have hfound := (bisect_spec (min (text.length : Rat) (cursor + maxUtf8Bytes))
    (fits_of_le text maxUtf8Bytes cursor) (Nat.lt_add_one cursor)).1
  unfold longestCut
  dsimp only
  split
  · rw [Nat.min_eq_right hcursor]
    exact ⟨Nat.lt_succ_self cursor, hcursor, .inr rfl⟩
  · rename_i hgt
    obtain heq | ⟨hfits, -, hhigh⟩ := hfound
    · exact absurd heq.le hgt
    · refine ⟨Nat.not_le.1 hgt, ?_, .inl (of_decide_eq_true hfits)⟩
      exact_mod_cast hhigh.trans (min_le_left _ _)

/-- What fits ends no later. -/
theorem le_longestCut (hcursor : cursor < k) (hk : k ≤ text.length)
    (hfits : (utf8Bytes (slice text cursor k) : Rat) ≤ maxUtf8Bytes) :
    k ≤ longestCut text maxUtf8Bytes cursor := by
  have hlength : k - cursor ≤ utf8Bytes (slice text cursor k) := by
    refine le_trans (le_of_eq ?_) (length_le_utf8Bytes _)
    rw [slice, List.length_drop, List.length_take, Nat.min_eq_left hk]
  have hhigh : (k : Rat) ≤ min (text.length : Rat) (cursor + maxUtf8Bytes) := by
    refine le_min (by exact_mod_cast hk) ?_
    have hcast : ((k - cursor : Nat) : Rat) ≤ maxUtf8Bytes := le_trans (by exact_mod_cast hlength) hfits
    rw [Nat.cast_sub hcursor.le] at hcast
    linarith
  have hall := (bisect_spec _ (fits_of_le text maxUtf8Bytes cursor) (Nat.lt_add_one cursor)).2 k
    hcursor hhigh (decide_eq_true hfits)
  unfold longestCut
  dsimp only
  split
  · omega
  · exact hall

/-- A surrogate pair at two positions of a text. -/
def PairAt (text : CodeUnits) (i : Nat) : Prop :=
  text[i]?.any isHighSurrogate = true ∧ text[i + 1]?.any isLowSurrogate = true

theorem PairAt.slice {i : Nat} (h : PairAt text i) : utf8Bytes (slice text i (i + 2)) = 4 := by
  obtain ⟨hhigh, hlow⟩ := h
  obtain ⟨u, hu, hhigh⟩ := Option.any_eq_true _ _ |>.1 hhigh
  obtain ⟨v, hv, hlow⟩ := Option.any_eq_true _ _ |>.1 hlow
  obtain ⟨hi, rfl⟩ := List.getElem?_eq_some_iff.1 hu
  obtain ⟨hi', rfl⟩ := List.getElem?_eq_some_iff.1 hv
  have hslice : Js.slice text i (i + 2) = [text[i], text[i + 1]] := by
    rw [Js.slice, List.drop_take, Nat.add_sub_cancel_left, List.drop_eq_getElem_cons hi,
      List.drop_eq_getElem_cons hi']
    rfl
  rw [hslice, utf8Bytes_pair hhigh hlow]

/-- The last step back: over the first half of a pair. -/
theorem nextCut_cases (maxUtf8Bytes : Rat) (hcursor : cursor < text.length) :
    (nextCut text maxUtf8Bytes cursor + 1 = longestCut text maxUtf8Bytes cursor ∧
        PairAt text (nextCut text maxUtf8Bytes cursor)) ∨
      (nextCut text maxUtf8Bytes cursor = longestCut text maxUtf8Bytes cursor ∧
        ¬ PairAt text (longestCut text maxUtf8Bytes cursor - 1)) := by
  have hspec := longestCut_spec maxUtf8Bytes hcursor
  unfold nextCut
  dsimp only
  generalize longestCut text maxUtf8Bytes cursor = best at hspec ⊢
  have hbest : best - 1 + 1 = best := by omega
  split
  · rename_i hstep
    simp only [Bool.and_eq_true] at hstep
    exact .inl ⟨hbest, hstep.1.2, by rw [hbest]; exact hstep.2⟩
  · rename_i hstep
    refine .inr ⟨rfl, fun ⟨hhigh, hlow⟩ => hstep ?_⟩
    rw [hbest] at hlow
    have hlt : best < text.length := by
      by_contra hge
      rw [List.getElem?_eq_none (Nat.not_lt.1 hge)] at hlow
      cases hlow
    simp only [Bool.and_eq_true, decide_eq_true_eq]
    exact ⟨⟨⟨hlt, hspec.1⟩, hhigh⟩, hlow⟩

theorem nextCut_le (maxUtf8Bytes : Rat) (hcursor : cursor < text.length) :
    cursor ≤ nextCut text maxUtf8Bytes cursor ∧ nextCut text maxUtf8Bytes cursor ≤ text.length := by
  have hspec := longestCut_spec maxUtf8Bytes hcursor
  obtain ⟨hback, -⟩ | ⟨heq, -⟩ := nextCut_cases maxUtf8Bytes hcursor <;> omega

/-- The next part is not empty, unless a pair starts it that takes more than the limit. -/
theorem lt_nextCut (hcursor : cursor < text.length)
    (hfits : 4 ≤ maxUtf8Bytes ∨ ¬ PairAt text cursor) :
    cursor < nextCut text maxUtf8Bytes cursor := by
  have hspec := longestCut_spec maxUtf8Bytes hcursor
  obtain ⟨hback, hpair⟩ | ⟨heq, -⟩ := nextCut_cases maxUtf8Bytes hcursor
  · refine lt_of_le_of_ne (by omega) fun hsame => ?_
    rw [← hsame] at hpair hback
    obtain hlimit | hno := hfits
    · have hsecond : cursor + 1 < text.length := by
        by_contra hge
        have hlow := hpair.2
        rw [List.getElem?_eq_none (Nat.not_lt.1 hge)] at hlow
        cases hlow
      have hle : cursor + 2 ≤ longestCut text maxUtf8Bytes cursor := by
        refine le_longestCut (by omega) hsecond ?_
        rw [hpair.slice]
        exact_mod_cast hlimit
      omega
    · exact hno hpair
  · omega

/-- No part goes beyond a pair that takes more than the limit. -/
theorem nextCut_le_pair (hcursor : cursor ≤ i) (hlimit : maxUtf8Bytes < 4) (hpair : PairAt text i) :
    nextCut text maxUtf8Bytes cursor ≤ i := by
  have hi : i < text.length := by
    by_contra hge
    have hhigh := hpair.1
    rw [List.getElem?_eq_none (Nat.not_lt.1 hge)] at hhigh
    cases hhigh
  obtain ⟨-, -, hfits⟩ := longestCut_spec maxUtf8Bytes (hcursor.trans_lt hi)
  have hshort : longestCut text maxUtf8Bytes cursor ≤ i + 1 := by
    by_contra hlong
    have hbytes : 4 ≤ utf8Bytes (slice text cursor (longestCut text maxUtf8Bytes cursor)) := by
      rw [← hpair.slice, ← slice_append_slice text hcursor
        (Nat.le_of_succ_le (Nat.lt_of_not_le hlong).le)]
      exact (utf8Bytes_slice_mono text i (by omega)).trans (utf8Bytes_le_append_right _ _)
    have hcast : (4 : Rat) ≤ utf8Bytes (slice text cursor (longestCut text maxUtf8Bytes cursor)) := by
      exact_mod_cast hbytes
    obtain hfits | hone := hfits
    · linarith
    · omega
  obtain ⟨hback, -⟩ | ⟨heq, hno⟩ := nextCut_cases maxUtf8Bytes (hcursor.trans_lt hi)
  · omega
  · obtain hlt | hsame := Nat.lt_or_eq_of_le hshort
    · omega
    · rw [hsame, Nat.add_sub_cancel] at hno
      exact absurd hpair hno

/-- A cut is not inside of a pair. -/
theorem not_pairAt_nextCut (hcursor : cursor < text.length)
    (hlt : cursor < nextCut text maxUtf8Bytes cursor) :
    ¬ PairAt text (nextCut text maxUtf8Bytes cursor - 1) := by
  obtain ⟨-, hpair⟩ | ⟨heq, hno⟩ := nextCut_cases maxUtf8Bytes hcursor
  · rintro ⟨-, hlow⟩
    rw [Nat.sub_add_cancel (by omega)] at hlow
    obtain ⟨u, hu, hlow⟩ := (Option.any_eq_true _ _).1 hlow
    have hhigh := hpair.1
    rw [hu, Option.any_some, isHighSurrogate_low hlow] at hhigh
    cases hhigh
  · rw [heq]
    exact hno

theorem part_bounded (hcursor : cursor < text.length) :
    (utf8Bytes (slice text cursor (nextCut text maxUtf8Bytes cursor)) : Rat) ≤ maxUtf8Bytes ∨
      nextCut text maxUtf8Bytes cursor ≤ cursor + 1 := by
  obtain ⟨-, -, hfits⟩ := longestCut_spec maxUtf8Bytes hcursor
  have hle : nextCut text maxUtf8Bytes cursor ≤ longestCut text maxUtf8Bytes cursor := by
    obtain ⟨hback, -⟩ | ⟨heq, -⟩ := nextCut_cases maxUtf8Bytes hcursor <;> omega
  refine hfits.imp (fun hfits => ?_) fun hone => by omega
  exact le_trans (by exact_mod_cast utf8Bytes_slice_mono text cursor hle) hfits

end

-- ---
-- Parts
-- ---

/-- What the parts of a text are to be. -/
structure Splits (text : CodeUnits) (maxUtf8Bytes : Rat) (parts : List CodeUnits) : Prop where
  ne_nil : [] ∈ parts → text = []
  flatten : parts.flatten = text
  whole : parts.IsChain (splitsPair · · = false)
  bounded : ∀ part ∈ parts, (utf8Bytes part : Rat) ≤ maxUtf8Bytes ∨ isCodePoint part = true

theorem splitFrom_flatten (cursor : Nat) (hfits : 4 ≤ maxUtf8Bytes ∨ ∀ i, ¬ PairAt text i) :
    (splitFrom text maxUtf8Bytes cursor).flatten = text.drop cursor := by
  fun_induction splitFrom text maxUtf8Bytes cursor with
  | case1 cursor hcursor best hnil =>
    have hlt := lt_nextCut hcursor (hfits.imp_right fun hno => hno cursor)
    have hle := nextCut_le maxUtf8Bytes hcursor
    rw [slice, List.drop_eq_nil_iff, List.length_take] at hnil
    omega
  | case2 cursor hcursor best hne ih =>
    have hle := nextCut_le maxUtf8Bytes hcursor
    rw [List.flatten_cons, ih]
    refine (List.append_right_inj (text.take cursor)).1 ?_
    rw [← List.append_assoc, slice_append text hle.1, List.take_append_drop, List.take_append_drop]
  | case3 cursor hcursor =>
    rw [List.flatten_nil, List.drop_eq_nil_of_le (Nat.not_lt.1 hcursor)]

/-- The text from a pair on is dropped that takes more than the limit. -/
theorem length_splitFrom_le (hcursor : cursor ≤ i) (hlimit : maxUtf8Bytes < 4)
    (hpair : PairAt text i) :
    (splitFrom text maxUtf8Bytes cursor).flatten.length ≤ i - cursor := by
  fun_induction splitFrom text maxUtf8Bytes cursor with
  | case1 | case3 => exact Nat.zero_le _
  | case2 cursor hlt best hne ih =>
    have hle := nextCut_le_pair hcursor hlimit hpair
    have hge := (nextCut_le maxUtf8Bytes hlt).1
    have hlength := ih hle
    rw [List.flatten_cons, List.length_append, slice, List.length_drop, List.length_take]
    omega

theorem splitFrom_parts (h : part ∈ splitFrom text maxUtf8Bytes cursor) :
    part ≠ [] ∧ ((utf8Bytes part : Rat) ≤ maxUtf8Bytes ∨ isCodePoint part = true) := by
  fun_induction splitFrom text maxUtf8Bytes cursor with
  | case1 | case3 => cases h
  | case2 cursor hcursor best hne ih =>
    obtain rfl | h := List.mem_cons.1 h
    · refine ⟨hne, (part_bounded hcursor).imp_right fun hone => ?_⟩
      have hlength : (slice text cursor best).length = 1 := by
        have hlt := slice_ne_nil hne
        rw [slice, List.length_drop, List.length_take]
        omega
      obtain ⟨u, hu⟩ := List.length_eq_one_iff.1 hlength
      rw [hu]
      rfl
    · exact ih h

theorem getLast?_slice (hij : i < j) (hj : j ≤ text.length) :
    (slice text i j).getLast? = text[j - 1]? := by
  rw [List.getLast?_eq_getElem?, slice, List.length_drop, List.length_take, List.getElem?_drop,
    List.getElem?_take_of_lt (by omega), Nat.min_eq_left hj]
  congr 1
  omega

theorem head?_slice (hij : i < j) : (slice text i j).head? = text[i]? := by
  rw [slice, List.head?_drop, List.getElem?_take_of_lt hij]

theorem splitFrom_whole : (splitFrom text maxUtf8Bytes cursor).IsChain (splitsPair · · = false) := by
  fun_induction splitFrom text maxUtf8Bytes cursor with
  | case1 | case3 => exact .nil
  | case2 cursor hcursor best hne ih =>
    refine List.isChain_cons.2 ⟨fun next hnext => ?_, ih⟩
    have hlt := (slice_ne_nil hne).1
    have hle := (nextCut_le maxUtf8Bytes hcursor).2
    have hno := not_pairAt_nextCut hcursor hlt
    have hhead : next.head? = text[best]? := by
      rw [splitFrom] at hnext
      split at hnext
      · dsimp only at hnext
        split at hnext
        · cases hnext
        · rename_i hnext'
          cases hnext
          exact head?_slice (slice_ne_nil hnext').1
      · cases hnext
    rw [splitsPair, getLast?_slice hlt hle, hhead, Bool.and_eq_false_iff]
    rw [PairAt, Nat.sub_add_cancel (by omega)] at hno
    by_cases hhigh : text[best - 1]?.any isHighSurrogate = true
    · exact .inr (Bool.not_eq_true _ ▸ fun hlow => hno ⟨hhigh, hlow⟩)
    · exact .inl (Bool.not_eq_true _ ▸ hhigh)

/-- The parts of every text are as they are to be, and no chunk of it loses text. -/
structure KeepsText (hashText : CodeUnits → CodeUnits) (text : CodeUnits)
    (maxUtf8Bytes : Rat) : Prop where
  splits : Splits text maxUtf8Bytes (splitTextToUtf8ByteLimit text maxUtf8Bytes)
  chunks : ∀ providerMax hardMax chunk, maxInputTokens providerMax hardMax = maxUtf8Bytes →
    chunk.text = text → hasNonTextEmbeddingParts chunk.embeddingInput = false →
    (enforceEmbeddingMaxInputTokens hashText providerMax [chunk] hardMax).flatMap (·.text) = text

/-- A chunk is split into the parts of its text. -/
theorem enforce_text {hashText : CodeUnits → CodeUnits} {chunk : MemoryChunk}
    (hlimit : 0 < maxUtf8Bytes)
    (hmax : maxInputTokens providerMax hardMax = maxUtf8Bytes)
    (htext : hasNonTextEmbeddingParts chunk.embeddingInput = false) :
    (enforceEmbeddingMaxInputTokens hashText providerMax [chunk] hardMax).flatMap (·.text) =
      (splitTextToUtf8ByteLimit chunk.text maxUtf8Bytes).flatten := by
  simp only [enforceEmbeddingMaxInputTokens, hmax, List.flatMap_cons, List.flatMap_nil, List.append_nil,
    htext, Bool.false_eq_true, if_false, splitTextToUtf8ByteLimit, if_neg (not_le.2 hlimit)]
  split
  · simp
  · rw [List.flatMap_map, List.flatMap_id']

theorem splits_splitTextToUtf8ByteLimit
    (h : (utf8Bytes text : Rat) ≤ maxUtf8Bytes ∨ 4 ≤ maxUtf8Bytes ∨ ∀ i, ¬ PairAt text i)
    (hlimit : 0 < maxUtf8Bytes) :
    Splits text maxUtf8Bytes (splitTextToUtf8ByteLimit text maxUtf8Bytes) := by
  rw [splitTextToUtf8ByteLimit, if_neg (not_le.2 hlimit)]
  split
  · rename_i hfits
    exact ⟨fun hmem => (List.mem_singleton.1 hmem).symm, List.flatten_singleton, .singleton _,
      fun part hpart => .inl (List.mem_singleton.1 hpart ▸ hfits)⟩
  · rename_i hlong
    have hflatten := splitFrom_flatten 0 (h.resolve_left hlong)
    exact ⟨fun hmem => absurd rfl (splitFrom_parts hmem).1, by rw [hflatten, List.drop_zero],
      splitFrom_whole, fun part hpart => (splitFrom_parts hpart).2⟩

/-- The parts lose text exactly where a pair is more than the limit and the text too. -/
theorem keepsText_iff (hashText : CodeUnits → CodeUnits) (text : CodeUnits)
    (hlimit : 0 < maxUtf8Bytes) :
    KeepsText hashText text maxUtf8Bytes ↔
      (utf8Bytes text : Rat) ≤ maxUtf8Bytes ∨ 4 ≤ maxUtf8Bytes ∨ ∀ i, ¬ PairAt text i := by
  constructor
  · intro h
    by_contra hno
    simp only [not_or, not_forall, not_not, not_le] at hno
    obtain ⟨hlong, hsmall, i, hpair⟩ := hno
    have hflatten := h.splits.flatten
    rw [splitTextToUtf8ByteLimit, if_neg (not_le.2 hlimit), if_neg (not_le.2 hlong)] at hflatten
    have hlength := length_splitFrom_le (Nat.zero_le i) hsmall hpair
    rw [hflatten] at hlength
    have hhigh := hpair.1
    rw [List.getElem?_eq_none (by omega)] at hhigh
    cases hhigh
  · intro h
    refine ⟨splits_splitTextToUtf8ByteLimit h hlimit, ?_⟩
    rintro providerMax hardMax chunk hmax rfl htext
    rw [enforce_text hlimit hmax htext, (splits_splitTextToUtf8ByteLimit h hlimit).flatten]

/-- `a😀` within four bytes. -/
theorem keepsText_four : KeepsText id [0x61, 0xD83D, 0xDE00] 4 :=
  (keepsText_iff id [0x61, 0xD83D, 0xDE00] (by norm_num)).2 (.inr (.inl le_rfl))

/-- `😀` within three bytes. -/
theorem not_splits_three :
    ¬ Splits [0xD83D, 0xDE00] 3 (splitTextToUtf8ByteLimit [0xD83D, 0xDE00] 3) := by
  intro h
  have hpair : PairAt [0xD83D, 0xDE00] 0 := ⟨rfl, rfl⟩
  have hbytes : utf8Bytes [0xD83D, 0xDE00] = 4 := by decide
  have hflatten := h.flatten
  rw [splitTextToUtf8ByteLimit, if_neg (by norm_num), if_neg (by rw [hbytes]; norm_num)] at hflatten
  have hlength := length_splitFrom_le (Nat.zero_le 0) (by norm_num : (3 : Rat) < 4) hpair
  rw [hflatten] at hlength
  exact absurd hlength (by decide)

end OpenClaw.Memory
