import OpenClaw.Js.CodeUnits

/-!
# The UTF-8 size of a string

`Buffer.byteLength(text, "utf8")`, where a lone surrogate is written as U+FFFD.
-/

namespace OpenClaw.Js

def isHighSurrogate (u : CodeUnit) : Bool := 0xD800 ≤ u && u ≤ 0xDBFF

def isLowSurrogate (u : CodeUnit) : Bool := 0xDC00 ≤ u && u ≤ 0xDFFF

theorem isHighSurrogate_low (h : isLowSurrogate u = true) : isHighSurrogate u = false := by
  simp only [isLowSurrogate, isHighSurrogate, Bool.and_eq_true, decide_eq_true_eq] at h ⊢
  grind

/-- The place between two texts is inside of a surrogate pair. -/
def splitsPair (left right : CodeUnits) : Bool :=
  left.getLast?.any isHighSurrogate && right.head?.any isLowSurrogate

/-- One code point, or a lone surrogate. -/
def isCodePoint : CodeUnits → Bool
  | [_] => true
  | [u, v] => isHighSurrogate u && isLowSurrogate v
  | _ => false

def utf8Width (u : CodeUnit) : Nat :=
  if u < 0x80 then 1 else if u < 0x800 then 2 else 3

/-- A pair takes four bytes, three of them counted at its low surrogate. -/
def utf8Bytes : CodeUnits → Nat
  | [] => 0
  | u :: rest =>
    (if isHighSurrogate u && rest.head?.any isLowSurrogate then 1 else utf8Width u) + utf8Bytes rest

theorem utf8Width_pos (u : CodeUnit) : 0 < utf8Width u := by
  unfold utf8Width
  split
  · decide
  · split <;> decide

theorem utf8Width_le (u : CodeUnit) : utf8Width u ≤ 3 := by
  unfold utf8Width
  split
  · decide
  · split <;> decide

theorem utf8Width_low (h : isLowSurrogate u = true) : utf8Width u = 3 := by
  simp only [isLowSurrogate, Bool.and_eq_true, decide_eq_true_eq] at h
  rw [utf8Width, if_neg (by grind), if_neg (by grind)]

/-- A text with a low surrogate in front takes three bytes at least. -/
theorem three_le_utf8Bytes (h : text.head?.any isLowSurrogate = true) : 3 ≤ utf8Bytes text := by
  cases text with
  | nil => cases h
  | cons u rest =>
    have hlow : isLowSurrogate u = true := h
    rw [utf8Bytes, isHighSurrogate_low hlow, Bool.false_and, if_neg (by decide), utf8Width_low hlow]
    exact Nat.le_add_right 3 _

/-- More text takes no fewer bytes. -/
theorem utf8Bytes_le_append (left right : CodeUnits) :
    utf8Bytes left ≤ utf8Bytes (left ++ right) := by
  induction left with
  | nil => exact Nat.zero_le _
  | cons u rest ih =>
    rw [List.cons_append, utf8Bytes, utf8Bytes]
    cases rest with
    | nil =>
      rw [List.nil_append]
      by_cases hpair : (isHighSurrogate u && right.head?.any isLowSurrogate) = true
      · have hbytes := three_le_utf8Bytes (Bool.and_eq_true_iff.1 hpair).2
        have hwidth := utf8Width_le u
        rw [if_pos hpair]
        simp only [List.head?_nil, Option.any_none, Bool.and_false, utf8Bytes]
        simp only [Bool.false_eq_true, if_false]
        omega
      · rw [if_neg hpair]
        simp [utf8Bytes]
    | cons v rest => exact Nat.add_le_add_left ih _

theorem utf8Bytes_le_append_right (left right : CodeUnits) :
    utf8Bytes right ≤ utf8Bytes (left ++ right) := by
  induction left with
  | nil => exact Nat.le_refl _
  | cons u rest ih => exact ih.trans (Nat.le_add_left _ _)

theorem length_le_utf8Bytes (text : CodeUnits) : text.length ≤ utf8Bytes text := by
  induction text with
  | nil => exact Nat.zero_le _
  | cons u rest ih =>
    have hwidth := utf8Width_pos u
    rw [utf8Bytes, List.length_cons]
    split <;> omega

theorem utf8Bytes_pair (hu : isHighSurrogate u = true) (hv : isLowSurrogate v = true) :
    utf8Bytes [u, v] = 4 := by
  simp [utf8Bytes, hu, hv, isHighSurrogate_low hv, utf8Width_low hv]

end OpenClaw.Js
