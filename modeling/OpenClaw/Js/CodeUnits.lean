import OpenClaw.Js.Value

/-!
# Strings by their code units

Where lengths and positions matter, a string is the list of its UTF-16 code
units. A surrogate pair may then be cut in two.
-/

namespace OpenClaw.Js

abbrev CodeUnit := UInt16
abbrev CodeUnits := List CodeUnit

/-- The code unit of a character of the basic plane. -/
def unit (c : Char) : CodeUnit := c.toNat.toUInt16

/-- `/\s/`, which no surrogate is. -/
def isSpaceUnit (u : CodeUnit) : Bool := isSpace (Char.ofNat u.toNat)

/-- `text.trim().length === 0` -/
def isBlank (text : CodeUnits) : Bool := text.all isSpaceUnit

/-- `text.length`, as a number. -/
def lengthOf (text : CodeUnits) : Number := .ofInt text.length

/-- `text.slice(start, end)`, for positions in the text. -/
def slice (text : CodeUnits) (start stop : Nat) : CodeUnits := (text.take stop).drop start

/-- `text.startsWith(pattern, i)` -/
def startsAt (pattern text : CodeUnits) (i : Nat) : Bool := pattern.isPrefixOf (text.drop i)

/-- The first position from `i` on, `rest` being the text from there. -/
def indexFrom (pattern : CodeUnits) : CodeUnits → Nat → Option Nat
  | [], _ => none
  | u :: rest, i =>
    if pattern.isPrefixOf (u :: rest) then some i else indexFrom pattern rest (i + 1)

/-- `text.indexOf(pattern, position)`, for a pattern that is not empty. -/
def indexOf (text pattern : CodeUnits) (position : Nat) : Option Nat :=
  indexFrom pattern (text.drop position) position

/-- `text.lastIndexOf(pattern, position)` -/
def lastIndexOf (text pattern : CodeUnits) : Nat → Option Nat
  | 0 => if startsAt pattern text 0 then some 0 else none
  | position + 1 =>
    if startsAt pattern text (position + 1) then some (position + 1)
    else lastIndexOf text pattern position

theorem indexFrom_bounds (h : indexFrom pattern rest i = some j) : i ≤ j ∧ j < i + rest.length := by
  induction rest generalizing i with
  | nil => cases h
  | cons u rest ih =>
    simp only [indexFrom] at h
    split at h
    · cases h
      simp
    · obtain ⟨hle, hlt⟩ := ih h
      simp only [List.length_cons]
      omega

theorem indexOf_bounds (h : indexOf text pattern position = some j) :
    position ≤ j ∧ j < text.length := by
  obtain ⟨hle, hlt⟩ := indexFrom_bounds h
  simp only [List.length_drop] at hlt
  omega

theorem lastIndexOf_le (h : lastIndexOf text pattern position = some j) : j ≤ position := by
  induction position with
  | zero =>
    simp only [lastIndexOf] at h
    split at h <;> cases h
    exact Nat.le_refl 0
  | succ position ih =>
    simp only [lastIndexOf] at h
    split at h
    · cases h
      exact Nat.le_refl _
    · exact Nat.le_succ_of_le (ih h)

/-- A pattern is found inside the text only. -/
theorem lastIndexOf_startsAt (h : lastIndexOf text pattern position = some j) :
    startsAt pattern text j = true := by
  induction position with
  | zero =>
    simp only [lastIndexOf] at h
    split at h <;> cases h
    assumption
  | succ position ih =>
    simp only [lastIndexOf] at h
    split at h
    · cases h
      assumption
    · exact ih h

theorem startsAt_lt (hp : pattern ≠ []) (h : startsAt pattern text j = true) : j < text.length := by
  by_contra hlong
  have hnil : text.drop j = [] := List.drop_eq_nil_of_le (Nat.not_lt.mp hlong)
  cases pattern with
  | nil => exact hp rfl
  | cons u pattern =>
    rw [startsAt, hnil] at h
    cases h

theorem slice_append (text : CodeUnits) (hij : i ≤ j) :
    text.take i ++ slice text i j = text.take j := by
  have htake : text.take i = (text.take j).take i := by rw [List.take_take, Nat.min_eq_left hij]
  rw [slice, htake, List.take_append_drop]

end OpenClaw.Js
