import OpenClaw.Js.Text

/-!
# Lower case

What the routing code relies on of `String.prototype.toLowerCase`, whatever the
Unicode tables say about the letters beyond ASCII.
-/

namespace OpenClaw.Js

structure LowerCase where
  toLowerCase : Text → Text
  ascii : ∀ text, (∀ c ∈ text, c.toNat < 128) → toLowerCase text = text.map Char.toLower
  ne_nil : ∀ text, text ≠ [] → toLowerCase text ≠ []
  /-- An ASCII character that is no letter stays, and no other character becomes one. -/
  mem_iff : ∀ text (c : Char), c.toNat < 128 → c.isAlpha = false → (c ∈ toLowerCase text ↔ c ∈ text)

namespace LowerCase

variable (lower : LowerCase)

@[simp] theorem toLowerCase_nil : lower.toLowerCase [] = [] := lower.ascii [] (by simp)

@[simp] theorem toLowerCase_eq_nil {text : Text} : lower.toLowerCase text = [] ↔ text = [] := by
  refine ⟨fun h => ?_, fun h => h ▸ lower.toLowerCase_nil⟩
  by_contra hne
  exact lower.ne_nil text hne h

theorem colon_mem {text : Text} : ':' ∈ lower.toLowerCase text ↔ ':' ∈ text :=
  lower.mem_iff text ':' (by decide) (by decide)

/-- `(value ?? "").trim().toLowerCase()` -/
def normalizeToken (value : Option Text) : Text := lower.toLowerCase (trimChars (value.getD []))

end LowerCase

theorem mem_of_mem_trimChars {c : Char} {text : Text} (h : c ∈ trimChars text) : c ∈ text := by
  have hdrop := (List.rdropWhile_prefix isSpace (text.dropWhile isSpace)).subset h
  exact (List.dropWhile_suffix isSpace).subset hdrop

-- ---
-- ASCII letters
-- ---

theorem isUpper_eq (c : Char) : c.isUpper = decide (65 ≤ c.val ∧ c.val ≤ 90) := rfl

theorem isLower_eq (c : Char) : c.isLower = (decide (97 ≤ c.val) && decide (c.val ≤ 122)) := rfl

theorem isAlpha_eq (c : Char) : c.isAlpha = (c.isUpper || c.isLower) := rfl

theorem toLower_of_not_alpha {c : Char} (h : c.isAlpha = false) : c.toLower = c := by
  rw [isAlpha_eq, Bool.or_eq_false_iff] at h
  have hupper : 65 ≤ c.val → 90 < c.val := by simpa [isUpper_eq] using h.1
  unfold Char.toLower
  refine dif_neg fun hbounds => ?_
  exact absurd hbounds.2 (by simpa using hupper hbounds.1)

theorem isAlpha_toLower (c : Char) : c.toLower.isAlpha = c.isAlpha := by
  unfold Char.toLower
  split
  case isTrue h =>
    simp only [isAlpha_eq, isUpper_eq, isLower_eq, ge_iff_le, UInt32.le_iff_toNat_le] at h ⊢
    simp at h ⊢
    grind
  case isFalse => rfl

theorem lowerChar_eq_iff {c d : Char} (hascii : c.toNat < 128) (hletter : c.isAlpha = false) :
    lowerChar d = c ↔ d = c := by
  unfold lowerChar
  split
  case isTrue hkelvin =>
    constructor
    · rintro rfl
      cases hletter
    · rintro rfl
      omega
  case isFalse =>
    constructor
    · rintro rfl
      exact (toLower_of_not_alpha (isAlpha_toLower d ▸ hletter)).symm
    · rintro rfl
      exact toLower_of_not_alpha hletter

/-- The mapping of the ASCII letters and of the Kelvin sign. -/
def LowerCase.simple : LowerCase where
  toLowerCase text := text.map lowerChar
  ascii text h := by
    refine List.map_congr_left fun c hc => if_neg fun hkelvin => ?_
    have := h c hc
    omega
  ne_nil text h := by simpa using h
  mem_iff text c hascii hletter := by
    simp [List.mem_map, lowerChar_eq_iff hascii hletter]

end OpenClaw.Js
