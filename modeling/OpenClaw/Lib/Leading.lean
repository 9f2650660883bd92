import Mathlib.Tactic.Ring.RingNF

/-!
# Leading bits

Numbers of `width` bits are compared by their first `n` bits; with `n` beyond the width
they are compared whole.
-/

namespace OpenClaw

/-- `a` and `b` begin with the same `n` of `width` bits. -/
def SameLeading (width n a b : Nat) : Prop := a / 2 ^ (width - n) = b / 2 ^ (width - n)

instance decidableSameLeading (width n a b : Nat) : Decidable (SameLeading width n a b) :=
  inferInstanceAs (Decidable (_ = _))

namespace SameLeading

/-- Fewer bits agree when more do. -/
theorem mono (hle : m ≤ n) (h : SameLeading width n a b) : SameLeading width m a b := by
  have hsplit : 2 ^ (width - m) = 2 ^ (width - n) * 2 ^ (width - m - (width - n)) := by
    rw [← Nat.pow_add]
    congr 1
    omega
  unfold SameLeading at h ⊢
  rw [hsplit, ← Nat.div_div_eq_div_mul, ← Nat.div_div_eq_div_mul, h]

theorem of_width_le (hle : width ≤ n) : SameLeading width n a b ↔ a = b := by
  simp [SameLeading, Nat.sub_eq_zero_of_le hle]

/-- Within the upper part of two joined numbers the lower part has no say. -/
theorem upper (hle : n ≤ u) (ha : a < 2 ^ v) (hb : b < 2 ^ v) :
    SameLeading (u + v) n (c * 2 ^ v + a) (d * 2 ^ v + b) ↔ SameLeading u n c d := by
  have hsplit : 2 ^ (u + v - n) = 2 ^ v * 2 ^ (u - n) := by
    rw [← Nat.pow_add]
    congr 1
    omega
  have hquot (x y : Nat) (hy : y < 2 ^ v) : (x * 2 ^ v + y) / 2 ^ v = x := by
    rw [Nat.mul_comm, Nat.mul_add_div (Nat.two_pow_pos v), Nat.div_eq_of_lt hy, Nat.add_zero]
  unfold SameLeading
  rw [hsplit, ← Nat.div_div_eq_div_mul, ← Nat.div_div_eq_div_mul, hquot c a ha, hquot d b hb]

theorem div_join (n c y : Nat) :
    (c * 2 ^ v + y) / 2 ^ (v - n) = c * 2 ^ (v - (v - n)) + y / 2 ^ (v - n) := by
  have hsplit : 2 ^ v = 2 ^ (v - n) * 2 ^ (v - (v - n)) := by
    rw [← Nat.pow_add]
    congr 1
    omega
  rw [hsplit, Nat.mul_left_comm, Nat.mul_add_div (Nat.two_pow_pos _)]

/-- Beyond the upper part it has to agree, and the lower parts are compared. -/
theorem lower (ha : a < 2 ^ v) (hb : b < 2 ^ v) :
    SameLeading (u + v) (u + n) (c * 2 ^ v + a) (d * 2 ^ v + b) ↔ c = d ∧ SameLeading v n a b := by
  have hdrop : u + v - (u + n) = v - n := by omega
  constructor
  · intro h
    have hupper : c = d :=
      (of_width_le le_rfl).mp ((upper le_rfl ha hb).mp (h.mono (Nat.le_add_right u n)))
    subst hupper
    refine ⟨rfl, ?_⟩
    unfold SameLeading at h ⊢
    rw [hdrop, div_join, div_join] at h
    exact Nat.add_left_cancel h
  · rintro ⟨rfl, h⟩
    unfold SameLeading at h ⊢
    rw [hdrop, div_join, div_join, h]

end SameLeading

end OpenClaw
