import Mathlib.Data.List.Basic
import Mathlib.Tactic.SplitIfs

/-!
# Fixed windows

A limit on what is granted in a window of time. A window begins with the first call after the
one before has passed. Whatever the calls, a span as long as a window sees at most twice the
limit, and what is refused finds the limit reached in the span before it.
-/

namespace OpenClaw

structure FixedWindow where
  start : Int
  count : Nat

namespace FixedWindow

-- ---
-- Counting
-- ---

def countIn (times : List Int) (a b : Int) : Nat := times.countP fun t => a ≤ t ∧ t < b

theorem countIn_le (h : ∀ t ∈ times, a ≤ t → t < b → a' ≤ t ∧ t < b') :
    countIn times a b ≤ countIn times a' b' :=
  List.countP_mono_left fun t ht hin => by
    simp only [decide_eq_true_eq] at hin ⊢
    exact h t ht hin.1 hin.2

theorem countIn_eq_zero (h : ∀ t ∈ times, t < a) : countIn times a b = 0 := by
  refine List.countP_eq_zero.2 fun t ht => ?_
  have := h t ht
  simp only [decide_eq_true_eq]
  omega

theorem countIn_cons (t : Int) (times : List Int) (a b : Int) :
    countIn (t :: times) a b = countIn times a b + if a ≤ t ∧ t < b then 1 else 0 := by
  simp [countIn, List.countP_cons]

theorem countIn_split (times : List Int) (a b c : Int) :
    countIn times a c ≤ countIn times a b + countIn times b c := by
  induction times with
  | nil => exact Nat.le_refl _
  | cons t times ih =>
    simp only [countIn_cons]
    split_ifs <;> omega

-- ---
-- The window
-- ---

/-- The window a call falls into. -/
def current (width : Int) (w : FixedWindow) (now : Int) : FixedWindow :=
  if now - w.start ≥ width then ⟨now, 0⟩ else w

def consume (limit : Nat) (width : Int) (w : FixedWindow) (now : Int) : Bool × FixedWindow :=
  let w := current width w now
  if w.count ≥ limit then (false, w) else (true, { w with count := w.count + 1 })

/-- What was granted up to now, and the window in force. -/
structure Lawful (limit : Nat) (width : Int) (granted : List Int) (w : FixedWindow) (now : Int) :
    Prop where
  begun : w.start ≤ now
  past : ∀ t ∈ granted, t ≤ now ∧ t < w.start + width
  counted : countIn granted w.start (w.start + width) = w.count
  within : w.count ≤ limit
  recent : countIn granted (w.start - width + 1) w.start ≤ limit
  spans : ∀ a, countIn granted a (a + width) ≤ 2 * limit

variable {limit : Nat} {width now now' : Int} {w : FixedWindow} {granted : List Int}

theorem Lawful.fresh (limit : Nat) (width now : Int) : Lawful limit width [] ⟨now, 0⟩ now :=
  ⟨Int.le_refl _, nofun, rfl, Nat.zero_le _, Nat.zero_le _, fun _ => Nat.zero_le _⟩

theorem Lawful.later (h : Lawful limit width granted w now) (hle : now ≤ now') :
    Lawful limit width granted w now' :=
  { h with
    begun := Int.le_trans h.begun hle
    past := fun t ht => ⟨Int.le_trans (h.past t ht).1 hle, (h.past t ht).2⟩ }

theorem current_open (hwidth : 0 < width) (w : FixedWindow) (now : Int) :
    now < (current width w now).start + width := by
  unfold current
  split_ifs
  · exact Int.lt_add_of_pos_right now hwidth
  · omega

theorem Lawful.current (h : Lawful limit width granted w now) (hwidth : 0 < width) :
    Lawful limit width granted (current width w now) now := by
  unfold FixedWindow.current
  split_ifs with hpassed
  · refine ⟨Int.le_refl _, fun t ht => ⟨(h.past t ht).1, ?_⟩, ?_, Nat.zero_le _, ?_, h.spans⟩
    · have := (h.past t ht).1
      dsimp only
      omega
    · refine countIn_eq_zero fun t ht => ?_
      have := (h.past t ht).2
      dsimp only
      omega
    · -- what is recent of the new window lies in the one that passed
      refine Nat.le_trans (countIn_le fun t ht hfrom _ => ?_)
        (Nat.le_trans (Nat.le_of_eq h.counted) h.within)
      have := (h.past t ht).2
      dsimp only at hfrom
      omega
  · exact h

theorem Lawful.grant (h : Lawful limit width granted w now) (hopen : now < w.start + width)
    (hcount : w.count < limit) :
    Lawful limit width (now :: granted) { w with count := w.count + 1 } now := by
  have hbegun := h.begun
  refine ⟨hbegun, ?_, ?_, hcount, ?_, fun a => ?_⟩
  · rintro t (_ | ⟨_, ht⟩)
    · exact ⟨Int.le_refl _, hopen⟩
    · exact h.past t ht
  · rw [countIn_cons, h.counted, if_pos ⟨hbegun, hopen⟩]
  · rw [countIn_cons, if_neg (by dsimp only; omega)]
    exact h.recent
  · rw [countIn_cons]
    split_ifs with hin
    · -- a span up to now meets this window and the one before
      have hsplit := countIn_split granted a w.start (a + width)
      have hbefore : countIn granted a w.start ≤ countIn granted (w.start - width + 1) w.start :=
        countIn_le fun t _ _ _ => by omega
      have hafter : countIn granted w.start (a + width) ≤
          countIn granted w.start (w.start + width) :=
        countIn_le fun t ht hfrom _ => ⟨hfrom, (h.past t ht).2⟩
      have hcounted := h.counted
      have hrecent := h.recent
      omega
    · exact h.spans a

theorem Lawful.consume (h : Lawful limit width granted w now) (hwidth : 0 < width) :
    Lawful limit width (if (consume limit width w now).1 then now :: granted else granted)
      (consume limit width w now).2 now := by
  have hcurrent := h.current hwidth
  unfold FixedWindow.consume
  by_cases hfull : (FixedWindow.current width w now).count ≥ limit
  · simpa only [if_pos hfull, Bool.false_eq_true, if_false] using hcurrent
  · simpa only [if_neg hfull, if_true] using
      hcurrent.grant (current_open hwidth w now) (Nat.lt_of_not_le hfull)

/-- A refusal finds the limit reached in the span up to it. -/
theorem Lawful.refused (h : Lawful limit width granted w now) (hwidth : 0 < width)
    (hrefused : (FixedWindow.consume limit width w now).1 = false) :
    limit ≤ countIn granted (now - width + 1) (now + 1) := by
  have hcurrent := h.current hwidth
  have hopen := current_open hwidth w now
  have hfull : limit ≤ (FixedWindow.current width w now).count := by
    by_contra hfull
    simp [FixedWindow.consume, hfull] at hrefused
  refine Nat.le_trans hfull (Nat.le_trans (Nat.le_of_eq hcurrent.counted.symm) ?_)
  refine countIn_le fun t ht hfrom _ => ?_
  have := (hcurrent.past t ht).1
  omega

theorem consume_passed (hlimit : 0 < limit) (hpassed : w.start + width ≤ now) :
    (FixedWindow.consume limit width w now).1 = true := by
  have hopen : current width w now = ⟨now, 0⟩ := if_pos (by omega)
  simp [consume, hopen, Nat.not_le.2 hlimit]

end FixedWindow

end OpenClaw
