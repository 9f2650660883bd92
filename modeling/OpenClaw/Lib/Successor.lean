import Mathlib.Order.Interval.Finset.Defs
import Mathlib.Algebra.Order.Group.Basic
import Mathlib.Data.Finset.Card
import Mathlib.Order.Bounds.Basic

/-!
# The next point of a set

What it means to be the next point of a set, or the previous one, and that asking for the
next again and again enumerates every point after the start, where only finitely many lie
between any two.
-/

namespace OpenClaw.Successor

variable {α : Type}

section Order

variable [LinearOrder α] {S : Set α} {t : α}

/-- The least point that is later. -/
def IsNext (S : Set α) (t : α) : Option α → Prop
  | none => ∀ s ∈ S, s ≤ t
  | some next => IsLeast {s ∈ S | t < s} next

/-- The greatest point that is earlier. -/
def IsPrevious (S : Set α) (t : α) : Option α → Prop
  | none => ∀ s ∈ S, t ≤ s
  | some previous => IsGreatest {s ∈ S | s < t} previous

theorem isNext_empty : IsNext ∅ t none :=
  fun _ hs => absurd hs (Set.notMem_empty _)

theorem isPrevious_empty : IsPrevious ∅ t none :=
  fun _ hs => absurd hs (Set.notMem_empty _)

/-- What comes from asking again and again, after the first time. -/
def iterate (next : α → Option α) (start : α) : Nat → Option α
  | 0 => next start
  | n + 1 => (iterate next start n).bind next

/-- Each time gives the next point from the start on. -/
def Follows (S : Set α) (start : α) (next : α → Option α) : Prop :=
  ∀ t, start ≤ t → IsNext S t (next t)

variable {start : α} {next : α → Option α}

theorem Follows.mem (h : Follows S start next) :
    ∀ n t, iterate next start n = some t → t ∈ S ∧ start < t := by
  intro n
  induction n with
  | zero =>
    intro t ht
    have hnext := h start le_rfl
    rw [show next start = some t from ht] at hnext
    exact hnext.1
  | succ n ih =>
    intro t ht
    obtain ⟨u, hu, ht⟩ := Option.bind_eq_some_iff.1 ht
    have hnext := h u (ih u hu).2.le
    rw [ht] at hnext
    exact ⟨hnext.1.1, (ih u hu).2.trans hnext.1.2⟩

/-- The points come in order, and so none twice. -/
theorem Follows.lt (h : Follows S start next) {m : Nat} :
    ∀ n, m < n → ∀ a b, iterate next start m = some a → iterate next start n = some b → a < b := by
  intro n
  induction n with
  | zero => intro hm; exact absurd hm (Nat.not_lt_zero _)
  | succ n ih =>
    intro hm a b ha hb
    obtain ⟨u, hu, hb⟩ := Option.bind_eq_some_iff.1 hb
    have hnext := h u (h.mem n u hu).2.le
    rw [hb] at hnext
    rcases Nat.lt_succ_iff_lt_or_eq.1 hm with hlt | rfl
    · exact (ih hlt a u ha hu).trans hnext.1.2
    · rw [hu] at ha
      cases ha
      exact hnext.1.2

theorem Follows.injective (h : Follows S start next) {m n : Nat} {t : α}
    (hm : iterate next start m = some t) (hn : iterate next start n = some t) : m = n := by
  rcases Nat.lt_trichotomy m n with hlt | heq | hlt
  · exact absurd (h.lt n hlt t t hm hn) (lt_irrefl t)
  · exact heq
  · exact absurd (h.lt m hlt t t hn hm) (lt_irrefl t)

/-- No point is left out: before it there is always one that comes next. -/
theorem Follows.exists_iterate [LocallyFiniteOrder α] (h : Follows S start next) {t : α}
    (ht : t ∈ S) (hstart : start < t) : ∃ n, iterate next start n = some t := by
  by_contra hnone
  -- else every one of the points that come is earlier
  have hbefore : ∀ n, ∃ u, iterate next start n = some u ∧ u < t := by
    have hstep : ∀ u, start ≤ u → u < t → (∃ v, next u = some v ∧ v ≤ t) := by
      intro u hu hut
      have hnext := h u hu
      cases hv : next u with
      | none => rw [hv] at hnext; exact absurd (hnext t ht) (not_le.2 hut)
      | some v => rw [hv] at hnext; exact ⟨v, rfl, hnext.2 ⟨ht, hut⟩⟩
    intro n
    induction n with
    | zero =>
      obtain ⟨v, hv, hle⟩ := hstep start le_rfl hstart
      exact ⟨v, hv, lt_of_le_of_ne hle fun heq => hnone ⟨0, heq ▸ hv⟩⟩
    | succ n ih =>
      obtain ⟨u, hu, hut⟩ := ih
      obtain ⟨v, hv, hle⟩ := hstep u (h.mem n u hu).2.le hut
      have hv' : iterate next start (n + 1) = some v := by rw [iterate, hu, Option.bind_some, hv]
      exact ⟨v, hv', lt_of_le_of_ne hle fun heq => hnone ⟨n + 1, heq ▸ hv'⟩⟩
  choose point hpoint hlt using hbefore
  have hinjective : Function.Injective point := fun m n hmn =>
    h.injective (hpoint m) (hmn ▸ hpoint n)
  -- that is infinitely many in a finite interval
  have hmem : ∀ n, point n ∈ Finset.Ioc start t := fun n =>
    Finset.mem_Ioc.2 ⟨(h.mem n _ (hpoint n)).2, (hlt n).le⟩
  exact Set.infinite_range_of_injective hinjective
    ((Finset.finite_toSet _).subset (Set.range_subset_iff.2 hmem))

end Order

section Shift

variable [AddCommGroup α] [LinearOrder α] [IsOrderedAddMonoid α] {S : Set α} {t c : α}

/-- Every point later by the same time. -/
def shift (c : α) (S : Set α) : Set α :=
  {t | t - c ∈ S}

theorem IsNext.shift {next : Option α} (h : IsNext S (t - c) next) :
    IsNext (shift c S) t (next.map (· + c)) := by
  cases next with
  | none => exact fun s hs => (sub_le_sub_iff_right c).1 (h _ hs)
  | some next =>
    refine ⟨⟨by simpa [Successor.shift] using h.1.1, sub_lt_iff_lt_add.1 h.1.2⟩, ?_⟩
    rintro s ⟨hs, hlater⟩
    exact le_sub_iff_add_le.1 (h.2 ⟨hs, (sub_lt_sub_iff_right c).2 hlater⟩)

theorem IsPrevious.shift {previous : Option α} (h : IsPrevious S (t - c) previous) :
    IsPrevious (shift c S) t (previous.map (· + c)) := by
  cases previous with
  | none => exact fun s hs => (sub_le_sub_iff_right c).1 (h _ hs)
  | some previous =>
    refine ⟨⟨by simpa [Successor.shift] using h.1.1, lt_sub_iff_add_lt.1 h.1.2⟩, ?_⟩
    rintro s ⟨hs, hearlier⟩
    exact sub_le_iff_le_add.1 (h.2 ⟨hs, (sub_lt_sub_iff_right c).2 hearlier⟩)

end Shift

end OpenClaw.Successor
