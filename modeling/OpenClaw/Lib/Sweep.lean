import Mathlib.Data.List.TakeWhile
import Mathlib.Order.Lattice
import Mathlib.Tactic.Common

/-!
# Sweeps with a stack

Intervals are opened at points, one after another, and closed at the point where they
stop, as long as they are on top of the stack. All of them are closed at the end exactly
when none stops before it starts and no two partially overlap.
-/

namespace OpenClaw.Sweep

variable {α : Type u} (stop : α → Nat) (opens : Nat → List α)

/-- The stack, its top first, without what stops at the point and is not covered. -/
def closeAt (pos : Nat) (stack : List α) : List α := stack.dropWhile (stop · = pos)

/-- The stack behind the points. -/
def sweep : List Nat → List α → List α
  | [], stack => stack
  | pos :: rest, stack => sweep rest ((opens pos).reverse ++ closeAt stop pos stack)

/-- No interval of the points stops where it starts or before, and none that starts inside
another goes beyond it. -/
structure Laminar (points : List Nat) : Prop where
  forward : ∀ p ∈ points, ∀ a ∈ opens p, p < stop a
  inside : ∀ p ∈ points, ∀ q ∈ points, p < q → ∀ a ∈ opens p, ∀ b ∈ opens q, q < stop a → stop b ≤ stop a

/-- What is on the stack stops behind the point, the top first. -/
structure Ordered (pos : Nat) (stack : List α) : Prop where
  beyond : ∀ a ∈ stack, pos < stop a
  sorted : stack.Pairwise fun a b => stop a ≤ stop b

/-- What starts at the points, inside an interval of the stack, does not go beyond it. -/
def Covers (points : List Nat) (stack : List α) : Prop :=
  ∀ a ∈ stack, ∀ q ∈ points, ∀ b ∈ opens q, q < stop a → stop b ≤ stop a

variable {stop opens}

theorem stop_of_taken {stack : List α} (h : a ∈ stack.takeWhile (stop · = pos)) : stop a = pos := by
  have hdecide := List.mem_takeWhile_imp h
  exact of_decide_eq_true hdecide

theorem mem_closeAt (h : a ∈ stack) (hstop : stop a ≠ pos) : a ∈ closeAt stop pos stack := by
  rw [← List.takeWhile_append_dropWhile (p := fun a => decide (stop a = pos)) (l := stack)] at h
  rcases List.mem_append.1 h with htaken | hleft
  · exact absurd (stop_of_taken htaken) hstop
  · exact hleft

theorem Ordered.nil (pos : Nat) : Ordered stop pos [] := ⟨by simp, .nil⟩

/-- What is in order behind a point was in order before it. -/
theorem Ordered.before (h : Ordered stop pos' (opened ++ closeAt stop pos' stack)) (hpos : pos < pos') :
    Ordered stop pos stack := by
  have hleft : Ordered stop pos' (closeAt stop pos' stack) :=
    ⟨fun a ha => h.beyond a (List.mem_append_right _ ha), (List.pairwise_append.1 h.sorted).2.1⟩
  have hclosed : ∀ a ∈ stack.takeWhile (stop · = pos'), stop a = pos' := fun a => stop_of_taken
  rw [← List.takeWhile_append_dropWhile (p := fun a => decide (stop a = pos')) (l := stack)]
  constructor
  · intro a ha
    rcases List.mem_append.1 ha with htaken | hrest
    · exact hclosed a htaken ▸ hpos
    · exact hpos.trans (hleft.beyond a hrest)
  · refine List.pairwise_append.2 ⟨?_, hleft.sorted, fun a ha b hb => ?_⟩
    · refine List.pairwise_of_forall_mem_list fun a ha b hb => ?_
      rw [hclosed a ha, hclosed b hb]
    · rw [hclosed a ha]
      exact (hleft.beyond b hb).le

theorem laminar_cons (hpoints : (pos :: rest).Pairwise (· < ·)) :
    Laminar stop opens (pos :: rest) ↔
      (∀ a ∈ opens pos, pos < stop a) ∧ Covers stop opens rest (opens pos) ∧ Laminar stop opens rest := by
  obtain ⟨hfirst, hrest⟩ := List.pairwise_cons.1 hpoints
  constructor
  · rintro ⟨hforward, hinside⟩
    refine ⟨hforward pos List.mem_cons_self, fun a ha q hq b hb => ?_, fun p hp => hforward p (List.mem_cons_of_mem _ hp), ?_⟩
    · exact hinside pos List.mem_cons_self q (List.mem_cons_of_mem _ hq) (hfirst q hq) a ha b hb
    · exact fun p hp q hq => hinside p (List.mem_cons_of_mem _ hp) q (List.mem_cons_of_mem _ hq)
  · rintro ⟨hhere, hcovers, hforward, hinside⟩
    constructor
    · intro p hp
      rcases List.mem_cons.1 hp with rfl | hp
      · exact hhere
      · exact hforward p hp
    · intro p hp q hq hlt a ha b hb
      rcases List.mem_cons.1 hq with rfl | hqrest
      · rcases List.mem_cons.1 hp with rfl | hprest
        · exact absurd hlt (Nat.lt_irrefl _)
        · exact absurd (hfirst p hprest) (Nat.not_lt.2 hlt.le)
      · rcases List.mem_cons.1 hp with rfl | hprest
        · exact hcovers a ha q hqrest b hb
        · exact hinside p hprest q hqrest hlt a ha b hb

/-- A sweep that ends with an empty stack met only what is in order. -/
theorem ordered_of_sweep (hpoints : points.Pairwise (· < ·)) (hpos : ∀ p ∈ points, pos < p)
    (h : sweep stop opens points stack = []) :
    Ordered stop pos stack ∧ Covers stop opens points stack ∧ Laminar stop opens points := by
  induction points generalizing pos stack with
  | nil =>
    obtain rfl : stack = [] := h
    exact ⟨.nil pos, by simp [Covers], by simp, by simp⟩
  | cons p rest ih =>
    obtain ⟨hfirst, hrest⟩ := List.pairwise_cons.1 hpoints
    obtain ⟨hordered, hcovers, hlaminar⟩ := ih hrest hfirst h
    have hopened : ∀ a ∈ opens p, a ∈ (opens p).reverse ++ closeAt stop p stack := fun a ha =>
      List.mem_append_left _ (List.mem_reverse.2 ha)
    refine ⟨hordered.before (hpos p List.mem_cons_self), fun a ha q hq b hb hlt => ?_, ?_⟩
    · have hbeyond : stop a ≠ p := by
        rintro rfl
        rcases List.mem_cons.1 hq with rfl | hmem
        · exact Nat.lt_irrefl _ hlt
        · exact Nat.lt_asymm hlt (hfirst q hmem)
      have hleft := mem_closeAt ha hbeyond
      rcases List.mem_cons.1 hq with rfl | hq
      · exact (List.pairwise_append.1 hordered.sorted).2.2 b (List.mem_reverse.2 hb) a hleft
      · exact hcovers a (List.mem_append_right _ hleft) q hq b hb hlt
    · exact (laminar_cons hpoints).2 ⟨fun a ha => hordered.beyond a (hopened a ha),
        fun a ha => hcovers a (hopened a ha), hlaminar⟩

/-- At its stop an interval is closed, when the stack is in order. -/
theorem Ordered.closeAt (h : Ordered stop pos stack) (hstops : ∀ a ∈ stack, pos' ≤ stop a) :
    Ordered stop pos' (closeAt stop pos' stack) := by
  induction stack with
  | nil => exact .nil pos'
  | cons a stack ih =>
    obtain ⟨hfirst, hrest⟩ := List.pairwise_cons.1 h.sorted
    have htail : Ordered stop pos stack := ⟨fun b hb => h.beyond b (List.mem_cons_of_mem _ hb), hrest⟩
    unfold Sweep.closeAt
    rw [List.dropWhile_cons]
    split
    · exact ih htail fun b hb => hstops b (List.mem_cons_of_mem _ hb)
    case isFalse hstop =>
      have hlt : pos' < stop a :=
        Nat.lt_of_le_of_ne (hstops a List.mem_cons_self) fun heq => hstop (decide_eq_true heq.symm)
      refine ⟨fun b hb => ?_, h.sorted⟩
      rcases List.mem_cons.1 hb with rfl | hb
      · exact hlt
      · exact hlt.trans_le (hfirst b hb)

theorem sweep_of_ordered (hpoints : points.Pairwise (· < ·)) (hpos : ∀ p ∈ points, pos < p)
    (hdescending : ∀ p ∈ points, (opens p).Pairwise fun a b => stop b ≤ stop a)
    (hstops : ∀ a, a ∈ stack ∨ (∃ p ∈ points, a ∈ opens p ∧ p < stop a) → stop a ∈ points)
    (hordered : Ordered stop pos stack) (hcovers : Covers stop opens points stack)
    (hlaminar : Laminar stop opens points) : sweep stop opens points stack = [] := by
  induction points generalizing pos stack with
  | nil =>
    refine List.eq_nil_iff_forall_not_mem.2 fun a ha => ?_
    exact absurd (hstops a (.inl ha)) List.not_mem_nil
  | cons p rest ih =>
    obtain ⟨hfirst, hrest⟩ := List.pairwise_cons.1 hpoints
    obtain ⟨hhere, hcoversHere, hlaminar⟩ := (laminar_cons hpoints).1 hlaminar
    have hle : ∀ a ∈ stack, p ≤ stop a := by
      intro a ha
      rcases List.mem_cons.1 (hstops a (.inl ha)) with heq | hmem
      · exact heq.ge
      · exact (hfirst _ hmem).le
    have hleft := hordered.closeAt hle
    have hsub : ∀ a ∈ closeAt stop p stack, a ∈ stack := fun a ha => (List.dropWhile_suffix _).subset ha
    have hnext : Ordered stop p ((opens p).reverse ++ closeAt stop p stack) := by
      constructor
      · intro a ha
        rcases List.mem_append.1 ha with hopened | ha
        · exact hhere a (List.mem_reverse.1 hopened)
        · exact hleft.beyond a ha
      · refine List.pairwise_append.2 ⟨List.pairwise_reverse.2 (hdescending p List.mem_cons_self), hleft.sorted, ?_⟩
        intro b hb a ha
        exact hcovers a (hsub a ha) p List.mem_cons_self b (List.mem_reverse.1 hb) (hleft.beyond a ha)
    refine ih hrest hfirst (fun q hq => hdescending q (List.mem_cons_of_mem _ hq)) ?_ hnext ?_ hlaminar
    · rintro a (ha | ⟨q, hq, ha, hlt⟩)
      · have hbeyond := hnext.beyond a ha
        have hmem : stop a ∈ p :: rest := by
          rcases List.mem_append.1 ha with hopened | ha
          · exact hstops a (.inr ⟨p, List.mem_cons_self, List.mem_reverse.1 hopened, hbeyond⟩)
          · exact hstops a (.inl (hsub a ha))
        exact (List.mem_cons.1 hmem).resolve_left hbeyond.ne'
      · have hmem := hstops a (.inr ⟨q, List.mem_cons_of_mem _ hq, ha, hlt⟩)
        refine (List.mem_cons.1 hmem).resolve_left fun heq => ?_
        exact Nat.lt_asymm (hfirst q hq) (heq ▸ hlt)
    · intro a ha q hq b hb
      rcases List.mem_append.1 ha with hopened | ha
      · exact hcoversHere a (List.mem_reverse.1 hopened) q hq b hb
      · exact hcovers a (hsub a ha) q (List.mem_cons_of_mem _ hq) b hb

/-- A sweep over all points of its intervals closes them all exactly when they are laminar. -/
theorem sweep_eq_nil_iff (hpoints : points.Pairwise (· < ·))
    (hdescending : ∀ p ∈ points, (opens p).Pairwise fun a b => stop b ≤ stop a)
    (hstops : ∀ p ∈ points, ∀ a ∈ opens p, stop a ∈ points) :
    sweep stop opens points [] = [] ↔ Laminar stop opens points := by
  cases points with
  | nil => exact iff_of_true rfl ⟨by simp, by simp⟩
  | cons pos rest =>
    obtain ⟨hfirst, hrest⟩ := List.pairwise_cons.1 hpoints
    have hstep : sweep stop opens (pos :: rest) [] = sweep stop opens rest (opens pos).reverse := by
      rw [sweep, Sweep.closeAt, List.dropWhile_nil, List.append_nil]
    rw [hstep, laminar_cons hpoints]
    constructor
    · intro h
      obtain ⟨hordered, hcovers, hlaminar⟩ := ordered_of_sweep hrest hfirst h
      exact ⟨fun a ha => hordered.beyond a (List.mem_reverse.2 ha),
        fun a ha => hcovers a (List.mem_reverse.2 ha), hlaminar⟩
    · rintro ⟨hforward, hcovers, hlaminar⟩
      refine sweep_of_ordered hrest hfirst (fun q hq => hdescending q (List.mem_cons_of_mem _ hq)) ?_
        ⟨fun a ha => hforward a (List.mem_reverse.1 ha), List.pairwise_reverse.2 (hdescending pos List.mem_cons_self)⟩
        (fun a ha => hcovers a (List.mem_reverse.1 ha)) hlaminar
      rintro a (ha | ⟨q, hq, ha, hlt⟩)
      · have ha := List.mem_reverse.1 ha
        exact (List.mem_cons.1 (hstops pos List.mem_cons_self a ha)).resolve_left (hforward a ha).ne'
      · refine (List.mem_cons.1 (hstops q (List.mem_cons_of_mem _ hq) a ha)).resolve_left fun heq => ?_
        exact Nat.lt_asymm (hfirst q hq) (heq ▸ hlt)

end OpenClaw.Sweep
