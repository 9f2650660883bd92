import Mathlib.Data.List.TakeWhile

/-!
# Grouping a list at its heads

A list is a leading part without heads followed by groups, each a head and the
elements up to the next head.
-/

namespace OpenClaw.Groups

variable {α : Type u} (isHead : α → Bool)

/-- The elements before the first head. -/
def lead : List α → List α := List.takeWhile fun a => !isHead a

/-- Each head with the elements up to the next one. -/
def groups : List α → List (α × List α)
  | [] => []
  | a :: l => if isHead a then (a, lead isHead l) :: groups l else groups l

def flatten (gs : List (α × List α)) : List α := gs.flatMap fun g => g.1 :: g.2

variable {isHead}

@[simp] theorem flatten_nil : flatten ([] : List (α × List α)) = [] := rfl

@[simp] theorem flatten_cons (g : α × List α) (gs : List (α × List α)) :
    flatten (g :: gs) = g.1 :: (g.2 ++ flatten gs) := by simp [flatten]

theorem not_isHead_of_mem_lead (h : a ∈ lead isHead l) : isHead a = false := by
  have := List.mem_takeWhile_imp h
  simpa using this

theorem lead_append_of_forall (h : ∀ a ∈ l, isHead a = false) :
    lead isHead (l ++ r) = l ++ lead isHead r := by
  induction l with
  | nil => rfl
  | cons a l ih =>
    obtain ⟨ha, hl⟩ := List.forall_mem_cons.mp h
    simp only [lead] at ih
    simp [lead, ha, ih hl]

theorem groups_append_of_forall (h : ∀ a ∈ l, isHead a = false) :
    groups isHead (l ++ r) = groups isHead r := by
  induction l with
  | nil => rfl
  | cons a l ih =>
    obtain ⟨ha, hl⟩ := List.forall_mem_cons.mp h
    simp [groups, ha, ih hl]

/-- Nothing is lost by grouping. -/
theorem lead_append_flatten (l : List α) : lead isHead l ++ flatten (groups isHead l) = l := by
  induction l with
  | nil => rfl
  | cons a l ih =>
    cases ha : isHead a with
    | true =>
      simp only [lead, flatten] at ih
      simp [lead, groups, ha, ih, flatten]
    | false =>
      simp only [lead] at ih
      simp [lead, groups, ha, ih]

/-- Groups whose bodies hold no head are the groups of what they flatten to. -/
def Proper (isHead : α → Bool) (gs : List (α × List α)) : Prop :=
  ∀ g ∈ gs, isHead g.1 = true ∧ ∀ a ∈ g.2, isHead a = false

theorem groups_proper (l : List α) : Proper isHead (groups isHead l) := by
  induction l with
  | nil => intro g hg; cases hg
  | cons a l ih =>
    cases ha : isHead a with
    | true =>
      intro g hg
      simp only [groups, ha, ↓reduceIte] at hg
      rcases List.mem_cons.mp hg with rfl | hg
      · exact ⟨ha, fun b hb => not_isHead_of_mem_lead hb⟩
      · exact ih g hg
    | false => simpa [groups, ha] using ih

theorem lead_flatten (h : Proper isHead gs) : lead isHead (flatten gs) = [] := by
  cases gs with
  | nil => rfl
  | cons g gs => simp [lead, (h g (by simp)).1]

theorem groups_flatten (h : Proper isHead gs) : groups isHead (flatten gs) = gs := by
  induction gs with
  | nil => rfl
  | cons g gs ih =>
    have hgs : Proper isHead gs := fun x hx => h x (List.mem_cons_of_mem _ hx)
    obtain ⟨hhead, hbody⟩ := h g (by simp)
    simp [groups, hhead, lead_append_of_forall hbody, groups_append_of_forall hbody,
      lead_flatten hgs, ih hgs]

theorem lead_lead_append (hl : ∀ a ∈ l, isHead a = false) (h : Proper isHead gs) :
    lead isHead (l ++ flatten gs) = l := by
  rw [lead_append_of_forall hl, lead_flatten h, List.append_nil]

theorem groups_lead_append (hl : ∀ a ∈ l, isHead a = false) (h : Proper isHead gs) :
    groups isHead (l ++ flatten gs) = gs := by
  rw [groups_append_of_forall hl, groups_flatten h]

theorem lead_append_head (ha : isHead a = true) : lead isHead (l ++ a :: r) = lead isHead l := by
  induction l with
  | nil => simp [lead, ha]
  | cons b l ih =>
    simp only [lead] at ih
    cases hb : isHead b with
    | true => simp [lead, hb]
    | false => simp [lead, hb, ih]

/-- A head ends the group before it and starts its own. -/
theorem groups_append_head (ha : isHead a = true) :
    groups isHead (l ++ a :: r) = groups isHead l ++ (a, lead isHead r) :: groups isHead r := by
  induction l with
  | nil => simp [groups, ha]
  | cons b l ih =>
    cases hb : isHead b with
    | true => simp [groups, hb, ih, lead_append_head ha]
    | false => simp [groups, hb, ih]

theorem head_mem_of_mem_groups (h : g ∈ groups isHead l) : g.1 ∈ l := by
  induction l with
  | nil => cases h
  | cons b l ih =>
    cases hb : isHead b with
    | true =>
      simp only [groups, hb, ↓reduceIte] at h
      rcases List.mem_cons.mp h with rfl | h
      · exact List.mem_cons_self
      · exact List.mem_cons_of_mem _ (ih h)
    | false => exact List.mem_cons_of_mem _ (ih (by simpa [groups, hb] using h))

theorem length_groups (l : List α) : (groups isHead l).length = l.countP isHead := by
  induction l with
  | nil => rfl
  | cons b l ih => cases hb : isHead b <;> simp [groups, hb, ih]

end OpenClaw.Groups
