import Mathlib.Data.List.Nodup

/-!
# Ordered sets

Sets as lists without repetition, in the order in which their members were added.
-/

namespace OpenClaw.OrderedSet

variable {α : Type u} [DecidableEq α] {a b : α} {set : List α}

def add (set : List α) (a : α) : List α := if a ∈ set then set else set ++ [a]

def ofList (l : List α) : List α := l.foldl add []

@[simp] theorem mem_add : b ∈ add set a ↔ b ∈ set ∨ b = a := by
  unfold add
  split
  case isTrue hmem => exact ⟨.inl, fun h => h.elim id fun heq => heq ▸ hmem⟩
  case isFalse => rw [List.mem_append, List.mem_singleton]

theorem nodup_add (h : set.Nodup) (a : α) : (add set a).Nodup := by
  unfold add
  split
  case isTrue => exact h
  case isFalse hmem => exact h.append (List.nodup_singleton a) (by simpa using hmem)

theorem mem_foldl_add (set l : List α) : b ∈ l.foldl add set ↔ b ∈ set ∨ b ∈ l := by
  induction l generalizing set with
  | nil => simp
  | cons a l ih => rw [List.foldl_cons, ih, mem_add, List.mem_cons, or_assoc]

theorem nodup_foldl_add (h : set.Nodup) (l : List α) : (l.foldl add set).Nodup := by
  induction l generalizing set with
  | nil => exact h
  | cons a l ih => exact ih (nodup_add h a)

@[simp] theorem mem_ofList (l : List α) : a ∈ ofList l ↔ a ∈ l := by simp [ofList, mem_foldl_add]

theorem nodup_ofList (l : List α) : (ofList l).Nodup := nodup_foldl_add List.nodup_nil l

end OpenClaw.OrderedSet
