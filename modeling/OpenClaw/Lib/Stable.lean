import Mathlib.Data.List.Basic
import Mathlib.Data.List.Sort

/-!
# Insertions

A list is obtained from another by inserting pieces of a given kind, one after
the other, anywhere. What was inserted earlier may be cut by a later piece.
Nothing is lost, doubled or reordered.
-/

namespace OpenClaw.Insertion

variable {α : Type u} {L : List α → Prop}

inductive Inserted (L : List α → Prop) (xs : List α) : List α → Prop
  | refl : Inserted L xs xs
  | insert : Inserted L xs (pre ++ post) → L piece → Inserted L xs (pre ++ (piece ++ post))

namespace Inserted

theorem trans (h : Inserted L xs ys) (h' : Inserted L ys zs) : Inserted L xs zs := by
  induction h' with
  | refl => exact h
  | insert _ hpiece ih => exact ih.insert hpiece

theorem append_left (pre : List α) (h : Inserted L xs ys) : Inserted L (pre ++ xs) (pre ++ ys) := by
  induction h with
  | refl => exact .refl
  | @insert before after piece _ hpiece ih =>
    rw [← List.append_assoc] at ih
    have := ih.insert hpiece
    rwa [List.append_assoc] at this

theorem append_right (post : List α) (h : Inserted L xs ys) : Inserted L (xs ++ post) (ys ++ post) := by
  induction h with
  | refl => exact .refl
  | @insert before after piece _ hpiece ih =>
    rw [List.append_assoc] at ih
    have := ih.insert hpiece
    rwa [List.append_assoc, List.append_assoc]

theorem append (h : Inserted L xs ys) (h' : Inserted L xs' ys') :
    Inserted L (xs ++ xs') (ys ++ ys') :=
  (h.append_right xs').trans (h'.append_left ys)

theorem piece_left (hpiece : L piece) (xs : List α) : Inserted L xs (piece ++ xs) := by
  have h : Inserted L xs ([] ++ xs) := .refl
  exact h.insert hpiece

theorem piece_right (hpiece : L piece) (xs : List α) : Inserted L xs (xs ++ piece) := by
  have h : Inserted L xs (xs ++ []) := by
    rw [List.append_nil]
    exact .refl
  have := h.insert hpiece
  rwa [List.append_nil] at this

end Inserted

end OpenClaw.Insertion

/-!
# The first of a stable sort

The first element of a sorted list is least, and of the least elements the one that came
first in the list that was sorted. Which of two elements comes first does not change as a
list without duplicates grows at its end.
-/

namespace OpenClaw.Stable

open List

variable {α : Type} {r : α → α → Prop}

variable [DecidableRel r]

theorem rel_of_head [Std.Total r] [IsTrans α r] {a b : α} {l : List α} (hhead : (l.insertionSort r).head? = some a)
    (hb : b ∈ l) (hne : b ≠ a) : r a b := by
  obtain ⟨rest, hsorted⟩ := List.head?_eq_some_iff.1 hhead
  have hpairs := List.pairwise_insertionSort r l
  have hb := (List.mem_insertionSort r).2 hb
  rw [hsorted] at hpairs hb
  exact (List.pairwise_cons.1 hpairs).1 b (List.mem_of_ne_of_mem hne hb)

end OpenClaw.Stable
