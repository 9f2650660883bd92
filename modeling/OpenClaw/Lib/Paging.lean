import Mathlib.Data.List.DropRight
import Mathlib.Data.List.Perm.Basic
import Mathlib.Order.Bounds.Basic

/-!
# Sliding windows

A log that keeps its last `n` entries is `List.rtake n` of everything pushed.
-/

namespace OpenClaw.Window

theorem reverse_rtake (l : List α) (n : Nat) : (l.rtake n).reverse = l.reverse.take n := by
  rw [List.rtake_eq_reverse_take_reverse, List.reverse_reverse]

theorem length_rtake (l : List α) (n : Nat) : (l.rtake n).length = min n l.length := by
  rw [← List.length_reverse, reverse_rtake, List.length_take, List.length_reverse]

/-- Pushing onto a window and trimming it is trimming the whole log. -/
theorem rtake_push (l : List α) (n : Nat) (x : α) :
    (l.rtake n ++ [x]).rtake n = (l ++ [x]).rtake n := by
  apply List.reverse_injective
  simp only [reverse_rtake, List.reverse_append, List.reverse_singleton, List.singleton_append]
  cases n with
  | zero => simp
  | succ n => simp [List.take_take]

/-- A window no longer than the newest part of a log shows only that part. -/
theorem rtake_append_of_le (l r : List α) (h : n ≤ r.length) : (l ++ r).rtake n = r.rtake n := by
  apply List.reverse_injective
  simp only [reverse_rtake, List.reverse_append]
  exact List.take_append_of_le_length (by simpa using h)

theorem rtake_of_length_le {l : List α} (h : l.length ≤ n) : l.rtake n = l := by
  rw [List.rtake, Nat.sub_eq_zero_of_le h, List.drop_zero]

/-- Where all that follows an element that passes passes too, a window of what passes is what
passes in the window. -/
theorem filter_rtake {p : α → Bool} {l : List α} (h : l.Pairwise fun a b => p a = true → p b = true)
    (n : Nat) : (l.rtake n).filter p = (l.filter p).rtake n := by
  induction l with
  | nil => simp
  | cons a l ih =>
    obtain ⟨hhead, htail⟩ := List.pairwise_cons.1 h
    by_cases ha : p a = true
    · have hall : ∀ b ∈ a :: l, p b = true := List.forall_mem_cons.2 ⟨ha, fun b hb => hhead b hb ha⟩
      rw [List.filter_eq_self.2 hall]
      exact List.filter_eq_self.2 fun b hb => hall b (List.mem_of_mem_drop hb)
    · rw [List.filter_cons_of_neg ha]
      by_cases hn : n ≤ l.length
      · rw [← List.singleton_append, rtake_append_of_le _ _ hn, ih htail]
      · have hle := List.length_filter_le p l
        rw [rtake_of_length_le (by simp; omega), rtake_of_length_le (by omega),
          List.filter_cons_of_neg ha]

theorem mem_of_mem_rtake (l : List α) (h : x ∈ l.rtake n) : x ∈ l := List.mem_of_mem_drop h

end OpenClaw.Window

/-!
# Reading a list page by page

A reader of pages gives the items from an offset on, and the offset to go on from if there
are more. The pages of one list, one after the other, are the list. The first items of a
list that is sorted from the newest to the oldest are the newest.
-/

namespace OpenClaw.Paging

variable {α : Type}

/-- The items of the pages from an offset to the last. -/
inductive Collects (read : Nat → Option (List α × Option Nat)) : Nat → List α → Prop
  | last {offset : Nat} {items : List α} (hread : read offset = some (items, none)) :
    Collects read offset items
  | more {offset next : Nat} {items rest : List α} (hread : read offset = some (items, some next))
      (hrest : Collects read next rest) : Collects read offset (items ++ rest)

theorem Collects.unique {read : Nat → Option (List α × Option Nat)} {offset : Nat}
    {items other : List α} (h : Collects read offset items) (hother : Collects read offset other) :
    items = other := by
  induction h generalizing other with
  | last hread =>
    cases hother with
    | last hread' =>
      rw [hread] at hread'
      cases hread'
      rfl
    | more hread' =>
      rw [hread] at hread'
      cases hread'
  | more hread _ ih =>
    cases hother with
    | last hread' =>
      rw [hread] at hread'
      cases hread'
    | more hread' hrest =>
      rw [hread] at hread'
      cases hread'
      rw [ih hrest]

/-- The page of a list at an offset, and where the next one starts. -/
def pageAt (l : List α) (limit offset : Nat) : List α × Option Nat :=
  ((l.drop offset).take limit, if offset + limit < l.length then some (offset + limit) else none)

theorem collects_drop {read : Nat → Option (List α × Option Nat)} {l : List α} {limit : Nat}
    (hlimit : 0 < limit) (hread : ∀ offset ≤ l.length, read offset = some (pageAt l limit offset))
    {offset : Nat} (hoffset : offset ≤ l.length) : Collects read offset (l.drop offset) := by
  induction hleft : l.length - offset using Nat.strongRecOn generalizing offset with
  | ind left ih =>
    by_cases hmore : offset + limit < l.length
    · rw [← List.take_append_drop limit (l.drop offset), List.drop_drop]
      refine .more ?_ (ih _ (by omega) (Nat.le_of_lt hmore) rfl)
      rw [hread offset hoffset, pageAt, if_pos hmore]
    · have htake : (l.drop offset).take limit = l.drop offset :=
        List.take_of_length_le (by rw [List.length_drop]; omega)
      refine .last ?_
      rw [hread offset hoffset, pageAt, if_neg hmore, htake]

/-- The pages from the start on are the list. -/
theorem collects_iff {read : Nat → Option (List α × Option Nat)} {l : List α} {limit : Nat}
    (hlimit : 0 < limit) (hread : ∀ offset ≤ l.length, read offset = some (pageAt l limit offset))
    (items : List α) : Collects read 0 items ↔ items = l := by
  have hall : Collects read 0 l := collects_drop hlimit hread (Nat.zero_le _)
  constructor
  · exact fun h => h.unique hall
  · rintro rfl
    exact hall

-- ---
-- The newest items
-- ---

variable {β : Type} [LinearOrder β]

/-- So many items as asked for, or all of them: none of the others is newer, and they come
from the oldest to the newest. -/
structure Newest (time : α → β) (count : Nat) (all items : List α) : Prop where
  length : items.length = min count all.length
  sorted : items.Pairwise (time · ≤ time ·)
  newest : ∃ older, (older ++ items).Perm all ∧ ∀ o ∈ older, ∀ i ∈ items, time o ≤ time i

theorem newest_of_sorted {time : α → β} {all sorted : List α} (hperm : sorted.Perm all)
    (hsorted : sorted.Pairwise (fun a b => time b ≤ time a)) (count : Nat) :
    Newest time count all (sorted.take count).reverse where
  length := by rw [List.length_reverse, List.length_take, hperm.length_eq]
  sorted := List.pairwise_reverse.2 (hsorted.sublist (List.take_sublist _ _))
  newest := by
    refine ⟨sorted.drop count, ?_, fun o ho i hi => ?_⟩
    · refine List.Perm.trans ?_ hperm
      refine (List.perm_append_comm.trans ?_)
      have hreverse := (List.reverse_perm (sorted.take count)).append_right (sorted.drop count)
      rwa [List.take_append_drop] at hreverse
    · rw [← List.take_append_drop count sorted, List.pairwise_append] at hsorted
      exact hsorted.2.2 i (List.mem_reverse.1 hi) o ho

end OpenClaw.Paging
