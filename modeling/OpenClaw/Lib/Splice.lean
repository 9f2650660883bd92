import Mathlib.Data.List.Basic
import Mathlib.Order.Basic

/-!
# Splices

Stretches of a list replaced by other lists. Replacing them back to front keeps
their positions good, as long as none of them reaches into the next.
-/

namespace OpenClaw.Splice

/-- `len` entries from `start` on, and what takes their place. -/
structure Region (α : Type u) where
  start : Nat
  len : Nat
  new : List α

def Region.stop (r : Region α) : Nat := r.start + r.len

def Region.apply (r : Region α) (xs : List α) : List α := xs.take r.start ++ r.new ++ xs.drop r.stop

/-- The regions replaced, the last one first. -/
def spliceAll (regions : List (Region α)) (xs : List α) : List α := regions.foldr Region.apply xs

/-- No region reaches into a later one. -/
def Apart (regions : List (Region α)) : Prop := regions.Pairwise fun r r' => r.stop ≤ r'.start

/-- What is left of a list from position `pos` on becomes `out`: each region its new
entries, everything between the regions as it is. -/
inductive Replaced : Nat → List α → List (Region α) → List α → Prop
  | nil : Replaced pos rest [] rest
  | cons : r.start = pos + gap.length → r.len = old.length → Replaced r.stop rest regions out →
      Replaced pos (gap ++ (old ++ rest)) (r :: regions) (gap ++ (r.new ++ out))

variable {α : Type u} {xs rest out : List α} {regions : List (Region α)} {pos : Nat}

namespace Replaced

theorem append (h : Replaced pos rest regions out) (ys : List α) :
    Replaced pos (rest ++ ys) regions (out ++ ys) := by
  induction h with
  | nil => exact .nil
  | cons hstart hlen _ ih =>
    simp only [List.append_assoc]
    exact .cons hstart hlen ih

theorem spliceAll_eq (h : Replaced pos rest regions out) (done : List α) (hdone : done.length = pos) :
    spliceAll regions (done ++ rest) = done ++ out := by
  induction h generalizing done with
  | nil => rfl
  | @cons pos rest regions out gap old r hstart hlen _ ih =>
    have hstop : r.stop = (done ++ (gap ++ old)).length := by
      simp only [List.length_append, Region.stop]
      omega
    have hlead : r.start = (done ++ gap).length := by
      rw [List.length_append]
      omega
    have htail := ih (done ++ (gap ++ old)) hstop.symm
    simp only [List.append_assoc] at htail
    show r.apply (spliceAll regions _) = _
    rw [htail, Region.apply]
    have htake : (done ++ (gap ++ (old ++ out))).take r.start = done ++ gap := by
      rw [hlead, ← List.append_assoc, List.take_left]
    have hdrop : (done ++ (gap ++ (old ++ out))).drop r.stop = out := by
      have hsplit : done ++ (gap ++ (old ++ out)) = (done ++ (gap ++ old)) ++ out := by
        simp only [List.append_assoc]
      rw [hstop, hsplit, List.drop_left]
    rw [htake, hdrop]
    simp only [List.append_assoc]

theorem le_start (h : Replaced pos rest regions out) : ∀ r ∈ regions, pos ≤ r.start := by
  induction h with
  | nil => simp
  | @cons pos rest regions out gap old r hstart hlen _ ih =>
    intro r' hr'
    cases hr' with
    | head => omega
    | tail _ hr' =>
      have hle := ih r' hr'
      rw [Region.stop] at hle
      omega

theorem apart (h : Replaced pos rest regions out) : Apart regions := by
  induction h with
  | nil => exact .nil
  | cons _ _ hrest ih => exact .cons hrest.le_start ih

end Replaced

/-- Regions that lie apart can be replaced. -/
theorem exists_replaced (hapart : Apart regions) (hstart : ∀ r ∈ regions, pos ≤ r.start)
    (hstop : ∀ r ∈ regions, r.stop ≤ pos + rest.length) : ∃ out, Replaced pos rest regions out := by
  induction regions generalizing pos rest with
  | nil => exact ⟨rest, .nil⟩
  | cons r regions ih =>
    obtain ⟨hnext, hapart⟩ := List.pairwise_cons.1 hapart
    have hfrom := hstart r List.mem_cons_self
    have hto := hstop r List.mem_cons_self
    have hle : r.start ≤ r.stop := Nat.le_add_right ..
    have hlater : ∀ r' ∈ regions, r'.stop ≤ r.stop + (rest.drop (r.stop - pos)).length := by
      intro r' hr'
      have := hstop r' (List.mem_cons_of_mem _ hr')
      rw [List.length_drop]
      omega
    obtain ⟨out, hout⟩ := ih hapart hnext hlater
    have hsplit : rest = rest.take (r.start - pos) ++
        ((rest.drop (r.start - pos)).take r.len ++ rest.drop (r.stop - pos)) := by
      have hdrop : rest.drop (r.stop - pos) = (rest.drop (r.start - pos)).drop r.len := by
        rw [List.drop_drop]
        congr 1
        rw [Region.stop]
        omega
      rw [hdrop, List.take_append_drop, List.take_append_drop]
    rw [hsplit]
    refine ⟨_, .cons ?_ ?_ hout⟩
    · rw [List.length_take]
      omega
    · rw [List.length_take, List.length_drop]
      rw [Region.stop] at hto
      omega

-- ---
-- The last entry
-- ---

/-- The last entry once the regions, the last one first, are replaced: the list's own
last entry, unless a region reaches the end. -/
def lastOf (xs : List α) : List (Region α) → Option α
  | [] => xs.getLast?
  | r :: regions =>
    if r.stop < xs.length then xs.getLast?
    else r.new.getLast?.or (lastOf (xs.take r.start) regions)

theorem spliceAll_append (hapart : Apart regions) (hstop : ∀ r ∈ regions, r.stop ≤ xs.length)
    (ys : List α) : spliceAll regions (xs ++ ys) = spliceAll regions xs ++ ys := by
  have hbounds : ∀ r ∈ regions, r.stop ≤ 0 + xs.length := by simpa using hstop
  obtain ⟨out, hout⟩ := exists_replaced hapart (fun _ _ => Nat.zero_le _) hbounds
  have hshort : spliceAll regions xs = out := hout.spliceAll_eq [] rfl
  have hlong : spliceAll regions (xs ++ ys) = out ++ ys := (hout.append ys).spliceAll_eq [] rfl
  rw [hshort, hlong]

theorem getLast?_spliceAll (hapart : Apart regions.reverse)
    (hstop : ∀ r ∈ regions, r.stop ≤ xs.length) :
    (spliceAll regions.reverse xs).getLast? = lastOf xs regions := by
  induction regions generalizing xs with
  | nil => rfl
  | cons r regions ih =>
    rw [List.reverse_cons, Apart, List.pairwise_append] at hapart
    obtain ⟨hearlier, -, hbefore⟩ := hapart
    have hto := hstop r List.mem_cons_self
    have hle : r.start ≤ r.stop := Nat.le_add_right ..
    have hlead : ∀ r' ∈ regions, r'.stop ≤ (xs.take r.start).length := by
      intro r' hr'
      rw [List.length_take, Nat.min_eq_left (Nat.le_trans hle hto)]
      exact hbefore r' (List.mem_reverse.2 hr') r List.mem_cons_self
    have hsplice : spliceAll (r :: regions).reverse xs =
        spliceAll regions.reverse (xs.take r.start) ++ (r.new ++ xs.drop r.stop) := by
      rw [List.reverse_cons, spliceAll, List.foldr_append]
      show spliceAll regions.reverse (xs.take r.start ++ r.new ++ xs.drop r.stop) = _
      rw [List.append_assoc, spliceAll_append hearlier (by simpa using hlead)]
    rw [hsplice, lastOf, List.getLast?_append, List.getLast?_append, ih hearlier hlead]
    split
    · rename_i hshort
      rw [List.getLast?_drop, if_neg (Nat.not_le.2 hshort), Option.or_assoc]
      obtain ⟨last, hlast⟩ := Option.isSome_iff_exists.1
        (List.getLast?_isSome.2 (List.ne_nil_of_length_pos (Nat.zero_lt_of_lt hshort)))
      rw [hlast]
      rfl
    · rename_i hreach
      rw [List.drop_eq_nil_of_le (Nat.not_lt.1 hreach)]
      rfl

end OpenClaw.Splice
