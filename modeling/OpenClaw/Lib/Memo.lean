import OpenClaw.Lib.Members

/-!
# Memo tables

A table that only holds what may be held under each key, whatever is set, dropped
or cleared in it.
-/

namespace OpenClaw.Memo

open Members

variable {k α : Type} [DecidableEq k] [BEq k] [LawfulBEq k] {P Q : k → α → Prop} {table : List (k × α)}

/-- What the table answers under a key may be held there. -/
def Sound (P : k → α → Prop) (table : List (k × α)) : Prop :=
  ∀ key value, table.lookup key = some value → P key value

omit [DecidableEq k] [LawfulBEq k] in
theorem Sound.nil : Sound P ([] : List (k × α)) := fun _ _ h => nomatch h

omit [DecidableEq k] [LawfulBEq k] in
theorem Sound.imp (h : Sound P table) (himp : ∀ key value, P key value → Q key value) : Sound Q table :=
  fun key value hlookup => himp key value (h key value hlookup)

theorem Sound.assign (h : Sound P table) (hvalue : P key value) : Sound P (assign table key value) := by
  intro key' value' hlookup
  rw [lookup_assign] at hlookup
  split at hlookup
  case isTrue hkey =>
    cases hlookup
    exact hkey ▸ hvalue
  case isFalse => exact h key' value' hlookup

theorem Sound.remove (h : Sound P table) (key : k) : Sound P (remove table key) := by
  intro key' value' hlookup
  rw [lookup_remove] at hlookup
  split at hlookup
  · cases hlookup
  · exact h key' value' hlookup

/-- A table that is cleared before it grows over its bound. -/
def assignBounded (bound : Nat) (table : List (k × α)) (key : k) (value : α) : List (k × α) :=
  let table := Members.assign table key value
  if bound < table.length then [(key, value)] else table

theorem Sound.assignBounded (h : Sound P table) (hvalue : P key value) (bound : Nat) :
    Sound P (assignBounded bound table key value) := by
  unfold Memo.assignBounded
  dsimp only
  split
  · exact (Sound.nil (k := k)).assign hvalue
  · exact h.assign hvalue

end OpenClaw.Memo
