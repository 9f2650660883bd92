import OpenClaw.Lib.Loop

/-!
# Lineages

The lineage of a node in a forest: its parent, the parent of that one, and so on, up
to a root. A node that is taken out of the forest leaves its children to the nearest
of its ancestors that stays.
-/

namespace OpenClaw

variable {κ : Type} {parentOf parentOf' : κ → Option (Option κ)} {removed : κ → Bool}

/-- From `start` up to a root. `parentOf` gives the parent of a node, none for a root. -/
inductive Lineage (parentOf : κ → Option (Option κ)) : Option κ → List κ → Prop
  | root : Lineage parentOf none []
  | up : parentOf k = some parent → Lineage parentOf parent chain →
      Lineage parentOf (some k) (k :: chain)

namespace Lineage

theorem unique (h : Lineage parentOf start chain) (h' : Lineage parentOf start chain') :
    chain = chain' := by
  induction h generalizing chain' with
  | root =>
    cases h'
    rfl
  | up hparent _ ih =>
    cases h' with
    | up hparent' hrest =>
      rw [hparent] at hparent'
      cases hparent'
      rw [ih hrest]

theorem of_mem (h : Lineage parentOf start chain) (hk : k ∈ chain) :
    ∃ above, Lineage parentOf (some k) (k :: above) ∧ above.length < chain.length := by
  induction h with
  | root => cases hk
  | @up k' parent chain hparent hrest ih =>
    rcases List.mem_cons.mp hk with rfl | hk
    · exact ⟨chain, .up hparent hrest, Nat.lt_succ_self _⟩
    · obtain ⟨above, habove, hless⟩ := ih hk
      exact ⟨above, habove, Nat.lt_succ_of_lt hless⟩

theorem parentOf_of_mem (h : Lineage parentOf start chain) (hk : k ∈ chain) :
    ∃ parent, parentOf k = some parent := by
  obtain ⟨above, habove, -⟩ := h.of_mem hk
  cases habove with
  | up hparent => exact ⟨_, hparent⟩

/-- No node is above itself. -/
theorem nodup (h : Lineage parentOf start chain) : chain.Nodup := by
  induction h with
  | root => exact List.nodup_nil
  | @up k parent chain hparent hrest ih =>
    refine List.nodup_cons.mpr ⟨fun hk => ?_, ih⟩
    obtain ⟨above, habove, hless⟩ := hrest.of_mem hk
    have heq := habove.unique (.up hparent hrest)
    cases heq
    exact Nat.lt_irrefl _ hless

/-- The nearest that is not taken out. -/
def nearest (removed : κ → Bool) (chain : List κ) : Option κ := chain.find? (!removed ·)

/-- One step of the walk to the nearest that is not taken out. -/
def climb (removed : κ → Bool) (parentOf : κ → Option (Option κ)) :
    Option κ → Option κ ⊕ Option κ
  | some k => if removed k then .inl (parentOf k).join else .inr (some k)
  | none => .inr none

/-- The walk ends at the nearest, within the length of the lineage. -/
theorem rounds_climb (h : Lineage parentOf start chain) (hn : chain.length < n) :
    Loop.rounds (climb removed parentOf) n start = some (nearest removed chain) := by
  induction h generalizing n with
  | root =>
    obtain ⟨n, rfl⟩ := Nat.exists_eq_succ_of_ne_zero (Nat.ne_zero_of_lt hn)
    exact Loop.rounds_done rfl
  | @up k parent chain hparent hrest ih =>
    obtain ⟨n, rfl⟩ := Nat.exists_eq_succ_of_ne_zero (Nat.ne_zero_of_lt hn)
    cases hk : removed k with
    | true =>
      have hnext : climb removed parentOf (some k) = .inl parent := by simp [climb, hk, hparent]
      rw [Loop.rounds_next hnext, ih (Nat.lt_of_succ_lt_succ hn)]
      simp [nearest, hk]
    | false =>
      have hdone : climb removed parentOf (some k) = .inr (some k) := by simp [climb, hk]
      rw [Loop.rounds_done hdone]
      simp [nearest, hk]

/-- Where every node that stays is given to the nearest of its ancestors that stays, its
lineage is the old one without the nodes taken out. -/
theorem filter (h : Lineage parentOf start chain)
    (hparents : ∀ k parent above, removed k = false → parentOf k = some parent →
      Lineage parentOf parent above → parentOf' k = some (nearest removed above)) :
    Lineage parentOf' (nearest removed chain) (chain.filter (!removed ·)) := by
  induction h with
  | root => exact .root
  | @up k parent chain hparent hrest ih =>
    cases hk : removed k with
    | true => simpa [nearest, hk] using ih
    | false =>
      have hnearest : nearest removed (k :: chain) = some k := by simp [nearest, hk]
      rw [hnearest, List.filter_cons_of_pos (by simp [hk])]
      exact .up (hparents k parent chain hk hparent hrest) ih

end Lineage

end OpenClaw
