import Mathlib.Data.List.Count
import Mathlib.Data.List.Perm.Basic

/-!
# Tokens

Items that carry tokens, some of which are spent. As long as every item has a token of
its own, unspent and carried by no other item, whatever is done to an item is done for
something that was not done before. The lemmas say how items are spent, merged and added.
-/

namespace OpenClaw.Tokens

variable {α ν : Type} [DecidableEq ν] {tokens : α → List ν} {spent : List ν} {items : List α} {a b c : α}

/-- How many items carry the token. -/
def carriers (tokens : α → List ν) (items : List α) (token : ν) : Nat := items.countP fun a => token ∈ tokens a

/-- Every item has a token that is not spent and that no other item has. -/
def Owned (tokens : α → List ν) (spent : List ν) (items : List α) : Prop :=
  ∀ a ∈ items, ∃ token ∈ tokens a, token ∉ spent ∧ carriers tokens items token = 1

theorem carriers_cons (a : α) (items : List α) (token : ν) :
    carriers tokens (a :: items) token = carriers tokens items token + if token ∈ tokens a then 1 else 0 := by
  simp [carriers, List.countP_cons]

theorem one_le_carriers (h : a ∈ items) (htoken : token ∈ tokens a) : 1 ≤ carriers tokens items token :=
  List.countP_pos_iff.2 ⟨a, h, decide_eq_true htoken⟩

theorem carriers_eq_zero : carriers tokens items token = 0 ↔ ∀ a ∈ items, token ∉ tokens a := by
  simp [carriers, List.countP_eq_zero]

theorem Owned.perm (h : Owned tokens spent items) (hperm : items.Perm items') : Owned tokens spent items' := by
  intro a ha
  obtain ⟨token, htoken, hspent, hone⟩ := h a (hperm.mem_iff.2 ha)
  exact ⟨token, htoken, hspent, by rw [carriers, ← hperm.countP_eq]; exact hone⟩

/-- The token of an item that stays is not carried by the one that goes. -/
theorem Owned.tail_token (h : Owned tokens spent (a :: items)) (hb : b ∈ items) :
    ∃ token ∈ tokens b, token ∉ spent ∧ token ∉ tokens a ∧ carriers tokens items token = 1 := by
  obtain ⟨token, htoken, hspent, hone⟩ := h b (List.mem_cons_of_mem a hb)
  have hcarried := one_le_carriers hb htoken
  rw [carriers_cons] at hone
  split at hone
  case isTrue => omega
  case isFalse ha => exact ⟨token, htoken, hspent, ha, hone⟩

theorem Owned.head_token (h : Owned tokens spent (a :: items)) :
    ∃ token ∈ tokens a, token ∉ spent ∧ ∀ b ∈ items, token ∉ tokens b := by
  obtain ⟨token, htoken, hspent, hone⟩ := h a List.mem_cons_self
  rw [carriers_cons, if_pos htoken] at hone
  exact ⟨token, htoken, hspent, carriers_eq_zero.1 (by omega)⟩

theorem Owned.tail (h : Owned tokens spent (a :: items)) : Owned tokens spent items := by
  intro b hb
  obtain ⟨token, htoken, hspent, -, hone⟩ := h.tail_token hb
  exact ⟨token, htoken, hspent, hone⟩

/-- The tokens of the item that goes are spent. -/
theorem Owned.spend (h : Owned tokens spent (a :: items)) : Owned tokens (tokens a ++ spent) items := by
  intro b hb
  obtain ⟨token, htoken, hspent, ha, hone⟩ := h.tail_token hb
  exact ⟨token, htoken, by simp [ha, hspent], hone⟩

theorem Owned.cons (h : Owned tokens spent items) (ha : ∃ token ∈ tokens a, token ∉ spent)
    (hfree : ∀ token ∈ tokens a, token ∉ spent → ∀ b ∈ items, token ∉ tokens b) :
    Owned tokens spent (a :: items) := by
  intro b hb
  rcases List.mem_cons.1 hb with rfl | hb
  · obtain ⟨token, htoken, hspent⟩ := ha
    refine ⟨token, htoken, hspent, ?_⟩
    rw [carriers_cons, if_pos htoken, carriers_eq_zero.2 (hfree token htoken hspent)]
  · obtain ⟨token, htoken, hspent, hone⟩ := h b hb
    refine ⟨token, htoken, hspent, ?_⟩
    rw [carriers_cons, if_neg fun ha => hfree token ha hspent b hb htoken, hone]

/-- An item takes the place of one whose tokens it has, with tokens that the others do not carry. -/
theorem Owned.replace (h : Owned tokens spent (a :: items)) (hsub : ∀ token ∈ tokens a, token ∈ tokens c)
    (hfree : ∀ token ∈ tokens c, token ∉ spent → token ∈ tokens a ∨ ∀ b ∈ items, token ∉ tokens b) :
    Owned tokens spent (c :: items) := by
  intro b hb
  rcases List.mem_cons.1 hb with rfl | hb
  · obtain ⟨token, htoken, hspent, hothers⟩ := h.head_token
    refine ⟨token, hsub token htoken, hspent, ?_⟩
    rw [carriers_cons, if_pos (hsub token htoken), carriers_eq_zero.2 hothers]
  · obtain ⟨token, htoken, hspent, ha, hone⟩ := h.tail_token hb
    refine ⟨token, htoken, hspent, ?_⟩
    have hc : token ∉ tokens c := fun hc => (hfree token hc hspent).elim ha fun hothers => hothers b hb htoken
    rw [carriers_cons, if_neg hc, hone]

/-- An item takes the place of two whose tokens it has. -/
theorem Owned.merge (h : Owned tokens spent (a :: b :: items))
    (hc : ∀ token, token ∈ tokens c ↔ token ∈ tokens a ∨ token ∈ tokens b) : Owned tokens spent (c :: items) := by
  intro d hd
  rcases List.mem_cons.1 hd with rfl | hd
  · obtain ⟨token, htoken, hspent, hothers⟩ := h.head_token
    have htokens := (hc token).2 (.inl htoken)
    refine ⟨token, htokens, hspent, ?_⟩
    rw [carriers_cons, if_pos htokens, carriers_eq_zero.2 fun e he => hothers e (List.mem_cons_of_mem b he)]
  · obtain ⟨token, htoken, hspent, ha, hone⟩ := h.tail_token (List.mem_cons_of_mem b hd)
    have hcarried := one_le_carriers hd htoken
    rw [carriers_cons] at hone
    have hb : token ∉ tokens b := by
      intro hb
      rw [if_pos hb] at hone
      omega
    refine ⟨token, htoken, hspent, ?_⟩
    rw [if_neg hb] at hone
    rw [carriers_cons, if_neg (by simp [hc, ha, hb]), hone]

end OpenClaw.Tokens
