import Mathlib.Algebra.GroupWithZero.Nat
import Mathlib.Data.List.Nodup
import Mathlib.Data.List.Perm.Subperm

/-!
# Members

Association lists with distinct keys, by what their lookups give: a member set or
removed, and two lists compared member by member.
-/

namespace OpenClaw.Members

variable {κ α : Type}

-- ---
-- Looking up
-- ---

section Lookup

variable [BEq κ] [LawfulBEq κ]

theorem lookup_isSome_iff {members : List (κ × α)} {key : κ} :
    (members.lookup key).isSome ↔ key ∈ members.map Prod.fst := by
  simp [List.lookup_isSome_iff]

theorem lookup_eq_none {members : List (κ × α)} {key : κ} :
    members.lookup key = none ↔ key ∉ members.map Prod.fst := by
  rw [← lookup_isSome_iff, Option.not_isSome_iff_eq_none]

theorem mem_of_lookup {members : List (κ × α)} {key : κ} (h : members.lookup key = some value) :
    (key, value) ∈ members := by
  rw [List.lookup_eq_some_iff] at h
  obtain ⟨before, after, rfl, -⟩ := h
  simp

variable [DecidableEq κ]

theorem lookup_cons (member : κ × α) (members : List (κ × α)) (key : κ) :
    (member :: members).lookup key = if key = member.1 then some member.2 else members.lookup key := by
  rw [List.lookup_cons]
  split <;> simp_all

theorem lookup_of_mem {members : List (κ × α)} {key : κ} (hnodup : (members.map Prod.fst).Nodup)
    (h : (key, value) ∈ members) : members.lookup key = some value := by
  induction members with
  | nil => cases h
  | cons member members ih =>
    rw [List.map_cons, List.nodup_cons] at hnodup
    rw [lookup_cons]
    rcases List.mem_cons.1 h with rfl | h
    · simp
    · have hne : key ≠ member.1 := by
        rintro rfl
        exact hnodup.1 (List.mem_map.2 ⟨_, h, rfl⟩)
      rw [if_neg hne, ih hnodup.2 h]

theorem lookup_filter (members : List (κ × α)) (p : κ → Bool) (key : κ) :
    (members.filter fun member => p member.1).lookup key = if p key then members.lookup key else none := by
  induction members with
  | nil => simp
  | cons member members ih =>
    rw [List.filter_cons, lookup_cons]
    by_cases hmember : p member.1
    · rw [if_pos hmember, lookup_cons, ih]
      by_cases hkey : key = member.1
      · simp [hkey, hmember]
      · simp [hkey]
    · rw [if_neg hmember, ih]
      by_cases hkey : key = member.1
      · simp [hkey, hmember]
      · simp [hkey]

end Lookup

-- ---
-- Setting and removing
-- ---

variable [DecidableEq κ]

/-- Set in place where the key is there, else at the end. -/
def assign (members : List (κ × α)) (key : κ) (value : α) : List (κ × α) :=
  if key ∈ members.map Prod.fst then members.map fun member => if member.1 = key then (key, value) else member
  else members ++ [(key, value)]

def remove (members : List (κ × α)) (key : κ) : List (κ × α) := members.filter (·.1 ≠ key)

theorem keys_assign (members : List (κ × α)) (key : κ) (value : α) :
    (assign members key value).map Prod.fst =
      if key ∈ members.map Prod.fst then members.map Prod.fst else members.map Prod.fst ++ [key] := by
  unfold assign
  split
  case isTrue hmem =>
    rw [List.map_map]
    refine List.map_congr_left fun member _ => ?_
    by_cases hkey : member.1 = key <;> simp [hkey]
  case isFalse => simp

theorem mem_keys_assign {members : List (κ × α)} {key key' : κ} {value : α} :
    key' ∈ (assign members key value).map Prod.fst ↔ key' ∈ members.map Prod.fst ∨ key' = key := by
  rw [keys_assign]
  split
  case isTrue hmem => exact ⟨.inl, fun h => h.elim id fun heq => heq ▸ hmem⟩
  case isFalse => rw [List.mem_append, List.mem_singleton]

theorem mem_assign_iff {members : List (κ × α)} {key : κ} {value : α} :
    member ∈ assign members key value ↔ member ∈ members ∧ member.1 ≠ key ∨ member = (key, value) := by
  unfold assign
  split
  case isTrue hmem =>
    obtain ⟨old, hold, hkey⟩ := List.mem_map.1 hmem
    rw [List.mem_map]
    constructor
    · rintro ⟨other, hother, rfl⟩
      by_cases heq : other.1 = key
      · exact .inr (if_pos heq)
      · rw [if_neg heq]
        exact .inl ⟨hother, heq⟩
    · rintro (⟨hother, hne⟩ | rfl)
      · exact ⟨member, hother, if_neg hne⟩
      · exact ⟨old, hold, if_pos hkey⟩
  case isFalse hmem =>
    rw [List.mem_append, List.mem_singleton]
    refine or_congr_left ⟨fun hother => ⟨hother, ?_⟩, And.left⟩
    rintro rfl
    exact hmem (List.mem_map_of_mem hother)

theorem mem_assign {members : List (κ × α)} {key : κ} {value : α} (h : member ∈ assign members key value) :
    member ∈ members ∨ member = (key, value) :=
  (mem_assign_iff.1 h).imp_left And.left

theorem nodup_assign {members : List (κ × α)} (h : (members.map Prod.fst).Nodup) (key : κ) (value : α) :
    ((assign members key value).map Prod.fst).Nodup := by
  rw [keys_assign]
  split
  case isTrue => exact h
  case isFalse hmem => exact List.Nodup.append h (List.nodup_singleton key) (by simpa using hmem)

theorem nodup_remove {members : List (κ × α)} (h : (members.map Prod.fst).Nodup) (key : κ) :
    ((remove members key).map Prod.fst).Nodup :=
  h.sublist (List.filter_sublist.map _)

theorem remove_eq_self {members : List (κ × α)} (h : key ∉ members.map Prod.fst) : remove members key = members := by
  refine List.filter_eq_self.2 fun member hmember => ?_
  refine decide_eq_true fun hkey => h ?_
  exact hkey ▸ List.mem_map_of_mem hmember

theorem foldl_remove (keys : List κ) (members : List (κ × α)) :
    keys.foldl remove members = members.filter (·.1 ∉ keys) := by
  induction keys generalizing members with
  | nil => exact (List.filter_eq_self.2 fun _ _ => decide_eq_true List.not_mem_nil).symm
  | cons key keys ih =>
    rw [List.foldl_cons, ih, remove, List.filter_filter]
    refine List.filter_congr fun member _ => ?_
    simp [Bool.and_comm]

variable [BEq κ] [LawfulBEq κ]

private theorem lookup_replace (members : List (κ × α)) (key key' : κ) (value : α) :
    (members.map fun member => if member.1 = key then (key, value) else member).lookup key' =
      if key' = key then (members.lookup key).map fun _ => value else members.lookup key' := by
  induction members with
  | nil => simp
  | cons member members ih =>
    simp only [List.map_cons, lookup_cons, ih]
    by_cases hkey : member.1 = key <;> by_cases hkey' : key' = key <;> by_cases hmember : key' = member.1 <;>
      simp_all

theorem lookup_assign (members : List (κ × α)) (key key' : κ) (value : α) :
    (assign members key value).lookup key' = if key' = key then some value else members.lookup key' := by
  unfold assign
  split
  case isTrue hmem =>
    obtain ⟨old, hold⟩ := Option.isSome_iff_exists.1 (lookup_isSome_iff.2 hmem)
    simp [lookup_replace, hold]
  case isFalse hmem =>
    rw [List.lookup_append]
    split
    case isTrue hkey => simp [hkey, lookup_eq_none.2 hmem]
    case isFalse hkey => simp [lookup_cons, hkey]

theorem lookup_remove (members : List (κ × α)) (key key' : κ) :
    (remove members key).lookup key' = if key' = key then none else members.lookup key' := by
  unfold remove
  rw [lookup_filter members (fun other => decide (other ≠ key))]
  by_cases hkey : key' = key <;> simp [hkey]

theorem perm_remove {members : List (κ × α)} (hnodup : (members.map Prod.fst).Nodup)
    (h : members.lookup key = some value) : members.Perm ((key, value) :: remove members key) := by
  induction members with
  | nil => cases h
  | cons member members ih =>
    obtain ⟨hfresh, hnodup⟩ := List.nodup_cons.1 hnodup
    rw [lookup_cons] at h
    by_cases hkey : key = member.1
    · rw [if_pos hkey] at h
      cases h
      have hrest : remove members key = members := remove_eq_self (hkey ▸ hfresh)
      unfold remove at hrest ⊢
      rw [List.filter_cons_of_neg (by simp [hkey]), hrest, hkey]
    · rw [if_neg hkey] at h
      have ih := ih hnodup h
      unfold remove at ih ⊢
      rw [List.filter_cons_of_pos (by simp [Ne.symm hkey])]
      exact (ih.cons member).trans (.swap _ _ _)

omit [BEq κ] [LawfulBEq κ] in
theorem remove_assign (members : List (κ × α)) (key : κ) (value : α) :
    remove (assign members key value) key = remove members key := by
  unfold remove assign
  split
  · rw [List.filter_map]
    have hsame : ((fun member => decide (member.1 ≠ key)) ∘ fun member => if member.1 = key then (key, value) else member) =
        fun member : κ × α => decide (member.1 ≠ key) := by
      funext member
      by_cases hkey : member.1 = key <;> simp [hkey]
    rw [hsame]
    refine (List.map_congr_left fun member hmember => ?_).trans (List.map_id _)
    rw [if_neg (by simpa using (List.mem_filter.1 hmember).2), id]
  · simp

theorem perm_assign {members : List (κ × α)} (hnodup : (members.map Prod.fst).Nodup) (key : κ) (value : α) :
    (assign members key value).Perm ((key, value) :: remove members key) := by
  rw [← remove_assign members key value]
  exact perm_remove (nodup_assign hnodup key value) (by rw [lookup_assign, if_pos rfl])

theorem length_remove {members : List (κ × α)} (hnodup : (members.map Prod.fst).Nodup)
    (h : members.lookup key = some value) : (remove members key).length + 1 = members.length :=
  (perm_remove hnodup h).length_eq.symm

-- ---
-- Sums
-- ---

theorem sum_remove (weight : α → Nat) {members : List (κ × α)} (hnodup : (members.map Prod.fst).Nodup)
    (h : members.lookup key = some value) :
    ((remove members key).map fun member => weight member.2).sum + weight value =
      (members.map fun member => weight member.2).sum := by
  rw [((perm_remove hnodup h).map fun member => weight member.2).sum_nat, List.map_cons, List.sum_cons, Nat.add_comm]

theorem sum_assign (weight : α → Nat) {members : List (κ × α)} (hnodup : (members.map Prod.fst).Nodup)
    (h : members.lookup key = some old) (value : α) :
    ((assign members key value).map fun member => weight member.2).sum + weight old =
      (members.map fun member => weight member.2).sum + weight value := by
  have hassign := ((perm_assign hnodup key value).map fun member => weight member.2).sum_nat
  have hremove := sum_remove weight hnodup h
  rw [List.map_cons, List.sum_cons] at hassign
  dsimp only at hassign
  omega

-- ---
-- Member by member
-- ---

/-- Lists of distinct keys are related member by member when they are of one length
and each member of the first has its match in the second. -/
theorem rel_lookup_iff {r : α → α → Prop} {left right : List (κ × α)} (hleft : (left.map Prod.fst).Nodup)
    (hright : (right.map Prod.fst).Nodup) :
    (left.length = right.length ∧ ∀ member ∈ left, ∃ value, right.lookup member.1 = some value ∧ r member.2 value) ↔
      ∀ key, Option.Rel r (left.lookup key) (right.lookup key) := by
  constructor
  · rintro ⟨hlength, hrel⟩ key
    have hsub : left.map Prod.fst ⊆ right.map Prod.fst := by
      intro key hkey
      obtain ⟨member, hmember, rfl⟩ := List.mem_map.1 hkey
      obtain ⟨value, hvalue, -⟩ := hrel member hmember
      exact lookup_isSome_iff.1 (Option.isSome_iff_exists.2 ⟨value, hvalue⟩)
    have hperm : List.Perm (left.map Prod.fst) (right.map Prod.fst) :=
      (hleft.subperm hsub).perm_of_length_le (by simp [hlength])
    cases hkey : left.lookup key with
    | none =>
      have hnone : right.lookup key = none := lookup_eq_none.2 fun hmem =>
        lookup_eq_none.1 hkey (hperm.mem_iff.2 hmem)
      rw [hnone]
      exact .none
    | some value =>
      obtain ⟨value', hvalue', hr⟩ := hrel (key, value) (mem_of_lookup hkey)
      rw [hvalue']
      exact .some hr
  · intro hrel
    have hkeys : ∀ key, key ∈ left.map Prod.fst ↔ key ∈ right.map Prod.fst := by
      intro key
      rw [← lookup_isSome_iff, ← lookup_isSome_iff]
      generalize left.lookup key = a, right.lookup key = b, hrel key = h
      cases h <;> simp
    constructor
    · simpa using ((List.perm_ext_iff_of_nodup hleft hright).2 hkeys).length_eq
    · rintro ⟨key, value⟩ hmember
      have hr := hrel key
      rw [lookup_of_mem hleft hmember] at hr
      generalize right.lookup key = b at hr
      cases hr with
      | some hr => exact ⟨_, rfl, hr⟩

end OpenClaw.Members
