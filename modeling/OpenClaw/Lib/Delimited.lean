/-!
# Delimited lists

A list split at the first place of a delimiter, and a list with a tag behind a mark.
-/

namespace OpenClaw.Delimited

variable {α : Type u} {a : α} {w left left' right right' : List α}

theorem split (hleft : a ∉ left) (hleft' : a ∉ left') (h : left ++ a :: right = left' ++ a :: right') :
    left = left' ∧ right = right' := by
  induction left generalizing left' with
  | nil =>
    cases left' with
    | nil => exact ⟨rfl, (List.cons.inj h).2⟩
    | cons b left' => exact absurd ((List.cons.inj h).1 ▸ List.mem_cons_self) hleft'
  | cons b left ih =>
    simp only [List.mem_cons, not_or] at hleft
    cases left' with
    | nil => exact absurd (List.cons.inj h).1.symm hleft.1
    | cons b' left' =>
      simp only [List.mem_cons, not_or] at hleft'
      obtain ⟨rfl, htail⟩ := List.cons.inj h
      obtain ⟨rfl, hright⟩ := ih hleft.2 hleft'.2 htail
      exact ⟨rfl, hright⟩

-- ---
-- Tagged lists
-- ---

/-- A mark that begins and ends with `a`. -/
def mark (a : α) (w : List α) : List α := a :: (w ++ [a])

/-- A list, with a mark and a tag behind it where there is a tag. -/
def tagged (a : α) (w list : List α) : Option (List α) → List α
  | none => list
  | some tag => list ++ (mark a w ++ tag)

/-- The second pair of list and tag spells what the first one does, with the
longer list: it reads all of the tag, a part that ends before a mark, or
the beginning of the mark itself as list. -/
inductive Absorbs (a : α) (w : List α) : List α → Option (List α) → List α → Option (List α) → Prop
  | whole : Absorbs a w list (some tag) (list ++ (mark a w ++ tag)) none
  | part : Absorbs a w list (some (first ++ (mark a w ++ tag))) (list ++ (mark a w ++ first)) (some tag)
  | mark : Absorbs a w list (some (w ++ a :: tag)) (list ++ a :: w) (some tag)

theorem Absorbs.tagged_eq (h : Absorbs a w list tag list' tag') : tagged a w list tag = tagged a w list' tag' := by
  cases h <;> simp [tagged, Delimited.mark]

theorem tagged_eq_append (list : List α) (tag : Option (List α)) :
    tagged a w list tag = list ++ tagged a w [] tag := by
  cases tag with
  | none => exact (List.append_nil list).symm
  | some tag => rfl

theorem absorbs_of_append (hw : a ∉ w) (h : tagged a w [] tag = tagged a w more tag') :
    more = [] ∧ tag = tag' ∨ Absorbs a w list tag (list ++ more) tag' := by
  cases tag with
  | none =>
    cases tag' with
    | none => exact .inl ⟨h.symm, rfl⟩
    | some tag' => simp [tagged, mark] at h
  | some tag =>
    cases tag' with
    | none =>
      rw [show more = mark a w ++ tag from h.symm]
      exact .inr .whole
    | some tag' =>
      cases more with
      | nil => exact .inl ⟨rfl, by simpa [tagged] using h⟩
      | cons b more =>
        refine .inr ?_
        have hspell : a = b ∧ w ++ a :: tag = more ++ a :: (w ++ a :: tag') := by simpa [tagged, mark] using h
        obtain ⟨rfl, hspell⟩ := hspell
        rcases List.append_eq_append_iff.1 hspell with ⟨rest, hmore, hrest⟩ | ⟨rest, hword, hrest⟩
        · cases rest with
          | nil =>
            obtain rfl : tag = w ++ a :: tag' := (List.cons.inj hrest).2
            rw [hmore, List.append_nil]
            exact .mark
          | cons c rest =>
            obtain ⟨rfl, htag⟩ := List.cons.inj hrest
            have hlist : a :: more = mark a w ++ rest := by simp [hmore, mark]
            have htag : tag = rest ++ (mark a w ++ tag') := by simpa [mark] using htag
            rw [hlist, htag]
            exact .part
        · cases rest with
          | nil =>
            obtain rfl : w ++ a :: tag' = tag := (List.cons.inj hrest).2
            obtain rfl : w = more := by simpa using hword
            exact .mark
          | cons c rest =>
            obtain ⟨rfl, -⟩ := List.cons.inj hrest
            exact absurd (by simp [hword]) hw

/-- Two lists with their tags are alike, or one has absorbed the beginning of the
other's tag. -/
def SpelledAlike (a : α) (w list : List α) (tag : Option (List α)) (list' : List α) (tag' : Option (List α)) : Prop :=
  (list = list' ∧ tag = tag') ∨ Absorbs a w list tag list' tag' ∨ Absorbs a w list' tag' list tag

theorem tagged_eq_iff (hw : a ∉ w) :
    tagged a w list tag = tagged a w list' tag' ↔ SpelledAlike a w list tag list' tag' := by
  constructor
  · intro h
    rw [tagged_eq_append, tagged_eq_append list'] at h
    rcases List.append_eq_append_iff.1 h with ⟨more, rfl, hmore⟩ | ⟨more, rfl, hmore⟩
    · rw [← tagged_eq_append] at hmore
      rcases absorbs_of_append hw hmore with ⟨rfl, rfl⟩ | hmore
      · exact .inl ⟨(List.append_nil list).symm, rfl⟩
      · exact .inr (.inl hmore)
    · rw [← tagged_eq_append] at hmore
      rcases absorbs_of_append hw hmore with ⟨rfl, rfl⟩ | hmore
      · exact .inl ⟨List.append_nil list', rfl⟩
      · exact .inr (.inr hmore)
  · rintro (⟨rfl, rfl⟩ | h | h)
    · rfl
    · exact h.tagged_eq
    · exact h.tagged_eq.symm

theorem tagged_inj : tagged a w list tag = tagged a w list tag' ↔ tag = tag' := by
  cases tag <;> cases tag' <;> simp [tagged, mark]

-- ---
-- Segments
-- ---

/-- The segments, each with `a` behind it, before the rest. -/
def joined (a : α) (segments : List (List α)) (rest : List α) : List α :=
  segments.foldr (fun segment rest => segment ++ a :: rest) rest

@[simp] theorem joined_nil (rest : List α) : joined a [] rest = rest := rfl

@[simp] theorem joined_cons (segment : List α) (segments : List (List α)) (rest : List α) :
    joined a (segment :: segments) rest = segment ++ a :: joined a segments rest := rfl

theorem tagged_joined (segments : List (List α)) (rest : List α) (tag : Option (List α)) :
    tagged a w (joined a segments rest) tag = joined a segments (tagged a w rest tag) := by
  induction segments with
  | nil => rfl
  | cons segment segments ih => rw [joined_cons, joined_cons, ← ih]; cases tag <;> simp [tagged]

theorem joined_cons_eq_iff (hleft : a ∉ left) (hleft' : a ∉ left') :
    joined a (left :: segments) rest = joined a (left' :: segments') rest' ↔
      left = left' ∧ joined a segments rest = joined a segments' rest' := by
  refine ⟨split hleft hleft', ?_⟩
  rintro ⟨rfl, h⟩
  rw [joined_cons, joined_cons, h]

theorem joined_eq_iff (h : ∀ segment ∈ segments, a ∉ segment) (h' : ∀ segment ∈ segments', a ∉ segment)
    (hlength : segments.length = segments'.length) :
    joined a segments rest = joined a segments' rest' ↔ segments = segments' ∧ rest = rest' := by
  induction segments generalizing segments' with
  | nil =>
    obtain rfl : segments' = [] := List.length_eq_zero_iff.1 hlength.symm
    simp
  | cons segment segments ih =>
    cases segments' with
    | nil => cases hlength
    | cons segment' segments' =>
      rw [List.forall_mem_cons] at h h'
      rw [joined_cons_eq_iff h.1 h'.1, ih h.2 h'.2 (Nat.succ.inj hlength), List.cons.injEq, and_assoc]

theorem map_joined {f : α → α} (h : f a = a) (segments : List (List α)) (rest : List α) :
    (joined a segments rest).map f = joined a (segments.map (List.map f)) (rest.map f) := by
  induction segments with
  | nil => rfl
  | cons segment segments ih =>
    rw [joined_cons, List.map_append, List.map_cons, ih, h, List.map_cons, joined_cons]

theorem joined_injective (h : ∀ segment ∈ segments, a ∉ segment)
    (h' : ∀ segment ∈ segments', a ∉ segment) (heq : joined a segments [] = joined a segments' []) :
    segments = segments' := by
  induction segments generalizing segments' with
  | nil =>
    cases segments' with
    | nil => rfl
    | cons segment' segments' => simp at heq
  | cons segment segments ih =>
    cases segments' with
    | nil => simp at heq
    | cons segment' segments' =>
      rw [List.forall_mem_cons] at h h'
      obtain ⟨rfl, htail⟩ := (joined_cons_eq_iff h.1 h'.1).mp heq
      rw [ih h.2 h'.2 htail]

end OpenClaw.Delimited
