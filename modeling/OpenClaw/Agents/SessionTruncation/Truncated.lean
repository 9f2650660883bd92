import OpenClaw.Agents.SessionTruncation

/-!
# A truncated session

From the first entry that the compaction kept, the active branch stays, but for the
labels and branch summaries that refer to what was summarized.
-/

namespace OpenClaw.Agents.SessionTruncation

variable {id : String}

-- ---
-- The branch
-- ---

theorem find?_reverse_range {p : Nat → Bool} (hi : i < n) (hp : p i = true)
    (hlast : ∀ j, i < j → j < n → p j = false) : (List.range n).reverse.find? p = some i := by
  induction n with
  | zero => cases hi
  | succ n ih =>
    rw [List.range_succ, List.reverse_append, List.reverse_singleton, List.singleton_append]
    rcases Nat.lt_succ_iff_lt_or_eq.mp hi with hlt | rfl
    · rw [List.find?_cons_of_neg (by simp [hlast n hlt (Nat.lt_succ_self n)])]
      exact ih hlt fun j hj hjn => hlast j hj (Nat.lt_succ_of_lt hjn)
    · exact List.find?_cons_of_pos hp

/-- The latest compaction of the branch, and what it names as the first entry kept. -/
def LatestCompaction (branch before : List SessionEntry) (firstKept : String) : Prop :=
  ∃ c after, branch = before ++ c :: after ∧ c.type = .compaction firstKept ∧
    ∀ e ∈ after, e.isCompaction = false

theorem LatestCompaction.idx {branch before : List SessionEntry} {firstKept : String}
    (h : LatestCompaction branch before firstKept) :
    latestCompactionIdx branch = some before.length := by
  obtain ⟨c, after, rfl, htype, hlast⟩ := h
  refine find?_reverse_range (by simp) (by simp [SessionEntry.isCompaction, htype]) ?_
  intro j hj hjn
  have hafter : (before ++ c :: after)[j]? = after[j - before.length - 1]? := by
    rw [List.getElem?_append_right (Nat.le_of_lt hj), List.getElem?_cons,
      if_neg (Nat.sub_ne_zero_of_lt hj)]
  rw [hafter]
  cases hget : after[j - before.length - 1]? with
  | none => rfl
  | some e => simpa using hlast e (List.mem_of_getElem? hget)

theorem LatestCompaction.firstKeptEntryId {branch before : List SessionEntry}
    {firstKept : String}
    (h : LatestCompaction branch before firstKept) :
    SessionTruncation.firstKeptEntryId branch before.length = firstKept := by
  obtain ⟨c, after, rfl, htype, -⟩ := h
  simp [SessionTruncation.firstKeptEntryId, htype]

/-- Taking from a list up to a member stays in front of that member. -/
theorem mem_of_mem_takeWhile_take {p : α → Bool} {b : α} (hb : p b = false) {front tail : List α}
    {n : Nat} (h : a ∈ ((front ++ b :: tail).take n).takeWhile p) : a ∈ front := by
  induction front generalizing n with
  | nil =>
    cases n with
    | zero => cases h
    | succ n => simp [hb] at h
  | cons c front ih =>
    cases n with
    | zero => cases h
    | succ n =>
      rw [List.cons_append, List.take_succ_cons, List.takeWhile_cons] at h
      split at h
      · rcases List.mem_cons.mp h with rfl | h
        · exact List.mem_cons_self
        · exact List.mem_cons_of_mem _ (ih h)
      · cases h

theorem mem_front_of_summarized {branch front tail : List SessionEntry} {e : SessionEntry}
    (hbranch : branch = front ++ e :: tail) (hfirst : firstKeptEntryId branch idx = e.id)
    (hne : e.id ≠ "") (h : id ∈ summarizedBranchIds branch idx) :
    id ∈ front.map SessionEntry.id := by
  obtain ⟨e', he', rfl⟩ := List.mem_map.mp h
  rw [hfirst, hbranch] at he'
  exact List.mem_map_of_mem (mem_of_mem_takeWhile_take (by simp [hne]) he')

theorem ActiveBranch.nodup {entries branch : List SessionEntry} (h : ActiveBranch entries branch) :
    (branch.map SessionEntry.id).Nodup :=
  List.nodup_reverse.mp h.path.nodup

/-- An entry of the branch that goes though it was not summarized refers to one that goes. -/
theorem refersTo_of_tail {entries branch front tail : List SessionEntry} {first e : SessionEntry}
    (hforest : Forest entries) (hactive : ActiveBranch entries branch)
    (hbranch : branch = front ++ first :: tail)
    (hfirst : firstKeptEntryId branch idx = first.id) (hne : first.id ≠ "")
    (he : e ∈ first :: tail)
    (hremoved : e.id ∈ removedIds entries (summarizedBranchIds branch idx)) :
    RefersTo (removedIds entries (summarizedBranchIds branch idx)) e := by
  rcases mem_removedIds hremoved with ⟨e', he', hid, hsummarized, -⟩ | ⟨e', he', hid, hrefers⟩
  · have hfront := mem_front_of_summarized hbranch hfirst hne hsummarized
    have hnodup := hactive.nodup
    rw [hbranch, List.map_append] at hnodup
    exact absurd (List.mem_map_of_mem he) ((List.nodup_append.mp hnodup).2.2 _ hfront _ · rfl)
  · have hmem : e ∈ entries := hactive.mem e (hbranch ▸ List.mem_append_right _ he)
    rwa [List.inj_on_of_nodup_map hforest.ids he' hmem hid] at hrefers

-- ---
-- The result
-- ---

/-- The entry with the id was taken out. -/
def Gone (entries kept : List SessionEntry) (id : String) : Prop :=
  id ∈ entries.map SessionEntry.id ∧ id ∉ kept.map SessionEntry.id

/-- Every parent that a kept entry names is kept. -/
def ParentsKept (kept : List SessionEntry) : Prop :=
  ∀ e ∈ kept, ∀ parentId, e.parentId = some parentId → parentId ∈ kept.map SessionEntry.id

/-- A kept entry is an old one, with the old lineage but for what was taken out. -/
def LineagesFiltered (entries kept : List SessionEntry) : Prop :=
  ∀ e ∈ kept, ∃ old ∈ entries, e = { old with parentId := e.parentId } ∧
    ∃ chain, Lineage (parentOf entries) old.parentId chain ∧
      Lineage (parentOf kept) e.parentId (chain.filter (kept.map SessionEntry.id).contains)

/-- A kept label of an entry taken out stands in front of it in the file, and that entry
is no message. -/
def LabelsBehind (entries kept : List SessionEntry) : Prop :=
  ∀ e ∈ kept, ∀ targetId, e.targetId? = some targetId → Gone entries kept targetId →
    ∃ before old after, entries = before ++ old :: after ∧ old.id = e.id ∧
      ∃ t ∈ after, t.id = targetId ∧ t.type ≠ .message

/-- The branch stays from the first kept entry on, but for labels and branch summaries of
what was taken out. -/
def TailKept (entries branch kept : List SessionEntry) : Prop :=
  ∀ before firstKept front first tail, LatestCompaction branch before firstKept →
    firstKept ≠ "" → branch = front ++ first :: tail → first.id = firstKept →
    ∀ e ∈ first :: tail, e.id ∈ kept.map SessionEntry.id ∨
      (∃ targetId, e.targetId? = some targetId ∧ Gone entries kept targetId) ∨
      e.type = .branch_summary ∧ ∃ parentId, e.parentId = some parentId ∧
        Gone entries kept parentId

theorem truncated_inv {branch entries kept : List SessionEntry}
    (h : truncateSessionAfterCompaction branch entries fuel = some (.truncated kept n)) :
    ∃ idx, latestCompactionIdx branch = some idx ∧
      keptEntries entries (removedIds entries (summarizedBranchIds branch idx)) fuel =
        some kept := by
  unfold truncateSessionAfterCompaction at h
  split at h
  · cases h
  · split at h
    · cases h
    · cases h
    · rename_i idx hidx
      simp only [] at h
      split at h
      · cases h
      · obtain ⟨kept', hkept', heq⟩ := Option.map_eq_some_iff.mp h
        cases heq
        exact ⟨_, hidx, hkept'⟩

section Result

variable {entries branch kept : List SessionEntry} {removed : List String}

theorem gone_iff (hkept : KeptFrom entries removed kept)
    (hremoved : ∀ id ∈ removed, id ∈ entries.map SessionEntry.id) :
    Gone entries kept id ↔ id ∈ removed := by
  constructor
  · rintro ⟨hid, hgone⟩
    obtain ⟨e, he, rfl⟩ := List.mem_map.mp hid
    by_contra hstays
    exact hgone ((hkept.mem_ids e he).mpr hstays)
  · intro hid
    obtain ⟨e, he, rfl⟩ := List.mem_map.mp (hremoved id hid)
    exact ⟨List.mem_map_of_mem he, fun hstays => (hkept.mem_ids e he).mp hstays hid⟩

theorem KeptFrom.parentsKept (hforest : Forest entries) (hkept : KeptFrom entries removed kept) :
    ParentsKept kept := by
  intro e he parentId hparent
  obtain ⟨old, hold, -, -, hlineage⟩ := hkept.kept e he
  obtain ⟨chain, hchain⟩ := hforest.rooted old hold
  have hkeptChain := hlineage chain hchain
  rw [hparent] at hkeptChain
  obtain ⟨above, hmem⟩ :
      ∃ above, chain.filter (fun id => !removed.contains id) = parentId :: above := by
    generalize chain.filter (fun id => !removed.contains id) = kept' at hkeptChain
    cases hkeptChain with
    | up => exact ⟨_, rfl⟩
  exact mem_ids_of_lineage hkeptChain (hmem ▸ List.mem_cons_self)

theorem KeptFrom.lineagesFiltered (hforest : Forest entries)
    (hkept : KeptFrom entries removed kept) : LineagesFiltered entries kept := by
  intro e he
  obtain ⟨old, hold, -, heq, hlineage⟩ := hkept.kept e he
  obtain ⟨chain, hchain⟩ := hforest.rooted old hold
  refine ⟨old, hold, heq, chain, hchain, ?_⟩
  have hsame : chain.filter (fun id => !removed.contains id) =
      chain.filter (kept.map SessionEntry.id).contains := by
    refine List.filter_congr fun id hid => ?_
    obtain ⟨e', he', rfl⟩ := List.mem_map.mp (mem_ids_of_lineage hchain hid)
    rw [Bool.eq_iff_iff, List.contains_iff_mem, hkept.mem_ids e' he']
    simp
  rw [← hsame]
  exact hlineage chain hchain

/-- The walk to a kept parent ends, and what a truncation keeps is the forest without the
entries it took out. -/
theorem truncateSessionAfterCompaction_spec (hforest : Forest entries)
    (hactive : ActiveBranch entries branch) (hfuel : entries.length < fuel) :
    (∃ result, truncateSessionAfterCompaction branch entries fuel = some result) ∧
      ∀ kept n, truncateSessionAfterCompaction branch entries fuel = some (.truncated kept n) →
        ParentsKept kept ∧ LineagesFiltered entries kept ∧ LabelsBehind entries kept ∧
          TailKept entries branch kept := by
  refine ⟨?_, fun kept n h => ?_⟩
  · unfold truncateSessionAfterCompaction
    split
    · exact ⟨_, rfl⟩
    · split
      · exact ⟨_, rfl⟩
      · exact ⟨_, rfl⟩
      · simp only []
        split
        · exact ⟨_, rfl⟩
        · rw [keptEntries_eq hforest hfuel]
          exact ⟨_, rfl⟩
  · obtain ⟨idx, hidx, hentries⟩ := truncated_inv h
    have hkept := keptFrom hforest hfuel hentries
    have hgone : ∀ id, Gone entries kept id ↔
        id ∈ removedIds entries (summarizedBranchIds branch idx) :=
      fun id => gone_iff hkept fun id => mem_ids_of_mem_removedIds
    refine ⟨hkept.parentsKept hforest, hkept.lineagesFiltered hforest, ?_, ?_⟩
    · intro e he targetId htarget htargetGone
      obtain ⟨old, hold, hstays, heq, -⟩ := hkept.kept e he
      have htype : old.type = .label targetId := by
        rw [heq] at htarget
        simp only [SessionEntry.targetId?] at htarget
        split at htarget
        · rename_i htype
          rw [htype, Option.some.inj htarget]
        · cases htarget
      obtain ⟨before, after, hsplit, htarget'⟩ :=
        label_before_target hold htype hstays ((hgone targetId).mp htargetGone)
      exact ⟨before, old, after, hsplit, by rw [heq], htarget'⟩
    · intro before firstKept front first tail hlatest hne hbranch hfirst e he
      obtain rfl : idx = before.length := Option.some.inj (hidx.symm.trans hlatest.idx)
      subst hfirst
      have hmem : e ∈ entries := hactive.mem e (hbranch ▸ List.mem_append_right _ he)
      by_cases hremoved : e.id ∈ removedIds entries (summarizedBranchIds branch before.length)
      · have hrefers :=
          refersTo_of_tail hforest hactive hbranch hlatest.firstKeptEntryId hne he hremoved
        rcases hrefers with ⟨targetId, htype, htarget⟩ | ⟨htype, parentId, hparent, hmemParent⟩
        · refine .inr (.inl ⟨targetId, ?_, (hgone _).mpr htarget⟩)
          simp [SessionEntry.targetId?, htype]
        · exact .inr (.inr ⟨htype, parentId, hparent, (hgone _).mpr hmemParent⟩)
      · exact .inl ((hkept.mem_ids e hmem).mpr hremoved)

end Result

-- ---
-- Labels in the tail
-- ---

/-- What is asked of a truncation without any exception. -/
def KeepsAll (entries branch : List SessionEntry) (fuel : Nat) : Prop :=
  Forest entries → ActiveBranch entries branch → ∀ kept n,
    truncateSessionAfterCompaction branch entries fuel = some (.truncated kept n) →
      ParentsKept kept ∧ LineagesFiltered entries kept ∧
      (∀ e ∈ kept, ∀ targetId, e.targetId? = some targetId → ¬ Gone entries kept targetId) ∧
      ∀ before firstKept front first tail, LatestCompaction branch before firstKept →
        branch = front ++ first :: tail → first.id = firstKept →
        ∀ e ∈ first :: tail, e.id ∈ kept.map SessionEntry.id

/-- A label behind the first kept message points at a summarized one. -/
def labelledTail : List SessionEntry :=
  [{ id := "m1", parentId := none, type := .message },
    { id := "m2", parentId := some "m1", type := .message },
    { id := "l1", parentId := some "m2", type := .label "m1" },
    { id := "c1", parentId := some "l1", type := .compaction "m2" }]

theorem labelledTail_forest : Forest labelledTail := by
  have h1 : Lineage (parentOf labelledTail) (some "m1") ["m1"] := .up (by decide) .root
  have h2 : Lineage (parentOf labelledTail) (some "m2") ["m2", "m1"] := .up (by decide) h1
  have h3 : Lineage (parentOf labelledTail) (some "l1") ["l1", "m2", "m1"] := .up (by decide) h2
  refine ⟨by decide, fun e he => ?_⟩
  simp only [labelledTail, List.mem_cons, List.not_mem_nil, or_false] at he
  rcases he with rfl | rfl | rfl | rfl
  · exact ⟨_, .root⟩
  · exact ⟨_, h1⟩
  · exact ⟨_, h2⟩
  · exact ⟨_, h3⟩

theorem labelledTail_active : ActiveBranch labelledTail labelledTail :=
  ⟨fun _ h => h,
    .up (by decide) (.up (by decide) (.up (by decide) (.up (by decide) .root)))⟩

theorem truncateSessionAfterCompaction_spec_labelledTail :
    (∃ result, truncateSessionAfterCompaction labelledTail labelledTail 5 = some result) ∧
      ∀ kept n, truncateSessionAfterCompaction labelledTail labelledTail 5 =
          some (.truncated kept n) →
        ParentsKept kept ∧ LineagesFiltered labelledTail kept ∧ LabelsBehind labelledTail kept ∧
          TailKept labelledTail labelledTail kept :=
  truncateSessionAfterCompaction_spec labelledTail_forest labelledTail_active (by decide)

/-- A label of a label that stands behind it in the file. -/
def forwardLabel : List SessionEntry :=
  [{ id := "m1", parentId := none, type := .message },
    { id := "m2", parentId := some "m1", type := .message },
    { id := "l2", parentId := some "m2", type := .label "l1" },
    { id := "l1", parentId := some "l2", type := .label "m1" },
    { id := "c1", parentId := some "l1", type := .compaction "m2" }]

theorem forwardLabel_forest : Forest forwardLabel := by
  have h1 : Lineage (parentOf forwardLabel) (some "m1") ["m1"] := .up (by decide) .root
  have h2 : Lineage (parentOf forwardLabel) (some "m2") ["m2", "m1"] := .up (by decide) h1
  have h3 : Lineage (parentOf forwardLabel) (some "l2") ["l2", "m2", "m1"] := .up (by decide) h2
  have h4 : Lineage (parentOf forwardLabel) (some "l1") ["l1", "l2", "m2", "m1"] :=
    .up (by decide) h3
  refine ⟨by decide, fun e he => ?_⟩
  simp only [forwardLabel, List.mem_cons, List.not_mem_nil, or_false] at he
  rcases he with rfl | rfl | rfl | rfl | rfl
  · exact ⟨_, .root⟩
  · exact ⟨_, h1⟩
  · exact ⟨_, h2⟩
  · exact ⟨_, h3⟩
  · exact ⟨_, h4⟩

theorem forwardLabel_active : ActiveBranch forwardLabel forwardLabel :=
  ⟨fun _ h => h,
    .up (by decide) (.up (by decide) (.up (by decide) (.up (by decide) (.up (by decide) .root))))⟩

/-- The label in the tail goes; the label in front of a label that goes stays. -/
theorem not_keepsAll :
    ¬ KeepsAll labelledTail labelledTail 5 ∧ ¬ KeepsAll forwardLabel forwardLabel 6 := by
  constructor
  · intro h
    obtain ⟨-, -, -, htail⟩ := h labelledTail_forest labelledTail_active
      [{ id := "m2", parentId := none, type := .message },
        { id := "c1", parentId := some "m2", type := .compaction "m2" }] 2 (by rfl)
    have hlatest : LatestCompaction labelledTail (labelledTail.take 3) "m2" :=
      ⟨_, [], rfl, rfl, fun _ he => by cases he⟩
    have := htail _ _ (labelledTail.take 1) _ (labelledTail.drop 2) hlatest rfl rfl _
      (List.mem_cons_of_mem _ List.mem_cons_self)
    exact absurd this (by decide)
  · intro h
    obtain ⟨-, -, hlabels, -⟩ := h forwardLabel_forest forwardLabel_active
      [{ id := "m2", parentId := none, type := .message },
        { id := "l2", parentId := some "m2", type := .label "l1" },
        { id := "c1", parentId := some "l2", type := .compaction "m2" }] 2 (by rfl)
    exact hlabels _ (List.mem_cons_of_mem _ List.mem_cons_self) "l1" rfl
      ⟨by decide, by decide⟩

end OpenClaw.Agents.SessionTruncation
