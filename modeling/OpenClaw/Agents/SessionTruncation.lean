import Mathlib.Data.List.Perm.Subperm
import OpenClaw.Lib.Lineage
import OpenClaw.Lib.OrderedSet

/-!
# Truncating a session after a compaction

The messages that the latest compaction of the active branch summarized are taken out
of the session file, with the labels and branch summaries that refer to them. What
stays is put below the nearest of its ancestors that stays.
-/

namespace OpenClaw.Agents.SessionTruncation

-- ---
-- Entries
-- ---

/-- The types of entries that truncation tells apart. -/
inductive EntryType where
  | message
  | compaction (firstKeptEntryId : String)
  | label (targetId : String)
  | branch_summary
  | other (type : String)
  deriving DecidableEq, Repr

structure SessionEntry where
  id : String
  parentId : Option String
  type : EntryType
  deriving DecidableEq, Repr

def SessionEntry.isCompaction (entry : SessionEntry) : Bool :=
  match entry.type with
  | .compaction _ => true
  | _ => false

def SessionEntry.targetId? (entry : SessionEntry) : Option String :=
  match entry.type with
  | .label targetId => some targetId
  | _ => none

-- ---
-- What is removed
-- ---

def latestCompactionIdx (branch : List SessionEntry) : Option Nat :=
  (List.range branch.length).reverse.find? fun i => (branch[i]?).any SessionEntry.isCompaction

def firstKeptEntryId (branch : List SessionEntry) (latestCompactionIdx : Nat) : String :=
  match branch[latestCompactionIdx]?.map SessionEntry.type with
  | some (.compaction firstKeptEntryId) => firstKeptEntryId
  | _ => ""

/-- The entries of the branch that the compaction at the index summarized. -/
def summarizedBranchIds (branch : List SessionEntry) (latestCompactionIdx : Nat) : List String :=
  let firstKept := firstKeptEntryId branch latestCompactionIdx
  ((branch.take latestCompactionIdx).takeWhile fun entry =>
    !(firstKept ≠ "" && entry.id = firstKept)).map SessionEntry.id

def addMessage (summarized : List String) (removedIds : List String) (entry : SessionEntry) :
    List String :=
  if summarized.contains entry.id && entry.type = .message then
    OrderedSet.add removedIds entry.id
  else removedIds

/-- A label or branch summary of what is removed goes with it. -/
def addReference (removedIds : List String) (entry : SessionEntry) : List String :=
  match entry.type with
  | .label targetId =>
    if removedIds.contains targetId then OrderedSet.add removedIds entry.id else removedIds
  | .branch_summary =>
    match entry.parentId with
    | some parentId =>
      if removedIds.contains parentId then OrderedSet.add removedIds entry.id else removedIds
    | none => removedIds
  | _ => removedIds

def removedIds (allEntries : List SessionEntry) (summarized : List String) : List String :=
  allEntries.foldl addReference (allEntries.foldl (addMessage summarized) [])

-- ---
-- What is kept
-- ---

/-- A later entry of the same id replaces an earlier one. -/
def entryById (allEntries : List SessionEntry) (id : String) : Option SessionEntry :=
  allEntries.reverse.find? fun entry => entry.id = id

/-- The walk to the nearest kept ancestor, in at most `fuel` steps. -/
def newParentId (allEntries : List SessionEntry) (removedIds : List String) (fuel : Nat)
    (parentId : Option String) : Option (Option String) :=
  Loop.rounds
    (Lineage.climb removedIds.contains fun id =>
      (entryById allEntries id).map SessionEntry.parentId)
    fuel parentId

def keptEntries (allEntries : List SessionEntry) (removedIds : List String) (fuel : Nat) :
    Option (List SessionEntry) :=
  (allEntries.filter fun entry => !removedIds.contains entry.id).mapM fun entry =>
    (newParentId allEntries removedIds fuel entry.parentId).map fun parentId =>
      { entry with parentId }

inductive TruncationResult where
  | unchanged (reason : String)
  | truncated (keptEntries : List SessionEntry) (entriesRemoved : Nat)

/-- `none` where a walk needs more than `fuel` steps. -/
def truncateSessionAfterCompaction (branch allEntries : List SessionEntry) (fuel : Nat) :
    Option TruncationResult :=
  if branch.length = 0 then some (.unchanged "empty session")
  else match latestCompactionIdx branch with
    | none => some (.unchanged "no compaction entry found")
    | some 0 => some (.unchanged "compaction already at root")
    | some (idx + 1) =>
      let removed := removedIds allEntries (summarizedBranchIds branch (idx + 1))
      if removed.length = 0 then some (.unchanged "no entries to remove")
      else (keptEntries allEntries removed fuel).map (.truncated · removed.length)

end OpenClaw.Agents.SessionTruncation

/-!
# What a truncation keeps

The entries of a session form a forest. Those that a truncation keeps form the forest
that is left when the others are taken out of it: their lineages are the old ones
without the entries taken out.
-/

namespace OpenClaw.Agents.SessionTruncation

variable {id : String}

-- ---
-- Sessions
-- ---

def parentOf (entries : List SessionEntry) (id : String) : Option (Option String) :=
  (entryById entries id).map SessionEntry.parentId

/-- Entries whose parents lead up to a root. -/
structure Forest (entries : List SessionEntry) : Prop where
  ids : (entries.map SessionEntry.id).Nodup
  rooted : ∀ e ∈ entries, ∃ chain, Lineage (parentOf entries) e.parentId chain

/-- The entries from a root to a leaf. -/
structure ActiveBranch (entries branch : List SessionEntry) : Prop where
  mem : ∀ e ∈ branch, e ∈ entries
  path : Lineage (parentOf entries) (branch.getLast?.map SessionEntry.id)
    (branch.map SessionEntry.id).reverse

theorem entryById_of_mem {entries : List SessionEntry}
    (hids : (entries.map SessionEntry.id).Nodup) (he : e ∈ entries) :
    entryById entries e.id = some e := by
  have hmem : e ∈ entries.reverse := List.mem_reverse.mpr he
  cases h : entryById entries e.id with
  | none =>
    have := List.find?_eq_none.mp h e hmem
    simp at this
  | some e' =>
    have hid : e'.id = e.id := by simpa using List.find?_some h
    have he' : e' ∈ entries := List.mem_reverse.mp (List.mem_of_find?_eq_some h)
    rw [List.inj_on_of_nodup_map hids he' he hid]

theorem mem_of_entryById {entries : List SessionEntry} (h : entryById entries id = some e) :
    e ∈ entries ∧ e.id = id :=
  ⟨List.mem_reverse.mp (List.mem_of_find?_eq_some h), by simpa using List.find?_some h⟩

/-- What stands in a lineage is the id of an entry. -/
theorem mem_ids_of_lineage {entries : List SessionEntry}
    (h : Lineage (parentOf entries) start chain) (hid : id ∈ chain) :
    id ∈ entries.map SessionEntry.id := by
  obtain ⟨parent, hparent⟩ := h.parentOf_of_mem hid
  obtain ⟨e, he, -⟩ := Option.map_eq_some_iff.mp hparent
  obtain ⟨hmem, rfl⟩ := mem_of_entryById he
  exact List.mem_map_of_mem hmem

theorem length_lineage {entries : List SessionEntry}
    (h : Lineage (parentOf entries) start chain) : chain.length ≤ entries.length := by
  have := (List.subperm_of_subset h.nodup fun _ hid => mem_ids_of_lineage h hid).length_le
  simpa using this

-- ---
-- What is removed
-- ---

/-- The entry refers to an id of the list. -/
def RefersTo (ids : List String) (e : SessionEntry) : Prop :=
  (∃ targetId, e.type = .label targetId ∧ targetId ∈ ids) ∨
    e.type = .branch_summary ∧ ∃ parentId, e.parentId = some parentId ∧ parentId ∈ ids

theorem RefersTo.mono {ids ids' : List String} {e : SessionEntry} (h : RefersTo ids e)
    (hsub : ∀ id ∈ ids, id ∈ ids') : RefersTo ids' e := by
  rcases h with ⟨targetId, htype, hmem⟩ | ⟨htype, parentId, hparent, hmem⟩
  · exact .inl ⟨targetId, htype, hsub _ hmem⟩
  · exact .inr ⟨htype, parentId, hparent, hsub _ hmem⟩

theorem addReference_of_refersTo {ids : List String} {e : SessionEntry} (h : RefersTo ids e) :
    addReference ids e = OrderedSet.add ids e.id := by
  rcases h with ⟨targetId, htype, hmem⟩ | ⟨htype, parentId, hparent, hmem⟩
  · simp [addReference, htype, hmem]
  · simp [addReference, htype, hparent, hmem]

theorem addReference_of_not_refersTo {ids : List String} {e : SessionEntry}
    (h : ¬ RefersTo ids e) : addReference ids e = ids := by
  unfold addReference
  split
  · rename_i targetId htype
    rw [if_neg]
    intro hmem
    exact h (.inl ⟨targetId, htype, by simpa using hmem⟩)
  · rename_i htype
    split
    · rename_i parentId hparent
      rw [if_neg]
      intro hmem
      exact h (.inr ⟨htype, parentId, hparent, by simpa using hmem⟩)
    · rfl
  · rfl

theorem mem_addReference {ids : List String} {e : SessionEntry} :
    id ∈ addReference ids e ↔ id ∈ ids ∨ id = e.id ∧ RefersTo ids e := by
  by_cases h : RefersTo ids e
  · rw [addReference_of_refersTo h, OrderedSet.mem_add, and_iff_left h]
  · rw [addReference_of_not_refersTo h, or_iff_left (fun h' => h h'.2)]

theorem subset_foldl_addReference (entries : List SessionEntry) (ids : List String)
    (h : id ∈ ids) : id ∈ entries.foldl addReference ids := by
  induction entries generalizing ids with
  | nil => exact h
  | cons e entries ih => exact ih _ (mem_addReference.mpr (.inl h))

/-- What is added on the way is an entry that refers to what was added before. -/
theorem mem_foldl_addReference (entries : List SessionEntry) (ids : List String)
    (h : id ∈ entries.foldl addReference ids) :
    id ∈ ids ∨ ∃ e ∈ entries, e.id = id ∧ RefersTo (entries.foldl addReference ids) e := by
  induction entries generalizing ids with
  | nil => exact .inl h
  | cons e entries ih =>
    rcases ih _ h with hmem | ⟨e', he', hid, hrefers⟩
    · rcases mem_addReference.mp hmem with hmem | ⟨rfl, hrefers⟩
      · exact .inl hmem
      · refine .inr ⟨e, List.mem_cons_self, rfl, hrefers.mono fun id hid => ?_⟩
        exact subset_foldl_addReference entries _ (mem_addReference.mpr (.inl hid))
    · exact .inr ⟨e', List.mem_cons_of_mem _ he', hid, hrefers⟩

theorem mem_foldl_addMessage (summarized : List String) (entries : List SessionEntry)
    (ids : List String) :
    id ∈ entries.foldl (addMessage summarized) ids ↔
      id ∈ ids ∨ ∃ e ∈ entries, e.id = id ∧ id ∈ summarized ∧ e.type = .message := by
  induction entries generalizing ids with
  | nil => simp
  | cons e entries ih =>
    rw [List.foldl_cons, ih]
    have hadd : id ∈ addMessage summarized ids e ↔
        id ∈ ids ∨ e.id = id ∧ id ∈ summarized ∧ e.type = .message := by
      unfold addMessage
      split
      · rename_i h
        simp only [Bool.and_eq_true, List.contains_iff_mem, decide_eq_true_eq] at h
        rw [OrderedSet.mem_add]
        constructor
        · rintro (hmem | rfl)
          · exact .inl hmem
          · exact .inr ⟨rfl, h⟩
        · rintro (hmem | ⟨rfl, -⟩)
          · exact .inl hmem
          · exact .inr rfl
      · rename_i h
        refine (or_iff_left ?_).symm
        rintro ⟨rfl, hsummarized, htype⟩
        simp [hsummarized, htype] at h
    rw [hadd]
    simp [or_assoc]

theorem mem_removedIds {entries : List SessionEntry} {summarized : List String}
    (h : id ∈ removedIds entries summarized) :
    (∃ e ∈ entries, e.id = id ∧ id ∈ summarized ∧ e.type = .message) ∨
      ∃ e ∈ entries, e.id = id ∧ RefersTo (removedIds entries summarized) e := by
  refine (mem_foldl_addReference entries _ h).imp_left fun hmessage => ?_
  simpa using (mem_foldl_addMessage summarized entries []).mp hmessage

theorem mem_ids_of_mem_removedIds {entries : List SessionEntry} {summarized : List String}
    (h : id ∈ removedIds entries summarized) : id ∈ entries.map SessionEntry.id := by
  rcases mem_removedIds h with ⟨e, he, rfl, -⟩ | ⟨e, he, rfl, -⟩
  · exact List.mem_map_of_mem he
  · exact List.mem_map_of_mem he

/-- A label that stays though its target goes stands in front of it in the file. -/
theorem label_before_target {entries : List SessionEntry} {summarized : List String}
    {l : SessionEntry} {targetId : String} (hl : l ∈ entries) (htype : l.type = .label targetId)
    (hkept : l.id ∉ removedIds entries summarized)
    (htarget : targetId ∈ removedIds entries summarized) :
    ∃ before after, entries = before ++ l :: after ∧
      ∃ t ∈ after, t.id = targetId ∧ t.type ≠ .message := by
  obtain ⟨before, after, rfl⟩ := List.append_of_mem hl
  refine ⟨before, after, rfl, ?_⟩
  generalize hfirst : (before ++ l :: after).foldl (addMessage summarized) [] = first at *
  rw [removedIds, hfirst, List.foldl_append, List.foldl_cons] at hkept htarget
  have hnot : targetId ∉ before.foldl addReference first := by
    intro hmem
    refine hkept (subset_foldl_addReference _ _ (mem_addReference.mpr (.inr ⟨rfl, ?_⟩)))
    exact .inl ⟨targetId, htype, hmem⟩
  have hnot' : ¬ RefersTo (before.foldl addReference first) l := by
    rintro (⟨targetId', htype', hmem⟩ | ⟨htype', -⟩)
    · rw [htype] at htype'
      cases htype'
      exact hnot hmem
    · rw [htype] at htype'
      cases htype'
  rw [addReference_of_not_refersTo hnot'] at htarget
  obtain ⟨t, ht, hid, hrefers⟩ := (mem_foldl_addReference _ _ htarget).resolve_left hnot
  refine ⟨t, ht, hid, ?_⟩
  rcases hrefers with ⟨_, htype, -⟩ | ⟨htype, -⟩ <;> simp [htype]

-- ---
-- What is kept
-- ---

section Kept

variable {entries kept : List SessionEntry} {removed : List String}

theorem newParentId_eq (h : Lineage (parentOf entries) start chain)
    (hfuel : entries.length < fuel) :
    newParentId entries removed fuel start =
      some (Lineage.nearest removed.contains chain) :=
  Lineage.rounds_climb h (Nat.lt_of_le_of_lt (length_lineage h) hfuel)

theorem mapM_eq_some_map {f : α → Option β} {g : α → β} {l : List α}
    (h : ∀ a ∈ l, f a = some (g a)) : l.mapM f = some (l.map g) := by
  induction l with
  | nil => rfl
  | cons a l ih =>
    rw [List.mapM_cons, h a List.mem_cons_self, ih fun b hb => h b (List.mem_cons_of_mem _ hb)]
    rfl

/-- The entry below the nearest of its ancestors that stays. -/
def reparented (entries : List SessionEntry) (removed : List String) (fuel : Nat)
    (entry : SessionEntry) : SessionEntry :=
  { entry with parentId := (newParentId entries removed fuel entry.parentId).getD none }

theorem keptEntries_eq (hforest : Forest entries) (hfuel : entries.length < fuel) :
    keptEntries entries removed fuel =
      some ((entries.filter fun entry => !removed.contains entry.id).map
        (reparented entries removed fuel)) := by
  refine mapM_eq_some_map fun e he => ?_
  obtain ⟨chain, hchain⟩ := hforest.rooted e (List.mem_filter.mp he).1
  simp [reparented, newParentId_eq hchain hfuel]

/-- What the forest knows of the kept entries. -/
structure KeptFrom (entries : List SessionEntry) (removed : List String)
    (kept : List SessionEntry) : Prop where
  mem_ids : ∀ e ∈ entries, e.id ∈ kept.map SessionEntry.id ↔ e.id ∉ removed
  kept : ∀ e ∈ kept, ∃ old ∈ entries, old.id ∉ removed ∧ e = { old with parentId := e.parentId } ∧
    ∀ chain, Lineage (parentOf entries) old.parentId chain →
      Lineage (parentOf kept) e.parentId (chain.filter fun id => !removed.contains id)

theorem ids_reparented (l : List SessionEntry) :
    (l.map (reparented entries removed fuel)).map SessionEntry.id = l.map SessionEntry.id := by
  rw [List.map_map]
  rfl

theorem parentOf_kept (hforest : Forest entries) (hfuel : entries.length < fuel)
    (hkept : keptEntries entries removed fuel = some kept) (hid : removed.contains id = false)
    (hparent : parentOf entries id = some parent)
    (habove : Lineage (parentOf entries) parent above) :
    parentOf kept id = some (Lineage.nearest removed.contains above) := by
  rw [keptEntries_eq hforest hfuel] at hkept
  obtain rfl := Option.some.inj hkept
  obtain ⟨e, he, rfl⟩ := Option.map_eq_some_iff.mp hparent
  obtain ⟨hmem, rfl⟩ := mem_of_entryById he
  have hstays : e ∈ entries.filter fun entry => !removed.contains entry.id :=
    List.mem_filter.mpr ⟨hmem, by simpa using hid⟩
  have hids : (((entries.filter fun entry => !removed.contains entry.id).map
      (reparented entries removed fuel)).map SessionEntry.id).Nodup := by
    rw [ids_reparented]
    exact hforest.ids.sublist (List.filter_sublist.map _)
  have := entryById_of_mem hids (List.mem_map_of_mem hstays)
  rw [parentOf, show e.id = (reparented entries removed fuel e).id from rfl, this, Option.map_some,
    reparented, newParentId_eq habove hfuel, Option.getD_some]

theorem keptFrom (hforest : Forest entries) (hfuel : entries.length < fuel)
    (hkept : keptEntries entries removed fuel = some kept) : KeptFrom entries removed kept := by
  have heq := hkept
  rw [keptEntries_eq hforest hfuel] at heq
  have hkept' := Option.some.inj heq
  refine ⟨fun e he => ?_, fun e he => ?_⟩
  · rw [← hkept', ids_reparented]
    constructor
    · intro hmem
      obtain ⟨e', he', hid⟩ := List.mem_map.mp hmem
      have := (List.mem_filter.mp he').2
      simpa [hid] using this
    · intro hid
      exact List.mem_map_of_mem (List.mem_filter.mpr ⟨he, by simp [hid]⟩)
  · rw [← hkept'] at he
    obtain ⟨old, hold, rfl⟩ := List.mem_map.mp he
    obtain ⟨hmem, hstays⟩ := List.mem_filter.mp hold
    refine ⟨old, hmem, by simpa using hstays, rfl, fun chain hchain => ?_⟩
    have hlineage : Lineage (parentOf kept) (Lineage.nearest removed.contains chain)
        (chain.filter (!removed.contains ·)) :=
      hchain.filter fun id parent above => parentOf_kept hforest hfuel hkept
    simpa [reparented, newParentId_eq hchain hfuel] using hlineage

end Kept

end OpenClaw.Agents.SessionTruncation
