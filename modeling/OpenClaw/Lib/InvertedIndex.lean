import OpenClaw.Lib.Members
import OpenClaw.Lib.OrderedSet

/-!
# Inverted indexes

A table of items, and an index from the keys of the items to their ids, which is
kept up to date key by key.
-/

namespace OpenClaw.InvertedIndex

open Members OrderedSet

variable {κ ι α : Type} [DecidableEq κ] [BEq κ] [LawfulBEq κ] [DecidableEq ι]

abbrev Index (κ ι : Type) := List (κ × List ι)

variable {index : Index κ ι} {key key' : κ} {id id' : ι} {keys : List κ}

omit [DecidableEq κ] [LawfulBEq κ] [DecidableEq ι] in
/-- The ids under a key. -/
def bucket (index : Index κ ι) (key : κ) : List ι := (index.lookup key).getD []

def add (index : Index κ ι) (key : κ) (id : ι) : Index κ ι := assign index key (OrderedSet.add (bucket index key) id)

/-- A bucket goes with its last id. -/
def delete (index : Index κ ι) (key : κ) (id : ι) : Index κ ι :=
  match index.lookup key with
  | none => index
  | some ids =>
    let ids := ids.filter (· ≠ id)
    if ids.length = 0 then remove index key else assign index key ids

def addAll (index : Index κ ι) (keys : List κ) (id : ι) : Index κ ι := keys.foldl (add · · id) index

def deleteAll (index : Index κ ι) (keys : List κ) (id : ι) : Index κ ι := keys.foldl (delete · · id) index

/-- The index of a table, from nothing. -/
def build (keysOf : α → List κ) (items : List (ι × α)) : Index κ ι :=
  items.foldl (fun index item => addAll index (keysOf item.2) item.1) []

-- ---
-- Buckets
-- ---

theorem bucket_add (index : Index κ ι) (key key' : κ) (id : ι) :
    bucket (add index key id) key' = if key' = key then OrderedSet.add (bucket index key) id else bucket index key' := by
  unfold add
  rw [bucket, lookup_assign]
  split <;> rfl

theorem bucket_delete (index : Index κ ι) (key key' : κ) (id : ι) :
    bucket (delete index key id) key' = if key' = key then (bucket index key).filter (· ≠ id) else bucket index key' := by
  unfold delete
  cases hlookup : index.lookup key with
  | none =>
    have hempty : bucket index key = [] := by rw [bucket, hlookup]; rfl
    by_cases hkey : key' = key
    · rw [if_pos hkey, hkey, hempty]
      rfl
    · rw [if_neg hkey]
  | some ids =>
    have hids : bucket index key = ids := by rw [bucket, hlookup]; rfl
    dsimp only
    rw [hids]
    split
    case isTrue hnone =>
      rw [bucket, lookup_remove, List.length_eq_zero_iff.1 hnone]
      split <;> rfl
    case isFalse =>
      rw [bucket, lookup_assign]
      split <;> rfl

theorem mem_bucket_add : id' ∈ bucket (add index key id) key' ↔ id' ∈ bucket index key' ∨ (key' = key ∧ id' = id) := by
  rw [bucket_add]
  split
  case isTrue hkey => simp [hkey]
  case isFalse hkey => simp [hkey]

theorem mem_bucket_delete :
    id' ∈ bucket (delete index key id) key' ↔ id' ∈ bucket index key' ∧ ¬ (key' = key ∧ id' = id) := by
  rw [bucket_delete]
  split
  case isTrue hkey => simp [hkey]
  case isFalse hkey => simp [hkey]

theorem mem_bucket_addAll :
    id' ∈ bucket (addAll index keys id) key' ↔ id' ∈ bucket index key' ∨ (key' ∈ keys ∧ id' = id) := by
  induction keys generalizing index with
  | nil => simp [addAll]
  | cons key keys ih =>
    rw [addAll, List.foldl_cons, ← addAll, ih, mem_bucket_add, List.mem_cons, or_and_right, or_assoc]

theorem mem_bucket_deleteAll :
    id' ∈ bucket (deleteAll index keys id) key' ↔ id' ∈ bucket index key' ∧ ¬ (key' ∈ keys ∧ id' = id) := by
  induction keys generalizing index with
  | nil => simp [deleteAll]
  | cons key keys ih =>
    rw [deleteAll, List.foldl_cons, ← deleteAll, ih, mem_bucket_delete, List.mem_cons, or_and_right, not_or, and_assoc]

-- ---
-- Sound indexes
-- ---

/-- Every key has one bucket, which holds an id, and each id once. -/
structure Sound (index : Index κ ι) : Prop where
  keys : (index.map Prod.fst).Nodup
  buckets : ∀ entry ∈ index, entry.2 ≠ [] ∧ entry.2.Nodup

omit [DecidableEq κ] [BEq κ] [LawfulBEq κ] [DecidableEq ι] in
theorem Sound.nil : Sound ([] : Index κ ι) := ⟨List.nodup_nil, by simp⟩

omit [DecidableEq κ] [DecidableEq ι] in
theorem Sound.nodup_bucket (h : Sound index) (key : κ) : (bucket index key).Nodup := by
  unfold bucket
  cases hlookup : index.lookup key with
  | none => exact List.nodup_nil
  | some ids => exact (h.buckets _ (mem_of_lookup hlookup)).2

omit [BEq κ] [LawfulBEq κ] [DecidableEq ι] in
theorem Sound.assign {ids : List ι} (h : Sound index) (hne : ids ≠ []) (hnodup : ids.Nodup) :
    Sound (Members.assign index key ids) := by
  refine ⟨nodup_assign h.keys key ids, fun entry hentry => ?_⟩
  rcases mem_assign hentry with hold | rfl
  · exact h.buckets entry hold
  · exact ⟨hne, hnodup⟩

omit [BEq κ] [LawfulBEq κ] [DecidableEq ι] in
theorem Sound.remove (h : Sound index) (key : κ) : Sound (Members.remove index key) :=
  ⟨nodup_remove h.keys key, fun entry hentry => h.buckets entry (List.mem_of_mem_filter hentry)⟩

theorem Sound.add (h : Sound index) (key : κ) (id : ι) : Sound (add index key id) := by
  refine h.assign (List.ne_nil_of_mem (a := id) ?_) (nodup_add (h.nodup_bucket key) id)
  simp

theorem Sound.delete (h : Sound index) (key : κ) (id : ι) : Sound (delete index key id) := by
  unfold InvertedIndex.delete
  split
  · exact h
  case h_2 ids hlookup =>
    dsimp only
    split
    · exact h.remove key
    case isFalse hsome =>
      refine h.assign (fun hnil => hsome (List.length_eq_zero_iff.2 hnil)) (List.Nodup.filter _ ?_)
      exact (h.buckets _ (mem_of_lookup hlookup)).2

theorem Sound.addAll (h : Sound index) (keys : List κ) (id : ι) : Sound (addAll index keys id) := by
  induction keys generalizing index with
  | nil => exact h
  | cons key keys ih => exact ih (h.add key id)

theorem Sound.deleteAll (h : Sound index) (keys : List κ) (id : ι) : Sound (deleteAll index keys id) := by
  induction keys generalizing index with
  | nil => exact h
  | cons key keys ih => exact ih (h.delete key id)

-- ---
-- Exact indexes
-- ---

variable [BEq ι] [LawfulBEq ι] {keysOf : α → List κ} {items : List (ι × α)}

/-- Under each key stand the ids of the items that have it, and no others. -/
structure Exact (keysOf : α → List κ) (items : List (ι × α)) (index : Index κ ι) : Prop where
  sound : Sound index
  mem : ∀ key id, id ∈ bucket index key ↔ ∃ item, items.lookup id = some item ∧ key ∈ keysOf item

omit [BEq ι] [LawfulBEq ι] in
theorem sound_build (keysOf : α → List κ) (items : List (ι × α)) : Sound (build keysOf items) := by
  suffices h : ∀ index : Index κ ι, Sound index →
      Sound (items.foldl (fun index item => addAll index (keysOf item.2) item.1) index) from h [] .nil
  induction items with
  | nil => exact fun _ h => h
  | cons item items ih => exact fun _ h => ih _ (h.addAll _ _)

omit [BEq ι] [LawfulBEq ι] in
theorem mem_bucket_build (keysOf : α → List κ) (items : List (ι × α)) :
    id ∈ bucket (build keysOf items) key ↔ ∃ item, (id, item) ∈ items ∧ key ∈ keysOf item := by
  suffices h : ∀ index : Index κ ι,
      id ∈ bucket (items.foldl (fun index item => addAll index (keysOf item.2) item.1) index) key ↔
        id ∈ bucket index key ∨ ∃ item, (id, item) ∈ items ∧ key ∈ keysOf item by simpa [build, bucket] using h []
  induction items with
  | nil => simp
  | cons item items ih =>
    intro index
    rw [List.foldl_cons, ih, mem_bucket_addAll, or_assoc]
    obtain ⟨itemId, item⟩ := item
    constructor
    · rintro (h | ⟨hkey, rfl⟩ | ⟨other, hother, hkey⟩)
      · exact .inl h
      · exact .inr ⟨item, List.mem_cons_self, hkey⟩
      · exact .inr ⟨other, List.mem_cons_of_mem _ hother, hkey⟩
    · rintro (h | ⟨other, hother, hkey⟩)
      · exact .inl h
      · rcases List.mem_cons.1 hother with heq | hother
        · cases heq
          exact .inr (.inl ⟨hkey, rfl⟩)
        · exact .inr (.inr ⟨other, hother, hkey⟩)

theorem exact_build (keysOf : α → List κ) (hnodup : (items.map Prod.fst).Nodup) :
    Exact keysOf items (build keysOf items) := by
  refine ⟨sound_build keysOf items, fun key id => ?_⟩
  rw [mem_bucket_build]
  constructor
  · rintro ⟨item, hitem, hkey⟩
    exact ⟨item, lookup_of_mem hnodup hitem, hkey⟩
  · rintro ⟨item, hitem, hkey⟩
    exact ⟨item, mem_of_lookup hitem, hkey⟩

omit [DecidableEq κ] [DecidableEq ι] [LawfulBEq ι] in
/-- Two exact indexes of a table hold the same ids under every key. -/
theorem Exact.perm {index' : Index κ ι} (h : Exact keysOf items index) (h' : Exact keysOf items index') (key : κ) :
    (bucket index key).Perm (bucket index' key) := by
  refine (List.perm_ext_iff_of_nodup (h.sound.nodup_bucket key) (h'.sound.nodup_bucket key)).2 fun id => ?_
  rw [h.mem, h'.mem]

theorem Exact.insert (h : Exact keysOf items index) (hfresh : items.lookup id = none) (item : α) :
    Exact keysOf (Members.assign items id item) (InvertedIndex.addAll index (keysOf item) id) := by
  refine ⟨h.sound.addAll _ _, fun key' id' => ?_⟩
  rw [mem_bucket_addAll, h.mem]
  simp only [lookup_assign]
  by_cases hid : id' = id
  · simp [hid, hfresh]
  · simp [hid]

omit [DecidableEq κ] [LawfulBEq κ] in
/-- The item under an id replaced by one that has the same keys. -/
theorem Exact.replace (h : Exact keysOf items index) (hold : items.lookup id = some old)
    (hkeys : ∀ key, key ∈ keysOf new ↔ key ∈ keysOf old) : Exact keysOf (Members.assign items id new) index := by
  refine ⟨h.sound, fun key' id' => ?_⟩
  rw [h.mem]
  simp only [lookup_assign]
  by_cases hid : id' = id
  · simp [hid, hold, hkeys]
  · simp [hid]

/-- The item under an id replaced, with its old keys taken out and its new ones put in. -/
theorem Exact.rekey (h : Exact keysOf items index) (hold : items.lookup id = some old) (new : α) :
    Exact keysOf (Members.assign items id new)
      (InvertedIndex.addAll (InvertedIndex.deleteAll index (keysOf old) id) (keysOf new) id) := by
  refine ⟨(h.sound.deleteAll _ _).addAll _ _, fun key' id' => ?_⟩
  rw [mem_bucket_addAll, mem_bucket_deleteAll, h.mem]
  simp only [lookup_assign]
  by_cases hid : id' = id
  · simp [hid, hold]
  · simp [hid]

theorem Exact.erase (h : Exact keysOf items index) (hold : items.lookup id = some old) :
    Exact keysOf (Members.remove items id) (InvertedIndex.deleteAll index (keysOf old) id) := by
  refine ⟨h.sound.deleteAll _ _, fun key' id' => ?_⟩
  rw [mem_bucket_deleteAll, h.mem]
  simp only [lookup_remove]
  by_cases hid : id' = id
  · simp [hid, hold]
  · simp [hid]

end OpenClaw.InvertedIndex
