import OpenClaw.Config.MergePatch

/-!
# The three-way merge

What the patch between two configs does to a third, member by member and then
along any path.
-/

namespace OpenClaw.Config

open Js (Text)
open Members

-- ---
-- Members
-- ---

theorem sizeOf_lookup {fields : Fields} (h : fields.lookup key = some value) : sizeOf value < sizeOf fields := by
  have hlt := List.sizeOf_lt_of_mem (mem_of_lookup h)
  simp only [Prod.mk.sizeOf_spec] at hlt
  omega

theorem sizeOf_member {value child : ConfigValue} (h : value.member key = some child) :
    sizeOf child < sizeOf value := by
  cases value with
  | obj fields =>
    have hlt := sizeOf_lookup h
    simp only [ConfigValue.obj.sizeOf_spec]
    omega
  | _ => cases h

/-- Induction over the members of a value. -/
theorem ConfigValue.memberInduction {motive : ConfigValue → Prop}
    (step : ∀ value : ConfigValue, (∀ key child, value.member key = some child → motive child) → motive value)
    (value : ConfigValue) : motive value :=
  step value fun _ child h =>
    have := sizeOf_member h
    memberInduction step child
termination_by sizeOf value

theorem PlainFields.lookup {fields : Fields} (h : PlainFields fields)
    (hvalue : fields.lookup key = some value) : value.Plain := by
  induction fields with
  | nil => cases hvalue
  | cons field fields ih =>
    rw [lookup_cons] at hvalue
    split at hvalue
    case isTrue =>
      cases hvalue
      exact h.1
    case isFalse => exact ih h.2 hvalue

theorem MergeableFields.lookup {fields : Fields} (h : MergeableFields fields)
    (hvalue : fields.lookup key = some value) :
    isBlockedObjectKey key = false ∧ value ≠ .null ∧ value.Mergeable := by
  induction fields with
  | nil => cases hvalue
  | cons field fields ih =>
    obtain ⟨hblocked, hnull, hfield, hfields⟩ := h
    rw [lookup_cons] at hvalue
    split at hvalue
    case isTrue heq =>
      cases hvalue
      exact ⟨heq ▸ hblocked, hnull, hfield⟩
    case isFalse => exact ih hfields hvalue

-- ---
-- Equality
-- ---

theorem fieldsEqual_iff {left right : Fields} :
    fieldsEqual left right = true ↔
      ∀ field ∈ left, ∃ value, right.lookup field.1 = some value ∧ field.2.isDeepStrictEqual value = true := by
  induction left with
  | nil => simp [fieldsEqual]
  | cons field left ih =>
    obtain ⟨key, value⟩ := field
    rw [fieldsEqual, Bool.and_eq_true, ih, List.forall_mem_cons]
    refine and_congr_left fun _ => ?_
    cases right.lookup key <;> simp

theorem isDeepStrictEqual_obj_iff {left right : Fields} (hleft : (left.map Prod.fst).Nodup)
    (hright : (right.map Prod.fst).Nodup) :
    (ConfigValue.obj left).isDeepStrictEqual (.obj right) = true ↔
      ∀ key, Agree (left.lookup key) (right.lookup key) := by
  rw [ConfigValue.isDeepStrictEqual, Bool.and_eq_true, decide_eq_true_iff, fieldsEqual_iff]
  exact rel_lookup_iff (r := fun a b : ConfigValue => a.isDeepStrictEqual b = true) hleft hright

mutual
theorem isDeepStrictEqual_refl : ∀ value : ConfigValue, value.Plain → value.isDeepStrictEqual value = true
  | .undefined, _ | .null, _ => rfl
  | .bool _, _ | .num _, _ | .str _, _ => by simp [ConfigValue.isDeepStrictEqual]
  | .arr items, h => itemsEqual_refl items h
  | .obj fields, h => by
    rw [ConfigValue.isDeepStrictEqual, fieldsEqual_iff.2]
    · simp
    · rintro ⟨key, value⟩ hmem
      exact ⟨value, lookup_of_mem h.1 hmem, fieldsEqual_refl fields h.2.2 _ hmem⟩
theorem itemsEqual_refl : ∀ items : List ConfigValue, PlainItems items → itemsEqual items items = true
  | [], _ => rfl
  | item :: items, h => by
    rw [itemsEqual, isDeepStrictEqual_refl item h.1, itemsEqual_refl items h.2]
    rfl
theorem fieldsEqual_refl : ∀ fields : Fields, PlainFields fields →
    ∀ field ∈ fields, field.2.isDeepStrictEqual field.2 = true
  | [], _, _, hmem => by cases hmem
  | (key, value) :: fields, h, field, hmem => by
    rcases List.mem_cons.1 hmem with rfl | hmem
    · exact isDeepStrictEqual_refl value h.1
    · exact fieldsEqual_refl fields h.2 field hmem
end

@[simp] theorem agree_none : Agree none none := .none

@[simp] theorem agree_some : Agree (some a) (some b) ↔ a.isDeepStrictEqual b = true :=
  Option.rel_some_some

@[simp] theorem not_agree_none_some : ¬ Agree none (some b) := nofun

@[simp] theorem not_agree_some_none : ¬ Agree (some a) none := nofun

/-- Equal values agree on each member. -/
theorem agree_member {a b : ConfigValue} (ha : a.Plain) (hb : b.Plain) (h : a.isDeepStrictEqual b = true)
    (key : Text) : Agree (a.member key) (b.member key) := by
  cases a with
  | obj left =>
    cases b with
    | obj right => exact (isDeepStrictEqual_obj_iff ha.1 hb.1).1 h key
    | _ => cases h
  | _ =>
    cases b with
    | obj right => cases h
    | _ => exact .none

-- ---
-- The patch of a member
-- ---

/-- What a patch has for a member, by its values in the two objects. -/
inductive MemberPatch : Option ConfigValue → Option ConfigValue → Option ConfigValue → Prop
  | absent : MemberPatch none none none
  | removed : MemberPatch (some baseValue) none (some .null)
  | added : MemberPatch none (some targetValue) (some targetValue)
  | same (hvalue : (baseValue.isPlainObject && targetValue.isPlainObject) = false)
      (hequal : baseValue.isDeepStrictEqual targetValue = true) :
      MemberPatch (some baseValue) (some targetValue) none
  | replaced (hvalue : (baseValue.isPlainObject && targetValue.isPlainObject) = false)
      (hdiffer : baseValue.isDeepStrictEqual targetValue = false) :
      MemberPatch (some baseValue) (some targetValue) (some targetValue)
  | sameChild (hbase : baseValue.isPlainObject = true) (htarget : targetValue.isPlainObject = true)
      (hpatch : createMergePatch baseValue targetValue = some (.obj [])) :
      MemberPatch (some baseValue) (some targetValue) none
  | child (hbase : baseValue.isPlainObject = true) (htarget : targetValue.isPlainObject = true)
      (hpatch : createMergePatch baseValue targetValue = some patch) (hchanged : patch.isEmptyObject = false) :
      MemberPatch (some baseValue) (some targetValue) (some patch)

theorem isEmptyObject_iff {value : ConfigValue} : value.isEmptyObject = true ↔ value = .obj [] := by
  fun_cases ConfigValue.isEmptyObject value <;> simp_all

/-- One turn of the loop over the keys of `base`. -/
theorem patchMembers_cons {base target patch : Fields}
    (h : patchMembers ((key, baseValue) :: base) target = some patch) :
    ∃ rest member, patchMembers base target = some rest ∧ patch = (member.map (key, ·)).toList ++ rest ∧
      MemberPatch (some baseValue) (target.lookup key) member := by
  simp only [patchMembers, Option.bind_eq_bind, Option.bind_eq_some_iff] at h
  obtain ⟨rest, hrest, h⟩ := h
  refine ⟨rest, ?_⟩
  cases htarget : target.lookup key with
  | none =>
    rw [htarget] at h
    dsimp only at h
    split at h
    case isTrue => cases h
    case isFalse =>
      cases h
      exact ⟨some .null, hrest, rfl, .removed⟩
  | some targetValue =>
    rw [htarget] at h
    dsimp only at h
    split at h
    case isTrue hobjects =>
      obtain ⟨hbase, hobject⟩ := Bool.and_eq_true_iff.1 hobjects
      obtain ⟨childPatch, hchild, h⟩ := Option.bind_eq_some_iff.1 h
      cases hempty : childPatch.isEmptyObject with
      | true =>
        rw [if_pos hempty] at h
        cases h
        exact ⟨none, hrest, rfl, .sameChild hbase hobject (isEmptyObject_iff.1 hempty ▸ hchild)⟩
      | false =>
        rw [hempty] at h
        cases h
        exact ⟨some childPatch, hrest, rfl, .child hbase hobject hchild hempty⟩
    case isFalse hobjects =>
      have hvalue := Bool.eq_false_iff.2 hobjects
      cases hequal : baseValue.isDeepStrictEqual targetValue with
      | true =>
        rw [hequal] at h
        cases h
        exact ⟨none, hrest, rfl, .same hvalue hequal⟩
      | false =>
        rw [hequal] at h
        cases h
        exact ⟨some targetValue, hrest, rfl, .replaced hvalue hequal⟩

theorem patchMembers_keys {base target patch : Fields} (h : patchMembers base target = some patch) :
    (patch.map Prod.fst).Sublist (base.map Prod.fst) := by
  induction base generalizing patch with
  | nil =>
    cases h
    exact .slnil
  | cons field base ih =>
    obtain ⟨rest, member, hrest, rfl, -⟩ := patchMembers_cons h
    cases member with
    | none => exact (ih hrest).cons _
    | some member => exact (ih hrest).cons_cons _

theorem lookup_patchMembers {base target patch : Fields} (hnodup : (base.map Prod.fst).Nodup)
    (h : patchMembers base target = some patch) (hkey : key ∈ base.map Prod.fst) :
    MemberPatch (base.lookup key) (target.lookup key) (patch.lookup key) := by
  induction base generalizing patch with
  | nil => cases hkey
  | cons field base ih =>
    obtain ⟨hfresh, hnodup⟩ := List.nodup_cons.1 hnodup
    obtain ⟨rest, member, hrest, rfl, hmember⟩ := patchMembers_cons h
    rw [lookup_cons]
    by_cases heq : key = field.1
    · subst heq
      have hnone : rest.lookup field.1 = none :=
        lookup_eq_none.2 fun hmem => hfresh ((patchMembers_keys hrest).subset hmem)
      cases member with
      | none => simpa [hnone] using hmember
      | some member => simpa [lookup_cons] using hmember
    · rw [if_neg heq]
      have hkey : key ∈ base.map Prod.fst := (List.mem_cons.1 hkey).resolve_left heq
      cases member with
      | none => exact ih hnodup hrest hkey
      | some member => simpa [lookup_cons, heq] using ih hnodup hrest hkey

/-- The patch of two objects, member by member. -/
theorem createMergePatch_obj {base target : Fields} {patch : ConfigValue} (hbase : (base.map Prod.fst).Nodup)
    (htarget : (target.map Prod.fst).Nodup) (h : createMergePatch (.obj base) (.obj target) = some patch) :
    ∃ fields, patch = .obj fields ∧ (fields.map Prod.fst).Nodup ∧
      ∀ key, MemberPatch (base.lookup key) (target.lookup key) (fields.lookup key) := by
  simp only [createMergePatch, Option.bind_eq_bind, Option.bind_eq_some_iff] at h
  obtain ⟨changed, hchanged, h⟩ := h
  cases h
  refine ⟨_, rfl, ?_, fun key => ?_⟩
  · rw [List.map_append]
    refine List.Nodup.append (hbase.sublist (patchMembers_keys hchanged))
      (htarget.sublist (List.filter_sublist.map _)) fun key hkey hadded => ?_
    obtain ⟨field, hfield, rfl⟩ := List.mem_map.1 hadded
    exact absurd ((patchMembers_keys hchanged).subset hkey) (by simpa using (List.mem_filter.1 hfield).2)
  · rw [List.lookup_append, lookup_filter target (fun key => decide (key ∉ base.map Prod.fst))]
    by_cases hkey : key ∈ base.map Prod.fst
    · simpa [hkey] using lookup_patchMembers hbase hchanged hkey
    · rw [lookup_eq_none.2 hkey, lookup_eq_none.2 fun hmem => hkey ((patchMembers_keys hchanged).subset hmem)]
      rw [decide_eq_true hkey, if_pos rfl, Option.none_or]
      cases target.lookup key with
      | none => exact .absent
      | some targetValue => exact .added

-- ---
-- Applying a patch
-- ---

/-- What a member becomes. -/
def appliedMember (value : Option ConfigValue) : Option ConfigValue → Option ConfigValue
  | none => value
  | some .null => none
  | some patch => some (applyMergePatch (.obj (objectOrEmpty value)) patch)

theorem applyMergePatch_obj (result patch : Fields) :
    applyMergePatch (.obj result) (.obj patch) = .obj (applyMembers result patch) := by
  rw [applyMergePatch, objectOrEmpty]

theorem lookup_applyMember (result : Fields) (key key' : Text) (value : ConfigValue) :
    (applyMember result key value).lookup key' =
      if key' = key then appliedMember (result.lookup key) (some value) else result.lookup key' := by
  cases value with
  | null => rw [applyMember, lookup_remove, appliedMember]
  | obj patch =>
    rw [applyMember, lookup_assign, appliedMember, applyMergePatch_obj]
    nofun
  | _ => rw [applyMember, lookup_assign, appliedMember, applyMergePatch] <;> nofun

theorem nodup_applyMember {result : Fields} (h : (result.map Prod.fst).Nodup) (key : Text) (value : ConfigValue) :
    ((applyMember result key value).map Prod.fst).Nodup := by
  cases value with
  | null => exact nodup_remove h key
  | _ => exact nodup_assign h key _

theorem nodup_applyMembers {result : Fields} (h : (result.map Prod.fst).Nodup) (patch : Fields) :
    ((applyMembers result patch).map Prod.fst).Nodup := by
  induction patch generalizing result with
  | nil => exact h
  | cons field patch ih =>
    refine ih ?_
    split
    case isTrue => exact h
    case isFalse => exact nodup_applyMember h _ _

theorem lookup_applyMembers {patch : Fields} (hnodup : (patch.map Prod.fst).Nodup)
    (hblocked : ∀ key ∈ patch.map Prod.fst, isBlockedObjectKey key = false) (result : Fields) (key : Text) :
    (applyMembers result patch).lookup key = appliedMember (result.lookup key) (patch.lookup key) := by
  induction patch generalizing result with
  | nil => rfl
  | cons field patch ih =>
    obtain ⟨hfresh, hnodup⟩ := List.nodup_cons.1 hnodup
    obtain ⟨hfield, hblocked⟩ := List.forall_mem_cons.1 hblocked
    rw [applyMembers, hfield, ih hnodup hblocked, lookup_cons]
    simp only [Bool.false_eq_true, if_false, lookup_applyMember]
    split
    case isTrue heq =>
      rw [heq, lookup_eq_none.2 hfresh]
      rfl
    case isFalse => rfl

-- ---
-- Clean values
-- ---

structure ConfigValue.Clean (value : ConfigValue) : Prop where
  plain : value.Plain
  mergeable : value.Mergeable

def CleanMember (member : Option ConfigValue) : Prop := ∀ value, member = some value → value.Clean ∧ value ≠ .null

theorem CleanMember.none : CleanMember none := nofun

theorem ConfigValue.Clean.member {fields : Fields} (h : (ConfigValue.obj fields).Clean) (key : Text) :
    CleanMember (fields.lookup key) := fun _ hvalue =>
  have hmergeable := MergeableFields.lookup h.mergeable hvalue
  ⟨⟨PlainFields.lookup h.plain.2.2 hvalue, hmergeable.2.2⟩, hmergeable.2.1⟩

theorem ConfigValue.Clean.not_blocked {fields : Fields} (h : (ConfigValue.obj fields).Clean)
    (hkey : key ∈ fields.map Prod.fst) : isBlockedObjectKey key = false := by
  obtain ⟨value, hvalue⟩ := Option.isSome_iff_exists.1 (lookup_isSome_iff.2 hkey)
  exact (MergeableFields.lookup h.mergeable hvalue).1

/-- A patch that leads from one object to another. -/
structure PatchOf (base target patch : Fields) : Prop where
  nodup : (patch.map Prod.fst).Nodup
  not_blocked : ∀ key ∈ patch.map Prod.fst, isBlockedObjectKey key = false
  member : ∀ key, MemberPatch (base.lookup key) (target.lookup key) (patch.lookup key)

theorem createMergePatch_patchOf {base target : Fields} {patch : ConfigValue} (hbase : (ConfigValue.obj base).Clean)
    (htarget : (ConfigValue.obj target).Clean) (h : createMergePatch (.obj base) (.obj target) = some patch) :
    ∃ fields, patch = .obj fields ∧ PatchOf base target fields := by
  obtain ⟨fields, hpatch, hnodup, hmember⟩ := createMergePatch_obj hbase.plain.1 htarget.plain.1 h
  refine ⟨fields, hpatch, hnodup, fun key hkey => ?_, hmember⟩
  have hsome := lookup_isSome_iff.2 hkey
  cases hbaseKey : base.lookup key with
  | some baseValue => exact hbase.not_blocked (lookup_isSome_iff.1 (Option.isSome_iff_exists.2 ⟨_, hbaseKey⟩))
  | none =>
    cases htargetKey : target.lookup key with
    | some targetValue => exact htarget.not_blocked (lookup_isSome_iff.1 (Option.isSome_iff_exists.2 ⟨_, htargetKey⟩))
    | none =>
      have hfield := hmember key
      rw [hbaseKey, htargetKey] at hfield
      generalize fields.lookup key = member at hfield hsome
      cases hfield
      cases hsome

/-- An object is its own patch where there was none. -/
theorem patchOf_self {target : Fields} (h : (ConfigValue.obj target).Clean) : PatchOf [] target target := by
  refine ⟨h.plain.1, fun _ => h.not_blocked, fun key => ?_⟩
  cases target.lookup key with
  | none => exact .absent
  | some targetValue => exact .added

/-- The patch of two objects is empty when they are equal, and only then. -/
theorem createMergePatch_empty_iff (base target patch : ConfigValue) (hbase : base.Clean) (htarget : target.Clean)
    (hobjects : base.isPlainObject = true ∧ target.isPlainObject = true)
    (h : createMergePatch base target = some patch) :
    patch = .obj [] ↔ base.isDeepStrictEqual target = true := by
  induction base using ConfigValue.memberInduction generalizing target patch with
  | step base ih =>
  cases base with
  | obj base =>
    cases target with
    | obj target =>
      obtain ⟨fields, rfl, hpatch⟩ := createMergePatch_patchOf hbase htarget h
      rw [isDeepStrictEqual_obj_iff hbase.plain.1 htarget.plain.1]
      have hmember : ∀ key, fields.lookup key = none ↔ Agree (base.lookup key) (target.lookup key) := by
        intro key
        have hfield := hpatch.member key
        have hbaseKey := hbase.member key
        have htargetKey := htarget.member key
        have ih := ih key
        simp only [ConfigValue.member] at ih
        generalize base.lookup key = b, target.lookup key = t, fields.lookup key = q at *
        cases hfield with
        | absent => simp
        | removed => simp
        | added => simp
        | same hvalue hequal => simpa using hequal
        | replaced hvalue hdiffer => simpa using hdiffer
        | sameChild hb ht hchild =>
          simpa using (ih _ rfl _ _ (hbaseKey _ rfl).1 (htargetKey _ rfl).1 ⟨hb, ht⟩ hchild).1 rfl
        | child hb ht hchild hchanged =>
          have hiff := ih _ rfl _ _ (hbaseKey _ rfl).1 (htargetKey _ rfl).1 ⟨hb, ht⟩ hchild
          rw [← isEmptyObject_iff, hchanged] at hiff
          simpa using hiff
      simp only [← hmember, ConfigValue.obj.injEq]
      constructor
      · rintro rfl key
        rfl
      · intro hnone
        refine List.eq_nil_iff_forall_not_mem.2 fun field hfield => ?_
        have hsome := lookup_of_mem hpatch.nodup hfield
        rw [hnone] at hsome
        cases hsome
    | _ => cases hobjects.2
  | _ => cases hobjects.1

-- ---
-- Along paths
-- ---

theorem isDeepStrictEqual_isPlainObject {a b : ConfigValue} (h : a.isDeepStrictEqual b = true) :
    a.isPlainObject = b.isPlainObject := by
  cases a <;> cases b <;> first | rfl | cases h

/-- The three things a patch does to a member: leave it, where the two configs
agree; make it what the second has; or go into it. -/
theorem MemberPatch.effect (h : MemberPatch b t q) (hb : CleanMember b) (ht : CleanMember t) :
    (q = none ∧ Agree b t) ∨
    (¬ Agree b t ∧ t.any (·.isPlainObject) = false ∧ ∀ value, appliedMember value q = t) ∨
    (¬ Agree b t ∧ ∃ target patch, t = some (.obj target) ∧ q = some (.obj patch) ∧
      PatchOf (objectOrEmpty b) target patch) := by
  -- a value written where there was no object
  have hwritten : ∀ {targetValue}, t = some targetValue → q = t → ¬ Agree b t → objectOrEmpty b = [] ∨ targetValue.isPlainObject = false →
      (¬ Agree b t ∧ t.any (·.isPlainObject) = false ∧ ∀ value, appliedMember value q = t) ∨
      (¬ Agree b t ∧ ∃ target patch, t = some (.obj target) ∧ q = some (.obj patch) ∧
        PatchOf (objectOrEmpty b) target patch) := by
    rintro targetValue rfl rfl hdiffer hbase
    obtain ⟨hclean, hnull⟩ := ht _ rfl
    cases targetValue with
    | obj target => exact .inr ⟨hdiffer, target, target, rfl, rfl, hbase.resolve_right nofun ▸ patchOf_self hclean⟩
    | null => exact absurd rfl hnull
    | _ => exact .inl ⟨hdiffer, rfl, fun _ => rfl⟩
  cases h with
  | absent => exact .inl ⟨rfl, agree_none⟩
  | removed => exact .inr (.inl ⟨not_agree_some_none, rfl, fun _ => rfl⟩)
  | added => exact .inr (hwritten rfl rfl not_agree_none_some (.inl rfl))
  | same hvalue hequal => exact .inl ⟨rfl, agree_some.2 hequal⟩
  | @replaced baseValue targetValue hvalue hdiffer =>
    refine .inr (hwritten rfl rfl (by simpa using hdiffer) ?_)
    cases baseValue with
    | obj => exact .inr (by simpa [ConfigValue.isPlainObject] using hvalue)
    | _ => exact .inl rfl
  | sameChild hbase htarget hpatch =>
    refine .inl ⟨rfl, agree_some.2 ?_⟩
    exact (createMergePatch_empty_iff _ _ _ (hb _ rfl).1 (ht _ rfl).1 ⟨hbase, htarget⟩ hpatch).1 rfl
  | @child baseValue targetValue patch hbase htarget hpatch hchanged =>
    have hdiffer : ¬ baseValue.isDeepStrictEqual targetValue = true := by
      rw [← createMergePatch_empty_iff _ _ _ (hb _ rfl).1 (ht _ rfl).1 ⟨hbase, htarget⟩ hpatch,
        ← isEmptyObject_iff, hchanged]
      exact Bool.false_ne_true
    cases baseValue with
    | obj base =>
      cases targetValue with
      | obj target =>
        obtain ⟨fields, rfl, hfields⟩ := createMergePatch_patchOf (hb _ rfl).1 (ht _ rfl).1 hpatch
        exact .inr (.inr ⟨by simpa using hdiffer, target, fields, rfl, rfl, hfields⟩)
      | _ => cases htarget
    | _ => cases hbase

theorem PatchOf.lookup (h : PatchOf base target patch) (result : Fields) (key : Text) :
    (applyMembers result patch).lookup key = appliedMember (result.lookup key) (patch.lookup key) :=
  lookup_applyMembers h.nodup h.not_blocked result key

theorem bind_member (value : Option ConfigValue) (key : Text) :
    (value.bind (·.member key)) = (objectOrEmpty value).lookup key := by
  cases value with
  | none => rfl
  | some value => cases value <;> rfl

theorem cleanMember_bind (h : CleanMember value) (key : Text) : CleanMember (value.bind (·.member key)) := by
  cases value with
  | none => exact CleanMember.none
  | some value =>
    cases value with
    | obj fields => exact (h _ rfl).1.member key
    | _ => exact CleanMember.none

theorem valueAt_append (value : Option ConfigValue) (path rest : List Text) :
    valueAt value (path ++ rest) = valueAt (valueAt value path) rest := by
  induction path generalizing value with
  | nil => rfl
  | cons key path ih => exact ih _

theorem overridden_nil : Overridden b t [] ↔ ¬ Agree b t := by
  simp [Overridden, valueAt]

theorem overridden_cons {b t : Option ConfigValue} {path : List Text} :
    Overridden b t (key :: path) ↔ (¬ Agree b t ∧ t.any (·.isPlainObject) = false) ∨
      Overridden (b.bind (·.member key)) (t.bind (·.member key)) path := by
  simp only [Overridden, List.prefix_cons_iff]
  constructor
  · rintro ⟨above, rfl | ⟨above, rfl, habove⟩, hdiffer, hpath⟩
    · exact .inl ⟨hdiffer, Bool.eq_false_iff.2 (hpath.resolve_left nofun)⟩
    · exact .inr ⟨above, habove, hdiffer, hpath.imp_left List.tail_eq_of_cons_eq⟩
  · rintro (⟨hdiffer, hobject⟩ | ⟨above, habove, hdiffer, hpath⟩)
    · exact ⟨[], .inl rfl, hdiffer, .inr (Bool.eq_false_iff.1 hobject)⟩
    · exact ⟨key :: above, .inr ⟨above, rfl, habove⟩, hdiffer, hpath.imp_left (congrArg _)⟩

theorem agree_bind (hb : CleanMember b) (ht : CleanMember t) (h : Agree b t) (key : Text) :
    Agree (b.bind (·.member key)) (t.bind (·.member key)) := by
  cases h with
  | none => exact .none
  | some hequal => exact agree_member (hb _ rfl).1.plain (ht _ rfl).1.plain hequal key

theorem not_overridden_of_agree (path : List Text) (hb : CleanMember b) (ht : CleanMember t) (h : Agree b t) :
    ¬ Overridden b t path := by
  induction path generalizing b t with
  | nil => exact fun hover => overridden_nil.1 hover h
  | cons key path ih =>
    rw [overridden_cons]
    rintro (⟨hdiffer, -⟩ | hover)
    · exact hdiffer h
    · exact ih (cleanMember_bind hb key) (cleanMember_bind ht key) (agree_bind hb ht h key) hover

/-- Along any path the merged config has what the target has where it overrides,
up to what is inside an object, and what was there before everywhere else. -/
theorem valueAt_appliedMember (path : List Text) (hpatch : MemberPatch b t q) (hb : CleanMember b)
    (ht : CleanMember t) (r : Option ConfigValue) :
    (Overridden b t path → valueAt (appliedMember r q) path = valueAt t path ∨
        (valueAt (appliedMember r q) path).any (·.isPlainObject) ∧ (valueAt t path).any (·.isPlainObject)) ∧
      (¬ Overridden b t path → valueAt (appliedMember r q) path = valueAt r path) := by
  induction path generalizing b t q r with
  | nil =>
    rw [overridden_nil]
    obtain ⟨rfl, hagree⟩ | ⟨hdiffer, -, happlied⟩ | ⟨hdiffer, target, patch, rfl, rfl, -⟩ := hpatch.effect hb ht
    · exact ⟨fun hdiffer => absurd hagree hdiffer, fun _ => rfl⟩
    · rw [happlied]
      exact ⟨fun _ => .inl rfl, fun hagree => absurd hdiffer hagree⟩
    · refine ⟨fun _ => .inr ⟨?_, rfl⟩, fun hagree => absurd hdiffer hagree⟩
      rw [appliedMember, applyMergePatch_obj]
      · rfl
      · nofun
  | cons key path ih =>
    obtain ⟨rfl, hagree⟩ | ⟨hdiffer, hleaf, happlied⟩ | ⟨hdiffer, target, patch, rfl, rfl, hfields⟩ := hpatch.effect hb ht
    · exact ⟨fun hover => absurd hover (not_overridden_of_agree _ hb ht hagree), fun _ => rfl⟩
    · rw [happlied]
      exact ⟨fun _ => .inl rfl, fun hover => absurd (overridden_cons.2 (.inl ⟨hdiffer, hleaf⟩)) hover⟩
    · have ih := ih (hfields.member key) (bind_member b key ▸ cleanMember_bind hb key) ((ht _ rfl).1.member key)
        ((objectOrEmpty r).lookup key)
      rw [← hfields.lookup, ← bind_member b, ← bind_member r] at ih
      have hover : Overridden b (some (.obj target)) (key :: path) ↔
          Overridden (b.bind (·.member key)) (target.lookup key) path := by
        rw [overridden_cons]
        exact or_iff_right (fun h => Bool.noConfusion h.2)
      rw [hover, appliedMember, applyMergePatch_obj]
      · exact ih
      · nofun

theorem leafAt_appliedMember {path : List Text} (hpatch : MemberPatch b t q) (hb : CleanMember b)
    (ht : CleanMember t) (r : Option ConfigValue) (h : Overridden b t path) :
    leafAt (appliedMember r q) path = leafAt t path := by
  unfold leafAt
  rcases (valueAt_appliedMember path hpatch hb ht r).1 h with heq | ⟨hmerged, htarget⟩
  · rw [heq]
  · generalize valueAt (appliedMember r q) path = merged at hmerged
    generalize valueAt t path = target at htarget
    cases merged <;> cases target <;> simp_all [Option.filter_some]

/-- Nothing is there that was not there before and the target does not have. -/
theorem appliedMember_isSome (path : List Text) (hpatch : MemberPatch b t q) (hb : CleanMember b)
    (ht : CleanMember t) (r : Option ConfigValue) (h : (valueAt (appliedMember r q) path).isSome) :
    (valueAt r path).isSome ∨ (valueAt t path).isSome := by
  induction path generalizing b t q r with
  | nil =>
    obtain ⟨rfl, -⟩ | ⟨-, -, happlied⟩ | ⟨-, target, patch, rfl, rfl, -⟩ := hpatch.effect hb ht
    · exact .inl h
    · exact .inr (happlied r ▸ h)
    · exact .inr rfl
  | cons key path ih =>
    obtain ⟨rfl, -⟩ | ⟨-, -, happlied⟩ | ⟨-, target, patch, rfl, rfl, hfields⟩ := hpatch.effect hb ht
    · exact .inl h
    · exact .inr (happlied r ▸ h)
    · have ih := ih (hfields.member key) (bind_member b key ▸ cleanMember_bind hb key) ((ht _ rfl).1.member key)
        ((objectOrEmpty r).lookup key)
      rw [← hfields.lookup, ← bind_member r] at ih
      refine ih ?_
      rwa [appliedMember, applyMergePatch_obj] at h
      nofun

/-- Applied to the value it starts from, the patch leads to the other one. -/
theorem agree_appliedMember (t : ConfigValue) (hpatch : MemberPatch b (some t) q) (hb : CleanMember b)
    (ht : CleanMember (some t)) : Agree (appliedMember b q) (some t) := by
  induction t using ConfigValue.memberInduction generalizing b q with
  | step t ih =>
  obtain ⟨rfl, hagree⟩ | ⟨-, -, happlied⟩ | ⟨-, target, patch, ⟨rfl⟩, rfl, hfields⟩ := hpatch.effect hb ht
  · exact hagree
  · rw [happlied]
    exact agree_some.2 (isDeepStrictEqual_refl t (ht _ rfl).1.plain)
  · rw [appliedMember, applyMergePatch_obj, agree_some, isDeepStrictEqual_obj_iff]
    · intro key
      have hmember := hfields.member key
      rw [hfields.lookup]
      cases htarget : target.lookup key with
      | some targetValue =>
        rw [htarget] at hmember
        exact ih key _ htarget hmember (bind_member b key ▸ cleanMember_bind hb key)
          (htarget ▸ (ht _ rfl).1.member key)
      | none =>
        rw [htarget] at hmember
        generalize (objectOrEmpty b).lookup key = baseValue, patch.lookup key = member at hmember
        cases hmember with
        | absent => exact agree_none
        | removed => exact agree_none
    · refine nodup_applyMembers ?_ patch
      cases b with
      | none => exact List.nodup_nil
      | some base =>
        cases base with
        | obj base => exact (hb _ rfl).1.plain.1
        | _ => exact List.nodup_nil
    · exact (ht _ rfl).1.plain.1
    · nofun

-- ---
-- Inherited names
-- ---

theorem patchMembers_isSome_iff {base target : Fields} :
    (patchMembers base target).isSome ↔ ∀ field ∈ base, match target.lookup field.1 with
      | none => isInheritedKey field.1 = false
      | some targetValue => field.2.isPlainObject = true → targetValue.isPlainObject = true →
          (createMergePatch field.2 targetValue).isSome := by
  induction base with
  | nil => simp [patchMembers]
  | cons field base ih =>
    obtain ⟨key, baseValue⟩ := field
    rw [List.forall_mem_cons, ← ih, patchMembers]
    cases patchMembers base target with
    | none => simp
    | some patch =>
      cases target.lookup key with
      | none => cases isInheritedKey key <;> simp
      | some targetValue =>
        cases baseValue.isPlainObject <;> cases htarget : targetValue.isPlainObject <;>
          cases hchild : createMergePatch baseValue targetValue <;> simp [htarget, hchild]

theorem valueAt_none (path : List Text) : valueAt none path = none := by
  induction path with
  | nil => rfl
  | cons key path ih => exact ih

theorem valueAt_leaf {value : ConfigValue} (h : value.isPlainObject = false) (key : Text) (path : List Text) :
    valueAt (some value) (key :: path) = none := by
  cases value with
  | obj => cases h
  | _ => exact valueAt_none path

theorem keepsInherited_obj {base target : Fields} :
    KeepsInherited (.obj base) (.obj target) ↔ ∀ key baseValue, base.lookup key = some baseValue →
      match target.lookup key with
      | none => isInheritedKey key = false
      | some targetValue => KeepsInherited baseValue targetValue := by
  constructor
  · intro h key baseValue hbase
    cases htarget : target.lookup key with
    | none =>
      refine Bool.eq_false_iff.2 fun hkey => ?_
      have hsome := h [] key hkey (by simp [valueAt, ConfigValue.member, hbase]) rfl
      simp [valueAt, ConfigValue.member, htarget] at hsome
    | some targetValue =>
      intro path key' hkey hsome hobject
      have hsome' := h (key :: path) key' hkey
      simp only [List.cons_append, valueAt, Option.bind_some, ConfigValue.member, hbase, htarget] at hsome'
      exact hsome' hsome hobject
  · intro h path key hkey hsome hobject
    cases path with
    | nil =>
      obtain ⟨baseValue, hbase⟩ := Option.isSome_iff_exists.1 hsome
      have h := h key baseValue hbase
      cases htarget : target.lookup key with
      | none =>
        rw [htarget, hkey] at h
        cases h
      | some targetValue => simp [valueAt, ConfigValue.member, htarget]
    | cons step path =>
      simp only [List.cons_append, valueAt, Option.bind_some, ConfigValue.member] at hsome hobject ⊢
      cases hbase : base.lookup step with
      | none =>
        rw [hbase, valueAt_none] at hsome
        cases hsome
      | some baseValue =>
        have h := h step baseValue hbase
        cases htarget : target.lookup step with
        | none =>
          rw [htarget, valueAt_none] at hobject
          cases hobject
        | some targetValue =>
          rw [htarget] at h hobject
          exact h path key hkey (hbase ▸ hsome) hobject

theorem keepsInherited_leaf {base target : ConfigValue} (h : (base.isPlainObject && target.isPlainObject) = false) :
    KeepsInherited base target := by
  intro path key _ hsome hobject
  rcases (Bool.and_eq_false_iff).1 h with hbase | htarget
  · cases path <;> simp [valueAt_leaf hbase] at hsome
  · cases path with
    | nil => simp [valueAt, htarget] at hobject
    | cons step path => simp [valueAt_leaf htarget] at hobject

/-- The patch of two objects can be made when no inherited name is missing. -/
theorem createMergePatch_isSome_iff (base target : ConfigValue) (hbase : base.Plain) :
    (createMergePatch base target).isSome ↔ KeepsInherited base target := by
  induction base using ConfigValue.memberInduction generalizing target with
  | step base ih =>
  cases hobjects : base.isPlainObject && target.isPlainObject with
  | false =>
    refine iff_of_true ?_ (keepsInherited_leaf hobjects)
    cases base <;> cases target <;> first | rfl | cases hobjects
  | true =>
    cases base with
    | obj base =>
      cases target with
      | obj target =>
        have hsome : (createMergePatch (.obj base) (.obj target)).isSome = (patchMembers base target).isSome := by
          rw [createMergePatch]
          cases patchMembers base target <;> rfl
        rw [hsome, patchMembers_isSome_iff, keepsInherited_obj]
        constructor
        · intro h key baseValue hmember
          have h := h _ (mem_of_lookup hmember)
          cases htarget : target.lookup key with
          | none => simpa [htarget] using h
          | some targetValue =>
            rw [htarget] at h
            cases hchild : baseValue.isPlainObject && targetValue.isPlainObject with
            | false => exact keepsInherited_leaf hchild
            | true =>
              obtain ⟨hbaseValue, htargetValue⟩ := Bool.and_eq_true_iff.1 hchild
              exact (ih key _ hmember _ (PlainFields.lookup hbase.2.2 hmember)).1 (h hbaseValue htargetValue)
        · rintro h ⟨key, baseValue⟩ hfield
          have hmember := lookup_of_mem hbase.1 hfield
          have h := h key baseValue hmember
          cases htarget : target.lookup key with
          | none => simpa [htarget] using h
          | some targetValue =>
            rw [htarget] at h
            exact fun _ _ => (ih key _ hmember _ (PlainFields.lookup hbase.2.2 hmember)).2 h
      | _ => cases hobjects
    | _ => cases hobjects

-- ---
-- The merge
-- ---

/-- At a leaf the two configs share, neither overrides the other. -/
theorem not_overridden_of_leaf (hleaf : (leafAt b path).isSome) (h : Agree (leafAt b path) (leafAt t path)) :
    ¬ Overridden b t path := by
  obtain ⟨leaf, hb⟩ := Option.isSome_iff_exists.1 hleaf
  rw [hb] at h
  cases ht : leafAt t path with
  | none =>
    rw [ht] at h
    cases h
  | some leaf' =>
    rw [ht] at h
    unfold leafAt at hb ht
    have hvalueB := (Option.filter_eq_some_iff.1 hb).1
    have hvalueT := (Option.filter_eq_some_iff.1 ht).1
    rintro ⟨above, ⟨rest, rfl⟩, hdiffer, hpath⟩
    rw [valueAt_append] at hvalueB hvalueT
    cases rest with
    | nil =>
      refine hdiffer ?_
      simp only [valueAt] at hvalueB hvalueT
      rwa [hvalueB, hvalueT]
    | cons key rest =>
      refine hpath.resolve_left (by simp) ?_
      cases habove : valueAt t above with
      | none =>
        rw [habove, valueAt_none] at hvalueT
        cases hvalueT
      | some value =>
        cases hobject : value.isPlainObject with
        | true => simpa using hobject
        | false =>
          rw [habove, valueAt_leaf hobject] at hvalueT
          cases hvalueT

/-- Leaves that differ are at values that differ. -/
theorem overridden_of_leaf (h : ¬ Agree (leafAt b path) (leafAt t path)) : Overridden b t path := by
  refine ⟨path, List.prefix_refl path, fun hagree => h ?_, .inl rfl⟩
  unfold leafAt
  generalize valueAt b path = base, valueAt t path = target at hagree
  cases hagree with
  | none => exact .none
  | @some a c hequal =>
    have hobject := isDeepStrictEqual_isPlainObject hequal
    rw [Option.filter_some, Option.filter_some, hobject]
    split
    · exact .some hequal
    · exact .none

/-- A patch leads from its base to its target, and applied to a third config it
changes what the two differ in and nothing else. What is below a value that the
target removes or replaces goes with it. -/
theorem mergePatch_threeWay (base target resolved : Fields) (hbase : (ConfigValue.obj base).Clean)
    (htarget : (ConfigValue.obj target).Clean) (hinherited : KeepsInherited (.obj base) (.obj target)) :
    ∃ patch merged, createMergePatch (.obj base) (.obj target) = some patch ∧
      (applyMergePatch (.obj base) patch).isDeepStrictEqual (.obj target) = true ∧
      applyMergePatch (.obj resolved) patch = merged ∧
      (∀ path, (leafAt (some (.obj base)) path).isSome →
        Agree (leafAt (some (.obj base)) path) (leafAt (some (.obj target)) path) →
          valueAt (some merged) path = valueAt (some (.obj resolved)) path) ∧
      (∀ path, ¬ Agree (leafAt (some (.obj base)) path) (leafAt (some (.obj target)) path) →
        leafAt (some merged) path = leafAt (some (.obj target)) path) ∧
      (∀ path, leafAt (some (.obj base)) path = none → leafAt (some (.obj target)) path = none →
        (¬ Overridden (some (.obj base)) (some (.obj target)) path →
            valueAt (some merged) path = valueAt (some (.obj resolved)) path) ∧
          (Overridden (some (.obj base)) (some (.obj target)) path → leafAt (some merged) path = none)) ∧
      (∀ path, (valueAt (some merged) path).isSome →
        (valueAt (some (.obj resolved)) path).isSome ∨ (valueAt (some (.obj target)) path).isSome) := by
  obtain ⟨patch, hpatch⟩ := Option.isSome_iff_exists.1
    ((createMergePatch_isSome_iff (.obj base) (.obj target) hbase.plain).2 hinherited)
  have hb : CleanMember (some (.obj base)) := by
    rintro _ ⟨⟩
    exact ⟨hbase, nofun⟩
  have ht : CleanMember (some (.obj target)) := by
    rintro _ ⟨⟩
    exact ⟨htarget, nofun⟩
  obtain ⟨fields, rfl, -⟩ := createMergePatch_patchOf hbase htarget hpatch
  -- the root is a member like any other
  obtain ⟨member, hmember, happlied⟩ : ∃ member, MemberPatch (some (.obj base)) (some (.obj target)) member ∧
      ∀ result, appliedMember (some (.obj result)) member = some (applyMergePatch (.obj result) (.obj fields)) := by
    cases fields with
    | nil =>
      refine ⟨none, .sameChild rfl rfl hpatch, fun result => ?_⟩
      rw [applyMergePatch_obj]
      rfl
    | cons field fields => exact ⟨_, .child rfl rfl hpatch rfl, fun _ => rfl⟩
  refine ⟨_, _, hpatch, ?_, rfl, ?_, ?_, ?_, ?_⟩
  · exact agree_some.1 (happlied base ▸ agree_appliedMember _ hmember hb ht)
  · intro path hleaf hagree
    rw [← happlied]
    exact (valueAt_appliedMember path hmember hb ht _).2 (not_overridden_of_leaf hleaf hagree)
  · intro path hdiffer
    rw [← happlied]
    exact leafAt_appliedMember hmember hb ht _ (overridden_of_leaf hdiffer)
  · intro path _ htargetLeaf
    rw [← happlied]
    exact ⟨(valueAt_appliedMember path hmember hb ht _).2,
      fun hover => (leafAt_appliedMember hmember hb ht _ hover).trans htargetLeaf⟩
  · intro path hsome
    rw [← happlied] at hsome
    exact appliedMember_isSome path hmember hb ht _ hsome

theorem mergePatch_threeWay_default :
    ∃ patch merged, createMergePatch (.obj [("port".toList, .bool true)]) (.obj [("port".toList, .bool false)]) =
        some patch ∧ applyMergePatch (.obj []) patch = merged ∧
      leafAt (some merged) ["port".toList] = some (.bool false) := by
  have hclean : ∀ b, (ConfigValue.obj [("port".toList, .bool b)]).Clean := by
    intro b
    refine ⟨⟨by simp, by simp, trivial, trivial⟩, by decide, nofun, trivial, trivial⟩
  have hkeeps : KeepsInherited (.obj [("port".toList, .bool true)]) (.obj [("port".toList, .bool false)]) := by
    refine keepsInherited_obj.2 fun key value hvalue => ?_
    rw [lookup_cons] at hvalue
    split at hvalue
    case isTrue hkey =>
      cases hkey
      cases hvalue
      exact keepsInherited_leaf rfl
    case isFalse => cases hvalue
  obtain ⟨patch, merged, hpatch, -, hmerged, -, hdiffer, -⟩ :=
    mergePatch_threeWay [("port".toList, .bool true)] [("port".toList, .bool false)] [] (hclean true)
      (hclean false) hkeeps
  refine ⟨patch, merged, hpatch, hmerged, ?_⟩
  exact hdiffer ["port".toList] nofun

/-- A name that every object inherits cannot be removed, and what the target
replaces takes along what only the third config has below it. -/
theorem not_mergePatch_threeWay :
    (¬ ∀ base target : Fields, (ConfigValue.obj base).Clean → (ConfigValue.obj target).Clean →
      (createMergePatch (.obj base) (.obj target)).isSome) ∧
    ¬ ∀ base target resolved : Fields, (ConfigValue.obj base).Clean → (ConfigValue.obj target).Clean →
      ∀ patch, createMergePatch (.obj base) (.obj target) = some patch →
        ∀ path, Agree (leafAt (some (.obj base)) path) (leafAt (some (.obj target)) path) →
          leafAt (some (applyMergePatch (.obj resolved) patch)) path = leafAt (some (.obj resolved)) path := by
  constructor
  · intro h
    have hsome := h [("toString".toList, .bool true)] []
      ⟨⟨by simp, by decide, trivial, trivial⟩, by decide, nofun, trivial, trivial⟩
      ⟨⟨by simp, by simp, trivial⟩, trivial⟩
    exact absurd hsome (by decide)
  · intro h
    have hlost := h [("x".toList, .obj [])] [("x".toList, .bool true)] [("x".toList, .obj [("c".toList, .bool true)])]
      ⟨⟨by simp, by decide, ⟨by simp, by simp, trivial⟩, trivial⟩, by decide, nofun, trivial, trivial⟩
      ⟨⟨by simp, by decide, trivial, trivial⟩, by decide, nofun, trivial, trivial⟩ _ rfl
      ["x".toList, "c".toList] .none
    exact absurd hlost nofun

end OpenClaw.Config
