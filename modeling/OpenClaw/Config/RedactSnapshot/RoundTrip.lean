import OpenClaw.Config.RedactSnapshot
import OpenClaw.Lib.Members

/-!
# Redaction and restoration

Restoring a redacted config from the config itself gives it back where the two
walks agree on what a sentinel stands for. `Restorable` says where they do.
-/

namespace OpenClaw.Config

open Js (Text)
open Members (lookup_of_mem)

-- ---
-- Configs
-- ---

mutual
/-- No string is the sentinel. -/
def ConfigValue.SentinelFree : ConfigValue → Prop
  | .str s => s ≠ REDACTED_SENTINEL
  | .arr items => SentinelFreeItems items
  | .obj fields => SentinelFreeFields fields
  | _ => True
def SentinelFreeItems : List ConfigValue → Prop
  | [] => True
  | item :: items => item.SentinelFree ∧ SentinelFreeItems items
def SentinelFreeFields : Fields → Prop
  | [] => True
  | (_, value) :: fields => value.SentinelFree ∧ SentinelFreeFields fields
end

theorem SentinelFreeFields.get (h : SentinelFreeFields fields) (key : Text) :
    (getField fields key).SentinelFree := by
  induction fields with
  | nil => trivial
  | cons field fields ih =>
    obtain ⟨name, value⟩ := field
    obtain ⟨hvalue, hfields⟩ := h
    unfold getField
    rw [List.lookup_cons]
    split
    · exact hvalue
    · exact ih hfields

theorem ConfigValue.SentinelFree.isSentinel {value : ConfigValue} (h : value.SentinelFree) :
    value.isSentinel = false := by
  cases value with
  | str s => exact decide_eq_false h
  | _ => rfl

/-- No reference is redacted yet. -/
theorem SentinelFreeFields.isRedactedRef (h : SentinelFreeFields fields) : isRedactedRef fields = false := by
  unfold Config.isRedactedRef
  rw [(h.get _).isSentinel, Bool.and_false]

theorem redacted_isSentinel : redacted.isSentinel = true :=
  decide_eq_true (show REDACTED_SENTINEL = REDACTED_SENTINEL from rfl)

-- ---
-- References
-- ---

@[simp] theorem maybeRestoreSecretRefId_none (h : isRedactedRef (toObjectRecord incoming) = false) :
    maybeRestoreSecretRefId incoming original path = .ok none := by
  simp [maybeRestoreSecretRefId, h]

theorem restoreRefOr_walk (h : isRedactedRef (toObjectRecord incoming) = false) :
    restoreRefOr incoming original path walk = walk := by
  rw [restoreRefOr, maybeRestoreSecretRefId_none h]
  rfl

theorem getField_setField_ne (fields : Fields) (value : ConfigValue) (hne : key ≠ name) :
    getField (setField fields name value) key = getField fields key := by
  induction fields with
  | nil => rfl
  | cons field fields ih =>
    obtain ⟨other, x⟩ := field
    simp only [getField, setField, List.map_cons] at ih ⊢
    by_cases hother : other = name
    · subst hother
      have hkey : (key == other) = false := beq_eq_false_iff_ne.mpr hne
      rw [if_pos rfl, List.lookup_cons, List.lookup_cons, hkey]
      exact ih
    · rw [if_neg hother, List.lookup_cons, List.lookup_cons]
      cases key == other with
      | true => rfl
      | false => exact ih

/-- A redacted reference is given back when the original names its provider and
nothing else of it was redacted. -/
def RefKept (incoming original : Fields) : Prop :=
  isSecretRefWithProvider original = true ∧
    setField incoming "id".toList (getField original "id".toList) = original

theorem RefKept.same (h : RefKept incoming original) (hne : key ≠ "id".toList) :
    getField incoming key = getField original key := by
  rw [← getField_setField_ne incoming (getField original "id".toList) hne, h.2]

theorem maybeRestoreSecretRefId_ok {incoming original : ConfigValue}
    (h : isRedactedRef (toObjectRecord incoming) = true)
    (hok : maybeRestoreSecretRefId incoming original path = .ok result) :
    isSecretRefWithProvider (toObjectRecord original) = true ∧
      result = some (.obj (setField (toObjectRecord incoming) "id".toList
        (getField (toObjectRecord original) "id".toList))) := by
  simp only [maybeRestoreSecretRefId] at hok
  split at hok
  · rename_i hplain
    rw [h] at hplain
    cases hplain
  · split at hok
    · split at hok <;> cases hok
    · rename_i hprovider
      split at hok
      · cases hok
      · split at hok
        · cases hok
        · cases hok
          exact ⟨by simpa using hprovider, rfl⟩

theorem RefKept.restored (h : isRedactedRef incoming = true) (hkept : RefKept incoming original) :
    maybeRestoreSecretRefId (.obj incoming) (.obj original) path = .ok (some (.obj original)) := by
  have hsource : getField incoming "source".toList = getField original "source".toList :=
    hkept.same (by decide)
  have hprovider : getField incoming "provider".toList = getField original "provider".toList :=
    hkept.same (by decide)
  have hincoming : isSecretRefWithProvider incoming = true := by
    have horiginal := (Bool.and_eq_true_iff.mp hkept.1).2
    exact Bool.and_eq_true_iff.mpr ⟨(Bool.and_eq_true_iff.mp h).1, hprovider ▸ horiginal⟩
  simp only [maybeRestoreSecretRefId, toObjectRecord, h, hkept.1, hincoming, hsource, hprovider,
    hkept.2, Bool.not_true, Bool.false_eq_true, if_false, ne_eq, not_true_eq_false, or_self]

theorem restoreRefOr_iff (h : isRedactedRef incoming = true) :
    restoreRefOr (.obj incoming) (.obj original) path walk = .ok (.obj original) ↔
      RefKept incoming original := by
  unfold restoreRefOr
  constructor
  · intro hok
    cases hresult : maybeRestoreSecretRefId (.obj incoming) (.obj original) path with
    | error err =>
      rw [hresult] at hok
      cases hok
    | ok result =>
      have hincoming : isRedactedRef (toObjectRecord (.obj incoming)) = true := h
      obtain ⟨hprovider, rfl⟩ := maybeRestoreSecretRefId_ok hincoming hresult
      rw [hresult] at hok
      exact ⟨hprovider, ConfigValue.obj.inj (Except.ok.inj hok)⟩
  · intro hkept
    rw [hkept.restored h]
    rfl

/-- An object whose entries are restored by `walk`, references being looked at
first when `refs` is set. -/
def RefOrWalk (refs : Bool) (incoming original : Fields) (walkRestorable : Prop) : Prop :=
  if refs && isRedactedRef incoming then RefKept incoming original else walkRestorable

theorem restoreRefOr_or_walk (refs : Bool) (incoming original : Fields) :
    (if refs then restoreRefOr (.obj incoming) (.obj original) path walk else walk) = .ok (.obj original) ↔
      RefOrWalk refs incoming original (walk = .ok (.obj original)) := by
  unfold RefOrWalk
  cases refs with
  | false => exact Iff.rfl
  | true =>
    cases href : isRedactedRef incoming with
    | false =>
      have hwalk : isRedactedRef (toObjectRecord (.obj incoming)) = false := href
      rw [if_pos rfl, restoreRefOr_walk hwalk, Bool.and_false, if_neg Bool.false_ne_true]
    | true => rw [if_pos rfl, restoreRefOr_iff href, Bool.and_true, if_pos rfl]

theorem setField_setField (fields : Fields) (key : Text) (first second : ConfigValue) :
    setField (setField fields key first) key second = setField fields key second := by
  unfold setField
  rw [List.map_map]
  refine List.map_congr_left fun field _ => ?_
  simp only [Function.comp_apply]
  split
  · simp
  · rfl

theorem setField_eq_self (hvalue : ∀ field ∈ fields, field.1 = key → field.2 = value) :
    setField fields key value = fields := by
  unfold setField
  conv_rhs => rw [← List.map_id fields]
  refine List.map_congr_left fun field hfield => ?_
  split
  · rename_i hkey
    exact Prod.ext hkey.symm (hvalue field hfield hkey).symm
  · rfl

theorem setField_getField (hnodup : (fields.map Prod.fst).Nodup) (key : Text) :
    setField fields key (getField fields key) = fields := by
  refine setField_eq_self fun field hfield hkey => ?_
  subst hkey
  rw [getField, lookup_of_mem hnodup hfield]
  rfl

/-- The reference at a sensitive path is redacted in its id only. -/
theorem redactSecretRefId_kept (hnodup : (fields.map Prod.fst).Nodup)
    (hid : (getField fields "id".toList).isSecretString = true) :
    RefKept (redactSecretRefId fields) fields ↔ isSecretRefWithProvider fields = true := by
  unfold RefKept redactSecretRefId
  rw [if_pos hid, setField_setField, setField_getField hnodup]
  exact and_iff_left rfl

theorem getField_setField_self (h : (getField fields key).isSecretString = true) (value : ConfigValue) :
    getField (setField fields key value) key = value := by
  induction fields with
  | nil => cases h
  | cons field fields ih =>
    obtain ⟨other, x⟩ := field
    simp only [getField, setField, List.map_cons] at h ih ⊢
    rw [List.lookup_cons] at h
    by_cases hother : other = key
    · rw [if_pos hother, List.lookup_cons_self]
      rfl
    · have hne : (key == other) = false := beq_eq_false_iff_ne.mpr (Ne.symm hother)
      rw [hne] at h
      rw [if_neg hother, List.lookup_cons, hne]
      exact ih h

theorem redactSecretRefId_isRedactedRef (hshape : isSecretRefShape fields = true)
    (hid : (getField fields "id".toList).isSecretString = true) :
    isRedactedRef (redactSecretRefId fields) = true := by
  have hsource : getField (redactSecretRefId fields) "source".toList = getField fields "source".toList := by
    rw [redactSecretRefId, if_pos hid]
    exact getField_setField_ne fields redacted (by decide)
  have hredacted : getField (redactSecretRefId fields) "id".toList = redacted := by
    rw [redactSecretRefId, if_pos hid]
    exact getField_setField_self hid redacted
  simp only [isRedactedRef, isSecretRefShape, hsource, hredacted, Bool.and_eq_true] at hshape ⊢
  exact ⟨⟨hshape.1, rfl⟩, redacted_isSentinel⟩

-- ---
-- Entries
-- ---

/-- The paths at which a sentinel is restored when no hint covers them. -/
def canRestore (hints : Option ConfigUiHints) (path wildcardPath : Text) : Bool :=
  !isExplicitlyNonSensitivePath hints [path, wildcardPath] &&
    (isSensitivePath path || isUrlPath hints path [path, wildcardPath])

/-- The object is redacted as a whole. -/
def isRedactedWhole (hints : Option ConfigUiHints) (path wildcardPath : Text) : ConfigValue → Bool
  | .obj _ => !isExplicitlyNonSensitivePath hints [path, wildcardPath] && isSensitivePath path &&
    isWholeObjectSensitivePath path
  | _ => false

section
variable {urls : UrlClass ρ} {hints : Option ConfigUiHints} {parent key : Text} {orig : Fields}
  {value walked : ConfigValue} {walk : Except RedactionError ConfigValue}

theorem redactEntryGuessing_eq :
    redactEntryGuessing urls hints parent key value walked =
      if isRedactedWhole hints (joinPath parent key) (wildcardOf parent) value then redacted
      else redactUnmatched urls hints (joinPath parent key) (wildcardOf parent) value walked := by
  unfold redactEntryGuessing redactUnmatched isRedactedWhole
  cases value <;> simp [ConfigValue.isSecretString, and_comm, and_left_comm]

theorem restoreOriginalValueOrThrow_of_lookup (h : orig.lookup key = some value) (path : Text) :
    restoreOriginalValueOrThrow key path orig = .ok value := by
  rw [restoreOriginalValueOrThrow, h]

theorem getField_of_lookup (h : orig.lookup key = some value) : getField orig key = value := by
  rw [getField, h]
  rfl

theorem redacted_ne (h : value.SentinelFree) : redacted ≠ value := by
  rintro rfl
  exact h rfl

/-- A sentinel is restored where that is possible. -/
theorem restoreEntryGuessing_redacted (h : orig.lookup key = some value) :
    restoreEntryGuessing hints parent key redacted orig walk =
      .ok (if canRestore hints (joinPath parent key) (wildcardOf parent) then value else redacted) := by
  unfold restoreEntryGuessing
  dsimp only
  rw [redacted_isSentinel, Bool.and_true]
  show (if canRestore hints (joinPath parent key) (wildcardOf parent) = true then _ else _) = _
  split
  · exact restoreOriginalValueOrThrow_of_lookup h _
  · rfl

/-- What is neither redacted nor an object stays. -/
theorem restoreEntryGuessing_plain (hsentinel : value.isSentinel = false) (hobject : value.isObject = false) :
    restoreEntryGuessing hints parent key value orig walk = .ok value := by
  simp [restoreEntryGuessing, hsentinel, hobject]

theorem restoreEntryGuessing_object (hobject : value.isObject = true) :
    restoreEntryGuessing hints parent key value orig walk =
      if canRestore hints (joinPath parent key) (wildcardOf parent) then
        restoreRefOr value (getField orig key) (joinPath parent key) walk
      else walk := by
  have hsentinel : value.isSentinel = false := by
    cases value <;> first | rfl | cases hobject
  unfold restoreEntryGuessing
  dsimp only
  rw [hsentinel, Bool.and_false, if_neg Bool.false_ne_true, if_pos hobject]
  rfl

/-- A walk keeps objects and arrays what they are. -/
structure SameKind (walked value : ConfigValue) : Prop where
  obj : ∀ fields, value = .obj fields → ∃ wfields, walked = .obj wfields
  arr : ∀ items, value = .arr items → ∃ witems, walked = .arr witems

/-- Where an entry that no hint covers is restored: a URL with secrets is not
marked as non-sensitive, and a reference whose id the walk redacts is kept. -/
def EntryRestorable (urls : UrlClass ρ) (hints : Option ConfigUiHints) (path wildcardPath : Text)
    (value walked : ConfigValue) (walkRestorable : Prop) : Prop :=
  match value with
  | .str s =>
    isExplicitlyNonSensitivePath hints [path, wildcardPath] = true →
      isUrlPath hints path [path, wildcardPath] = true → redactSensitiveUrlLikeString urls s = s
  | .obj fields =>
    RefOrWalk (canRestore hints path wildcardPath) (toObjectRecord walked) fields walkRestorable
  | .arr _ => walkRestorable
  | _ => True

theorem redactUnmatched_restored_str {s : Text} {walk : ConfigValue → Except RedactionError ConfigValue}
    {r : ConfigValue} (hfree : s ≠ REDACTED_SENTINEL) (horig : orig.lookup key = some (.str s))
    (hr : redactUnmatched urls hints (joinPath parent key) (wildcardOf parent) (.str s) walked = r) :
    restoreEntryGuessing hints parent key r orig (walk r) = .ok (.str s) ↔
      EntryRestorable urls hints (joinPath parent key) (wildcardOf parent) (.str s) walked walkRestorable := by
  have hplain (w : Except RedactionError ConfigValue) :
      restoreEntryGuessing hints parent key (.str s) orig w = .ok (.str s) :=
    restoreEntryGuessing_plain (decide_eq_false hfree) rfl
  have hne : redacted ≠ .str s := redacted_ne hfree
  have hsentinel (w : Except RedactionError ConfigValue) :
      restoreEntryGuessing hints parent key redacted orig w = .ok (.str s) ↔
        canRestore hints (joinPath parent key) (wildcardOf parent) = true := by
    rw [restoreEntryGuessing_redacted horig]
    split <;> simp_all
  simp only [redactUnmatched] at hr
  unfold EntryRestorable
  dsimp only
  split at hr
  · rename_i hsens
    simp only [Bool.and_eq_true, Bool.not_eq_true'] at hsens
    subst hr
    rw [hsentinel]
    simp [canRestore, hsens.1.2, hsens.2]
  · split at hr
    · rename_i hurl
      unfold scrubbed at hr
      split at hr
      · rename_i hscrub
        subst hr
        rw [hsentinel]
        simp [canRestore, hurl, hscrub]
      · rename_i hscrub
        subst hr
        simp [hplain, not_not.mp hscrub]
    · rename_i hurl
      subst hr
      simp [hplain, hurl]

theorem isRedactedRef_arr : isRedactedRef (toObjectRecord (.arr items)) = false := rfl

theorem redactUnmatched_restored (walk : ConfigValue → Except RedactionError ConfigValue)
    {r : ConfigValue} (hfree : value.SentinelFree) (horig : orig.lookup key = some value)
    (hkind : SameKind walked value)
    (hr : redactUnmatched urls hints (joinPath parent key) (wildcardOf parent) value walked = r) :
    restoreEntryGuessing hints parent key r orig (walk r) = .ok value ↔
      EntryRestorable urls hints (joinPath parent key) (wildcardOf parent) value walked
        (walk walked = .ok value) := by
  cases value with
  | str s => exact redactUnmatched_restored_str hfree horig hr
  | obj fields =>
    obtain ⟨wfields, rfl⟩ := hkind.obj fields rfl
    have hwalked : r = .obj wfields := hr.symm
    subst hwalked
    rw [restoreEntryGuessing_object rfl, getField_of_lookup horig]
    exact restoreRefOr_or_walk _ wfields fields
  | arr items =>
    obtain ⟨witems, rfl⟩ := hkind.arr items rfl
    have hwalked : r = .arr witems := hr.symm
    subst hwalked
    rw [restoreEntryGuessing_object rfl, restoreRefOr_walk isRedactedRef_arr, ite_self]
    exact Iff.rfl
  | _ =>
    have hvalue : r = _ := hr.symm
    subst hvalue
    exact iff_of_true (restoreEntryGuessing_plain rfl rfl) trivial

theorem redactEntryGuessing_restored (walk : ConfigValue → Except RedactionError ConfigValue)
    {r : ConfigValue} (hfree : value.SentinelFree) (horig : orig.lookup key = some value)
    (hkind : SameKind walked value)
    (hr : redactEntryGuessing urls hints parent key value walked = r) :
    restoreEntryGuessing hints parent key r orig (walk r) = .ok value ↔
      (isRedactedWhole hints (joinPath parent key) (wildcardOf parent) value = true ∨
        EntryRestorable urls hints (joinPath parent key) (wildcardOf parent) value walked
          (walk walked = .ok value)) := by
  rw [redactEntryGuessing_eq] at hr
  split at hr
  · rename_i hwhole
    subst hr
    refine iff_of_true ?_ (.inl hwhole)
    have hcan : canRestore hints (joinPath parent key) (wildcardOf parent) = true := by
      cases value with
      | obj fields =>
        simp only [isRedactedWhole, Bool.and_eq_true] at hwhole
        simp [canRestore, hwhole.1.1, hwhole.1.2]
      | _ => cases hwhole
    rw [restoreEntryGuessing_redacted horig, if_pos hcan]
  · rename_i hwhole
    rw [redactUnmatched_restored walk hfree horig hkind hr]
    simp [hwhole]

end

section
variable {urls : UrlClass ρ} {hints : ConfigUiHints} {candidate path wildcardPath key : Text}
  {orig : Fields} {value walked : ConfigValue}

/-- Where an entry is restored whose path is in the lookup: a string is at a path
that is itself sensitive or a URL path, a sensitive reference with an id names
its provider, and another reference whose id the walk redacts is kept. -/
def MatchedRestorable (hints : ConfigUiHints) (candidate path wildcardPath : Text)
    (value walked : ConfigValue) (walkRestorable : Prop) : Prop :=
  match value with
  | .str s =>
    isEnvVarPlaceholder s = true ∨ hasSensitive hints candidate true = true ∨
      isUrlPath (some hints) path [candidate, path, wildcardPath] = true
  | .obj fields =>
    if hasSensitive hints candidate true then
      isSecretRefShape fields = true → (getField fields "id".toList).isSecretString = true →
        isSecretRefWithProvider fields = true
    else RefOrWalk true (toObjectRecord walked) fields walkRestorable
  | .arr _ => walkRestorable
  | _ => True

theorem restoreMatched_redacted {walk : Except RedactionError ConfigValue}
    (horig : orig.lookup key = some value) :
    restoreMatched hints candidate path wildcardPath key redacted orig walk =
      .ok (if hasSensitive hints candidate true || isUrlPath (some hints) path [candidate, path, wildcardPath]
        then value else redacted) := by
  unfold restoreMatched
  rw [redacted_isSentinel, Bool.true_and]
  split
  · exact restoreOriginalValueOrThrow_of_lookup horig _
  · rfl

theorem restoreMatched_plain {walk : Except RedactionError ConfigValue}
    (hsentinel : value.isSentinel = false) (hobject : value.isObject = false) :
    restoreMatched hints candidate path wildcardPath key value orig walk = .ok value := by
  simp [restoreMatched, hsentinel, hobject]

theorem restoreMatched_object {walk : Except RedactionError ConfigValue} (hobject : value.isObject = true) :
    restoreMatched hints candidate path wildcardPath key value orig walk =
      restoreRefOr value (getField orig key) path walk := by
  have hsentinel : value.isSentinel = false := by
    cases value <;> first | rfl | cases hobject
  unfold restoreMatched
  rw [hsentinel, Bool.false_and, if_neg Bool.false_ne_true, if_pos hobject]

theorem redactMatched_restored_str {s : Text} {walk : ConfigValue → Except RedactionError ConfigValue}
    {r : ConfigValue} (hfree : s ≠ REDACTED_SENTINEL) (horig : orig.lookup key = some (.str s))
    (hr : redactMatched urls hints candidate path wildcardPath (.str s) walked = r) :
    restoreMatched hints candidate path wildcardPath key r orig (walk r) = .ok (.str s) ↔
      MatchedRestorable hints candidate path wildcardPath (.str s) walked walkRestorable := by
  have hplain (w : Except RedactionError ConfigValue) :
      restoreMatched hints candidate path wildcardPath key (.str s) orig w = .ok (.str s) :=
    restoreMatched_plain (decide_eq_false hfree) rfl
  have hne : redacted ≠ .str s := redacted_ne hfree
  have hsentinel (w : Except RedactionError ConfigValue) :
      restoreMatched hints candidate path wildcardPath key redacted orig w = .ok (.str s) ↔
        (hasSensitive hints candidate true = true ∨
          isUrlPath (some hints) path [candidate, path, wildcardPath] = true) := by
    rw [restoreMatched_redacted horig, ← Bool.or_eq_true]
    split <;> simp_all
  simp only [redactMatched] at hr
  unfold MatchedRestorable
  dsimp only
  split at hr
  · rename_i hsecret
    have hplaceholder : isEnvVarPlaceholder s = false := by simpa [ConfigValue.isSecretString] using hsecret
    subst hr
    rw [hsentinel]
    simp [hplaceholder]
  · rename_i hsecret
    have hplaceholder : isEnvVarPlaceholder s = true := by simpa [ConfigValue.isSecretString] using hsecret
    refine iff_of_true ?_ (.inl hplaceholder)
    split at hr
    · rename_i hsensitive
      subst hr
      exact (hsentinel _).mpr (.inl hsensitive)
    · split at hr
      · rename_i hurl
        unfold scrubbed at hr
        split at hr
        · subst hr
          exact (hsentinel _).mpr (.inr hurl)
        · subst hr
          exact hplain _
      · subst hr
        exact hplain _

theorem redactMatched_restored_obj {walk : ConfigValue → Except RedactionError ConfigValue}
    {r : ConfigValue} {fields : Fields} (hfree : (ConfigValue.obj fields).SentinelFree)
    (hplainValue : (ConfigValue.obj fields).Plain) (horig : orig.lookup key = some (.obj fields))
    (hkind : SameKind walked (.obj fields)) (hself : walk (.obj fields) = .ok (.obj fields))
    (hr : redactMatched urls hints candidate path wildcardPath (.obj fields) walked = r) :
    restoreMatched hints candidate path wildcardPath key r orig (walk r) = .ok (.obj fields) ↔
      MatchedRestorable hints candidate path wildcardPath (.obj fields) walked
        (walk walked = .ok (.obj fields)) := by
  simp only [redactMatched, ConfigValue.isSecretString, Bool.false_eq_true, if_false] at hr
  unfold MatchedRestorable
  dsimp only
  by_cases hsensitive : hasSensitive hints candidate true = true
  · rw [if_pos hsensitive] at hr ⊢
    by_cases hshape : isSecretRefShape fields = true
    · rw [if_pos hshape] at hr
      subst hr
      rw [restoreMatched_object rfl, getField_of_lookup horig]
      by_cases hid : (getField fields "id".toList).isSecretString = true
      · rw [restoreRefOr_iff (redactSecretRefId_isRedactedRef hshape hid),
          redactSecretRefId_kept hplainValue.1 hid]
        exact ⟨fun hprovider _ _ => hprovider, fun h => h hshape hid⟩
      · have hsame : redactSecretRefId fields = fields := if_neg hid
        have hwalk : isRedactedRef (toObjectRecord (.obj fields)) = false :=
          SentinelFreeFields.isRedactedRef hfree
        rw [hsame, restoreRefOr_walk hwalk]
        exact iff_of_true hself fun _ hsecret => absurd hsecret hid
    · rw [if_neg hshape] at hr
      subst hr
      rw [restoreMatched_redacted horig, hsensitive, Bool.true_or, if_pos rfl]
      exact iff_of_true rfl fun h => absurd h hshape
  · rw [if_neg hsensitive] at hr ⊢
    obtain ⟨wfields, rfl⟩ := hkind.obj fields rfl
    subst hr
    rw [restoreMatched_object rfl, getField_of_lookup horig]
    exact restoreRefOr_or_walk true wfields fields

/-- A sensitive primitive value is redacted, and restored. -/
theorem redactMatched_restored_primitive {walk : ConfigValue → Except RedactionError ConfigValue}
    {r : ConfigValue} (horig : orig.lookup key = some value) (hsentinel : value.isSentinel = false)
    (hobject : value.isObject = false)
    (hr : (if hasSensitive hints candidate true then redacted else value) = r) :
    restoreMatched hints candidate path wildcardPath key r orig (walk r) = .ok value := by
  split at hr
  · rename_i hsensitive
    subst hr
    rw [restoreMatched_redacted horig, hsensitive, Bool.true_or, if_pos rfl]
  · subst hr
    exact restoreMatched_plain hsentinel hobject

theorem redactMatched_restored (walk : ConfigValue → Except RedactionError ConfigValue)
    {r : ConfigValue} (hfree : value.SentinelFree) (hplainValue : value.Plain)
    (horig : orig.lookup key = some value) (hkind : SameKind walked value)
    (hself : walk value = .ok value)
    (hr : redactMatched urls hints candidate path wildcardPath value walked = r) :
    restoreMatched hints candidate path wildcardPath key r orig (walk r) = .ok value ↔
      MatchedRestorable hints candidate path wildcardPath value walked (walk walked = .ok value) := by
  cases value with
  | str s => exact redactMatched_restored_str hfree horig hr
  | obj fields => exact redactMatched_restored_obj hfree hplainValue horig hkind hself hr
  | arr items =>
    obtain ⟨witems, rfl⟩ := hkind.arr items rfl
    have hwalked : r = .arr witems := hr.symm
    subst hwalked
    rw [restoreMatched_object rfl, restoreRefOr_walk isRedactedRef_arr]
    exact Iff.rfl
  | undefined =>
    have hvalue : r = _ := hr.symm
    subst hvalue
    exact iff_of_true (restoreMatched_plain rfl rfl) trivial
  | null =>
    have hvalue : r = _ := hr.symm
    subst hvalue
    exact iff_of_true (restoreMatched_plain rfl rfl) trivial
  | bool b => exact iff_of_true (redactMatched_restored_primitive horig rfl rfl hr) trivial
  | num n => exact iff_of_true (redactMatched_restored_primitive horig rfl rfl hr) trivial

end

-- ---
-- A config without sentinels
-- ---

theorem bind_ok {ε α β : Type} (a : α) (f : α → Except ε β) : (Except.ok a >>= f) = f a := rfl

theorem ConfigValue.SentinelFree.isRedactedRef {value : ConfigValue} (h : value.SentinelFree) :
    isRedactedRef (toObjectRecord value) = false := by
  cases value with
  | obj fields => exact SentinelFreeFields.isRedactedRef h
  | _ => rfl

section
variable {key : Text} {orig : Fields} {walk : Except RedactionError ConfigValue} {value : ConfigValue}

theorem restoreEntryGuessing_self (h : value.SentinelFree) (hwalk : walk = .ok value) :
    restoreEntryGuessing hints parent key value orig walk = .ok value := by
  cases hobject : value.isObject with
  | false => exact restoreEntryGuessing_plain h.isSentinel hobject
  | true => rw [restoreEntryGuessing_object hobject, restoreRefOr_walk h.isRedactedRef, ite_self, hwalk]

theorem restoreMatched_self (h : value.SentinelFree) (hwalk : walk = .ok value) :
    restoreMatched hints candidate path wildcardPath key value orig walk = .ok value := by
  cases hobject : value.isObject with
  | false => exact restoreMatched_plain h.isSentinel hobject
  | true => rw [restoreMatched_object hobject, restoreRefOr_walk h.isRedactedRef, hwalk]

end

mutual
/-- Nothing is restored where nothing is redacted. -/
theorem restoreRedactedValuesGuessing_self (hints : Option ConfigUiHints) :
    ∀ (value : ConfigValue) (parent : Text) (original : ConfigValue), value.SentinelFree →
      restoreRedactedValuesGuessing hints parent value original = .ok value
  | .arr items, parent, original, h => by
    simp only [restoreRedactedValuesGuessing]
    rw [restoreItemsGuessing_self hints items _ _ h]
    rfl
  | .obj fields, parent, original, h => by
    simp only [restoreRedactedValuesGuessing]
    rw [restoreFieldsGuessing_self hints fields _ _ h]
    rfl
  | .undefined, _, _, _ => rfl
  | .null, _, _, _ => rfl
  | .bool _, _, _, _ => rfl
  | .num _, _, _, _ => rfl
  | .str _, _, _, _ => rfl
theorem restoreItemsGuessing_self (hints : Option ConfigUiHints) :
    ∀ (items : List ConfigValue) (path : Text) (originalArray : List ConfigValue), SentinelFreeItems items →
      restoreItemsGuessing hints path items originalArray = .ok items
  | [], _, _, _ => rfl
  | item :: items, path, originalArray, h => by
    simp only [restoreItemsGuessing, restoreArrayItemWithGuessing, h.1.isSentinel, Bool.and_false,
      Bool.false_eq_true, if_false]
    rw [restoreRedactedValuesGuessing_self hints item _ _ h.1, bind_ok,
      restoreItemsGuessing_self hints items _ _ h.2, bind_ok]
    rfl
theorem restoreFieldsGuessing_self (hints : Option ConfigUiHints) :
    ∀ (fields : Fields) (parent : Text) (orig : Fields), SentinelFreeFields fields →
      restoreFieldsGuessing hints parent fields orig = .ok fields
  | [], _, _, _ => rfl
  | (key, value) :: fields, parent, orig, h => by
    simp only [restoreFieldsGuessing]
    rw [restoreEntryGuessing_self h.1 (restoreRedactedValuesGuessing_self hints value _ _ h.1), bind_ok,
      restoreFieldsGuessing_self hints fields _ _ h.2, bind_ok]
    rfl
end

mutual
theorem restoreRedactedValuesWithLookup_self (hints : ConfigUiHints) (lookup : List Text) :
    ∀ (value : ConfigValue) (parent : Text) (original : ConfigValue), value.SentinelFree →
      restoreRedactedValuesWithLookup hints lookup parent value original = .ok value
  | .arr items, parent, original, h => by
    simp only [restoreRedactedValuesWithLookup]
    split
    · rw [restoreItemsWithLookup_self hints lookup items _ _ h]
      rfl
    · exact restoreRedactedValuesGuessing_self (some hints) (.arr items) parent original h
  | .obj fields, parent, original, h => by
    simp only [restoreRedactedValuesWithLookup]
    rw [restoreFieldsWithLookup_self hints lookup fields _ _ h]
    rfl
  | .undefined, _, _, _ => rfl
  | .null, _, _, _ => rfl
  | .bool _, _, _, _ => rfl
  | .num _, _, _, _ => rfl
  | .str _, _, _, _ => rfl
theorem restoreItemsWithLookup_self (hints : ConfigUiHints) (lookup : List Text) :
    ∀ (items : List ConfigValue) (path : Text) (originalArray : List ConfigValue), SentinelFreeItems items →
      restoreItemsWithLookup hints lookup path items originalArray = .ok items
  | [], _, _, _ => rfl
  | item :: items, path, originalArray, h => by
    simp only [restoreItemsWithLookup, restoreArrayItemWithLookup, h.1.isSentinel, Bool.false_eq_true,
      if_false]
    rw [restoreRedactedValuesWithLookup_self hints lookup item _ _ h.1, bind_ok,
      restoreItemsWithLookup_self hints lookup items _ _ h.2, bind_ok]
    rfl
theorem restoreFieldsWithLookup_self (hints : ConfigUiHints) (lookup : List Text) :
    ∀ (fields : Fields) (parent : Text) (orig : Fields), SentinelFreeFields fields →
      restoreFieldsWithLookup hints lookup parent fields orig = .ok fields
  | [], _, _, _ => rfl
  | (key, value) :: fields, parent, orig, h => by
    simp only [restoreFieldsWithLookup]
    split
    · rw [restoreMatched_self h.1 (restoreRedactedValuesWithLookup_self hints lookup value _ _ h.1), bind_ok,
        restoreFieldsWithLookup_self hints lookup fields _ _ h.2, bind_ok]
      rfl
    · rw [restoreEntryGuessing_self h.1 (restoreRedactedValuesGuessing_self (some hints) value _ _ h.1),
        bind_ok, restoreFieldsWithLookup_self hints lookup fields _ _ h.2, bind_ok]
      rfl
end

-- ---
-- Walks that agree
-- ---

mutual
/-- Where a config is restored that is redacted by guessing. -/
def RestorableGuessing (urls : UrlClass ρ) (hints : Option ConfigUiHints) (parent : Text) : ConfigValue → Prop
  | .arr items => RestorableItemsGuessing urls hints (arrayPath parent) items
  | .obj fields => RestorableFieldsGuessing urls hints parent fields
  | _ => True
def RestorableItemsGuessing (urls : UrlClass ρ) (hints : Option ConfigUiHints) (path : Text) :
    List ConfigValue → Prop
  | [] => True
  | item :: items => RestorableGuessing urls hints path item ∧ RestorableItemsGuessing urls hints path items
def RestorableFieldsGuessing (urls : UrlClass ρ) (hints : Option ConfigUiHints) (parent : Text) : Fields → Prop
  | [] => True
  | (key, value) :: fields =>
    (isRedactedWhole hints (joinPath parent key) (wildcardOf parent) value = true ∨
      EntryRestorable urls hints (joinPath parent key) (wildcardOf parent) value
        (redactObjectGuessing urls hints (joinPath parent key) value)
        (RestorableGuessing urls hints (joinPath parent key) value)) ∧
      RestorableFieldsGuessing urls hints parent fields
end

mutual
/-- Where a config is restored that is redacted by the lookup of its hints. -/
def RestorableWithLookup (urls : UrlClass ρ) (hints : ConfigUiHints) (lookup : List Text) (parent : Text) :
    ConfigValue → Prop
  | .arr items =>
    if lookup.contains (arrayPath parent) then
      RestorableItemsWithLookup urls hints lookup (arrayPath parent) items
    else RestorableGuessing urls (some hints) parent (.arr items)
  | .obj fields => RestorableFieldsWithLookup urls hints lookup parent fields
  | _ => True
def RestorableItemsWithLookup (urls : UrlClass ρ) (hints : ConfigUiHints) (lookup : List Text) (path : Text) :
    List ConfigValue → Prop
  | [] => True
  | item :: items =>
    RestorableWithLookup urls hints lookup path item ∧ RestorableItemsWithLookup urls hints lookup path items
def RestorableFieldsWithLookup (urls : UrlClass ρ) (hints : ConfigUiHints) (lookup : List Text) (parent : Text) :
    Fields → Prop
  | [] => True
  | (key, value) :: fields =>
    (match findCandidate lookup (joinPath parent key) (wildcardOf parent) with
      | some candidate =>
        MatchedRestorable hints candidate (joinPath parent key) (wildcardOf parent) value
          (redactObjectWithLookup urls hints lookup candidate value)
          (RestorableWithLookup urls hints lookup candidate value)
      | none =>
        EntryRestorable urls (some hints) (joinPath parent key) (wildcardOf parent) value
          (redactObjectGuessing urls (some hints) (joinPath parent key) value)
          (RestorableGuessing urls (some hints) (joinPath parent key) value)) ∧
      RestorableFieldsWithLookup urls hints lookup parent fields
end

section
variable {urls : UrlClass ρ}

theorem map_ok_iff {ε α β : Type} {f : α → β} (hf : ∀ a b, f a = f b → a = b) {x : Except ε α} {a : α} :
    x.map f = .ok (f a) ↔ x = .ok a := by
  cases x with
  | error err => exact iff_of_false nofun nofun
  | ok b =>
    constructor
    · intro h
      rw [hf b a (Except.ok.inj h)]
    · rintro ⟨⟩
      rfl

theorem cons_ok_iff {ε α : Type} {x : Except ε α} {xs : Except ε (List α)} {a : α} {as : List α} :
    (do let restored ← x
        let rest ← xs
        return restored :: rest) = Except.ok (a :: as) ↔ x = .ok a ∧ xs = .ok as := by
  cases x with
  | error err => exact iff_of_false nofun (fun h => nomatch h.1)
  | ok b =>
    cases xs with
    | error err => exact iff_of_false nofun (fun h => nomatch h.2)
    | ok bs =>
      constructor
      · intro h
        cases h
        exact ⟨rfl, rfl⟩
      · rintro ⟨⟨⟩, ⟨⟩⟩
        rfl

theorem field_ok_iff {ε α β : Type} {k : β} {x : Except ε α} {xs : Except ε (List (β × α))} {a : α}
    {as : List (β × α)} :
    (do let restored ← x
        let rest ← xs
        return (k, restored) :: rest) = Except.ok ((k, a) :: as) ↔ x = .ok a ∧ xs = .ok as := by
  cases x with
  | error err => exact iff_of_false nofun (fun h => nomatch h.1)
  | ok b =>
    cases xs with
    | error err => exact iff_of_false nofun (fun h => nomatch h.2)
    | ok bs =>
      constructor
      · intro h
        cases h
        exact ⟨rfl, rfl⟩
      · rintro ⟨⟨⟩, ⟨⟩⟩
        rfl

theorem redactObjectGuessing_sameKind (value : ConfigValue) :
    SameKind (redactObjectGuessing urls hints parent value) value :=
  ⟨fun fields h => ⟨_, by rw [h, redactObjectGuessing]⟩, fun items h => ⟨_, by rw [h, redactObjectGuessing]⟩⟩

theorem redactObjectGuessing_isSentinel (value : ConfigValue) :
    (redactObjectGuessing urls hints parent value).isSentinel = value.isSentinel := by
  cases value <;> rfl

theorem redactObjectWithLookup_sameKind (value : ConfigValue) :
    SameKind (redactObjectWithLookup urls hints lookup parent value) value := by
  refine ⟨fun fields h => ⟨_, by rw [h, redactObjectWithLookup]⟩, fun items h => ?_⟩
  subst h
  simp only [redactObjectWithLookup, redactObjectGuessing]
  split
  · exact ⟨_, rfl⟩
  · exact ⟨_, rfl⟩

theorem redactObjectWithLookup_isSentinel (value : ConfigValue) :
    (redactObjectWithLookup urls hints lookup parent value).isSentinel = value.isSentinel := by
  cases value with
  | arr items =>
    have hkind : SameKind (redactObjectWithLookup urls hints lookup parent (.arr items)) (.arr items) :=
      redactObjectWithLookup_sameKind _
    obtain ⟨witems, hwitems⟩ := hkind.arr items rfl
    rw [hwitems]
    rfl
  | _ => rfl

/-- A redacted string of an array is taken from the original array. -/
theorem restoreItemGuessing_iff {item : ConfigValue} (hfree : item.SentinelFree)
    (hwalk : restoreRedactedValuesGuessing hints path (redactObjectGuessing urls hints path item) item =
      .ok item ↔ RestorableGuessing urls hints path item) :
    let r := if !isExplicitlyNonSensitivePath hints [path] && isSensitivePath path && item.isSecretString then
      redacted else redactObjectGuessing urls hints path item
    restoreArrayItemWithGuessing hints path r item (restoreRedactedValuesGuessing hints path r item) =
      .ok item ↔ RestorableGuessing urls hints path item := by
  intro r
  unfold restoreArrayItemWithGuessing
  cases hsens : !isExplicitlyNonSensitivePath hints [path] && isSensitivePath path with
  | false => simpa [r, hsens] using hwalk
  | true =>
    cases hsecret : item.isSecretString with
    | false =>
      have hr : r = redactObjectGuessing urls hints path item := by simp [r, hsecret]
      rw [hr, redactObjectGuessing_isSentinel, hfree.isSentinel, Bool.and_false, if_neg Bool.false_ne_true]
      exact hwalk
    | true =>
      have hr : r = redacted := by simp [r, hsens, hsecret]
      rw [hr, redacted_isSentinel, Bool.and_true, if_pos rfl]
      cases item with
      | str s => exact iff_of_true rfl trivial
      | _ => cases hsecret

theorem EntryRestorable.congr (h : p ↔ q) :
    EntryRestorable urls hints path wildcardPath value walked p ↔
      EntryRestorable urls hints path wildcardPath value walked q := by
  rw [propext h]

theorem MatchedRestorable.congr (h : p ↔ q) :
    MatchedRestorable hints candidate path wildcardPath value walked p ↔
      MatchedRestorable hints candidate path wildcardPath value walked q := by
  rw [propext h]

mutual
theorem restoreGuessing_iff (hints : Option ConfigUiHints) :
    ∀ (value : ConfigValue) (parent : Text), value.SentinelFree → value.Plain →
      (restoreRedactedValuesGuessing hints parent (redactObjectGuessing urls hints parent value) value =
        .ok value ↔ RestorableGuessing urls hints parent value)
  | .arr items, parent, hfree, hplain => by
    simp only [redactObjectGuessing, restoreRedactedValuesGuessing, toArray, RestorableGuessing]
    rw [map_ok_iff fun _ _ => ConfigValue.arr.inj]
    exact restoreItemsGuessing_iff hints items _ hfree hplain
  | .obj fields, parent, hfree, hplain => by
    simp only [redactObjectGuessing, restoreRedactedValuesGuessing, toObjectRecord, RestorableGuessing]
    rw [map_ok_iff fun _ _ => ConfigValue.obj.inj]
    exact restoreFieldsGuessing_iff hints fields _ fields (fun _ h => lookup_of_mem hplain.1 h) hfree hplain.2.2
  | .undefined, _, _, _ => iff_of_true rfl trivial
  | .null, _, _, _ => iff_of_true rfl trivial
  | .bool _, _, _, _ => iff_of_true rfl trivial
  | .num _, _, _, _ => iff_of_true rfl trivial
  | .str _, _, _, _ => iff_of_true rfl trivial
theorem restoreItemsGuessing_iff (hints : Option ConfigUiHints) :
    ∀ (items : List ConfigValue) (path : Text), SentinelFreeItems items → PlainItems items →
      (restoreItemsGuessing hints path (redactItemsGuessing urls hints path items) items = .ok items ↔
        RestorableItemsGuessing urls hints path items)
  | [], _, _, _ => iff_of_true rfl trivial
  | item :: items, path, hfree, hplain => by
    simp only [redactItemsGuessing, restoreItemsGuessing, RestorableItemsGuessing]
    rw [cons_ok_iff]
    refine and_congr ?_ (restoreItemsGuessing_iff hints items path hfree.2 hplain.2)
    exact restoreItemGuessing_iff hfree.1 (restoreGuessing_iff hints item path hfree.1 hplain.1)
theorem restoreFieldsGuessing_iff (hints : Option ConfigUiHints) :
    ∀ (fields : Fields) (parent : Text) (orig : Fields),
      (∀ field, field ∈ fields → orig.lookup field.1 = some field.2) →
      SentinelFreeFields fields → PlainFields fields →
      (restoreFieldsGuessing hints parent (redactFieldsGuessing urls hints parent fields) orig = .ok fields ↔
        RestorableFieldsGuessing urls hints parent fields)
  | [], _, _, _, _, _ => iff_of_true rfl trivial
  | (key, value) :: fields, parent, orig, horig, hfree, hplain => by
    simp only [redactFieldsGuessing, restoreFieldsGuessing, RestorableFieldsGuessing]
    rw [field_ok_iff]
    obtain ⟨hkey, horig⟩ := List.forall_mem_cons.mp horig
    refine and_congr ?_ (restoreFieldsGuessing_iff hints fields parent orig horig hfree.2 hplain.2)
    rw [getField_of_lookup hkey]
    have hwalk := restoreGuessing_iff hints value (joinPath parent key) hfree.1 hplain.1
    exact (redactEntryGuessing_restored
      (fun r => restoreRedactedValuesGuessing hints (joinPath parent key) r value) hfree.1 hkey
      (redactObjectGuessing_sameKind value) rfl).trans (or_congr Iff.rfl (EntryRestorable.congr hwalk))
end

/-- A redacted string of an array in the lookup is taken from the original array. -/
theorem restoreItemWithLookup_iff {item : ConfigValue} (hfree : item.SentinelFree)
    (hwalk : restoreRedactedValuesWithLookup hints lookup path
      (redactObjectWithLookup urls hints lookup path item) item = .ok item ↔
        RestorableWithLookup urls hints lookup path item) :
    let r := if item.isSecretString then redacted else redactObjectWithLookup urls hints lookup path item
    restoreArrayItemWithLookup r item (restoreRedactedValuesWithLookup hints lookup path r item) = .ok item ↔
      RestorableWithLookup urls hints lookup path item := by
  intro r
  unfold restoreArrayItemWithLookup
  cases hsecret : item.isSecretString with
  | false =>
    have hr : r = redactObjectWithLookup urls hints lookup path item := by simp [r, hsecret]
    rw [hr, redactObjectWithLookup_isSentinel, hfree.isSentinel, if_neg Bool.false_ne_true]
    exact hwalk
  | true =>
    have hr : r = redacted := by simp [r, hsecret]
    rw [hr, redacted_isSentinel, if_pos rfl]
    cases item with
    | str s => exact iff_of_true rfl trivial
    | _ => cases hsecret

mutual
theorem restoreWithLookup_iff (hints : ConfigUiHints) (lookup : List Text) :
    ∀ (value : ConfigValue) (parent : Text), value.SentinelFree → value.Plain →
      (restoreRedactedValuesWithLookup hints lookup parent
        (redactObjectWithLookup urls hints lookup parent value) value = .ok value ↔
          RestorableWithLookup urls hints lookup parent value)
  | .arr items, parent, hfree, hplain => by
    simp only [redactObjectWithLookup, RestorableWithLookup]
    split
    · rename_i hlookup
      simp only [restoreRedactedValuesWithLookup, hlookup, if_true, toArray]
      rw [map_ok_iff fun _ _ => ConfigValue.arr.inj]
      exact restoreItemsWithLookup_iff hints lookup items _ hfree hplain
    · rename_i hlookup
      simp only [redactObjectGuessing, restoreRedactedValuesWithLookup, hlookup]
      exact restoreGuessing_iff (some hints) (.arr items) parent hfree hplain
  | .obj fields, parent, hfree, hplain => by
    simp only [redactObjectWithLookup, restoreRedactedValuesWithLookup, toObjectRecord, RestorableWithLookup]
    rw [map_ok_iff fun _ _ => ConfigValue.obj.inj]
    exact restoreFieldsWithLookup_iff hints lookup fields _ fields (fun _ h => lookup_of_mem hplain.1 h) hfree
      hplain.2.2
  | .undefined, _, _, _ => iff_of_true rfl trivial
  | .null, _, _, _ => iff_of_true rfl trivial
  | .bool _, _, _, _ => iff_of_true rfl trivial
  | .num _, _, _, _ => iff_of_true rfl trivial
  | .str _, _, _, _ => iff_of_true rfl trivial
theorem restoreItemsWithLookup_iff (hints : ConfigUiHints) (lookup : List Text) :
    ∀ (items : List ConfigValue) (path : Text), SentinelFreeItems items → PlainItems items →
      (restoreItemsWithLookup hints lookup path (redactItemsWithLookup urls hints lookup path items) items =
        .ok items ↔ RestorableItemsWithLookup urls hints lookup path items)
  | [], _, _, _ => iff_of_true rfl trivial
  | item :: items, path, hfree, hplain => by
    simp only [redactItemsWithLookup, restoreItemsWithLookup, RestorableItemsWithLookup]
    rw [cons_ok_iff]
    refine and_congr ?_ (restoreItemsWithLookup_iff hints lookup items path hfree.2 hplain.2)
    exact restoreItemWithLookup_iff hfree.1 (restoreWithLookup_iff hints lookup item path hfree.1 hplain.1)
theorem restoreFieldsWithLookup_iff (hints : ConfigUiHints) (lookup : List Text) :
    ∀ (fields : Fields) (parent : Text) (orig : Fields),
      (∀ field, field ∈ fields → orig.lookup field.1 = some field.2) →
      SentinelFreeFields fields → PlainFields fields →
      (restoreFieldsWithLookup hints lookup parent
        (redactFieldsWithLookup urls hints lookup parent fields) orig = .ok fields ↔
          RestorableFieldsWithLookup urls hints lookup parent fields)
  | [], _, _, _, _, _ => iff_of_true rfl trivial
  | (key, value) :: fields, parent, orig, horig, hfree, hplain => by
    simp only [redactFieldsWithLookup, restoreFieldsWithLookup, RestorableFieldsWithLookup]
    obtain ⟨hkey, horig⟩ := List.forall_mem_cons.mp horig
    have hrest := restoreFieldsWithLookup_iff hints lookup fields parent orig horig hfree.2 hplain.2
    cases findCandidate lookup (joinPath parent key) (wildcardOf parent) with
    | some candidate =>
      dsimp only
      rw [field_ok_iff, getField_of_lookup hkey]
      refine and_congr ?_ hrest
      have hwalk := restoreWithLookup_iff hints lookup value candidate hfree.1 hplain.1
      exact (redactMatched_restored
        (fun r => restoreRedactedValuesWithLookup hints lookup candidate r value) hfree.1 hplain.1 hkey
        (redactObjectWithLookup_sameKind value)
        (restoreRedactedValuesWithLookup_self hints lookup value candidate value hfree.1) rfl).trans
        (MatchedRestorable.congr hwalk)
    | none =>
      dsimp only
      rw [field_ok_iff, getField_of_lookup hkey]
      refine and_congr ?_ hrest
      exact (redactUnmatched_restored
        (fun r => restoreRedactedValuesGuessing (some hints) (joinPath parent key) r value) hfree.1 hkey
        (redactObjectGuessing_sameKind value) rfl).trans
        (EntryRestorable.congr
          (restoreGuessing_iff (some hints) value (joinPath parent key) hfree.1 hplain.1))
end

end

-- ---
-- The round trip
-- ---

mutual
theorem assertNoRedactedSentinel_ok :
    ∀ (value : ConfigValue) (path : Text), value.SentinelFree → assertNoRedactedSentinel path value = .ok ()
  | .str s, _, h => by
    simp only [assertNoRedactedSentinel]
    exact if_neg h
  | .arr items, path, h => assertItems_ok items path 0 h
  | .obj fields, path, h => assertFields_ok fields path h
  | .undefined, _, _ => rfl
  | .null, _, _ => rfl
  | .bool _, _, _ => rfl
  | .num _, _, _ => rfl
theorem assertItems_ok :
    ∀ (items : List ConfigValue) (path : Text) (index : Nat), SentinelFreeItems items →
      assertItems path index items = .ok ()
  | [], _, _, _ => rfl
  | item :: items, path, index, h => by
    simp only [assertItems]
    rw [assertNoRedactedSentinel_ok item _ h.1, bind_ok, assertItems_ok items path (index + 1) h.2]
theorem assertFields_ok :
    ∀ (fields : Fields) (path : Text), SentinelFreeFields fields → assertFields path fields = .ok ()
  | [], _, _ => rfl
  | (key, value) :: fields, path, h => by
    simp only [assertFields]
    rw [assertNoRedactedSentinel_ok value _ h.1, bind_ok, assertFields_ok fields path h.2]
end

/-- Where each sentinel of the redacted config stands for what the restoration
takes it for. -/
def Restorable (urls : UrlClass ρ) (hints : Option ConfigUiHints) (config : ConfigValue) : Prop :=
  match hints with
  | some hints =>
    if (buildRedactionLookup hints).contains [] then
      RestorableWithLookup urls hints (buildRedactionLookup hints) [] config
    else RestorableGuessing urls (some hints) [] config
  | none => RestorableGuessing urls none [] config

theorem restoreWalk_iff (urls : UrlClass ρ) (hints : Option ConfigUiHints) (config : ConfigValue)
    (hfree : config.SentinelFree) (hplain : config.Plain) :
    restoreWalk (redactConfigObject urls config hints) config hints = .ok config ↔
      Restorable urls hints config := by
  unfold restoreWalk redactConfigObject redactObject Restorable
  cases hints with
  | none => exact restoreGuessing_iff none config [] hfree hplain
  | some hints =>
    dsimp only
    split
    · exact restoreWithLookup_iff hints _ config [] hfree hplain
    · exact restoreGuessing_iff (some hints) config [] hfree hplain

theorem restoreChecked_iff (urls : UrlClass ρ) (hints : Option ConfigUiHints) (config : ConfigValue)
    (hfree : config.SentinelFree) (hplain : config.Plain) :
    restoreChecked (redactConfigObject urls config hints) config hints = .ok config ↔
      Restorable urls hints config := by
  rw [← restoreWalk_iff urls hints config hfree hplain]
  unfold restoreChecked
  constructor
  · intro hok
    cases hwalk : restoreWalk (redactConfigObject urls config hints) config hints with
    | error err =>
      rw [hwalk] at hok
      cases hok
    | ok restored =>
      rw [hwalk, bind_ok] at hok
      cases hassert : assertNoRedactedSentinel [] restored with
      | error err =>
        rw [hassert] at hok
        cases hok
      | ok _ =>
        rw [hassert] at hok
        exact hok
  · intro hwalk
    rw [hwalk, bind_ok, assertNoRedactedSentinel_ok config [] hfree]
    rfl

theorem redactConfigObject_isObject (urls : UrlClass ρ) (hints : Option ConfigUiHints)
    (config : ConfigValue) (hobject : config.isObject = true) :
    (redactConfigObject urls config hints).isObject = true := by
  have hkind : SameKind (redactConfigObject urls config hints) config := by
    unfold redactConfigObject redactObject
    cases hints with
    | none => exact redactObjectGuessing_sameKind config
    | some hints =>
      dsimp only
      split
      · exact redactObjectWithLookup_sameKind config
      · exact redactObjectGuessing_sameKind config
  cases config with
  | arr items =>
    obtain ⟨witems, hwitems⟩ := hkind.arr items rfl
    rw [hwitems]
    rfl
  | obj fields =>
    obtain ⟨wfields, hwfields⟩ := hkind.obj fields rfl
    rw [hwfields]
    rfl
  | _ => cases hobject

theorem restoreRedactedValues_ok (hobject : incoming.isObject = true)
    (h : restoreChecked incoming original hints = .ok restored) :
    restoreRedactedValues incoming original hints = .ok restored := by
  cases incoming with
  | arr items => simp [restoreRedactedValues, h]
  | obj fields => simp [restoreRedactedValues, h]
  | _ => cases hobject

theorem restoreRedactedValues_failed (hobject : incoming.isObject = true)
    (h : restoreChecked incoming original hints = .error err) :
    restoreRedactedValues incoming original hints = .failed err.humanReadableMessage := by
  cases incoming with
  | arr items => simp [restoreRedactedValues, h]
  | obj fields => simp [restoreRedactedValues, h]
  | _ => cases hobject

theorem restoreRedactedValues_ok_iff (hobject : incoming.isObject = true) :
    restoreRedactedValues incoming original hints = .ok result ↔
      restoreChecked incoming original hints = .ok result := by
  cases hchecked : restoreChecked incoming original hints with
  | error err =>
    rw [restoreRedactedValues_failed hobject hchecked]
    exact iff_of_false nofun nofun
  | ok restored =>
    rw [restoreRedactedValues_ok hobject hchecked]
    constructor
    · intro h
      rw [RedactionResult.ok.inj h]
    · rintro ⟨⟩
      rfl

/-- The round trip gives a config back just where the walks agree on it. -/
theorem redactConfigObject_restored_iff (urls : UrlClass ρ) (hints : Option ConfigUiHints)
    (config : ConfigValue) (hobject : config.isObject = true) (hplain : config.Plain)
    (hfree : config.SentinelFree) :
    restoreRedactedValues (redactConfigObject urls config hints) config hints = .ok config ↔
      Restorable urls hints config := by
  rw [restoreRedactedValues_ok_iff (redactConfigObject_isObject urls hints config hobject)]
  exact restoreChecked_iff urls hints config hfree hplain

/-- A config without sentinels comes back from a round trip as it was. -/
theorem redactConfigObject_roundTrip (urls : UrlClass ρ) (hints : Option ConfigUiHints)
    (config : ConfigValue) (hobject : config.isObject = true) (hplain : config.Plain)
    (hfree : config.SentinelFree) (h : Restorable urls hints config) :
    restoreRedactedValues (redactConfigObject urls config hints) config hints = .ok config :=
  (redactConfigObject_restored_iff urls hints config hobject hplain hfree).mpr h

def noUrls : UrlClass Unit := ⟨fun _ => none, fun _ => []⟩

def tokenHints : ConfigUiHints := [("gateway.token".toList, ⟨some true, none⟩)]

/-- A config with its token at `gateway.token`. -/
def gatewayConfig (token : ConfigValue) : ConfigValue :=
  .obj [("gateway".toList, .obj [("port".toList, .num (.ofInt 80)), ("token".toList, token)])]

def secretRef : ConfigValue :=
  .obj [("source".toList, .str "env".toList), ("provider".toList, .str "default".toList),
    ("id".toList, .str "TOKEN".toList)]

theorem redactConfigObject_roundTrip_secretRef :
    restoreRedactedValues (redactConfigObject noUrls (gatewayConfig secretRef) (some tokenHints))
      (gatewayConfig secretRef) (some tokenHints) = .ok (gatewayConfig secretRef) := by
  refine redactConfigObject_roundTrip noUrls (some tokenHints) (gatewayConfig secretRef) rfl ?_ ?_ ?_
  · exact ⟨by decide, by decide,
      ⟨by decide, by decide, trivial, ⟨by decide, by decide, trivial, trivial, trivial, trivial⟩, trivial⟩,
      trivial⟩
  · have hstrings : "env".toList ≠ REDACTED_SENTINEL ∧ "default".toList ≠ REDACTED_SENTINEL ∧
        "TOKEN".toList ≠ REDACTED_SENTINEL := by decide
    exact ⟨⟨trivial, ⟨hstrings.1, hstrings.2.1, hstrings.2.2, trivial⟩, trivial⟩, trivial⟩
  · have hentries : RestorableFieldsWithLookup noUrls tokenHints (buildRedactionLookup tokenHints)
        "gateway".toList [("port".toList, .num (.ofInt 80)), ("token".toList, secretRef)] :=
      ⟨trivial, fun _ _ => rfl, trivial⟩
    exact ⟨hentries, trivial⟩

def refWithoutProvider : ConfigValue :=
  .obj [("source".toList, .str "env".toList), ("id".toList, .str "TOKEN".toList)]

/-- A reference that does not name its provider does not come back. -/
theorem redactConfigObject_withoutProvider :
    ¬∀ config : ConfigValue, config.isObject = true → config.Plain → config.SentinelFree →
      restoreRedactedValues (redactConfigObject noUrls config (some tokenHints)) config (some tokenHints) =
        .ok config := by
  intro h
  have hplain : (gatewayConfig refWithoutProvider).Plain :=
    ⟨by decide, by decide,
      ⟨by decide, by decide, trivial, ⟨by decide, by decide, trivial, trivial, trivial⟩, trivial⟩, trivial⟩
  have hstrings : "env".toList ≠ REDACTED_SENTINEL ∧ "TOKEN".toList ≠ REDACTED_SENTINEL := by decide
  have hfree : (gatewayConfig refWithoutProvider).SentinelFree :=
    ⟨⟨trivial, ⟨hstrings.1, hstrings.2, trivial⟩, trivial⟩, trivial⟩
  cases h (gatewayConfig refWithoutProvider) rfl hplain hfree

end OpenClaw.Config
