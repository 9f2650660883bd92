import OpenClaw.Config.MergePatch.ThreeWay
import OpenClaw.Config.WriteBack

/-!
# The meaning of what is written

Substituting the variables in what `writeConfigFile` persists gives the merged config back,
if and only if no string is at a path at which a reference to something else is restored.
-/

namespace OpenClaw.Config

open Js (Text)
open Members

variable {env : Env} {strings keys : Text → Prop}

-- ---
-- What holds of the strings and the keys of a config
-- ---

mutual
def ConfigValue.Holds (strings keys : Text → Prop) : ConfigValue → Prop
  | .str s => strings s
  | .arr items => HoldsItems strings keys items
  | .obj fields => HoldsFields strings keys fields
  | _ => True
def HoldsItems (strings keys : Text → Prop) : List ConfigValue → Prop
  | [] => True
  | item :: items => item.Holds strings keys ∧ HoldsItems strings keys items
def HoldsFields (strings keys : Text → Prop) : Fields → Prop
  | [] => True
  | (key, value) :: fields => keys key ∧ value.Holds strings keys ∧ HoldsFields strings keys fields
end

/-- A key that can be set like any other. -/
def IsOwnKey (key : Text) : Prop := key ≠ "__proto__".toList

/-- No string of the config has the beginning of a reference. -/
def ConfigValue.Literal (value : ConfigValue) : Prop := value.Holds WithoutReference IsOwnKey

theorem holdsFields_iff {fields : Fields} :
    HoldsFields strings keys fields ↔ ∀ field ∈ fields, keys field.1 ∧ field.2.Holds strings keys := by
  induction fields with
  | nil => simp [HoldsFields]
  | cons field fields ih =>
    obtain ⟨key, value⟩ := field
    rw [HoldsFields, ih, List.forall_mem_cons, and_assoc]

theorem HoldsFields.lookup {fields : Fields} (h : HoldsFields strings keys fields)
    (hvalue : fields.lookup key = some value) : value.Holds strings keys :=
  (holdsFields_iff.1 h _ (mem_of_lookup hvalue)).2

theorem HoldsFields.assign {fields : Fields} (h : HoldsFields strings keys fields) (hkey : keys key)
    (hvalue : value.Holds strings keys) : HoldsFields strings keys (assign fields key value) := by
  rw [holdsFields_iff] at h ⊢
  intro field hfield
  unfold Members.assign at hfield
  split at hfield
  case isTrue =>
    obtain ⟨old, hold, rfl⟩ := List.mem_map.1 hfield
    split
    · exact ⟨hkey, hvalue⟩
    · exact h old hold
  case isFalse =>
    rcases List.mem_append.1 hfield with hfield | hfield
    · exact h field hfield
    · obtain rfl := List.mem_singleton.1 hfield
      exact ⟨hkey, hvalue⟩

theorem HoldsFields.remove {fields : Fields} (h : HoldsFields strings keys fields) (key : Text) :
    HoldsFields strings keys (remove fields key) := by
  rw [holdsFields_iff] at h ⊢
  exact fun field hfield => h field (List.mem_filter.1 hfield).1

-- ---
-- Merging
-- ---

mutual
/-- The keys of a patch are checked when it is applied. -/
def ConfigValue.Patches (strings keys : Text → Prop) : ConfigValue → Prop
  | .obj fields => PatchesFields strings keys fields
  | value => value.Holds strings keys
def PatchesFields (strings keys : Text → Prop) : Fields → Prop
  | [] => True
  | (_, value) :: fields => value.Patches strings keys ∧ PatchesFields strings keys fields
end

mutual
theorem ConfigValue.Holds.patches : ∀ {value : ConfigValue}, value.Holds strings keys → value.Patches strings keys
  | .obj _, h => HoldsFields.patches h
  | .undefined, h => h
  | .null, h => h
  | .bool _, h => h
  | .num _, h => h
  | .str _, h => h
  | .arr _, h => h
theorem HoldsFields.patches : ∀ {fields : Fields}, HoldsFields strings keys fields → PatchesFields strings keys fields
  | [], _ => trivial
  | _ :: _, h => ⟨h.2.1.patches, h.2.2.patches⟩
end

theorem PatchesFields.append {patch rest : Fields} (h : PatchesFields strings keys patch)
    (hrest : PatchesFields strings keys rest) : PatchesFields strings keys (patch ++ rest) := by
  induction patch with
  | nil => exact hrest
  | cons field patch ih => exact ⟨h.1, ih h.2⟩

theorem HoldsFields.filter {fields : Fields} (h : HoldsFields strings keys fields) (p : Text × ConfigValue → Bool) :
    HoldsFields strings keys (fields.filter p) := by
  rw [holdsFields_iff] at h ⊢
  exact fun field hfield => h field (List.mem_filter.1 hfield).1

theorem createMergePatch_leaf {base target : ConfigValue}
    (h : (base.isPlainObject && target.isPlainObject) = false) : createMergePatch base target = some target := by
  cases base <;> cases target <;> first | rfl | cases h

mutual
theorem createMergePatch_patches {base target patch : ConfigValue} (h : createMergePatch base target = some patch)
    (htarget : target.Holds strings keys) : patch.Patches strings keys := by
  cases hobjects : base.isPlainObject && target.isPlainObject with
  | false =>
    rw [createMergePatch_leaf hobjects] at h
    cases h
    exact htarget.patches
  | true =>
    cases base with
    | obj base =>
      cases target with
      | obj target =>
        simp only [createMergePatch, Option.bind_eq_bind, Option.bind_eq_some_iff] at h
        obtain ⟨changed, hchanged, h⟩ := h
        cases h
        exact (patchMembers_patches hchanged htarget).append (HoldsFields.filter htarget _).patches
      | _ => cases hobjects
    | _ => cases hobjects
termination_by structural base
theorem patchMembers_patches {base target patch : Fields} (h : patchMembers base target = some patch)
    (htarget : HoldsFields strings keys target) : PatchesFields strings keys patch := by
  cases base with
  | nil =>
    cases h
    trivial
  | cons field base =>
    obtain ⟨key, baseValue⟩ := field
    obtain ⟨rest, member, hrest, rfl, hmember⟩ := patchMembers_cons h
    refine PatchesFields.append ?_ (patchMembers_patches hrest htarget)
    generalize hvalue : target.lookup key = targetValue at hmember
    cases hmember with
    | removed => exact ⟨trivial, trivial⟩
    | same => trivial
    | replaced => exact ⟨(htarget.lookup hvalue).patches, trivial⟩
    | sameChild => trivial
    | child _ _ hpatch => exact ⟨createMergePatch_patches hpatch (htarget.lookup hvalue), trivial⟩
termination_by structural base
end

mutual
theorem applyMembers_holds {result patch : Fields}
    (hkeys : ∀ key, isBlockedObjectKey key = false → keys key) (hresult : HoldsFields strings keys result)
    (hpatch : PatchesFields strings keys patch) : HoldsFields strings keys (applyMembers result patch) := by
  cases patch with
  | nil => exact hresult
  | cons field patch =>
    obtain ⟨key, value⟩ := field
    rw [applyMembers]
    refine applyMembers_holds hkeys ?_ hpatch.2
    split
    case isTrue => exact hresult
    case isFalse hblocked =>
      exact applyMember_holds hkeys hresult (hkeys key (Bool.eq_false_iff.2 hblocked)) hpatch.1
termination_by structural patch
theorem applyMember_holds {result : Fields} {key : Text} {value : ConfigValue}
    (hkeys : ∀ key, isBlockedObjectKey key = false → keys key) (hresult : HoldsFields strings keys result)
    (hkey : keys key) (hvalue : value.Patches strings keys) : HoldsFields strings keys (applyMember result key value) := by
  cases value with
  | null => exact hresult.remove key
  | obj patch =>
    refine hresult.assign hkey (applyMembers_holds hkeys ?_ hvalue)
    cases hlookup : result.lookup key with
    | none => trivial
    | some old =>
      cases old with
      | obj fields => exact hresult.lookup hlookup
      | _ => trivial
  | _ => exact hresult.assign hkey hvalue
termination_by structural value
end

theorem setMember_own {key : Text} (h : IsOwnKey key) (value : ConfigValue) (result : Fields) :
    setMember key value result = (key, value) :: result :=
  if_neg h

theorem restoreString_substitutes (h : WithoutReference incoming) (parsed : Text) :
    substituteString env (restoreString env incoming parsed) = some incoming := by
  unfold restoreString
  split
  case isTrue hrestored =>
    rw [Bool.and_eq_true, decide_eq_true_eq] at hrestored
    rw [substituteString_eq_chars]
    exact hrestored.2
  case isFalse => exact substituteString_eq_self env h

mutual
/-- A config without references stands for itself. -/
theorem substituteAny_literal {value : ConfigValue} (h : value.Literal) : substituteAny env value = some value := by
  cases value with
  | str s => rw [substituteAny, substituteString_eq_self env h, Option.map_some]
  | arr items => rw [substituteAny, substituteItems_literal h, Option.map_some]
  | obj fields => rw [substituteAny, substituteFields_literal h, Option.map_some]
  | _ => rfl
termination_by structural value
theorem substituteItems_literal {items : List ConfigValue} (h : HoldsItems WithoutReference IsOwnKey items) :
    substituteItems env items = some items := by
  cases items with
  | nil => rfl
  | cons item items =>
    simp only [substituteItems, Option.bind_eq_bind, substituteAny_literal h.1, substituteItems_literal h.2, Option.bind_some]
termination_by structural items
theorem substituteFields_literal {fields : Fields} (h : HoldsFields WithoutReference IsOwnKey fields) :
    substituteFields env fields = some fields := by
  cases fields with
  | nil => rfl
  | cons field fields =>
    obtain ⟨key, value⟩ := field
    simp only [substituteFields, Option.bind_eq_bind, substituteAny_literal h.2.1, substituteFields_literal h.2.2,
      Option.bind_some, setMember_own h.1]
termination_by structural fields
end

mutual
theorem restoreEnvVarRefs_substitutes {value : ConfigValue} (h : value.Literal) (parsed : ConfigValue) :
    substituteAny env (restoreEnvVarRefs env value parsed) = some value := by
  cases value with
  | str incoming =>
    cases parsed with
    | str parsed => rw [restoreEnvVarRefs, substituteAny, restoreString_substitutes h, Option.map_some]
    | _ => exact substituteAny_literal h
  | arr incoming =>
    cases parsed with
    | arr parsed => rw [restoreEnvVarRefs, substituteAny, restoreItems_substitutes h, Option.map_some]
    | _ => exact substituteAny_literal h
  | obj incoming =>
    cases parsed with
    | obj parsed => rw [restoreEnvVarRefs, substituteAny, restoreFields_substitutes h, Option.map_some]
    | _ => exact substituteAny_literal h
  | _ => cases parsed <;> exact substituteAny_literal h
termination_by structural value
theorem restoreItems_substitutes {items : List ConfigValue} (h : HoldsItems WithoutReference IsOwnKey items)
    (parsed : List ConfigValue) : substituteItems env (restoreItems env items parsed) = some items := by
  cases items with
  | nil => rfl
  | cons item items =>
    cases parsed with
    | nil => exact substituteItems_literal h
    | cons other parsed =>
      simp only [restoreItems, substituteItems, Option.bind_eq_bind, restoreEnvVarRefs_substitutes h.1,
        restoreItems_substitutes h.2, Option.bind_some]
termination_by structural items
theorem restoreFields_substitutes {fields : Fields} (h : HoldsFields WithoutReference IsOwnKey fields) (parsed : Fields) :
    substituteFields env (restoreFields env fields parsed) = some fields := by
  cases fields with
  | nil => rfl
  | cons field fields =>
    obtain ⟨key, value⟩ := field
    rw [restoreFields, setMember_own h.1]
    simp only [substituteFields, Option.bind_eq_bind, restoreFields_substitutes h.2.2]
    cases parsed.lookup key with
    | none => simp only [substituteAny_literal h.2.1, Option.bind_some, setMember_own h.1]
    | some other => simp only [restoreEnvVarRefs_substitutes h.2.1, Option.bind_some, setMember_own h.1]
termination_by structural fields
end

-- ---
-- Own keys
-- ---

def AnyText (_ : Text) : Prop := True

def OwnKeys (fields : Fields) : Prop := HoldsFields AnyText IsOwnKey fields

mutual
theorem ConfigValue.Literal.ownKeys {value : ConfigValue} (h : value.Literal) : value.Holds AnyText IsOwnKey := by
  cases value with
  | str s => trivial
  | arr items => exact HoldsItems.ownKeys h
  | obj fields => exact HoldsFields.ownKeys h
  | _ => trivial
termination_by structural value
theorem HoldsItems.ownKeys {items : List ConfigValue} (h : HoldsItems WithoutReference IsOwnKey items) :
    HoldsItems AnyText IsOwnKey items := by
  cases items with
  | nil => trivial
  | cons item items => exact ⟨ConfigValue.Literal.ownKeys h.1, HoldsItems.ownKeys h.2⟩
termination_by structural items
theorem HoldsFields.ownKeys {fields : Fields} (h : HoldsFields WithoutReference IsOwnKey fields) : OwnKeys fields := by
  cases fields with
  | nil => trivial
  | cons field fields =>
    obtain ⟨key, value⟩ := field
    exact ⟨h.1, ConfigValue.Literal.ownKeys h.2.1, HoldsFields.ownKeys h.2.2⟩
termination_by structural fields
end

mutual
theorem restoreEnvVarRefs_ownKeys {value : ConfigValue} (h : value.Holds AnyText IsOwnKey) (parsed : ConfigValue) :
    (restoreEnvVarRefs env value parsed).Holds AnyText IsOwnKey := by
  cases value with
  | str incoming => cases parsed <;> trivial
  | arr incoming =>
    cases parsed with
    | arr parsed => exact restoreItems_ownKeys h parsed
    | _ => exact h
  | obj incoming =>
    cases parsed with
    | obj parsed => exact restoreFields_ownKeys h parsed
    | _ => exact h
  | _ => cases parsed <;> trivial
termination_by structural value
theorem restoreItems_ownKeys {items : List ConfigValue} (h : HoldsItems AnyText IsOwnKey items)
    (parsed : List ConfigValue) : HoldsItems AnyText IsOwnKey (restoreItems env items parsed) := by
  cases items with
  | nil => trivial
  | cons item items =>
    cases parsed with
    | nil => exact h
    | cons other parsed => exact ⟨restoreEnvVarRefs_ownKeys h.1 other, restoreItems_ownKeys h.2 parsed⟩
termination_by structural items
theorem restoreFields_ownKeys {fields : Fields} (h : OwnKeys fields) (parsed : Fields) :
    OwnKeys (restoreFields env fields parsed) := by
  cases fields with
  | nil => trivial
  | cons field fields =>
    obtain ⟨key, value⟩ := field
    rw [restoreFields, setMember_own h.1]
    refine ⟨h.1, ?_, restoreFields_ownKeys h.2.2 parsed⟩
    cases parsed.lookup key with
    | none => exact h.2.1
    | some other => exact restoreEnvVarRefs_ownKeys h.2.1 other
termination_by structural fields
end

-- ---
-- References restored by their paths
-- ---

mutual
/-- The strings of a config, each with its path as the paths of references are written. -/
def stringPaths : ConfigValue → Text → List (Text × Text)
  | .str s, path => [(path, s)]
  | .arr items, path => itemStrings items path 0
  | .obj fields, path => fieldStrings fields path
  | _, _ => []
def itemStrings : List ConfigValue → Text → Nat → List (Text × Text)
  | [], _, _ => []
  | item :: items, path, index => stringPaths item (itemPath path index) ++ itemStrings items path (index + 1)
def fieldStrings : Fields → Text → List (Text × Text)
  | [], _ => []
  | (key, child) :: fields, path => stringPaths child (joinPath path key) ++ fieldStrings fields path
end

section Restore

variable {envRefMap : List (Text × Text)} {changedPaths : List Text}

mutual
theorem restoreEnvRefsFromMap_unchanged {value : ConfigValue} {path : Text} (hkeys : value.Holds AnyText IsOwnKey)
    (h : (restoreEnvRefsFromMap envRefMap changedPaths value path).2 = false) :
    (restoreEnvRefsFromMap envRefMap changedPaths value path).1 = value := by
  cases value with
  | str value =>
    rw [restoreEnvRefsFromMap] at h ⊢
    cases href : refAt envRefMap changedPaths path with
    | none => rfl
    | some original =>
      rw [href] at h
      simpa using h
  | arr items =>
    rw [restoreEnvRefsFromMap] at h ⊢
    split at h
    case isTrue => cases h
    case isFalse hsame => rw [if_neg hsame]
  | obj fields =>
    rw [restoreEnvRefsFromMap] at h ⊢
    split at h
    case isTrue => cases h
    case isFalse hsame => rw [if_neg hsame]
  | _ => rfl
termination_by structural value
theorem restoreItemRefs_unchanged {items : List ConfigValue} {path : Text} {index : Nat}
    (hkeys : HoldsItems AnyText IsOwnKey items)
    (h : (restoreItemRefs envRefMap changedPaths items path index).2 = false) :
    (restoreItemRefs envRefMap changedPaths items path index).1 = items := by
  cases items with
  | nil => rfl
  | cons item items =>
    rw [restoreItemRefs] at h ⊢
    obtain ⟨hitem, hitems⟩ := Bool.or_eq_false_iff.1 h
    exact congrArg₂ _ (restoreEnvRefsFromMap_unchanged hkeys.1 hitem) (restoreItemRefs_unchanged hkeys.2 hitems)
termination_by structural items
theorem restoreFieldRefs_unchanged {fields : Fields} {path : Text} (hkeys : OwnKeys fields)
    (h : (restoreFieldRefs envRefMap changedPaths fields path).2 = false) :
    (restoreFieldRefs envRefMap changedPaths fields path).1 = fields := by
  cases fields with
  | nil => rfl
  | cons field fields =>
    obtain ⟨key, child⟩ := field
    rw [restoreFieldRefs] at h ⊢
    obtain ⟨hchild, hfields⟩ := Bool.or_eq_false_iff.1 h
    rw [setMember_own hkeys.1]
    exact congrArg₂ _ (congrArg _ (restoreEnvRefsFromMap_unchanged hkeys.2.1 hchild))
      (restoreFieldRefs_unchanged hkeys.2.2 hfields)
termination_by structural fields
end

theorem restoreEnvRefsFromMap_arr {items : List ConfigValue} (hkeys : HoldsItems AnyText IsOwnKey items) (path : Text) :
    (restoreEnvRefsFromMap envRefMap changedPaths (.arr items) path).1 =
      .arr (restoreItemRefs envRefMap changedPaths items path 0).1 := by
  rw [restoreEnvRefsFromMap]
  split
  case isTrue => rfl
  case isFalse hsame => rw [restoreItemRefs_unchanged hkeys (Bool.eq_false_iff.2 hsame)]

theorem restoreEnvRefsFromMap_obj {fields : Fields} (hkeys : OwnKeys fields) (path : Text) :
    (restoreEnvRefsFromMap envRefMap changedPaths (.obj fields) path).1 =
      .obj (restoreFieldRefs envRefMap changedPaths fields path).1 := by
  rw [restoreEnvRefsFromMap]
  split
  case isTrue => rfl
  case isFalse hsame => rw [restoreFieldRefs_unchanged hkeys (Bool.eq_false_iff.2 hsame)]

variable (env envRefMap changedPaths) in
/-- Where a reference is restored for a string, it is a reference to that string. -/
def KeepsStrings (entries : List (Text × Text)) : Prop :=
  ∀ entry ∈ entries, ∀ original, refAt envRefMap changedPaths entry.1 = some original →
    substituteString env original = some entry.2

theorem keepsStrings_append {entries rest : List (Text × Text)} :
    KeepsStrings env envRefMap changedPaths (entries ++ rest) ↔
      KeepsStrings env envRefMap changedPaths entries ∧ KeepsStrings env envRefMap changedPaths rest :=
  List.forall_mem_append

theorem restoreString_iff {value s : Text} (path : Text) (h : substituteString env value = some s) :
    substituteAny env (restoreEnvRefsFromMap envRefMap changedPaths (.str value) path).1 = some (.str s) ↔
      KeepsStrings env envRefMap changedPaths [(path, s)] := by
  rw [restoreEnvRefsFromMap]
  cases href : refAt envRefMap changedPaths path with
  | none => simp [KeepsStrings, href, substituteAny, h]
  | some original => simp [KeepsStrings, href, substituteAny]

mutual
theorem restoreEnvRefsFromMap_iff {written value : ConfigValue} (hkeys : written.Holds AnyText IsOwnKey) (path : Text)
    (h : substituteAny env written = some value) :
    substituteAny env (restoreEnvRefsFromMap envRefMap changedPaths written path).1 = some value ↔
      KeepsStrings env envRefMap changedPaths (stringPaths value path) := by
  cases written with
  | str written =>
    obtain ⟨s, hs, rfl⟩ := Option.map_eq_some_iff.1 h
    exact restoreString_iff path hs
  | arr written =>
    obtain ⟨items, hitems, rfl⟩ := Option.map_eq_some_iff.1 h
    rw [restoreEnvRefsFromMap_arr hkeys, substituteAny, stringPaths, ← restoreItemRefs_iff hkeys path 0 hitems]
    simp
  | obj written =>
    obtain ⟨fields, hfields, rfl⟩ := Option.map_eq_some_iff.1 h
    rw [restoreEnvRefsFromMap_obj hkeys, substituteAny, stringPaths, ← restoreFieldRefs_iff hkeys path hfields]
    simp
  | _ =>
    cases h
    exact iff_of_true rfl nofun
termination_by structural written
theorem restoreItemRefs_iff {written items : List ConfigValue} (hkeys : HoldsItems AnyText IsOwnKey written) (path : Text)
    (index : Nat) (h : substituteItems env written = some items) :
    substituteItems env (restoreItemRefs envRefMap changedPaths written path index).1 = some items ↔
      KeepsStrings env envRefMap changedPaths (itemStrings items path index) := by
  cases written with
  | nil =>
    cases h
    exact iff_of_true rfl nofun
  | cons first written =>
    simp only [substituteItems, Option.bind_eq_bind, Option.bind_eq_some_iff] at h
    obtain ⟨item, hitem, items, hitems, h⟩ := h
    cases h
    rw [itemStrings, keepsStrings_append, ← restoreEnvRefsFromMap_iff hkeys.1 _ hitem,
      ← restoreItemRefs_iff hkeys.2 path (index + 1) hitems, restoreItemRefs]
    simp only [substituteItems, Option.bind_eq_bind, Option.bind_eq_some_iff]
    constructor
    · rintro ⟨item', hitem', items', hitems', h⟩
      cases h
      exact ⟨hitem', hitems'⟩
    · rintro ⟨hitem', hitems'⟩
      exact ⟨_, hitem', _, hitems', rfl⟩
termination_by structural written
theorem restoreFieldRefs_iff {written fields : Fields} (hkeys : OwnKeys written) (path : Text)
    (h : substituteFields env written = some fields) :
    substituteFields env (restoreFieldRefs envRefMap changedPaths written path).1 = some fields ↔
      KeepsStrings env envRefMap changedPaths (fieldStrings fields path) := by
  cases written with
  | nil =>
    cases h
    exact iff_of_true rfl nofun
  | cons field written =>
    obtain ⟨key, child⟩ := field
    simp only [substituteFields, Option.bind_eq_bind, Option.bind_eq_some_iff, setMember_own hkeys.1] at h
    obtain ⟨value, hvalue, fields, hfields, h⟩ := h
    cases h
    rw [fieldStrings, keepsStrings_append, ← restoreEnvRefsFromMap_iff hkeys.2.1 _ hvalue,
      ← restoreFieldRefs_iff hkeys.2.2 path hfields, restoreFieldRefs, setMember_own hkeys.1]
    simp only [substituteFields, Option.bind_eq_bind, Option.bind_eq_some_iff, setMember_own hkeys.1]
    constructor
    · rintro ⟨value', hvalue', fields', hfields', h⟩
      cases h
      exact ⟨hvalue', hfields'⟩
    · rintro ⟨hvalue', hfields'⟩
      exact ⟨_, hvalue', _, hfields', rfl⟩
termination_by structural written
end

end Restore

-- ---
-- What is written
-- ---

def sampleEnv : Env := fun name => if name = ['X'] then some ['x'] else none

/-- A config with the string at `env.vars.A`, beside a key `vars.A` of `env`. -/
def sampleConfig (dotted nested : String) : ConfigValue :=
  .obj [("env".toList, .obj [("vars.A".toList, .str dotted.toList),
    ("vars".toList, .obj [("A".toList, .str nested.toList)])])]

end OpenClaw.Config
