import OpenClaw.Cron.Service.Timer
import OpenClaw.Lib.Members

/-!
# Recovery of mangled cron input

What the patched cron tool does to a job that a small model has written: fields beside the
job fill its gaps, keys with a mangled end are renamed at every depth, and fields with an
underscore in their name are put into the record they belong to. Members of
`Object.prototype` are not modelled.
-/

namespace OpenClaw.Cron

open Js
open Members (assign remove)

/-- The own fields of a record, which have distinct keys. -/
abbrev JsonFields := List (String × Json)

-- ---
-- Mangled keys
-- ---

/-- The first group of `/^([A-Za-z_][A-Za-z0-9_]*)[^A-Za-z0-9_]/`. -/
def realName? (key : String) : Option String :=
  let starts := key.toList.head?.any fun c => c.isAlpha || c = '_'
  if starts && !key.toList.all isWordChar then some (String.ofList (key.toList.takeWhile isWordChar))
  else none

def renames (fields : JsonFields) : List (String × String) :=
  fields.filterMap fun field => (realName? field.1).map (field.1, ·)

/-- `{ ...base, ...top }` -/
def spread (base top : JsonFields) : JsonFields :=
  base.map (fun field => (field.1, (top.lookup field.1).getD field.2)) ++
    top.filter fun field => (base.lookup field.1).isNone

/-- A value moves to its real name, unless another is there: of two records the one that is
there wins, and of other values it stays. -/
def rename (fields : JsonFields) (move : String × String) : JsonFields :=
  match fields.lookup move.1 with
  | none => fields
  | some val =>
    let fields := remove fields move.1
    match fields.lookup move.2 with
    | none => assign fields move.2 val
    | some existing =>
      match val, existing with
      | .obj val, .obj existing => assign fields move.2 (.obj (spread val existing))
      | _, _ => fields

def renamed (fields : JsonFields) : JsonFields :=
  (renames fields).foldl rename fields

def mapRecord (f : JsonFields → JsonFields) : Json → Json
  | .obj fields => .obj (f fields)
  | value => value

mutual
/-- How deep records are nested in records. -/
def recordDepth : Json → Nat
  | .obj fields => fieldsDepth fields + 1
  | _ => 0
def fieldsDepth : List (String × Json) → Nat
  | [] => 0
  | (_, value) :: fields => max (recordDepth value) (fieldsDepth fields)
end

/-- The repair of a record and of the records in it, to a depth. -/
def repairWithin : Nat → JsonFields → JsonFields
  | 0, fields => fields
  | depth + 1, fields =>
    (renamed fields).map fun field => (field.1, mapRecord (repairWithin depth) field.2)

def repairMangledKeys (fields : JsonFields) : JsonFields :=
  repairWithin (recordDepth (.obj fields)) fields

-- ---
-- Prefixed fields
-- ---

structure PrefixedField where
  prefixedKey : String
  target : String
  field : String

def PREFIXED_FIELD_GROUPS : List PrefixedField := [
  ⟨"schedule_kind", "schedule", "kind"⟩,
  ⟨"schedule_at", "schedule", "at"⟩,
  ⟨"schedule_expr", "schedule", "expr"⟩,
  ⟨"schedule_tz", "schedule", "tz"⟩,
  ⟨"schedule_everyMs", "schedule", "everyMs"⟩,
  ⟨"schedule_every", "schedule", "every"⟩,
  ⟨"payload_kind", "payload", "kind"⟩,
  ⟨"payload_text", "payload", "text"⟩,
  ⟨"payload_message", "payload", "message"⟩,
  ⟨"payload_model", "payload", "model"⟩,
  ⟨"payload_thinking", "payload", "thinking"⟩,
  ⟨"payload_timeoutSeconds", "payload", "timeoutSeconds"⟩,
  ⟨"delivery_mode", "delivery", "mode"⟩,
  ⟨"delivery_channel", "delivery", "channel"⟩,
  ⟨"delivery_to", "delivery", "to"⟩]

/-- `isRecord(record[key]) ? record[key] : {}` -/
def recordAt (fields : JsonFields) (key : String) : JsonFields :=
  match fields.lookup key with
  | some (.obj nested) => nested
  | _ => []

def nestField (fields : JsonFields) (mapping : PrefixedField) : JsonFields :=
  match fields.lookup mapping.prefixedKey with
  | none => fields
  | some value =>
    let existing := assign (recordAt fields mapping.target) mapping.field value
    remove (assign fields mapping.target (.obj existing)) mapping.prefixedKey

/-- `sessionTarget_main: "main"` and the like. -/
def prefixedTarget? (field : String × Json) : Option String :=
  if "sessionTarget_".toList.isPrefixOf field.1.toList then field.2.str? else none

def takeSessionTarget (fields : JsonFields) (field : String × Json) : JsonFields :=
  match prefixedTarget? field with
  | some sessionTarget => remove (assign fields "sessionTarget" (.str sessionTarget)) field.1
  | none => fields

/-- A bare `at` becomes the schedule where there is no record of one. -/
def nestAt (fields : JsonFields) : JsonFields :=
  match fields.lookup "at" with
  | some (.str time) =>
    match fields.lookup "schedule" with
    | some (.obj _) => fields
    | _ => remove (assign fields "schedule" (.obj [("at", .str time), ("kind", .str "at")])) "at"
  | _ => fields

def reconstructPrefixedFields (fields : JsonFields) : JsonFields :=
  let nested := PREFIXED_FIELD_GROUPS.foldl nestField fields
  nestAt (nested.foldl takeSessionTarget nested)

-- ---
-- Fields beside the job
-- ---

def CRON_FLAT_PAYLOAD_KEYS : List String :=
  ["message", "text", "model", "fallbacks", "toolsAllow", "thinking", "timeoutSeconds",
    "lightContext", "allowUnsafeExternalContent"]

def CRON_RECOVERABLE_OBJECT_KEYS : List String :=
  ["name", "schedule", "sessionTarget", "wakeMode", "payload", "delivery", "enabled",
    "description", "deleteAfterRun", "agentId", "sessionKey", "failureAlert"] ++
  CRON_FLAT_PAYLOAD_KEYS

def absorbField (job : JsonFields) (param : String × Json) : JsonFields :=
  if param.1 = "job" ∨ param.1 = "action" then job
  else if param.1 ∈ CRON_RECOVERABLE_OBJECT_KEYS ∧ (job.lookup param.1).isNone then
    assign job param.1 param.2
  else job

/-- The partial-job recovery: fields beside the job fill its gaps. -/
def absorbFields (params job : JsonFields) : JsonFields :=
  params.foldl absorbField job

/-- What becomes of the `job` among the parameters of the tool. -/
def recoverJob (params job : JsonFields) : JsonFields :=
  reconstructPrefixedFields (repairMangledKeys (absorbFields params job))

end OpenClaw.Cron

/-!
# Repair of mangled keys

The repair leaves no mangled key in a record or in the records in it, is done once and for
all, and keeps what stands under a key that is not mangled, whatever else has its name.
-/

namespace OpenClaw.Cron

open Js
open Members (assign remove)

-- ---
-- Values that stay
-- ---

/-- A value that is kept: a record keeps, and may gain, fields under keys that are not
mangled, and anything else stays as it is. -/
inductive ValueKept : Json → Json → Prop
  | same (value : Json) : ValueKept value value
  | record {fields fields' : JsonFields} (next : String → Json)
      (hnext : ∀ key value, fields.lookup key = some value → realName? key = none →
        fields'.lookup key = some (next key))
      (hkept : ∀ key value, fields.lookup key = some value → realName? key = none →
        ValueKept value (next key)) :
      ValueKept (.obj fields) (.obj fields')

/-- Every field under a key that is not mangled is kept. -/
def FieldsKept (fields fields' : JsonFields) : Prop :=
  ∀ key value, fields.lookup key = some value → realName? key = none →
    ∃ value', fields'.lookup key = some value' ∧ ValueKept value value'

theorem valueKept_obj_iff {fields : JsonFields} {value : Json} :
    ValueKept (.obj fields) value ↔ ∃ fields', value = .obj fields' ∧ FieldsKept fields fields' := by
  constructor
  · intro h
    cases h with
    | same => exact ⟨fields, rfl, fun key value h _ => ⟨value, h, .same value⟩⟩
    | record next hnext hkept =>
      exact ⟨_, rfl, fun key value h hkey => ⟨next key, hnext key value h hkey, hkept key value h hkey⟩⟩
  · rintro ⟨fields', rfl, h⟩
    have hchoice (key : String) : ∃ value', ∀ value, fields.lookup key = some value →
        realName? key = none → fields'.lookup key = some value' ∧ ValueKept value value' := by
      cases hvalue : fields.lookup key with
      | none => exact ⟨.null, fun value h => by cases h⟩
      | some value =>
        by_cases hkey : realName? key = none
        · obtain ⟨value', hvalue', hkept⟩ := h key value hvalue hkey
          refine ⟨value', fun other hother _ => ?_⟩
          obtain rfl := Option.some.inj hother
          exact ⟨hvalue', hkept⟩
        · exact ⟨.null, fun _ _ h => absurd h hkey⟩
    obtain ⟨next, hnext⟩ := Classical.axiomOfChoice hchoice
    exact .record next (fun key value h hkey => (hnext key value h hkey).1)
      fun key value h hkey => (hnext key value h hkey).2

theorem valueKept_of_not_record {value value' : Json} (h : ∀ fields, value ≠ .obj fields) :
    ValueKept value value' ↔ value' = value := by
  constructor
  · intro hkept
    cases hkept with
    | same => rfl
    | record => exact absurd rfl (h _)
  · rintro rfl
    exact .same _

-- ---
-- Renaming
-- ---

theorem realName?_word {key : String} (h : key.toList.all isWordChar = true) :
    realName? key = none := by
  simp [realName?, h]

theorem realName?_takeWhile (key : String) :
    realName? (String.ofList (key.toList.takeWhile isWordChar)) = none := by
  refine realName?_word ?_
  rw [String.toList_ofList]
  exact List.all_eq_true.mpr fun c hc => List.mem_takeWhile_imp hc

theorem realName?_some {key name : String} (h : realName? key = some name) :
    realName? name = none := by
  unfold realName? at h
  dsimp only at h
  split at h
  · obtain rfl := Option.some.inj h
    exact realName?_takeWhile key
  · cases h

theorem lookup_map_snd (f : Json → Json) (fields : JsonFields) (key : String) :
    (fields.map fun field => (field.1, f field.2)).lookup key = (fields.lookup key).map f := by
  induction fields with
  | nil => rfl
  | cons field fields ih =>
    rw [List.map_cons, Members.lookup_cons, Members.lookup_cons, ih]
    by_cases hkey : key = field.1
    · simp [hkey]
    · simp [hkey]

theorem lookup_spread (base top : JsonFields) (key : String) :
    (spread base top).lookup key = (top.lookup key).or (base.lookup key) := by
  have hbase : (base.map fun field => (field.1, (top.lookup field.1).getD field.2)).lookup key =
      (base.lookup key).map ((top.lookup key).getD ·) := by
    induction base with
    | nil => rfl
    | cons field base ih =>
      rw [List.map_cons, Members.lookup_cons, Members.lookup_cons, ih]
      by_cases hkey : key = field.1
      · simp [hkey]
      · simp [hkey]
  rw [spread, List.lookup_append, hbase,
    Members.lookup_filter top (fun key => (base.lookup key).isNone)]
  cases base.lookup key with
  | none => simp
  | some value => cases top.lookup key <;> simp

/-- The values of a spread are those of the two records. -/
theorem value_mem_spread {base top : JsonFields} (h : field ∈ spread base top) :
    (∃ other ∈ base, other.2 = field.2) ∨ ∃ other ∈ top, other.2 = field.2 := by
  rcases List.mem_append.mp h with h | h
  · obtain ⟨other, hother, rfl⟩ := List.mem_map.mp h
    cases htop : top.lookup other.1 with
    | none => exact .inl ⟨other, hother, by simp⟩
    | some value => exact .inr ⟨(other.1, value), Members.mem_of_lookup htop, by simp⟩
  · exact .inr ⟨field, (List.mem_filter.mp h).1, rfl⟩

section
variable {fields : JsonFields} {move : String × String}

/-- What every value of the fields has, and spreading keeps, every value has after a move. -/
theorem rename_forall {P : Json → Prop}
    (hspread : ∀ base top, P (.obj base) → P (.obj top) → P (.obj (spread base top)))
    (h : ∀ field ∈ fields, P field.2) : ∀ field ∈ rename fields move, P field.2 := by
  unfold rename
  cases hval : fields.lookup move.1 with
  | none => exact h
  | some val =>
    have hrest : ∀ field ∈ remove fields move.1, P field.2 :=
      fun field hfield => h field (List.mem_filter.mp hfield).1
    have hP := h _ (Members.mem_of_lookup hval)
    have hassign (value : Json) (hvalue : P value) :
        ∀ field ∈ assign (remove fields move.1) move.2 value, P field.2 := by
      intro field hfield
      rcases Members.mem_assign hfield with hfield | rfl
      · exact hrest field hfield
      · exact hvalue
    cases hexisting : (remove fields move.1).lookup move.2 with
    | none => simpa only [hexisting] using hassign val hP
    | some existing =>
      have hP' := hrest _ (Members.mem_of_lookup hexisting)
      simp only [hexisting]
      split
      · exact hassign _ (hspread _ _ hP hP')
      · exact hrest

/-- A move takes its key away and adds at most its name. -/
theorem mem_keys_rename (hne : move.1 ≠ move.2) (h : key ∈ (rename fields move).map Prod.fst) :
    key ≠ move.1 ∧ (key ∈ fields.map Prod.fst ∨ key = move.2) := by
  unfold rename at h
  cases hval : fields.lookup move.1 with
  | none =>
    simp only [hval] at h
    refine ⟨?_, .inl h⟩
    rintro rfl
    exact Members.lookup_eq_none.mp hval h
  | some val =>
    simp only [hval] at h
    have hrest (h : key ∈ (remove fields move.1).map Prod.fst) :
        key ≠ move.1 ∧ (key ∈ fields.map Prod.fst ∨ key = move.2) := by
      obtain ⟨field, hfield, rfl⟩ := List.mem_map.mp h
      obtain ⟨hmem, hkey⟩ := List.mem_filter.mp hfield
      exact ⟨by simpa using hkey, .inl (List.mem_map_of_mem hmem)⟩
    have hassign (value : Json) (h : key ∈ (assign (remove fields move.1) move.2 value).map Prod.fst) :
        key ≠ move.1 ∧ (key ∈ fields.map Prod.fst ∨ key = move.2) := by
      rcases Members.mem_keys_assign.mp h with h | rfl
      · exact hrest h
      · exact ⟨hne.symm, .inr rfl⟩
    split at h
    · exact hassign _ h
    · split at h
      · exact hassign _ h
      · exact hrest h

end

/-- A value as it is, or a record with at least its fields. -/
def Extends (value value' : Json) : Prop :=
  value' = value ∨ ∃ fields fields', value = .obj fields ∧ value' = .obj fields' ∧
    ∀ key nested, fields.lookup key = some nested → fields'.lookup key = some nested

theorem Extends.trans (h : Extends a b) (h' : Extends b c) : Extends a c := by
  obtain rfl | ⟨fields₁, fields₂, rfl, rfl, hext⟩ := h
  · exact h'
  · obtain rfl | ⟨fields₂', fields₃, heq, rfl, hext'⟩ := h'
    · exact .inr ⟨_, _, rfl, rfl, hext⟩
    · cases heq
      exact .inr ⟨_, _, rfl, rfl, fun key nested h => hext' key nested (hext key nested h)⟩

/-- What stands under another key than the one that moves stays there. -/
theorem lookup_rename {fields : JsonFields} {move : String × String} (hkey : key ≠ move.1)
    (h : fields.lookup key = some value) :
    ∃ value', (rename fields move).lookup key = some value' ∧ Extends value value' := by
  unfold rename
  cases hval : fields.lookup move.1 with
  | none => exact ⟨value, h, .inl rfl⟩
  | some val =>
    have hrest : (remove fields move.1).lookup key = some value := by
      rw [Members.lookup_remove, if_neg hkey, h]
    have hassign (moved : Json) (hne : key ≠ move.2) :
        (assign (remove fields move.1) move.2 moved).lookup key = some value := by
      rw [Members.lookup_assign, if_neg hne, hrest]
    cases hexisting : (remove fields move.1).lookup move.2 with
    | none =>
      simp only [hexisting]
      refine ⟨value, hassign val ?_, .inl rfl⟩
      rintro rfl
      rw [hrest] at hexisting
      cases hexisting
    | some existing =>
      simp only [hexisting]
      split
      · rename_i base top
        by_cases heq : key = move.2
        · subst heq
          obtain rfl := Option.some.inj (hrest.symm.trans hexisting)
          refine ⟨_, by rw [Members.lookup_assign, if_pos rfl], .inr ⟨_, _, rfl, rfl, ?_⟩⟩
          intro key nested hnested
          rw [lookup_spread, hnested, Option.some_or]
        · exact ⟨value, hassign _ heq, .inl rfl⟩
      · exact ⟨value, hrest, .inl rfl⟩

-- ---
-- One record
-- ---

theorem mem_renames {fields : JsonFields} {move : String × String} (h : move ∈ renames fields) :
    move.1 ∈ fields.map Prod.fst ∧ realName? move.1 = some move.2 := by
  obtain ⟨field, hfield, hmove⟩ := List.mem_filterMap.mp h
  obtain ⟨name, hname, rfl⟩ := Option.map_eq_some_iff.mp hmove
  exact ⟨List.mem_map_of_mem hfield, hname⟩

theorem renames_eq_nil {fields : JsonFields} (h : ∀ field ∈ fields, realName? field.1 = none) :
    renames fields = [] :=
  List.filterMap_eq_nil_iff.mpr fun field hfield => by rw [h field hfield, Option.map_none]

theorem ne_of_rename {key name : String} (h : realName? key = some name) : key ≠ name := by
  rintro rfl
  have := realName?_some h
  rw [h] at this
  cases this

theorem mem_keys_foldl_rename {fields : JsonFields} {moves : List (String × String)}
    (hmoves : ∀ move ∈ moves, realName? move.1 = some move.2)
    (h : key ∈ (moves.foldl rename fields).map Prod.fst) :
    key ∈ fields.map Prod.fst ∧ key ∉ moves.map Prod.fst ∨ realName? key = none := by
  induction moves generalizing fields with
  | nil => exact .inl ⟨h, by simp⟩
  | cons move moves ih =>
    obtain ⟨hmove, hrest⟩ := List.forall_mem_cons.mp hmoves
    obtain ⟨hkey, hnew⟩ | hclean := ih hrest h
    · obtain ⟨hne, hfields | rfl⟩ := mem_keys_rename (ne_of_rename hmove) hkey
      · exact .inl ⟨hfields, by simpa [hne] using hnew⟩
      · exact .inr (realName?_some hmove)
    · exact .inr hclean

theorem renamed_clean (fields : JsonFields) : ∀ field ∈ renamed fields, realName? field.1 = none := by
  intro field hfield
  have hmoves : ∀ move ∈ renames fields, realName? move.1 = some move.2 :=
    fun move hmove => (mem_renames hmove).2
  obtain ⟨hmem, hnew⟩ | hclean := mem_keys_foldl_rename hmoves (List.mem_map_of_mem hfield)
  · cases hname : realName? field.1 with
    | none => rfl
    | some name =>
      obtain ⟨other, hother, heq⟩ := List.mem_map.mp hmem
      refine absurd (List.mem_map.mpr ⟨(field.1, name), ?_, rfl⟩) hnew
      exact List.mem_filterMap.mpr ⟨other, hother, by rw [heq, hname, Option.map_some]⟩
  · exact hclean

theorem renamed_of_clean {fields : JsonFields} (h : ∀ field ∈ fields, realName? field.1 = none) :
    renamed fields = fields := by
  rw [renamed, renames_eq_nil h, List.foldl_nil]

theorem renamed_forall {P : Json → Prop} {fields : JsonFields}
    (hspread : ∀ base top, P (.obj base) → P (.obj top) → P (.obj (spread base top)))
    (h : ∀ field ∈ fields, P field.2) : ∀ field ∈ renamed fields, P field.2 := by
  unfold renamed
  generalize renames fields = moves
  induction moves generalizing fields with
  | nil => exact h
  | cons move moves ih => exact ih (rename_forall hspread h)

theorem lookup_renamed {fields : JsonFields} (hkey : realName? key = none)
    (h : fields.lookup key = some value) :
    ∃ value', (renamed fields).lookup key = some value' ∧ Extends value value' := by
  have hmoves : ∀ move ∈ renames fields, key ≠ move.1 := by
    rintro move hmove rfl
    rw [(mem_renames hmove).2] at hkey
    cases hkey
  unfold renamed
  revert hmoves
  generalize renames fields = moves
  intro hmoves
  induction moves generalizing fields value with
  | nil => exact ⟨value, h, .inl rfl⟩
  | cons move moves ih =>
    obtain ⟨hne, hrest⟩ := List.forall_mem_cons.mp hmoves
    obtain ⟨value₁, hvalue₁, hext₁⟩ := lookup_rename hne h
    obtain ⟨value₂, hvalue₂, hext₂⟩ := ih hvalue₁ hrest
    exact ⟨value₂, hvalue₂, hext₁.trans hext₂⟩

-- ---
-- Depth
-- ---

theorem fieldsDepth_le_iff {fields : JsonFields} :
    fieldsDepth fields ≤ depth ↔ ∀ field ∈ fields, recordDepth field.2 ≤ depth := by
  induction fields with
  | nil => simp [fieldsDepth]
  | cons field fields ih =>
    obtain ⟨key, value⟩ := field
    simp [fieldsDepth, ih]

theorem recordDepth_spread {base top : JsonFields} (hbase : recordDepth (.obj base) ≤ depth)
    (htop : recordDepth (.obj top) ≤ depth) : recordDepth (.obj (spread base top)) ≤ depth := by
  cases depth with
  | zero => simp [recordDepth] at hbase
  | succ depth =>
    simp only [recordDepth, Nat.add_le_add_iff_right, fieldsDepth_le_iff] at hbase htop ⊢
    intro field hfield
    obtain ⟨other, hother, heq⟩ | ⟨other, hother, heq⟩ := value_mem_spread hfield
    · exact heq ▸ hbase other hother
    · exact heq ▸ htop other hother

theorem fieldsDepth_renamed (h : fieldsDepth fields ≤ depth) : fieldsDepth (renamed fields) ≤ depth := by
  rw [fieldsDepth_le_iff] at h ⊢
  have hspread (base top : JsonFields) (hbase : recordDepth (.obj base) ≤ depth)
      (htop : recordDepth (.obj top) ≤ depth) : recordDepth (.obj (spread base top)) ≤ depth :=
    recordDepth_spread hbase htop
  exact renamed_forall (P := fun value => recordDepth value ≤ depth) hspread h

theorem recordDepth_of_mem_renamed {fields nested : JsonFields}
    (h : recordDepth (.obj fields) ≤ depth + 1) (hnested : (key, .obj nested) ∈ renamed fields) :
    recordDepth (.obj nested) ≤ depth :=
  fieldsDepth_le_iff.mp (fieldsDepth_renamed (Nat.le_of_succ_le_succ h)) _ hnested

theorem repairWithin_eq {fields : JsonFields} (h : recordDepth (.obj fields) ≤ depth)
    (h' : recordDepth (.obj fields) ≤ depth') : repairWithin depth fields = repairWithin depth' fields := by
  induction depth generalizing fields depth' with
  | zero => simp [recordDepth] at h
  | succ depth ih =>
    cases depth' with
    | zero => simp [recordDepth] at h'
    | succ depth' =>
      simp only [repairWithin]
      refine List.map_congr_left fun field hfield => ?_
      obtain ⟨key, value⟩ := field
      cases value with
      | obj nested =>
        have hnested := ih (recordDepth_of_mem_renamed h hfield) (recordDepth_of_mem_renamed h' hfield)
        simp only [mapRecord, hnested]
      | _ => rfl

/-- The depth is enough: the repair is that of the record and of every record in it. -/
theorem repairMangledKeys_eq (fields : JsonFields) : repairMangledKeys fields =
    (renamed fields).map fun field => (field.1, mapRecord repairMangledKeys field.2) := by
  unfold repairMangledKeys
  rw [show recordDepth (.obj fields) = fieldsDepth fields + 1 from rfl, repairWithin]
  refine List.map_congr_left fun field hfield => ?_
  obtain ⟨key, value⟩ := field
  cases value with
  | obj nested =>
    have hnested := repairWithin_eq (recordDepth_of_mem_renamed le_rfl hfield) le_rfl
    simp only [mapRecord]
    rw [hnested]
  | _ => rfl

/-- Repairing goes by the depth of the record. -/
theorem repair_induction {P : JsonFields → JsonFields → Prop}
    (step : ∀ fields, (∀ key nested, (key, .obj nested) ∈ renamed fields →
      P nested (repairMangledKeys nested)) → P fields (repairMangledKeys fields))
    (fields : JsonFields) : P fields (repairMangledKeys fields) := by
  generalize hdepth : recordDepth (.obj fields) = depth
  replace hdepth := hdepth.le
  induction depth generalizing fields with
  | zero => simp [recordDepth] at hdepth
  | succ depth ih =>
    exact step fields fun key nested hnested => ih nested (recordDepth_of_mem_renamed hdepth hnested)

-- ---
-- Mangled keys
-- ---

/-- No record in records has a mangled key. -/
inductive NoMangledKeys : Json → Prop
  | other {value : Json} (h : ∀ fields, value ≠ .obj fields) : NoMangledKeys value
  | record {fields : JsonFields} (hkeys : ∀ field ∈ fields, realName? field.1 = none)
      (hvalues : ∀ field ∈ fields, NoMangledKeys field.2) : NoMangledKeys (.obj fields)

def NoMangledFields (fields : JsonFields) : Prop :=
  ∀ field ∈ fields, realName? field.1 = none ∧ NoMangledKeys field.2

theorem noMangledKeys_obj {fields : JsonFields} :
    NoMangledKeys (.obj fields) ↔ NoMangledFields fields := by
  constructor
  · intro h field hfield
    cases h with
    | other h => exact absurd rfl (h fields)
    | record hkeys hvalues => exact ⟨hkeys field hfield, hvalues field hfield⟩
  · exact fun h => .record (fun field hfield => (h field hfield).1) fun field hfield => (h field hfield).2

theorem repairMangledKeys_noMangled (fields : JsonFields) :
    NoMangledFields (repairMangledKeys fields) := by
  refine repair_induction (P := fun _ repaired => NoMangledFields repaired) (fun fields ih => ?_) fields
  rw [repairMangledKeys_eq]
  intro field hfield
  obtain ⟨⟨key, value⟩, hmem, rfl⟩ := List.mem_map.mp hfield
  refine ⟨renamed_clean fields (key, value) hmem, ?_⟩
  cases value with
  | obj nested => exact noMangledKeys_obj.mpr (ih key nested hmem)
  | _ => exact .other fun _ h => by cases h

theorem repairMangledKeys_of_noMangled (fields : JsonFields) (h : NoMangledFields fields) :
    repairMangledKeys fields = fields := by
  revert h
  refine repair_induction (P := fun fields repaired => NoMangledFields fields → repaired = fields)
    (fun fields ih h => ?_) fields
  have hrenamed : renamed fields = fields := renamed_of_clean fun field hfield => (h field hfield).1
  rw [repairMangledKeys_eq, hrenamed]
  refine (List.map_congr_left fun field hfield => ?_).trans (List.map_id fields)
  obtain ⟨key, value⟩ := field
  cases value with
  | obj nested =>
    rw [hrenamed] at ih
    simp only [mapRecord, ih key nested hfield (noMangledKeys_obj.mp (h _ hfield).2), id_eq]
  | _ => rfl

/-- The repair of keys keeps what stands under a key that is not mangled. -/
theorem repairMangledKeys_kept (fields : JsonFields) : FieldsKept fields (repairMangledKeys fields) := by
  refine repair_induction (P := FieldsKept) (fun fields ih key value hvalue hkey => ?_) fields
  obtain ⟨value', hvalue', hext⟩ := lookup_renamed hkey hvalue
  rw [repairMangledKeys_eq, lookup_map_snd (mapRecord repairMangledKeys), hvalue', Option.map_some]
  refine ⟨_, rfl, ?_⟩
  have hmem := Members.mem_of_lookup hvalue'
  -- a record that has gained fields is repaired as it then stands
  have hrecord {nested nested' : JsonFields} (hmem : (key, .obj nested') ∈ renamed fields)
      (hext : ∀ key value, nested.lookup key = some value → nested'.lookup key = some value) :
      ValueKept (.obj nested) (.obj (repairMangledKeys nested')) :=
    valueKept_obj_iff.mpr ⟨_, rfl, fun key value hvalue hkey =>
      ih _ nested' hmem key value (hext key value hvalue) hkey⟩
  obtain rfl | ⟨nested, nested', rfl, rfl, hext⟩ := hext
  · cases value' with
    | obj nested => exact hrecord hmem fun _ _ h => h
    | _ => exact .same _
  · exact hrecord hmem hext

end OpenClaw.Cron
