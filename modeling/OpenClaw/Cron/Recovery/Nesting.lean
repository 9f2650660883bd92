import OpenClaw.Cron.Recovery
import Mathlib.Data.List.Nodup

/-!
# Prefixed fields in their places

After the reconstruction no field has a prefix, and each record has taken in what belongs to
it, so that a second reconstruction changes nothing.
-/

namespace OpenClaw.Cron

open Js
open Members (assign remove)

-- ---
-- Prefixed fields
-- ---

section
variable {fields : JsonFields} {groups : List PrefixedField} {mapping : PrefixedField}

/-- The value a prefixed field gives to a field of a record. -/
def placed (groups : List PrefixedField) (fields : JsonFields) (target field : String) : Option Json :=
  groups.findSome? fun mapping =>
    if mapping.target = target ∧ mapping.field = field then fields.lookup mapping.prefixedKey else none

/-- Groups whose prefixed keys are no targets, and each with its own place. -/
structure Separate (groups : List PrefixedField) : Prop where
  apart : ∀ mapping ∈ groups, ∀ mapping' ∈ groups, mapping.prefixedKey ≠ mapping'.target
  keys : (groups.map (·.prefixedKey)).Nodup
  places : (groups.map fun mapping => (mapping.target, mapping.field)).Nodup

theorem groups_separate : Separate PREFIXED_FIELD_GROUPS := by
  constructor <;> decide

theorem nestField_none (h : fields.lookup mapping.prefixedKey = none) :
    nestField fields mapping = fields := by
  rw [nestField, h]

theorem lookup_nestField (h : fields.lookup mapping.prefixedKey = some value) (key : String) :
    (nestField fields mapping).lookup key = if key = mapping.prefixedKey then none
      else if key = mapping.target then
        some (.obj (assign (recordAt fields mapping.target) mapping.field value))
      else fields.lookup key := by
  unfold nestField
  rw [h]
  simp only
  rw [Members.lookup_remove, Members.lookup_assign]

theorem recordAt_of_lookup_eq {fields fields' : JsonFields} (h : fields.lookup key = fields'.lookup key) :
    recordAt fields key = recordAt fields' key := by
  rw [recordAt, recordAt, h]

/-- What putting prefixed fields into their records does. -/
structure Nested (groups : List PrefixedField) (fields nested : JsonFields) : Prop where
  gone : ∀ mapping ∈ groups, nested.lookup mapping.prefixedKey = none
  untouched : ∀ key, (∀ mapping ∈ groups, key ≠ mapping.prefixedKey) →
    (∀ mapping ∈ groups, mapping.target = key → fields.lookup mapping.prefixedKey = none) →
    nested.lookup key = fields.lookup key
  isRecord : ∀ mapping ∈ groups, fields.lookup mapping.prefixedKey ≠ none →
    ∃ existing, nested.lookup mapping.target = some (.obj existing)
  merged : ∀ key field, (∀ mapping ∈ groups, key ≠ mapping.prefixedKey) →
    (recordAt nested key).lookup field =
      (placed groups fields key field).or ((recordAt fields key).lookup field)

theorem Separate.init (h : Separate (groups ++ [mapping])) :
    Separate groups ∧ (∀ other ∈ groups, mapping.prefixedKey ≠ other.target) ∧
      (∀ other ∈ groups, mapping.prefixedKey ≠ other.prefixedKey) ∧
      (∀ other ∈ groups, other.prefixedKey ≠ mapping.target) ∧
      mapping.prefixedKey ≠ mapping.target ∧
      ∀ other ∈ groups, ¬ (other.target = mapping.target ∧ other.field = mapping.field) := by
  obtain ⟨hapart, hkeys, hplaces⟩ := h
  rw [List.map_append, List.nodup_append] at hkeys hplaces
  have hold (other) (hother : other ∈ groups) : other ∈ groups ++ [mapping] :=
    List.mem_append_left _ hother
  have hnew : mapping ∈ groups ++ [mapping] := by simp
  refine ⟨⟨fun a ha b hb => hapart a (hold a ha) b (hold b hb), hkeys.1, hplaces.1⟩,
    fun other hother => hapart mapping hnew other (hold other hother), fun other hother => ?_,
    fun other hother => hapart other (hold other hother) mapping hnew,
    hapart mapping hnew mapping hnew, fun other hother heq => ?_⟩
  · exact (hkeys.2.2 _ (List.mem_map_of_mem hother) _ (by simp)).symm
  · refine hplaces.2.2 _ (List.mem_map_of_mem hother) (mapping.target, mapping.field) (by simp) ?_
    exact Prod.ext heq.1 heq.2

theorem placed_append (key field : String) : placed (groups ++ [mapping]) fields key field =
    (placed groups fields key field).or
      (if mapping.target = key ∧ mapping.field = field then fields.lookup mapping.prefixedKey
        else none) := by
  rw [placed, List.findSome?_append, List.findSome?_singleton]
  rfl

theorem placed_eq_none (h : ∀ other ∈ groups, ¬ (other.target = key ∧ other.field = field)) :
    placed groups fields key field = none :=
  List.findSome?_eq_none_iff.mpr fun other hother => if_neg (h other hother)

/-- One group more. -/
theorem Nested.snoc {nested : JsonFields} (h : Nested groups fields nested)
    (hseparate : Separate (groups ++ [mapping])) :
    Nested (groups ++ [mapping]) fields (nestField nested mapping) := by
  obtain ⟨-, htargets, hkeys, htarget, hself, hplace⟩ := hseparate.init
  have hsame : nested.lookup mapping.prefixedKey = fields.lookup mapping.prefixedKey :=
    h.untouched _ hkeys fun other hother heq => absurd heq.symm (htargets other hother)
  cases hvalue : fields.lookup mapping.prefixedKey with
  | none =>
    rw [nestField_none (hsame.trans hvalue)]
    constructor
    · intro other hother
      rcases List.mem_append.mp hother with hother | hother
      · exact h.gone other hother
      · obtain rfl := List.mem_singleton.mp hother
        exact hsame.trans hvalue
    · intro key hkey hunplaced
      exact h.untouched key (fun other hother => hkey other (List.mem_append_left _ hother))
        fun other hother => hunplaced other (List.mem_append_left _ hother)
    · intro other hother hother'
      rcases List.mem_append.mp hother with hother | hother
      · exact h.isRecord other hother hother'
      · obtain rfl := List.mem_singleton.mp hother
        exact absurd hvalue hother'
    · intro key field hkey
      rw [h.merged key field fun other hother => hkey other (List.mem_append_left _ hother),
        placed_append, hvalue, ite_self, Option.or_none]
  | some value =>
    have hlookup := lookup_nestField (hsame.trans hvalue)
    constructor
    · intro other hother
      rw [hlookup]
      rcases List.mem_append.mp hother with hother | hother
      · rw [if_neg (hkeys other hother).symm, if_neg (htarget other hother)]
        exact h.gone other hother
      · obtain rfl := List.mem_singleton.mp hother
        rw [if_pos rfl]
    · intro key hkey hunplaced
      have hne : key ≠ mapping.target := by
        rintro rfl
        rw [hunplaced mapping (by simp) rfl] at hvalue
        cases hvalue
      rw [hlookup, if_neg (hkey mapping (by simp)), if_neg hne]
      exact h.untouched key (fun other hother => hkey other (List.mem_append_left _ hother))
        fun other hother => hunplaced other (List.mem_append_left _ hother)
    · intro other hother hother'
      rcases List.mem_append.mp hother with hother | hother
      · by_cases heq : other.target = mapping.target
        · rw [heq, hlookup, if_neg hself.symm, if_pos rfl]
          exact ⟨_, rfl⟩
        · rw [hlookup, if_neg (htargets other hother).symm, if_neg heq]
          exact h.isRecord other hother hother'
      · obtain rfl := List.mem_singleton.mp hother
        rw [hlookup, if_neg hself.symm, if_pos rfl]
        exact ⟨_, rfl⟩
    · intro key field hkey
      have hrest := h.merged key field fun other hother => hkey other (List.mem_append_left _ hother)
      by_cases heq : key = mapping.target
      · subst heq
        have hrecord : recordAt (nestField nested mapping) mapping.target =
            assign (recordAt nested mapping.target) mapping.field value := by
          rw [recordAt, hlookup, if_neg hself.symm, if_pos rfl]
        rw [hrecord, Members.lookup_assign, placed_append, hvalue]
        by_cases hfield : field = mapping.field
        · subst hfield
          rw [if_pos rfl, if_pos ⟨rfl, rfl⟩, placed_eq_none hplace]
          rfl
        · rw [if_neg hfield, if_neg (fun h => hfield h.2.symm), Option.or_none, hrest]
      · have hlook : (nestField nested mapping).lookup key = nested.lookup key := by
          rw [hlookup, if_neg (hkey mapping (by simp)), if_neg heq]
        rw [recordAt_of_lookup_eq hlook, hrest, placed_append, if_neg (fun h => heq h.1.symm),
          Option.or_none]

theorem foldl_nested (hseparate : Separate groups) (fields : JsonFields) :
    Nested groups fields (groups.foldl nestField fields) := by
  induction groups using List.reverseRecOn with
  | nil => exact ⟨by simp, fun _ _ _ => rfl, by simp, fun _ _ _ => rfl⟩
  | append_singleton groups mapping ih =>
    rw [List.foldl_append]
    exact (ih hseparate.init.1).snoc hseparate

end

-- ---
-- The session target and the time
-- ---

section
variable {fields : JsonFields}

theorem prefixedTarget?_key {field : String × Json} (h : prefixedTarget? field = some sessionTarget) :
    "sessionTarget_".toList.isPrefixOf field.1.toList = true := by
  unfold prefixedTarget? at h
  split at h
  · assumption
  · cases h

theorem ne_of_prefixedTarget? {field : String × Json} (h : prefixedTarget? field = some sessionTarget)
    (hkey : "sessionTarget_".toList.isPrefixOf key.toList = false) : key ≠ field.1 := by
  rintro rfl
  rw [prefixedTarget?_key h] at hkey
  cases hkey

theorem prefixedTarget?_of_key (hkey : "sessionTarget_".toList.isPrefixOf key.toList = false) :
    prefixedTarget? (key, value) = none := by
  unfold prefixedTarget?
  exact if_neg (Bool.eq_false_iff.mp hkey)

theorem takeSessionTarget_none {field : String × Json} (h : prefixedTarget? field = none) :
    takeSessionTarget fields field = fields := by
  rw [takeSessionTarget, h]

theorem lookup_takeSessionTarget {field : String × Json}
    (h : prefixedTarget? field = some sessionTarget) (key : String) :
    (takeSessionTarget fields field).lookup key = if key = field.1 then none
      else if key = "sessionTarget" then some (.str sessionTarget) else fields.lookup key := by
  unfold takeSessionTarget
  rw [h]
  simp only
  rw [Members.lookup_remove, Members.lookup_assign]

/-- The session targets of prefixed fields, in order. -/
def prefixedTargets (fields : JsonFields) : List String := fields.filterMap prefixedTarget?

/-- The last of them is the session target. -/
theorem lookup_foldl_sessionTarget (entries : JsonFields) (fields : JsonFields) :
    (entries.foldl takeSessionTarget fields).lookup "sessionTarget" =
      ((prefixedTargets entries).getLast?.map .str).or (fields.lookup "sessionTarget") := by
  induction entries using List.reverseRecOn with
  | nil => rfl
  | append_singleton entries field ih =>
    rw [List.foldl_append, List.foldl_cons, List.foldl_nil, prefixedTargets, List.filterMap_append]
    cases h : prefixedTarget? field with
    | none =>
      rw [takeSessionTarget_none h, ih]
      simp [prefixedTargets, h]
    | some sessionTarget =>
      have hne : "sessionTarget" ≠ field.1 := ne_of_prefixedTarget? h (by decide)
      rw [lookup_takeSessionTarget h, if_neg hne, if_pos rfl]
      simp [h]

theorem lookup_foldl_other (entries : JsonFields) (fields : JsonFields)
    (hkey : "sessionTarget_".toList.isPrefixOf key.toList = false) (hne : key ≠ "sessionTarget") :
    (entries.foldl takeSessionTarget fields).lookup key = fields.lookup key := by
  induction entries generalizing fields with
  | nil => rfl
  | cons field entries ih =>
    rw [List.foldl_cons, ih]
    cases h : prefixedTarget? field with
    | none => rw [takeSessionTarget_none h]
    | some sessionTarget =>
      rw [lookup_takeSessionTarget h, if_neg (ne_of_prefixedTarget? h hkey), if_neg hne]

theorem mem_foldl_take {entries : JsonFields} (h : field ∈ entries.foldl takeSessionTarget fields) :
    (field ∈ fields ∧ ∀ entry ∈ entries, prefixedTarget? entry ≠ none → field.1 ≠ entry.1) ∨
      ∃ sessionTarget, field = ("sessionTarget", .str sessionTarget) := by
  induction entries generalizing fields with
  | nil => exact .inl ⟨h, by simp⟩
  | cons entry entries ih =>
    rw [List.foldl_cons] at h
    obtain ⟨hmem, hrest⟩ | htarget := ih h
    · cases hentry : prefixedTarget? entry with
      | none =>
        rw [takeSessionTarget_none hentry] at hmem
        exact .inl ⟨hmem, List.forall_mem_cons.mpr ⟨fun hne => absurd hentry hne, hrest⟩⟩
      | some sessionTarget =>
        simp only [takeSessionTarget, hentry] at hmem
        obtain ⟨hassign, hne⟩ := List.mem_filter.mp hmem
        rcases Members.mem_assign hassign with hmem | rfl
        · refine .inl ⟨hmem, List.forall_mem_cons.mpr ⟨fun _ => by simpa using hne, hrest⟩⟩
        · exact .inr ⟨sessionTarget, rfl⟩
    · exact .inr htarget

theorem takeAll_none {entries : JsonFields} (h : ∀ entry ∈ entries, prefixedTarget? entry = none) :
    entries.foldl takeSessionTarget fields = fields := by
  induction entries with
  | nil => rfl
  | cons entry entries ih =>
    obtain ⟨hentry, hrest⟩ := List.forall_mem_cons.mp h
    rw [List.foldl_cons, takeSessionTarget_none hentry, ih hrest]

/-- A bare time is left alone where the schedule is a record, and becomes one elsewhere. -/
theorem nestAt_cases (fields : JsonFields) :
    (∀ time, fields.lookup "at" = some (.str time) →
        ∃ nested, fields.lookup "schedule" = some (.obj nested)) ∧ nestAt fields = fields ∨
      ∃ time, fields.lookup "at" = some (.str time) ∧
        (∀ nested, fields.lookup "schedule" ≠ some (.obj nested)) ∧ nestAt fields =
          remove (assign fields "schedule" (.obj [("at", .str time), ("kind", .str "at")])) "at" := by
  unfold nestAt
  split
  · rename_i time hat
    split
    · rename_i nested hschedule
      exact .inl ⟨fun _ _ => ⟨nested, hschedule⟩, rfl⟩
    · rename_i hschedule
      exact .inr ⟨time, hat, fun nested h => hschedule nested h, rfl⟩
  · rename_i hat
    exact .inl ⟨fun time h => absurd h (hat time), rfl⟩

-- ---
-- Reconstruction
-- ---

def nested (fields : JsonFields) : JsonFields := PREFIXED_FIELD_GROUPS.foldl nestField fields

def targeted (fields : JsonFields) : JsonFields :=
  (nested fields).foldl takeSessionTarget (nested fields)

theorem reconstruct_eq (fields : JsonFields) :
    reconstructPrefixedFields fields = nestAt (targeted fields) := rfl

theorem nested_spec (fields : JsonFields) : Nested PREFIXED_FIELD_GROUPS fields (nested fields) :=
  foldl_nested groups_separate fields

theorem groups_keys : ∀ mapping ∈ PREFIXED_FIELD_GROUPS,
    "sessionTarget_".toList.isPrefixOf mapping.prefixedKey.toList = false ∧
    "sessionTarget_".toList.isPrefixOf mapping.target.toList = false ∧
    mapping.prefixedKey ≠ "sessionTarget" ∧ mapping.target ≠ "sessionTarget" ∧
    mapping.prefixedKey ≠ "schedule" ∧ mapping.prefixedKey ≠ "at" ∧ mapping.target ≠ "at" := by
  decide

theorem groups_names : ∀ mapping ∈ PREFIXED_FIELD_GROUPS,
    realName? mapping.target = none ∧ realName? mapping.field = none := by
  have hwords : ∀ mapping ∈ PREFIXED_FIELD_GROUPS,
      mapping.target.toList.all isWordChar = true ∧ mapping.field.toList.all isWordChar = true := by
    decide
  exact fun mapping hmapping =>
    ⟨realName?_word (hwords mapping hmapping).1, realName?_word (hwords mapping hmapping).2⟩

theorem targeted_not_prefixed (fields : JsonFields) :
    ∀ field ∈ targeted fields, prefixedTarget? field = none := by
  intro field hfield
  obtain ⟨hmem, hrest⟩ | ⟨sessionTarget, rfl⟩ := mem_foldl_take hfield
  · by_contra hne
    exact hrest field hmem hne rfl
  · exact prefixedTarget?_of_key (by decide)

theorem targeted_gone (fields : JsonFields) : ∀ mapping ∈ PREFIXED_FIELD_GROUPS,
    (targeted fields).lookup mapping.prefixedKey = none := by
  intro mapping hmapping
  obtain ⟨hlead, -, hne, -⟩ := groups_keys mapping hmapping
  rw [targeted, lookup_foldl_other _ _ hlead hne]
  exact (nested_spec fields).gone mapping hmapping

theorem foldl_nestField_none {groups : List PrefixedField}
    (h : ∀ mapping ∈ groups, fields.lookup mapping.prefixedKey = none) :
    groups.foldl nestField fields = fields := by
  induction groups with
  | nil => rfl
  | cons mapping groups ih =>
    obtain ⟨hmapping, hrest⟩ := List.forall_mem_cons.mp h
    rw [List.foldl_cons, nestField_none hmapping, ih hrest]

/-- What has no prefixed field and no bare time stays as it is. -/
theorem reconstruct_of_done
    (hgone : ∀ mapping ∈ PREFIXED_FIELD_GROUPS, fields.lookup mapping.prefixedKey = none)
    (htarget : ∀ field ∈ fields, prefixedTarget? field = none)
    (hat : ∀ time, fields.lookup "at" = some (.str time) →
      ∃ nested, fields.lookup "schedule" = some (.obj nested)) :
    reconstructPrefixedFields fields = fields := by
  have hnested : nested fields = fields := foldl_nestField_none hgone
  have htargeted : targeted fields = fields := by
    rw [targeted, hnested]
    exact takeAll_none htarget
  rw [reconstruct_eq, htargeted]
  obtain ⟨-, hsame⟩ | ⟨time, htime, hschedule, -⟩ := nestAt_cases fields
  · exact hsame
  · obtain ⟨nested, hrecord⟩ := hat time htime
    exact absurd hrecord (hschedule nested)

theorem reconstruct_again (fields : JsonFields) :
    reconstructPrefixedFields (reconstructPrefixedFields fields) = reconstructPrefixedFields fields := by
  have hgone := targeted_gone fields
  have htarget := targeted_not_prefixed fields
  obtain ⟨hat, hsame⟩ | ⟨time, -, -, hnew⟩ := nestAt_cases (targeted fields)
  · rw [← reconstruct_eq] at hsame
    rw [hsame]
    exact reconstruct_of_done hgone htarget hat
  · rw [← reconstruct_eq] at hnew
    rw [hnew]
    refine reconstruct_of_done (fun mapping hmapping => ?_) (fun field hfield => ?_) fun time htime => ?_
    · obtain ⟨-, -, -, -, hschedule, -⟩ := groups_keys mapping hmapping
      rw [Members.lookup_remove, Members.lookup_assign, if_neg hschedule, hgone mapping hmapping,
        ite_self]
    · rcases Members.mem_assign (List.mem_filter.mp hfield).1 with hmem | rfl
      · exact htarget field hmem
      · exact prefixedTarget?_of_key (by decide)
    · rw [Members.lookup_remove, if_pos rfl] at htime
      cases htime

end

end OpenClaw.Cron
