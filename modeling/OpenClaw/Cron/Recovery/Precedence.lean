import OpenClaw.Cron.Recovery.Nesting

/-!
# What recovery leaves

A recovered job has no mangled key, and recovering it again changes nothing. Neither the
fields beside the job nor the repair of keys touch a value that stands under its own key; the
prefixed fields do, where their place is taken.
-/

namespace OpenClaw.Cron

open Js
open Members (assign remove)

-- ---
-- No mangled key comes back
-- ---

section
variable {fields : JsonFields}

theorem names_clean : realName? "sessionTarget" = none ∧ realName? "schedule" = none ∧
    realName? "at" = none ∧ realName? "kind" = none :=
  ⟨realName?_word (by decide), realName?_word (by decide), realName?_word (by decide),
    realName?_word (by decide)⟩

theorem noMangledFields_assign (h : NoMangledFields fields) (hkey : realName? key = none)
    (hvalue : NoMangledKeys value) : NoMangledFields (assign fields key value) := by
  intro field hfield
  rcases Members.mem_assign hfield with hfield | rfl
  · exact h field hfield
  · exact ⟨hkey, hvalue⟩

theorem noMangledFields_remove (h : NoMangledFields fields) (key : String) :
    NoMangledFields (remove fields key) := by
  exact fun field hfield => h field (List.mem_filter.mp hfield).1

theorem noMangledKeys_of_lookup (h : NoMangledFields fields) (hvalue : fields.lookup key = some value) :
    NoMangledKeys value :=
  (h _ (Members.mem_of_lookup hvalue)).2

theorem noMangledFields_recordAt (h : NoMangledFields fields) (key : String) :
    NoMangledFields (recordAt fields key) := by
  unfold recordAt
  split
  · rename_i nested hnested
    exact noMangledKeys_obj.mp (noMangledKeys_of_lookup h hnested)
  · exact fun field hfield => by cases hfield

theorem noMangledFields_nestField (h : NoMangledFields fields) {mapping : PrefixedField}
    (hnames : realName? mapping.target = none ∧ realName? mapping.field = none) :
    NoMangledFields (nestField fields mapping) := by
  unfold nestField
  split
  · exact h
  · rename_i value hvalue
    have hrecord := noMangledFields_assign (noMangledFields_recordAt h mapping.target) hnames.2
      (noMangledKeys_of_lookup h hvalue)
    exact noMangledFields_remove (noMangledFields_assign h hnames.1 (noMangledKeys_obj.mpr hrecord)) _

theorem noMangledFields_nested (h : NoMangledFields fields) : NoMangledFields (nested fields) := by
  have hnames := groups_names
  unfold nested
  revert hnames
  generalize PREFIXED_FIELD_GROUPS = groups
  intro hnames
  induction groups generalizing fields with
  | nil => exact h
  | cons mapping groups ih =>
    obtain ⟨hmapping, hrest⟩ := List.forall_mem_cons.mp hnames
    exact ih (noMangledFields_nestField h hmapping) hrest

theorem noMangledFields_targeted (h : NoMangledFields fields) : NoMangledFields (targeted fields) := by
  intro field hfield
  obtain ⟨hmem, -⟩ | ⟨sessionTarget, rfl⟩ := mem_foldl_take hfield
  · exact noMangledFields_nested h field hmem
  · exact ⟨names_clean.1, .other fun _ h => by cases h⟩

theorem noMangledFields_nestAt (h : NoMangledFields fields) : NoMangledFields (nestAt fields) := by
  obtain ⟨-, hsame⟩ | ⟨time, -, -, hnew⟩ := nestAt_cases fields
  · exact hsame.symm ▸ h
  · obtain ⟨-, hschedule, hat, hkind⟩ := names_clean
    have htext (text : String) : NoMangledKeys (.str text) := .other fun _ h => by cases h
    have hrecord : NoMangledKeys (.obj [("at", .str time), ("kind", .str "at")]) := by
      refine noMangledKeys_obj.mpr (List.forall_mem_cons.mpr ⟨⟨hat, htext time⟩, ?_⟩)
      exact List.forall_mem_cons.mpr ⟨⟨hkind, htext "at"⟩, by simp⟩
    exact hnew.symm ▸ noMangledFields_remove (noMangledFields_assign h hschedule hrecord) _

theorem noMangledFields_reconstruct (h : NoMangledFields fields) :
    NoMangledFields (reconstructPrefixedFields fields) := by
  rw [reconstruct_eq]
  exact noMangledFields_nestAt (noMangledFields_targeted h)

-- ---
-- What reconstruction takes
-- ---

/-- A key of a job under which its value belongs: neither mangled, nor a prefixed field, nor a
bare time. -/
def Canonical (key : String) : Prop :=
  realName? key = none ∧ (∀ mapping ∈ PREFIXED_FIELD_GROUPS, key ≠ mapping.prefixedKey) ∧
    "sessionTarget_".toList.isPrefixOf key.toList = false ∧ key ≠ "at"

/-- Every value under a canonical key is kept. -/
def CanonicalKept (job recovered : JsonFields) : Prop :=
  ∀ key value, Canonical key → job.lookup key = some value →
    ∃ value', recovered.lookup key = some value' ∧ ValueKept value value'

/-- No prefixed field of the repaired job is to go where another value stands, none where
something else than a record stands, and no bare time where something else than a record
stands as the schedule. -/
structure PlacesFree (job repaired : JsonFields) : Prop where
  place : ∀ mapping ∈ PREFIXED_FIELD_GROUPS, ∀ value,
    repaired.lookup mapping.prefixedKey = some value →
    ∀ existing, job.lookup mapping.target = some existing → ∃ record, existing = .obj record ∧
      ∀ taken, record.lookup mapping.field = some taken → ValueKept taken value
  sessionTarget : ∀ sessionTarget, (prefixedTargets repaired).getLast? = some sessionTarget →
    ∀ existing, job.lookup "sessionTarget" = some existing → existing = .str sessionTarget
  time : ∀ time, repaired.lookup "at" = some (.str time) →
    ∀ existing, job.lookup "schedule" = some existing → ∃ record, existing = .obj record

/-- Each prefixed field has a place of its own. -/
theorem placed_of_mem {groups : List PrefixedField}
    (hplaces : (groups.map fun mapping => (mapping.target, mapping.field)).Nodup)
    (hmapping : mapping ∈ groups) :
    placed groups fields mapping.target mapping.field = fields.lookup mapping.prefixedKey := by
  induction groups with
  | nil => cases hmapping
  | cons other groups ih =>
    rw [List.map_cons, List.nodup_cons] at hplaces
    rw [placed, List.findSome?_cons]
    rcases List.mem_cons.mp hmapping with rfl | hmapping
    · rw [if_pos ⟨rfl, rfl⟩]
      cases fields.lookup mapping.prefixedKey with
      | some value => rfl
      | none =>
        refine (placed_eq_none fun other hother heq => hplaces.1 ?_ : placed groups _ _ _ = none)
        exact List.mem_map.mpr ⟨other, hother, Prod.ext heq.1 heq.2⟩
    · have hne : ¬ (other.target = mapping.target ∧ other.field = mapping.field) := fun heq =>
        hplaces.1 (List.mem_map.mpr ⟨mapping, hmapping, Prod.ext heq.1.symm heq.2.symm⟩)
      rw [if_neg hne]
      exact ih hplaces.2 hmapping

theorem mem_of_placed {groups : List PrefixedField} (h : placed groups fields key field = some value) :
    ∃ mapping ∈ groups, mapping.target = key ∧ mapping.field = field ∧
      fields.lookup mapping.prefixedKey = some value := by
  obtain ⟨mapping, hmapping, hvalue⟩ := List.exists_of_findSome?_eq_some h
  split at hvalue
  · rename_i heq
    exact ⟨mapping, hmapping, heq.1, heq.2, hvalue⟩
  · cases hvalue

/-- A prefixed field makes its target a record. -/
theorem recovered_target (fields : JsonFields) (hmapping : mapping ∈ PREFIXED_FIELD_GROUPS)
    (hvalue : fields.lookup mapping.prefixedKey ≠ none) :
    ∃ record, (nested fields).lookup mapping.target = some (.obj record) ∧
      (reconstructPrefixedFields fields).lookup mapping.target = some (.obj record) := by
  obtain ⟨record, hrecord⟩ := (nested_spec fields).isRecord mapping hmapping hvalue
  refine ⟨record, hrecord, ?_⟩
  obtain ⟨-, hlead, -, hne, -, -, hat⟩ := groups_keys mapping hmapping
  have htargeted : (targeted fields).lookup mapping.target = some (.obj record) := by
    rw [targeted, lookup_foldl_other _ _ hlead hne, hrecord]
  rw [reconstruct_eq]
  obtain ⟨-, hsame⟩ | ⟨time, -, hschedule, hnew⟩ := nestAt_cases (targeted fields)
  · rw [hsame, htargeted]
  · have hother : mapping.target ≠ "schedule" := by
      intro heq
      exact hschedule record (heq ▸ htargeted)
    rw [hnew, Members.lookup_remove, if_neg hat, Members.lookup_assign, if_neg hother, htargeted]

/-- A bare time makes the schedule a record. -/
theorem recovered_schedule (hat : fields.lookup "at" = some (.str time)) :
    ∃ record, (reconstructPrefixedFields fields).lookup "schedule" = some (.obj record) := by
  have htime : (targeted fields).lookup "at" = some (.str time) := by
    rw [targeted, lookup_foldl_other _ _ (by decide) (by decide)]
    rw [(nested_spec fields).untouched "at" (fun mapping hmapping heq => ?_)
      fun mapping hmapping heq => ?_, hat]
    · exact absurd heq.symm (groups_keys mapping hmapping).2.2.2.2.2.1
    · exact absurd heq (groups_keys mapping hmapping).2.2.2.2.2.2
  rw [reconstruct_eq]
  obtain ⟨hrecord, hsame⟩ | ⟨time', -, -, hnew⟩ := nestAt_cases (targeted fields)
  · rw [hsame]
    exact hrecord time htime
  · rw [hnew, Members.lookup_remove, if_neg (by decide), Members.lookup_assign, if_pos rfl]
    exact ⟨_, rfl⟩

theorem recovered_sessionTarget (fields : JsonFields) :
    (reconstructPrefixedFields fields).lookup "sessionTarget" =
      ((prefixedTargets (nested fields)).getLast?.map .str).or (fields.lookup "sessionTarget") := by
  have hlast := lookup_foldl_sessionTarget (nested fields) (nested fields)
  rw [(nested_spec fields).untouched "sessionTarget" (fun mapping hmapping heq => ?_)
    fun mapping hmapping heq => ?_] at hlast
  · rw [reconstruct_eq]
    obtain ⟨-, hsame⟩ | ⟨time', -, -, hnew⟩ := nestAt_cases (targeted fields)
    · rw [hsame]
      exact hlast
    · rw [hnew, Members.lookup_remove, if_neg (by decide), Members.lookup_assign, if_neg (by decide)]
      exact hlast
  · exact absurd heq.symm (groups_keys mapping hmapping).2.2.1
  · exact absurd heq (groups_keys mapping hmapping).2.2.2.1

end

section
variable {fields job repaired : JsonFields}

/-- Where neither a prefixed field nor a bare time goes, nothing changes. -/
theorem recovered_other (hkey : Canonical key) (hne : key ≠ "sessionTarget")
    (hplace : ∀ mapping ∈ PREFIXED_FIELD_GROUPS, mapping.target = key →
      fields.lookup mapping.prefixedKey = none)
    (hschedule : key = "schedule" → ∀ time, fields.lookup "at" = some (.str time) →
      ∃ record, fields.lookup "schedule" = some (.obj record)) :
    (reconstructPrefixedFields fields).lookup key = fields.lookup key := by
  obtain ⟨-, hprefixed, hlead, hat⟩ := hkey
  have htargeted (key : String)
      (hprefixed : ∀ mapping ∈ PREFIXED_FIELD_GROUPS, key ≠ mapping.prefixedKey)
      (hlead : "sessionTarget_".toList.isPrefixOf key.toList = false) (hne : key ≠ "sessionTarget")
      (hplace : ∀ mapping ∈ PREFIXED_FIELD_GROUPS, mapping.target = key →
        fields.lookup mapping.prefixedKey = none) :
      (targeted fields).lookup key = fields.lookup key := by
    rw [targeted, lookup_foldl_other _ _ hlead hne]
    exact (nested_spec fields).untouched key hprefixed hplace
  have hsame := htargeted key hprefixed hlead hne hplace
  rw [reconstruct_eq]
  obtain ⟨-, hnest⟩ | ⟨time, htime, hnone, hnew⟩ := nestAt_cases (targeted fields)
  · rw [hnest, hsame]
  · have hother : key ≠ "schedule" := by
      rintro rfl
      have hattime := htargeted "at"
        (fun mapping hmapping => (groups_keys mapping hmapping).2.2.2.2.2.1.symm)
        (by decide) (by decide) fun mapping hmapping heq =>
          absurd heq (groups_keys mapping hmapping).2.2.2.2.2.2
      obtain ⟨record, hrecord⟩ := hschedule rfl time (hattime.symm.trans htime)
      exact hnone record (hsame.trans hrecord)
    rw [hnew, Members.lookup_remove, if_neg hat, Members.lookup_assign, if_neg hother, hsame]

theorem prefixedTargets_remove (hkey : "sessionTarget_".toList.isPrefixOf key.toList = false) :
    prefixedTargets (remove fields key) = prefixedTargets fields := by
  induction fields with
  | nil => rfl
  | cons field fields ih =>
    simp only [prefixedTargets, remove] at ih
    simp only [prefixedTargets, remove, List.filter_cons]
    by_cases heq : field.1 = key
    · have hnone : prefixedTarget? field = none := prefixedTarget?_of_key (heq ▸ hkey)
      rw [if_neg (by simp [heq]), List.filterMap_cons_none hnone, ih]
    · rw [if_pos (by simp [heq]), List.filterMap_cons, List.filterMap_cons, ih]

theorem prefixedTargets_assign (hkey : "sessionTarget_".toList.isPrefixOf key.toList = false)
    (value : Json) : prefixedTargets (assign fields key value) = prefixedTargets fields := by
  unfold assign prefixedTargets
  split
  · rw [List.filterMap_map]
    refine List.filterMap_congr fun field _ => ?_
    by_cases heq : field.1 = key
    · have hnone : prefixedTarget? field = none := prefixedTarget?_of_key (heq ▸ hkey)
      simp [heq, hnone, prefixedTarget?_of_key hkey]
    · simp [heq]
  · rw [List.filterMap_append]
    simp [prefixedTarget?_of_key hkey]

theorem prefixedTargets_nestField {mapping : PrefixedField}
    (hkeys : "sessionTarget_".toList.isPrefixOf mapping.prefixedKey.toList = false ∧
      "sessionTarget_".toList.isPrefixOf mapping.target.toList = false) :
    prefixedTargets (nestField fields mapping) = prefixedTargets fields := by
  unfold nestField
  split
  · rfl
  · rw [prefixedTargets_remove hkeys.1, prefixedTargets_assign hkeys.2]

theorem prefixedTargets_nested (fields : JsonFields) :
    prefixedTargets (nested fields) = prefixedTargets fields := by
  have hkeys : ∀ mapping ∈ PREFIXED_FIELD_GROUPS,
      "sessionTarget_".toList.isPrefixOf mapping.prefixedKey.toList = false ∧
      "sessionTarget_".toList.isPrefixOf mapping.target.toList = false :=
    fun mapping hmapping => ⟨(groups_keys mapping hmapping).1, (groups_keys mapping hmapping).2.1⟩
  unfold nested
  revert hkeys
  generalize PREFIXED_FIELD_GROUPS = groups
  intro hkeys
  induction groups generalizing fields with
  | nil => rfl
  | cons mapping groups ih =>
    obtain ⟨hmapping, hrest⟩ := List.forall_mem_cons.mp hkeys
    rw [List.foldl_cons, ih _ hrest, prefixedTargets_nestField hmapping]

theorem target_canonical : ∀ mapping ∈ PREFIXED_FIELD_GROUPS, Canonical mapping.target := by
  intro mapping hmapping
  obtain ⟨-, hlead, -, -, -, -, hat⟩ := groups_keys mapping hmapping
  exact ⟨(groups_names mapping hmapping).1,
    fun other hother => (groups_separate.apart other hother mapping hmapping).symm, hlead, hat⟩

theorem schedule_canonical : Canonical "schedule" :=
  target_canonical ⟨"schedule_kind", "schedule", "kind"⟩ (by simp [PREFIXED_FIELD_GROUPS])

theorem sessionTarget_canonical : Canonical "sessionTarget" :=
  ⟨names_clean.1, fun mapping hmapping => (groups_keys mapping hmapping).2.2.1.symm, by decide,
    by decide⟩

/-- A kept value that is a record where it ends is one where it starts. -/
theorem ValueKept.record_of {value : Json} (h : ValueKept value (.obj fields)) :
    ∃ record, value = .obj record ∧ FieldsKept record fields := by
  cases value with
  | obj record =>
    obtain ⟨fields', heq, hkept⟩ := valueKept_obj_iff.mp h
    cases heq
    exact ⟨record, rfl, hkept⟩
  | _ => cases h

theorem placesFree_of_kept (hkept : CanonicalKept job (reconstructPrefixedFields repaired)) :
    PlacesFree job repaired where
  place mapping hmapping value hvalue existing hexisting := by
    obtain ⟨record, hnested, hrecord⟩ := recovered_target repaired hmapping (by simp [hvalue])
    obtain ⟨value', hvalue', hvalueKept⟩ := hkept _ existing (target_canonical mapping hmapping) hexisting
    obtain rfl := Option.some.inj (hrecord.symm.trans hvalue')
    obtain ⟨old, rfl, hfields⟩ := hvalueKept.record_of
    refine ⟨old, rfl, fun taken htaken => ?_⟩
    obtain ⟨after, hafter, htakenKept⟩ := hfields _ taken htaken (groups_names mapping hmapping).2
    have hmerged := (nested_spec repaired).merged mapping.target mapping.field
      fun other hother => (groups_separate.apart other hother mapping hmapping).symm
    rw [placed_of_mem groups_separate.places hmapping, hvalue, Option.some_or, recordAt,
      hnested] at hmerged
    obtain rfl := Option.some.inj (hmerged.symm.trans hafter)
    exact htakenKept
  sessionTarget sessionTarget hlast existing hexisting := by
    obtain ⟨value', hvalue', hvalueKept⟩ := hkept _ existing sessionTarget_canonical hexisting
    rw [recovered_sessionTarget, prefixedTargets_nested, hlast, Option.map_some,
      Option.some_or] at hvalue'
    obtain rfl := Option.some.inj hvalue'
    cases hvalueKept
    rfl
  time time htime existing hexisting := by
    obtain ⟨record, hrecord⟩ := recovered_schedule htime
    obtain ⟨value', hvalue', hvalueKept⟩ := hkept _ existing schedule_canonical hexisting
    obtain rfl := Option.some.inj (hrecord.symm.trans hvalue')
    obtain ⟨old, rfl, -⟩ := hvalueKept.record_of
    exact ⟨old, rfl⟩

theorem kept_of_placesFree (hrepair : FieldsKept job repaired) (hfree : PlacesFree job repaired) :
    CanonicalKept job (reconstructPrefixedFields repaired) := by
  intro key value hkey hvalue
  obtain ⟨value', hvalue', hkept⟩ := hrepair key value hvalue hkey.1
  by_cases hplaced : ∃ mapping ∈ PREFIXED_FIELD_GROUPS, mapping.target = key ∧
      repaired.lookup mapping.prefixedKey ≠ none
  · -- the target of a prefixed field is a record, and its own fields are kept
    obtain ⟨mapping, hmapping, rfl, hprefixed⟩ := hplaced
    obtain ⟨placedValue, hplacedValue⟩ := Option.ne_none_iff_exists'.mp hprefixed
    obtain ⟨record, hnested, hrecord⟩ := recovered_target repaired hmapping hprefixed
    obtain ⟨old, rfl, -⟩ := hfree.place mapping hmapping placedValue hplacedValue value hvalue
    obtain ⟨old', rfl, hfields⟩ := valueKept_obj_iff.mp hkept
    refine ⟨_, hrecord, valueKept_obj_iff.mpr ⟨record, rfl, fun field taken htaken hfield => ?_⟩⟩
    have hmerged := (nested_spec repaired).merged mapping.target field hkey.2.1
    rw [recordAt, hnested, recordAt, hvalue'] at hmerged
    cases hplace : placed PREFIXED_FIELD_GROUPS repaired mapping.target field with
    | none =>
      rw [hplace, Option.none_or] at hmerged
      obtain ⟨after, hafter, htakenKept⟩ := hfields field taken htaken hfield
      exact ⟨after, hmerged.trans hafter, htakenKept⟩
    | some after =>
      rw [hplace, Option.some_or] at hmerged
      obtain ⟨other, hother, htarget, rfl, hafter⟩ := mem_of_placed hplace
      obtain ⟨_, heq, htakenKept⟩ := hfree.place other hother after hafter _ (htarget ▸ hvalue)
      cases heq
      exact ⟨after, hmerged, htakenKept taken htaken⟩
  · have hunplaced : ∀ mapping ∈ PREFIXED_FIELD_GROUPS, mapping.target = key →
        repaired.lookup mapping.prefixedKey = none := by
      intro mapping hmapping htarget
      by_contra hne
      exact hplaced ⟨mapping, hmapping, htarget, hne⟩
    by_cases hsession : key = "sessionTarget"
    · subst hsession
      rw [recovered_sessionTarget, prefixedTargets_nested]
      cases hlast : (prefixedTargets repaired).getLast? with
      | none => exact ⟨value', hvalue', hkept⟩
      | some sessionTarget =>
        obtain rfl := hfree.sessionTarget sessionTarget hlast value hvalue
        exact ⟨_, rfl, .same _⟩
    · rw [recovered_other hkey hsession hunplaced]
      · exact ⟨value', hvalue', hkept⟩
      · rintro rfl time htime
        obtain ⟨record, rfl⟩ := hfree.time time htime value hvalue
        obtain ⟨record', rfl, -⟩ := valueKept_obj_iff.mp hkept
        exact ⟨record', hvalue'⟩

/-- What stands under a canonical key may change but does not go. -/
theorem recovered_present (hkey : Canonical key) (h : fields.lookup key ≠ none) :
    (reconstructPrefixedFields fields).lookup key ≠ none := by
  by_cases hplaced : ∃ mapping ∈ PREFIXED_FIELD_GROUPS, mapping.target = key ∧
      fields.lookup mapping.prefixedKey ≠ none
  · obtain ⟨mapping, hmapping, rfl, hprefixed⟩ := hplaced
    obtain ⟨record, -, hrecord⟩ := recovered_target fields hmapping hprefixed
    simp [hrecord]
  · have hunplaced : ∀ mapping ∈ PREFIXED_FIELD_GROUPS, mapping.target = key →
        fields.lookup mapping.prefixedKey = none := by
      intro mapping hmapping htarget
      by_contra hne
      exact hplaced ⟨mapping, hmapping, htarget, hne⟩
    by_cases hsession : key = "sessionTarget"
    · subst hsession
      rw [recovered_sessionTarget]
      cases (prefixedTargets (nested fields)).getLast? with
      | none => exact h
      | some sessionTarget => simp
    · by_cases htime : key = "schedule" ∧ ∃ time, fields.lookup "at" = some (.str time)
      · obtain ⟨rfl, time, htime⟩ := htime
        obtain ⟨record, hrecord⟩ := recovered_schedule htime
        simp [hrecord]
      · rw [recovered_other hkey hsession hunplaced fun hschedule time hat =>
          absurd ⟨hschedule, time, hat⟩ htime]
        exact h

-- ---
-- Fields beside the job
-- ---

/-- A field beside the job that fills a gap. -/
def Recoverable (key : String) : Prop :=
  key ≠ "job" ∧ key ≠ "action" ∧ key ∈ CRON_RECOVERABLE_OBJECT_KEYS

theorem recoverable_canonical (h : Recoverable key) : Canonical key := by
  have hkeys : ∀ key ∈ CRON_RECOVERABLE_OBJECT_KEYS, key.toList.all isWordChar = true ∧
      (∀ mapping ∈ PREFIXED_FIELD_GROUPS, key ≠ mapping.prefixedKey) ∧
      "sessionTarget_".toList.isPrefixOf key.toList = false ∧ key ≠ "at" := by
    decide
  obtain ⟨hword, hprefixed, hlead, hat⟩ := hkeys key h.2.2
  exact ⟨realName?_word hword, hprefixed, hlead, hat⟩

theorem lookup_absorbField {param : String × Json} (h : job.lookup key = some value) :
    (absorbField job param).lookup key = some value := by
  unfold absorbField
  split
  · exact h
  · split
    · rename_i hgap
      have hne : key ≠ param.1 := by
        rintro rfl
        simp [h] at hgap
      rw [Members.lookup_assign, if_neg hne, h]
    · exact h

/-- The fields beside the job override none of its own. -/
theorem lookup_absorbFields (params : JsonFields) (h : job.lookup key = some value) :
    (absorbFields params job).lookup key = some value := by
  unfold absorbFields
  induction params generalizing job with
  | nil => exact h
  | cons param params ih => exact ih (lookup_absorbField h)

theorem absorbFields_present {params : JsonFields} (job : JsonFields) (hparam : param ∈ params)
    (hkey : Recoverable param.1) : (absorbFields params job).lookup param.1 ≠ none := by
  induction params generalizing job with
  | nil => cases hparam
  | cons other params ih =>
    rcases List.mem_cons.mp hparam with rfl | hparam
    · have hfirst : ∃ value, (absorbField job param).lookup param.1 = some value := by
        cases hjob : job.lookup param.1 with
        | some value => exact ⟨value, lookup_absorbField hjob⟩
        | none =>
          have hgap : param.1 ∈ CRON_RECOVERABLE_OBJECT_KEYS ∧ (job.lookup param.1).isNone = true :=
            ⟨hkey.2.2, by simp [hjob]⟩
          refine ⟨param.2, ?_⟩
          rw [absorbField, if_neg (by simp [hkey.1, hkey.2.1]), if_pos hgap, Members.lookup_assign,
            if_pos rfl]
      obtain ⟨value, hvalue⟩ := hfirst
      have hlater : (absorbFields (param :: params) job).lookup param.1 = some value :=
        lookup_absorbFields params hvalue
      simp [hlater]
    · exact ih _ hparam

/-- Where there is no gap nothing is absorbed. -/
theorem absorbFields_of_full {params : JsonFields}
    (h : ∀ param ∈ params, Recoverable param.1 → job.lookup param.1 ≠ none) :
    absorbFields params job = job := by
  unfold absorbFields
  induction params with
  | nil => rfl
  | cons param params ih =>
    obtain ⟨hparam, hrest⟩ := List.forall_mem_cons.mp h
    have hsame : absorbField job param = job := by
      unfold absorbField
      split
      · rfl
      · rename_i hname
        rw [not_or] at hname
        refine if_neg fun hgap => hparam ⟨hname.1, hname.2, hgap.1⟩ ?_
        simpa using hgap.2
    rw [List.foldl_cons, hsame]
    exact ih hrest

-- ---
-- Recovery
-- ---

/-- What the recovery of a job is to do. -/
structure Recovers (params job recovered : JsonFields) : Prop where
  again : ∀ params' : JsonFields, params'.map Prod.fst = params.map Prod.fst →
    recoverJob params' recovered = recovered
  clean : NoMangledFields recovered
  filled : ∀ key value, job.lookup key = some value →
    (absorbFields params job).lookup key = some value
  kept : CanonicalKept (absorbFields params job) recovered

theorem recoverJob_clean (params job : JsonFields) : NoMangledFields (recoverJob params job) :=
  noMangledFields_reconstruct (repairMangledKeys_noMangled _)

/-- A job that is recovered stays as it is, whatever has become of the fields beside it. -/
theorem recoverJob_again (params job : JsonFields) {params' : JsonFields}
    (hparams : params'.map Prod.fst = params.map Prod.fst) :
    recoverJob params' (recoverJob params job) = recoverJob params job := by
  have hfull : ∀ param ∈ params', Recoverable param.1 →
      (recoverJob params job).lookup param.1 ≠ none := by
    intro param hparam hkey
    have hmem : param.1 ∈ params.map Prod.fst := hparams ▸ List.mem_map_of_mem hparam
    obtain ⟨other, hother, heq⟩ := List.mem_map.mp hmem
    rw [← heq] at hkey ⊢
    obtain ⟨value, hvalue⟩ := Option.ne_none_iff_exists'.mp (absorbFields_present job hother hkey)
    obtain ⟨value', hvalue', -⟩ :=
      repairMangledKeys_kept _ _ value hvalue (recoverable_canonical hkey).1
    exact recovered_present (recoverable_canonical hkey) (by simp [hvalue'])
  have hrepaired := repairMangledKeys_of_noMangled _ (recoverJob_clean params job)
  rw [recoverJob, absorbFields_of_full hfull, hrepaired]
  exact reconstruct_again _

/-- Recovery is idempotent, leaves no mangled key, and the fields beside the job override none
of its own. What stands under a canonical key of the job is kept exactly if no prefixed field
and no bare time is to go where something else stands. -/
theorem recoverJob_iff (params job : JsonFields) :
    Recovers params job (recoverJob params job) ↔
      PlacesFree (absorbFields params job) (repairMangledKeys (absorbFields params job)) := by
  constructor
  · exact fun h => placesFree_of_kept h.kept
  · exact fun h => {
      again := fun _ hparams => recoverJob_again params job hparams
      clean := recoverJob_clean params job
      filled := fun _ _ => lookup_absorbFields params
      kept := kept_of_placesFree (repairMangledKeys_kept _) h }

/-- `{ schedule: { kind: "every" }, schedule_kind: "cron" }` -/
def takenPlace : JsonFields :=
  [("schedule", .obj [("kind", .str "every")]), ("schedule_kind", .str "cron")]

/-- The kind of the schedule gives way to the prefixed field. -/
theorem not_recoverJob : ¬ ∀ params job, Recovers params job (recoverJob params job) := by
  intro h
  have hclean : NoMangledFields takenPlace := by
    have htext (text : String) : NoMangledKeys (.str text) := .other fun _ h => by cases h
    have hkind : NoMangledFields [("kind", .str "every")] :=
      List.forall_mem_cons.mpr ⟨⟨names_clean.2.2.2, htext _⟩, by simp⟩
    refine List.forall_mem_cons.mpr ⟨⟨names_clean.2.1, noMangledKeys_obj.mpr hkind⟩, ?_⟩
    exact List.forall_mem_cons.mpr ⟨⟨realName?_word (by decide), htext _⟩, by simp⟩
  have hfree := placesFree_of_kept (h [] takenPlace).kept
  rw [show absorbFields [] takenPlace = takenPlace from rfl,
    repairMangledKeys_of_noMangled _ hclean] at hfree
  obtain ⟨record, heq, hplace⟩ := hfree.place ⟨"schedule_kind", "schedule", "kind"⟩
    (by simp [PREFIXED_FIELD_GROUPS]) (.str "cron") rfl _ rfl
  cases heq
  have hsame : Json.str "cron" = Json.str "every" :=
    (valueKept_of_not_record fun _ h => by cases h).mp (hplace (.str "every") rfl)
  exact absurd (Json.str.inj hsame) (by decide)

end

end OpenClaw.Cron
