import OpenClaw.Config.UnsetPaths

/-!
# Unsetting erases

What is left of a config once positions are erased, and what unsetting one path in it
does: it erases the one position that the path denotes there.
-/

namespace OpenClaw.Config

open Js (Text)

-- ---
-- Erasing one more
-- ---

theorem erase_of_mem (h : [] ∈ removed) (value : ConfigValue) : erase removed value = none := by
  cases value <;> simp [erase, h]

theorem erase_obj (h : [] ∉ removed) (fields : Fields) :
    erase removed (.obj fields) =
      if (eraseFields removed fields).isEmpty && !fields.isEmpty then none
      else some (.obj (eraseFields removed fields)) := by
  simp [erase, h]

theorem erase_arr (h : [] ∉ removed) (items : List ConfigValue) :
    erase removed (.arr items) = some (.arr (eraseItems removed 0 items)) := by
  simp [erase, h]

theorem erase_obj_eq_none (h : [] ∉ removed) {fields : Fields} :
    erase removed (.obj fields) = none ↔ fields ≠ [] ∧ eraseFields removed fields = [] := by
  rw [erase_obj h]
  simp [and_comm]

/-- Only an object goes without being erased itself. -/
theorem mem_of_erase_leaf (h : erase removed value = none) (hleaf : ∀ fields, value ≠ .obj fields) :
    [] ∈ removed := by
  by_contra hroot
  cases value with
  | obj fields => exact hleaf fields rfl
  | _ => simp [erase, hroot] at h

theorem not_mem_of_erase (h : erase removed value = some current) : [] ∉ removed := by
  intro hmem
  rw [erase_of_mem hmem] at h
  cases h

theorem eraseFields_cons_some (h : erase (below (.key key) removed) value = some current)
    (fields : Fields) :
    eraseFields removed ((key, value) :: fields) =
      (key, current) :: eraseFields removed fields := by
  simp [eraseFields, h]

theorem eraseFields_cons_none (h : erase (below (.key key) removed) value = none)
    (fields : Fields) :
    eraseFields removed ((key, value) :: fields) = eraseFields removed fields := by
  simp [eraseFields, h]

theorem eraseItems_cons_some (h : erase (below (.item index) removed) item = some current)
    (items : List ConfigValue) :
    eraseItems removed index (item :: items) = current :: eraseItems removed (index + 1) items := by
  simp [eraseItems, h]

theorem eraseItems_cons_none (h : erase (below (.item index) removed) item = none)
    (items : List ConfigValue) :
    eraseItems removed index (item :: items) = eraseItems removed (index + 1) items := by
  simp [eraseItems, h]

theorem mem_keys_eraseFields {fields : Fields}
    (h : key ∈ (eraseFields removed fields).map Prod.fst) :
    key ∈ fields.map Prod.fst := by
  induction fields with
  | nil => exact h
  | cons field fields ih =>
    obtain ⟨key', value⟩ := field
    cases hvalue : erase (below (.key key') removed) value with
    | none =>
      rw [eraseFields_cons_none hvalue] at h
      exact List.mem_cons_of_mem _ (ih h)
    | some current =>
      rw [eraseFields_cons_some hvalue] at h
      obtain heq | h := List.mem_cons.mp h
      · exact List.mem_cons.mpr (.inl heq)
      · exact List.mem_cons_of_mem _ (ih h)

theorem lookup_eraseFields {fields : Fields} (hnodup : (fields.map Prod.fst).Nodup) (key : Text) :
    (eraseFields removed fields).lookup key =
      (fields.lookup key).bind (erase (below (.key key) removed)) := by
  induction fields with
  | nil => rfl
  | cons field fields ih =>
    obtain ⟨key', value⟩ := field
    obtain ⟨hnew, hnodup⟩ := List.nodup_cons.mp hnodup
    rw [Members.lookup_cons]
    by_cases hkey : key' = key
    · subst hkey
      have hnone : (eraseFields removed fields).lookup key' = none := by
        rw [Members.lookup_eq_none]
        exact fun hmem => hnew (mem_keys_eraseFields hmem)
      cases hvalue : erase (below (.key key') removed) value with
      | none => simp [eraseFields_cons_none hvalue, hnone, hvalue]
      | some current => simp [eraseFields_cons_some hvalue, hvalue]
    · cases hvalue : erase (below (.key key') removed) value with
      | none => simp [eraseFields_cons_none hvalue, ih hnodup, Ne.symm hkey]
      | some current =>
        simp [eraseFields_cons_some hvalue, Members.lookup_cons, ih hnodup, Ne.symm hkey]

theorem eraseFields_congr {fields : Fields}
    (h : ∀ field ∈ fields, erase (below (.key field.1) removed) field.2 =
      erase (below (.key field.1) removed') field.2) :
    eraseFields removed fields = eraseFields removed' fields := by
  induction fields with
  | nil => rfl
  | cons field fields ih =>
    obtain ⟨key, value⟩ := field
    obtain ⟨hvalue, hrest⟩ := List.forall_mem_cons.mp h
    simp only [eraseFields, hvalue, ih hrest]

theorem eraseItems_congr {items : List ConfigValue}
    (h : ∀ n item, items[n]? = some item → erase (below (.item (start + n)) removed) item =
      erase (below (.item (start + n)) removed') item) :
    eraseItems removed start items = eraseItems removed' start items := by
  induction items generalizing start with
  | nil => rfl
  | cons item items ih =>
    have hitem := h 0 item rfl
    have hrest : eraseItems removed (start + 1) items = eraseItems removed' (start + 1) items := by
      apply ih
      intro n item' hitem'
      have hshift := h (n + 1) item' hitem'
      rwa [Nat.add_comm n 1, ← Nat.add_assoc] at hshift
    simp only [eraseItems, Nat.add_zero] at hitem ⊢
    simp only [hitem, hrest]

/-- A position under another key has no say. -/
theorem eraseFields_other {fields : Fields} (h : key ∉ fields.map Prod.fst) (position : Position)
    (removed : List Position) :
    eraseFields ((.key key :: position) :: removed) fields = eraseFields removed fields := by
  apply eraseFields_congr
  intro field hfield
  have hkey : key ≠ field.1 := by
    rintro rfl
    exact h (List.mem_map_of_mem hfield)
  rw [below_key_ne hkey]

theorem remove_cons (field : Text × ConfigValue) (fields : Fields) (key : Text) :
    Members.remove (field :: fields) key =
      if field.1 = key then Members.remove fields key else field :: Members.remove fields key := by
  unfold Members.remove
  rw [List.filter_cons]
  split <;> simp_all

theorem setField_cons (field : Text × ConfigValue) (fields : Fields) (key : Text)
    (value : ConfigValue) :
    setField (field :: fields) key value =
      (if field.1 = key then (key, value) else field) :: setField fields key value := rfl

theorem setField_of_not_mem {fields : Fields} (h : key ∉ fields.map Prod.fst)
    (value : ConfigValue) : setField fields key value = fields := by
  unfold setField
  conv_rhs => rw [← List.map_id fields]
  apply List.map_congr_left
  intro field hfield
  have hne : field.1 ≠ key := by
    rintro rfl
    exact h (List.mem_map_of_mem hfield)
  simp [hne]

/-- One more position under a key changes the member of that key. -/
theorem eraseFields_cons_key {fields : Fields} (hnodup : (fields.map Prod.fst).Nodup)
    (hlookup : fields.lookup key = some value)
    (hpresent : erase (below (.key key) removed) value = some current) (position : Position) :
    eraseFields ((.key key :: position) :: removed) fields =
      (erase (position :: below (.key key) removed) value).elim
        (Members.remove (eraseFields removed fields) key)
        (setField (eraseFields removed fields) key) := by
  induction fields with
  | nil => cases hlookup
  | cons field fields ih =>
    obtain ⟨key', value'⟩ := field
    obtain ⟨hnew, hnodup⟩ := List.nodup_cons.mp hnodup
    rw [Members.lookup_cons] at hlookup
    by_cases hkey : key = key'
    · subst hkey
      rw [if_pos rfl, Option.some.injEq] at hlookup
      subst hlookup
      have hgone : key ∉ (eraseFields removed fields).map Prod.fst :=
        fun hmem => hnew (mem_keys_eraseFields hmem)
      rw [eraseFields_cons_some hpresent, eraseFields, below_cons_self,
        eraseFields_other hnew position removed]
      cases erase (position :: below (.key key) removed) value' with
      | none =>
        rw [Option.elim_none, remove_cons, if_pos rfl]
        exact (Members.remove_eq_self hgone).symm
      | some next =>
        rw [Option.elim_some, setField_cons, if_pos rfl, setField_of_not_mem hgone next]
    · rw [if_neg hkey] at hlookup
      have hbelow := below_key_ne hkey position removed
      have hrest := ih hnodup hlookup
      cases hhead : erase (below (.key key') removed) value' with
      | none =>
        rw [eraseFields_cons_none hhead, eraseFields_cons_none (hbelow ▸ hhead), hrest]
      | some head =>
        rw [eraseFields_cons_some hhead, eraseFields_cons_some (hbelow ▸ hhead), hrest]
        cases erase (position :: below (.key key) removed) value with
        | none => rw [Option.elim_none, Option.elim_none, remove_cons, if_neg (Ne.symm hkey)]
        | some next =>
          rw [Option.elim_some, Option.elim_some, setField_cons, if_neg (Ne.symm hkey)]

theorem le_of_mem_presentItems (h : (index, item) ∈ presentItems removed start items) :
    start ≤ index := by
  induction items generalizing start with
  | nil => cases h
  | cons item' items ih =>
    rw [presentItems] at h
    split at h
    · obtain heq | h := List.mem_cons.mp h
      · cases heq
        exact le_rfl
      · exact Nat.le_of_succ_le (ih h)
    · exact Nat.le_of_succ_le (ih h)

theorem mem_of_mem_presentItems (h : (index, item) ∈ presentItems removed start items) :
    item ∈ items := by
  induction items generalizing start with
  | nil => cases h
  | cons item' items ih =>
    rw [presentItems] at h
    split at h
    · obtain heq | h := List.mem_cons.mp h
      · cases heq
        exact List.mem_cons_self
      · exact List.mem_cons_of_mem _ (ih h)
    · exact List.mem_cons_of_mem _ (ih h)

theorem isSome_of_mem_presentItems (h : (index, item) ∈ presentItems removed start items) :
    (erase (below (.item index) removed) item).isSome := by
  induction items generalizing start with
  | nil => cases h
  | cons item' items ih =>
    rw [presentItems] at h
    split at h
    case isTrue hpresent =>
      obtain heq | h := List.mem_cons.mp h
      · cases heq
        exact hpresent
      · exact ih h
    case isFalse => exact ih h

theorem eraseItems_getElem? (removed : List Position) (start : Nat) (items : List ConfigValue)
    (n : Nat) :
    (eraseItems removed start items)[n]? =
      ((presentItems removed start items)[n]?).bind fun entry =>
        erase (below (.item entry.1) removed) entry.2 := by
  induction items generalizing start n with
  | nil => rfl
  | cons item items ih =>
    rw [presentItems]
    cases hitem : erase (below (.item start) removed) item with
    | none => simpa [eraseItems_cons_none hitem] using ih (start + 1) n
    | some current =>
      cases n with
      | zero => simp [eraseItems_cons_some hitem, hitem]
      | succ n => simpa [eraseItems_cons_some hitem] using ih (start + 1) n

/-- A position under an earlier item has no say. -/
theorem eraseItems_later (h : index < start) (position : Position) (removed : List Position)
    (items : List ConfigValue) :
    eraseItems ((.item index :: position) :: removed) start items =
      eraseItems removed start items := by
  apply eraseItems_congr
  intro n item _
  rw [below_item_ne (Nat.lt_of_lt_of_le h (Nat.le_add_right start n)).ne]

/-- One more position under an item changes that item, which stands among those that are left. -/
theorem eraseItems_cons_item (h : (presentItems removed start items)[n]? = some (index, item))
    (position : Position) :
    eraseItems ((.item index :: position) :: removed) start items =
      (erase (position :: below (.item index) removed) item).elim
        ((eraseItems removed start items).eraseIdx n)
        ((eraseItems removed start items).set n) := by
  induction items generalizing start n with
  | nil => cases h
  | cons item' items ih =>
    rw [presentItems] at h
    cases hitem : erase (below (.item start) removed) item' with
    | none =>
      rw [hitem, Option.isSome_none, if_neg Bool.false_ne_true] at h
      have hle := le_of_mem_presentItems (List.mem_of_getElem? h)
      have hbelow := below_item_ne (Nat.lt_of_succ_le hle).ne' position removed
      rw [eraseItems_cons_none hitem, eraseItems_cons_none (hbelow ▸ hitem), ih h]
    | some current =>
      rw [hitem, Option.isSome_some, if_pos rfl] at h
      cases n with
      | zero =>
        rw [List.getElem?_cons_zero, Option.some.injEq, Prod.mk.injEq] at h
        obtain ⟨rfl, rfl⟩ := h
        rw [eraseItems_cons_some hitem, eraseItems, below_cons_self,
          eraseItems_later (Nat.lt_succ_self start) position removed]
        cases erase (position :: below (.item start) removed) item' with
        | none => rfl
        | some next => rfl
      | succ n =>
        rw [List.getElem?_cons_succ] at h
        have hle := le_of_mem_presentItems (List.mem_of_getElem? h)
        have hbelow := below_item_ne (Nat.lt_of_succ_le hle).ne' position removed
        rw [eraseItems_cons_some hitem, eraseItems_cons_some (hbelow ▸ hitem), ih h]
        cases erase (position :: below (.item index) removed) item with
        | none => rfl
        | some next => rfl

-- ---
-- One path
-- ---

def UnsetPathWriteResult.ofErased : Option ConfigValue → UnsetPathWriteResult
  | none => .pruned
  | some next => .changed next

theorem DistinctFields.lookup {fields : Fields} (h : DistinctFields fields)
    (hlookup : fields.lookup key = some value) : value.DistinctKeys := by
  induction fields with
  | nil => cases hlookup
  | cons field fields ih =>
    obtain ⟨key', value'⟩ := field
    obtain ⟨hvalue, hrest⟩ := h
    rw [Members.lookup_cons] at hlookup
    split at hlookup
    · cases hlookup
      exact hvalue
    · exact ih hrest hlookup

theorem DistinctItems.mem {items : List ConfigValue} (h : DistinctItems items)
    (hmem : item ∈ items) : item.DistinctKeys := by
  induction items with
  | nil => cases hmem
  | cons item' items ih =>
    obtain rfl | hmem := List.mem_cons.mp hmem
    · exact h.1
    · exact ih h.2 hmem

theorem ofErased_obj (h : [] ∉ removed) (hne : fields ≠ []) :
    .ofErased (erase removed (.obj fields)) = writeObject (eraseFields removed fields) := by
  rw [erase_obj h]
  cases eraseFields removed fields with
  | nil => simp [hne, UnsetPathWriteResult.ofErased, writeObject]
  | cons field kept => simp [UnsetPathWriteResult.ofErased, writeObject]

theorem not_mem_cons_step (h : [] ∉ removed) (step : Step) (position : Position) :
    [] ∉ (step :: position) :: removed := by
  simp [h]

/-- Unsetting a path in what is left erases the position that the path denotes there. -/
theorem unsetPathForWriteAt_erase (path : List Text) :
    ∀ {removed : List Position} {value current : ConfigValue}, value.DistinctKeys →
      erase removed value = some current →
        unsetPathForWriteAt current path =
          (resolve removed value path).elim .unchanged fun position =>
            .ofErased (erase (position :: removed) value) := by
  induction path with
  | nil =>
    intro removed value current _ _
    cases current <;> cases value <;> rfl
  | cons segment rest ih =>
    intro removed value current hdistinct herase
    have hroot := not_mem_of_erase herase
    cases value with
    | obj fields =>
      obtain ⟨hnodup, hdistinct⟩ := hdistinct
      rw [erase_obj hroot, Option.ite_none_left_eq_some] at herase
      obtain ⟨-, hcurrent⟩ := herase
      cases hcurrent
      rw [unsetPathForWriteAt, resolve]
      by_cases hblocked : isBlockedObjectKey segment = true
      · simp [hblocked]
      simp only [hblocked, Bool.false_eq_true, if_false, lookup_eraseFields hnodup]
      cases hlookup : fields.lookup segment with
      | none => rfl
      | some value =>
        have hne : fields ≠ [] := by
          rintro rfl
          cases hlookup
        cases hpresent : erase (below (.key segment) removed) value with
        | none => simp [hpresent]
        | some child =>
          have herased (position : Position) :
              .ofErased (erase ((.key segment :: position) :: removed) (.obj fields)) =
                writeObject ((erase (position :: below (.key segment) removed) value).elim
                  (Members.remove (eraseFields removed fields) segment)
                  (setField (eraseFields removed fields) segment)) := by
            rw [ofErased_obj (not_mem_cons_step hroot _ _) hne,
              eraseFields_cons_key hnodup hlookup hpresent]
          simp only [Option.bind_some, hpresent, Option.isNone_some, Bool.false_eq_true, if_false]
          cases hrest : rest.isEmpty with
          | true =>
            simp only [if_true, Option.elim_some]
            rw [herased, erase_of_mem List.mem_cons_self, Option.elim_none]
          | false =>
            simp only [Bool.false_eq_true, if_false]
            rw [ih (hdistinct.lookup hlookup) hpresent]
            cases resolve (below (.key segment) removed) value rest with
            | none => rfl
            | some position =>
              simp only [Option.map_some, Option.elim_some]
              rw [herased]
              cases erase (position :: below (.key segment) removed) value with
              | none => rfl
              | some next => rfl
    | arr items =>
      rw [erase_arr hroot, Option.some.injEq] at herase
      subst herase
      rw [unsetPathForWriteAt, resolve]
      by_cases hnumeric : isNumericPathSegment segment = true
      · simp only [hnumeric, Bool.not_true, Bool.false_eq_true, if_false, eraseItems_getElem?]
        cases hentry : (presentItems removed 0 items)[Js.ofDigits 10 segment]? with
        | none => rfl
        | some entry =>
          obtain ⟨index, item⟩ := entry
          have herased (position : Position) :
              UnsetPathWriteResult.ofErased
                  (erase ((.item index :: position) :: removed) (.arr items)) =
                .changed (.arr ((erase (position :: below (.item index) removed) item).elim
                  ((eraseItems removed 0 items).eraseIdx (Js.ofDigits 10 segment))
                  ((eraseItems removed 0 items).set (Js.ofDigits 10 segment)))) := by
            rw [erase_arr (not_mem_cons_step hroot _ _), eraseItems_cons_item hentry]
            rfl
          obtain ⟨child, hpresent⟩ := Option.isSome_iff_exists.mp
            (isSome_of_mem_presentItems (List.mem_of_getElem? hentry))
          simp only [Option.bind_some, hpresent]
          cases hrest : rest.isEmpty with
          | true =>
            simp only [if_true, Option.elim_some]
            rw [herased, erase_of_mem List.mem_cons_self, Option.elim_none]
          | false =>
            simp only [Bool.false_eq_true, if_false]
            have hitem := mem_of_mem_presentItems (List.mem_of_getElem? hentry)
            rw [ih (DistinctItems.mem hdistinct hitem) hpresent]
            cases resolve (below (.item index) removed) item rest with
            | none => rfl
            | some position =>
              simp only [Option.map_some, Option.elim_some]
              rw [herased]
              cases erase (position :: below (.item index) removed) item with
              | none => rfl
              | some next => rfl
      · simp [hnumeric]
    | _ =>
      simp only [erase, hroot, if_false, Option.some.injEq] at herase
      subst herase
      rfl

-- ---
-- Positions that are gone
-- ---

mutual
theorem erase_nil : ∀ value : ConfigValue, erase [] value = some value
  | .obj fields => by
    rw [erase_obj List.not_mem_nil, eraseFields_nil fields]
    simp
  | .arr items => by rw [erase_arr List.not_mem_nil, eraseItems_nil items 0]
  | .undefined | .null | .bool _ | .num _ | .str _ => by simp [erase]
theorem eraseFields_nil : ∀ fields : Fields, eraseFields [] fields = fields
  | [] => rfl
  | (key, value) :: fields => by
    have hvalue : erase (below (.key key) []) value = some value := erase_nil value
    rw [eraseFields_cons_some hvalue, eraseFields_nil fields]
theorem eraseItems_nil :
    ∀ (items : List ConfigValue) (start : Nat), eraseItems [] start items = items
  | [], _ => rfl
  | item :: items, start => by
    have hitem : erase (below (.item start) []) item = some item := erase_nil item
    rw [eraseItems_cons_some hitem, eraseItems_nil items (start + 1)]
end

mutual
/-- Of what is erased only the set counts. -/
theorem erase_congr : ∀ {value : ConfigValue} {removed removed' : List Position},
    (∀ position, position ∈ removed ↔ position ∈ removed') →
      erase removed value = erase removed' value
  | .obj fields, _, _, h => by simp only [erase, h [], eraseFields_same h fields]
  | .arr items, _, _, h => by simp only [erase, h [], eraseItems_same h items 0]
  | .undefined, _, _, h | .null, _, _, h | .bool _, _, _, h | .num _, _, _, h
  | .str _, _, _, h => by
    simp only [erase, h []]
theorem eraseFields_same {removed removed' : List Position}
    (h : ∀ position, position ∈ removed ↔ position ∈ removed') :
    ∀ fields : Fields, eraseFields removed fields = eraseFields removed' fields
  | [] => rfl
  | (key, value) :: fields => by
    have hbelow (position) :
        position ∈ below (.key key) removed ↔ position ∈ below (.key key) removed' := by
      rw [mem_below, mem_below, h]
    simp only [eraseFields, erase_congr hbelow, eraseFields_same h fields]
theorem eraseItems_same {removed removed' : List Position}
    (h : ∀ position, position ∈ removed ↔ position ∈ removed') :
    ∀ (items : List ConfigValue) (start : Nat),
      eraseItems removed start items = eraseItems removed' start items
  | [], _ => rfl
  | item :: items, start => by
    have hbelow (position) :
        position ∈ below (.item start) removed ↔ position ∈ below (.item start) removed' := by
      rw [mem_below, mem_below, h]
    simp only [eraseItems, erase_congr hbelow, eraseItems_same h items (start + 1)]
end

mutual
/-- What is gone stays gone when more is erased. -/
theorem erase_mono : ∀ {value : ConfigValue} {removed removed' : List Position},
    removed ⊆ removed' → erase removed value = none → erase removed' value = none
  | .obj fields, removed, removed', h, hgone => by
    by_cases hroot' : [] ∈ removed'
    · exact erase_of_mem hroot' _
    · have hroot : [] ∉ removed := fun hmem => hroot' (h hmem)
      obtain ⟨hne, hfields⟩ := (erase_obj_eq_none hroot).mp hgone
      exact (erase_obj_eq_none hroot').mpr ⟨hne, eraseFields_mono h fields hfields⟩
  | .arr _, _, _, h, hgone =>
    erase_of_mem (h (mem_of_erase_leaf hgone fun _ heq => by cases heq)) _
  | .undefined, _, _, h, hgone | .null, _, _, h, hgone | .bool _, _, _, h, hgone
  | .num _, _, _, h, hgone | .str _, _, _, h, hgone =>
    erase_of_mem (h (mem_of_erase_leaf hgone fun _ heq => by cases heq)) _
theorem eraseFields_mono {removed removed' : List Position} (h : removed ⊆ removed') :
    ∀ fields : Fields, eraseFields removed fields = [] → eraseFields removed' fields = []
  | [], _ => rfl
  | (key, value) :: fields, hgone => by
    have hbelow : below (.key key) removed ⊆ below (.key key) removed' := by
      intro position hmem
      exact mem_below.mpr (h (mem_below.mp hmem))
    cases hvalue : erase (below (.key key) removed) value with
    | none =>
      rw [eraseFields_cons_none hvalue] at hgone
      rw [eraseFields_cons_none (erase_mono hbelow hvalue), eraseFields_mono h fields hgone]
    | some current =>
      rw [eraseFields_cons_some hvalue] at hgone
      cases hgone
end

/-- The position is still there once others are erased. -/
def survives (removed : List Position) : ConfigValue → Position → Bool
  | value, [] => (erase removed value).isSome
  | .obj fields, .key key :: position =>
    (erase removed (.obj fields)).isSome &&
      (fields.lookup key).any fun value => survives (below (.key key) removed) value position
  | .arr items, .item index :: position =>
    (erase removed (.arr items)).isSome &&
      (items[index]?).any fun item => survives (below (.item index) removed) item position
  | _, _ => false

/-- Erasing what is gone already changes nothing. -/
theorem erase_of_gone (position : Position) : ∀ {removed : List Position} {value : ConfigValue},
    value.DistinctKeys → survives removed value position = false →
      erase (position :: removed) value = erase removed value := by
  induction position with
  | nil =>
    intro removed value _ hgone
    rw [survives, Option.isSome_eq_false_iff, Option.isNone_iff_eq_none] at hgone
    rw [hgone, erase_of_mem List.mem_cons_self]
  | cons step position ih =>
    intro removed value hdistinct hgone
    by_cases hroot : [] ∈ removed
    · rw [erase_of_mem hroot, erase_of_mem (List.mem_cons_of_mem _ hroot)]
    have hroot' := not_mem_cons_step hroot step position
    cases value with
    | obj fields =>
      obtain ⟨hnodup, hdistinct⟩ := hdistinct
      suffices hfields : erase removed (.obj fields) = none ∨
          eraseFields ((step :: position) :: removed) fields = eraseFields removed fields by
        obtain hnone | hfields := hfields
        · rw [hnone, erase_mono (List.subset_cons_self _ _) hnone]
        · rw [erase_obj hroot, erase_obj hroot', hfields]
      by_cases hnone : erase removed (.obj fields) = none
      · exact .inl hnone
      refine .inr (eraseFields_congr ?_)
      intro field hfield
      cases step with
      | item index => rw [below_cons_ne (by simp)]
      | key key =>
        by_cases hkey : key = field.1
        · subst hkey
          have hlookup : fields.lookup field.1 = some field.2 := Members.lookup_of_mem hnodup hfield
          simp only [survives, hlookup, Option.any_some, Bool.and_eq_false_iff] at hgone
          obtain hgone | hgone := hgone
          · exact absurd (Option.isNone_iff_eq_none.mp (by simpa using hgone)) hnone
          rw [below_cons_self, ih (hdistinct.lookup hlookup) hgone]
        · rw [below_key_ne hkey]
    | arr items =>
      rw [erase_arr hroot, erase_arr hroot']
      refine congrArg _ (congrArg _ (eraseItems_congr ?_))
      intro n item hitem
      rw [Nat.zero_add]
      cases step with
      | key key => rw [below_cons_ne (by simp)]
      | item index =>
        by_cases hindex : index = n
        · subst hindex
          simp only [survives, hitem, Option.any_some, erase_arr hroot, Option.isSome_some,
            Bool.true_and] at hgone
          rw [below_cons_self, ih (DistinctItems.mem hdistinct (List.mem_of_getElem? hitem)) hgone]
        · rw [below_item_ne hindex]
    | _ => simp [erase, hroot]

end OpenClaw.Config

/-!
# All unset paths

The paths are given for the config as it is before the first of them is unset. An array
that has lost an item answers the later ones by other items.
-/

namespace OpenClaw.Config

open Js (Text)

-- ---
-- All paths
-- ---

/-- What a path denotes in a config, nothing of which is erased. -/
def denotes (config : ConfigValue) (path : List Text) : Option Position := resolve [] config path

/-- What a path denotes once positions are erased. -/
def denotesIn (removed : List Position) (config : ConfigValue) (path : List Text) :
    Option Position :=
  if (erase removed config).isSome then resolve removed config path else none

/-- With some positions erased the path denotes what it denotes in the whole config, as
far as that is still there. -/
def Faithful (removed : List Position) (config : ConfigValue) (path : List Text) : Prop :=
  denotesIn removed config path = (denotes config path).filter (survives removed config)

theorem unsetPathForWriteAt_empty (path : List Text) :
    unsetPathForWriteAt (.obj []) path = .unchanged := by
  cases path with
  | nil => rfl
  | cons segment rest => simp [unsetPathForWriteAt]

/-- One turn of the loop erases what the path denotes by then. -/
theorem unsetPathForWrite_eraseRoot (removed : List Position) {fields : Fields}
    (h : (ConfigValue.obj fields).DistinctKeys) (path : List Text) :
    (unsetPathForWrite (eraseRoot removed (.obj fields)) path).getD
        (eraseRoot removed (.obj fields)) =
      eraseRoot ((denotesIn removed (.obj fields) path).toList ++ removed) (.obj fields) := by
  unfold denotesIn
  cases herase : erase removed (.obj fields) with
  | none => simp [eraseRoot, herase, unsetPathForWrite, unsetPathForWriteAt_empty]
  | some current =>
    have hcurrent : eraseRoot removed (.obj fields) = current := by simp [eraseRoot, herase]
    rw [hcurrent, unsetPathForWrite, unsetPathForWriteAt_erase path h herase]
    cases resolve removed (.obj fields) path with
    | none => simp [hcurrent]
    | some position =>
      simp only [Option.elim_some, Option.isSome_some, if_true, Option.toList_some,
        List.singleton_append]
      cases hnext : erase (position :: removed) (.obj fields) with
      | none => simp [UnsetPathWriteResult.ofErased, eraseRoot, hnext]
      | some next =>
        have hkept := hnext
        rw [erase_obj (not_mem_of_erase hnext), Option.ite_none_left_eq_some] at hkept
        obtain rfl := Option.some.inj hkept.2
        rw [eraseRoot, hnext]
        rfl

theorem eraseRoot_denotes {removed : List Position} {config : ConfigValue}
    (h : config.DistinctKeys) (hfaithful : Faithful removed config path) :
    eraseRoot ((denotesIn removed config path).toList ++ removed) config =
      eraseRoot ((denotes config path).toList ++ removed) config := by
  rw [hfaithful]
  cases denotes config path with
  | none => rfl
  | some position =>
    cases hsurvives : survives removed config position with
    | true => simp [Option.filter, hsurvives]
    | false =>
      simp only [Option.filter, hsurvives]
      simp [eraseRoot, erase_of_gone position h hsurvives]

/-- Where each path is faithful in its turn, the paths erase what they denote in the config
that they were given for. -/
theorem unsetPathsForWrite_erases (fields : Fields) (h : (ConfigValue.obj fields).DistinctKeys)
    (unsetPaths : List (List Text))
    (hfaithful : ∀ before path after, unsetPaths = before ++ path :: after →
      Faithful (before.filterMap (denotes (.obj fields))) (.obj fields) path) :
    ∀ before, before <+: unsetPaths →
      unsetPathsForWrite (.obj fields) before =
        eraseRoot (before.filterMap (denotes (.obj fields))) (.obj fields) := by
  intro before
  induction before using List.reverseRecOn with
  | nil =>
    intro _
    simp [unsetPathsForWrite, eraseRoot, erase_nil]
  | append_singleton before path ih =>
    rintro ⟨after, hpaths⟩
    rw [List.append_assoc, List.singleton_append] at hpaths
    have hbefore := ih ⟨path :: after, hpaths⟩
    have hstep := unsetPathForWrite_eraseRoot (before.filterMap (denotes (.obj fields))) h path
    rw [eraseRoot_denotes h (hfaithful before path after hpaths.symm), ← hbefore] at hstep
    have hfold : unsetPathsForWrite (.obj fields) (before ++ [path]) =
        (unsetPathForWrite (unsetPathsForWrite (.obj fields) before) path).getD
          (unsetPathsForWrite (.obj fields) before) := by
      simp [unsetPathsForWrite]
    rw [hfold, hstep]
    unfold eraseRoot
    rw [erase_congr]
    intro position
    rw [List.filterMap_append, List.mem_append, List.mem_append, or_comm]
    cases hpath : denotes (.obj fields) path <;> simp [hpath]

def listConfig : Fields :=
  [("a".toList, .arr [.str "x".toList, .str "y".toList, .str "z".toList]),
    ("b".toList, .obj [("c".toList, .null)])]

theorem listConfig_distinct : (ConfigValue.obj listConfig).DistinctKeys :=
  ⟨by decide, by simp [listConfig, DistinctFields, ConfigValue.DistinctKeys, DistinctItems]⟩

instance decidableFaithful (removed : List Position) (config : ConfigValue) (path : List Text) :
    Decidable (Faithful removed config path) := inferInstanceAs (Decidable (_ = _))

def listPaths : List (List Text) := [["a".toList, "1".toList], ["b".toList, "c".toList]]

theorem unsetPathsForWrite_erases_list :
    unsetPathsForWrite (.obj listConfig) listPaths =
      eraseRoot (listPaths.filterMap (denotes (.obj listConfig))) (.obj listConfig) := by
  refine unsetPathsForWrite_erases listConfig listConfig_distinct listPaths ?_ listPaths
    (List.prefix_refl _)
  intro before path after hpaths
  cases before with
  | nil =>
    cases hpaths
    decide
  | cons first before =>
    cases before with
    | nil =>
      cases hpaths
      decide
    | cons second before => simp [listPaths] at hpaths

/-- The second path meets the item behind the one that it denotes. -/
theorem not_unsetPathsForWrite_erases :
    ¬∀ fields : Fields, (ConfigValue.obj fields).DistinctKeys → ∀ unsetPaths : List (List Text),
      unsetPathsForWrite (.obj fields) unsetPaths =
        eraseRoot (unsetPaths.filterMap (denotes (.obj fields))) (.obj fields) := by
  intro hall
  have hlist := hall listConfig listConfig_distinct
    [["a".toList, "0".toList], ["a".toList, "1".toList]]
  have hunset : unsetPathsForWrite (.obj listConfig)
      [["a".toList, "0".toList], ["a".toList, "1".toList]] =
      .obj [("a".toList, .arr [.str "y".toList]), ("b".toList, .obj [("c".toList, .null)])] := by
    rfl
  have herased : eraseRoot ([["a".toList, "0".toList], ["a".toList, "1".toList]].filterMap
      (denotes (.obj listConfig))) (.obj listConfig) =
      .obj [("a".toList, .arr [.str "z".toList]), ("b".toList, .obj [("c".toList, .null)])] := by
    rfl
  rw [hunset, herased] at hlist
  simp at hlist

end OpenClaw.Config
