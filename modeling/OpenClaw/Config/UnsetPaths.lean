import OpenClaw.Config.MergePatch
import OpenClaw.Js.Double

/-!
# Unset paths

Before a config is written, the paths that a caller wants gone are unset one after the
other. An object that is left without members goes with its last member.
-/

namespace OpenClaw.Config

open Js (Text)

-- ---
-- Unsetting
-- ---

/-- `/^[0-9]+$/.test(raw)` -/
def isNumericPathSegment (raw : Text) : Bool := raw ≠ [] && raw.all Char.isDigit

/-- `pruned` is the value `WRITE_PRUNED_OBJECT`. -/
inductive UnsetPathWriteResult
  | unchanged
  | pruned
  | changed (next : ConfigValue)

/-- The object with the members that are left. -/
def writeObject (next : Fields) : UnsetPathWriteResult :=
  if next.isEmpty then .pruned else .changed (.obj next)

/-- From the segment at `depth` on. -/
def unsetPathForWriteAt : ConfigValue → List Text → UnsetPathWriteResult
  | .arr items, segment :: rest =>
    if !isNumericPathSegment segment then .unchanged
    else
      let index := Js.ofDigits 10 segment
      match items[index]? with
      | none => .unchanged
      | some item =>
        if rest.isEmpty then .changed (.arr (items.eraseIdx index))
        else match unsetPathForWriteAt item rest with
          | .unchanged => .unchanged
          | .pruned => .changed (.arr (items.eraseIdx index))
          | .changed child => .changed (.arr (items.set index child))
  | .obj fields, segment :: rest =>
    if isBlockedObjectKey segment then .unchanged
    else match fields.lookup segment with
      | none => .unchanged
      | some value =>
        if rest.isEmpty then writeObject (Members.remove fields segment)
        else match unsetPathForWriteAt value rest with
          | .unchanged => .unchanged
          | .pruned => writeObject (Members.remove fields segment)
          | .changed child => writeObject (setField fields segment child)
  | _, _ => .unchanged

/-- The next config, where it is another one. -/
def unsetPathForWrite (root : ConfigValue) (pathSegments : List Text) : Option ConfigValue :=
  match unsetPathForWriteAt root pathSegments with
  | .unchanged => none
  | .pruned => some (.obj [])
  | .changed (.obj fields) => some (.obj fields)
  | .changed _ => none

/-- The loop of `writeConfigFile` over its `unsetPaths`. -/
def unsetPathsForWrite (outputConfig : ConfigValue) (unsetPaths : List (List Text)) : ConfigValue :=
  unsetPaths.foldl (fun config unsetPath => (unsetPathForWrite config unsetPath).getD config)
    outputConfig

-- ---
-- Positions
-- ---

inductive Step
  | key (key : Text)
  | item (index : Nat)
  deriving DecidableEq

/-- Where a member or an item stands in a config. -/
abbrev Position := List Step

/-- The positions below a step, as seen from there. -/
def below (step : Step) (positions : List Position) : List Position :=
  positions.filterMap fun
    | [] => none
    | step' :: position => if step' = step then some position else none

theorem mem_below : position ∈ below step positions ↔ step :: position ∈ positions := by
  simp only [below, List.mem_filterMap]
  constructor
  · rintro ⟨position', hmem, hbelow⟩
    cases position' with
    | nil => cases hbelow
    | cons step' position' =>
      simp only [Option.ite_none_right_eq_some, Option.some.injEq] at hbelow
      obtain ⟨rfl, rfl⟩ := hbelow
      exact hmem
  · intro hmem
    exact ⟨_, hmem, by simp⟩

@[simp] theorem below_cons_self (step : Step) (position : Position) (positions : List Position) :
    below step ((step :: position) :: positions) = position :: below step positions := by
  simp [below]

theorem below_cons_ne {step step' : Step} (h : step' ≠ step) (position : Position)
    (positions : List Position) :
    below step ((step' :: position) :: positions) = below step positions := by
  simp [below, h]

theorem below_key_ne (h : key' ≠ key) (position : Position) (positions : List Position) :
    below (.key key) ((.key key' :: position) :: positions) = below (.key key) positions :=
  below_cons_ne (fun heq => h (Step.key.inj heq)) position positions

theorem below_item_ne (h : index' ≠ index) (position : Position) (positions : List Position) :
    below (.item index) ((.item index' :: position) :: positions) = below (.item index) positions :=
  below_cons_ne (fun heq => h (Step.item.inj heq)) position positions

mutual
/-- A config without the members and items at some positions: an object all of whose
members are gone is gone itself. -/
def erase (removed : List Position) : ConfigValue → Option ConfigValue
  | .obj fields =>
    if [] ∈ removed then none
    else
      let kept := eraseFields removed fields
      if kept.isEmpty && !fields.isEmpty then none else some (.obj kept)
  | .arr items => if [] ∈ removed then none else some (.arr (eraseItems removed 0 items))
  | value => if [] ∈ removed then none else some value
def eraseFields (removed : List Position) : Fields → Fields
  | [] => []
  | (key, value) :: fields =>
    match erase (below (.key key) removed) value with
    | some value => (key, value) :: eraseFields removed fields
    | none => eraseFields removed fields
def eraseItems (removed : List Position) : Nat → List ConfigValue → List ConfigValue
  | _, [] => []
  | index, item :: items =>
    match erase (below (.item index) removed) item with
    | some item => item :: eraseItems removed (index + 1) items
    | none => eraseItems removed (index + 1) items
end

/-- The root stays, without members. -/
def eraseRoot (removed : List Position) (root : ConfigValue) : ConfigValue :=
  (erase removed root).getD (.obj [])

/-- The items that are left, with their positions in the whole list. -/
def presentItems (removed : List Position) : Nat → List ConfigValue → List (Nat × ConfigValue)
  | _, [] => []
  | index, item :: items =>
    if (erase (below (.item index) removed) item).isSome then
      (index, item) :: presentItems removed (index + 1) items
    else presentItems removed (index + 1) items

/-- The position of what a path denotes in the part of a config that is left. -/
def resolve (removed : List Position) : ConfigValue → List Text → Option Position
  | .arr items, segment :: rest =>
    if !isNumericPathSegment segment then none
    else match (presentItems removed 0 items)[Js.ofDigits 10 segment]? with
      | none => none
      | some (index, item) =>
        if rest.isEmpty then some [.item index]
        else (resolve (below (.item index) removed) item rest).map (.item index :: ·)
  | .obj fields, segment :: rest =>
    if isBlockedObjectKey segment then none
    else match fields.lookup segment with
      | none => none
      | some value =>
        if (erase (below (.key segment) removed) value).isNone then none
        else if rest.isEmpty then some [.key segment]
        else (resolve (below (.key segment) removed) value rest).map (.key segment :: ·)
  | _, _ => none

end OpenClaw.Config
