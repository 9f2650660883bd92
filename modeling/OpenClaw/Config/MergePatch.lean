import OpenClaw.Config.Value
import OpenClaw.Lib.Members

/-!
# Merge patches

What a caller changed in a config is found as the merge patch between the config it
was given and the one it hands back. That patch is then applied to what is on disk.
-/

namespace OpenClaw.Config

open Js (Text)
open Members

-- ---
-- Objects
-- ---

def ConfigValue.isPlainObject : ConfigValue → Bool
  | .obj _ => true
  | _ => false

/-- `isPlainObject(value) && Object.keys(value).length === 0` -/
def ConfigValue.isEmptyObject : ConfigValue → Bool
  | .obj [] => true
  | _ => false

/-- The own member of an object under a key. -/
def ConfigValue.member : ConfigValue → Text → Option ConfigValue
  | .obj fields, key => fields.lookup key
  | _, _ => none

/-- The names `in` finds on every object. -/
def OBJECT_PROTOTYPE_NAMES : List Text :=
  ["constructor", "__defineGetter__", "__defineSetter__", "hasOwnProperty", "__lookupGetter__",
    "__lookupSetter__", "isPrototypeOf", "propertyIsEnumerable", "toString", "valueOf", "__proto__",
    "toLocaleString"].map String.toList

def isInheritedKey (key : Text) : Bool := key ∈ OBJECT_PROTOTYPE_NAMES

def BLOCKED_OBJECT_KEYS : List Text := ["__proto__", "prototype", "constructor"].map String.toList

def isBlockedObjectKey (key : Text) : Bool := key ∈ BLOCKED_OBJECT_KEYS

mutual
/-- Objects are compared apart from the order of their members. -/
def ConfigValue.isDeepStrictEqual : ConfigValue → ConfigValue → Bool
  | .undefined, .undefined => true
  | .null, .null => true
  | .bool a, .bool b => a = b
  | .num a, .num b => a = b
  | .str a, .str b => a = b
  | .arr left, .arr right => itemsEqual left right
  | .obj left, .obj right => left.length = right.length && fieldsEqual left right
  | _, _ => false
def itemsEqual : List ConfigValue → List ConfigValue → Bool
  | [], [] => true
  | a :: left, b :: right => a.isDeepStrictEqual b && itemsEqual left right
  | _, _ => false
def fieldsEqual : Fields → Fields → Bool
  | [], _ => true
  | (key, value) :: left, right =>
    (match right.lookup key with
      | some other => value.isDeepStrictEqual other
      | none => false) && fieldsEqual left right
end

-- ---
-- Creating
-- ---

mutual
/-- `none` where it throws: a function that an object inherits cannot be cloned. -/
def createMergePatch : ConfigValue → ConfigValue → Option ConfigValue
  | .obj base, .obj target => do
    let patch ← patchMembers base target
    -- a key that only `base` inherits is cloned from `target` as well: no value equals the function
    some (.obj (patch ++ target.filter fun field => field.1 ∉ base.map Prod.fst))
  | _, target => some target
/-- The pass of the loop over the keys of `base`. -/
def patchMembers : Fields → Fields → Option Fields
  | [], _ => some []
  | (key, baseValue) :: base, target => do
    let patch ← patchMembers base target
    match target.lookup key with
    | none => if isInheritedKey key then none else some ((key, .null) :: patch)
    | some targetValue =>
      if baseValue.isPlainObject && targetValue.isPlainObject then do
        let childPatch ← createMergePatch baseValue targetValue
        some (if childPatch.isEmptyObject then patch else (key, childPatch) :: patch)
      else some (if baseValue.isDeepStrictEqual targetValue then patch else (key, targetValue) :: patch)
end

-- ---
-- Applying
-- ---

/-- `isPlainObject(value) ? value : {}` -/
def objectOrEmpty : Option ConfigValue → Fields
  | some (.obj fields) => fields
  | _ => []

mutual
/-- `applyMergePatch` without options. -/
def applyMergePatch : ConfigValue → ConfigValue → ConfigValue
  | base, .obj patch => .obj (applyMembers (objectOrEmpty (some base)) patch)
  | _, patch => patch
def applyMembers : Fields → Fields → Fields
  | result, [] => result
  | result, (key, value) :: patch =>
    applyMembers (if isBlockedObjectKey key then result else applyMember result key value) patch
def applyMember : Fields → Text → ConfigValue → Fields
  | result, key, .null => remove result key
  | result, key, .obj patch => assign result key (.obj (applyMembers (objectOrEmpty (result.lookup key)) patch))
  | result, key, value => assign result key value
end

def valueAt : Option ConfigValue → List Text → Option ConfigValue
  | value, [] => value
  | value, key :: path => valueAt (value.bind (·.member key)) path

/-- The value at a path where that is no object. -/
def leafAt (value : Option ConfigValue) (path : List Text) : Option ConfigValue :=
  (valueAt value path).filter (!·.isPlainObject)

/-- Both absent, or equal. -/
def Agree : Option ConfigValue → Option ConfigValue → Prop :=
  Option.Rel fun a b => a.isDeepStrictEqual b = true

mutual
/-- No object has a null member or a blocked key. -/
def ConfigValue.Mergeable : ConfigValue → Prop
  | .obj fields => MergeableFields fields
  | _ => True
def MergeableFields : Fields → Prop
  | [] => True
  | (key, value) :: fields =>
    isBlockedObjectKey key = false ∧ value ≠ .null ∧ value.Mergeable ∧ MergeableFields fields
end

/-- What `base` has under an inherited name `target` has too, in each object the
two share. -/
def KeepsInherited (base target : ConfigValue) : Prop :=
  ∀ path key, isInheritedKey key = true →
    (valueAt (some base) (path ++ [key])).isSome → ((valueAt (some target) path).any (·.isPlainObject)) →
      (valueAt (some target) (path ++ [key])).isSome

/-- `target` settles a path: at the path, or at a place above it where `target` has
no object, the two configs differ. -/
def Overridden (base target : Option ConfigValue) (path : List Text) : Prop :=
  ∃ above, above <+: path ∧ ¬ Agree (valueAt base above) (valueAt target above) ∧
    (above = path ∨ ¬ (valueAt target above).any (·.isPlainObject))

end OpenClaw.Config
