import OpenClaw.Js.Text

/-!
# Values of a config

A config as it is in memory: JSON values, and `undefined` for what is absent.
-/

namespace OpenClaw.Config

open Js (Text Number)

/-- A value of a config. The entries of an object are in insertion order. -/
inductive ConfigValue
  | undefined
  | null
  | bool (b : Bool)
  | num (n : Number)
  | str (s : Text)
  | arr (items : List ConfigValue)
  | obj (fields : List (Text × ConfigValue))

abbrev Fields := List (Text × ConfigValue)

/-- `fields[key]` -/
def getField (fields : Fields) (key : Text) : ConfigValue := (fields.lookup key).getD .undefined

/-- `{ ...fields, key: value }`, for a key that is there. -/
def setField (fields : Fields) (key : Text) (value : ConfigValue) : Fields :=
  fields.map fun field => if field.1 = key then (key, value) else field

def ConfigValue.str? : ConfigValue → Option Text
  | .str s => some s
  | _ => none

/-- `typeof value === "object" && value !== null` -/
def ConfigValue.isObject : ConfigValue → Bool
  | .arr _ | .obj _ => true
  | _ => false

mutual
/-- The own keys of each object are distinct, and none sets its prototype. -/
def ConfigValue.Plain : ConfigValue → Prop
  | .arr items => PlainItems items
  | .obj fields => (fields.map Prod.fst).Nodup ∧ "__proto__".toList ∉ fields.map Prod.fst ∧ PlainFields fields
  | _ => True
def PlainItems : List ConfigValue → Prop
  | [] => True
  | item :: items => item.Plain ∧ PlainItems items
def PlainFields : Fields → Prop
  | [] => True
  | (_, value) :: fields => value.Plain ∧ PlainFields fields
end

mutual
/-- The own keys of each object are distinct, as they are in memory. -/
def ConfigValue.DistinctKeys : ConfigValue → Prop
  | .arr items => DistinctItems items
  | .obj fields => (fields.map Prod.fst).Nodup ∧ DistinctFields fields
  | _ => True
def DistinctItems : List ConfigValue → Prop
  | [] => True
  | item :: items => item.DistinctKeys ∧ DistinctItems items
def DistinctFields : Fields → Prop
  | [] => True
  | (_, value) :: fields => value.DistinctKeys ∧ DistinctFields fields
end

end OpenClaw.Config
