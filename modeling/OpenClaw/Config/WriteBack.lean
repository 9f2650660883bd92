import OpenClaw.Config.EnvSubstitution
import OpenClaw.Config.RedactSnapshot

/-!
# Writing a config back

What a caller changed is merged into the config as it was read. Before the result is
persisted, the references that the file has are put back: first by walking the two side
by side, then by the paths of the references, where nothing on the path was changed.
-/

namespace OpenClaw.Config

open Js (Text)
open Members

-- ---
-- References restored side by side
-- ---

/-- `/\$\{[A-Z_][A-Z0-9_]*\}/.test(value)` -/
def hasEnvVarRef : Text → Bool
  | [] => false
  | c :: text => (parseEnvToken (c :: text)).any (!·.escaped) || hasEnvVarRef text

/-- It scans as `substituteString` does, and gives up where that throws. -/
def tryResolveString (template : Text) (env : Env) : Option Text := substituteChars env 0 template

def restoreString (env : Env) (incoming parsed : Text) : Text :=
  if hasEnvVarRef parsed && tryResolveString parsed env = some incoming then parsed else incoming

mutual
def restoreEnvVarRefs (env : Env) : ConfigValue → ConfigValue → ConfigValue
  | .str incoming, .str parsed => .str (restoreString env incoming parsed)
  | .arr incoming, .arr parsed => .arr (restoreItems env incoming parsed)
  | .obj incoming, .obj parsed => .obj (restoreFields env incoming parsed)
  | incoming, _ => incoming
def restoreItems (env : Env) : List ConfigValue → List ConfigValue → List ConfigValue
  | item :: incoming, other :: parsed => restoreEnvVarRefs env item other :: restoreItems env incoming parsed
  | incoming, _ => incoming
/-- A name that `parsed` only inherits gives a function, with which nothing is restored. -/
def restoreFields (env : Env) : Fields → Fields → Fields
  | [], _ => []
  | (key, value) :: incoming, parsed =>
    let restored :=
      match parsed.lookup key with
      | some other => restoreEnvVarRefs env value other
      | none => value
    setMember key restored (restoreFields env incoming parsed)
end

-- ---
-- Paths
-- ---

def itemPath (path : Text) (index : Nat) : Text := path ++ '[' :: (toString index).toList ++ [']']

mutual
def collectEnvRefPaths : ConfigValue → Text → List (Text × Text) → List (Text × Text)
  | .str value, path, output => if containsEnvVarReference value then assign output path value else output
  | .arr items, path, output => collectItemRefs items path 0 output
  | .obj fields, path, output => collectFieldRefs fields path output
  | _, _, output => output
def collectItemRefs : List ConfigValue → Text → Nat → List (Text × Text) → List (Text × Text)
  | [], _, _, output => output
  | item :: items, path, index, output =>
    collectItemRefs items path (index + 1) (collectEnvRefPaths item (itemPath path index) output)
def collectFieldRefs : Fields → Text → List (Text × Text) → List (Text × Text)
  | [], _, output => output
  | (key, child) :: fields, path, output =>
    collectFieldRefs fields path (collectEnvRefPaths child (joinPath path key) output)
end

mutual
def collectChangedPaths : ConfigValue → ConfigValue → Text → List Text
  | .arr base, .arr target, path => changedItems base target path 0
  | .obj base, .obj target, path =>
    changedFields base target path ++
      -- a name that `base` only inherits gives a function, which no value equals
      (target.filter fun field => field.1 ∉ base.map Prod.fst).map fun field => joinPath path field.1
  | base, target, path => if base.isDeepStrictEqual target then [] else [path]
def changedItems : List ConfigValue → List ConfigValue → Text → Nat → List Text
  | [], target, path, index => target.mapIdx fun offset _ => itemPath path (index + offset)
  | _ :: base, [], path, index => itemPath path index :: changedItems base [] path (index + 1)
  | baseItem :: base, item :: target, path, index =>
    collectChangedPaths baseItem item (itemPath path index) ++ changedItems base target path (index + 1)
def changedFields : Fields → Fields → Text → List Text
  | [], _, _ => []
  | (key, baseValue) :: base, target, path =>
    (match target.lookup key with
      | some value => collectChangedPaths baseValue value (joinPath path key)
      | none => [joinPath path key]) ++ changedFields base target path
end

/-- The text before the last occurrence of a character. -/
def beforeLast (c : Char) (text : Text) : Option Text :=
  if c ∈ text then some ((text.reverse.dropWhile (· ≠ c)).drop 1).reverse else none

def parentPath (path : Text) : Text :=
  if path.getLast? = some ']' then (beforeLast '[' path).getD [] else (beforeLast '.' path).getD []

/-- The loop over the paths above; `fuel` counts them. -/
def isParentChanged (changedPaths : List Text) : Nat → Text → Bool
  | 0, _ => false
  | fuel + 1, path =>
    let current := parentPath path
    if current = [] then false else current ∈ changedPaths || isParentChanged changedPaths fuel current

def isPathChanged (path : Text) (changedPaths : List Text) : Bool :=
  changedPaths.contains path || isParentChanged changedPaths path.length path || changedPaths.contains []

-- ---
-- References restored by their paths
-- ---

section
variable (envRefMap : List (Text × Text)) (changedPaths : List Text)

/-- The reference a string is replaced by. -/
def refAt (path : Text) : Option Text :=
  if isPathChanged path changedPaths then none else envRefMap.lookup path

mutual
/-- The value with its references, and whether it is another one. -/
def restoreEnvRefsFromMap : ConfigValue → Text → ConfigValue × Bool
  | .str value, path =>
    match refAt envRefMap changedPaths path with
    | some original => (.str original, original ≠ value)
    | none => (.str value, false)
  | .arr items, path =>
    let next := restoreItemRefs items path 0
    if next.2 then (.arr next.1, true) else (.arr items, false)
  | .obj fields, path =>
    let next := restoreFieldRefs fields path
    if next.2 then (.obj next.1, true) else (.obj fields, false)
  | value, _ => (value, false)
def restoreItemRefs : List ConfigValue → Text → Nat → List ConfigValue × Bool
  | [], _, _ => ([], false)
  | item :: items, path, index =>
    let updated := restoreEnvRefsFromMap item (itemPath path index)
    let next := restoreItemRefs items path (index + 1)
    (updated.1 :: next.1, updated.2 || next.2)
def restoreFieldRefs : Fields → Text → Fields × Bool
  | [], _ => ([], false)
  | (key, child) :: fields, path =>
    let updated := restoreEnvRefsFromMap child (joinPath path key)
    let next := restoreFieldRefs fields path
    (setMember key updated.1 next.1, updated.2 || next.2)
end

end

-- ---
-- Writing
-- ---

section

-- `processInclude` makes a value of an object with an `$include`; it may throw
variable (processInclude : Fields → Option ConfigValue)

mutual
def processIncludes : ConfigValue → Option ConfigValue
  | .arr items => (processItems items).map .arr
  | .obj fields =>
    if "$include".toList ∈ fields.map Prod.fst then processInclude fields else (processFields fields).map .obj
  | value => some value
def processItems : List ConfigValue → Option (List ConfigValue)
  | [] => some []
  | item :: items => do
    let item ← processIncludes item
    let items ← processItems items
    some (item :: items)
def processFields : Fields → Option Fields
  | [] => some []
  | (key, value) :: fields => do
    let value ← processIncludes value
    let fields ← processFields fields
    some (setMember key value fields)
end

end

end OpenClaw.Config
