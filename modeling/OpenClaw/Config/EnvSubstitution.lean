import OpenClaw.Config.MergePatch

/-!
# References to environment variables

A string of a config may refer to environment variables, as in `${NAME}`. References are
replaced by the values of the variables when the config is read.
-/

namespace OpenClaw.Config

open Js (Text)

/-- The variables that are set. -/
abbrev Env := Text → Option Text

-- ---
-- Tokens
-- ---

def isNameStart (c : Char) : Bool := c.isUpper || c = '_'

/-- `/^[A-Z_][A-Z0-9_]*$/` -/
def isEnvVarName : Text → Bool
  | [] => false
  | c :: name => isNameStart c && name.all fun d => isNameStart d || d.isDigit

/-- A token at the head of a text; `length` is that of what it takes up. -/
structure EnvToken where
  escaped : Bool
  name : Text
  length : Nat

/-- The name up to the next closing brace. -/
def nameAt (text : Text) : Option Text :=
  let name := text.takeWhile (· ≠ '\x7d')
  if '\x7d' ∈ text && isEnvVarName name then some name else none

def parseEnvToken : Text → Option EnvToken
  | '$' :: '$' :: '\x7b' :: text => (nameAt text).map fun name => ⟨true, name, name.length + 4⟩
  | '$' :: '\x7b' :: text => (nameAt text).map fun name => ⟨false, name, name.length + 3⟩
  | _ => none

def reference (name : Text) : Text := '$' :: '\x7b' :: name ++ ['\x7d']

-- ---
-- Substitution
-- ---

/-- The loop over the characters, of which the first `skipped` belong to a token. `none` where a
variable is missing. -/
def substituteChars (env : Env) : Nat → Text → Option Text
  | _, [] => some []
  | skipped + 1, _ :: text => substituteChars env skipped text
  | 0, c :: text =>
    match parseEnvToken (c :: text) with
    | none => (substituteChars env 0 text).map (c :: ·)
    | some token =>
      let chunk := if token.escaped then some (reference token.name) else (env token.name).filter (· ≠ [])
      chunk.bind fun chunk => (substituteChars env (token.length - 1) text).map (chunk ++ ·)

def substituteString (env : Env) (value : Text) : Option Text :=
  if '$' ∈ value then substituteChars env 0 value else some value

def containsReferenceFrom : Nat → Text → Bool
  | _, [] => false
  | skipped + 1, _ :: text => containsReferenceFrom skipped text
  | 0, c :: text =>
    match parseEnvToken (c :: text) with
    | none => containsReferenceFrom 0 text
    | some token => !token.escaped || containsReferenceFrom (token.length - 1) text

def containsEnvVarReference (value : Text) : Bool := '$' ∈ value && containsReferenceFrom 0 value

/-- `result[key] = value`, the first of the assignments that give the others; `__proto__` sets no member. -/
def setMember (key : Text) (value : ConfigValue) (result : Fields) : Fields :=
  if key = "__proto__".toList then result else (key, value) :: result

mutual
/-- `none` where a variable is missing. -/
def substituteAny (env : Env) : ConfigValue → Option ConfigValue
  | .str s => (substituteString env s).map .str
  | .arr items => (substituteItems env items).map .arr
  | .obj fields => (substituteFields env fields).map .obj
  | value => some value
def substituteItems (env : Env) : List ConfigValue → Option (List ConfigValue)
  | [] => some []
  | item :: items => do
    let item ← substituteAny env item
    let items ← substituteItems env items
    some (item :: items)
def substituteFields (env : Env) : Fields → Option Fields
  | [] => some []
  | (key, value) :: fields => do
    let value ← substituteAny env value
    let fields ← substituteFields env fields
    some (setMember key value fields)
end

def resolveConfigEnvVars (env : Env) (config : ConfigValue) : Option ConfigValue := substituteAny env config

-- ---
-- Texts without references
-- ---

def WithoutReference (text : Text) : Prop := ¬ ['$', '\x7b'] <:+: text

theorem WithoutReference.tail (h : WithoutReference (c :: text)) : WithoutReference text :=
  fun hinfix => h (List.infix_cons hinfix)

theorem parseEnvToken_eq_none (h : WithoutReference text) : parseEnvToken text = none := by
  unfold parseEnvToken
  split
  · rename_i rest
    exact absurd ⟨['$'], rest, rfl⟩ h
  · rename_i rest
    exact absurd ⟨[], rest, rfl⟩ h
  · rfl

theorem substituteChars_eq_self (env : Env) (h : WithoutReference text) : substituteChars env 0 text = some text := by
  induction text with
  | nil => rfl
  | cons c text ih =>
    rw [substituteChars, parseEnvToken_eq_none h]
    dsimp only
    rw [ih h.tail]
    rfl

theorem substituteString_eq_self (env : Env) (h : WithoutReference text) : substituteString env text = some text := by
  unfold substituteString
  split
  · exact substituteChars_eq_self env h
  · rfl

theorem substituteChars_without (env : Env) (h : '$' ∉ text) : substituteChars env 0 text = some text := by
  refine substituteChars_eq_self env ?_
  rintro ⟨before, after, rfl⟩
  simp at h

/-- The test for a dollar sign only saves work. -/
theorem substituteString_eq_chars (env : Env) (text : Text) : substituteString env text = substituteChars env 0 text := by
  unfold substituteString
  split
  case isTrue => rfl
  case isFalse h => exact (substituteChars_without env h).symm

end OpenClaw.Config
