import OpenClaw.Config.Value
import OpenClaw.Js.Text

/-!
# What is sensitive in a config

Which config paths hold secrets, which hold URLs that may carry some, and what
of such a URL is scrubbed. Paths are texts such as `channels.*.accounts[].token`.
-/

namespace OpenClaw.Config

open Js (Text lowerChar trimChars)

-- ---
-- Hints
-- ---

structure ConfigUiHint where
  sensitive : Option Bool
  tags : Option (List String)

/-- The entries of the record, by path. -/
abbrev ConfigUiHints := List (Text × ConfigUiHint)

def SENSITIVE_URL_HINT_TAG : String := "url-secret"

def hasSensitiveUrlHintTag (hint : Option ConfigUiHint) : Bool :=
  (hint.bind ConfigUiHint.tags).any (·.contains SENSITIVE_URL_HINT_TAG)

/-- `hints[path]?.sensitive === value` -/
def hasSensitive (hints : ConfigUiHints) (path : Text) (value : Bool) : Bool :=
  (hints.lookup path).bind ConfigUiHint.sensitive = some value

-- ---
-- Paths
-- ---

def SENSITIVE_KEY_WHITELIST_SUFFIXES : List String :=
  ["maxtokens", "maxoutputtokens", "maxinputtokens", "maxcompletiontokens", "contexttokens",
    "totaltokens", "tokencount", "tokenlimit", "tokenbudget", "passwordFile"]

def lowerPath (path : Text) : Text := path.map lowerChar

def isWhitelistedSensitivePath (path : Text) : Bool :=
  SENSITIVE_KEY_WHITELIST_SUFFIXES.any fun suffix => (lowerPath suffix.toList).isSuffixOf (lowerPath path)

/-- What `.` matches: one code unit that ends no line. -/
def matchesDot (c : Char) : Bool :=
  c ≠ '\n' && c ≠ '\r' && c.toNat ≠ 0x2028 && c.toNat ≠ 0x2029 && c.toNat < 0x10000

def containsText (pattern text : Text) : Bool := text.tails.any (pattern.isPrefixOf ·)

/-- `/first.?second/` -/
def containsPair (first second text : Text) : Bool :=
  text.tails.any fun rest =>
    first.isPrefixOf rest &&
      (second.isPrefixOf (rest.drop first.length) ||
        ((rest.drop first.length).head?.any matchesDot &&
          second.isPrefixOf (rest.drop (first.length + 1))))

/-- The patterns ignore the case of ASCII letters. -/
def matchesSensitivePattern (path : Text) : Bool :=
  let path := path.map Char.toLower
  "token".toList.isSuffixOf path || containsText "password".toList path ||
    containsText "secret".toList path || containsPair "api".toList "key".toList path ||
    containsPair "encrypt".toList "key".toList path || containsPair "private".toList "key".toList path ||
    "serviceaccount".toList.isSuffixOf path || "serviceaccountref".toList.isSuffixOf path

def isSensitiveConfigPath (path : Text) : Bool :=
  !isWhitelistedSensitivePath path && matchesSensitivePattern path

def isSensitiveUrlConfigPath (path : Text) : Bool :=
  ".baseUrl".toList.isSuffixOf path || ".httpUrl".toList.isSuffixOf path ||
    ".request.proxy.url".toList.isSuffixOf path ||
    match path.splitOn '.' with
    | [mcp, servers, name, url] =>
      mcp = "mcp".toList && servers = "servers".toList && name ≠ [] && url = "url".toList
    | _ => false

-- ---
-- URLs
-- ---

def SENSITIVE_URL_QUERY_PARAM_NAMES : List String :=
  ["token", "key", "api_key", "apikey", "secret", "access_token", "password", "pass", "auth",
    "client_secret", "refresh_token"]

def isSensitiveUrlQueryParamName (name : Text) : Bool :=
  SENSITIVE_URL_QUERY_PARAM_NAMES.any (·.toList = lowerPath name)

/-- A `URL`, as far as it is looked at. -/
structure ParsedUrl (ρ : Type) where
  username : Text
  password : Text
  searchParams : List (Text × Text)
  rest : ρ

/-- The `URL` class: its constructor, which may throw, and `toString`. -/
structure UrlClass (ρ : Type) where
  parse : Text → Option (ParsedUrl ρ)
  toString : ParsedUrl ρ → Text

def MASK : Text := "***".toList

/-- `searchParams.set(key, value)`: the first of the name is set, the others go. -/
def setSearchParam (key value : Text) : List (Text × Text) → List (Text × Text)
  | [] => [(key, value)]
  | param :: params =>
    if param.1 = key then (key, value) :: params.filter (·.1 ≠ key)
    else param :: setSearchParam key value params

def maskSearchParams (params : List (Text × Text)) : List (Text × Text) :=
  (params.map Prod.fst).foldl (fun params key =>
    if isSensitiveUrlQueryParamName key then setSearchParam key MASK params else params) params

def maskUser (text : Text) : Text := if text = [] then [] else MASK

def redactSensitiveUrl (urls : UrlClass ρ) (value : Text) : Text :=
  match urls.parse value with
  | none => value
  | some parsed =>
    if parsed.username ≠ [] ∨ parsed.password ≠ [] ∨
        parsed.searchParams.any fun param => isSensitiveUrlQueryParamName param.1 then
      urls.toString { parsed with
        username := maskUser parsed.username
        password := maskUser parsed.password
        searchParams := maskSearchParams parsed.searchParams }
    else value

/-- `.replace(/\/\/([^@/?#]+)@/, "//***:***@")` -/
def maskUserInfo : Text → Text
  | [] => []
  | c :: text =>
    let rest := (text.drop 1).dropWhile fun c => c ≠ '@' && c ≠ '/' && c ≠ '?' && c ≠ '#'
    if c = '/' ∧ text.head? = some '/' ∧ rest.head? = some '@' ∧ rest.length < (text.drop 1).length then
      "//***:***".toList ++ rest
    else c :: maskUserInfo text

/-- `.replace(/([?&])([^=&]+)=([^&]*)/g, ...)` -/
def maskQuery (text : Text) : Text :=
  match text with
  | [] => []
  | c :: text =>
    let key := text.takeWhile fun c => c ≠ '=' && c ≠ '&'
    let rest := text.drop key.length
    if (c = '?' ∨ c = '&') ∧ key ≠ [] ∧ rest.head? = some '=' then
      let value := rest.tail.takeWhile (· ≠ '&')
      let matched := if isSensitiveUrlQueryParamName key then MASK else value
      c :: key ++ '=' :: matched ++ maskQuery (rest.tail.drop value.length)
    else c :: maskQuery text
termination_by text.length
decreasing_by
  · simp only [List.length_drop, List.length_tail, List.length_cons]
    omega
  · simp

def redactSensitiveUrlLikeString (urls : UrlClass ρ) (value : Text) : Text :=
  let redactedUrl := redactSensitiveUrl urls value
  if redactedUrl ≠ value then redactedUrl else maskQuery (maskUserInfo value)

end OpenClaw.Config

/-!
# Redaction of configs

Before a config is handed out its secrets are replaced by a sentinel; when it
comes back, each sentinel is replaced by what the config on disk has there. Both
walks go by the paths that hints mark as sensitive, and guess by the names of the
paths that no hint covers.
-/

namespace OpenClaw.Config

open Js (Text Number trimChars)

-- ---
-- Values
-- ---

def REDACTED_SENTINEL : Text := "__OPENCLAW_REDACTED__".toList

def ConfigValue.isSentinel : ConfigValue → Bool
  | .str s => s = REDACTED_SENTINEL
  | _ => false

def redacted : ConfigValue := .str REDACTED_SENTINEL

/-- `/^\$\{[^}]*\}$/.test(value.trim())` -/
def isEnvVarPlaceholder (value : Text) : Bool :=
  match trimChars value with
  | '$' :: '\x7b' :: rest => rest.getLast? = some '\x7d' && !rest.dropLast.contains '\x7d'
  | _ => false

/-- A string that is no placeholder. -/
def ConfigValue.isSecretString : ConfigValue → Bool
  | .str s => !isEnvVarPlaceholder s
  | _ => false

-- ---
-- Paths
-- ---

def joinPath (parent key : Text) : Text := if parent = [] then key else parent ++ '.' :: key

def wildcardOf (parent : Text) : Text := joinPath parent ['*']

def arrayPath (parent : Text) : Text := parent ++ ['[', ']']

def dropBrackets (path : Text) : Option Text :=
  if ['[', ']'].isSuffixOf path then some (path.take (path.length - 2)) else none

def isSensitivePath (path : Text) : Bool := isSensitiveConfigPath ((dropBrackets path).getD path)

def isWholeObjectSensitivePath (path : Text) : Bool :=
  "serviceaccount".toList.isSuffixOf (lowerPath path) ||
    "serviceaccountref".toList.isSuffixOf (lowerPath path)

def hasSensitiveUrlHintPath (hints : Option ConfigUiHints) (paths : List Text) : Bool :=
  hints.any fun hints => paths.any fun path => hasSensitiveUrlHintTag (hints.lookup path)

def isExplicitlyNonSensitivePath (hints : Option ConfigUiHints) (paths : List Text) : Bool :=
  hints.any fun hints => paths.any fun path => hasSensitive hints path false

/-- The paths of one hint with the paths above it. Arrays are looked up with and
without their brackets. -/
def lookupPaths (joinedPath : Text) : List Text → List Text
  | [] => []
  | part :: parts =>
    ((dropBrackets part).map (joinedPath ++ '.' :: ·)).toList ++
      (joinedPath ++ '.' :: part) :: lookupPaths (joinedPath ++ '.' :: part) parts

def hintPaths (path : Text) : List Text :=
  match path.splitOn '.' with
  | [] => []
  | first :: parts => first :: (dropBrackets first).toList ++ lookupPaths first parts

/-- The set of the paths that are or lie above sensitive ones. -/
def buildRedactionLookup (hints : ConfigUiHints) : List Text :=
  let result := (hints.filter fun hint => hint.2.sensitive = some true).flatMap fun hint => hintPaths hint.1
  if result = [] then [] else [] :: result

-- ---
-- Secret references
-- ---

def isSecretRefShape (fields : Fields) : Bool :=
  (getField fields "source".toList).str?.isSome && (getField fields "id".toList).str?.isSome

def isSecretRefWithProvider (fields : Fields) : Bool :=
  isSecretRefShape fields && (getField fields "provider".toList).str?.isSome

def redactSecretRefId (fields : Fields) : Fields :=
  if (getField fields "id".toList).isSecretString then setField fields "id".toList redacted else fields

-- ---
-- Redaction
-- ---

section
variable (urls : UrlClass ρ)

def scrubbed (value : Text) : ConfigValue :=
  if redactSensitiveUrlLikeString urls value ≠ value then redacted else .str value

/-- The paths at which a string may be a URL with secrets. -/
def isUrlPath (hints : Option ConfigUiHints) (path : Text) (paths : List Text) : Bool :=
  hasSensitiveUrlHintPath hints paths || isSensitiveUrlConfigPath path

/-- One entry of an object, `walked` being the value with its own entries redacted. -/
def redactEntryGuessing (hints : Option ConfigUiHints) (parent key : Text)
    (value walked : ConfigValue) : ConfigValue :=
  let dotPath := joinPath parent key
  let wildcardPath := wildcardOf parent
  let marked := isExplicitlyNonSensitivePath hints [dotPath, wildcardPath]
  if !marked && isSensitivePath dotPath && value.isSecretString then redacted
  else
    match value with
    | .obj _ =>
      if !marked && isSensitivePath dotPath && isWholeObjectSensitivePath dotPath then redacted else walked
    | .arr _ => walked
    | .str s => if isUrlPath hints dotPath [dotPath, wildcardPath] then scrubbed urls s else value
    | _ => value

mutual
def redactObjectGuessing (hints : Option ConfigUiHints) (parent : Text) : ConfigValue → ConfigValue
  | .arr items => .arr (redactItemsGuessing hints (arrayPath parent) items)
  | .obj fields => .obj (redactFieldsGuessing hints parent fields)
  | value => value
def redactItemsGuessing (hints : Option ConfigUiHints) (path : Text) : List ConfigValue → List ConfigValue
  | [] => []
  | item :: items =>
    (if !isExplicitlyNonSensitivePath hints [path] && isSensitivePath path && item.isSecretString then
      redacted
    else redactObjectGuessing hints path item) :: redactItemsGuessing hints path items
def redactFieldsGuessing (hints : Option ConfigUiHints) (parent : Text) : Fields → Fields
  | [] => []
  | (key, value) :: fields =>
    (key, redactEntryGuessing urls hints parent key value
      (redactObjectGuessing hints (joinPath parent key) value)) :: redactFieldsGuessing hints parent fields
end

/-- An entry whose path or wildcard path, the `candidate`, is in the lookup. -/
def redactMatched (hints : ConfigUiHints) (candidate path wildcardPath : Text)
    (value walked : ConfigValue) : ConfigValue :=
  if value.isSecretString then redacted
  else
    match value with
    | .obj fields =>
      if hasSensitive hints candidate true then
        if isSecretRefShape fields then .obj (redactSecretRefId fields) else redacted
      else walked
    | .arr _ => walked
    | .undefined | .null => value
    | .str s =>
      if hasSensitive hints candidate true then redacted
      else if isUrlPath (some hints) path [candidate, path, wildcardPath] then scrubbed urls s
      else value
    | .bool _ | .num _ => if hasSensitive hints candidate true then redacted else value

/-- An entry that no hint covers. -/
def redactUnmatched (hints : Option ConfigUiHints) (path wildcardPath : Text)
    (value walked : ConfigValue) : ConfigValue :=
  let marked := isExplicitlyNonSensitivePath hints [path, wildcardPath]
  if value.isSecretString && !marked && isSensitivePath path then redacted
  else
    match value with
    | .obj _ | .arr _ => walked
    | .str s => if isUrlPath hints path [path, wildcardPath] then scrubbed urls s else value
    | _ => value

def findCandidate (lookup : List Text) (path wildcardPath : Text) : Option Text :=
  [path, wildcardPath].find? lookup.contains

mutual
def redactObjectWithLookup (hints : ConfigUiHints) (lookup : List Text) (parent : Text) :
    ConfigValue → ConfigValue
  | .arr items =>
    if lookup.contains (arrayPath parent) then
      .arr (redactItemsWithLookup hints lookup (arrayPath parent) items)
    else redactObjectGuessing urls (some hints) parent (.arr items)
  | .obj fields => .obj (redactFieldsWithLookup hints lookup parent fields)
  | value => value
def redactItemsWithLookup (hints : ConfigUiHints) (lookup : List Text) (path : Text) :
    List ConfigValue → List ConfigValue
  | [] => []
  | item :: items =>
    (if item.isSecretString then redacted else redactObjectWithLookup hints lookup path item) ::
      redactItemsWithLookup hints lookup path items
def redactFieldsWithLookup (hints : ConfigUiHints) (lookup : List Text) (parent : Text) : Fields → Fields
  | [] => []
  | (key, value) :: fields =>
    (key,
      match findCandidate lookup (joinPath parent key) (wildcardOf parent) with
      | some candidate =>
        redactMatched urls hints candidate (joinPath parent key) (wildcardOf parent) value
          (redactObjectWithLookup hints lookup candidate value)
      | none =>
        redactUnmatched urls (some hints) (joinPath parent key) (wildcardOf parent) value
          (redactObjectGuessing urls (some hints) (joinPath parent key) value)) ::
      redactFieldsWithLookup hints lookup parent fields
end

def redactObject (value : ConfigValue) (hints : Option ConfigUiHints) : ConfigValue :=
  match hints with
  | some hints =>
    let lookup := buildRedactionLookup hints
    if lookup.contains [] then redactObjectWithLookup urls hints lookup [] value
    else redactObjectGuessing urls (some hints) [] value
  | none => redactObjectGuessing urls none [] value

def redactConfigObject (value : ConfigValue) (uiHints : Option ConfigUiHints) : ConfigValue :=
  redactObject urls value uiHints

end

-- ---
-- Restoration
-- ---

structure RedactionError where
  key : Text
  humanReadableMessage : Text

def sentinelError (key : Text) : RedactionError where
  key := key
  humanReadableMessage :=
    "Sentinel value \"".toList ++ REDACTED_SENTINEL ++ "\" in key ".toList ++ key ++
      " is not valid as real data".toList

/-- The keys of `Object.prototype` apart. -/
def restoreOriginalValueOrThrow (key path : Text) (original : Fields) : Except RedactionError ConfigValue :=
  match original.lookup key with
  | some value => .ok value
  | none => .error (sentinelError path)

def toObjectRecord : ConfigValue → Fields
  | .obj fields => fields
  | _ => []

def toArray : ConfigValue → List ConfigValue
  | .arr items => items
  | _ => []

/-- A redacted reference: its id is the sentinel. -/
def isRedactedRef (fields : Fields) : Bool :=
  isSecretRefShape fields && (getField fields "id".toList).isSentinel

/-- `none` is `handled: false`. -/
def maybeRestoreSecretRefId (incoming original : ConfigValue) (path : Text) :
    Except RedactionError (Option ConfigValue) :=
  let incomingObj := toObjectRecord incoming
  let originalObj := toObjectRecord original
  let secretRef := "SecretRef at ".toList ++ path
  if !isRedactedRef incomingObj then .ok none
  else if !isSecretRefWithProvider originalObj then
    if isSecretRefShape originalObj then
      .error ⟨path, secretRef ++
        " requires a provider field to restore the redacted id automatically (original ref lacks provider).".toList⟩
    else
      .error ⟨path, secretRef ++
        " contains a redacted id placeholder with no matching original value.".toList⟩
  else if !isSecretRefWithProvider incomingObj then
    .error ⟨path, secretRef ++
      " must include source, provider, and id when redacted placeholders are present.".toList⟩
  else if (getField incomingObj "source".toList).str? ≠ (getField originalObj "source".toList).str? ∨
      (getField incomingObj "provider".toList).str? ≠ (getField originalObj "provider".toList).str? then
    .error ⟨path, secretRef ++
      " changed source/provider while id is redacted. Provide an explicit id when changing source/provider.".toList⟩
  else .ok (some (.obj (setField incomingObj "id".toList (getField originalObj "id".toList))))

/-- The restored reference, or else the value restored by `walk`. -/
def restoreRefOr (incoming original : ConfigValue) (path : Text)
    (walk : Except RedactionError ConfigValue) : Except RedactionError ConfigValue :=
  (maybeRestoreSecretRefId incoming original path).bind fun
    | some value => .ok value
    | none => walk

/-- One entry of an object, `walked` being the value with its own entries restored. -/
def restoreEntryGuessing (hints : Option ConfigUiHints) (parent key : Text) (value : ConfigValue)
    (orig : Fields) (walked : Except RedactionError ConfigValue) : Except RedactionError ConfigValue :=
  let path := joinPath parent key
  let wildcardPath := wildcardOf parent
  let canRestore := !isExplicitlyNonSensitivePath hints [path, wildcardPath] &&
    (isSensitivePath path || isUrlPath hints path [path, wildcardPath])
  if canRestore && value.isSentinel then restoreOriginalValueOrThrow key path orig
  else if value.isObject then
    if canRestore then restoreRefOr value (getField orig key) path walked else walked
  else .ok value

/-- `original` is the item of the original array at the same index. -/
def restoreArrayItemWithGuessing (hints : Option ConfigUiHints) (path : Text) (item original : ConfigValue)
    (walked : Except RedactionError ConfigValue) : Except RedactionError ConfigValue :=
  if !isExplicitlyNonSensitivePath hints [path] && isSensitivePath path && item.isSentinel then .ok original
  else walked

mutual
def restoreRedactedValuesGuessing (hints : Option ConfigUiHints) (parent : Text) :
    ConfigValue → ConfigValue → Except RedactionError ConfigValue
  | .arr incoming, original =>
    (restoreItemsGuessing hints (arrayPath parent) incoming (toArray original)).map .arr
  | .obj incoming, original =>
    (restoreFieldsGuessing hints parent incoming (toObjectRecord original)).map .obj
  | incoming, _ => .ok incoming
/-- The items and what is left of the original array at their index. -/
def restoreItemsGuessing (hints : Option ConfigUiHints) (path : Text) :
    List ConfigValue → List ConfigValue → Except RedactionError (List ConfigValue)
  | [], _ => .ok []
  | item :: items, originalArray => do
    let original := originalArray.head?.getD .undefined
    let restored ← restoreArrayItemWithGuessing hints path item original
      (restoreRedactedValuesGuessing hints path item original)
    let rest ← restoreItemsGuessing hints path items originalArray.tail
    return restored :: rest
def restoreFieldsGuessing (hints : Option ConfigUiHints) (parent : Text) :
    Fields → Fields → Except RedactionError Fields
  | [], _ => .ok []
  | (key, value) :: fields, orig => do
    let restored ← restoreEntryGuessing hints parent key value orig
      (restoreRedactedValuesGuessing hints (joinPath parent key) value (getField orig key))
    let rest ← restoreFieldsGuessing hints parent fields orig
    return (key, restored) :: rest
end

def restoreMatched (hints : ConfigUiHints) (candidate path wildcardPath key : Text) (value : ConfigValue)
    (orig : Fields) (walked : Except RedactionError ConfigValue) : Except RedactionError ConfigValue :=
  if value.isSentinel && (hasSensitive hints candidate true ||
      isUrlPath (some hints) path [candidate, path, wildcardPath]) then
    restoreOriginalValueOrThrow key candidate orig
  else if value.isObject then restoreRefOr value (getField orig key) path walked
  else .ok value

def restoreArrayItemWithLookup (item original : ConfigValue) (walked : Except RedactionError ConfigValue) :
    Except RedactionError ConfigValue :=
  if item.isSentinel then .ok original else walked

mutual
def restoreRedactedValuesWithLookup (hints : ConfigUiHints) (lookup : List Text) (parent : Text) :
    ConfigValue → ConfigValue → Except RedactionError ConfigValue
  | .arr incoming, original =>
    if lookup.contains (arrayPath parent) then
      (restoreItemsWithLookup hints lookup (arrayPath parent) incoming (toArray original)).map .arr
    else restoreRedactedValuesGuessing (some hints) parent (.arr incoming) original
  | .obj incoming, original =>
    (restoreFieldsWithLookup hints lookup parent incoming (toObjectRecord original)).map .obj
  | incoming, _ => .ok incoming
def restoreItemsWithLookup (hints : ConfigUiHints) (lookup : List Text) (path : Text) :
    List ConfigValue → List ConfigValue → Except RedactionError (List ConfigValue)
  | [], _ => .ok []
  | item :: items, originalArray => do
    let original := originalArray.head?.getD .undefined
    let restored ← restoreArrayItemWithLookup item original
      (restoreRedactedValuesWithLookup hints lookup path item original)
    let rest ← restoreItemsWithLookup hints lookup path items originalArray.tail
    return restored :: rest
def restoreFieldsWithLookup (hints : ConfigUiHints) (lookup : List Text) (parent : Text) :
    Fields → Fields → Except RedactionError Fields
  | [], _ => .ok []
  | (key, value) :: fields, orig => do
    let path := joinPath parent key
    let restored ←
      match findCandidate lookup path (wildcardOf parent) with
      | some candidate =>
        restoreMatched hints candidate path (wildcardOf parent) key value orig
          (restoreRedactedValuesWithLookup hints lookup candidate value (getField orig key))
      | none =>
        restoreEntryGuessing (some hints) parent key value orig
          (restoreRedactedValuesGuessing (some hints) path value (getField orig key))
    let rest ← restoreFieldsWithLookup hints lookup parent fields orig
    return (key, restored) :: rest
end

-- ---
-- The restored config
-- ---

def reservedError (pathLabel : Text) : RedactionError where
  key := pathLabel
  humanReadableMessage :=
    "Reserved redaction sentinel \"".toList ++ REDACTED_SENTINEL ++ "\" is not valid config data (".toList ++
      pathLabel ++ ").".toList

def indexPath (path : Text) (index : Nat) : Text := path ++ '[' :: (toString index).toList ++ [']']

mutual
def assertNoRedactedSentinel (path : Text) : ConfigValue → Except RedactionError Unit
  | .str s =>
    if s = REDACTED_SENTINEL then .error (reservedError (if path = [] then "<root>".toList else path))
    else .ok ()
  | .arr items => assertItems path 0 items
  | .obj fields => assertFields path fields
  | _ => .ok ()
def assertItems (path : Text) (index : Nat) : List ConfigValue → Except RedactionError Unit
  | [] => .ok ()
  | item :: items => do
    assertNoRedactedSentinel (indexPath path index) item
    assertItems path (index + 1) items
def assertFields (path : Text) : Fields → Except RedactionError Unit
  | [] => .ok ()
  | (key, item) :: fields => do
    assertNoRedactedSentinel (joinPath path key) item
    assertFields path fields
end

inductive RedactionResult
  | ok (result : ConfigValue)
  | inputError (error : String)
  | failed (humanReadableMessage : Text)

/-- The walk over the incoming value. -/
def restoreWalk (incoming original : ConfigValue) (hints : Option ConfigUiHints) :
    Except RedactionError ConfigValue :=
  match hints with
  | some hints =>
    let lookup := buildRedactionLookup hints
    if lookup.contains [] then restoreRedactedValuesWithLookup hints lookup [] incoming original
    else restoreRedactedValuesGuessing (some hints) [] incoming original
  | none => restoreRedactedValuesGuessing none [] incoming original

def restoreChecked (incoming original : ConfigValue) (hints : Option ConfigUiHints) :
    Except RedactionError ConfigValue := do
  let restored ← restoreWalk incoming original hints
  assertNoRedactedSentinel [] restored
  return restored

def restoreRedactedValues (incoming original : ConfigValue) (hints : Option ConfigUiHints) :
    RedactionResult :=
  match incoming with
  | .null | .undefined => .inputError "no input"
  | .arr _ | .obj _ =>
    match restoreChecked incoming original hints with
    | .ok result => .ok result
    | .error err => .failed err.humanReadableMessage
  | _ => .inputError "input not an object"

end OpenClaw.Config
