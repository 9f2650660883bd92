import OpenClaw.Config.MergePatch

/-!
# Includes

A config may include other files, alone or several to be merged, beside members of its own.
The files are read while the config is processed; each knows the chain of files it was
included through.
-/

namespace OpenClaw.Config

open Js (Text)
open Members

namespace Includes

def INCLUDE_KEY : Text := "$include".toList
def MAX_INCLUDE_DEPTH : Nat := 10

-- ---
-- Merging
-- ---

mutual
/-- Arrays are joined, objects merged member by member; else the source wins. -/
def deepMerge : ConfigValue → ConfigValue → ConfigValue
  | target, .arr source =>
    match target with
    | .arr target => .arr (target ++ source)
    | _ => .arr source
  | target, .obj source =>
    match target with
    | .obj target => .obj (mergeFields target source)
    | _ => .obj source
  | _, source => source
def mergeFields : Fields → Fields → Fields
  | result, [] => result
  | result, (key, value) :: rest =>
    if isBlockedObjectKey key then mergeFields result rest
    else
      let merged := match result.lookup key with
        | some target => deepMerge target value
        | none => value
      mergeFields (assign result key merged) rest
end

-- ---
-- Errors
-- ---

mutual
/-- `String(value)` gives a text: an object with a `toString` of its own, which is no function
in a config, has none. -/
def hasText : ConfigValue → Bool
  | .arr items => itemsHaveText items
  | .obj fields => (fields.lookup "toString".toList).isNone
  | _ => true
def itemsHaveText : List ConfigValue → Bool
  | [] => true
  | item :: rest => hasText item && itemsHaveText rest
end

/-- A `ConfigIncludeError`, by what it tells. -/
inductive IncludeError
  | escapes (includePath rootDir : Text)
  | resolvesOutside (includePath rootDir : Text)
  | circular (chain : List Text)
  | tooDeep (includePath : Text)
  /-- What the guards of a reader tell. -/
  | guarded (message : Text)
  | unreadable (includePath resolvedPath : Text)
  | unparsable (includePath resolvedPath : Text)
  | invalidItem (item : ConfigValue)
  | invalidValue (value : ConfigValue)
  | siblings (includeValue : ConfigValue)

/-- What is thrown. -/
inductive Thrown
  | includeError (error : IncludeError)
  /-- The `TypeError` of a value without text. -/
  | typeError

-- ---
-- Files
-- ---

/-- The functions of `path` and `fs` on paths. -/
structure PathFunctions where
  normalize : Text → Text
  dirname : Text → Text
  isAbsolute : Text → Bool
  resolve : Text → Text → Text
  isPathInside : Text → Text → Bool
  /-- `fs.realpathSync`, where it does not throw. -/
  realpath : Text → Option Text

/-- How a reading fails. -/
inductive ReadFailure
  | includeError (message : Text)
  | other

structure IncludeFileReadParams where
  includePath : Text
  resolvedPath : Text
  rootRealDir : Text

structure IncludeResolver where
  readFile : IncludeFileReadParams → Except ReadFailure Text
  parseJson : Text → Option ConfigValue

/-- A file that was read, and how deep it is nested. -/
structure FileRead where
  path : Text
  depth : Nat

structure IncludeProcessor where
  basePath : Text
  visited : List Text
  depth : Nat
  rootDir : Text

section
variable (paths : PathFunctions) (resolver : IncludeResolver)

def IncludeProcessor.ofConfig (configPath : Text) : IncludeProcessor where
  basePath := configPath
  visited := [paths.normalize configPath]
  depth := 0
  rootDir := paths.normalize (paths.dirname configPath)

/-- The processor of `processNested`. -/
def IncludeProcessor.nested (processor : IncludeProcessor) (resolvedPath : Text) :
    IncludeProcessor where
  basePath := resolvedPath
  visited := processor.visited ++ [resolvedPath]
  depth := processor.depth + 1
  rootDir := paths.normalize processor.rootDir

def safeRealpath (target : Text) : Text := (paths.realpath target).getD target

def IncludeProcessor.rootRealDir (processor : IncludeProcessor) : Text :=
  paths.normalize (safeRealpath paths processor.rootDir)

def IncludeProcessor.resolvePath (processor : IncludeProcessor) (includePath : Text) :
    Except IncludeError Text :=
  let configDir := paths.dirname processor.basePath
  let resolved :=
    if paths.isAbsolute includePath then includePath else paths.resolve configDir includePath
  let normalized := paths.normalize resolved
  if !paths.isPathInside processor.rootDir normalized then
    .error (.escapes includePath processor.rootDir)
  else if (paths.realpath normalized).any fun real =>
      !paths.isPathInside (processor.rootRealDir paths) real then
    .error (.resolvesOutside includePath processor.rootDir)
  else .ok normalized

def IncludeProcessor.readFile (processor : IncludeProcessor) (includePath resolvedPath : Text) :
    Except IncludeError Text :=
  match resolver.readFile ⟨includePath, resolvedPath, processor.rootRealDir paths⟩ with
  | .ok raw => .ok raw
  | .error (.includeError message) => .error (.guarded message)
  | .error .other => .error (.unreadable includePath resolvedPath)

def parseFile (includePath resolvedPath raw : Text) : Except IncludeError ConfigValue :=
  match resolver.parseJson raw with
  | some parsed => .ok parsed
  | none => .error (.unparsable includePath resolvedPath)

-- ---
-- Processing
-- ---

/-- The files that were read, and the result. -/
structure Processed (α : Type) where
  reads : List FileRead
  result : Except Thrown α

namespace Processed

variable {α β : Type}

def pure (a : α) : Processed α := ⟨[], .ok a⟩

def throw (error : Thrown) : Processed α := ⟨[], .error error⟩

def bind (x : Processed α) (f : α → Processed β) : Processed β :=
  match x.result with
  | .error error => ⟨x.reads, .error error⟩
  | .ok a => ⟨x.reads ++ (f a).reads, (f a).result⟩

def map (f : α → β) (x : Processed α) : Processed β := x.bind fun a => pure (f a)

end Processed

/-- Throws a `ConfigIncludeError` that shows the value. -/
def throwShowing (value : ConfigValue) (error : IncludeError) : Thrown :=
  if hasText value then .includeError error else .typeError

/-- `loadFile`; `process` processes what a file at the next depth has. -/
def loadFile (process : IncludeProcessor → ConfigValue → Processed ConfigValue)
    (processor : IncludeProcessor) (includePath : Text) : Processed ConfigValue :=
  match processor.resolvePath paths includePath with
  | .error error => .throw (.includeError error)
  | .ok resolvedPath =>
    if resolvedPath ∈ processor.visited then
      .throw (.includeError (.circular (processor.visited ++ [resolvedPath])))
    else if MAX_INCLUDE_DEPTH ≤ processor.depth then
      .throw (.includeError (.tooDeep includePath))
    else
      let opened : FileRead := ⟨resolvedPath, processor.depth + 1⟩
      match processor.readFile paths resolver includePath resolvedPath with
      | .error error => ⟨[opened], .error (.includeError error)⟩
      | .ok raw =>
        match parseFile resolver includePath resolvedPath raw with
        | .error error => ⟨[opened], .error (.includeError error)⟩
        | .ok parsed =>
          let nested := process (processor.nested paths resolvedPath) parsed
          ⟨opened :: nested.reads, nested.result⟩

/-- A turn of the reduction over the items of a directive. -/
def mergeItem (load : Text → Processed ConfigValue) (merged : Processed ConfigValue)
    (item : ConfigValue) : Processed ConfigValue :=
  merged.bind fun merged =>
    match item with
    | .str includePath => (load includePath).map (deepMerge merged)
    | item => .throw (throwShowing item (.invalidItem item))

/-- `resolveInclude`, with `load` to load a file. -/
def resolveInclude (load : Text → Processed ConfigValue) : ConfigValue → Processed ConfigValue
  | .str includePath => load includePath
  | .arr items => items.foldl (mergeItem load) (.pure (.obj []))
  | value => .throw (throwShowing value (.invalidValue value))

/-- The members of an object but the directive. -/
def otherFields (fields : Fields) : Fields := fields.filter (·.1 ≠ INCLUDE_KEY)

/-- `result[key] = value` for a key that is new to the object. -/
def addField (result : Fields) (key : Text) (value : ConfigValue) : Fields :=
  if key = "__proto__".toList then result else (key, value) :: result

mutual
/-- `process`, with `load` to load a file. -/
def processWith (load : Text → Processed ConfigValue) : ConfigValue → Processed ConfigValue
  | .arr items => (processItems load items).map .arr
  | .obj fields =>
    match fields.lookup INCLUDE_KEY with
    | none => (processFields load fields).map .obj
    | some includeValue =>
      (resolveInclude load includeValue).bind fun included =>
        if otherFields fields = [] then .pure included
        else if !included.isPlainObject then
          .throw (.includeError (.siblings includeValue))
        else (processFields load fields).map fun rest => deepMerge included (.obj rest)
  | value => .pure value
def processItems (load : Text → Processed ConfigValue) :
    List ConfigValue → Processed (List ConfigValue)
  | [] => .pure []
  | item :: rest =>
    (processWith load item).bind fun item => (processItems load rest).map (item :: ·)
/-- The members but a directive. -/
def processFields (load : Text → Processed ConfigValue) : Fields → Processed Fields
  | [] => .pure []
  | (key, value) :: rest =>
    if key = INCLUDE_KEY then processFields load rest
    else (processWith load value).bind fun value =>
      (processFields load rest).map fun rest => addField rest key value
end

/-- With the number of files that may still be nested. -/
def processAt : Nat → IncludeProcessor → ConfigValue → Processed ConfigValue
  | 0, processor => processWith (loadFile paths resolver (fun _ value => .pure value) processor)
  | left + 1, processor => processWith (loadFile paths resolver (processAt left) processor)

def resolveConfigIncludes (config : ConfigValue) (configPath : Text) : Processed ConfigValue :=
  processAt paths resolver MAX_INCLUDE_DEPTH (.ofConfig paths configPath) config

end

end Includes

end OpenClaw.Config
