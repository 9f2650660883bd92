import OpenClaw.Js.LowerCase
import OpenClaw.Js.CodeUnits

/-!
# Paths

The path functions of the platform, as the code uses them, and the POSIX ones.
-/

namespace OpenClaw.Js

/-- The `path` module. `resolve` is given the working directory of the process. -/
structure PathModule where
  isAbsolute : Text → Bool
  resolve : Text → Text → Text → Text
  join : Text → Text → Text
  basename : Text → Text
  extname : Text → Text
  delimiter : Char

/-- `text.length`, in code units. -/
def textLength (text : Text) : Nat := (text.map fun c => if c.toNat < 0x10000 then 1 else 2).sum

-- ---
-- Base names
-- ---

/-- `path.posix.basename` -/
def posixBasename (path : Text) : Text := (path.rdropWhile (· = '/')).rtakeWhile (· ≠ '/')

def isWindowsSeparator (c : Char) : Bool := c = '/' || c = '\\'

/-- A path without the letter of its drive. -/
def dropDrive : Text → Text
  | c :: ':' :: rest => if c.isAlpha then rest else c :: ':' :: rest
  | path => path

/-- `path.win32.basename` -/
def windowsBasename (path : Text) : Text :=
  ((dropDrive path).rdropWhile isWindowsSeparator).rtakeWhile fun c => !isWindowsSeparator c

-- ---
-- The POSIX module
-- ---

/-- The segments of a path, the last one first, without its dots. -/
def normalSegments (aboveRoot : Bool) : List Text → List Text → List Text
  | done, [] => done
  | done, segment :: rest =>
    if segment = [] ∨ segment = ".".toList then normalSegments aboveRoot done rest
    else if segment = "..".toList then
      match done with
      | [] => normalSegments aboveRoot (if aboveRoot then [segment] else []) rest
      | last :: before =>
        if last = "..".toList then normalSegments aboveRoot (segment :: last :: before) rest
        else normalSegments aboveRoot before rest
    else normalSegments aboveRoot (segment :: done) rest

def normalizeString (path : Text) (aboveRoot : Bool) : Text :=
  List.intercalate ['/'] (normalSegments aboveRoot [] (path.splitOn '/')).reverse

def posixIsAbsolute (path : Text) : Bool := path.head? = some '/'

/-- `path.posix.resolve(base, path)` -/
def posixResolve (cwd base path : Text) : Text :=
  let resolved :=
    if posixIsAbsolute path then path
    else if posixIsAbsolute base then base ++ '/' :: path
    else cwd ++ '/' :: base ++ '/' :: path
  '/' :: normalizeString resolved false

/-- `path.posix.normalize` -/
def posixNormalize (path : Text) : Text :=
  if path = [] then ".".toList
  else
    let isAbsolute := posixIsAbsolute path
    let normal := normalizeString path (!isAbsolute)
    let trailing := if path.getLast? = some '/' then ['/'] else []
    if isAbsolute then if normal = [] then ['/'] else '/' :: normal ++ trailing
    else if normal = [] then '.' :: trailing else normal ++ trailing

/-- `path.posix.join(left, right)` -/
def posixJoin (left right : Text) : Text :=
  posixNormalize (List.intercalate ['/'] ([left, right].filter (· ≠ [])))

/-- `path.posix.extname` -/
def posixExtname (path : Text) : Text :=
  let base := posixBasename path
  if base = "..".toList then []
  else
    let extension := base.rtakeWhile (· ≠ '.')
    if extension.length + 1 < base.length then '.' :: extension else []

def PathModule.posix : PathModule where
  isAbsolute := posixIsAbsolute
  resolve := posixResolve
  join := posixJoin
  basename := posixBasename
  extname := posixExtname
  delimiter := ':'

end OpenClaw.Js
