import Mathlib.Data.Rat.Defs
import Mathlib.Data.Rat.Floor
import Mathlib.Data.List.DropRight

/-!
# JavaScript values

The built-in values and string operations the modelled functions use: numbers
with their non-finite cases, JSON values, trimming and JSON string quoting.
Strings are sequences of Unicode scalar values; no modelled function depends on
lone surrogates.
-/

namespace OpenClaw.Js

-- ---
-- Numbers
-- ---

/-- A `number`. Finite doubles are rationals; the sign of zero is not kept. -/
inductive Number
  | nan
  | posInf
  | negInf
  | fin (q : Rat)
  deriving DecidableEq

/-- `Number.isInteger(value)`, with the integer. -/
def Number.integer? : Number → Option Int
  | .fin q => if q.den = 1 then some q.num else none
  | _ => none

def Number.ofInt (n : Int) : Number := .fin n

/-- `a < b` -/
def Number.lt : Number → Number → Bool
  | .fin a, .fin b => a < b
  | .fin _, .posInf => true
  | .negInf, .fin _ => true
  | .negInf, .posInf => true
  | _, _ => false

/-- `a <= b` -/
def Number.le : Number → Number → Bool
  | .nan, _ => false
  | _, .nan => false
  | a, b => !Number.lt b a

/-- `Math.floor(value)` -/
def Number.floor : Number → Number
  | .fin q => .ofInt q.floor
  | n => n

/-- `Math.max(a, b)` -/
def Number.max (a b : Number) : Number :=
  if a = .nan ∨ b = .nan then .nan else if a.lt b then b else a

theorem Number.le_of_not_lt (ha : a ≠ .nan) (hb : b ≠ .nan) (h : Number.lt a b = false) :
    Number.le b a = true := by
  cases a <;> cases b <;> simp_all [Number.le, Number.lt]

theorem Number.lt_ofInt_of_le {m n : Int} (hmn : m ≤ n) (h : Number.lt (.ofInt n) x = true) :
    Number.lt (.ofInt m) x = true := by
  cases x with
  | fin q =>
    simp only [Number.lt, Number.ofInt, decide_eq_true_eq] at h ⊢
    exact lt_of_le_of_lt (by exact_mod_cast hmn) h
  | posInf => rfl
  | negInf => cases h
  | nan => cases h

-- ---
-- JSON
-- ---

/-- A JSON value. The entries of an object are in insertion order. -/
inductive Json
  | null
  | bool (b : Bool)
  | num (n : Number)
  | str (s : String)
  | arr (items : List Json)
  | obj (fields : List (String × Json))

/-- The own field `key` of an object; `none` is `undefined`. -/
def Json.get? (key : String) : Json → Option Json
  | .obj fields => fields.lookup key
  | _ => none

/-- `typeof value === "string"`. -/
def Json.str? : Json → Option String
  | .str s => some s
  | _ => none

/-- The code units JavaScript orders strings by. -/
def codeUnits (s : String) : List Nat :=
  s.toList.flatMap fun c =>
    if c.toNat < 0x10000 then [c.toNat]
    else [0xD800 + (c.toNat - 0x10000) / 0x400, 0xDC00 + (c.toNat - 0x10000) % 0x400]

def unitsLe : List Nat → List Nat → Bool
  | [], _ => true
  | _ :: _, [] => false
  | a :: as, b :: bs => a < b || (a = b && unitsLe as bs)

/-- The default order of `toSorted`. -/
def strLe (a b : String) : Bool := unitsLe (codeUnits a) (codeUnits b)

def hexDigit (n : Nat) : Char := if n < 10 then Char.ofNat (48 + n) else Char.ofNat (87 + n)

def quoteChar (c : Char) : List Char :=
  if c = '"' then ['\\', '"']
  else if c = '\\' then ['\\', '\\']
  else if c.toNat = 8 then ['\\', 'b']
  else if c.toNat = 9 then ['\\', 't']
  else if c.toNat = 10 then ['\\', 'n']
  else if c.toNat = 12 then ['\\', 'f']
  else if c.toNat = 13 then ['\\', 'r']
  else if c.toNat < 32 then ['\\', 'u', '0', '0', hexDigit (c.toNat / 16), hexDigit (c.toNat % 16)]
  else [c]

/-- `JSON.stringify` of a string. -/
def quote (s : String) : String := String.ofList ('"' :: s.toList.flatMap quoteChar ++ ['"'])

-- ---
-- White space
-- ---

/-- The characters `\s` matches and `trim` removes. -/
def isSpace (c : Char) : Bool :=
  c.toNat = 9 || c.toNat = 10 || c.toNat = 11 || c.toNat = 12 || c.toNat = 13 || c.toNat = 32 ||
  c.toNat = 0xA0 || c.toNat = 0x1680 || (0x2000 ≤ c.toNat && c.toNat ≤ 0x200A) ||
  c.toNat = 0x2028 || c.toNat = 0x2029 || c.toNat = 0x202F || c.toNat = 0x205F ||
  c.toNat = 0x3000 || c.toNat = 0xFEFF

def trimChars (s : List Char) : List Char := (s.dropWhile isSpace).rdropWhile isSpace

/-- A character of `toLowerCase`, as far as a text of ASCII characters can tell:
apart from the ASCII letters only the Kelvin sign becomes one. -/
def lowerChar (c : Char) : Char := if c.toNat = 0x212A then 'k' else c.toLower

/-- `String.prototype.toLowerCase`. -/
def toLowerCase (s : String) : String := String.ofList (s.toList.map lowerChar)

/-- `String.prototype.trim`. -/
def trim (s : String) : String := String.ofList (trimChars s.toList)

end OpenClaw.Js
