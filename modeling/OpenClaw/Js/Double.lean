import Mathlib.Data.Rat.Floor
import Mathlib.Tactic.FieldSimp
import Mathlib.Tactic.Linarith
import Mathlib.Tactic.NormNum
import Mathlib.Tactic.Positivity
import Mathlib.Tactic.Ring
import OpenClaw.Js.Value

/-!
# `Number(text)`

The numeric value of a string: white space trimmed, the empty string zero, the
decimal, hexadecimal, octal and binary literals, and `NaN` for the rest.
-/

namespace OpenClaw.Js

def Number.neg : Number → Number
  | .nan => .nan
  | .posInf => .negInf
  | .negInf => .posInf
  | .fin q => .fin (-q)

/-- `a + b` -/
def Number.add : Number → Number → Number
  | .fin a, .fin b => .fin (a + b)
  | .nan, _ | _, .nan => .nan
  | .posInf, .negInf | .negInf, .posInf => .nan
  | .posInf, _ | _, .posInf => .posInf
  | .negInf, _ | _, .negInf => .negInf

/-- `Number.isFinite(value)`, with the value. -/
def Number.finite? : Number → Option Rat
  | .fin q => some q
  | _ => none

/-- The rational, or infinity beyond the largest double. -/
def Number.ofRat (q : Rat) : Number :=
  if ((2 ^ 1024 - 2 ^ 970 : Nat) : Rat) ≤ q then .posInf else .fin q

def digitValue (c : Char) : Nat :=
  if c.isDigit then c.toNat - 48 else if c.isLower then c.toNat - 87 else c.toNat - 55

def ofDigits (base : Nat) (digits : List Char) : Nat :=
  digits.foldl (fun n c => n * base + digitValue c) 0

/-- The exponent part of a decimal literal, which may be missing. -/
def exponent? : List Char → Option Int
  | [] => some 0
  | c :: rest =>
    let (sign, digits) := match rest with
      | '+' :: digits => ((1 : Int), digits)
      | '-' :: digits => (-1, digits)
      | digits => (1, digits)
    if (c = 'e' || c = 'E') && !digits.isEmpty && digits.all Char.isDigit then
      some (sign * ofDigits 10 digits)
    else none

/-- `q * 10 ^ e` -/
def scale10 (q : Rat) (e : Int) : Rat :=
  if 0 ≤ e then q * (10 ^ e.toNat : Nat) else q / (10 ^ (-e).toNat : Nat)

def unsignedDecimal? (text : List Char) : Option Number :=
  if text = "Infinity".toList then some .posInf
  else
    let whole := text.takeWhile Char.isDigit
    let (fraction, rest) := match text.dropWhile Char.isDigit with
      | '.' :: rest => (rest.takeWhile Char.isDigit, rest.dropWhile Char.isDigit)
      | rest => ([], rest)
    if whole.isEmpty && fraction.isEmpty then none
    else (exponent? rest).map fun e =>
      .ofRat (scale10 (ofDigits 10 (whole ++ fraction)) (e - fraction.length))

/-- The digits after `0x`, `0o` or `0b`. -/
def prefixed? (base : Nat) (isDigit : Char → Bool) (digits : List Char) : Option Number :=
  if !digits.isEmpty && digits.all isDigit then some (.ofRat (ofDigits base digits)) else none

def isHexDigit (c : Char) : Bool :=
  c.isDigit || ('a' ≤ c && c ≤ 'f') || ('A' ≤ c && c ≤ 'F')

def numeric? : List Char → Option Number
  | [] => some (.ofInt 0)
  | '0' :: 'x' :: digits | '0' :: 'X' :: digits => prefixed? 16 isHexDigit digits
  | '0' :: 'o' :: digits | '0' :: 'O' :: digits =>
    prefixed? 8 (fun c => '0' ≤ c && c ≤ '7') digits
  | '0' :: 'b' :: digits | '0' :: 'B' :: digits =>
    prefixed? 2 (fun c => c = '0' || c = '1') digits
  | '+' :: text => unsignedDecimal? text
  | '-' :: text => (unsignedDecimal? text).map .neg
  | text => unsignedDecimal? text

/-- `Number(text)` -/
def toNumber (text : String) : Number :=
  (numeric? (trimChars text.toList)).getD .nan

example : toNumber " 1.5e3 " = .ofInt 1500 := by decide +kernel

end OpenClaw.Js

/-!
# Rounding to doubles

The result of an arithmetic operation on `number`s: the exact rational rounded to
the nearest double, a tie to the even significand. Magnitudes stay far below the
largest double, so nothing becomes infinite.
-/

namespace OpenClaw.Js

/-- The nearest integer, the even one of two. -/
def roundHalfEven (q : Rat) : Int :=
  let n := q.floor
  if q - n < 1 / 2 then n
  else if 1 / 2 < q - n then n + 1
  else if n % 2 = 0 then n
  else n + 1

/-- The power of two at or below a positive number. -/
def exponent (q : Rat) : Int :=
  let e := (q.num.natAbs.log2 : Int) - q.den.log2
  if 2 ^ e ≤ q then e else e - 1

/-- The distance of the doubles around a positive number. -/
def ulp (q : Rat) : Rat := 2 ^ max (exponent q - 52) (-1074)

/-- The double nearest to a number that is not negative. -/
def toDouble (q : Rat) : Rat := if q ≤ 0 then 0 else roundHalfEven (q / ulp q) * ulp q

/-- `Math.floor(a)`, for the values that are not negative. -/
def floorNat (q : Rat) : Nat := q.floor.toNat

end OpenClaw.Js
