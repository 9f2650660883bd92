import OpenClaw.Js.CodeUnits
import OpenClaw.Js.Double
import Mathlib.Algebra.BigOperators.Group.List.Basic

/-!
# Truncating tool results

Cutting the text of an oversized tool result. The character budget of a message
is shared out over its text blocks, by their lengths, but no block is given less
than a fixed floor. The floors of several blocks can exceed the budget together.
-/

namespace OpenClaw.Agents.ToolResultTruncation

open Js

/-- The code units of a text of the basic plane. -/
def units (text : String) : CodeUnits := text.toList.map unit

structure Options where
  suffix : CodeUnits
  minKeepChars : Nat

def MIN_KEEP_CHARS : Nat := 2000

def TRUNCATION_SUFFIX : CodeUnits := units <|
  "\n\n⚠️ [Content truncated — original was too large for the model's context window. " ++
  "The content above is a partial view. If you need more, request specific sections or use " ++
  "offset/limit parameters to read smaller chunks.]"

/-- No options given. -/
def Options.default : Options := { suffix := TRUNCATION_SUFFIX, minKeepChars := MIN_KEEP_CHARS }

-- ---
-- Important tails
-- ---

/-- `text.trim()` -/
def trim (text : CodeUnits) : CodeUnits := (text.dropWhile isSpaceUnit).rdropWhile isSpaceUnit

section
variable (toLowerCase : CodeUnits → CodeUnits)

def newline : CodeUnit := unit '\n'

/-- An entry of a message's content. An `other` entry is not of type `text`, or
its text is not a string. -/
inductive ContentBlock
  | text (text : CodeUnits) (rest : List (String × Json))
  | other (value : Json)

def ContentBlock.text? : ContentBlock → Option CodeUnits
  | .text content _ => some content
  | .other _ => none

structure Message where
  role : String
  /-- `none` when the content is not an array. -/
  content : Option (List ContentBlock)
  rest : List (String × Json)

end

section
variable {toLowerCase : CodeUnits → CodeUnits} {options : Options} {text : CodeUnits}

end

section
variable (toLowerCase : CodeUnits → CodeUnits) (options : Options)

/-- The texts of a message. -/
def Message.texts (msg : Message) : List CodeUnits :=
  (msg.content.getD []).filterMap ContentBlock.text?

end

section
variable {toLowerCase : CodeUnits → CodeUnits} {options : Options}

end

end OpenClaw.Agents.ToolResultTruncation
