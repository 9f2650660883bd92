import Mathlib.Data.List.Sort
import OpenClaw.Js.Text
import OpenClaw.Lib.Loop
import OpenClaw.Lib.Splice

/-!
# Reading patches

`parsePatchText`: the apply_patch format, line by line. Each loop runs for as
many rounds as there are lines; `none` would be a loop that is not done by then.
-/

namespace OpenClaw.Agents.ApplyPatch

open Js (Text splitLines joinLines trimChars)

def BEGIN_PATCH_MARKER : Text := "*** Begin Patch".toList
def END_PATCH_MARKER : Text := "*** End Patch".toList
def ADD_FILE_MARKER : Text := "*** Add File: ".toList
def DELETE_FILE_MARKER : Text := "*** Delete File: ".toList
def UPDATE_FILE_MARKER : Text := "*** Update File: ".toList
def MOVE_TO_MARKER : Text := "*** Move to: ".toList
def EOF_MARKER : Text := "*** End of File".toList
def CHANGE_CONTEXT_MARKER : Text := "@@ ".toList
def EMPTY_CHANGE_CONTEXT_MARKER : Text := "@@".toList

structure UpdateFileChunk where
  changeContext : Option Text
  oldLines : List Text
  newLines : List Text
  isEndOfFile : Bool
  deriving DecidableEq

inductive Hunk where
  | add (path contents : Text)
  | delete (path : Text)
  | update (path : Text) (movePath : Option Text) (chunks : List UpdateFileChunk)
  deriving DecidableEq

/-- A parse error is its message. -/
abbrev Parsed (α : Type) := Except Text α

def hunkError (lineNumber : Nat) (message : Text) : Parsed α :=
  .error ("Invalid patch hunk at line ".toList ++ (toString lineNumber).toList ++ ": ".toList ++ message)

/-- The rest of a line that starts with a marker. -/
def afterMarker (marker line : Text) : Option Text :=
  if marker.isPrefixOf line then some (line.drop marker.length) else none

-- ---
-- Chunks
-- ---

def noLines (lineNumber : Nat) : Parsed α :=
  hunkError lineNumber "Update hunk does not contain any lines".toList

/-- The loop over the lines of a chunk. -/
def parseChunkLines (lineNumber : Nat) (chunk : UpdateFileChunk) (parsedLines : Nat) :
    List Text → Parsed (UpdateFileChunk × Nat)
  | [] => .ok (chunk, parsedLines)
  | line :: lines =>
    if line = EOF_MARKER then
      if parsedLines = 0 then noLines (lineNumber + 1)
      else .ok ({ chunk with isEndOfFile := true }, parsedLines + 1)
    else match line with
      | [] =>
        parseChunkLines lineNumber { chunk with
          oldLines := chunk.oldLines ++ [[]], newLines := chunk.newLines ++ [[]] } (parsedLines + 1) lines
      | ' ' :: content =>
        parseChunkLines lineNumber { chunk with
          oldLines := chunk.oldLines ++ [content], newLines := chunk.newLines ++ [content] }
          (parsedLines + 1) lines
      | '+' :: content =>
        parseChunkLines lineNumber { chunk with newLines := chunk.newLines ++ [content] }
          (parsedLines + 1) lines
      | '-' :: content =>
        parseChunkLines lineNumber { chunk with oldLines := chunk.oldLines ++ [content] }
          (parsedLines + 1) lines
      | _ =>
        if parsedLines = 0 then
          hunkError (lineNumber + 1) ("Unexpected line found in update hunk: '".toList ++ line ++
            "'. Every line should start with ' ' (context line), '+' (added line), or '-' (removed line)".toList)
        else .ok (chunk, parsedLines)

/-- The change context of a chunk, and how many lines it takes. -/
def parseChunkStart (line : Text) (lineNumber : Nat) (allowMissingContext : Bool) :
    Parsed (Option Text × Nat) :=
  if line = EMPTY_CHANGE_CONTEXT_MARKER then .ok (none, 1)
  else match afterMarker CHANGE_CONTEXT_MARKER line with
    | some changeContext => .ok (some changeContext, 1)
    | none =>
      if !allowMissingContext then
        hunkError lineNumber
          ("Expected update hunk to start with a @@ context marker, got: '".toList ++ line ++ "'".toList)
      else .ok (none, 0)

def parseUpdateFileChunk (lines : List Text) (lineNumber : Nat) (allowMissingContext : Bool) :
    Parsed (UpdateFileChunk × Nat) :=
  match lines with
  | [] => noLines lineNumber
  | first :: _ =>
    match parseChunkStart first lineNumber allowMissingContext with
    | .error err => .error err
    | .ok (changeContext, startIndex) =>
      if lines.length ≤ startIndex then noLines (lineNumber + 1)
      else
        match parseChunkLines lineNumber ⟨changeContext, [], [], false⟩ 0 (lines.drop startIndex) with
        | .error err => .error err
        | .ok (chunk, parsedLines) => .ok (chunk, parsedLines + startIndex)

-- ---
-- Hunks
-- ---

/-- The lines that a new file starts with, each with its line feed. -/
def addedLines : List Text → Text × Nat
  | ('+' :: content) :: lines =>
    let (contents, consumed) := addedLines lines
    (content ++ '\n' :: contents, consumed + 1)
  | _ => ([], 0)

/-- The local variables of the loop over the chunks of an update. -/
structure UpdateState where
  remaining : List Text
  consumed : Nat
  chunks : List UpdateFileChunk

def updateBody (lineNumber : Nat) (st : UpdateState) : UpdateState ⊕ Parsed UpdateState :=
  match st.remaining with
  | [] => .inr (.ok st)
  | line :: rest =>
    if trimChars line = [] then .inl { st with remaining := rest, consumed := st.consumed + 1 }
    else if "***".toList.isPrefixOf line then .inr (.ok st)
    else
      match parseUpdateFileChunk st.remaining (lineNumber + st.consumed) st.chunks.isEmpty with
      | .error err => .inr (.error err)
      | .ok (chunk, chunkLines) =>
        .inl ⟨st.remaining.drop chunkLines, st.consumed + chunkLines, st.chunks ++ [chunk]⟩

/-- The target of a move, and the state in which the loop starts. -/
def parseMove (lines : List Text) : Option Text × UpdateState :=
  match lines with
  | [] => (none, ⟨[], 1, []⟩)
  | line :: rest =>
    match afterMarker MOVE_TO_MARKER (trimChars line) with
    | some movePath => (some movePath, ⟨rest, 2, []⟩)
    | none => (none, ⟨lines, 1, []⟩)

def parseUpdate (targetPath : Text) (lines : List Text) (lineNumber : Nat) :
    Option (Parsed (Hunk × Nat)) :=
  let (movePath, start) := parseMove lines
  (Loop.rounds (updateBody lineNumber) (lines.length + 1) start).map fun
    | .error err => .error err
    | .ok st =>
      if st.chunks.isEmpty then
        hunkError lineNumber ("Update file hunk for path '".toList ++ targetPath ++ "' is empty".toList)
      else .ok (.update targetPath movePath st.chunks, st.consumed)

/-- The hunk, and how many lines it takes. -/
def parseOneHunk (lines : List Text) (lineNumber : Nat) : Option (Parsed (Hunk × Nat)) :=
  match lines with
  | [] => some (hunkError lineNumber "empty hunk".toList)
  | line :: rest =>
    match afterMarker ADD_FILE_MARKER (trimChars line) with
    | some targetPath =>
      let (contents, consumed) := addedLines rest
      some (.ok (.add targetPath contents, consumed + 1))
    | none =>
      match afterMarker DELETE_FILE_MARKER (trimChars line) with
      | some targetPath => some (.ok (.delete targetPath, 1))
      | none =>
        match afterMarker UPDATE_FILE_MARKER (trimChars line) with
        | some targetPath => parseUpdate targetPath rest lineNumber
        | none =>
          some (hunkError lineNumber ("'".toList ++ line ++
            "' is not a valid hunk header. Valid hunk headers: '*** Add File: \x7bpath\x7d', '*** Delete File: \x7bpath\x7d', '*** Update File: \x7bpath\x7d'".toList))

-- ---
-- Patches
-- ---

/-- `none` when the first and the last line are the markers. -/
def checkPatchBoundariesStrict (lines : List Text) : Option Text :=
  let firstLine := lines.head?.map trimChars
  let lastLine := lines.getLast?.map trimChars
  if firstLine = some BEGIN_PATCH_MARKER ∧ lastLine = some END_PATCH_MARKER then none
  else if firstLine ≠ some BEGIN_PATCH_MARKER then
    some "The first line of the patch must be '*** Begin Patch'".toList
  else some "The last line of the patch must be '*** End Patch'".toList

/-- The lines of the patch, without the heredoc that may be around it. -/
def checkPatchBoundariesLenient (lines : List Text) : Parsed (List Text) :=
  match checkPatchBoundariesStrict lines with
  | none => .ok lines
  | some strictError =>
    if lines.length < 4 then .error strictError
    else
      let first := lines.headD []
      let last := lines.getLast?.getD []
      if ["<<EOF".toList, "<<'EOF'".toList, "<<\"EOF\"".toList].contains first &&
          "EOF".toList.isSuffixOf last then
        let inner := (lines.drop 1).dropLast
        match checkPatchBoundariesStrict inner with
        | none => .ok inner
        | some innerError => .error innerError
      else .error strictError

/-- The local variables of the main loop. -/
structure ParseState where
  remaining : List Text
  lineNumber : Nat
  hunks : List Hunk

def parseBody (st : ParseState) : ParseState ⊕ Option (Parsed (List Hunk)) :=
  match st.remaining with
  | [] => .inr (some (.ok st.hunks))
  | _ :: _ =>
    match parseOneHunk st.remaining st.lineNumber with
    | none => .inr none
    | some (.error err) => .inr (some (.error err))
    | some (.ok (hunk, consumed)) =>
      .inl ⟨st.remaining.drop consumed, st.lineNumber + consumed, st.hunks ++ [hunk]⟩

def parseHunks (lines : List Text) : Option (Parsed (List Hunk)) :=
  (Loop.rounds parseBody (lines.length + 1) ⟨lines, 2, []⟩).join

/-- The hunks, and the text of the patch. -/
def parsePatchText (input : Text) : Option (Parsed (List Hunk × Text)) :=
  let trimmed := trimChars input
  if trimmed = [] then some (.error "Invalid patch: input is empty.".toList)
  else
    match checkPatchBoundariesLenient (splitLines trimmed) with
    | .error err => some (.error err)
    | .ok validated =>
      (parseHunks (validated.drop 1).dropLast).map fun
        | .error err => .error err
        | .ok hunks => .ok (hunks, joinLines validated)

end OpenClaw.Agents.ApplyPatch

/-!
# Updating files

`applyUpdateHunk`: the chunks of an update are looked up in the lines of the file,
each after the one before it, and the regions found are replaced back to front.
A chunk for the end of the file is looked up at the end, and one without old lines
goes there, wherever the chunks before it were found.
-/

namespace OpenClaw.Agents.ApplyPatch

open Js (Text joinLines trimChars isSpace)
open Splice (Region spliceAll Apart Replaced lastOf)

-- ---
-- Matching lines
-- ---

def normalizePunctuationChar (char : Char) : Char :=
  if char.toNat ∈ [0x2010, 0x2011, 0x2012, 0x2013, 0x2014, 0x2015, 0x2212] then '-'
  else if char.toNat ∈ [0x2018, 0x2019, 0x201A, 0x201B] then Char.ofNat 0x27
  else if char.toNat ∈ [0x201C, 0x201D, 0x201E, 0x201F] then Char.ofNat 0x22
  else if char.toNat ∈ [0x00A0, 0x2002, 0x2003, 0x2004, 0x2005, 0x2006, 0x2007, 0x2008, 0x2009,
    0x200A, 0x202F, 0x205F, 0x3000] then ' '
  else char

def normalizePunctuation (value : Text) : Text := value.map normalizePunctuationChar

/-- The pattern matches the first of the lines. -/
def linesMatch (normalize : Text → Text) : List Text → List Text → Bool
  | _, [] => true
  | [], _ :: _ => false
  | line :: lines, expected :: pattern =>
    normalize line = normalize expected && linesMatch normalize lines pattern

/-- The four ways to compare lines, from the strictest to the loosest. -/
def normalizations : List (Text → Text) :=
  [id, List.rdropWhile isSpace, trimChars, fun value => normalizePunctuation (trimChars value)]

def seekSequence (lines pattern : List Text) (start : Nat) (eof : Bool) : Option Nat :=
  if pattern = [] then some start
  else if lines.length < pattern.length then none
  else
    let maxStart := lines.length - pattern.length
    let searchStart := if eof then maxStart else start
    normalizations.findSome? fun normalize =>
      (List.range' searchStart (maxStart + 1 - searchStart)).find? fun i =>
        linesMatch normalize (lines.drop i) pattern

-- ---
-- Replacements
-- ---

/-- `slice(0, -1)` of lines that end in a blank one. -/
def dropBlankLast (lines : List Text) : List Text :=
  if lines.getLast? = some [] then lines.dropLast else lines

/-- Where the lines of a chunk without old lines go: before a blank last line. -/
def insertionIndex (lines : List Text) : Nat :=
  if lines.getLast? = some [] then lines.length - 1 else lines.length

/-- The old lines of a chunk, its new lines and where the old ones are found. The
second try is without a blank last line. -/
def seekChunk (lines : List Text) (chunk : UpdateFileChunk) (lineIndex : Nat) :
    Option (Region Text) :=
  match seekSequence lines chunk.oldLines lineIndex chunk.isEndOfFile with
  | some found => some ⟨found, chunk.oldLines.length, chunk.newLines⟩
  | none =>
    if chunk.oldLines.getLast? = some [] then
      let pattern := chunk.oldLines.dropLast
      (seekSequence lines pattern lineIndex chunk.isEndOfFile).map fun found =>
        ⟨found, pattern.length, dropBlankLast chunk.newLines⟩
    else none

/-- The line after the change context of a chunk. -/
def seekContext (lines : List Text) (chunk : UpdateFileChunk) (lineIndex : Nat) :
    Except Text Nat :=
  match chunk.changeContext with
  | some (c :: context) =>
    match seekSequence lines [c :: context] lineIndex false with
    | some ctxIndex => .ok (ctxIndex + 1)
    | none => .error (c :: context)
  | _ => .ok lineIndex

/-- The loop over the chunks, from a line on. -/
def collectReplacements (filePath : Text) (lines : List Text) :
    List UpdateFileChunk → Nat → Except Text (List (Region Text))
  | [], _ => .ok []
  | chunk :: chunks, lineIndex =>
    match seekContext lines chunk lineIndex with
    | .error context =>
      .error ("Failed to find context '".toList ++ context ++ "' in ".toList ++ filePath)
    | .ok lineIndex =>
      if chunk.oldLines = [] then
        (collectReplacements filePath lines chunks lineIndex).map
          (⟨insertionIndex lines, 0, chunk.newLines⟩ :: ·)
      else
        match seekChunk lines chunk lineIndex with
        | none =>
          .error ("Failed to find expected lines in ".toList ++ filePath ++ ":\n".toList ++
            joinLines chunk.oldLines)
        | some region =>
          (collectReplacements filePath lines chunks region.stop).map (region :: ·)

def computeReplacements (filePath : Text) (lines : List Text) (chunks : List UpdateFileChunk) :
    Except Text (List (Region Text)) :=
  (collectReplacements filePath lines chunks 0).map
    (List.mergeSort · fun a b => a.start ≤ b.start)

/-- The loop that takes `count` lines out. -/
def removeLines (startIndex : Nat) : Nat → List Text → List Text
  | 0, result => result
  | count + 1, result =>
    removeLines startIndex count
      (if startIndex < result.length then result.eraseIdx startIndex else result)

/-- The loop that puts lines in. -/
def insertLines : Nat → List Text → List Text → List Text
  | _, [], result => result
  | i, line :: newLines, result => insertLines (i + 1) newLines (result.take i ++ line :: result.drop i)

def applyReplacements (lines : List Text) (replacements : List (Region Text)) : List Text :=
  replacements.reverse.foldl (fun result replacement =>
    insertLines replacement.start replacement.new
      (removeLines replacement.start replacement.len result)) lines

-- ---
-- Files
-- ---

/-- The lines of a file, its last line feed taken as the end of a line. -/
def fileLines (contents : Text) : List Text := dropBlankLast (contents.splitOn '\n')

def withNewlineAtEnd (lines : List Text) : List Text :=
  if lines.getLast? = some [] then lines else lines ++ [[]]

/-- `contents` is what reading the file gives. -/
def applyUpdateHunk (filePath : Text) (chunks : List UpdateFileChunk) (contents : Except Text Text) :
    Except Text Text :=
  match contents with
  | .error err =>
    .error ("Failed to read file to update ".toList ++ filePath ++ ": ".toList ++ err)
  | .ok contents =>
    match computeReplacements filePath (fileLines contents) chunks with
    | .error err => .error err
    | .ok replacements =>
      .ok (joinLines (withNewlineAtEnd (applyReplacements (fileLines contents) replacements)))

end OpenClaw.Agents.ApplyPatch

/-!
# Applying patches

`applyPatch`, hunk by hunk, for any file operations. An operation that fails may
have changed the files.
-/

namespace OpenClaw.Agents.ApplyPatch

open Js (Text joinLines)

abbrev FileM (σ : Type) := ExceptT Text (StateM σ)

/-- A question to the files, which changes nothing. -/
def ask (f : σ → Except Text α) : FileM σ α := fun s => (f s, s)

inductive PathAliasPolicy
  | strict
  | unlinkTarget

structure ResolvedPath where
  resolved : Text
  display : Text

/-- `PatchFileOps`, and what else is asked of the platform. -/
structure PatchFileOps (σ : Type) where
  resolvePatchPath : Text → PathAliasPolicy → σ → Except Text ResolvedPath
  readFile : Text → σ → Except Text Text
  writeFile : Text → Text → FileM σ Unit
  remove : Text → FileM σ Unit
  mkdirp : Text → FileM σ Unit
  dirname : Text → Text

-- ---
-- The summary
-- ---

inductive Bucket
  | added
  | modified
  | deleted

structure ApplyPatchSummary where
  added : List Text
  modified : List Text
  deleted : List Text

def recordIn (files : List Text) (value : Text) : List Text :=
  if value ∈ files then files else files ++ [value]

def recordSummary (summary : ApplyPatchSummary) (value : Text) : Bucket → ApplyPatchSummary
  | .added => { summary with added := recordIn summary.added value }
  | .modified => { summary with modified := recordIn summary.modified value }
  | .deleted => { summary with deleted := recordIn summary.deleted value }

def formatSummary (summary : ApplyPatchSummary) : Text :=
  joinLines ("Success. Updated the following files:".toList ::
    (summary.added.map ("A ".toList ++ ·) ++ summary.modified.map ("M ".toList ++ ·) ++
      summary.deleted.map ("D ".toList ++ ·)))

-- ---
-- Hunks
-- ---

section
variable (ops : PatchFileOps σ)

def ensureDir (filePath : Text) : FileM σ Unit :=
  let parent := ops.dirname filePath
  if parent = [] ∨ parent = ['.'] then pure () else ops.mkdirp parent

def applyHunk : Hunk → FileM σ (Bucket × Text)
  | .add path contents => do
    let target ← ask (ops.resolvePatchPath path .strict)
    ensureDir ops target.resolved
    ops.writeFile target.resolved contents
    return (.added, target.display)
  | .delete path => do
    let target ← ask (ops.resolvePatchPath path .unlinkTarget)
    ops.remove target.resolved
    return (.deleted, target.display)
  | .update path (some (c :: movePath)) chunks => do
    let target ← ask (ops.resolvePatchPath path .strict)
    let applied ← ask fun s =>
      applyUpdateHunk target.resolved chunks (ops.readFile target.resolved s)
    let moveTarget ← ask (ops.resolvePatchPath (c :: movePath) .strict)
    ensureDir ops moveTarget.resolved
    ops.writeFile moveTarget.resolved applied
    ops.remove target.resolved
    return (.modified, moveTarget.display)
  | .update path _ chunks => do
    let target ← ask (ops.resolvePatchPath path .strict)
    let applied ← ask fun s =>
      applyUpdateHunk target.resolved chunks (ops.readFile target.resolved s)
    ops.writeFile target.resolved applied
    return (.modified, target.display)

/-- The loop over the hunks. `aborted n` is whether the run has been called off when
the hunk at position `n` is due. -/
def applyHunks (aborted : Nat → Bool) :
    List Hunk → Nat → ApplyPatchSummary → FileM σ ApplyPatchSummary
  | [], _, summary => return summary
  | hunk :: hunks, n, summary => do
    if aborted n then throw "Aborted".toList
    let (bucket, display) ← applyHunk ops hunk
    applyHunks aborted hunks (n + 1) (recordSummary summary display bucket)

def applyPatch (aborted : Nat → Bool) (input : Text) : FileM σ (ApplyPatchSummary × Text) :=
  match parsePatchText input with
  -- not reached: the loops of the parser end
  | none => throw []
  | some (.error err) => throw err
  | some (.ok (hunks, _)) => do
    if hunks = [] then throw "No files were modified.".toList
    let summary ← applyHunks ops aborted hunks 0 ⟨[], [], []⟩
    return (summary, formatSummary summary)

end

end OpenClaw.Agents.ApplyPatch
