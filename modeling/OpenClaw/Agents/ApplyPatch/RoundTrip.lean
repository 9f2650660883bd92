import OpenClaw.Agents.ApplyPatch.Frame

/-!
# Writing a patch and reading it

A patch as it is written: the lines of a chunk are marked one by one, in any
order that gives its old and its new lines, and the first chunk of an update
may do without its context marker. Reading it gives the hunks back.
-/

namespace OpenClaw.Agents.ApplyPatch

open Js (Text splitLines joinLines trimChars isSpace IsLine)

-- ---
-- Patches as they are written
-- ---

inductive ChunkLine where
  | context (content : Text)
  | add (content : Text)
  | remove (content : Text)

namespace ChunkLine

def content : ChunkLine → Text
  | .context content | .add content | .remove content => content

def line : ChunkLine → Text
  | .context content => ' ' :: content
  | .add content => '+' :: content
  | .remove content => '-' :: content

def old? : ChunkLine → Option Text
  | .context content | .remove content => some content
  | .add _ => none

def new? : ChunkLine → Option Text
  | .context content | .add content => some content
  | .remove _ => none

def isContext : ChunkLine → Bool
  | .context _ => true
  | .add _ | .remove _ => false

end ChunkLine

inductive ChunkStart where
  | bare
  | marker
  | context (changeContext : Text)

namespace ChunkStart

def lines : ChunkStart → List Text
  | .bare => []
  | .marker => [EMPTY_CHANGE_CONTEXT_MARKER]
  | .context changeContext => [CHANGE_CONTEXT_MARKER ++ changeContext]

def changeContext : ChunkStart → Option Text
  | .bare | .marker => none
  | .context changeContext => some changeContext

end ChunkStart

structure ChunkSource where
  start : ChunkStart
  body : List ChunkLine
  isEndOfFile : Bool

namespace ChunkSource

def chunk (source : ChunkSource) : UpdateFileChunk where
  changeContext := source.start.changeContext
  oldLines := source.body.filterMap ChunkLine.old?
  newLines := source.body.filterMap ChunkLine.new?
  isEndOfFile := source.isEndOfFile

def lines (source : ChunkSource) : List Text :=
  source.start.lines ++ (source.body.map ChunkLine.line ++
    if source.isEndOfFile then [EOF_MARKER] else [])

/-- A chunk has a line. A chunk without its marker is the first one, and does
not begin with context, which could be blank or look like a move. -/
structure WellFormed (isFirst : Bool) (source : ChunkSource) : Prop where
  nonempty : source.body ≠ []
  contents : ∀ line ∈ source.body, IsLine line.content
  context : ∀ changeContext, source.start = .context changeContext → IsLine changeContext
  bare : source.start = .bare →
    isFirst = true ∧ ∀ line ∈ source.body.head?, line.isContext = false

end ChunkSource

/-- A path can stand at the end of a line that is trimmed. -/
structure IsPath (path : Text) : Prop where
  line : IsLine path
  nonempty : path ≠ []
  last : ∀ c ∈ path.getLast?, isSpace c = false

inductive HunkSource where
  | add (path : Text) (contents : List Text)
  | delete (path : Text)
  | update (path : Text) (movePath : Option Text) (first : ChunkSource) (rest : List ChunkSource)

namespace HunkSource

def hunk : HunkSource → Hunk
  | .add path contents => .add path (contents.flatMap (· ++ ['\n']))
  | .delete path => .delete path
  | .update path movePath first rest => .update path movePath ((first :: rest).map ChunkSource.chunk)

def moveLines : Option Text → List Text
  | some movePath => [MOVE_TO_MARKER ++ movePath]
  | none => []

def lines : HunkSource → List Text
  | .add path contents => (ADD_FILE_MARKER ++ path) :: contents.map ('+' :: ·)
  | .delete path => [DELETE_FILE_MARKER ++ path]
  | .update path movePath first rest =>
    (UPDATE_FILE_MARKER ++ path) :: (moveLines movePath ++ (first :: rest).flatMap ChunkSource.lines)

def WellFormed : HunkSource → Prop
  | .add path contents => IsPath path ∧ ∀ line ∈ contents, IsLine line
  | .delete path => IsPath path
  | .update path movePath first rest =>
    IsPath path ∧ (∀ target, movePath = some target → IsPath target) ∧
      first.WellFormed true ∧ ∀ source ∈ rest, source.WellFormed false

end HunkSource

def patchLines (sources : List HunkSource) : List Text :=
  BEGIN_PATCH_MARKER :: (sources.flatMap HunkSource.lines ++ [END_PATCH_MARKER])

def renderPatch (sources : List HunkSource) : Text :=
  joinLines (patchLines sources)

-- ---
-- Markers
-- ---

theorem EOF_MARKER_eq : EOF_MARKER = '*' :: "** End of File".toList := rfl

theorem ADD_FILE_MARKER_eq : ADD_FILE_MARKER = '*' :: '*' :: '*' :: ' ' :: 'A' :: "dd File: ".toList :=
  rfl

theorem DELETE_FILE_MARKER_eq :
    DELETE_FILE_MARKER = '*' :: '*' :: '*' :: ' ' :: 'D' :: "elete File: ".toList := rfl

theorem UPDATE_FILE_MARKER_eq :
    UPDATE_FILE_MARKER = '*' :: '*' :: '*' :: ' ' :: 'U' :: "pdate File: ".toList := rfl

theorem MOVE_TO_MARKER_eq : MOVE_TO_MARKER = '*' :: "** Move to: ".toList := rfl

theorem EMPTY_CHANGE_CONTEXT_MARKER_eq : EMPTY_CHANGE_CONTEXT_MARKER = ['@', '@'] := rfl

theorem CHANGE_CONTEXT_MARKER_eq : CHANGE_CONTEXT_MARKER = ['@', '@', ' '] := rfl

@[simp] theorem afterMarker_append (marker text : Text) :
    afterMarker marker (marker ++ text) = some text := by
  simp [afterMarker]

theorem afterMarker_ne {c d : Char} (h : c ≠ d) (marker text : Text) :
    afterMarker (c :: marker) (d :: text) = none := by
  simp [afterMarker, h]

/-- A header is trimmed already. -/
theorem trimChars_header {marker path : Text} (hmarker : ∃ text, marker = '*' :: text)
    (hpath : IsPath path) : trimChars (marker ++ path) = marker ++ path := by
  obtain ⟨text, rfl⟩ := hmarker
  refine Js.trimChars_eq_self (fun c hc => by cases hc; rfl) fun c hc => ?_
  rw [List.getLast?_append_of_ne_nil _ hpath.nonempty] at hc
  exact hpath.last c hc

-- ---
-- Chunks
-- ---

/-- The line begins the next chunk or the next hunk. -/
def IsBoundary (line : Text) : Prop :=
  line ≠ EOF_MARKER ∧ ∃ c text, line = c :: text ∧ (c = '@' ∨ c = '*')

def Bounded (rest : List Text) : Prop :=
  ∀ line ∈ rest.head?, IsBoundary line

def eofLines (isEndOfFile : Bool) : List Text :=
  if isEndOfFile then [EOF_MARKER] else []

/-- A chunk ends with the end of the file or before a boundary. -/
theorem parseChunkLines_end (hrest : Bounded rest) (chunk : UpdateFileChunk) (hpos : 0 < parsedLines)
    (heof : chunk.isEndOfFile = false) (isEndOfFile : Bool) :
    parseChunkLines lineNumber chunk parsedLines (eofLines isEndOfFile ++ rest) =
      .ok ({ chunk with isEndOfFile }, parsedLines + (eofLines isEndOfFile).length) := by
  have hne : parsedLines ≠ 0 := by omega
  cases isEndOfFile with
  | true => simp [eofLines, parseChunkLines, hne]
  | false =>
    obtain ⟨changeContext, oldLines, newLines, _⟩ := chunk
    cases heof
    cases rest with
    | nil => rfl
    | cons line rest =>
      obtain ⟨hline, c, text, rfl, hc⟩ := hrest line rfl
      obtain rfl | rfl := hc
      · simp [eofLines, parseChunkLines, hline, hne]
      · simp [eofLines, parseChunkLines, hline, hne]

theorem parseChunkLines_line (line : ChunkLine) :
    parseChunkLines lineNumber chunk parsedLines (line.line :: lines) =
      parseChunkLines lineNumber { chunk with
        oldLines := chunk.oldLines ++ line.old?.toList
        newLines := chunk.newLines ++ line.new?.toList } (parsedLines + 1) lines := by
  cases line <;> simp [parseChunkLines, ChunkLine.line, ChunkLine.old?, ChunkLine.new?, EOF_MARKER_eq]

/-- The lines of a body are read one by one. -/
theorem parseChunkLines_body (lineNumber : Nat) {tail : List Text}
    (htail : ∀ chunk parsedLines, 0 < parsedLines → chunk.isEndOfFile = false →
      parseChunkLines lineNumber chunk parsedLines tail = .ok ({ chunk with isEndOfFile }, parsedLines + n))
    (chunk : UpdateFileChunk) (parsedLines : Nat) (body : List ChunkLine)
    (hpos : 0 < parsedLines ∨ body ≠ []) (heof : chunk.isEndOfFile = false) :
    parseChunkLines lineNumber chunk parsedLines (body.map ChunkLine.line ++ tail) =
      .ok ({ chunk with
          oldLines := chunk.oldLines ++ body.filterMap ChunkLine.old?
          newLines := chunk.newLines ++ body.filterMap ChunkLine.new?
          isEndOfFile },
        parsedLines + body.length + n) := by
  induction body generalizing chunk parsedLines with
  | nil =>
    simp only [ne_eq, not_true_eq_false, or_false] at hpos
    simpa using htail chunk parsedLines hpos heof
  | cons line body ih =>
    have hcount : parsedLines + (line :: body).length + n = parsedLines + 1 + body.length + n := by
      rw [List.length_cons]
      omega
    rw [List.map_cons, List.cons_append, parseChunkLines_line, hcount]
    rw [ih { chunk with
      oldLines := chunk.oldLines ++ line.old?.toList
      newLines := chunk.newLines ++ line.new?.toList } (parsedLines + 1) (.inl (by omega)) heof]
    cases line <;> simp [List.filterMap_cons, ChunkLine.old?, ChunkLine.new?]

theorem ChunkSource.lines_eq (source : ChunkSource) :
    source.lines = source.start.lines ++ (source.body.map ChunkLine.line ++ eofLines source.isEndOfFile) :=
  rfl

theorem parseChunkStart_lines {source : ChunkSource} (lineNumber : Nat) (h : source.WellFormed isFirst)
    (hfirst : source.lines ++ rest = line :: more) :
    parseChunkStart line lineNumber isFirst = .ok (source.chunk.changeContext, source.start.lines.length) := by
  obtain ⟨start, body, isEndOfFile⟩ := source
  cases start with
  | marker =>
    obtain ⟨rfl, -⟩ := List.cons.inj hfirst
    simp [parseChunkStart, ChunkSource.chunk, ChunkStart.changeContext, ChunkStart.lines]
  | context changeContext =>
    obtain ⟨rfl, -⟩ := List.cons.inj hfirst
    have hne : CHANGE_CONTEXT_MARKER ++ changeContext ≠ EMPTY_CHANGE_CONTEXT_MARKER := by
      simp [CHANGE_CONTEXT_MARKER_eq, EMPTY_CHANGE_CONTEXT_MARKER_eq]
    simp [parseChunkStart, hne, ChunkSource.chunk, ChunkStart.changeContext, ChunkStart.lines]
  | bare =>
    obtain ⟨hallow, hcontext⟩ := h.bare rfl
    have hnonempty := h.nonempty
    cases body with
    | nil => exact absurd rfl hnonempty
    | cons first body =>
      obtain ⟨rfl, -⟩ := List.cons.inj hfirst
      subst hallow
      cases first with
      | context content => cases hcontext _ rfl
      | add content =>
        simp [parseChunkStart, ChunkLine.line, EMPTY_CHANGE_CONTEXT_MARKER_eq, CHANGE_CONTEXT_MARKER_eq,
          afterMarker_ne, ChunkSource.chunk, ChunkStart.changeContext, ChunkStart.lines]
      | remove content =>
        simp [parseChunkStart, ChunkLine.line, EMPTY_CHANGE_CONTEXT_MARKER_eq, CHANGE_CONTEXT_MARKER_eq,
          afterMarker_ne, ChunkSource.chunk, ChunkStart.changeContext, ChunkStart.lines]

theorem ChunkSource.lines_length (source : ChunkSource) :
    source.lines.length =
      source.body.length + (eofLines source.isEndOfFile).length + source.start.lines.length := by
  rw [ChunkSource.lines_eq, List.length_append, List.length_append, List.length_map]
  omega

/-- Reading a chunk gives it back. -/
theorem parseUpdateFileChunk_lines {source : ChunkSource} (lineNumber : Nat) (h : source.WellFormed isFirst)
    (hrest : Bounded rest) :
    parseUpdateFileChunk (source.lines ++ rest) lineNumber isFirst =
      .ok (source.chunk, source.lines.length) := by
  have hbody := parseChunkLines_body lineNumber
    (fun chunk parsedLines hpos heof =>
      parseChunkLines_end hrest chunk hpos heof source.isEndOfFile)
    ⟨source.start.changeContext, [], [], false⟩ 0 source.body (.inr h.nonempty) rfl
  have hpos : 0 < source.body.length := List.length_pos_iff.mpr h.nonempty
  have hlength := source.lines_length
  have hdrop : (source.lines ++ rest).drop source.start.lines.length =
      source.body.map ChunkLine.line ++ (eofLines source.isEndOfFile ++ rest) := by
    rw [ChunkSource.lines_eq, List.append_assoc, List.drop_left, List.append_assoc]
  have hlong : ¬ (source.lines ++ rest).length ≤ source.start.lines.length := by
    rw [List.length_append]
    omega
  cases hlines : source.lines ++ rest with
  | nil =>
    rw [hlines] at hlong
    simp at hlong
  | cons line more =>
    have hstart := parseChunkStart_lines lineNumber h hlines
    rw [parseUpdateFileChunk, hstart]
    rw [← hlines]
    simp only [if_neg hlong, hdrop]
    rw [show source.chunk.changeContext = source.start.changeContext from rfl, hbody, Nat.zero_add,
      hlength]
    rfl

-- ---
-- Hunks
-- ---

/-- A chunk starts with its marker, or with a line that is no context. -/
theorem ChunkSource.WellFormed.start {source : ChunkSource} (h : source.WellFormed isFirst) :
    ∃ c text more, source.lines = (c :: text) :: more ∧
      (c = '@' ∨ isFirst = true ∧ (c = '+' ∨ c = '-')) := by
  obtain ⟨start, body, isEndOfFile⟩ := source
  cases start with
  | marker => exact ⟨_, _, _, rfl, .inl rfl⟩
  | context changeContext => exact ⟨_, _, _, rfl, .inl rfl⟩
  | bare =>
    obtain ⟨hallow, hcontext⟩ := h.bare rfl
    have hnonempty := h.nonempty
    cases body with
    | nil => exact absurd rfl hnonempty
    | cons first body =>
      cases first with
      | context content => cases hcontext _ rfl
      | add content => exact ⟨_, _, _, rfl, .inr ⟨hallow, .inl rfl⟩⟩
      | remove content => exact ⟨_, _, _, rfl, .inr ⟨hallow, .inr rfl⟩⟩

theorem isSpace_start {c : Char} (hc : c = '@' ∨ isFirst = true ∧ (c = '+' ∨ c = '-')) :
    isSpace c = false := by
  obtain rfl | ⟨-, rfl | rfl⟩ := hc <;> rfl

/-- The lines of the next hunk, if there is one. -/
def NextHunk (rest : List Text) : Prop :=
  ∀ line ∈ rest.head?, ∃ text, line = '*' :: '*' :: '*' :: text ∧ line ≠ EOF_MARKER

theorem NextHunk.bounded (h : NextHunk rest) : Bounded rest := by
  intro line hline
  obtain ⟨text, rfl, hne⟩ := h line hline
  exact ⟨hne, _, _, rfl, .inr rfl⟩

/-- The loop stops before the next hunk. -/
theorem updateBody_stop (h : NextHunk rest) :
    updateBody lineNumber ⟨rest, consumed, chunks⟩ = .inr (.ok ⟨rest, consumed, chunks⟩) := by
  cases rest with
  | nil => rfl
  | cons line rest =>
    obtain ⟨text, rfl, -⟩ := h line rfl
    obtain ⟨trimmed, htrimmed⟩ := Js.trimChars_cons (show isSpace '*' = false from rfl) ('*' :: '*' :: text)
    simp [updateBody, htrimmed]

/-- The loop reads a chunk. -/
theorem updateBody_chunk {source : ChunkSource} (h : source.WellFormed chunks.isEmpty)
    (hrest : Bounded rest) :
    updateBody lineNumber ⟨source.lines ++ rest, consumed, chunks⟩ =
      .inl ⟨rest, consumed + source.lines.length, chunks ++ [source.chunk]⟩ := by
  obtain ⟨c, text, more, hlines, hc⟩ := h.start
  have hnotBlank : trimChars (c :: text) ≠ [] := by
    obtain ⟨trimmed, htrimmed⟩ := Js.trimChars_cons (isSpace_start hc) text
    simp [htrimmed]
  have hnotMarker : "***".toList.isPrefixOf (c :: text) = false := by
    obtain rfl | ⟨-, rfl | rfl⟩ := hc <;> rfl
  have hparse := parseUpdateFileChunk_lines (lineNumber + consumed) h hrest
  have hcons : source.lines ++ rest = (c :: text) :: (more ++ rest) := by rw [hlines]; rfl
  rw [updateBody, hcons]
  simp only [hnotBlank, hnotMarker, if_false, Bool.false_eq_true]
  rw [← hcons, hparse]
  simp

theorem Bounded.lines {source : ChunkSource} (h : source.WellFormed false) :
    Bounded (source.lines ++ rest) := by
  obtain ⟨c, text, more, hlines, rfl | ⟨hfalse, -⟩⟩ := h.start
  · rw [hlines]
    rintro _ ⟨⟩
    exact ⟨by simp [EOF_MARKER_eq], _, _, rfl, .inl rfl⟩
  · cases hfalse

/-- The chunks of an update are read one after another. -/
theorem updateBody_chunks (hrest : NextHunk rest) (sources : List ChunkSource)
    (hwell : ∀ source ∈ sources, source.WellFormed false) (hchunks : chunks.isEmpty = false)
    (hn : sources.length < n) :
    Loop.rounds (updateBody lineNumber) n ⟨sources.flatMap ChunkSource.lines ++ rest, consumed, chunks⟩ =
      some (.ok ⟨rest, consumed + (sources.flatMap ChunkSource.lines).length,
        chunks ++ sources.map ChunkSource.chunk⟩) := by
  induction sources generalizing consumed chunks n with
  | nil =>
    obtain ⟨n, rfl⟩ := Nat.exists_eq_add_one.mpr hn
    simpa using Loop.rounds_done (updateBody_stop hrest)
  | cons source sources ih =>
    obtain ⟨n, rfl⟩ := Nat.exists_eq_add_one.mpr (Nat.lt_of_le_of_lt (Nat.zero_le _) hn)
    obtain ⟨hsource, hsources⟩ := List.forall_mem_cons.mp hwell
    have hbounded : Bounded (sources.flatMap ChunkSource.lines ++ rest) := by
      cases sources with
      | nil => exact hrest.bounded
      | cons next sources =>
        rw [List.flatMap_cons, List.append_assoc]
        exact Bounded.lines (hsources next List.mem_cons_self)
    rw [List.flatMap_cons, List.append_assoc,
      Loop.rounds_next (updateBody_chunk (hchunks ▸ hsource) hbounded),
      ih hsources (by simp) (by simpa using hn)]
    simp [Nat.add_assoc]

theorem ChunkSource.WellFormed.length_pos {source : ChunkSource} (h : source.WellFormed isFirst) :
    0 < source.lines.length := by
  obtain ⟨c, text, more, hlines, -⟩ := h.start
  rw [hlines]
  exact Nat.zero_lt_succ _

theorem length_le_flatMap {α : Type} {f : α → List Text} {sources : List α}
    (hpos : ∀ source ∈ sources, 0 < (f source).length) : sources.length ≤ (sources.flatMap f).length := by
  induction sources with
  | nil => simp
  | cons source sources ih =>
    obtain ⟨hsource, hsources⟩ := List.forall_mem_cons.mp hpos
    have := ih hsources
    simp only [List.flatMap_cons, List.length_append, List.length_cons]
    omega

theorem parseMove_lines {movePath : Option Text} {first : ChunkSource}
    (hmove : ∀ target, movePath = some target → IsPath target) (hfirst : first.WellFormed true) :
    parseMove (HunkSource.moveLines movePath ++ (first.lines ++ rest)) =
      (movePath, ⟨first.lines ++ rest, 1 + (HunkSource.moveLines movePath).length, []⟩) := by
  cases movePath with
  | some target =>
    have htrim : trimChars (MOVE_TO_MARKER ++ target) = MOVE_TO_MARKER ++ target :=
      trimChars_header ⟨_, MOVE_TO_MARKER_eq⟩ (hmove target rfl)
    simp [parseMove, HunkSource.moveLines, htrim]
  | none =>
    obtain ⟨c, text, more, hlines, hc⟩ := hfirst.start
    obtain ⟨trimmed, htrimmed⟩ := Js.trimChars_cons (isSpace_start hc) text
    have hne : '*' ≠ c := by
      obtain rfl | ⟨-, rfl | rfl⟩ := hc <;> decide
    simp [parseMove, HunkSource.moveLines, hlines, htrimmed, MOVE_TO_MARKER_eq, afterMarker_ne hne]

theorem updateBody_update {first : ChunkSource} {sources : List ChunkSource} (hrest : NextHunk rest)
    (hfirst : first.WellFormed true) (hwell : ∀ source ∈ sources, source.WellFormed false)
    (hn : (first :: sources).length < n) :
    Loop.rounds (updateBody lineNumber) n
        ⟨first.lines ++ (sources.flatMap ChunkSource.lines ++ rest), consumed, []⟩ =
      some (.ok ⟨rest, consumed + ((first :: sources).flatMap ChunkSource.lines).length,
        (first :: sources).map ChunkSource.chunk⟩) := by
  obtain ⟨n, rfl⟩ := Nat.exists_eq_add_one.mpr (Nat.lt_of_le_of_lt (Nat.zero_le _) hn)
  have hbounded : Bounded (sources.flatMap ChunkSource.lines ++ rest) := by
    cases sources with
    | nil => exact hrest.bounded
    | cons next sources =>
      rw [List.flatMap_cons, List.append_assoc]
      exact Bounded.lines (hwell next List.mem_cons_self)
  have hstart : first.WellFormed ([] : List UpdateFileChunk).isEmpty := hfirst
  rw [Loop.rounds_next (updateBody_chunk hstart hbounded), List.nil_append,
    updateBody_chunks hrest sources hwell rfl (by simpa using hn), List.flatMap_cons, List.length_append,
    Nat.add_assoc]
  rfl

theorem parseUpdate_lines {movePath : Option Text} {first : ChunkSource} {sources : List ChunkSource}
    (path : Text) (lineNumber : Nat) (hrest : NextHunk rest)
    (hmove : ∀ target, movePath = some target → IsPath target) (hfirst : first.WellFormed true)
    (hwell : ∀ source ∈ sources, source.WellFormed false) :
    parseUpdate path (HunkSource.moveLines movePath ++ (first :: sources).flatMap ChunkSource.lines ++ rest)
        lineNumber =
      some (.ok (.update path movePath ((first :: sources).map ChunkSource.chunk),
        1 + (HunkSource.moveLines movePath).length +
          ((first :: sources).flatMap ChunkSource.lines).length)) := by
  have hlines : HunkSource.moveLines movePath ++ (first :: sources).flatMap ChunkSource.lines ++ rest =
      HunkSource.moveLines movePath ++ (first.lines ++ (sources.flatMap ChunkSource.lines ++ rest)) := by
    simp
  have hlength := length_le_flatMap fun source hsource => (hwell source hsource).length_pos
  have hpos := hfirst.length_pos
  rw [hlines, parseUpdate, parseMove_lines hmove hfirst]
  simp only
  rw [updateBody_update hrest hfirst hwell (by simp only [List.length_append, List.length_cons]; omega)]
  rfl

theorem addedLines_lines (hrest : NextHunk rest) (contents : List Text) :
    addedLines (contents.map ('+' :: ·) ++ rest) =
      (contents.flatMap (· ++ ['\n']), contents.length) := by
  induction contents with
  | nil =>
    cases rest with
    | nil => rfl
    | cons line rest =>
      obtain ⟨text, rfl, -⟩ := hrest line rfl
      rfl
  | cons content contents ih => simp [addedLines, ih]

/-- Reading a hunk gives it back. -/
theorem parseOneHunk_lines {source : HunkSource} (lineNumber : Nat) (h : source.WellFormed) (hrest : NextHunk rest) :
    parseOneHunk (source.lines ++ rest) lineNumber = some (.ok (source.hunk, source.lines.length)) := by
  cases source with
  | add path contents =>
    obtain ⟨hpath, -⟩ := h
    have htrim : trimChars (ADD_FILE_MARKER ++ path) = ADD_FILE_MARKER ++ path :=
      trimChars_header ⟨_, ADD_FILE_MARKER_eq⟩ hpath
    simp [parseOneHunk, HunkSource.lines, HunkSource.hunk, htrim, addedLines_lines hrest]
  | delete path =>
    have htrim : trimChars (DELETE_FILE_MARKER ++ path) = DELETE_FILE_MARKER ++ path :=
      trimChars_header ⟨_, DELETE_FILE_MARKER_eq⟩ h
    have hadd : afterMarker ADD_FILE_MARKER (DELETE_FILE_MARKER ++ path) = none := by
      simp [afterMarker, ADD_FILE_MARKER_eq, DELETE_FILE_MARKER_eq]
    simp [parseOneHunk, HunkSource.lines, HunkSource.hunk, htrim, hadd]
  | update path movePath first sources =>
    obtain ⟨hpath, hmove, hfirst, hsources⟩ := h
    have htrim : trimChars (UPDATE_FILE_MARKER ++ path) = UPDATE_FILE_MARKER ++ path :=
      trimChars_header ⟨_, UPDATE_FILE_MARKER_eq⟩ hpath
    have hadd : afterMarker ADD_FILE_MARKER (UPDATE_FILE_MARKER ++ path) = none := by
      simp [afterMarker, ADD_FILE_MARKER_eq, UPDATE_FILE_MARKER_eq]
    have hdelete : afterMarker DELETE_FILE_MARKER (UPDATE_FILE_MARKER ++ path) = none := by
      simp [afterMarker, DELETE_FILE_MARKER_eq, UPDATE_FILE_MARKER_eq]
    have hupdate := parseUpdate_lines path lineNumber hrest hmove hfirst hsources
    have hlength : (HunkSource.update path movePath first sources).lines.length =
        1 + (HunkSource.moveLines movePath).length +
          ((first :: sources).flatMap ChunkSource.lines).length := by
      simp only [HunkSource.lines, List.length_cons, List.length_append]
      omega
    rw [hlength, HunkSource.lines, List.cons_append, parseOneHunk]
    simp only [htrim, hadd, hdelete, afterMarker_append]
    exact hupdate

-- ---
-- Patches
-- ---

theorem HunkSource.nextHunk (source : HunkSource) : NextHunk (source.lines ++ rest) := by
  cases source with
  | add path contents => rintro _ ⟨⟩; exact ⟨_, rfl, by simp [ADD_FILE_MARKER_eq, EOF_MARKER_eq]⟩
  | delete path => rintro _ ⟨⟩; exact ⟨_, rfl, by simp [DELETE_FILE_MARKER_eq, EOF_MARKER_eq]⟩
  | update path movePath first sources =>
    rintro _ ⟨⟩
    exact ⟨_, rfl, by simp [UPDATE_FILE_MARKER_eq, EOF_MARKER_eq]⟩

theorem HunkSource.length_pos (source : HunkSource) : 0 < source.lines.length := by
  cases source <;> exact Nat.zero_lt_succ _

theorem parseBody_sources (sources : List HunkSource) (hwell : ∀ source ∈ sources, source.WellFormed)
    (hn : sources.length < n) :
    Loop.rounds parseBody n ⟨sources.flatMap HunkSource.lines, lineNumber, hunks⟩ =
      some (some (.ok (hunks ++ sources.map HunkSource.hunk))) := by
  induction sources generalizing lineNumber hunks n with
  | nil =>
    obtain ⟨n, rfl⟩ := Nat.exists_eq_add_one.mpr hn
    simpa using Loop.rounds_done (show parseBody ⟨[], lineNumber, hunks⟩ = .inr (some (.ok hunks)) from rfl)
  | cons source sources ih =>
    obtain ⟨n, rfl⟩ := Nat.exists_eq_add_one.mpr (Nat.lt_of_le_of_lt (Nat.zero_le _) hn)
    obtain ⟨hsource, hsources⟩ := List.forall_mem_cons.mp hwell
    have hrest : NextHunk (sources.flatMap HunkSource.lines) := by
      cases sources with
      | nil => simp [NextHunk]
      | cons next sources =>
        rw [List.flatMap_cons]
        exact next.nextHunk
    have hround : parseBody ⟨source.lines ++ sources.flatMap HunkSource.lines, lineNumber, hunks⟩ =
        .inl ⟨sources.flatMap HunkSource.lines, lineNumber + source.lines.length,
          hunks ++ [source.hunk]⟩ := by
      have hparse := parseOneHunk_lines lineNumber hsource hrest
      have hpos := source.length_pos
      cases hlines : source.lines with
      | nil => simp [hlines] at hpos
      | cons line more =>
        rw [hlines] at hparse
        rw [parseBody, List.cons_append]
        simp only
        rw [← List.cons_append, hparse]
        simp
    rw [List.flatMap_cons, Loop.rounds_next hround, ih hsources (by simpa using hn)]
    simp

theorem parseHunks_sources {sources : List HunkSource} (hwell : ∀ source ∈ sources, source.WellFormed) :
    parseHunks (sources.flatMap HunkSource.lines) = some (.ok (sources.map HunkSource.hunk)) := by
  have hlength := length_le_flatMap fun source (_ : source ∈ sources) => source.length_pos
  rw [parseHunks, parseBody_sources sources hwell (by omega)]
  rfl

theorem ChunkSource.WellFormed.isLine {source : ChunkSource} (h : source.WellFormed isFirst) :
    ∀ line ∈ source.lines, IsLine line := by
  intro line hline
  rw [ChunkSource.lines_eq, List.mem_append, List.mem_append] at hline
  obtain hline | hline | hline := hline
  · cases hstart : source.start with
    | bare => simp [hstart, ChunkStart.lines] at hline
    | marker =>
      simp only [hstart, ChunkStart.lines, List.mem_singleton] at hline
      rw [hline]
      decide
    | context changeContext =>
      simp only [hstart, ChunkStart.lines, List.mem_singleton] at hline
      rw [hline]
      exact IsLine.append (by decide) (h.context changeContext hstart)
  · obtain ⟨bodyLine, hmem, rfl⟩ := List.mem_map.mp hline
    have hcontent := h.contents bodyLine hmem
    cases bodyLine with
    | context content => exact IsLine.append (show IsLine [' '] by decide) hcontent
    | add content => exact IsLine.append (show IsLine ['+'] by decide) hcontent
    | remove content => exact IsLine.append (show IsLine ['-'] by decide) hcontent
  · obtain ⟨-, rfl⟩ : source.isEndOfFile = true ∧ line = EOF_MARKER := by
      simpa [eofLines] using hline
    decide

theorem HunkSource.WellFormed.isLine {source : HunkSource} (h : source.WellFormed) :
    ∀ line ∈ source.lines, IsLine line := by
  cases source with
  | add path contents =>
    obtain ⟨hpath, hcontents⟩ := h
    refine List.forall_mem_cons.mpr ⟨IsLine.append (by decide) hpath.line, fun line hline => ?_⟩
    obtain ⟨content, hmem, rfl⟩ := List.mem_map.mp hline
    exact IsLine.append (show IsLine ['+'] by decide) (hcontents content hmem)
  | delete path =>
    rintro line hline
    rw [List.mem_singleton.mp hline]
    exact IsLine.append (by decide) h.line
  | update path movePath first sources =>
    obtain ⟨hpath, hmove, hfirst, hsources⟩ := h
    refine List.forall_mem_cons.mpr ⟨IsLine.append (by decide) hpath.line, fun line hline => ?_⟩
    obtain hline | hline := List.mem_append.mp hline
    · cases movePath with
      | none => cases hline
      | some target =>
        rw [List.mem_singleton.mp hline]
        exact IsLine.append (by decide) (hmove target rfl).line
    · obtain ⟨source, hsource, hmem⟩ := List.mem_flatMap.mp hline
      obtain rfl | hsource := List.mem_cons.mp hsource
      · exact hfirst.isLine line hmem
      · exact (hsources source hsource).isLine line hmem

theorem patchLines_isLine {sources : List HunkSource} (hwell : ∀ source ∈ sources, source.WellFormed) :
    ∀ line ∈ patchLines sources, IsLine line := by
  refine List.forall_mem_cons.mpr ⟨by decide, fun line hline => ?_⟩
  obtain hline | hline := List.mem_append.mp hline
  · obtain ⟨source, hsource, hline⟩ := List.mem_flatMap.mp hline
    exact (hwell source hsource).isLine line hline
  · rw [List.mem_singleton.mp hline]
    decide

theorem trimChars_renderPatch (sources : List HunkSource) :
    trimChars (renderPatch sources) = renderPatch sources := by
  refine Js.trimChars_eq_self (fun c hc => ?_) fun c hc => ?_
  · have hhead : (renderPatch sources).head? = some '*' := by
      obtain ⟨next, lines, hlines⟩ :=
        List.exists_cons_of_ne_nil (l := sources.flatMap HunkSource.lines ++ [END_PATCH_MARKER]) (by simp)
      rw [renderPatch, patchLines, hlines, Js.joinLines_cons]
      rfl
    rw [hhead] at hc
    cases hc
    rfl
  · rw [renderPatch, patchLines, Js.joinLines_concat,
      List.getLast?_append_of_ne_nil _ (List.cons_ne_nil '\n' END_PATCH_MARKER)] at hc
    cases hc
    rfl

theorem checkPatchBoundariesLenient_patchLines (sources : List HunkSource) :
    checkPatchBoundariesLenient (patchLines sources) = .ok (patchLines sources) := by
  have hstrict : checkPatchBoundariesStrict (patchLines sources) = none := by
    have hlast : (patchLines sources).getLast? = some END_PATCH_MARKER := by
      simp [patchLines, List.getLast?_cons]
    have hbegin : trimChars BEGIN_PATCH_MARKER = BEGIN_PATCH_MARKER := by decide
    have hend : trimChars END_PATCH_MARKER = END_PATCH_MARKER := by decide
    rw [checkPatchBoundariesStrict, hlast]
    simp [patchLines, hbegin, hend]
  rw [checkPatchBoundariesLenient, hstrict]

/-- Reading what was written gives the hunks back. -/
theorem parsePatchText_renderPatch {sources : List HunkSource}
    (hwell : ∀ source ∈ sources, source.WellFormed) :
    parsePatchText (renderPatch sources) = some (.ok (sources.map HunkSource.hunk, renderPatch sources)) := by
  have hsplit : splitLines (renderPatch sources) = patchLines sources :=
    Js.splitLines_joinLines (patchLines_isLine hwell) (List.cons_ne_nil _ _)
  have hne : renderPatch sources ≠ [] := by
    intro hnil
    rw [hnil] at hsplit
    have hlength := congrArg List.length hsplit
    simp [patchLines, splitLines] at hlength
  have hinner : ((patchLines sources).drop 1).dropLast = sources.flatMap HunkSource.lines := by
    simp [patchLines]
  rw [parsePatchText]
  simp only [trimChars_renderPatch, if_neg hne, hsplit, checkPatchBoundariesLenient_patchLines, hinner,
    parseHunks_sources hwell]
  rfl

-- ---
-- Hunks that can be written
-- ---

structure UpdateFileChunk.WellFormed (chunk : UpdateFileChunk) : Prop where
  nonempty : chunk.oldLines ++ chunk.newLines ≠ []
  lines : ∀ line ∈ chunk.oldLines ++ chunk.newLines, IsLine line
  context : ∀ changeContext, chunk.changeContext = some changeContext → IsLine changeContext

/-- A hunk that a patch can say: paths and contents made of lines, and at least
one line in each chunk. -/
def Hunk.WellFormed : Hunk → Prop
  | .add path contents =>
    IsPath path ∧ ∃ lines : List Text, (∀ line ∈ lines, IsLine line) ∧ contents = lines.flatMap (· ++ ['\n'])
  | .delete path => IsPath path
  | .update path movePath chunks =>
    IsPath path ∧ (∀ target, movePath = some target → IsPath target) ∧ chunks ≠ [] ∧
      ∀ chunk ∈ chunks, chunk.WellFormed

/-- The text is a patch of these hunks. -/
def Renders (hunks : List Hunk) (text : Text) : Prop :=
  ∃ sources, (∀ source ∈ sources, source.WellFormed) ∧ sources.map HunkSource.hunk = hunks ∧
    renderPatch sources = text

/-- The old lines and then the new ones. -/
def UpdateFileChunk.source (chunk : UpdateFileChunk) : ChunkSource where
  start := match chunk.changeContext with
    | some changeContext => .context changeContext
    | none => .marker
  body := chunk.oldLines.map .remove ++ chunk.newLines.map .add
  isEndOfFile := chunk.isEndOfFile

theorem UpdateFileChunk.source_chunk (chunk : UpdateFileChunk) : chunk.source.chunk = chunk := by
  obtain ⟨changeContext, oldLines, newLines, isEndOfFile⟩ := chunk
  cases changeContext <;>
    simp [UpdateFileChunk.source, ChunkSource.chunk, ChunkStart.changeContext, List.filterMap_map,
      Function.comp_def, ChunkLine.old?, ChunkLine.new?]

theorem UpdateFileChunk.WellFormed.source {chunk : UpdateFileChunk} (h : chunk.WellFormed)
    (isFirst : Bool) : chunk.source.WellFormed isFirst := by
  obtain ⟨changeContext, oldLines, newLines, isEndOfFile⟩ := chunk
  refine ⟨fun hnil => h.nonempty ?_, fun line hline => ?_, fun context hstart => ?_, fun hbare => ?_⟩
  · simpa [UpdateFileChunk.source] using hnil
  · obtain hline | hline := List.mem_append.mp hline
    · obtain ⟨content, hmem, rfl⟩ := List.mem_map.mp hline
      exact h.lines content (List.mem_append_left _ hmem)
    · obtain ⟨content, hmem, rfl⟩ := List.mem_map.mp hline
      exact h.lines content (List.mem_append_right _ hmem)
  · cases changeContext with
    | none => cases hstart
    | some found =>
      cases hstart
      exact h.context _ rfl
  · cases changeContext <;> cases hbare

theorem Hunk.WellFormed.exists_source {hunk : Hunk} (h : hunk.WellFormed) :
    ∃ source : HunkSource, source.WellFormed ∧ source.hunk = hunk := by
  cases hunk with
  | add path contents =>
    obtain ⟨hpath, lines, hlines, rfl⟩ := h
    exact ⟨.add path lines, ⟨hpath, hlines⟩, rfl⟩
  | delete path => exact ⟨.delete path, h, rfl⟩
  | update path movePath chunks =>
    obtain ⟨hpath, hmove, hne, hchunks⟩ := h
    obtain ⟨first, rest, rfl⟩ := List.exists_cons_of_ne_nil hne
    obtain ⟨hfirst, hrest⟩ := List.forall_mem_cons.mp hchunks
    refine ⟨.update path movePath first.source (rest.map UpdateFileChunk.source),
      ⟨hpath, hmove, hfirst.source true, fun source hsource => ?_⟩, ?_⟩
    · obtain ⟨chunk, hchunk, rfl⟩ := List.mem_map.mp hsource
      exact (hrest chunk hchunk).source false
    · simp [HunkSource.hunk, Function.comp_def, UpdateFileChunk.source_chunk]

/-- Hunks that a patch can say are written by some text. -/
theorem exists_renders {hunks : List Hunk} (h : ∀ hunk ∈ hunks, hunk.WellFormed) :
    ∃ text, Renders hunks text := by
  suffices ∃ sources : List HunkSource, (∀ source ∈ sources, source.WellFormed) ∧
      sources.map HunkSource.hunk = hunks by
    obtain ⟨sources, hwell, hhunks⟩ := this
    exact ⟨_, sources, hwell, hhunks, rfl⟩
  induction hunks with
  | nil => exact ⟨[], by simp, rfl⟩
  | cons hunk hunks ih =>
    obtain ⟨hhunk, hhunks⟩ := List.forall_mem_cons.mp h
    obtain ⟨source, hsource, rfl⟩ := hhunk.exists_source
    obtain ⟨sources, hsources, rfl⟩ := ih hhunks
    exact ⟨source :: sources, List.forall_mem_cons.mpr ⟨hsource, hsources⟩, rfl⟩

/-- Every list of well-formed hunks has a patch, and each of its patches reads
back as these hunks. Every text reads as hunks or as an error, with at least one
line taken by each hunk. -/
theorem parsePatchText_roundTrip :
    (∀ hunks : List Hunk, (∀ hunk ∈ hunks, hunk.WellFormed) → ∃ text, Renders hunks text) ∧
      (∀ hunks text, Renders hunks text → parsePatchText text = some (.ok (hunks, text))) ∧
      (∀ input, (parsePatchText input).isSome = true) ∧
      ∀ lines lineNumber hunk consumed,
        parseOneHunk lines lineNumber = some (.ok (hunk, consumed)) → 0 < consumed := by
  refine ⟨fun hunks => exists_renders, ?_, parsePatchText_isSome, ?_⟩
  · rintro hunks text ⟨sources, hwell, rfl, rfl⟩
    exact parsePatchText_renderPatch hwell
  · intro lines lineNumber hunk consumed h
    exact (parseOneHunk_takes h).1

/-- A file that is moved and edited. -/
def moveSource : HunkSource :=
  .update "a".toList (some "b".toList)
    ⟨.bare, [.remove "x".toList, .add "y".toList, .context "z".toList], false⟩
    [⟨.context "f()".toList, [.add "w".toList], true⟩]

theorem moveSource_wellFormed : moveSource.WellFormed := by
  refine ⟨⟨by decide, by decide, ?_⟩, ?_, ⟨by decide, by decide, ?_, ?_⟩, ?_⟩
  · rintro _ ⟨⟩
    decide
  · rintro _ ⟨⟩
    refine ⟨by decide, by decide, ?_⟩
    rintro _ ⟨⟩
    decide
  · intro changeContext hstart
    cases hstart
  · exact fun _ => ⟨rfl, by decide⟩
  · intro source hsource
    rw [List.mem_singleton.mp hsource]
    refine ⟨by decide, by decide, ?_, fun hbare => ?_⟩
    · rintro _ ⟨⟩
      decide
    · cases hbare

theorem parsePatchText_roundTrip_move :
    parsePatchText (renderPatch [moveSource]) = some (.ok ([moveSource.hunk], renderPatch [moveSource])) :=
  parsePatchText_roundTrip.2.1 _ _
    ⟨[moveSource], by simpa using moveSource_wellFormed, rfl, rfl⟩

example : renderPatch [moveSource] =
    "*** Begin Patch\n*** Update File: a\n*** Move to: b\n-x\n+y\n z\n@@ f()\n+w\n*** End of File\n*** End Patch".toList := by
  decide

end OpenClaw.Agents.ApplyPatch
