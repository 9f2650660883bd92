import OpenClaw.Agents.ApplyPatch

/-!
# Reading a patch ends

Each chunk and each hunk takes at least one line, so that no loop goes on for
longer than there are lines.
-/

namespace OpenClaw.Agents.ApplyPatch

open Js (Text)

theorem hunkError_ne_ok {α : Type} {value : α} : hunkError lineNumber message ≠ .ok value := by
  simp [hunkError]

theorem noLines_ne_ok {α : Type} {value : α} : noLines lineNumber ≠ .ok value := hunkError_ne_ok

/-- How many lines a chunk takes. -/
theorem parseChunkLines_takes (h : parseChunkLines lineNumber chunk parsedLines lines = .ok (chunk', n)) :
    parsedLines ≤ n ∧ n ≤ parsedLines + lines.length ∧ (lines ≠ [] → 0 < n) := by
  induction lines generalizing chunk parsedLines with
  | nil =>
    cases h
    simp
  | cons line lines ih =>
    have hnext {chunk : UpdateFileChunk}
        (h : parseChunkLines lineNumber chunk (parsedLines + 1) lines = .ok (chunk', n)) :
        parsedLines ≤ n ∧ n ≤ parsedLines + (lines.length + 1) ∧ (line :: lines ≠ [] → 0 < n) := by
      obtain ⟨hle, hbound, -⟩ := ih h
      exact ⟨by omega, by omega, fun _ => by omega⟩
    simp only [parseChunkLines] at h
    split at h
    · split at h
      · exact absurd h noLines_ne_ok
      · cases h
        exact ⟨by omega, by simp, fun _ => by omega⟩
    · split at h
      · exact hnext h
      · exact hnext h
      · exact hnext h
      · exact hnext h
      · split at h
        · exact absurd h hunkError_ne_ok
        · cases h
          exact ⟨Nat.le_refl _, by omega, fun _ => by omega⟩

theorem parseUpdateFileChunk_takes
    (h : parseUpdateFileChunk lines lineNumber allowMissingContext = .ok (chunk, n)) :
    0 < n ∧ n ≤ lines.length := by
  cases lines with
  | nil => exact absurd h noLines_ne_ok
  | cons line rest =>
    simp only [parseUpdateFileChunk] at h
    split at h
    · cases h
    · rename_i changeContext startIndex hstart
      split at h
      · exact absurd h noLines_ne_ok
      · rename_i hlong
        split at h
        · cases h
        · rename_i chunk' parsedLines hlines
          cases h
          obtain ⟨-, hbound, hpos⟩ := parseChunkLines_takes hlines
          have hdrop : ((line :: rest).drop startIndex).length = (line :: rest).length - startIndex :=
            List.length_drop
          have hne : (line :: rest).drop startIndex ≠ [] := by
            intro hnil
            rw [hnil] at hdrop
            simp only [List.length_nil] at hdrop
            omega
          have := hpos hne
          omega

/-- What the loop over the chunks of an update keeps. -/
theorem updateBody_takes (h : updateBody lineNumber st = .inl st') :
    st'.remaining.length < st.remaining.length ∧
      st'.consumed + st'.remaining.length = st.consumed + st.remaining.length := by
  obtain ⟨remaining, consumed, chunks⟩ := st
  cases remaining with
  | nil => cases h
  | cons line rest =>
    simp only [updateBody] at h
    split at h
    · cases h
      simp only [List.length_cons]
      omega
    · split at h
      · cases h
      · split at h
        · cases h
        · rename_i chunk n hchunk
          cases h
          obtain ⟨hpos, hbound⟩ := parseUpdateFileChunk_takes hchunk
          simp only [List.length_drop]
          omega

theorem parseMove_takes (lines : List Text) :
    0 < (parseMove lines).2.consumed ∧
      (parseMove lines).2.consumed + (parseMove lines).2.remaining.length = lines.length + 1 := by
  simp only [parseMove]
  split
  · simp
  · split <;> simp only [List.length_cons] <;> omega

theorem parseUpdate_isSome (targetPath : Text) (lines : List Text) (lineNumber : Nat) :
    (parseUpdate targetPath lines lineNumber).isSome = true := by
  have hstart := parseMove_takes lines
  simp only [parseUpdate, Option.isSome_map]
  refine Loop.rounds_isSome (fun st => st.remaining.length) (fun st st' h => (updateBody_takes h).1) ?_
  show (parseMove lines).2.remaining.length < lines.length + 1
  omega

theorem parseUpdate_takes (h : parseUpdate targetPath lines lineNumber = some (.ok (hunk, n))) :
    0 < n ∧ n ≤ lines.length + 1 := by
  simp only [parseUpdate, Option.map_eq_some_iff] at h
  obtain ⟨result, hloop, h⟩ := h
  split at h
  · cases h
  · rename_i st
    split at h
    · exact absurd h hunkError_ne_ok
    · cases h
      have hst := Loop.rounds_invariant
        (I := fun st : UpdateState => 0 < st.consumed ∧ st.consumed + st.remaining.length = lines.length + 1)
        (P := fun result => ∀ st, result = .ok st →
          0 < st.consumed ∧ st.consumed + st.remaining.length = lines.length + 1)
        (parseMove_takes lines) ?_ ?_ hloop st rfl
      · omega
      · intro st st' hst hnext
        have := updateBody_takes hnext
        omega
      · rintro ⟨remaining, consumed, chunks⟩ result hst hdone st rfl
        cases remaining with
        | nil =>
          cases hdone
          exact hst
        | cons line rest =>
          simp only [updateBody] at hdone
          split at hdone
          · cases hdone
          · split at hdone
            · cases hdone
              exact hst
            · split at hdone <;> cases hdone

theorem addedLines_takes (lines : List Text) : (addedLines lines).2 ≤ lines.length := by
  fun_induction addedLines lines <;> simp_all

theorem parseOneHunk_isSome (lines : List Text) (lineNumber : Nat) :
    (parseOneHunk lines lineNumber).isSome = true := by
  simp only [parseOneHunk]
  split
  · rfl
  · split
    · rfl
    · split
      · rfl
      · split
        · exact parseUpdate_isSome _ _ _
        · rfl

/-- Each hunk takes at least one line. -/
theorem parseOneHunk_takes (h : parseOneHunk lines lineNumber = some (.ok (hunk, n))) :
    0 < n ∧ n ≤ lines.length := by
  cases lines with
  | nil =>
    simp only [parseOneHunk, Option.some.injEq] at h
    exact absurd h hunkError_ne_ok
  | cons line rest =>
    simp only [parseOneHunk] at h
    split at h
    · cases h
      have := addedLines_takes rest
      simp only [List.length_cons]
      omega
    · split at h
      · cases h
        simp
      · split at h
        · exact parseUpdate_takes h
        · simp only [Option.some.injEq] at h
          exact absurd h hunkError_ne_ok

theorem parseBody_takes (h : parseBody st = .inl st') :
    st'.remaining.length < st.remaining.length := by
  obtain ⟨remaining, lineNumber, hunks⟩ := st
  cases remaining with
  | nil => cases h
  | cons line rest =>
    simp only [parseBody] at h
    split at h
    · cases h
    · cases h
    · rename_i hunk n hhunk
      cases h
      have := parseOneHunk_takes hhunk
      simp only [List.length_drop]
      omega

theorem parseHunks_isSome (lines : List Text) : (parseHunks lines).isSome = true := by
  have hloop : (Loop.rounds parseBody (lines.length + 1) ⟨lines, 2, []⟩).isSome = true :=
    Loop.rounds_isSome (fun st => st.remaining.length) (fun st st' h => parseBody_takes h) (by simp)
  obtain ⟨result, hresult⟩ := Option.isSome_iff_exists.mp hloop
  rw [parseHunks, hresult, Option.join_some]
  refine Loop.rounds_invariant (I := fun _ => True) (P := fun result => result.isSome = true) trivial
    (fun _ _ _ _ => trivial) ?_ hresult
  rintro ⟨remaining, lineNumber, hunks⟩ result - hdone
  cases remaining with
  | nil =>
    cases hdone
    rfl
  | cons line rest =>
    simp only [parseBody] at hdone
    split at hdone
    · rename_i hnone
      have hsome := parseOneHunk_isSome (line :: rest) lineNumber
      rw [hnone] at hsome
      cases hsome
    · cases hdone
      rfl
    · cases hdone

/-- Whatever the text, reading it ends with hunks or an error. -/
theorem parsePatchText_isSome (input : Text) : (parsePatchText input).isSome = true := by
  simp only [parsePatchText]
  split
  · rfl
  · split
    · rfl
    · rw [Option.isSome_map]
      exact parseHunks_isSome _

end OpenClaw.Agents.ApplyPatch

/-!
# What an update leaves alone

The lines outside the regions found stay as they are, as long as no region reaches
into another, and the file does not end up with a blank last line: a blank line is
then taken for the end of the line before it.
-/

namespace OpenClaw.Agents.ApplyPatch

open Js (Text joinLines)
open Splice (Region spliceAll Apart Replaced lastOf)

-- ---
-- The loops of splices
-- ---

theorem removeLines_eq (startIndex count : Nat) (result : List Text) :
    removeLines startIndex count result =
      result.take startIndex ++ result.drop (startIndex + count) := by
  induction count generalizing result with
  | zero => rw [removeLines, Nat.add_zero, List.take_append_drop]
  | succ count ih =>
    rw [removeLines, ih]
    split
    · rename_i hin
      have hlead : (result.take startIndex).length = startIndex := by
        rw [List.length_take]
        omega
      rw [List.eraseIdx_eq_take_drop_succ, List.take_append_of_le_length hlead.ge, List.take_take,
        Nat.min_self, List.drop_append, hlead, List.drop_drop,
        List.drop_eq_nil_of_le (by omega), List.nil_append]
      congr 2
      omega
    · rw [List.drop_eq_nil_of_le (by omega), List.drop_eq_nil_of_le (by omega)]

theorem insertLines_eq (newLines result : List Text) (hi : i ≤ result.length) :
    insertLines i newLines result = result.take i ++ newLines ++ result.drop i := by
  induction newLines generalizing i result with
  | nil => rw [insertLines, List.append_nil, List.take_append_drop]
  | cons line newLines ih =>
    have hlead : (result.take i ++ [line]).length = i + 1 := by
      rw [List.length_append, List.length_take, Nat.min_eq_left hi]
      rfl
    have hsplit : result.take i ++ line :: result.drop i =
        (result.take i ++ [line]) ++ result.drop i := by simp
    rw [insertLines, ih _ (by simp; omega), hsplit, List.take_left' hlead, List.drop_left' hlead]
    simp

/-- Both loops for one replacement within the lines. -/
theorem replace_eq (r : Region Text) (result : List Text) (hstart : r.start ≤ result.length) :
    insertLines r.start r.new (removeLines r.start r.len result) = r.apply result := by
  have hlead : (result.take r.start).length = r.start := by
    rw [List.length_take, Nat.min_eq_left hstart]
  have hin : r.start ≤ (result.take r.start ++ result.drop (r.start + r.len)).length := by
    rw [List.length_append, hlead]
    exact Nat.le_add_right ..
  rw [removeLines_eq, insertLines_eq _ _ hin, List.take_left' hlead, List.drop_left' hlead]
  rfl

theorem applyReplacements_eq (hapart : Apart regions) (hstop : ∀ r ∈ regions, r.stop ≤ lines.length) :
    applyReplacements lines regions = spliceAll regions lines := by
  unfold applyReplacements spliceAll
  rw [List.foldl_reverse]
  induction regions with
  | nil => rfl
  | cons r regions ih =>
    obtain ⟨hnext, hrest⟩ := List.pairwise_cons.1 hapart
    have hin := hstop r List.mem_cons_self
    have hlater : ∀ r' ∈ regions, r'.stop ≤ lines.length :=
      fun r' hr' => hstop r' (List.mem_cons_of_mem _ hr')
    have hlead : (lines.take r.stop).length = r.stop := by
      rw [List.length_take, Nat.min_eq_left hin]
    have hbounds : ∀ r' ∈ regions, r'.stop ≤ r.stop + (lines.drop r.stop).length := by
      intro r' hr'
      have := hlater r' hr'
      rw [List.length_drop]
      omega
    -- the later regions leave the lines up to the end of this one
    obtain ⟨out, hout⟩ := Splice.exists_replaced hrest hnext hbounds
    have hkept := hout.spliceAll_eq (lines.take r.stop) hlead
    rw [List.take_append_drop] at hkept
    rw [List.foldr_cons, List.foldr_cons, ih hrest hlater]
    change insertLines r.start r.new (removeLines r.start r.len (spliceAll regions lines)) =
      r.apply (spliceAll regions lines)
    refine replace_eq r _ ?_
    rw [hkept, List.length_append, hlead, Region.stop]
    omega

-- ---
-- Where regions are found
-- ---

theorem seekSequence_le (hstart : start ≤ lines.length)
    (h : seekSequence lines pattern start eof = some found) :
    found + pattern.length ≤ lines.length := by
  unfold seekSequence at h
  split at h
  · rename_i hnil
    cases h
    rw [hnil]
    exact hstart
  · split at h
    · cases h
    · obtain ⟨normalize, -, hfind⟩ := List.exists_of_findSome?_eq_some h
      have hmem := List.mem_of_find?_eq_some hfind
      rw [List.mem_range'_1] at hmem
      omega

theorem seekChunk_stop_le (hindex : lineIndex ≤ lines.length)
    (h : seekChunk lines chunk lineIndex = some region) : region.stop ≤ lines.length := by
  unfold seekChunk at h
  split at h
  · rename_i found hfound
    cases h
    exact seekSequence_le hindex hfound
  · split at h
    · obtain ⟨found, hfound, rfl⟩ := Option.map_eq_some_iff.1 h
      exact seekSequence_le hindex hfound
    · cases h

theorem seekContext_le (hindex : lineIndex ≤ lines.length)
    (h : seekContext lines chunk lineIndex = .ok next) : next ≤ lines.length := by
  unfold seekContext at h
  split at h
  · split at h
    · rename_i ctxIndex hfound
      cases h
      exact seekSequence_le hindex hfound
    · cases h
  · cases h
    exact hindex

theorem insertionIndex_le (lines : List Text) : insertionIndex lines ≤ lines.length := by
  unfold insertionIndex
  split
  · exact Nat.sub_le ..
  · exact Nat.le_refl _

theorem exceptMap_eq_ok {f : α → β} {x : Except ε α} (h : x.map f = .ok b) :
    ∃ a, x = .ok a ∧ f a = b := by
  cases x with
  | error err => cases h
  | ok a => exact ⟨a, rfl, Except.ok.inj h⟩

theorem collectReplacements_stop_le (hindex : lineIndex ≤ lines.length)
    (h : collectReplacements filePath lines chunks lineIndex = .ok regions) :
    ∀ r ∈ regions, r.stop ≤ lines.length := by
  induction chunks generalizing lineIndex regions with
  | nil =>
    cases h
    simp
  | cons chunk chunks ih =>
    rw [collectReplacements] at h
    split at h
    · cases h
    · rename_i next hnext
      have hle := seekContext_le hindex hnext
      split at h
      · obtain ⟨rest, hrest, rfl⟩ := exceptMap_eq_ok h
        refine List.forall_mem_cons.2 ⟨?_, ih hle hrest⟩
        exact insertionIndex_le lines
      · split at h
        · cases h
        · rename_i region hregion
          have hregion := seekChunk_stop_le hle hregion
          obtain ⟨rest, hrest, rfl⟩ := exceptMap_eq_ok h
          exact List.forall_mem_cons.2 ⟨hregion, ih hregion hrest⟩

theorem computeReplacements_stop_le
    (h : computeReplacements filePath lines chunks = .ok regions) :
    ∀ r ∈ regions, r.stop ≤ lines.length := by
  obtain ⟨collected, hcollected, rfl⟩ := exceptMap_eq_ok h
  intro r hr
  exact collectReplacements_stop_le (Nat.zero_le _) hcollected r (List.mem_mergeSort.1 hr)

-- ---
-- The frame law
-- ---

/-- The text of a file of these lines. -/
def fileText (lines : List Text) : Text := lines.flatMap (· ++ ['\n'])

/-- The updated file has the lines of the file with the regions found replaced. -/
def FrameLaw (filePath contents : Text) (chunks : List UpdateFileChunk) (updated : Text) : Prop :=
  ∃ regions newLines, computeReplacements filePath (fileLines contents) chunks = .ok regions ∧
    Replaced 0 (fileLines contents) regions newLines ∧ updated = fileText newLines

/-- No region found reaches into another, and what is left as the last line is not blank. -/
def KeepsFrame (filePath contents : Text) (chunks : List UpdateFileChunk) : Prop :=
  ∃ regions, computeReplacements filePath (fileLines contents) chunks = .ok regions ∧
    Apart regions ∧ lastOf (fileLines contents) regions.reverse ≠ some []

theorem joinLines_concat_nil (lines : List Text) : joinLines (lines ++ [[]]) = fileText lines := by
  induction lines with
  | nil => rfl
  | cons line lines ih =>
    obtain ⟨next, rest, hnext⟩ := List.exists_cons_of_ne_nil (List.append_ne_nil_of_right_ne_nil lines
      (List.cons_ne_nil [] []))
    rw [List.cons_append, hnext, Js.joinLines_cons, ← hnext, ih, fileText, fileText,
      List.flatMap_cons, List.append_assoc]
    rfl

/-- The joined lines are the file of these lines, unless the last one is blank. -/
theorem joinLines_withNewlineAtEnd_iff (lines : List Text) :
    joinLines (withNewlineAtEnd lines) = fileText lines ↔ lines.getLast? ≠ some [] := by
  unfold withNewlineAtEnd
  split
  · rename_i hblank
    obtain ⟨lead, rfl⟩ := List.getLast?_eq_some_iff.1 hblank
    refine iff_of_false ?_ (not_not_intro hblank)
    rw [joinLines_concat_nil, fileText, fileText, List.flatMap_append]
    simp
  · rename_i hwritten
    exact iff_of_true (joinLines_concat_nil lines) hwritten

theorem applyUpdateHunk_iff (happlies : applyUpdateHunk filePath chunks (.ok contents) = .ok updated) :
    FrameLaw filePath contents chunks updated ↔ KeepsFrame filePath contents chunks := by
  unfold applyUpdateHunk at happlies
  dsimp only at happlies
  cases hregions : computeReplacements filePath (fileLines contents) chunks with
  | error err =>
    rw [hregions] at happlies
    cases happlies
  | ok regions =>
    rw [hregions] at happlies
    obtain rfl := Except.ok.inj happlies
    have hstop := computeReplacements_stop_le hregions
    have hlast (hapart : Apart regions) : (spliceAll regions (fileLines contents)).getLast? =
        lastOf (fileLines contents) regions.reverse := by
      rw [← Splice.getLast?_spliceAll (by rwa [List.reverse_reverse])
        (fun r hr => hstop r (List.mem_reverse.1 hr)), List.reverse_reverse]
    constructor
    · rintro ⟨regions', newLines, hregions', hreplaced, htext⟩
      obtain rfl := Except.ok.inj (hregions.symm.trans hregions')
      have hapart := hreplaced.apart
      have hnew : spliceAll regions (fileLines contents) = newLines :=
        hreplaced.spliceAll_eq [] rfl
      rw [applyReplacements_eq hapart hstop, hnew, joinLines_withNewlineAtEnd_iff, ← hnew,
        hlast hapart] at htext
      exact ⟨regions, hregions, hapart, htext⟩
    · rintro ⟨regions', hregions', hapart, hwritten⟩
      obtain rfl := Except.ok.inj (hregions.symm.trans hregions')
      have hbounds : ∀ r ∈ regions, r.stop ≤ 0 + (fileLines contents).length := by simpa using hstop
      obtain ⟨newLines, hreplaced⟩ := Splice.exists_replaced hapart
        (fun _ _ => Nat.zero_le _) hbounds
      have hnew : spliceAll regions (fileLines contents) = newLines :=
        hreplaced.spliceAll_eq [] rfl
      refine ⟨regions, newLines, hregions, hreplaced, ?_⟩
      rw [applyReplacements_eq hapart hstop, hnew, joinLines_withNewlineAtEnd_iff, ← hnew,
        hlast hapart]
      exact hwritten

/-- `a` is replaced by `c`. -/
def renamed : UpdateFileChunk := ⟨none, [['a']], [['c']], false⟩

theorem computeReplacements_renamed (contents line : Text) (h : fileLines contents = [['a'], line]) :
    computeReplacements [] (fileLines contents) [renamed] = .ok [⟨0, 1, [['c']]⟩] := by
  have hcollected : collectReplacements [] [['a'], line] [renamed] 0 = .ok [⟨0, 1, [['c']]⟩] := rfl
  rw [computeReplacements, h, hcollected, Except.map, List.mergeSort_singleton]

theorem frameLaw_renamed : FrameLaw [] "a\nb\n".toList [renamed] "c\nb\n".toList := by
  have hregions := computeReplacements_renamed "a\nb\n".toList ['b'] rfl
  refine (applyUpdateHunk_iff ?_).2 ⟨_, hregions, List.pairwise_singleton _ _, by decide⟩
  rw [applyUpdateHunk, hregions]
  rfl

/-- The blank line at the end of the file is lost. -/
theorem not_frameLaw_blank : applyUpdateHunk [] [renamed] (.ok "a\n\n".toList) = .ok "c\n".toList ∧
    ¬ FrameLaw [] "a\n\n".toList [renamed] "c\n".toList := by
  have hregions := computeReplacements_renamed "a\n\n".toList [] rfl
  constructor
  · rw [applyUpdateHunk, hregions]
    rfl
  · rintro ⟨regions, newLines, hregions', hreplaced, htext⟩
    obtain rfl := Except.ok.inj (hregions.symm.trans hregions')
    have hnew : newLines = [['c'], []] := (hreplaced.spliceAll_eq [] rfl).symm
    rw [hnew] at htext
    exact absurd htext (by decide)

end OpenClaw.Agents.ApplyPatch
