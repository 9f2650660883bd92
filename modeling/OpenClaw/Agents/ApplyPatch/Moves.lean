import OpenClaw.Agents.ApplyPatch
import OpenClaw.Agents.ApplyPatch.Frame

/-!
# Moves

An update with a move writes its destination and then removes its source. Where the
destination leads to the source, it is the updated file that is removed.
-/

namespace OpenClaw.Agents.ApplyPatch

open Js (Text)

-- ---
-- Runs that come to their end
-- ---

theorem bind_ok_iff {x : FileM σ α} {f : α → FileM σ β} :
    (x >>= f) s = (.ok b, s') ↔ ∃ a s₁, x s = (.ok a, s₁) ∧ f a s₁ = (.ok b, s') := by
  change ExceptT.bindCont f (x s).1 (x s).2 = _ ↔ _
  obtain ⟨result, s₁⟩ := x s
  cases result with
  | ok a =>
    refine ⟨fun h => ⟨a, s₁, rfl, h⟩, ?_⟩
    rintro ⟨a', s', heq, h⟩
    cases heq
    exact h
  | error err =>
    refine ⟨fun h => ?_, ?_⟩
    · cases h
    · rintro ⟨a', s', heq, -⟩
      cases heq

theorem ask_ok_iff : ask f s = (.ok a, s') ↔ f s = .ok a ∧ s = s' := by
  rw [ask, Prod.mk.injEq]

theorem pure_ok_iff : (pure a : FileM σ α) s = (.ok b, s') ↔ a = b ∧ s = s' := by
  change (Except.ok a, s) = _ ↔ _
  rw [Prod.mk.injEq, Except.ok.injEq]

-- ---
-- File systems
-- ---

/-- What the operations do to the files. `leadsTo s q p` is that reading `q` goes
through the name that removing `p` takes away: another spelling of it, a link to it. -/
structure FileLaws (ops : PatchFileOps σ) (leadsTo : σ → Text → Text → Prop) : Prop where
  self : leadsTo s p p
  written : ops.writeFile p contents s = (.ok (), s') → ops.readFile p s' = .ok contents
  leads_write : ops.writeFile p contents s = (.ok (), s') → (leadsTo s' q r ↔ leadsTo s q r)
  leads_mkdirp : ops.mkdirp p s = (.ok (), s') → (leadsTo s' q r ↔ leadsTo s q r)
  removed : ops.remove p s = (.ok (), s') → leadsTo s q p → ∃ err, ops.readFile q s' = .error err
  kept : ops.remove p s = (.ok (), s') → ¬ leadsTo s q p → ops.readFile q s' = ops.readFile q s

section
variable (ops : PatchFileOps σ) (leadsTo : σ → Text → Text → Prop)

/-- The updated contents are where the update says, and the source of a move is gone
if it is another file. -/
def Kept (hunk : Hunk) (s s' : σ) : Prop :=
  match hunk with
  | .update path movePath chunks =>
    ∀ target updated, ops.resolvePatchPath path .strict s = .ok target →
      applyUpdateHunk target.resolved chunks (ops.readFile target.resolved s) = .ok updated →
      match movePath with
      | some (c :: movePath) =>
        ∀ moveTarget, ops.resolvePatchPath (c :: movePath) .strict s = .ok moveTarget →
          ops.readFile moveTarget.resolved s' = .ok updated ∧
            (¬ leadsTo s moveTarget.resolved target.resolved →
              ∃ err, ops.readFile target.resolved s' = .error err)
      | _ => ops.readFile target.resolved s' = .ok updated
  | _ => True

/-- The destination of a move does not lead to its source. -/
def MovesAway (hunk : Hunk) (s : σ) : Prop :=
  match hunk with
  | .update path (some (c :: movePath)) _ =>
    ∀ target moveTarget, ops.resolvePatchPath path .strict s = .ok target →
      ops.resolvePatchPath (c :: movePath) .strict s = .ok moveTarget →
      ¬ leadsTo s moveTarget.resolved target.resolved
  | _ => True

end

section
variable {ops : PatchFileOps σ} {leadsTo : σ → Text → Text → Prop}

theorem leads_ensureDir (laws : FileLaws ops leadsTo)
    (h : ensureDir ops filePath s = (.ok (), s')) : leadsTo s' q r ↔ leadsTo s q r := by
  unfold ensureDir at h
  split at h
  · obtain ⟨-, rfl⟩ := pure_ok_iff.1 h
    exact Iff.rfl
  · exact laws.leads_mkdirp h

theorem updated_kept (laws : FileLaws ops leadsTo)
    (hmove : ∀ c rest, movePath ≠ some (c :: rest))
    (happlied : applyHunk ops (.update path movePath chunks) s = (.ok entry, s')) :
    Kept ops leadsTo (.update path movePath chunks) s s' := by
  have hkept {target updated} (htarget : ops.resolvePatchPath path .strict s = .ok target)
      (hupdated : applyUpdateHunk target.resolved chunks (ops.readFile target.resolved s) =
        .ok updated) : ops.readFile target.resolved s' = .ok updated := by
    rw [applyHunk.eq_4 ops path movePath chunks fun c rest => hmove c rest] at happlied
    simp only [bind_ok_iff, ask_ok_iff, pure_ok_iff] at happlied
    obtain ⟨target', _, ⟨htarget', rfl⟩, updated', _, ⟨hupdated', rfl⟩, _, s₁, hwrite, -, rfl⟩ :=
      happlied
    obtain rfl := Except.ok.inj (htarget.symm.trans htarget')
    obtain rfl := Except.ok.inj (hupdated.symm.trans hupdated')
    exact laws.written hwrite
  cases movePath with
  | none => exact fun _ _ => hkept
  | some movePath =>
    cases movePath with
    | nil => exact fun _ _ => hkept
    | cons c rest => exact absurd rfl (hmove c rest)

theorem moved_kept_iff (laws : FileLaws ops leadsTo)
    (happlied : applyHunk ops (.update path (some (c :: movePath)) chunks) s = (.ok entry, s')) :
    Kept ops leadsTo (.update path (some (c :: movePath)) chunks) s s' ↔
      MovesAway ops leadsTo (.update path (some (c :: movePath)) chunks) s := by
  simp only [applyHunk, bind_ok_iff, ask_ok_iff, pure_ok_iff] at happlied
  obtain ⟨target, _, ⟨htarget, rfl⟩, updated, _, ⟨hupdated, rfl⟩, moveTarget, _,
    ⟨hmoveTarget, rfl⟩, _, s₁, hdir, _, s₂, hwrite, _, s₃, hremove, -, rfl⟩ := happlied
  have hleads {q r : Text} : leadsTo s₂ q r ↔ leadsTo s q r :=
    (laws.leads_write hwrite).trans (leads_ensureDir laws hdir)
  constructor
  · intro hkept target' moveTarget' htarget' hmoveTarget' hsame
    obtain rfl := Except.ok.inj (htarget.symm.trans htarget')
    obtain rfl := Except.ok.inj (hmoveTarget.symm.trans hmoveTarget')
    have hread := (hkept target updated htarget hupdated moveTarget hmoveTarget).1
    obtain ⟨err, hlost⟩ := laws.removed hremove (hleads.2 hsame)
    cases hread.symm.trans hlost
  · intro haway target' updated' htarget' hupdated' moveTarget' hmoveTarget'
    obtain rfl := Except.ok.inj (htarget.symm.trans htarget')
    obtain rfl := Except.ok.inj (hupdated.symm.trans hupdated')
    obtain rfl := Except.ok.inj (hmoveTarget.symm.trans hmoveTarget')
    have hother := haway target moveTarget htarget hmoveTarget
    refine ⟨?_, fun _ => laws.removed hremove laws.self⟩
    rw [laws.kept hremove (mt hleads.1 hother)]
    exact laws.written hwrite

theorem applyHunk_kept_iff (laws : FileLaws ops leadsTo)
    (happlied : applyHunk ops hunk s = (.ok entry, s')) :
    Kept ops leadsTo hunk s s' ↔ MovesAway ops leadsTo hunk s := by
  cases hunk with
  | add path contents => exact Iff.rfl
  | delete path => exact Iff.rfl
  | update path movePath chunks =>
    cases movePath with
    | none => exact iff_of_true (updated_kept laws (by simp) happlied) trivial
    | some movePath =>
      cases movePath with
      | nil => exact iff_of_true (updated_kept laws (by simp) happlied) trivial
      | cons c movePath => exact moved_kept_iff laws happlied

end

-- ---
-- Runs
-- ---

/-- In the run over the hunks from position `n` and state `s` on, a hunk takes the
files from the first of the last two states to the second. -/
inductive Applied (ops : PatchFileOps σ) (aborted : Nat → Bool) :
    List Hunk → Nat → σ → Hunk → σ → σ → Prop
  | here : aborted n = false → applyHunk ops hunk s = (.ok entry, s') →
      Applied ops aborted (hunk :: hunks) n s hunk s s'
  | later : aborted n = false → applyHunk ops hunk s = (.ok entry, s₁) →
      Applied ops aborted hunks (n + 1) s₁ later s₂ s₃ →
      Applied ops aborted (hunk :: hunks) n s later s₂ s₃

/-- In the run of the patch, no applied update loses the contents of its file. -/
def KeepsContents (ops : PatchFileOps σ) (leadsTo : σ → Text → Text → Prop) (aborted : Nat → Bool)
    (input : Text) (s : σ) : Prop :=
  ∀ hunks patch, parsePatchText input = some (.ok (hunks, patch)) →
    ∀ hunk s₁ s₂, Applied ops aborted hunks 0 s hunk s₁ s₂ → Kept ops leadsTo hunk s₁ s₂

/-- In the run of the patch, the destination of an applied move is another file. -/
def AllMoveAway (ops : PatchFileOps σ) (leadsTo : σ → Text → Text → Prop) (aborted : Nat → Bool)
    (input : Text) (s : σ) : Prop :=
  ∀ hunks patch, parsePatchText input = some (.ok (hunks, patch)) →
    ∀ hunk s₁ s₂, Applied ops aborted hunks 0 s hunk s₁ s₂ → MovesAway ops leadsTo hunk s₁

section
variable {ops : PatchFileOps σ} {leadsTo : σ → Text → Text → Prop} {aborted : Nat → Bool}

theorem Applied.kept_iff (laws : FileLaws ops leadsTo)
    (happlied : Applied ops aborted hunks n s hunk s₁ s₂) :
    Kept ops leadsTo hunk s₁ s₂ ↔ MovesAway ops leadsTo hunk s₁ := by
  induction happlied with
  | here _ h => exact applyHunk_kept_iff laws h
  | later _ _ _ ih => exact ih

theorem keepsContents_iff (laws : FileLaws ops leadsTo) (input : Text) (s : σ) :
    KeepsContents ops leadsTo aborted input s ↔ AllMoveAway ops leadsTo aborted input s := by
  constructor
  · intro hkeeps hunks patch hparsed hunk s₁ s₂ happlied
    exact (happlied.kept_iff laws).1 (hkeeps hunks patch hparsed hunk s₁ s₂ happlied)
  · intro haway hunks patch hparsed hunk s₁ s₂ happlied
    exact (happlied.kept_iff laws).2 (haway hunks patch hparsed hunk s₁ s₂ happlied)

end

-- ---
-- Named files
-- ---

/-- Files by their names, each path naming its own. -/
def namedFiles : PatchFileOps (Text → Option Text) where
  resolvePatchPath path _ _ := .ok ⟨path, path⟩
  readFile path files := (files path).elim (.error "ENOENT".toList) .ok
  writeFile path contents := fun files => (.ok (), Function.update files path (some contents))
  remove path := fun files =>
    if (files path).isSome then (.ok (), Function.update files path none)
    else (.error "ENOENT".toList, files)
  mkdirp _ := pure ()
  dirname _ := ".".toList

theorem fileLaws_namedFiles : FileLaws namedFiles fun _ q p => q = p where
  self := rfl
  written := by
    intro p contents s s' h
    obtain rfl : Function.update s p (some contents) = s' := congrArg Prod.snd h
    show (Function.update s p (some contents) p).elim _ _ = _
    rw [Function.update_self]
    rfl
  leads_write _ := Iff.rfl
  leads_mkdirp _ := Iff.rfl
  removed := by
    rintro p s s' q h rfl
    simp only [namedFiles] at h
    split at h
    · obtain rfl : Function.update s q none = s' := congrArg Prod.snd h
      refine ⟨"ENOENT".toList, ?_⟩
      show (Function.update s q none q).elim _ _ = _
      rw [Function.update_self]
      rfl
    · cases congrArg Prod.fst h
  kept := by
    intro p s s' q h hne
    simp only [namedFiles] at h
    split at h
    · obtain rfl : Function.update s p none = s' := congrArg Prod.snd h
      show (Function.update s p none q).elim _ _ = (s q).elim _ _
      rw [Function.update_of_ne hne]
    · cases congrArg Prod.fst h

/-- A patch that turns the line `x` of the file `a` into `y` and moves the file. -/
def movePatch (dest : String) : Text :=
  ("*** Begin Patch\n*** Update File: a\n*** Move to: " ++ dest ++ "\n@@\n-x\n+y\n*** End Patch").toList

def oneFile : Text → Option Text := Function.update (fun _ => none) ['a'] (some ['x'])

def renameLine : UpdateFileChunk := ⟨none, [['x']], [['y']], false⟩

def moveHunk (dest : Text) : Hunk := .update ['a'] (some dest) [renameLine]

theorem parse_of_hunks (input : Text) (hunks : List Hunk)
    (h : (parsePatchText input).map (·.map (·.1)) = some (.ok hunks)) :
    ∃ patch, parsePatchText input = some (.ok (hunks, patch)) := by
  obtain ⟨parsed, hparsed, hhunks⟩ := Option.map_eq_some_iff.1 h
  obtain ⟨⟨hunks', patch⟩, rfl, rfl⟩ := exceptMap_eq_ok hhunks
  exact ⟨patch, hparsed⟩

theorem keepsContents_other :
    KeepsContents namedFiles (fun _ q p => q = p) (fun _ => false) (movePatch "b") oneFile := by
  refine (keepsContents_iff fileLaws_namedFiles _ _).2 ?_
  intro hunks patch hparsed hunk s₁ s₂ happlied
  obtain ⟨patch', hmove⟩ := parse_of_hunks (movePatch "b") [moveHunk ['b']] (by decide)
  cases hparsed.symm.trans hmove
  cases happlied with
  | here _ _ =>
    rintro target moveTarget htarget hmoveTarget
    obtain rfl := Except.ok.inj htarget
    obtain rfl := Except.ok.inj hmoveTarget
    decide
  | later _ _ hnone => cases hnone

theorem applyUpdateHunk_renameLine :
    applyUpdateHunk ['a'] [renameLine] (.ok ['x']) = .ok "y\n".toList := by
  have hcollected : collectReplacements ['a'] [['x']] [renameLine] 0 = .ok [⟨0, 1, [['y']]⟩] := rfl
  have hregions : computeReplacements ['a'] [['x']] [renameLine] = .ok [⟨0, 1, [['y']]⟩] := by
    rw [computeReplacements, hcollected, Except.map, List.mergeSort_singleton]
  have hlines : fileLines ['x'] = [['x']] := rfl
  rw [applyUpdateHunk, hlines, hregions]
  rfl

def noFile : Text → Option Text :=
  Function.update (Function.update oneFile ['a'] (some "y\n".toList)) ['a'] none

theorem applyHunk_moveHunk :
    applyHunk namedFiles (moveHunk ['a']) oneFile = (.ok (.modified, ['a']), noFile) := by
  refine bind_ok_iff.2 ⟨⟨['a'], ['a']⟩, oneFile, rfl, bind_ok_iff.2 ⟨"y\n".toList, oneFile, ?_, ?_⟩⟩
  · exact ask_ok_iff.2 ⟨applyUpdateHunk_renameLine, rfl⟩
  · rfl

/-- Moved to its own path, the file is gone. -/
theorem not_keepsContents_same :
    ¬ KeepsContents namedFiles (fun _ q p => q = p) (fun _ => false) (movePatch "a") oneFile := by
  intro hkeeps
  obtain ⟨patch, hparsed⟩ := parse_of_hunks (movePatch "a") [moveHunk ['a']] (by decide)
  have hkept := hkeeps _ _ hparsed _ _ _ (.here rfl applyHunk_moveHunk)
  have hread := (hkept ⟨['a'], ['a']⟩ _ rfl applyUpdateHunk_renameLine ⟨['a'], ['a']⟩ rfl).1
  have hgone : namedFiles.readFile ['a'] noFile = .error "ENOENT".toList := rfl
  cases hgone.symm.trans hread

end OpenClaw.Agents.ApplyPatch
