import OpenClaw.Js.Value

/-!
# Rewriting a transcript

Messages of the active branch of a session are replaced by branching off in front of the
first one and appending what follows once more, entry by entry. The session manager is
known by what its operations do to the active branch.
-/

namespace OpenClaw.Agents.TranscriptRewrite

-- ---
-- Session entries
-- ---

/-- What an entry holds. `M` are the messages, `D` the details of hooks and extensions. -/
inductive Payload (M D : Type) where
  | message (message : M)
  | compaction (summary firstKeptEntryId : String) (tokensBefore : Nat) (details : D)
      (fromHook : Option Bool)
  | thinking_level_change (thinkingLevel : String)
  | model_change (provider modelId : String)
  | custom (customType : String) (data : D)
  | custom_message (customType : String) (content : D) (display : Bool) (details : D)
  | session_info (name : Option String)
  | branch_summary (summary : String) (details : D) (fromHook : Option Bool)
  | label (targetId : String) (label : Option String)

structure SessionEntry (M D : Type) where
  id : String
  parentId : Option String
  payload : Payload M D

/-- The session manager, in a state `σ`. The appends of the single kinds are one append;
it gives the id of the new entry. -/
structure SessionManager (σ M D : Type) where
  getBranch : σ → List (SessionEntry M D)
  branch : σ → String → σ
  resetLeaf : σ → σ
  append : σ → Payload M D → σ × String
  branchWithSummary : σ → Option String → String → D → Option Bool → σ × String

variable {σ M D : Type}

-- ---
-- Appending an entry once more
-- ---

/-- An entry put later under an id replaces an earlier one. -/
abbrev RewrittenEntryIds := List (String × String)

def remapEntryId (entryId : Option String) (rewrittenEntryIds : RewrittenEntryIds) :
    Option String :=
  match entryId with
  | none => none
  | some entryId =>
    if entryId = "" then none else some ((rewrittenEntryIds.lookup entryId).getD entryId)

def appendBranchEntry (sessionManager : SessionManager σ M D) (s : σ) (entry : SessionEntry M D)
    (rewrittenEntryIds : RewrittenEntryIds) : σ × String :=
  match entry.payload with
  | .message message => sessionManager.append s (.message message)
  | .compaction summary firstKeptEntryId tokensBefore details fromHook =>
    sessionManager.append s (.compaction summary
      ((remapEntryId (some firstKeptEntryId) rewrittenEntryIds).getD firstKeptEntryId)
      tokensBefore details fromHook)
  | .thinking_level_change thinkingLevel =>
    sessionManager.append s (.thinking_level_change thinkingLevel)
  | .model_change provider modelId => sessionManager.append s (.model_change provider modelId)
  | .custom customType data => sessionManager.append s (.custom customType data)
  | .custom_message customType content display details =>
    sessionManager.append s (.custom_message customType content display details)
  | .session_info name => sessionManager.append s (.session_info (some (name.getD "")))
  | .branch_summary summary details fromHook =>
    sessionManager.branchWithSummary s (remapEntryId entry.parentId rewrittenEntryIds)
      summary details fromHook
  | .label targetId label =>
    sessionManager.append s (.label
      ((remapEntryId (some targetId) rewrittenEntryIds).getD targetId) label)

-- ---
-- The rewrite
-- ---

structure TranscriptRewriteReplacement (M : Type) where
  entryId : String
  message : M

structure TranscriptRewriteResult where
  changed : Bool
  bytesFreed : Nat
  rewrittenEntries : Nat
  reason : Option String := none
  deriving DecidableEq

/-- A later replacement of an entry replaces an earlier one. -/
def replacementsById (replacements : List (TranscriptRewriteReplacement M)) : List (String × M) :=
  ((replacements.filter fun replacement => 0 < (Js.trim replacement.entryId).length).map
    fun replacement => (replacement.entryId, replacement.message)).reverse

def replacementOf (replacementsById : List (String × M)) (entry : SessionEntry M D) : Option M :=
  match entry.payload with
  | .message _ => replacementsById.lookup entry.id
  | _ => none

/-- The indices of the entries to be replaced. -/
def matchedIndices (replacementsById : List (String × M)) (branch : List (SessionEntry M D)) :
    List Nat :=
  (List.range branch.length).filter fun index =>
    (branch[index]?).any fun entry => (replacementOf replacementsById entry).isSome

def freedBytes (estimateMessageBytes : M → Nat) (replacementsById : List (String × M))
    (entry : SessionEntry M D) : Nat :=
  match entry.payload, replacementOf replacementsById entry with
  | .message message, some replacement =>
    estimateMessageBytes message - estimateMessageBytes replacement
  | _, _ => 0

structure Rewriting (σ : Type) where
  session : σ
  rewrittenEntryIds : RewrittenEntryIds

/-- One turn of the loop that appends the suffix once more. -/
def rewriteEntry (sessionManager : SessionManager σ M D) (replacementsById : List (String × M))
    (s : Rewriting σ) (entry : SessionEntry M D) : Rewriting σ :=
  let appended := match replacementOf replacementsById entry with
    | none => appendBranchEntry sessionManager s.session entry s.rewrittenEntryIds
    | some replacement => sessionManager.append s.session (.message replacement)
  { session := appended.1
    rewrittenEntryIds := (entry.id, appended.2) :: s.rewrittenEntryIds }

/-- The leaf that the entry with this parent is appended to. -/
def branchAt (sessionManager : SessionManager σ M D) (s : σ) (parentId : Option String) : σ :=
  match parentId with
  | none => sessionManager.resetLeaf s
  | some parentId =>
    if parentId = "" then sessionManager.resetLeaf s else sessionManager.branch s parentId

def notChanged (reason : String) : TranscriptRewriteResult :=
  { changed := false, bytesFreed := 0, rewrittenEntries := 0, reason := some reason }

/-- `estimateMessageBytes` is the length of the serialized message. -/
def rewriteTranscriptEntriesInSessionManager (estimateMessageBytes : M → Nat)
    (sessionManager : SessionManager σ M D) (s : σ)
    (replacements : List (TranscriptRewriteReplacement M)) : σ × TranscriptRewriteResult :=
  let replacementsById := replacementsById replacements
  if replacementsById.length = 0 then (s, notChanged "no replacements requested")
  else
    let branch := sessionManager.getBranch s
    if branch.length = 0 then (s, notChanged "empty session")
    else
      let matchedIndices := matchedIndices replacementsById branch
      match matchedIndices with
      | [] => (s, notChanged "no matching message entries")
      | first :: _ =>
        match branch[first]? with
        | none => (s, notChanged "invalid first rewrite target")
        | some firstMatchedEntry =>
          let branched := branchAt sessionManager s firstMatchedEntry.parentId
          let rewritten := (branch.drop first).foldl
            (rewriteEntry sessionManager replacementsById)
            { session := branched, rewrittenEntryIds := [] }
          (rewritten.session,
            { changed := true
              bytesFreed := (branch.map (freedBytes estimateMessageBytes replacementsById)).sum
              rewrittenEntries := matchedIndices.length })

end OpenClaw.Agents.TranscriptRewrite

/-!
# A rewritten branch

The new branch holds a copy of every entry of the old one, at its place. What a copy
refers to is the copy of what the entry referred to.
-/

namespace OpenClaw.Agents.TranscriptRewrite

variable {σ M D : Type}

-- ---
-- Session managers
-- ---

/-- Every entry is the child of the one before it. -/
def IsPath (parentId : Option String) : List (SessionEntry M D) → Prop
  | [] => True
  | entry :: rest => entry.parentId = parentId ∧ IsPath (some entry.id) rest

/-- What the operations of a session manager do to its active branch. -/
structure SessionManager.Laws (sessionManager : SessionManager σ M D) : Prop where
  path : ∀ s, IsPath none (sessionManager.getBranch s)
  nodup : ∀ s, ((sessionManager.getBranch s).map SessionEntry.id).Nodup
  id_ne : ∀ s, ∀ entry ∈ sessionManager.getBranch s, entry.id ≠ ""
  resetLeaf : ∀ s, sessionManager.getBranch (sessionManager.resetLeaf s) = []
  branch : ∀ s front entry rest, sessionManager.getBranch s = front ++ entry :: rest →
    sessionManager.getBranch (sessionManager.branch s entry.id) = front ++ [entry]
  /-- An append makes one child of the leaf. -/
  append : ∀ s payload, ∃ entry, entry.payload = payload ∧
    entry.id = (sessionManager.append s payload).2 ∧
    sessionManager.getBranch (sessionManager.append s payload).1 =
      sessionManager.getBranch s ++ [entry]
  branchWithSummary : ∀ s parentId summary details fromHook, ∃ entry,
    entry.payload = .branch_summary summary details fromHook ∧
    entry.id = (sessionManager.branchWithSummary s parentId summary details fromHook).2 ∧
    sessionManager.getBranch
        (sessionManager.branchWithSummary s parentId summary details fromHook).1 =
      sessionManager.getBranch (branchAt sessionManager s parentId) ++ [entry]

-- ---
-- Copies
-- ---

/-- The payload with the ids it refers to replaced. -/
def Payload.mapRefs (f : String → String) : Payload M D → Payload M D
  | .compaction summary firstKeptEntryId tokensBefore details fromHook =>
    .compaction summary (f firstKeptEntryId) tokensBefore details fromHook
  | .label targetId text => .label (f targetId) text
  | payload => payload

/-- The payload an entry is to have. -/
def substituted (replacementsById : List (String × M)) (entry : SessionEntry M D) :
    Payload M D :=
  match replacementOf replacementsById entry with
  | some replacement => .message replacement
  | none => entry.payload

/-- An entry of the old branch with its copy. -/
abbrev Copy (M D : Type) := SessionEntry M D × SessionEntry M D

/-- `id'` is to the copies what `id` is to the entries they were made of. -/
def RefersAlike (copies : List (Copy M D)) (id id' : String) : Prop :=
  (∀ copy ∈ copies, copy.1.id = id → id' = copy.2.id) ∧
    ((∀ copy ∈ copies, copy.1.id ≠ id) → id' = id)

/-- The one entry is a copy of the other. A session info without a name, behind a replaced
message, gets the empty name. -/
def CopyOf (replacementsById : List (String × M)) (seen : List (Copy M D))
    (old new : SessionEntry M D) : Prop :=
  ∃ f, (∀ id, RefersAlike seen id (f id)) ∧
    (new.payload = (substituted replacementsById old).mapRefs f ∨
      old.payload = .session_info none ∧ new.payload = .session_info (some "") ∧
        ∃ copy ∈ seen, (replacementOf replacementsById copy.1).isSome = true)

/-- Each entry of the new branch is a copy of the one at its place in the old branch. -/
def Copied (replacementsById : List (String × M)) :
    List (Copy M D) → List (SessionEntry M D) → List (SessionEntry M D) → Prop
  | _, [], [] => True
  | seen, old :: olds, new :: news =>
    CopyOf replacementsById seen old new ∧ Copied replacementsById (seen ++ [(old, new)]) olds news
  | _, _, _ => False

variable {sessionManager : SessionManager σ M D} {replacementsById : List (String × M)}
  {seen : List (Copy M D)} {id id' : String}

theorem refersAlike_of_same (hsame : ∀ copy ∈ seen, copy.1 = copy.2) :
    RefersAlike seen id id := by
  refine ⟨fun copy hcopy hid => ?_, fun _ => rfl⟩
  rw [← hsame copy hcopy, hid]

theorem RefersAlike.snoc {old new : SessionEntry M D} (h : RefersAlike seen id id')
    (hne : old.id ≠ id) : RefersAlike (seen ++ [(old, new)]) id id' := by
  refine ⟨fun copy hcopy hid => ?_, fun hnone => ?_⟩
  · rcases List.mem_append.mp hcopy with hcopy | hcopy
    · exact h.1 copy hcopy hid
    · obtain rfl := List.mem_singleton.mp hcopy
      exact absurd hid hne
  · exact h.2 fun copy hcopy => hnone copy (List.mem_append_left _ hcopy)

theorem refersAlike_last {old new : SessionEntry M D} (hfresh : ∀ copy ∈ seen, copy.1.id ≠ old.id) :
    RefersAlike (seen ++ [(old, new)]) old.id new.id := by
  refine ⟨fun copy hcopy hid => ?_, fun hnone => ?_⟩
  · rcases List.mem_append.mp hcopy with hcopy | hcopy
    · exact absurd hid (hfresh copy hcopy)
    · rw [List.mem_singleton.mp hcopy]
  · exact absurd rfl (hnone (old, new) (by simp))

theorem mapRefs_same {payload : Payload M D} {f : String → String} (h : ∀ id, f id = id) :
    payload.mapRefs f = payload := by
  cases payload <;> simp [Payload.mapRefs, h]

theorem copied_append {olds olds' news news' : List (SessionEntry M D)}
    (h : Copied replacementsById seen olds news)
    (h' : Copied replacementsById (seen ++ olds.zip news) olds' news') :
    Copied replacementsById seen (olds ++ olds') (news ++ news') := by
  induction olds generalizing seen news with
  | nil =>
    cases news with
    | nil => simpa using h'
    | cons new news => exact h.elim
  | cons old olds ih =>
    cases news with
    | nil => exact h.elim
    | cons new news =>
      refine ⟨h.1, ih h.2 ?_⟩
      simpa using h'

/-- Entries that stay where they are are their own copies. -/
theorem copied_same {olds : List (SessionEntry M D)} (hsame : ∀ copy ∈ seen, copy.1 = copy.2)
    (holds : ∀ old ∈ olds, replacementOf replacementsById old = none) :
    Copied replacementsById seen olds olds := by
  induction olds generalizing seen with
  | nil => trivial
  | cons old olds ih =>
    refine ⟨⟨fun id => id, fun id => refersAlike_of_same hsame, .inl ?_⟩, ih ?_ ?_⟩
    · rw [mapRefs_same fun _ => rfl, substituted, holds old List.mem_cons_self]
    · intro copy hcopy
      rcases List.mem_append.mp hcopy with hcopy | hcopy
      · exact hsame copy hcopy
      · rw [List.mem_singleton.mp hcopy]
    · exact fun old hold => holds old (List.mem_cons_of_mem _ hold)

-- ---
-- Appending once more
-- ---

/-- What the loop knows behind the entries copied so far. -/
structure Linked (sessionManager : SessionManager σ M D) (seen : List (Copy M D))
    (s : Rewriting σ) : Prop where
  branch : sessionManager.getBranch s.session = seen.map Prod.snd
  refs : ∀ id, RefersAlike seen id ((s.rewrittenEntryIds.lookup id).getD id)
  id_ne : ∀ copy ∈ seen, copy.1.id ≠ ""

theorem Linked.remap {s : Rewriting σ} (h : Linked sessionManager seen s) (id : String) :
    RefersAlike seen id ((remapEntryId (some id) s.rewrittenEntryIds).getD id) := by
  unfold remapEntryId
  by_cases hid : id = ""
  · subst hid
    exact ⟨fun copy hcopy hid => absurd hid (h.id_ne copy hcopy), fun _ => rfl⟩
  · simpa [hid] using h.refs id

/-- Branching at the copy of the last entry leaves the branch as it is. -/
theorem Linked.branchAt (hlaws : sessionManager.Laws) {s : Rewriting σ}
    (h : Linked sessionManager seen s) :
    sessionManager.getBranch (branchAt sessionManager s.session
        (remapEntryId (seen.getLast?.map fun copy => copy.1.id) s.rewrittenEntryIds)) =
      sessionManager.getBranch s.session := by
  rcases List.eq_nil_or_concat' seen with rfl | ⟨front, last, rfl⟩
  · rw [h.branch]
    exact hlaws.resetLeaf s.session
  · have hmem : last ∈ front ++ [last] := by simp
    have hne : last.1.id ≠ "" := h.id_ne last hmem
    have hcopy := (h.refs last.1.id).1 last hmem rfl
    have hbranch : sessionManager.getBranch s.session = front.map Prod.snd ++ last.2 :: [] := by
      simpa using h.branch
    have hne' : last.2.id ≠ "" := hlaws.id_ne s.session last.2 (by simp [hbranch])
    have hremap : remapEntryId ((front ++ [last]).getLast?.map fun copy => copy.1.id)
        s.rewrittenEntryIds = some last.2.id := by
      simp [remapEntryId, hne, hcopy]
    rw [hremap, TranscriptRewrite.branchAt, if_neg hne', hlaws.branch _ _ _ _ hbranch, hbranch]

/-- The payload of a copy. -/
def CopyPayload (replacementsById : List (String × M)) (seen : List (Copy M D))
    (rewrittenEntryIds : RewrittenEntryIds) (old : SessionEntry M D) (payload : Payload M D) :
    Prop :=
  payload = (substituted replacementsById old).mapRefs
      (fun id => (remapEntryId (some id) rewrittenEntryIds).getD id) ∨
    old.payload = .session_info none ∧ payload = .session_info (some "") ∧
      ∃ copy ∈ seen, (replacementOf replacementsById copy.1).isSome = true

theorem append_copy (hlaws : sessionManager.Laws) {s : Rewriting σ} {old : SessionEntry M D}
    {payload : Payload M D} (h : Linked sessionManager seen s)
    (hpayload : CopyPayload replacementsById seen s.rewrittenEntryIds old payload) :
    ∃ new, CopyOf replacementsById seen old new ∧
      new.id = (sessionManager.append s.session payload).2 ∧
      sessionManager.getBranch (sessionManager.append s.session payload).1 =
        seen.map Prod.snd ++ [new] := by
  obtain ⟨new, hnew, hid, hbranch⟩ := hlaws.append s.session payload
  exact ⟨new, ⟨_, h.remap, by rw [hnew]; exact hpayload⟩, hid, by rw [hbranch, h.branch]⟩

/-- Appending an entry once more makes a copy of it. -/
theorem appendBranchEntry_copy (hlaws : sessionManager.Laws) {s : Rewriting σ}
    {old : SessionEntry M D} (h : Linked sessionManager seen s)
    (hparent : old.parentId = seen.getLast?.map fun copy => copy.1.id)
    (hseen : ∃ copy ∈ seen, (replacementOf replacementsById copy.1).isSome = true)
    (hold : replacementOf replacementsById old = none) :
    ∃ new, CopyOf replacementsById seen old new ∧
      new.id = (appendBranchEntry sessionManager s.session old s.rewrittenEntryIds).2 ∧
      sessionManager.getBranch
          (appendBranchEntry sessionManager s.session old s.rewrittenEntryIds).1 =
        seen.map Prod.snd ++ [new] := by
  have hsubstituted : substituted replacementsById old = old.payload := by
    rw [substituted, hold]
  unfold appendBranchEntry
  split
  case h_7 name hpayload =>
    refine append_copy hlaws h ?_
    cases name with
    | none => exact .inr ⟨hpayload, rfl, hseen⟩
    | some name => exact .inl (by rw [hsubstituted, hpayload]; rfl)
  case h_8 summary details fromHook hpayload =>
    obtain ⟨new, hnew, hid, hbranch⟩ := hlaws.branchWithSummary s.session
      (remapEntryId old.parentId s.rewrittenEntryIds) summary details fromHook
    refine ⟨new, ⟨_, h.remap, .inl ?_⟩, hid, ?_⟩
    · rw [hnew, hsubstituted, hpayload]
      rfl
    · rw [hbranch, hparent, h.branchAt hlaws, h.branch]
  all_goals
    rename_i hpayload
    exact append_copy hlaws h (.inl (by rw [hsubstituted, hpayload]; rfl))

theorem Linked.snoc {s : Rewriting σ} {old new : SessionEntry M D} {session : σ}
    (h : Linked sessionManager seen s) (hfresh : ∀ copy ∈ seen, copy.1.id ≠ old.id)
    (hne : old.id ≠ "") (hbranch : sessionManager.getBranch session = seen.map Prod.snd ++ [new]) :
    Linked sessionManager (seen ++ [(old, new)])
      { session := session, rewrittenEntryIds := (old.id, new.id) :: s.rewrittenEntryIds } := by
  refine ⟨by simpa using hbranch, fun id => ?_, fun copy hcopy => ?_⟩
  · by_cases hid : id = old.id
    · subst hid
      simpa using refersAlike_last hfresh
    · have hlookup : ((old.id, new.id) :: s.rewrittenEntryIds).lookup id =
          s.rewrittenEntryIds.lookup id := by
        rw [List.lookup_cons, beq_eq_false_iff_ne.mpr hid]
      simp only [hlookup]
      exact (h.refs id).snoc (Ne.symm hid)
  · rcases List.mem_append.mp hcopy with hcopy | hcopy
    · exact h.id_ne copy hcopy
    · rwa [List.mem_singleton.mp hcopy]

/-- One turn of the loop makes one copy. -/
theorem rewriteEntry_copy (hlaws : sessionManager.Laws) {s : Rewriting σ}
    {old : SessionEntry M D} (h : Linked sessionManager seen s)
    (hparent : old.parentId = seen.getLast?.map fun copy => copy.1.id)
    (hseen : (replacementOf replacementsById old).isSome = true ∨
      ∃ copy ∈ seen, (replacementOf replacementsById copy.1).isSome = true)
    (hfresh : ∀ copy ∈ seen, copy.1.id ≠ old.id) (hne : old.id ≠ "") :
    ∃ new, CopyOf replacementsById seen old new ∧
      Linked sessionManager (seen ++ [(old, new)])
        (rewriteEntry sessionManager replacementsById s old) := by
  cases hold : replacementOf replacementsById old with
  | some replacement =>
    have hpayload : CopyPayload replacementsById seen s.rewrittenEntryIds old
        (.message replacement) := .inl (by rw [substituted, hold]; rfl)
    obtain ⟨new, hcopy, hid, hbranch⟩ := append_copy hlaws h hpayload
    refine ⟨new, hcopy, ?_⟩
    simp only [rewriteEntry, hold]
    rw [← hid]
    exact h.snoc hfresh hne hbranch
  | none =>
    have hseen := hseen.resolve_left (by simp [hold])
    obtain ⟨new, hcopy, hid, hbranch⟩ := appendBranchEntry_copy hlaws h hparent hseen hold
    refine ⟨new, hcopy, ?_⟩
    simp only [rewriteEntry, hold]
    rw [← hid]
    exact h.snoc hfresh hne hbranch

/-- The loop makes a copy of every entry it is run on. -/
theorem rewrite_copies (hlaws : sessionManager.Laws) (olds : List (SessionEntry M D))
    {s : Rewriting σ} (h : Linked sessionManager seen s)
    (hpath : IsPath (seen.getLast?.map fun copy => copy.1.id) olds)
    (hnodup : (seen.map (fun copy => copy.1.id) ++ olds.map SessionEntry.id).Nodup)
    (hne : ∀ old ∈ olds, old.id ≠ "")
    (hseen : (∃ copy ∈ seen, (replacementOf replacementsById copy.1).isSome = true) ∨
      ∀ old ∈ olds.head?, (replacementOf replacementsById old).isSome = true) :
    ∃ news, Copied replacementsById seen olds news ∧
      sessionManager.getBranch
          (olds.foldl (rewriteEntry sessionManager replacementsById) s).session =
        seen.map Prod.snd ++ news := by
  induction olds generalizing seen s with
  | nil => exact ⟨[], trivial, by simpa using h.branch⟩
  | cons old olds ih =>
    have hsplit := List.nodup_append.mp hnodup
    have hfresh : ∀ copy ∈ seen, copy.1.id ≠ old.id := fun copy hcopy =>
      hsplit.2.2 _ (List.mem_map_of_mem hcopy) _ (by simp)
    have hold : (replacementOf replacementsById old).isSome = true ∨
        ∃ copy ∈ seen, (replacementOf replacementsById copy.1).isSome = true :=
      hseen.symm.imp_left fun hhead => hhead old rfl
    obtain ⟨new, hcopy, hlinked⟩ :=
      rewriteEntry_copy hlaws h hpath.1 hold hfresh (hne old List.mem_cons_self)
    have hreplaced : ∃ copy ∈ seen ++ [(old, new)],
        (replacementOf replacementsById copy.1).isSome = true := by
      rcases hold with hold | ⟨copy, hcopy, hreplaced⟩
      · exact ⟨(old, new), by simp, hold⟩
      · exact ⟨copy, List.mem_append_left _ hcopy, hreplaced⟩
    obtain ⟨news, hcopied, hbranch⟩ := ih hlinked (by simpa using hpath.2) (by simpa using hnodup)
      (fun old hold => hne old (List.mem_cons_of_mem _ hold)) (.inl hreplaced)
    exact ⟨new :: news, ⟨hcopy, hcopied⟩, by simpa using hbranch⟩

end OpenClaw.Agents.TranscriptRewrite
