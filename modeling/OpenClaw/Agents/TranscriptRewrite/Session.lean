import Mathlib.Data.List.Forall2
import Mathlib.Data.List.Nodup
import OpenClaw.Agents.TranscriptRewrite

/-!
# The rewrite of a branch

Without a match nothing changes. Otherwise the branch up to the first match stays, and
what follows is copied.
-/

namespace OpenClaw.Agents.TranscriptRewrite

variable {σ M D : Type} {sessionManager : SessionManager σ M D}
  {replacements : List (TranscriptRewriteReplacement M)}

-- ---
-- The first match
-- ---

/-- A replacement matches a message of the branch. -/
def Matches (replacementsById : List (String × M)) (branch : List (SessionEntry M D)) : Prop :=
  ∃ entry ∈ branch, (replacementOf replacementsById entry).isSome = true

theorem matchedIndices_of_not_matches {replacementsById : List (String × M)}
    {branch : List (SessionEntry M D)} (h : ¬ Matches replacementsById branch) :
    matchedIndices replacementsById branch = [] := by
  refine List.filter_eq_nil_iff.mpr fun index _ hmatch => h ?_
  obtain ⟨entry, hentry, hreplaced⟩ := (Option.any_eq_true _ _).mp hmatch
  exact ⟨entry, List.mem_of_getElem? hentry, hreplaced⟩

theorem matchedIndices_of_matches {replacementsById : List (String × M)}
    {branch : List (SessionEntry M D)} (h : Matches replacementsById branch) :
    ∃ front old rest indices, branch = front ++ old :: rest ∧
      matchedIndices replacementsById branch = front.length :: indices ∧
      (replacementOf replacementsById old).isSome = true ∧
      ∀ entry ∈ front, replacementOf replacementsById entry = none := by
  cases hindices : matchedIndices replacementsById branch with
  | nil =>
    obtain ⟨entry, hentry, hreplaced⟩ := h
    obtain ⟨index, hindex⟩ := List.mem_iff_getElem?.mp hentry
    have hlt := (List.getElem?_eq_some_iff.mp hindex).1
    have := List.filter_eq_nil_iff.mp hindices index (List.mem_range.mpr hlt)
    simp [hindex, hreplaced] at this
  | cons first indices =>
    have hhead : (matchedIndices replacementsById branch).head? = some first := by
      rw [hindices]
      rfl
    rw [matchedIndices, List.head?_filter, List.find?_range_eq_some] at hhead
    obtain ⟨hmatch, hmem, hbefore⟩ := hhead
    obtain ⟨old, hold, hreplaced⟩ := (Option.any_eq_true _ _).mp hmatch
    have hlt := List.mem_range.mp hmem
    refine ⟨branch.take first, old, branch.drop (first + 1), indices, ?_, ?_, hreplaced, ?_⟩
    · have hget : branch[first] = old := (List.getElem?_eq_some_iff.mp hold).2
      rw [← hget, ← List.drop_eq_getElem_cons hlt, List.take_append_drop]
    · rw [List.length_take_of_le (Nat.le_of_lt hlt)]
    · intro entry hentry
      obtain ⟨index, hindex⟩ := List.mem_iff_getElem?.mp hentry
      rw [List.getElem?_take] at hindex
      split at hindex
      · rename_i hless
        simpa [hindex] using hbefore index hless
      · cases hindex

theorem replacementOf_nil (entry : SessionEntry M D) :
    replacementOf ([] : List (String × M)) entry = none := by
  unfold replacementOf
  split <;> rfl

-- ---
-- The rewrite
-- ---

/-- The rest of a branch hangs below its front. -/
theorem isPath_append {parentId : Option String} {front rest : List (SessionEntry M D)}
    (h : IsPath parentId (front ++ rest)) :
    IsPath ((front.getLast?.map SessionEntry.id).or parentId) rest := by
  induction front generalizing parentId with
  | nil => exact h
  | cons entry front ih =>
    have := ih h.2
    cases hlast : front.getLast? with
    | none => simpa [List.getLast?_cons, hlast] using this
    | some last => simpa [List.getLast?_cons, hlast] using this

/-- Branching in front of the first match leaves the front of the branch. -/
theorem branchAt_front (hlaws : sessionManager.Laws) {s : σ} {front rest : List (SessionEntry M D)}
    (hbranch : sessionManager.getBranch s = front ++ rest) :
    sessionManager.getBranch (branchAt sessionManager s (front.getLast?.map SessionEntry.id)) =
      front := by
  rcases List.eq_nil_or_concat' front with rfl | ⟨front, last, rfl⟩
  · exact hlaws.resetLeaf s
  · have hne : last.id ≠ "" := hlaws.id_ne s last (by simp [hbranch])
    have hsplit : sessionManager.getBranch s = front ++ last :: rest := by simpa using hbranch
    rw [List.getLast?_concat, Option.map_some, branchAt, if_neg hne, hlaws.branch _ _ _ _ hsplit]

/-- What was not rewritten up to the first match stays as it is. -/
def FrontKept (replacementsById : List (String × M)) (old new : List (SessionEntry M D)) : Prop :=
  ∀ front rest, old = front ++ rest →
    (∀ entry ∈ front, replacementOf replacementsById entry = none) → ∃ rest', new = front ++ rest'

theorem rewrite_of_not_matches {s : σ} (estimateMessageBytes : M → Nat)
    (h : ¬ Matches (replacementsById replacements) (sessionManager.getBranch s)) :
    ∃ reason, rewriteTranscriptEntriesInSessionManager estimateMessageBytes sessionManager s
      replacements = (s, notChanged reason) := by
  unfold rewriteTranscriptEntriesInSessionManager
  simp only [matchedIndices_of_not_matches h]
  split
  · exact ⟨_, rfl⟩
  · split
    · exact ⟨_, rfl⟩
    · exact ⟨_, rfl⟩

theorem rewrite_of_matches {s : σ} (estimateMessageBytes : M → Nat)
    {front rest : List (SessionEntry M D)} {old : SessionEntry M D} {indices : List Nat}
    (hbranch : sessionManager.getBranch s = front ++ old :: rest)
    (hindices : matchedIndices (replacementsById replacements) (sessionManager.getBranch s) =
      front.length :: indices)
    (hold : (replacementOf (replacementsById replacements) old).isSome = true) :
    let rewritten := rewriteTranscriptEntriesInSessionManager estimateMessageBytes sessionManager s
      replacements
    rewritten.2.changed = true ∧
      rewritten.1 = ((old :: rest).foldl
        (rewriteEntry sessionManager (replacementsById replacements))
        { session := branchAt sessionManager s old.parentId, rewrittenEntryIds := [] }).session := by
  have hsome : (replacementsById replacements).length ≠ 0 := by
    intro hnil
    rw [List.length_eq_zero_iff.mp hnil, replacementOf_nil] at hold
    cases hold
  have hne : (sessionManager.getBranch s).length ≠ 0 := by simp [hbranch]
  have hget : (sessionManager.getBranch s)[front.length]? = some old := by simp [hbranch]
  have hdrop : (sessionManager.getBranch s).drop front.length = old :: rest := by simp [hbranch]
  simp only [rewriteTranscriptEntriesInSessionManager, if_neg hsome, if_neg hne, hindices, hget,
    hdrop, and_self]

theorem zip_self (l : List α) : l.zip l = l.map fun a => (a, a) := by
  induction l with
  | nil => rfl
  | cons a l ih => rw [List.zip_cons_cons, ih, List.map_cons]

theorem rewritten_copied (hlaws : sessionManager.Laws) {s : σ} {byId : List (String × M)}
    {front rest : List (SessionEntry M D)} {old : SessionEntry M D}
    (hbranch : sessionManager.getBranch s = front ++ old :: rest)
    (hold : (replacementOf byId old).isSome = true)
    (hfront : ∀ entry ∈ front, replacementOf byId entry = none) :
    ∃ news, Copied byId [] (front ++ old :: rest) (front ++ news) ∧
      sessionManager.getBranch ((old :: rest).foldl (rewriteEntry sessionManager byId)
        { session := branchAt sessionManager s old.parentId, rewrittenEntryIds := [] }).session =
        front ++ news := by
  have hpath := isPath_append (hbranch ▸ hlaws.path s)
  rw [Option.or_none] at hpath
  have hids := hlaws.nodup s
  rw [hbranch, List.map_append] at hids
  have hne : ∀ entry ∈ front ++ old :: rest, entry.id ≠ "" := hbranch ▸ hlaws.id_ne s
  have hsame : ∀ copy ∈ front.map fun entry => (entry, entry), copy.1 = copy.2 := by
    intro copy hcopy
    obtain ⟨entry, -, rfl⟩ := List.mem_map.mp hcopy
    rfl
  have hlinked : Linked sessionManager (front.map fun entry => (entry, entry))
      { session := branchAt sessionManager s old.parentId, rewrittenEntryIds := [] } := by
    refine ⟨?_, fun id => refersAlike_of_same hsame, fun copy hcopy => ?_⟩
    · rw [hpath.1, branchAt_front hlaws hbranch]
      simp [Function.comp_def]
    · obtain ⟨entry, hentry, rfl⟩ := List.mem_map.mp hcopy
      exact hne entry (List.mem_append_left _ hentry)
  have hhead : (∃ copy ∈ front.map fun entry => (entry, entry),
      (replacementOf byId copy.1).isSome = true) ∨
      ∀ head ∈ (old :: rest).head?, (replacementOf byId head).isSome = true :=
    .inr (by simpa using hold)
  obtain ⟨news, hcopied, hnews⟩ := rewrite_copies hlaws (old :: rest) hlinked
    (by simpa [Function.comp_def] using hpath) (by simpa [Function.comp_def] using hids)
    (fun entry hentry => hne entry (List.mem_append_right _ hentry)) hhead
  refine ⟨news, copied_append (copied_same (by simp) hfront) ?_, ?_⟩
  · rw [List.nil_append, zip_self]
    exact hcopied
  · simpa [Function.comp_def] using hnews
/-- The rewrite leaves the session as it is where no replacement matches. Otherwise the
new active branch is a copy of the old one with the messages replaced. -/
theorem rewriteTranscriptEntriesInSessionManager_spec (hlaws : sessionManager.Laws)
    (estimateMessageBytes : M → Nat) (s : σ)
    (replacements : List (TranscriptRewriteReplacement M)) :
    let rewritten := rewriteTranscriptEntriesInSessionManager estimateMessageBytes sessionManager s
      replacements
    let old := sessionManager.getBranch s
    let new := sessionManager.getBranch rewritten.1
    (¬ Matches (replacementsById replacements) old →
        rewritten.1 = s ∧ rewritten.2.changed = false) ∧
      (Matches (replacementsById replacements) old → rewritten.2.changed = true ∧
        Copied (replacementsById replacements) [] old new ∧
        FrontKept (replacementsById replacements) old new) := by
  intro rewritten old new
  constructor
  · intro hnone
    obtain ⟨reason, heq⟩ := rewrite_of_not_matches estimateMessageBytes hnone
    simp only [rewritten, heq, notChanged, and_self]
  · intro hmatch
    obtain ⟨front, first, rest, indices, hbranch, hindices, hfirst, hfront⟩ :=
      matchedIndices_of_matches hmatch
    obtain ⟨hchanged, hsession⟩ := rewrite_of_matches estimateMessageBytes hbranch hindices hfirst
    obtain ⟨news, hcopied, hnews⟩ := rewritten_copied hlaws hbranch hfirst hfront
    have hnew : new = front ++ news := (congrArg sessionManager.getBranch hsession).trans hnews
    refine ⟨hchanged, ?_, ?_⟩
    · rw [hnew]
      exact hbranch ▸ hcopied
    · intro front' rest' hsplit hnone
      rw [hnew]
      rcases List.append_eq_append_iff.mp (hsplit.symm.trans hbranch) with
        ⟨between, rfl, -⟩ | ⟨between, rfl, heq⟩
      · exact ⟨between ++ news, List.append_assoc _ _ _⟩
      · cases between with
        | nil => exact ⟨news, by rw [List.append_nil]⟩
        | cons entry between =>
          obtain rfl := (List.cons.inj heq).1
          have := hnone first (by simp)
          rw [this] at hfirst
          cases hfirst

end OpenClaw.Agents.TranscriptRewrite

/-!
# A session of its own

A session manager that knows its active branch and gives every entry a new id. Rewritten
there, a session info without a name gets the empty one, and a label in front of what it
points at keeps its target.
-/

namespace OpenClaw.Agents.TranscriptRewrite

variable {M D : Type}

-- ---
-- Ids
-- ---

def entryId (n : Nat) : String := String.ofList (List.replicate (n + 1) 'e')

theorem entryId_ne (n : Nat) : entryId n ≠ "" := by
  intro h
  have := congrArg (fun id => id.toList.length) h
  simp [entryId] at this

theorem entryId_inj (h : entryId n = entryId n') : n = n' := by
  have := congrArg (fun id => id.toList.length) h
  simpa [entryId] using this

-- ---
-- Branches
-- ---

/-- The entries up to the one with the id. -/
def upTo (id : String) : List (SessionEntry M D) → List (SessionEntry M D)
  | [] => []
  | entry :: rest => if entry.id = id then [entry] else entry :: upTo id rest

theorem exists_upTo (id : String) (entries : List (SessionEntry M D)) :
    ∃ rest, entries = upTo id entries ++ rest := by
  induction entries with
  | nil => exact ⟨[], rfl⟩
  | cons entry entries ih =>
    obtain ⟨rest, hrest⟩ := ih
    by_cases h : entry.id = id
    · exact ⟨entries, by simp [upTo, h]⟩
    · exact ⟨rest, by rw [upTo, if_neg h, List.cons_append, ← hrest]⟩

theorem upTo_eq {front rest : List (SessionEntry M D)} {entry : SessionEntry M D}
    (h : ((front ++ entry :: rest).map SessionEntry.id).Nodup) :
    upTo entry.id (front ++ entry :: rest) = front ++ [entry] := by
  induction front with
  | nil => simp [upTo]
  | cons e front ih =>
    rw [List.cons_append, List.map_cons, List.nodup_cons] at h
    have hne : e.id ≠ entry.id := fun heq => h.1 (by simp [heq])
    rw [List.cons_append, upTo, if_neg hne, ih h.2, List.cons_append]

theorem IsPath.left {parentId : Option String} {front rest : List (SessionEntry M D)}
    (h : IsPath parentId (front ++ rest)) : IsPath parentId front := by
  induction front generalizing parentId with
  | nil => trivial
  | cons entry front ih => exact ⟨h.1, ih h.2⟩

theorem IsPath.snoc {parentId : Option String} {entries : List (SessionEntry M D)}
    {entry : SessionEntry M D} (h : IsPath parentId entries)
    (hentry : entry.parentId = (entries.getLast?.map SessionEntry.id).or parentId) :
    IsPath parentId (entries ++ [entry]) := by
  induction entries generalizing parentId with
  | nil => exact ⟨hentry, trivial⟩
  | cons e entries ih =>
    refine ⟨h.1, ih h.2 ?_⟩
    rw [hentry, List.getLast?_cons]
    cases entries.getLast? with
    | none => rfl
    | some last => rfl

-- ---
-- The session
-- ---

/-- The active branch, and the number of the next id. -/
structure Session (M D : Type) where
  entries : List (SessionEntry M D)
  next : Nat
  path : IsPath none entries
  nodup : (entries.map SessionEntry.id).Nodup
  known : ∀ entry ∈ entries, ∃ n < next, entry.id = entryId n

namespace Session

def empty : Session M D :=
  { entries := [], next := 0, path := trivial, nodup := List.nodup_nil, known := by simp }

def resetLeaf (s : Session M D) : Session M D :=
  { empty with next := s.next, known := by simp [empty] }

def branch (s : Session M D) (id : String) : Session M D where
  entries := upTo id s.entries
  next := s.next
  path := by
    obtain ⟨rest, hrest⟩ := exists_upTo id s.entries
    exact (hrest ▸ s.path : IsPath none (upTo id s.entries ++ rest)).left
  nodup := by
    obtain ⟨rest, hrest⟩ := exists_upTo id s.entries
    have := s.nodup
    rw [hrest, List.map_append] at this
    exact (List.nodup_append.mp this).1
  known := by
    obtain ⟨rest, hrest⟩ := exists_upTo id s.entries
    intro entry hentry
    exact s.known entry (hrest ▸ List.mem_append_left _ hentry)

/-- The entry that an append makes. -/
def child (s : Session M D) (payload : Payload M D) : SessionEntry M D :=
  { id := entryId s.next, parentId := s.entries.getLast?.map SessionEntry.id, payload }

def append (s : Session M D) (payload : Payload M D) : Session M D where
  entries := s.entries ++ [s.child payload]
  next := s.next + 1
  path := s.path.snoc (by rw [Option.or_none]; rfl)
  nodup := by
    rw [List.map_append]
    refine List.Nodup.append s.nodup (List.nodup_singleton _) ?_
    intro id hid hid'
    obtain ⟨entry, hentry, rfl⟩ := List.mem_map.mp hid
    obtain ⟨n, hn, heq⟩ := s.known entry hentry
    have : entryId n = entryId s.next := heq.symm.trans (List.mem_singleton.mp hid')
    exact Nat.ne_of_lt hn (entryId_inj this)
  known := by
    intro entry hentry
    rcases List.mem_append.mp hentry with hentry | hentry
    · obtain ⟨n, hn, heq⟩ := s.known entry hentry
      exact ⟨n, Nat.lt_succ_of_lt hn, heq⟩
    · obtain rfl := List.mem_singleton.mp hentry
      exact ⟨s.next, Nat.lt_succ_self _, rfl⟩

def manager : SessionManager (Session M D) M D where
  getBranch := entries
  branch := branch
  resetLeaf := resetLeaf
  append s payload := (s.append payload, entryId s.next)
  branchWithSummary s parentId summary details fromHook :=
    let branched := match parentId with
      | none => s.resetLeaf
      | some parentId => if parentId = "" then s.resetLeaf else s.branch parentId
    (branched.append (.branch_summary summary details fromHook), entryId branched.next)

theorem manager_laws : (manager : SessionManager (Session M D) M D).Laws where
  path := path
  nodup := nodup
  id_ne s entry hentry := by
    obtain ⟨n, -, heq⟩ := s.known entry hentry
    rw [heq]
    exact entryId_ne n
  resetLeaf _ := rfl
  branch s front entry rest h := by
    have h : s.entries = front ++ entry :: rest := h
    have hnodup := s.nodup
    rw [h] at hnodup
    show upTo entry.id s.entries = front ++ [entry]
    rw [h, upTo_eq hnodup]
  append s payload := ⟨s.child payload, rfl, rfl, rfl⟩
  branchWithSummary s parentId summary details fromHook := ⟨_, rfl, rfl, rfl⟩

end Session

-- ---
-- Rewrites
-- ---

/-- What is asked of a rewrite without any exception. -/
def RewritesExactly (estimateMessageBytes : M → Nat) (s : Session M D)
    (replacements : List (TranscriptRewriteReplacement M)) : Prop :=
  let rewritten := rewriteTranscriptEntriesInSessionManager estimateMessageBytes Session.manager s
    replacements
  (¬ Matches (replacementsById replacements) s.entries → rewritten.1 = s) ∧
    (Matches (replacementsById replacements) s.entries →
      ∃ f, (∀ id, RefersAlike (s.entries.zip rewritten.1.entries) id (f id)) ∧
        List.Forall₂ (fun old new =>
          new.payload = (substituted (replacementsById replacements) old).mapRefs f)
          s.entries rewritten.1.entries)

/-- A message and a session info without a name. -/
def unnamed : Session String Unit :=
  (Session.empty.append (.message "a")).append (.session_info none)

/-- A message, and a label in front of the message it points at. -/
def labelAhead : Session String Unit :=
  ((Session.empty.append (.message "a")).append (.label "eee" none)).append (.message "c")

/-- The first message is to be replaced. -/
def replaceFirst : List (TranscriptRewriteReplacement String) :=
  [{ entryId := "e", message := "b" }]

theorem rewriteTranscriptEntriesInSessionManager_spec_unnamed :
    let rewritten := rewriteTranscriptEntriesInSessionManager String.length Session.manager unnamed
      replaceFirst
    let old := Session.manager.getBranch unnamed
    let new := Session.manager.getBranch rewritten.1
    (¬ Matches (replacementsById replaceFirst) old →
        rewritten.1 = unnamed ∧ rewritten.2.changed = false) ∧
      (Matches (replacementsById replaceFirst) old → rewritten.2.changed = true ∧
        Copied (replacementsById replaceFirst) [] old new ∧
        FrontKept (replacementsById replaceFirst) old new) :=
  rewriteTranscriptEntriesInSessionManager_spec Session.manager_laws String.length unnamed
    replaceFirst

/-- A rewrite names a session info, and does not follow a reference ahead. -/
theorem not_rewritesExactly :
    ¬ RewritesExactly String.length unnamed replaceFirst ∧
      ¬ RewritesExactly String.length labelAhead replaceFirst := by
  constructor
  · rintro ⟨-, h⟩
    obtain ⟨f, -, hcopies⟩ := h ⟨_, List.mem_cons_self, by decide⟩
    cases hcopies with
    | cons _ hcopies =>
      cases hcopies with
      | cons hinfo _ => cases hinfo
  · rintro ⟨-, h⟩
    obtain ⟨f, hrefs, hcopies⟩ := h ⟨_, List.mem_cons_self, by decide⟩
    have hahead := (hrefs "eee").1 _ (List.mem_of_getLast? (by rfl)) (by decide)
    cases hcopies with
    | cons _ hcopies =>
      cases hcopies with
      | cons hlabel _ =>
        have hstays : "eee" = f "eee" := (Payload.label.inj hlabel).1
        rw [← hstays] at hahead
        exact absurd hahead (by decide)

end OpenClaw.Agents.TranscriptRewrite
