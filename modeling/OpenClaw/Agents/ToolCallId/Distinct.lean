import OpenClaw.Agents.ToolCallId.Kept
import OpenClaw.Lib.Delimited
import Std.Data.String.ToNat

/-!
# Rewritten ids that are distinct

In strict mode an id is new while one of its candidates is free, and of the numbered
candidates there are 998. An id is taken for each tool call and for each result that answers
none; so few enough of both get distinct ids, and too many results may use the candidates up.
-/

namespace OpenClaw.Agents

open Js (Json)

-- ---
-- Candidates
-- ---

theorem isDigit_iff {c : Char} : c.isDigit = true ↔ '0' ≤ c ∧ c ≤ '9' := by
  rw [Char.isDigit, Bool.and_eq_true, decide_eq_true_eq, decide_eq_true_eq]
  rfl

theorem toString_isDigit {c : Char} {i : Nat} (h : c ∈ (toString i).toList) : c.isDigit = true := by
  rw [Nat.toString_eq_repr, Nat.repr, String.toList_ofList] at h
  exact Nat.isDigit_of_mem_toDigits (by decide) (by decide) h

theorem x_notMem_toString (i : Nat) : 'x' ∉ (toString i).toList := fun h =>
  absurd (toString_isDigit h) (by decide)

theorem strictCandidate_toList (candidate : String) (i : Nat) :
    (strictCandidate candidate i).toList =
      candidate.toList.take (40 - ("x" ++ toString i).length) ++ 'x' :: (toString i).toList := by
  simp only [strictCandidate, sliceTo, String.toList_append, String.toList_ofList]
  rfl

/-- The number of a candidate stands behind its last `x`. -/
theorem strictCandidate_inj {candidate candidate' : String} {i j : Nat}
    (h : strictCandidate candidate i = strictCandidate candidate' j) : i = j := by
  have hlist := congrArg (fun s : String => s.toList.reverse) h
  simp only [strictCandidate_toList, List.reverse_append, List.reverse_cons, List.append_assoc,
    List.singleton_append] at hlist
  have hx : ∀ n : Nat, 'x' ∉ (toString n).toList.reverse := fun n =>
    fun hmem => x_notMem_toString n (List.mem_reverse.1 hmem)
  have hdigits := List.reverse_injective (Delimited.split (hx i) (hx j) hlist).1
  exact Nat.repr_injective (String.toList_injective hdigits)

theorem firstUnused_none {used : List String} {candidate : Nat → String} {i n : Nat}
    (h : firstUnused used candidate i n = none) : ∀ j < n, candidate (i + j) ∈ used := by
  induction n generalizing i with
  | zero => exact fun j hj => absurd hj (Nat.not_lt_zero j)
  | succ n ih =>
    simp only [firstUnused] at h
    split at h
    · cases h
    · rename_i hused
      rintro (_ | j) hj
      · exact not_not.1 hused
      · have := ih h j (by omega)
        rwa [Nat.add_right_comm, Nat.add_assoc] at this

/-- Not all of the candidates are in use while fewer ids are. -/
theorem firstUnused_ne_none {used : List String} (candidate : String) {i n : Nat}
    (hfew : used.length < n) : firstUnused used (strictCandidate candidate) i n ≠ none := by
  intro hnone
  have hnodup : ((List.range n).map fun j => strictCandidate candidate (i + j)).Nodup :=
    List.nodup_range.map fun j k hjk => Nat.add_left_cancel (strictCandidate_inj hjk)
  have hsubset : ((List.range n).map fun j => strictCandidate candidate (i + j)) ⊆ used := by
    intro id hid
    obtain ⟨j, hj, rfl⟩ := List.mem_map.1 hid
    exact firstUnused_none hnone j (List.mem_range.1 hj)
  have hlength := hnodup.length_le_of_subset hsubset
  rw [List.length_map, List.length_range] at hlength
  omega

-- ---
-- New ids
-- ---

/-- What a provider accepts. -/
structure Acceptable (id : String) : Prop where
  alphanumeric : ∀ c ∈ id.toList, isAlphanumeric c = true
  length : id.length ≤ 40

/-- The digest is written in hexadecimal digits. -/
def HexDigest (src : IdSource) : Prop :=
  ∀ text, ∀ c ∈ (src.sha256Hex text).toList, ('0' ≤ c ∧ c ≤ '9') ∨ ('a' ≤ c ∧ c ≤ 'f')

theorem mem_sliceTo {id : String} {n : Nat} {c : Char} (h : c ∈ (sliceTo n id).toList) :
    c ∈ id.toList := by
  rw [sliceTo, String.toList_ofList] at h
  exact List.mem_of_mem_take h

theorem length_sliceTo (n : Nat) (id : String) : (sliceTo n id).length = min n id.length := by
  rw [sliceTo, String.length_ofList, List.length_take, String.length_toList]

variable {src : IdSource}

theorem shortHash_alphanumeric (hhex : HexDigest src) {text : String} {n : Nat} {c : Char}
    (h : c ∈ (shortHash src text n).toList) : isAlphanumeric c = true := by
  simp only [isAlphanumeric, Bool.or_eq_true, Bool.and_eq_true, decide_eq_true_eq]
  rcases hhex text c (mem_sliceTo h) with hdigit | hletter
  · exact .inr hdigit
  · have hz : 'f' ≤ 'z' := by decide
    exact .inl (.inl ⟨hletter.1, Char.le_trans hletter.2 hz⟩)

theorem sanitizeToolCallId_alphanumeric {id : String} {c : Char}
    (h : c ∈ (sanitizeToolCallId src id .strict).toList) : isAlphanumeric c = true := by
  have hdefault : "defaulttoolid".toList.all isAlphanumeric = true := by decide
  have hsanitized : "sanitizedtoolid".toList.all isAlphanumeric = true := by decide
  simp only [sanitizeToolCallId] at h
  split at h
  · exact List.all_eq_true.1 hdefault c h
  · split at h
    · rw [String.toList_ofList] at h
      exact (List.mem_filter.1 h).2
    · exact List.all_eq_true.1 hsanitized c h

/-- The first candidate of an id, and the second. -/
def baseOf (src : IdSource) (id : String) : String :=
  sliceTo 40 (sanitizeToolCallId src id .strict)

def hashedOf (src : IdSource) (id : String) : String :=
  sliceTo (40 - (shortHash src id 8).length) (baseOf src id) ++ shortHash src id 8

theorem sliceTo_of_length_le {id : String} {n : Nat} (h : id.length ≤ n) : sliceTo n id = id := by
  rw [sliceTo, List.take_of_length_le (by rwa [String.length_toList]), String.ofList_toList]

theorem makeUniqueToolId_strict (used : List String) (id : String) :
    makeUniqueToolId src used .strict id =
      if baseOf src id ∉ used then baseOf src id
      else if hashedOf src id ∉ used then hashedOf src id
      else match firstUnused used (strictCandidate (hashedOf src id)) 2 998 with
        | some next => next
        | none =>
          sliceTo (40 - ("t" ++ toString (src.dateNow used.length)).length) (hashedOf src id) ++
            ("t" ++ toString (src.dateNow used.length)) := by
  have hclipped : (if (baseOf src id).length > 40 - (shortHash src id 8).length then
      sliceTo (40 - (shortHash src id 8).length) (baseOf src id) else baseOf src id) ++
      shortHash src id 8 = hashedOf src id := by
    split
    · rfl
    · rw [hashedOf, sliceTo_of_length_le (by omega)]
  rw [← hclipped]
  rfl

theorem baseOf_acceptable (id : String) : Acceptable (baseOf src id) where
  alphanumeric c hc := sanitizeToolCallId_alphanumeric (mem_sliceTo hc)
  length := by
    rw [baseOf, length_sliceTo]
    exact Nat.min_le_left _ _

theorem shortHash_length (text : String) : (shortHash src text 8).length = 8 := by
  rw [shortHash, length_sliceTo, src.hexLength]
  rfl

theorem hashedOf_acceptable (hhex : HexDigest src) (id : String) : Acceptable (hashedOf src id) where
  alphanumeric c hc := by
    rw [hashedOf, String.toList_append, List.mem_append] at hc
    rcases hc with hbase | hhash
    · exact (baseOf_acceptable id).alphanumeric c (mem_sliceTo hbase)
    · exact shortHash_alphanumeric hhex hhash
  length := by
    rw [hashedOf, String.length_append, length_sliceTo, shortHash_length]
    omega

theorem strictCandidate_acceptable {candidate : String} (h : Acceptable candidate) {i : Nat}
    (hi : i < 1000) : Acceptable (strictCandidate candidate i) where
  alphanumeric c hc := by
    rw [strictCandidate_toList, List.mem_append] at hc
    rcases hc with hcandidate | hsuffix
    · exact h.alphanumeric c (List.mem_of_mem_take hcandidate)
    · rcases List.mem_cons.1 hsuffix with rfl | hdigit
      · decide
      · have hisDigit := toString_isDigit hdigit
        simp only [isAlphanumeric, Bool.or_eq_true, Bool.and_eq_true, decide_eq_true_eq]
        exact .inr (isDigit_iff.1 hisDigit)
  length := by
    have hdigits : (toString i).length ≤ 3 := by
      rw [Nat.toString_eq_repr]
      exact (Nat.length_repr_le_iff (by decide)).2 hi
    have hsuffix : ("x" ++ toString i).length ≤ 4 := by
      rw [String.length_append]
      exact Nat.add_le_add_left hdigits 1
    rw [← String.length_toList, strictCandidate_toList, List.length_append, List.length_take,
      List.length_cons, String.length_toList, String.length_toList]
    rw [String.length_append] at hsuffix ⊢
    have hx : ("x" : String).length = 1 := rfl
    omega

/-- While fewer ids are in use than there are numbered candidates, the id is new. -/
theorem makeUniqueToolId_fresh {used : List String} (hfew : used.length < 998) (id : String) :
    makeUniqueToolId src used .strict id ∉ used := by
  rw [makeUniqueToolId_strict]
  split
  · assumption
  · split
    · assumption
    · split
      · rename_i hnext
        exact (firstUnused_spec hnext).1
      · rename_i hnone
        exact absurd hnone (firstUnused_ne_none _ hfew)

theorem firstUnused_lt {used : List String} {candidate : Nat → String} {i n : Nat} {next : String}
    (h : firstUnused used candidate i n = some next) : ∃ j < i + n, next = candidate j := by
  induction n generalizing i with
  | zero => cases h
  | succ n ih =>
    simp only [firstUnused] at h
    split at h
    · cases h
      exact ⟨i, by omega, rfl⟩
    · obtain ⟨j, hj, rfl⟩ := ih h
      exact ⟨j, by omega, rfl⟩

theorem makeUniqueToolId_acceptable (hhex : HexDigest src) {used : List String}
    (hfew : used.length < 998) (id : String) :
    Acceptable (makeUniqueToolId src used .strict id) := by
  rw [makeUniqueToolId_strict]
  split
  · exact baseOf_acceptable id
  · split
    · exact hashedOf_acceptable hhex id
    · split
      · rename_i hnext
        obtain ⟨j, hj, rfl⟩ := firstUnused_lt hnext
        exact strictCandidate_acceptable (hashedOf_acceptable hhex id) hj
      · rename_i hnone
        exact absurd hnone (firstUnused_ne_none _ hfew)

-- ---
-- The ids in use
-- ---

/-- The ids in use grow by one new id after the other. -/
inductive Allocates (src : IdSource) (used : List String) : List String → Prop
  | refl : Allocates src used used
  | step {used' : List String} (h : Allocates src used used') (seed : String) :
    Allocates src used (used' ++ [makeUniqueToolId src used' .strict seed])

namespace Allocates

variable {used used' used'' : List String}

theorem trans (h : Allocates src used used') (h' : Allocates src used' used'') :
    Allocates src used used'' := by
  induction h' with
  | refl => exact h
  | step _ seed ih => exact ih.step seed

/-- While they are few, they are distinct and acceptable. -/
theorem distinct (hhex : HexDigest src) (h : Allocates src [] used) (hfew : used.length < 998) :
    used.Nodup ∧ ∀ id ∈ used, Acceptable id := by
  induction h with
  | refl => exact ⟨List.nodup_nil, fun id hid => absurd hid List.not_mem_nil⟩
  | @step before _ seed ih =>
    have hbefore : before.length < 998 := by
      rw [List.length_append] at hfew
      omega
    obtain ⟨hnodup, hacceptable⟩ := ih hbefore
    have hfresh : makeUniqueToolId src before .strict seed ∉ before :=
      makeUniqueToolId_fresh hbefore seed
    refine ⟨List.nodup_append.2 ⟨hnodup, List.nodup_singleton _, ?_⟩, ?_⟩
    · rintro id hid _ hnew rfl
      rw [List.mem_singleton.1 hnew] at hid
      exact hfresh hid
    · intro id hid
      rcases List.mem_append.1 hid with hid | hnew
      · exact hacceptable id hid
      · rw [List.mem_singleton.1 hnew]
        exact makeUniqueToolId_acceptable hhex hbefore seed

end Allocates

theorem resolveAssistantId_allocates (st : Resolver) (rawId : String) :
    Allocates src st.used (resolveAssistantId src .strict st rawId).2.used :=
  .step .refl _

theorem resolveToolResultId_allocates (st : Resolver) (rawId : String) :
    Allocates src st.used (resolveToolResultId src .strict st rawId).2.used := by
  cases hqueue : st.pendingByRawId rawId with
  | nil =>
    simp only [resolveToolResultId, hqueue]
    exact .step .refl _
  | cons next pending =>
    simp only [resolveToolResultId, hqueue]
    exact .refl

theorem rewriteBlocks_allocates (st : Resolver) (content : List Block) :
    Allocates src st.used (mapState (rewriteBlock src .strict) st content).2.used := by
  induction content generalizing st with
  | nil => exact .refl
  | cons block content ih =>
    rw [mapState.cons]
    refine .trans ?_ (ih _)
    cases hcall : block.toolCall? with
    | none =>
      rw [rewriteBlock_none src .strict hcall]
      exact .refl
    | some call =>
      obtain ⟨block', hblock, -⟩ := rewriteBlock_some src .strict hcall
      rw [hblock]
      exact resolveAssistantId_allocates st call.id

/-- A result resolves its raw ids one after the other. -/
theorem rewriteToolResultIds_state (mode : ToolCallIdMode) (st : Resolver) (m : ToolResultMessage) :
    (rewriteToolResultIds src mode st m).2 =
      (resolvedIds m).foldl (fun st rawId => (resolveToolResultId src mode st rawId).2) st := by
  by_cases hshared : (nonEmptyString m.toolCallId).isSome = true ∧
      nonEmptyString m.toolCallId = nonEmptyString m.toolUseId
  · simp only [rewriteToolResultIds, resolvedIds, if_pos hshared]
    cases nonEmptyString m.toolCallId <;> rfl
  · simp only [rewriteToolResultIds, resolvedIds, if_neg hshared]
    cases nonEmptyString m.toolCallId <;> cases nonEmptyString m.toolUseId <;> rfl

theorem resolvedIds_nodup (m : ToolResultMessage) : (resolvedIds m).Nodup := by
  unfold resolvedIds
  cases nonEmptyString m.toolCallId with
  | none => cases nonEmptyString m.toolUseId <;> simp
  | some c =>
    by_cases hshared : some c = nonEmptyString m.toolUseId
    · simp [← hshared]
    · cases huse : nonEmptyString m.toolUseId with
      | none => simp
      | some u =>
        rw [huse, Option.some.injEq] at hshared
        simp [hshared]

theorem resolveAll_allocates (st : Resolver) (rawIds : List String) :
    Allocates src st.used
      (rawIds.foldl (fun st rawId => (resolveToolResultId src .strict st rawId).2) st).used := by
  induction rawIds generalizing st with
  | nil => exact .refl
  | cons rawId rawIds ih => exact (resolveToolResultId_allocates st rawId).trans (ih _)

theorem rewriteMessage_allocates (st : Resolver) (m : Message) :
    Allocates src st.used (rewriteMessage src .strict st m).2.used := by
  cases m with
  | assistant a =>
    obtain ⟨content, stopReason, rest⟩ := a
    cases content with
    | none => exact .refl
    | some content => exact rewriteBlocks_allocates st content
  | toolResult m =>
    simp only [rewriteMessage, rewriteToolResultIds_state]
    exact resolveAll_allocates st _
  | other v => exact .refl

theorem mapState_allocates (st : Resolver) (messages : List Message) :
    Allocates src st.used (mapState (rewriteMessage src .strict) st messages).2.used := by
  induction messages generalizing st with
  | nil => exact .refl
  | cons m messages ih => exact (rewriteMessage_allocates st m).trans (ih _)

-- ---
-- How many ids are taken
-- ---

/-- The raw ids of a result that answer no call before it. -/
def unanswered (before : List Message) (m : ToolResultMessage) : Nat :=
  (resolvedIds m).countP fun rawId => openCalls rawId before = 0

/-- The tool calls, and the results that answer none. -/
def occurrences (before : List Message) : List Message → Nat
  | [] => 0
  | .assistant a :: rest => a.callIds.length + occurrences (before ++ [.assistant a]) rest
  | .toolResult m :: rest => unanswered before m + occurrences (before ++ [.toolResult m]) rest
  | .other v :: rest => occurrences (before ++ [.other v]) rest

theorem resolveToolResultId_length (mode : ToolCallIdMode) (st : Resolver) (rawId : String) :
    (resolveToolResultId src mode st rawId).2.used.length =
      st.used.length + if (st.pendingByRawId rawId).length = 0 then 1 else 0 := by
  cases hqueue : st.pendingByRawId rawId with
  | nil => simp [resolveToolResultId, hqueue, allocate]
  | cons next pending => simp [resolveToolResultId, hqueue]

theorem resolveAll_length (mode : ToolCallIdMode) (st : Resolver) {rawIds : List String}
    (hnodup : rawIds.Nodup) :
    (rawIds.foldl (fun st rawId => (resolveToolResultId src mode st rawId).2) st).used.length =
      st.used.length + rawIds.countP fun rawId => (st.pendingByRawId rawId).length = 0 := by
  induction rawIds generalizing st with
  | nil => rfl
  | cons rawId rawIds ih =>
    obtain ⟨hfresh, hnodup⟩ := List.nodup_cons.1 hnodup
    -- the queues of the other ids are left alone
    have hqueue : ∀ r ∈ rawIds,
        (((resolveToolResultId src mode st rawId).2).pendingByRawId r).length =
          (st.pendingByRawId r).length := by
      intro r hr
      have hne : r ≠ rawId := fun heq => hfresh (heq ▸ hr)
      rw [resolveToolResultId_pending, List.count_singleton, if_neg (by simpa using hne.symm),
        Nat.sub_zero]
    have hothers : rawIds.countP (fun r =>
          (((resolveToolResultId src mode st rawId).2).pendingByRawId r).length = 0) =
        rawIds.countP fun r => (st.pendingByRawId r).length = 0 := by
      apply List.countP_congr
      intro r hr
      rw [hqueue r hr]
    rw [List.foldl_cons, ih _ hnodup, hothers, resolveToolResultId_length, List.countP_cons]
    simp only [decide_eq_true_eq]
    omega

theorem rewriteBlocks_length (mode : ToolCallIdMode) (st : Resolver) (content : List Block) :
    (mapState (rewriteBlock src mode) st content).2.used.length =
      st.used.length + (blockIds content).length := by
  induction content generalizing st with
  | nil => rfl
  | cons block content ih =>
    rw [mapState.cons, ih]
    cases hcall : block.toolCall? with
    | none => rw [rewriteBlock_none src mode hcall, blockIds_none hcall]
    | some call =>
      obtain ⟨block', hblock, -⟩ := rewriteBlock_some src mode hcall
      rw [hblock, blockIds_some hcall, List.length_cons]
      simp only [resolveAssistantId, allocate, List.length_append, List.length_singleton]
      omega

theorem rewriteMessage_length (mode : ToolCallIdMode) {before : List Message}
    {done : List (Message × Message)} {st : Resolver} (h : Sanitized done st)
    (hbefore : done.map (·.1) = before) (m : Message) :
    (rewriteMessage src mode st m).2.used.length = st.used.length + occurrences before [m] := by
  cases m with
  | assistant a =>
    obtain ⟨content, stopReason, rest⟩ := a
    cases content with
    | none => rfl
    | some content => exact rewriteBlocks_length mode st content
  | toolResult m =>
    simp only [rewriteMessage, rewriteToolResultIds_state, occurrences, unanswered, Nat.add_zero]
    rw [resolveAll_length mode st (resolvedIds_nodup m)]
    simp only [h.openCalls, hbefore]
  | other v => rfl

theorem occurrences_cons (before : List Message) (m : Message) (messages : List Message) :
    occurrences before (m :: messages) =
      occurrences before [m] + occurrences (before ++ [m]) messages := by
  cases m <;> simp [occurrences]

theorem mapState_length (mode : ToolCallIdMode) {done : List (Message × Message)} {st : Resolver}
    (h : Sanitized done st) (messages : List Message) :
    (mapState (rewriteMessage src mode) st messages).2.used.length =
      st.used.length + occurrences (done.map (·.1)) messages := by
  induction messages generalizing done st with
  | nil => rfl
  | cons m messages ih =>
    have hcons := occurrences_cons (done.map (·.1)) m messages
    have hfirst : (done ++ [(m, (rewriteMessage src mode st m).1)]).map (·.1) =
        done.map (·.1) ++ [m] := List.map_append
    rw [mapState.cons, ih (h.step src mode m), rewriteMessage_length mode h rfl, hfirst]
    omega

/-- As many ids are taken as there are occurrences. -/
theorem allocatedIds_length (src : IdSource) (mode : ToolCallIdMode) (messages : List Message) :
    (allocatedIds src mode messages).length = occurrences [] messages := by
  rw [allocatedIds, mapState_length mode Sanitized.empty]
  exact Nat.zero_add _

-- ---
-- The ids of the calls
-- ---

/-- The ids of the tool calls of a transcript, in order. -/
def transcriptCallIds (messages : List Message) : List String :=
  messages.flatMap fun
    | .assistant a => a.callIds
    | _ => []

theorem callPairs_snd {done : List (Message × Message)} (h : ∀ p ∈ done, SameRole p.1 p.2) :
    (callPairs done).map (·.2) = transcriptCallIds (done.map (·.2)) ∧
      (callPairs done).length = (transcriptCallIds (done.map (·.1))).length := by
  induction done with
  | nil => exact ⟨rfl, rfl⟩
  | cons p done ih =>
    obtain ⟨hp, hdone⟩ := List.forall_mem_cons.1 h
    obtain ⟨hsnd, hlength⟩ := ih hdone
    obtain ⟨m, m'⟩ := p
    have hcons : ∀ pairs : List (Message × Message), callPairs ((m, m') :: pairs) =
        callPairs [(m, m')] ++ callPairs pairs := fun pairs => callPairs_append [(m, m')] pairs
    rw [hcons, List.map_append, hsnd, List.length_append, hlength]
    cases m with
    | assistant a =>
      cases m' with
      | assistant a' =>
        have hzip : ((a.callIds.zip a'.callIds).map (·.2)) = a'.callIds :=
          List.map_snd_zip hp.1.le
        have hlen : (a.callIds.zip a'.callIds).length = a.callIds.length := by
          rw [List.length_zip, hp.1, Nat.min_self]
        simp [callPairs, transcriptCallIds, hzip, hlen]
      | toolResult => cases hp
      | other => cases hp
    | toolResult =>
      cases m' with
      | toolResult => exact ⟨rfl, by simp [callPairs, transcriptCallIds]⟩
      | assistant => cases hp
      | other => cases hp
    | other =>
      cases m' with
      | other => exact ⟨rfl, by simp [callPairs, transcriptCallIds]⟩
      | assistant => cases hp
      | toolResult => cases hp

/-- The ids of the calls are among those that were taken, as many as there are calls. -/
theorem transcriptCallIds_sanitize (src : IdSource) (mode : ToolCallIdMode) (messages : List Message) :
    (transcriptCallIds (sanitizeToolCallIdsForCloudCodeAssist src mode messages)).Sublist
        (allocatedIds src mode messages) ∧
      (transcriptCallIds (sanitizeToolCallIdsForCloudCodeAssist src mode messages)).length =
        (transcriptCallIds messages).length := by
  have hrun := Sanitized.empty.run src mode messages
  rw [List.nil_append] at hrun
  obtain ⟨answered, henc, -⟩ := hrun.encountered
  obtain ⟨hsnd, hlength⟩ := callPairs_snd hrun.sameRole
  have hlen := mapState.length (f := rewriteMessage src mode) {} messages
  rw [List.map_snd_zip hlen.le] at hsnd
  rw [List.map_fst_zip hlen.ge] at hlength
  constructor
  · rw [sanitizeToolCallIdsForCloudCodeAssist, ← hsnd]
    exact henc.used
  · rw [sanitizeToolCallIdsForCloudCodeAssist, ← hsnd, List.length_map, hlength]

/-- With fewer than 998 ids to take, every call gets an id of its own, of at most forty
letters and digits. -/
theorem callIds_distinct (hhex : HexDigest src) (messages : List Message)
    (hfew : occurrences [] messages < 998) :
    (transcriptCallIds (sanitizeToolCallIdsForCloudCodeAssist src .strict messages)).length =
        (transcriptCallIds messages).length ∧
      (transcriptCallIds (sanitizeToolCallIdsForCloudCodeAssist src .strict messages)).Nodup ∧
      (∀ id ∈ transcriptCallIds (sanitizeToolCallIdsForCloudCodeAssist src .strict messages),
        Acceptable id) ∧
      (allocatedIds src .strict messages).Nodup ∧
      ∀ id ∈ allocatedIds src .strict messages, Acceptable id := by
  obtain ⟨hsublist, hlength⟩ := transcriptCallIds_sanitize src .strict messages
  have hallocates : Allocates src [] (allocatedIds src .strict messages) :=
    mapState_allocates {} messages
  rw [← allocatedIds_length src .strict] at hfew
  obtain ⟨hnodup, hacceptable⟩ := hallocates.distinct hhex hfew
  exact ⟨hlength, hsublist.nodup hnodup, fun id hid => hacceptable id (hsublist.subset hid),
    hnodup, hacceptable⟩

theorem zeroDigest_sha256Hex (text : String) :
    zeroDigest.sha256Hex text = String.ofList (List.replicate 64 '0') := rfl

theorem zeroDigest_hex : HexDigest zeroDigest := by
  intro text c hc
  rw [zeroDigest_sha256Hex, String.toList_ofList] at hc
  rw [List.eq_of_mem_replicate hc]
  decide

theorem callIds_distinct_reused :
    (transcriptCallIds (sanitizeToolCallIdsForCloudCodeAssist zeroDigest .strict reusedId)).Nodup :=
  (callIds_distinct zeroDigest_hex reusedId (by decide)).2.1

-- ---
-- Too many results
-- ---

/-- The candidates of one base with one hash, in the order they are tried. -/
def pool (base hashed : String) : Nat → String
  | 0 => base
  | 1 => hashed
  | n + 2 => strictCandidate hashed (n + 2)

theorem firstUnused_eq {used : List String} {candidate : Nat → String} {i k n : Nat}
    (hused : ∀ j, i ≤ j → j < k → candidate j ∈ used) (hfree : candidate k ∉ used) (hi : i ≤ k)
    (hk : k < i + n) : firstUnused used candidate i n = some (candidate k) := by
  induction n generalizing i with
  | zero => omega
  | succ n ih =>
    rw [firstUnused]
    rcases Nat.eq_or_lt_of_le hi with rfl | hlt
    · rw [if_pos hfree]
    · rw [if_neg (not_not.2 (hused i le_rfl hlt))]
      exact ih (fun j hj => hused j (by omega)) hlt (by omega)

/-- One candidate after the other is taken, where all ids have the same ones. -/
theorem makeUniqueToolId_pool {base hashed : String} {id : String} {k : Nat}
    (hbase : baseOf src id = base) (hhashed : hashedOf src id = hashed)
    (hinj : ∀ i j, i < 1000 → j < 1000 → pool base hashed i = pool base hashed j → i = j)
    (hk : k < 1000) :
    makeUniqueToolId src ((List.range k).map (pool base hashed)) .strict id = pool base hashed k := by
  have hmem : ∀ i < 1000, pool base hashed i ∈ (List.range k).map (pool base hashed) ↔ i < k := by
    intro i hi
    rw [List.mem_map]
    constructor
    · rintro ⟨j, hj, heq⟩
      rw [List.mem_range] at hj
      rwa [← hinj j i (by omega) hi heq]
    · exact fun hlt => ⟨i, List.mem_range.2 hlt, rfl⟩
  have hbaseMem : base ∈ (List.range k).map (pool base hashed) ↔ 0 < k := hmem 0 (by decide)
  have hhashedMem : hashed ∈ (List.range k).map (pool base hashed) ↔ 1 < k := hmem 1 (by decide)
  rw [makeUniqueToolId_strict, hbase, hhashed]
  have hpool : ∀ j, 2 ≤ j → pool base hashed j = strictCandidate hashed j := by
    rintro (_ | _ | j) hj
    · omega
    · omega
    · rfl
  rcases Nat.lt_or_ge k 2 with hlt | hge
  · obtain rfl | rfl : k = 0 ∨ k = 1 := by omega
    · exact if_pos fun hused => absurd (hbaseMem.1 hused) (by decide)
    · rw [if_neg (not_not.2 (hbaseMem.2 (by decide)))]
      exact if_pos fun hused => absurd (hhashedMem.1 hused) (by decide)
  · rw [if_neg (not_not.2 (hbaseMem.2 (by omega))), if_neg (not_not.2 (hhashedMem.2 (by omega))),
      firstUnused_eq (k := k), hpool k hge]
    · intro j hj hlt
      rw [← hpool j hj]
      exact (hmem j (by omega)).2 hlt
    · rw [← hpool k hge]
      exact fun h => absurd ((hmem k hk).1 h) (Nat.lt_irrefl _)
    · exact hge
    · omega

/-- What is left when all candidates are taken is named by the clock alone. -/
theorem makeUniqueToolId_exhausted {base hashed : String} {id : String} {used : List String}
    (hbase : baseOf zeroDigest id = base) (hhashed : hashedOf zeroDigest id = hashed)
    (hall : ∀ i < 1000, pool base hashed i ∈ used) :
    makeUniqueToolId zeroDigest used .strict id = sliceTo 38 hashed ++ "t0" := by
  have hnone : ∀ i n, (∀ j, i ≤ j → j < i + n → strictCandidate hashed j ∈ used) →
      firstUnused used (strictCandidate hashed) i n = none := by
    intro i n
    induction n generalizing i with
    | zero => exact fun _ => rfl
    | succ n ih =>
      intro hused
      rw [firstUnused, if_neg (not_not.2 (hused i le_rfl (by omega)))]
      exact ih (i + 1) fun j hj hlt => hused j (by omega) (by omega)
  have hbaseMem : base ∈ used := hall 0 (by decide)
  have hhashedMem : hashed ∈ used := hall 1 (by decide)
  have hclock : ∀ n, "t" ++ toString (zeroDigest.dateNow n) = "t0" := by
    intro n
    have hzero : zeroDigest.dateNow n = 0 := rfl
    rw [hzero]
    decide
  have hfull : firstUnused used (strictCandidate hashed) 2 998 = none := by
    refine hnone 2 998 ?_
    rintro (_ | _ | j) hj hlt
    · omega
    · omega
    · exact hall (j + 2) (by omega)
  rw [makeUniqueToolId_strict, hbase, hhashed, if_neg (not_not.2 hbaseMem),
    if_neg (not_not.2 hhashedMem), hfull, hclock]
  rfl

/-- Forty letters. -/
def longId : String :=
  String.ofList (List.replicate 40 'a')

def longHashed : String :=
  String.ofList (List.replicate 32 'a' ++ List.replicate 8 '0')

/-- What follows forty letters is cut off. -/
theorem baseOf_letters {letters : List Char} (h : ∀ c ∈ letters, isAlphanumeric c = true)
    (hlength : letters.length = 40) (text : String) :
    baseOf src (String.ofList letters ++ text) = String.ofList letters := by
  have hfilter : (String.ofList letters ++ text).toList.filter isAlphanumeric =
      letters ++ text.toList.filter isAlphanumeric := by
    rw [String.toList_append, String.toList_ofList, List.filter_append, List.filter_eq_self.2 h]
  have hne : String.ofList letters ++ text ≠ "" := by
    refine append_ne_left (fun hempty => ?_) text
    rw [String.ofList_eq_empty_iff.1 hempty] at hlength
    cases hlength
  rw [baseOf, sanitizeToolCallId, if_neg hne]
  simp only [hfilter, String.length_ofList, List.length_append]
  rw [if_pos (by omega), sliceTo, String.toList_ofList, List.take_left' hlength]

theorem baseOf_longId (text : String) : baseOf zeroDigest (longId ++ text) = longId := by
  have hletters : ∀ c ∈ List.replicate 40 'a', isAlphanumeric c = true := by
    intro c hc
    rw [List.eq_of_mem_replicate hc]
    decide
  have hlength : (List.replicate 40 'a').length = 40 := List.length_replicate
  exact baseOf_letters hletters hlength text

theorem shortHash_zeroDigest (text : String) :
    shortHash zeroDigest text 8 = String.ofList (List.replicate 8 '0') := by
  rw [shortHash, zeroDigest_sha256Hex, sliceTo, String.toList_ofList, List.take_replicate]
  exact congrArg (fun n => String.ofList (List.replicate n '0')) (by decide)

theorem hashedOf_longId (text : String) : hashedOf zeroDigest (longId ++ text) = longHashed := by
  rw [hashedOf, baseOf_longId, shortHash_zeroDigest]
  decide

theorem x_notMem_longId : 'x' ∉ longId.toList := by
  have htext : longId.toList = List.replicate 40 'a' := String.toList_ofList
  intro h
  rw [htext] at h
  have heq := List.eq_of_mem_replicate h
  exact absurd heq (by decide)

theorem x_notMem_longHashed : 'x' ∉ longHashed.toList := by
  have htext : longHashed.toList = List.replicate 32 'a' ++ List.replicate 8 '0' :=
    String.toList_ofList
  intro h
  rw [htext, List.mem_append] at h
  rcases h with h | h
  · have heq := List.eq_of_mem_replicate h
    exact absurd heq (by decide)
  · have heq := List.eq_of_mem_replicate h
    exact absurd heq (by decide)

theorem x_mem_strictCandidate (candidate : String) (i : Nat) :
    'x' ∈ (strictCandidate candidate i).toList := by
  rw [strictCandidate_toList]
  exact List.mem_append_right _ List.mem_cons_self

theorem strictCandidate_ne {candidate id : String} (h : 'x' ∉ id.toList) (i : Nat) :
    strictCandidate candidate i ≠ id := by
  rintro rfl
  exact h (x_mem_strictCandidate candidate i)

/-- No two of the candidates are the same. -/
theorem pool_injective {base hashed : String} (hne : base ≠ hashed) (hbase : 'x' ∉ base.toList)
    (hhashed : 'x' ∉ hashed.toList) {i j : Nat} (h : pool base hashed i = pool base hashed j) :
    i = j := by
  rcases i with _ | _ | i
  · rcases j with _ | _ | j
    · rfl
    · exact absurd h hne
    · exact absurd h.symm (strictCandidate_ne hbase _)
  · rcases j with _ | _ | j
    · exact absurd h.symm hne
    · rfl
    · exact absurd h.symm (strictCandidate_ne hhashed _)
  · rcases j with _ | _ | j
    · exact absurd h (strictCandidate_ne hbase _)
    · exact absurd h (strictCandidate_ne hhashed _)
    · exact strictCandidate_inj h

theorem longId_ne_longHashed : longId ≠ longHashed := by
  decide

def strayResult : ToolResultMessage where
  toolCallId := some (.str longId)
  toolUseId := none
  toolName := none
  rest := []

/-- So many of the candidates are in use, and no call waits. -/
structure Filled (n : Nat) (st : Resolver) : Prop where
  used : st.used = (List.range n).map (pool longId longHashed)
  pending : st.pendingByRawId longId = []

theorem resolvedIds_strayResult : resolvedIds strayResult = [longId] := by
  have hne : longId ≠ "" := by decide
  have hid : nonEmptyString strayResult.toolCallId = some longId := nonEmptyString_str hne
  have huse : nonEmptyString strayResult.toolUseId = none := rfl
  rw [resolvedIds, hid, huse]
  rfl

theorem Filled.step {n : Nat} {st : Resolver} (h : Filled n st) (hn : n < 1000) :
    Filled (n + 1) (rewriteMessage zeroDigest .strict st (.toolResult strayResult)).2 := by
  have hstate : (rewriteMessage zeroDigest .strict st (.toolResult strayResult)).2 =
      (resolveToolResultId zeroDigest .strict st longId).2 := by
    simp only [rewriteMessage, rewriteToolResultIds_state, resolvedIds_strayResult, List.foldl_cons,
      List.foldl_nil]
  rw [hstate]
  simp only [resolveToolResultId, h.pending, allocate]
  refine ⟨?_, h.pending⟩
  have hseed : toolResultSeed longId (st.orphanToolResultOccurrences longId + 1) =
      longId ++ (":tool_result:" ++ toString (st.orphanToolResultOccurrences longId + 1)) :=
    String.append_assoc
  simp only [h.used, hseed]
  rw [makeUniqueToolId_pool (baseOf_longId _) (hashedOf_longId _)
    (fun i j _ _ heq => pool_injective longId_ne_longHashed x_notMem_longId x_notMem_longHashed heq)
    hn, List.range_succ, List.map_append]
  rfl

theorem filled_strayResults (n : Nat) (hn : n ≤ 1000) :
    Filled n (mapState (rewriteMessage zeroDigest .strict) {}
      (List.replicate n (.toolResult strayResult))).2 := by
  induction n with
  | zero => exact ⟨rfl, rfl⟩
  | succ n ih =>
    rw [List.replicate_succ', mapState.append]
    exact (ih (by omega)).step (by omega)

theorem assistantSeed_append (id : String) (occurrence : Nat) :
    ∃ text, assistantSeed id occurrence = id ++ text := by
  unfold assistantSeed
  split
  · exact ⟨"", (String.append_empty).symm⟩
  · exact ⟨":" ++ toString occurrence, String.append_assoc⟩

/-- With all candidates in use each call gets the id of the clock. -/
theorem resolveAssistantId_exhausted {st : Resolver}
    (hall : ∀ i < 1000, pool longId longHashed i ∈ st.used) :
    (resolveAssistantId zeroDigest .strict st longId).1 = sliceTo 38 longHashed ++ "t0" := by
  obtain ⟨text, hseed⟩ := assistantSeed_append longId (st.assistantOccurrences longId + 1)
  simp only [resolveAssistantId, allocate, hseed]
  exact makeUniqueToolId_exhausted (baseOf_longId text) (hashedOf_longId text) hall

def strayCall : Block :=
  .object (some (.str "toolCall")) (some (.str longId)) (some (.str "read")) []

theorem strayCall_toolCall : strayCall.toolCall? = some ⟨longId, some "read"⟩ := by
  have hid : nonEmptyString (some (.str longId)) = some longId :=
    nonEmptyString_str (by decide)
  simp only [strayCall, Block.toolCall?, hid]
  rfl

theorem rewriteBlocks_exhausted {st : Resolver}
    (hall : ∀ i < 1000, pool longId longHashed i ∈ st.used) :
    blockIds (mapState (rewriteBlock zeroDigest .strict) st [strayCall, strayCall]).1 =
      [sliceTo 38 longHashed ++ "t0", sliceTo 38 longHashed ++ "t0"] := by
  have hall' : ∀ i < 1000,
      pool longId longHashed i ∈ (resolveAssistantId zeroDigest .strict st longId).2.used :=
    fun i hi => List.mem_append_left _ (hall i hi)
  rw [mapState.cons, mapState.cons]
  obtain ⟨first, hfirst, hfirstCall⟩ := rewriteBlock_some zeroDigest .strict strayCall_toolCall
  rw [hfirst, blockIds_some hfirstCall, resolveAssistantId_exhausted hall]
  obtain ⟨second, hsecond, hsecondCall⟩ := rewriteBlock_some zeroDigest .strict strayCall_toolCall
  rw [hsecond, blockIds_some hsecondCall, resolveAssistantId_exhausted hall']
  rfl

theorem transcriptCallIds_append (messages messages' : List Message) :
    transcriptCallIds (messages ++ messages') =
      transcriptCallIds messages ++ transcriptCallIds messages' :=
  List.flatMap_append

def strayTurn : AssistantMessage where
  content := some [strayCall, strayCall]
  stopReason := none
  rest := []

/-- A thousand results that answer no call, and then two calls. -/
def crowded : List Message :=
  List.replicate 1000 (.toolResult strayResult) ++ [.assistant strayTurn]

theorem crowded_callIds : transcriptCallIds crowded = [longId, longId] := by
  have hstray : transcriptCallIds (List.replicate 1000 (.toolResult strayResult)) = [] :=
    List.flatMap_eq_nil_iff.2 fun m hm => by rw [List.eq_of_mem_replicate hm]
  have hturn : transcriptCallIds [.assistant strayTurn] = blockIds [strayCall, strayCall] :=
    List.append_nil _
  rw [crowded, transcriptCallIds_append, hstray, hturn, blockIds_some strayCall_toolCall,
    blockIds_some strayCall_toolCall]
  rfl

/-- The two calls have one id. -/
theorem not_callIds_distinct :
    ¬ ∀ (src : IdSource) (messages : List Message), HexDigest src →
      (transcriptCallIds messages).length < 998 →
        (transcriptCallIds (sanitizeToolCallIdsForCloudCodeAssist src .strict messages)).Nodup := by
  intro h
  have hfew : (transcriptCallIds crowded).length < 998 := by
    rw [crowded_callIds]
    decide
  have hnodup := h zeroDigest crowded zeroDigest_hex hfew
  have hfilled := filled_strayResults 1000 le_rfl
  rw [sanitizeToolCallIdsForCloudCodeAssist, crowded, mapState.append,
    transcriptCallIds_append] at hnodup
  have hpair := (List.nodup_append.1 hnodup).2.1
  revert hfilled hpair
  generalize (mapState (rewriteMessage zeroDigest .strict) {}
    (List.replicate 1000 (.toolResult strayResult))).2 = st
  intro hfilled hpair
  have hall : ∀ i < 1000, pool longId longHashed i ∈ st.used := fun i hi => by
    rw [hfilled.used]
    exact List.mem_map_of_mem (List.mem_range.2 hi)
  have hturn : transcriptCallIds
      (mapState (rewriteMessage zeroDigest .strict) st [.assistant strayTurn]).1 =
        blockIds (mapState (rewriteBlock zeroDigest .strict) st [strayCall, strayCall]).1 :=
    List.append_nil _
  rw [hturn, rewriteBlocks_exhausted hall] at hpair
  exact (List.nodup_cons.1 hpair).1 (List.mem_singleton_self _)

end OpenClaw.Agents
