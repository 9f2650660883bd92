import OpenClaw.Agents.OpenAI

/-!
# Calls and results after the downgrade

The ids of a transcript, in order, before and after the downgrade. A result keeps
the id of its call where both or none of them are rewritten, and two calls stay
apart unless the id that one is cut to is the other's.
-/

namespace OpenClaw.Agents.OpenAI

open Js (Json)

-- ---
-- The ids of a transcript
-- ---

inductive Event
  | call (id : String)
  | result (id : String)
  deriving DecidableEq

def messageEvents : Message → List Event
  | .assistant msg => ((msg.content.getD []).filterMap callId?).map .call
  | .toolResult msg => (extractToolResultId msg).toList.map .result
  | .other _ => []

/-- The calls and results, in order. -/
def events (messages : List Message) : List Event := messages.flatMap messageEvents

/-- The result at `i` is one of the call at `j`: the last call before it with its id. -/
def Answers (events : List Event) (i j : Nat) : Prop :=
  ∃ id, events[i]? = some (.result id) ∧ events[j]? = some (.call id) ∧ j < i ∧
    ∀ k, j < k → k < i → events[k]? ≠ some (.call id)

def Event.id : Event → String
  | .call id => id
  | .result id => id

/-- In the events after the pass, each result has the id of its own call, and calls
with distinct ids still have distinct ids. -/
structure KeepsPairing (before after : List Event) : Prop where
  owns : ∀ i j, Answers before i j → (after[i]?).map Event.id = (after[j]?).map Event.id
  apart : ∀ (i j : Nat) (x y : String),
    before[i]? = some (.call x) → before[j]? = some (.call y) → x ≠ y →
      (after[i]?).map Event.id ≠ (after[j]?).map Event.id

-- ---
-- What is rewritten
-- ---

/-- An event, and whether its id is cut: for a call, that it has an item id and no
replayable reasoning before it; for a result, that the message whose results it is
among has such a call with its id. -/
structure Site where
  event : Event
  cut : Bool

/-- The id afterwards. -/
def Site.newId (site : Site) : String :=
  if site.cut then (strippedId site.event.id).getD site.event.id else site.event.id

section
variable (parse : String → Option Json)

def callSites : Bool → List Block → List Site
  | _, [] => []
  | seen, block :: blocks =>
    if isReplayableReasoning parse block then callSites true blocks
    else
      match callId? block with
      | none => callSites seen blocks
      | some id => ⟨.call id, !seen && (strippedId id).isSome⟩ :: callSites seen blocks

def cutIds (sites : List Site) : List String := (sites.filter (·.cut)).map (·.event.id)

/-- The sites of a transcript behind a message with these ids cut. -/
def sitesFrom : List String → List Message → List Site
  | _, [] => []
  | _, .assistant msg :: messages =>
    let sites := callSites parse false (msg.content.getD [])
    sites ++ sitesFrom (cutIds sites) messages
  | pending, .toolResult msg :: messages =>
    (extractToolResultId msg).toList.map (fun id => ⟨.result id, id ∈ pending⟩) ++
      sitesFrom pending messages
  | _, .other _ :: messages => sitesFrom [] messages

def transcriptSites (messages : List Message) : List Site := sitesFrom parse [] messages

/-- A result is cut if and only if its own call is, and no id is cut to that of a
call with another id. -/
structure SitesFit (sites : List Site) : Prop where
  together : ∀ i j s t, Answers (sites.map Site.event) i j → sites[i]? = some s →
    sites[j]? = some t → s.cut = t.cut
  apart : ∀ (i j : Nat) (x y : String), sites[i]? = some (Site.mk (.call x) true) →
    ∀ cut, sites[j]? = some (Site.mk (.call y) cut) →
      x ≠ y → strippedId x ≠ bif cut then strippedId y else some y

end

-- ---
-- Ids that are cut
-- ---

theorem strippedId_eq {id newId : String} (h : strippedId id = some newId) :
    newId.toList ≠ [] ∧ ∃ rest, id.toList = newId.toList ++ '|' :: rest := by
  unfold strippedId splitOpenAIFunctionCallPairing at h
  dsimp only at h
  split at h
  · rename_i itemId hitem
    split at hitem
    · cases hitem
    · rename_i hparts
      rw [if_neg hparts] at h
      split at h
      · obtain rfl := Option.some.inj h
        rw [String.toList_ofList]
        refine ⟨(not_or.1 hparts).1, ?_⟩
        have hsplit := List.takeWhile_append_dropWhile (p := (· ≠ '|')) (l := id.toList)
        cases hrest : id.toList.dropWhile (· ≠ '|') with
        | nil =>
          rw [hrest, List.append_nil] at hsplit
          refine absurd ?_ (not_or.1 hparts).2
          rw [hsplit]
          exact List.drop_eq_nil_of_le (Nat.le_succ _)
        | cons c rest =>
          have hbar := List.head?_dropWhile_not (· ≠ '|') id.toList
          rw [hrest] at hbar
          have hc : c = '|' := by simpa using hbar
          subst hc
          rw [hrest] at hsplit
          exact ⟨rest, hsplit.symm⟩
      · cases h
  · cases h

theorem strippedId_ne {id newId : String} (h : strippedId id = some newId) : newId ≠ id := by
  rintro rfl
  obtain ⟨-, rest, hrest⟩ := strippedId_eq h
  have := congrArg List.length hrest
  simp at this

theorem strippedId_empty : strippedId "" = none := by decide

theorem strippedId_ne_empty {id newId : String} (h : strippedId id = some newId) : newId ≠ "" := by
  rintro rfl
  exact (strippedId_eq h).1 rfl

/-- Only an id with an item id is cut. -/
def Site.Cuttable (site : Site) : Prop := site.cut = true → (strippedId site.event.id).isSome = true

theorem newId_cut {newId : String} (event : Event) (h : strippedId event.id = some newId) :
    (Site.mk event true).newId = newId := by
  rw [Site.newId, if_pos rfl, h]
  rfl

theorem newId_kept {site : Site} (hcut : site.cut = false) : site.newId = site.event.id := by
  rw [Site.newId, hcut]
  rfl

-- ---
-- The calls of a message
-- ---

theorem callId?_of_replayable (h : isReplayableReasoning parse block = true) : callId? block = none := by
  cases block with
  | other value => rfl
  | object type id name rest =>
    simp only [isReplayableReasoning, isThinkingBlock, Bool.and_eq_true, decide_eq_true_eq] at h
    simp [callId?, isToolCallType, h.1]

theorem callId?_withId {id : String} (h : callId? block = some id) (newId : String) :
    callId? (withId newId block) = some newId := by
  cases block with
  | other value => cases h
  | object type id' name rest =>
    have htype : isToolCallType type = true := by
      by_contra hother
      simp [callId?, hother] at h
    simp [withId, callId?, htype, Json.str?]

/-- The sites of the calls of a content, before and after the pass. -/
structure SitesOf (blocks content : List Block) (ids : RewrittenIds) (sites : List Site) : Prop where
  before : sites.map Site.event = (blocks.filterMap callId?).map .call
  after : content.filterMap callId? = sites.map Site.newId
  keys : ids.map Prod.fst = cutIds sites
  entries : ∀ entry ∈ ids, strippedId entry.1 = some entry.2
  cuttable : ∀ site ∈ sites, site.Cuttable

theorem SitesOf.skip (hblock : callId? block = none) (h : SitesOf blocks content ids sites) :
    SitesOf (block :: blocks) (block :: content) ids sites where
  before := by rw [List.filterMap_cons_none hblock, h.before]
  after := by rw [List.filterMap_cons_none hblock, h.after]
  keys := h.keys
  entries := h.entries
  cuttable := h.cuttable

theorem SitesOf.kept {id : String} (hblock : callId? block = some id) (h : SitesOf blocks content ids sites) :
    SitesOf (block :: blocks) (block :: content) ids (⟨.call id, false⟩ :: sites) where
  before := by
    rw [List.filterMap_cons_some hblock, List.map_cons, List.map_cons, h.before]
  after := by
    rw [List.filterMap_cons_some hblock, List.map_cons, h.after]
    rfl
  keys := h.keys
  entries := h.entries
  cuttable := by
    intro site hsite
    cases hsite with
    | head => exact fun hcut => nomatch hcut
    | tail _ hsite => exact h.cuttable site hsite

theorem SitesOf.cut {id newId : String} (hblock : callId? block = some id) (hstripped : strippedId id = some newId)
    (h : SitesOf blocks content ids sites) :
    SitesOf (block :: blocks) (withId newId block :: content) ((id, newId) :: ids)
      (⟨.call id, true⟩ :: sites) where
  before := by
    rw [List.filterMap_cons_some hblock, List.map_cons, List.map_cons, h.before]
  after := by
    rw [List.filterMap_cons_some (callId?_withId hblock newId), List.map_cons, h.after,
      newId_cut (.call id) hstripped]
  keys := by
    rw [List.map_cons, h.keys]
    rfl
  entries := by
    intro entry hentry
    cases hentry with
    | head => exact hstripped
    | tail _ hentry => exact h.entries entry hentry
  cuttable := by
    intro site hsite
    cases hsite with
    | head => exact fun _ => Option.isSome_of_eq_some hstripped
    | tail _ hsite => exact h.cuttable site hsite

theorem sitesOf_rewriteContent (parse : String → Option Json) (seen : Bool) (blocks : List Block) :
    SitesOf blocks (rewriteContent parse seen blocks).1 (rewriteContent parse seen blocks).2
      (callSites parse seen blocks) := by
  induction blocks generalizing seen with
  | nil => exact ⟨rfl, rfl, rfl, by simp [rewriteContent], by simp [callSites]⟩
  | cons block blocks ih =>
    rw [rewriteContent, callSites]
    split
    · rename_i hreasoning
      exact (ih true).skip (callId?_of_replayable hreasoning)
    · cases hcall : callId? block with
      | none => exact (ih seen).skip hcall
      | some id =>
        cases hstripped : strippedId id with
        | none =>
          simp only [hstripped, Option.isSome_none, Bool.and_false]
          exact (ih seen).kept hcall
        | some newId =>
          cases seen with
          | true =>
            simp only [hstripped, Option.isSome_some, Bool.not_true, Bool.false_and, if_true]
            exact (ih true).kept hcall
          | false =>
            simp only [hstripped, Option.isSome_some, Bool.not_false, Bool.and_self,
              Bool.false_eq_true, if_false]
            exact (ih false).cut hcall hstripped

-- ---
-- The results behind a message
-- ---

theorem nonEmptyString_eq_some {field : Option Json} {id : String} :
    nonEmptyString field = some id ↔ field.bind Json.str? = some id ∧ id ≠ "" := by
  unfold nonEmptyString
  cases field.bind Json.str? with
  | none => simp
  | some s =>
    dsimp only
    split <;> simp_all
    rintro rfl
    assumption

theorem lookup_isSome_iff (ids : RewrittenIds) (id : String) :
    (ids.lookup id).isSome = true ↔ id ∈ ids.map Prod.fst := by
  induction ids with
  | nil => simp
  | cons entry ids ih =>
    rw [List.lookup_cons, List.map_cons, List.mem_cons]
    cases h : id == entry.1 with
    | true => simp [eq_of_beq h]
    | false => simp [ne_of_beq_false h, ih]

theorem lookup_strippedId {ids : RewrittenIds} (hids : ∀ entry ∈ ids, strippedId entry.1 = some entry.2)
    {id newId : String} (h : ids.lookup id = some newId) : strippedId id = some newId := by
  obtain ⟨lead, rest, heq, -⟩ := List.lookup_eq_some_iff.1 h
  exact hids (id, newId) (heq ▸ List.mem_append_right _ List.mem_cons_self)

theorem nonEmptyString_rewriteField {ids : RewrittenIds}
    (hids : ∀ entry ∈ ids, strippedId entry.1 = some entry.2) (field : Option Json) :
    nonEmptyString (rewriteField ids field) = (nonEmptyString field).map fun id =>
      (Site.mk (.result id) (id ∈ ids.map Prod.fst)).newId := by
  unfold rewriteField
  cases hstring : field.bind Json.str? with
  | none =>
    have hnone : nonEmptyString field = none := by rw [nonEmptyString, hstring]
    rw [hnone]
    rfl
  | some id =>
    dsimp only
    cases hlookup : ids.lookup id with
    | none =>
      have hnot : id ∉ ids.map Prod.fst := by
        rw [← lookup_isSome_iff, hlookup]
        exact Bool.false_ne_true
      cases hvalue : nonEmptyString field with
      | none => rfl
      | some id' =>
        obtain rfl := Option.some.inj ((nonEmptyString_eq_some.1 hvalue).1.symm.trans hstring)
        simp only [Option.map_some, hnot, decide_false]
        rfl
    | some newId =>
      have hstripped := lookup_strippedId hids hlookup
      have hid : nonEmptyString field = some id :=
        nonEmptyString_eq_some.2 ⟨hstring, fun hempty => by simp [hempty, strippedId_empty] at hstripped⟩
      have hmem : id ∈ ids.map Prod.fst :=
        (lookup_isSome_iff ids id).1 (Option.isSome_of_eq_some hlookup)
      have hnew : nonEmptyString (some (.str newId)) = some newId :=
        nonEmptyString_eq_some.2 ⟨rfl, strippedId_ne_empty hstripped⟩
      simp only [hid, Option.map_some, hmem, decide_true]
      rw [newId_cut (.result id) hstripped, hnew]

theorem extractToolResultId_rewrite {ids : RewrittenIds}
    (hids : ∀ entry ∈ ids, strippedId entry.1 = some entry.2) (msg : ToolResultMessage) :
    extractToolResultId { msg with
      toolCallId := rewriteField ids msg.toolCallId
      toolUseId := rewriteField ids msg.toolUseId } = (extractToolResultId msg).map fun id =>
      (Site.mk (.result id) (id ∈ ids.map Prod.fst)).newId := by
  unfold extractToolResultId
  dsimp only
  rw [nonEmptyString_rewriteField hids, nonEmptyString_rewriteField hids]
  cases nonEmptyString msg.toolCallId with
  | none => rfl
  | some id => rfl

-- ---
-- The transcript
-- ---

/-- The event afterwards. -/
def Site.rewritten (site : Site) : Event :=
  match site.event with
  | .call _ => .call site.newId
  | .result _ => .result site.newId

theorem rewritten_id (site : Site) : site.rewritten.id = site.newId := by
  cases h : site.event with
  | call id => simp [Site.rewritten, h, Event.id]
  | result id => simp [Site.rewritten, h, Event.id]

section
variable (parse : String → Option Json)

theorem callSites_rewritten (seen : Bool) (blocks : List Block) :
    (callSites parse seen blocks).map Site.rewritten =
      ((callSites parse seen blocks).map Site.newId).map .call := by
  induction blocks generalizing seen with
  | nil => rfl
  | cons block blocks ih =>
    rw [callSites]
    split
    · exact ih true
    · cases callId? block with
      | none => exact ih seen
      | some id => rw [List.map_cons, List.map_cons, List.map_cons, ih seen]; rfl

theorem sitesFrom_events (pending : List String) (messages : List Message) :
    (sitesFrom parse pending messages).map Site.event = events messages := by
  induction messages generalizing pending with
  | nil => rfl
  | cons message messages ih =>
    rw [events, List.flatMap_cons, ← events]
    cases message with
    | assistant msg =>
      rw [sitesFrom, List.map_append, ih, (sitesOf_rewriteContent parse false _).before]
      rfl
    | toolResult msg =>
      rw [sitesFrom, List.map_append, ih, List.map_map]
      rfl
    | other value => exact ih []

theorem events_rewriteMessages (ids : RewrittenIds)
    (hids : ∀ entry ∈ ids, strippedId entry.1 = some entry.2) (messages : List Message) :
    events (rewriteMessages parse ids messages) =
      (sitesFrom parse (ids.map Prod.fst) messages).map Site.rewritten := by
  induction messages generalizing ids with
  | nil => rfl
  | cons message messages ih =>
    cases message with
    | assistant msg =>
      rw [rewriteMessages, sitesFrom, List.map_append, callSites_rewritten]
      cases hcontent : msg.content with
      | none =>
        dsimp only
        rw [events, List.flatMap_cons, ← events, ih [] (by simp), messageEvents, hcontent]
        rfl
      | some content =>
        have hsites := sitesOf_rewriteContent parse false content
        dsimp only
        rw [events, List.flatMap_cons, ← events, ih _ hsites.entries, hsites.keys, messageEvents]
        dsimp only [Option.getD_some]
        rw [hsites.after]
    | toolResult msg =>
      rw [rewriteMessages, sitesFrom, events, List.flatMap_cons, ← events, ih ids hids,
        List.map_append, messageEvents, extractToolResultId_rewrite hids]
      congr 1
      cases extractToolResultId msg with
      | none => rfl
      | some id => rfl
    | other value => exact ih [] (by simp)

theorem cutIds_cuttable {sites : List Site} (h : ∀ site ∈ sites, site.Cuttable) :
    ∀ id ∈ cutIds sites, (strippedId id).isSome = true := by
  intro id hid
  obtain ⟨site, hsite, rfl⟩ := List.mem_map.1 hid
  obtain ⟨hmem, hcut⟩ := List.mem_filter.1 hsite
  exact h site hmem hcut

theorem sitesFrom_cuttable (pending : List String) (messages : List Message)
    (hpending : ∀ id ∈ pending, (strippedId id).isSome = true) :
    ∀ site ∈ sitesFrom parse pending messages, site.Cuttable := by
  induction messages generalizing pending with
  | nil => simp [sitesFrom]
  | cons message messages ih =>
    intro site hsite
    cases message with
    | assistant msg =>
      have hcalls := (sitesOf_rewriteContent parse false (msg.content.getD [])).cuttable
      rw [sitesFrom] at hsite
      obtain hsite | hsite := List.mem_append.1 hsite
      · exact hcalls site hsite
      · exact ih _ (cutIds_cuttable hcalls) site hsite
    | toolResult msg =>
      rw [sitesFrom] at hsite
      obtain hsite | hsite := List.mem_append.1 hsite
      · obtain ⟨id, -, rfl⟩ := List.mem_map.1 hsite
        exact fun hcut => hpending id (of_decide_eq_true hcut)
      · exact ih pending hpending site hsite
    | other value => exact ih [] (by simp) site hsite

end

-- ---
-- Pairing
-- ---

theorem newId_eq_iff {s t : Site} (hs : s.Cuttable) (ht : t.Cuttable)
    (hid : s.event.id = t.event.id) : s.newId = t.newId ↔ s.cut = t.cut := by
  -- an id that is cut is not the id it was
  have hne {s t : Site} (hs : s.Cuttable) (hid : s.event.id = t.event.id) (hcut : s.cut = true)
      (hkept : t.cut = false) : s.newId ≠ t.newId := by
    obtain ⟨newId, hnew⟩ := Option.isSome_iff_exists.1 (hs hcut)
    rw [newId_kept hkept, ← hid, Site.newId, if_pos hcut, hnew]
    exact strippedId_ne hnew
  constructor
  · intro hsame
    cases hcut : s.cut with
    | true =>
      cases hcut' : t.cut with
      | true => rfl
      | false => exact absurd hsame (hne hs hid hcut hcut')
    | false =>
      cases hcut' : t.cut with
      | true => exact absurd hsame.symm (hne ht hid.symm hcut' hcut)
      | false => rfl
  · intro hsame
    rw [Site.newId, Site.newId, hsame, hid]

/-- Two calls with distinct ids, at least the first of them cut. -/
theorem newId_ne_iff {x y : String} (hx : (Site.mk (.call x) true).Cuttable)
    (hy : (Site.mk (.call y) cut).Cuttable) :
    (Site.mk (.call x) true).newId ≠ (Site.mk (.call y) cut).newId ↔
      strippedId x ≠ bif cut then strippedId y else some y := by
  obtain ⟨newX, hnewX⟩ := Option.isSome_iff_exists.1 (hx rfl)
  change strippedId x = some newX at hnewX
  rw [newId_cut (.call x) hnewX, hnewX]
  cases cut with
  | true =>
    obtain ⟨newY, hnewY⟩ := Option.isSome_iff_exists.1 (hy rfl)
    change strippedId y = some newY at hnewY
    rw [newId_cut (.call y) hnewY]
    simp [hnewY]
  | false => simp [Site.newId, Event.id]

theorem downgrade_keepsPairing_iff (parse : String → Option Json) (messages : List Message) :
    KeepsPairing (events messages)
        (events (downgradeOpenAIFunctionCallReasoningPairs parse messages)) ↔
      SitesFit (transcriptSites parse messages) := by
  have hbefore : events messages = (transcriptSites parse messages).map Site.event :=
    (sitesFrom_events parse [] messages).symm
  have hafter : events (downgradeOpenAIFunctionCallReasoningPairs parse messages) =
      (transcriptSites parse messages).map Site.rewritten :=
    events_rewriteMessages parse [] (by simp) messages
  have hcuttable : ∀ site ∈ transcriptSites parse messages, site.Cuttable :=
    sitesFrom_cuttable parse [] messages (by simp)
  rw [hbefore, hafter]
  generalize transcriptSites parse messages = sites at *
  have hnew (i : Nat) : ((sites.map Site.rewritten)[i]?).map Event.id = sites[i]?.map Site.newId := by
    rw [List.getElem?_map, Option.map_map]
    congr 1
    funext site
    exact rewritten_id site
  have hsite {i : Nat} {event : Event} (h : (sites.map Site.event)[i]? = some event) :
      ∃ site, sites[i]? = some site ∧ site.event = event ∧ site.Cuttable := by
    rw [List.getElem?_map] at h
    obtain ⟨site, hsite, rfl⟩ := Option.map_eq_some_iff.1 h
    exact ⟨site, hsite, rfl, hcuttable site (List.mem_of_getElem? hsite)⟩
  have hsame {i j : Nat} {s t : Site} (hs : sites[i]? = some s) (ht : sites[j]? = some t)
      (hanswers : Answers (sites.map Site.event) i j) : s.newId = t.newId ↔ s.cut = t.cut := by
    obtain ⟨id, hresult, hcall, -, -⟩ := hanswers
    obtain ⟨s', hs', hsevent, hscut⟩ := hsite hresult
    obtain ⟨t', ht', htevent, htcut⟩ := hsite hcall
    obtain rfl := Option.some.inj (hs.symm.trans hs')
    obtain rfl := Option.some.inj (ht.symm.trans ht')
    exact newId_eq_iff hscut htcut (by rw [hsevent, htevent]; rfl)
  constructor
  · rintro ⟨howns, hapart⟩
    constructor
    · intro i j s t hanswers hs ht
      have hids := howns i j hanswers
      rw [hnew, hnew, hs, ht] at hids
      exact (hsame hs ht hanswers).1 (Option.some.inj hids)
    · intro i j x y hi cut hj hxy
      have hids := hapart i j x y (by rw [List.getElem?_map, hi]; rfl)
        (by rw [List.getElem?_map, hj]; rfl) hxy
      rw [hnew, hnew, hi, hj] at hids
      exact (newId_ne_iff (hcuttable _ (List.mem_of_getElem? hi))
        (hcuttable _ (List.mem_of_getElem? hj))).1 fun heq => hids (congrArg some heq)
  · rintro ⟨htogether, hapart⟩
    constructor
    · intro i j hanswers
      obtain ⟨id, hresult, hcall, -, -⟩ := id hanswers
      obtain ⟨s, hs, -, -⟩ := hsite hresult
      obtain ⟨t, ht, -, -⟩ := hsite hcall
      rw [hnew, hnew, hs, ht]
      exact congrArg some ((hsame hs ht hanswers).2 (htogether i j s t hanswers hs ht))
    · intro i j x y hx hy hxy hids
      obtain ⟨⟨event, cut⟩, hs, rfl, hscut⟩ := hsite hx
      obtain ⟨⟨event', cut'⟩, ht, rfl, htcut⟩ := hsite hy
      rw [hnew, hnew, hs, ht] at hids
      have heq := Option.some.inj hids
      cases cut with
      | true => exact (newId_ne_iff hscut htcut).2 (hapart i j x y hs cut' ht hxy) heq
      | false =>
        cases cut' with
        | true => exact (newId_ne_iff htcut hscut).2 (hapart j i y x ht false hs hxy.symm) heq.symm
        | false => exact hxy heq

/-- Two calls of one message, with a result each; the calls differ in their items only. -/
def sharedCallId : List Message :=
  let call (id : String) : Block := .object (some (.str "toolCall")) (some (.str id)) none []
  let result (id : String) : Message := .toolResult ⟨some (.str id), none, none, []⟩
  [.assistant ⟨some [call "call_1|fc_a", call "call_1|fc_b"], none, []⟩,
    result "call_1|fc_a", result "call_1|fc_b"]

theorem not_keepsPairing_sharedCallId :
    events sharedCallId = [.call "call_1|fc_a", .call "call_1|fc_b",
      .result "call_1|fc_a", .result "call_1|fc_b"] ∧
    ¬ KeepsPairing (events sharedCallId)
      (events (downgradeOpenAIFunctionCallReasoningPairs (fun _ => none) sharedCallId)) := by
  refine ⟨by decide, fun hkeeps => ?_⟩
  refine hkeeps.apart 0 1 "call_1|fc_a" "call_1|fc_b" ?_ ?_ ?_ ?_
  all_goals decide

-- ---
-- Dropped reasoning
-- ---

end OpenClaw.Agents.OpenAI
