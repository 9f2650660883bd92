import OpenClaw.Lib.Delimited
import OpenClaw.Routing.SessionKey

/-!
# Which conversations share a session

The segments of a session key are joined by colons, and a peer id or a thread id
may hold colons of its own. Two conversations share a key when their parts are
the same, and also when the text of one can be read as the other's.
-/

namespace OpenClaw.Routing

open Js Delimited

/-- A conversation, as it is handed to `buildAgentPeerSessionKey` and
`resolveThreadSessionKeys`. -/
structure Conversation where
  channel : Text
  accountId : Option Text
  peerKind : Option ChatType
  peerId : Option Text
  threadId : Option Text

namespace Conversation

variable (lower : LowerCase)

def kind (c : Conversation) : ChatType := c.peerKind.getD .direct

def peerSession (agentId : Text) (mainKey : Option Text) (dmScope : DmScope) (c : Conversation) : PeerSession where
  agentId := agentId
  mainKey := mainKey
  channel := c.channel
  accountId := c.accountId
  peerKind := c.peerKind
  peerId := c.peerId
  identityLinks := none
  dmScope := some dmScope

def threadSession (baseSessionKey : Text) (c : Conversation) : ThreadSession where
  baseSessionKey := baseSessionKey
  threadId := c.threadId
  parentSessionKey := none
  useSuffix := none
  normalizeThreadId := none

def sessionKey (agentId : Text) (mainKey : Option Text) (dmScope : DmScope) (c : Conversation) : Text :=
  let baseSessionKey := buildAgentPeerSessionKey lower (c.peerSession agentId mainKey dmScope)
  (resolveThreadSessionKeys lower (c.threadSession baseSessionKey)).sessionKey

-- ---
-- Parts
-- ---

def peer (c : Conversation) : Text := lower.normalizeToken c.peerId

/-- The peer id of a group or a channel. -/
def room (c : Conversation) : Text := if c.peer lower = [] then "unknown".toList else c.peer lower

def account (c : Conversation) : Text := normalizeAccountId lower c.accountId

def thread (c : Conversation) : Option Text :=
  let threadId := lower.normalizeToken c.threadId
  if threadId = [] then none else some threadId

/-- A direct message without a peer id, which goes to the main session. -/
def InMain (c : Conversation) : Prop := c.kind = .direct ∧ c.peer lower = []

/-- What stands before the marker `direct:` in the key of a direct message. -/
def lead (dmScope : DmScope) (c : Conversation) : List Text :=
  match dmScope with
  | .main => []
  | .perPeer => []
  | .perChannelPeer => [channelSegment lower c.channel]
  | .perAccountChannelPeer => [channelSegment lower c.channel, c.account lower]

/-- What stands in the key behind the agent and before the thread. -/
def address (mainKey : Option Text) (dmScope : DmScope) (c : Conversation) : Text :=
  if c.kind = .direct then
    if c.peer lower = [] then normalizeMainKey lower mainKey
    else joined ':' (c.lead lower dmScope ++ [ChatType.direct.text]) (c.peer lower)
  else joined ':' [channelSegment lower c.channel, c.kind.text] (c.room lower)

theorem room_eq (c : Conversation) :
    c.room lower = lower.toLowerCase
      (if trimChars (c.peerId.getD []) = [] then "unknown".toList else trimChars (c.peerId.getD [])) := by
  have hunknown : lower.toLowerCase "unknown".toList = "unknown".toList := lower.ascii _ (by simp)
  unfold room peer LowerCase.normalizeToken
  simp only [lower.toLowerCase_eq_nil]
  split
  · exact hunknown.symm
  · rfl

/-- The key of the main session without its last segment. -/
def agentLead (agentId : Text) : Text := "agent:".toList ++ normalizeAgentId lower (some agentId)

theorem agentLead_eq (agentId : Text) :
    agentLead lower agentId = "agent:".toList ++ normalizeAgentId lower (some agentId) := by
  delta agentLead
  exact Eq.refl _

theorem buildAgentMainSessionKey_eq (agentId : Text) (mainKey : Option Text) :
    buildAgentMainSessionKey lower agentId mainKey = agentLead lower agentId ++ ':' :: normalizeMainKey lower mainKey := by
  delta buildAgentMainSessionKey agentLead
  exact Eq.refl _

theorem text_eq_iff (kind kind' : ChatType) : kind.text = kind'.text ↔ kind = kind' := by
  cases kind <;> cases kind' <;> decide

theorem directMark : ":direct:".toList = ':' :: (ChatType.direct.text ++ [':']) := by
  delta ChatType.text
  exact Eq.refl _

theorem buildAgentPeerSessionKey_eq (agentId : Text) (mainKey : Option Text) (hscope : dmScope ≠ .main)
    (c : Conversation) : buildAgentPeerSessionKey lower (c.peerSession agentId mainKey dmScope) =
      agentLead lower agentId ++ ':' :: c.address lower mainKey dmScope := by
  have hpeer : c.peer lower = lower.toLowerCase (trimChars (c.peerId.getD [])) := rfl
  unfold buildAgentPeerSessionKey address
  dsimp only [peerSession]
  by_cases hkind : c.kind = .direct
  · have hkind' : c.peerKind.getD .direct = .direct := hkind
    rw [if_pos hkind', if_pos hkind]
    simp only [resolveLinkedPeerId, ite_self, Option.getD_some, Option.getD_none, ← hpeer]
    by_cases hempty : c.peer lower = []
    · simp [hempty, buildAgentMainSessionKey_eq]
    · cases dmScope with
      | main => exact absurd rfl hscope
      | perPeer => simp [hempty, agentLead_eq, lead, directMark, -String.reduceToList]
      | perChannelPeer => simp [hempty, agentLead_eq, lead, directMark, -String.reduceToList]
      | perAccountChannelPeer => simp [hempty, agentLead_eq, lead, directMark, account, -String.reduceToList]
  · have hkind' : c.peerKind.getD .direct ≠ .direct := hkind
    rw [if_neg hkind', if_neg hkind, ← room_eq]
    simp [agentLead_eq, kind]

theorem sessionKey_eq (agentId : Text) (mainKey : Option Text) (hscope : dmScope ≠ .main) (c : Conversation) :
    c.sessionKey lower agentId mainKey dmScope = agentLead lower agentId ++
      ':' :: tagged ':' "thread".toList (c.address lower mainKey dmScope) (c.thread lower) := by
  unfold sessionKey resolveThreadSessionKeys thread
  dsimp only [threadSession]
  rw [buildAgentPeerSessionKey_eq lower agentId mainKey hscope]
  by_cases hempty : trimChars (c.threadId.getD []) = []
  · have hnone : lower.normalizeToken c.threadId = [] := lower.toLowerCase_eq_nil.2 hempty
    rw [if_pos hempty, if_pos hnone]
    rfl
  · have hsome : lower.normalizeToken c.threadId ≠ [] := fun h => hempty (lower.toLowerCase_eq_nil.1 h)
    rw [if_neg hempty, if_neg hsome]
    simp [tagged, mark, LowerCase.normalizeToken]

end Conversation

-- ---
-- Segments hold no colon
-- ---

theorem colon_notMem_channelSegment {channel : Text} (h : ':' ∉ channel) (lower : LowerCase) :
    ':' ∉ channelSegment lower channel := by
  unfold channelSegment
  dsimp only
  split
  · decide
  · intro hcolon
    exact h (mem_of_mem_trimChars ((lower.colon_mem).1 hcolon))

theorem colon_notMem_account (lower : LowerCase) (c : Conversation) : ':' ∉ c.account lower := fun h =>
  absurd (isIdChar_normalizeAccountId lower c.accountId _ h) (by decide)

theorem colon_notMem_kind (kind : ChatType) : ':' ∉ kind.text := by cases kind <;> decide

theorem colon_notMem_lead {c : Conversation} (h : ':' ∉ c.channel) (lower : LowerCase) (dmScope : DmScope) :
    ∀ segment ∈ c.lead lower dmScope, ':' ∉ segment := by
  have hchannel := colon_notMem_channelSegment h lower
  cases dmScope with
  | main => simp [Conversation.lead]
  | perPeer => simp [Conversation.lead]
  | perChannelPeer => simpa [Conversation.lead] using hchannel
  | perAccountChannelPeer => simpa [Conversation.lead] using ⟨hchannel, colon_notMem_account lower c⟩

-- ---
-- Shared keys
-- ---

/-- Two conversations whose keys are the same text. -/
inductive Meets (lower : LowerCase) (mainKey : Option Text) (dmScope : DmScope) : Conversation → Conversation → Prop
  /-- Direct messages without a peer id, in the main session or one thread of it. -/
  | main : x.InMain lower → y.InMain lower → x.thread lower = y.thread lower → Meets lower mainKey dmScope x y
  /-- The main key, with its thread, is spelled as the other's address is. -/
  | mainKey : x.InMain lower → ¬ y.InMain lower →
      SpelledAlike ':' "thread".toList (normalizeMainKey lower mainKey) (x.thread lower)
        (y.address lower mainKey dmScope) (y.thread lower) →
      Meets lower mainKey dmScope x y
  /-- Direct messages of one channel and account, as far as the scope keeps them. -/
  | direct : x.kind = .direct → y.kind = .direct → x.peer lower ≠ [] → y.peer lower ≠ [] →
      x.lead lower dmScope = y.lead lower dmScope →
      SpelledAlike ':' "thread".toList (x.peer lower) (x.thread lower) (y.peer lower) (y.thread lower) →
      Meets lower mainKey dmScope x y
  /-- Groups, or channels, of one channel. -/
  | room : x.kind ≠ .direct → x.kind = y.kind → channelSegment lower x.channel = channelSegment lower y.channel →
      SpelledAlike ':' "thread".toList (x.room lower) (x.thread lower) (y.room lower) (y.thread lower) →
      Meets lower mainKey dmScope x y
  /-- A channel with the name `direct`, and a peer id that begins as the key of its rooms. -/
  | channelDirect : dmScope = .perPeer → x.kind = .direct → y.kind ≠ .direct → x.peer lower ≠ [] →
      channelSegment lower y.channel = ChatType.direct.text →
      SpelledAlike ':' "thread".toList (x.peer lower) (x.thread lower)
        (y.kind.text ++ ':' :: y.room lower) (y.thread lower) →
      Meets lower mainKey dmScope x y
  /-- An account with the name `group` or `channel`, and a room id that begins with `direct:`. -/
  | accountKind : dmScope = .perAccountChannelPeer → x.kind = .direct → y.kind ≠ .direct → x.peer lower ≠ [] →
      channelSegment lower x.channel = channelSegment lower y.channel → x.account lower = y.kind.text →
      SpelledAlike ':' "thread".toList (ChatType.direct.text ++ ':' :: x.peer lower) (x.thread lower)
        (y.room lower) (y.thread lower) →
      Meets lower mainKey dmScope x y

def Confused (lower : LowerCase) (mainKey : Option Text) (dmScope : DmScope) (x y : Conversation) : Prop :=
  Meets lower mainKey dmScope x y ∨ Meets lower mainKey dmScope y x

section

variable {lower : LowerCase} {mainKey : Option Text} {dmScope : DmScope} {x y : Conversation}

/-- The address with its thread, which is what the keys of one agent differ in. -/
def Conversation.place (lower : LowerCase) (mainKey : Option Text) (dmScope : DmScope) (c : Conversation) : Text :=
  tagged ':' "thread".toList (c.address lower mainKey dmScope) (c.thread lower)

theorem address_inMain (h : x.InMain lower) : x.address lower mainKey dmScope = normalizeMainKey lower mainKey := by
  rw [Conversation.address, if_pos h.1, if_pos h.2]

theorem address_direct (hkind : x.kind = .direct) (hpeer : x.peer lower ≠ []) :
    x.address lower mainKey dmScope = joined ':' (x.lead lower dmScope ++ [ChatType.direct.text]) (x.peer lower) := by
  rw [Conversation.address, if_pos hkind, if_neg hpeer]

theorem address_room (hkind : x.kind ≠ .direct) :
    x.address lower mainKey dmScope = joined ':' [channelSegment lower x.channel, x.kind.text] (x.room lower) := by
  rw [Conversation.address, if_neg hkind]

theorem place_inMain (h : x.InMain lower) :
    x.place lower mainKey dmScope = tagged ':' "thread".toList (normalizeMainKey lower mainKey) (x.thread lower) := by
  rw [Conversation.place, address_inMain h]

theorem place_direct (hkind : x.kind = .direct) (hpeer : x.peer lower ≠ []) :
    x.place lower mainKey dmScope = joined ':' (x.lead lower dmScope ++ [ChatType.direct.text])
      (tagged ':' "thread".toList (x.peer lower) (x.thread lower)) := by
  rw [Conversation.place, address_direct hkind hpeer, tagged_joined]

theorem place_room (hkind : x.kind ≠ .direct) :
    x.place lower mainKey dmScope = joined ':' [channelSegment lower x.channel, x.kind.text]
      (tagged ':' "thread".toList (x.room lower) (x.thread lower)) := by
  rw [Conversation.place, address_room hkind, tagged_joined]

theorem tagged_cons_segment (segment rest : Text) (tag : Option Text) :
    segment ++ ':' :: tagged ':' "thread".toList rest tag = tagged ':' "thread".toList (segment ++ ':' :: rest) tag :=
  (tagged_joined [segment] rest tag).symm

theorem tagged_thread_eq_iff {list list' : Text} : tagged ':' "thread".toList list tag =
    tagged ':' "thread".toList list' tag' ↔ SpelledAlike ':' "thread".toList list tag list' tag' :=
  tagged_eq_iff (by decide)

theorem Meets.place_eq (h : Meets lower mainKey dmScope x y) :
    x.place lower mainKey dmScope = y.place lower mainKey dmScope := by
  cases h with
  | main hx hy hthread => rw [place_inMain hx, place_inMain hy, hthread]
  | mainKey hx hy hspelled =>
    rw [place_inMain hx, Conversation.place]
    exact tagged_thread_eq_iff.2 hspelled
  | direct hx hy hpeer hpeer' hlead hspelled =>
    rw [place_direct hx hpeer, place_direct hy hpeer', hlead, tagged_thread_eq_iff.2 hspelled]
  | room hx hkind hchannel hspelled =>
    rw [place_room hx, place_room (hkind ▸ hx), hchannel, hkind, tagged_thread_eq_iff.2 hspelled]
  | channelDirect hscope hx hy hpeer hchannel hspelled =>
    subst hscope
    rw [place_direct hx hpeer, place_room hy, tagged_thread_eq_iff.2 hspelled, hchannel, ← tagged_cons_segment]
    rfl
  | accountKind hscope hx hy hpeer hchannel haccount hspelled =>
    subst hscope
    rw [place_direct hx hpeer, place_room hy, ← tagged_thread_eq_iff.2 hspelled, ← hchannel, ← haccount,
      ← tagged_cons_segment]
    rfl

/-- The keys of a direct message and of a room meet only where the segments
between channel and peer are one more, or one less, than usual. -/
theorem meets_of_direct_room (hscope : dmScope ≠ .main) (hkind : x.kind = .direct) (hpeer : x.peer lower ≠ [])
    (hroom : y.kind ≠ .direct) (hx : ':' ∉ x.channel) (hy : ':' ∉ y.channel)
    (h : x.place lower mainKey dmScope = y.place lower mainKey dmScope) : Meets lower mainKey dmScope x y := by
  have hchannel := colon_notMem_channelSegment hx lower
  have hchannel' := colon_notMem_channelSegment hy lower
  have hdirect : ':' ∉ ChatType.direct.text := colon_notMem_kind .direct
  rw [place_direct hkind hpeer, place_room hroom] at h
  cases dmScope with
  | main => exact absurd rfl hscope
  | perPeer =>
    obtain ⟨hname, h⟩ := (joined_cons_eq_iff hdirect hchannel').1 h
    rw [joined_nil, joined_cons, joined_nil, tagged_cons_segment] at h
    exact .channelDirect rfl hkind hroom hpeer hname.symm (tagged_thread_eq_iff.1 h)
  | perChannelPeer =>
    obtain ⟨-, h⟩ := (joined_cons_eq_iff hchannel hchannel').1 h
    obtain ⟨hname, -⟩ := (joined_cons_eq_iff hdirect (colon_notMem_kind y.kind)).1 h
    exact absurd ((Conversation.text_eq_iff _ _).1 hname).symm hroom
  | perAccountChannelPeer =>
    obtain ⟨hname, h⟩ := (joined_cons_eq_iff hchannel hchannel').1 h
    obtain ⟨haccount, h⟩ := (joined_cons_eq_iff (colon_notMem_account lower x) (colon_notMem_kind y.kind)).1 h
    have h : ChatType.direct.text ++ ':' :: tagged ':' "thread".toList (x.peer lower) (x.thread lower) =
      tagged ':' "thread".toList (y.room lower) (y.thread lower) := h
    rw [tagged_cons_segment] at h
    exact .accountKind rfl hkind hroom hpeer hname haccount (tagged_thread_eq_iff.1 h)

theorem length_lead (lower : LowerCase) (dmScope : DmScope) (x y : Conversation) :
    (x.lead lower dmScope).length = (y.lead lower dmScope).length := by cases dmScope <;> rfl

theorem meets_of_direct (hkind : x.kind = .direct) (hpeer : x.peer lower ≠ []) (hkind' : y.kind = .direct)
    (hpeer' : y.peer lower ≠ []) (hx : ':' ∉ x.channel) (hy : ':' ∉ y.channel)
    (h : x.place lower mainKey dmScope = y.place lower mainKey dmScope) : Meets lower mainKey dmScope x y := by
  have hdirect : ':' ∉ ChatType.direct.text := colon_notMem_kind .direct
  rw [place_direct hkind hpeer, place_direct hkind' hpeer', joined_eq_iff] at h
  · exact .direct hkind hkind' hpeer hpeer' (List.append_cancel_right h.1) (tagged_thread_eq_iff.1 h.2)
  · simpa [or_imp, forall_and] using ⟨colon_notMem_lead hx lower dmScope, hdirect⟩
  · simpa [or_imp, forall_and] using ⟨colon_notMem_lead hy lower dmScope, hdirect⟩
  · rw [List.length_append, List.length_append, length_lead lower dmScope x y]

theorem text_inj {kind kind' : ChatType} : kind.text = kind'.text ↔ kind = kind' := by
  cases kind <;> cases kind' <;> decide

theorem meets_of_room (hkind : x.kind ≠ .direct) (hkind' : y.kind ≠ .direct) (hx : ':' ∉ x.channel) (hy : ':' ∉ y.channel)
    (h : x.place lower mainKey dmScope = y.place lower mainKey dmScope) : Meets lower mainKey dmScope x y := by
  rw [place_room hkind, place_room hkind'] at h
  obtain ⟨hchannel, h⟩ := (joined_cons_eq_iff (colon_notMem_channelSegment hx lower) (colon_notMem_channelSegment hy lower)).1 h
  obtain ⟨hsame, h⟩ := (joined_cons_eq_iff (colon_notMem_kind x.kind) (colon_notMem_kind y.kind)).1 h
  exact .room hkind (text_inj.1 hsame) hchannel (tagged_thread_eq_iff.1 h)

theorem meets_of_inMain (hmain : x.InMain lower) (h : x.place lower mainKey dmScope = y.place lower mainKey dmScope) :
    Meets lower mainKey dmScope x y := by
  rw [place_inMain hmain] at h
  by_cases hother : y.InMain lower
  · rw [place_inMain hother] at h
    exact .main hmain hother (tagged_inj.1 h)
  · exact .mainKey hmain hother (tagged_thread_eq_iff.1 h)

theorem place_eq_iff (hscope : dmScope ≠ .main) (hx : ':' ∉ x.channel) (hy : ':' ∉ y.channel) :
    x.place lower mainKey dmScope = y.place lower mainKey dmScope ↔ Confused lower mainKey dmScope x y := by
  constructor
  · intro h
    by_cases hmain : x.InMain lower
    · exact .inl (meets_of_inMain hmain h)
    by_cases hmain' : y.InMain lower
    · exact .inr (meets_of_inMain hmain' h.symm)
    by_cases hkind : x.kind = .direct
    · have hpeer : x.peer lower ≠ [] := fun hempty => hmain ⟨hkind, hempty⟩
      by_cases hkind' : y.kind = .direct
      · exact .inl (meets_of_direct hkind hpeer hkind' (fun hempty => hmain' ⟨hkind', hempty⟩) hx hy h)
      · exact .inl (meets_of_direct_room hscope hkind hpeer hkind' hx hy h)
    · by_cases hkind' : y.kind = .direct
      · have hpeer : y.peer lower ≠ [] := fun hempty => hmain' ⟨hkind', hempty⟩
        exact .inr (meets_of_direct_room hscope hkind' hpeer hkind hy hx h.symm)
      · exact .inl (meets_of_room hkind hkind' hx hy h)
  · rintro (h | h)
    · exact h.place_eq
    · exact h.place_eq.symm

end

-- ---
-- Isolation
-- ---

/-- Two conversations differ, trimmed and in lower case, in what the scope keeps. -/
def Differ (lower : LowerCase) (dmScope : DmScope) (x y : Conversation) : Prop :=
  x.kind ≠ y.kind ∨ x.peer lower ≠ y.peer lower ∨ x.thread lower ≠ y.thread lower ∨
  ((x.kind ≠ .direct ∨ dmScope = .perChannelPeer ∨ dmScope = .perAccountChannelPeer) ∧
    lower.normalizeToken (some x.channel) ≠ lower.normalizeToken (some y.channel)) ∨
  (x.kind = .direct ∧ dmScope = .perAccountChannelPeer ∧
    lower.normalizeToken x.accountId ≠ lower.normalizeToken y.accountId)

def Isolated (lower : LowerCase) (agentId : Text) (mainKey : Option Text) (dmScope : DmScope) (x y : Conversation) : Prop :=
  Differ lower dmScope x y → x.sessionKey lower agentId mainKey dmScope ≠ y.sessionKey lower agentId mainKey dmScope

/-- Conversations that differ have keys of their own exactly where they are not confused. -/
theorem conversations_isolated_iff (lower : LowerCase) (agentId : Text) (mainKey : Option Text)
    (hscope : dmScope ≠ .main) (hx : ':' ∉ x.channel) (hy : ':' ∉ y.channel) :
    Isolated lower agentId mainKey dmScope x y ↔ (Differ lower dmScope x y → ¬ Confused lower mainKey dmScope x y) := by
  have hkeys : x.sessionKey lower agentId mainKey dmScope = y.sessionKey lower agentId mainKey dmScope ↔
      Confused lower mainKey dmScope x y := by
    rw [← place_eq_iff hscope hx hy, Conversation.sessionKey_eq lower agentId mainKey hscope,
      Conversation.sessionKey_eq lower agentId mainKey hscope, List.append_right_inj, List.cons_inj_right]
    rfl
  unfold Isolated
  rw [Ne, hkeys]

def sampleRoom (peerId : String) (threadId : Option String) : Conversation where
  channel := "matrix".toList
  accountId := none
  peerKind := some .group
  peerId := some peerId.toList
  threadId := threadId.map String.toList

theorem conversations_isolated_sample :
    Isolated .simple "main".toList none .perChannelPeer (sampleRoom "room" (some "7")) (sampleRoom "room" (some "8")) ↔
      (Differ .simple .perChannelPeer (sampleRoom "room" (some "7")) (sampleRoom "room" (some "8")) →
        ¬ Confused .simple none .perChannelPeer (sampleRoom "room" (some "7")) (sampleRoom "room" (some "8"))) :=
  conversations_isolated_iff .simple "main".toList none (by decide) (by decide) (by decide)

/-- A room whose id ends as a thread does has the key of that thread of another room. -/
theorem not_conversations_isolated : ¬ ∀ (agentId : Text) (mainKey : Option Text) (dmScope : DmScope) (x y : Conversation),
    dmScope ≠ .main → ':' ∉ x.channel → ':' ∉ y.channel → Isolated .simple agentId mainKey dmScope x y := by
  intro h
  have hisolated := h "main".toList none .perChannelPeer (sampleRoom "room" (some "7")) (sampleRoom "room:thread:7" none)
    (by decide) (by decide) (by decide)
  exact hisolated (.inr (.inl (by decide))) (by decide)

end OpenClaw.Routing
