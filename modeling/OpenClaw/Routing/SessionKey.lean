import Mathlib.Data.List.TakeDrop
import OpenClaw.Js.LowerCase

/-!
# Session keys

The key of the session that a conversation belongs to: the normal forms of agent
and account ids, the key of a peer under the scope of direct messages, and the
suffix of a thread.
-/

namespace OpenClaw.Routing

open Js

-- ---
-- Ids
-- ---

def DEFAULT_ACCOUNT_ID : Text := "default".toList
def DEFAULT_AGENT_ID : Text := "main".toList
def DEFAULT_MAIN_KEY : Text := "main".toList

/-- `[a-z0-9]` -/
def isIdStart (c : Char) : Bool := c.isLower || c.isDigit

/-- `[a-z0-9_-]` -/
def isIdChar (c : Char) : Bool := isIdStart c || c = '_' || c = '-'

/-- `/^[a-z0-9][a-z0-9_-]{0,63}$/i` -/
def VALID_ID_RE : Text → Bool
  | [] => false
  | c :: rest => isIdStart c.toLower && rest.all (fun c => isIdChar c.toLower) && rest.length ≤ 63

/-- `text.replace(/[^a-z0-9_-]+/g, "-")`, within a run of such characters or not. -/
def replaceInvalidChars (inRun : Bool) : Text → Text
  | [] => []
  | c :: rest =>
    if isIdChar c then c :: replaceInvalidChars false rest
    else if inRun then replaceInvalidChars true rest
    else '-' :: replaceInvalidChars true rest

/-- Without the dashes at its ends, and no longer than 64 characters. -/
def trimDashes (text : Text) : Text := ((text.dropWhile (· = '-')).rdropWhile (· = '-')).take 64

def isBlockedObjectKey (key : Text) : Bool :=
  ["__proto__".toList, "prototype".toList, "constructor".toList].contains key

section

variable (lower : LowerCase)

def canonicalizeAccountId (value : Text) : Text :=
  if VALID_ID_RE value then lower.toLowerCase value
  else trimDashes (replaceInvalidChars false (lower.toLowerCase value))

def normalizeCanonicalAccountId (value : Text) : Option Text :=
  let canonical := canonicalizeAccountId lower value
  if canonical = [] || isBlockedObjectKey canonical then none else some canonical

/-- What `normalizeAccountId` puts in its table for a trimmed id that is not empty. -/
def normalizeTrimmedAccountId (trimmed : Text) : Text :=
  (normalizeCanonicalAccountId lower trimmed).getD DEFAULT_ACCOUNT_ID

def normalizeAccountId (value : Option Text) : Text :=
  let trimmed := trimChars (value.getD [])
  if trimmed = [] then DEFAULT_ACCOUNT_ID else normalizeTrimmedAccountId lower trimmed

def normalizeAgentId (value : Option Text) : Text :=
  let trimmed := trimChars (value.getD [])
  if trimmed = [] then DEFAULT_AGENT_ID
  else if VALID_ID_RE trimmed then lower.toLowerCase trimmed
  else
    let id := trimDashes (replaceInvalidChars false (lower.toLowerCase trimmed))
    if id = [] then DEFAULT_AGENT_ID else id

def sanitizeAgentId (value : Option Text) : Text := normalizeAgentId lower value

def normalizeMainKey (value : Option Text) : Text :=
  let trimmed := trimChars (value.getD [])
  if trimmed = [] then DEFAULT_MAIN_KEY else lower.toLowerCase trimmed

-- ---
-- Peers
-- ---

inductive ChatType where
  | direct
  | group
  | channel
  deriving DecidableEq

def ChatType.text : ChatType → Text
  | .direct => "direct".toList
  | .group => "group".toList
  | .channel => "channel".toList

inductive DmScope where
  | main
  | perPeer
  | perChannelPeer
  | perAccountChannelPeer
  deriving DecidableEq

/-- The ids of each canonical name, in the order of `Object.entries`. -/
abbrev IdentityLinks := List (Text × List Text)

structure PeerSession where
  agentId : Text
  mainKey : Option Text
  channel : Text
  accountId : Option Text
  peerKind : Option ChatType
  peerId : Option Text
  identityLinks : Option IdentityLinks
  dmScope : Option DmScope

def buildAgentMainSessionKey (agentId : Text) (mainKey : Option Text) : Text :=
  "agent:".toList ++ normalizeAgentId lower (some agentId) ++ ':' :: normalizeMainKey lower mainKey

def resolveLinkedPeerId (identityLinks : Option IdentityLinks) (channel peerId : Text) : Option Text :=
  match identityLinks with
  | none => none
  | some identityLinks =>
    let peerId := trimChars peerId
    if peerId = [] then none
    else
      let channel := lower.normalizeToken (some channel)
      let candidates :=
        (lower.normalizeToken (some peerId) ::
          if channel = [] then [] else [lower.normalizeToken (some (channel ++ ':' :: peerId))]).filter (· ≠ [])
      if candidates = [] then none
      else
        let links := identityLinks.filter fun link => trimChars link.1 ≠ []
        let linked := links.find? fun link =>
          link.2.any fun id => lower.normalizeToken (some id) ≠ [] && candidates.contains (lower.normalizeToken (some id))
        linked.map fun link => trimChars link.1

/-- `(params.channel ?? "").trim().toLowerCase() || "unknown"` -/
def channelSegment (channel : Text) : Text :=
  let channel := lower.normalizeToken (some channel)
  if channel = [] then "unknown".toList else channel

def buildAgentPeerSessionKey (params : PeerSession) : Text :=
  let agent := "agent:".toList ++ normalizeAgentId lower (some params.agentId)
  let peerKind := params.peerKind.getD .direct
  let channel := channelSegment lower params.channel
  if peerKind = .direct then
    let dmScope := params.dmScope.getD .main
    let peerId := trimChars (params.peerId.getD [])
    let linkedPeerId :=
      if dmScope = .main then none else resolveLinkedPeerId lower params.identityLinks params.channel peerId
    let peerId := lower.toLowerCase (linkedPeerId.getD peerId)
    if dmScope = .perAccountChannelPeer ∧ peerId ≠ [] then
      let accountId := normalizeAccountId lower params.accountId
      agent ++ ':' :: channel ++ ':' :: accountId ++ ":direct:".toList ++ peerId
    else if dmScope = .perChannelPeer ∧ peerId ≠ [] then
      agent ++ ':' :: channel ++ ":direct:".toList ++ peerId
    else if dmScope = .perPeer ∧ peerId ≠ [] then
      agent ++ ":direct:".toList ++ peerId
    else
      buildAgentMainSessionKey lower params.agentId params.mainKey
  else
    let trimmed := trimChars (params.peerId.getD [])
    let peerId := lower.toLowerCase (if trimmed = [] then "unknown".toList else trimmed)
    agent ++ ':' :: channel ++ ':' :: peerKind.text ++ ':' :: peerId

-- ---
-- Threads
-- ---

structure ThreadSession where
  baseSessionKey : Text
  threadId : Option Text
  parentSessionKey : Option Text
  useSuffix : Option Bool
  normalizeThreadId : Option (Text → Text)

structure ThreadSessionKeys where
  sessionKey : Text
  parentSessionKey : Option Text

def resolveThreadSessionKeys (params : ThreadSession) : ThreadSessionKeys :=
  let threadId := trimChars (params.threadId.getD [])
  if threadId = [] then ⟨params.baseSessionKey, none⟩
  else
    let normalizedThreadId := params.normalizeThreadId.getD lower.toLowerCase threadId
    let useSuffix := params.useSuffix.getD true
    let sessionKey :=
      if useSuffix then params.baseSessionKey ++ ":thread:".toList ++ normalizedThreadId
      else params.baseSessionKey
    ⟨sessionKey, params.parentSessionKey⟩

end

-- ---
-- Account ids
-- ---

theorem toNat_lt_of_isIdChar_toLower {c : Char} (h : isIdChar c.toLower = true) : c.toNat < 128 := by
  unfold Char.toLower at h
  split at h
  case isTrue hupper =>
    have hle := UInt32.le_iff_toNat_le.1 hupper.2
    exact Nat.lt_of_le_of_lt hle (by decide)
  case isFalse =>
    simp only [isIdChar, isIdStart, isLower_eq, Char.isDigit, ge_iff_le, UInt32.le_iff_toNat_le, Bool.or_eq_true,
      Bool.and_eq_true, decide_eq_true_eq] at h
    rcases h with ((⟨-, hle⟩ | ⟨-, hle⟩) | rfl) | rfl
    · exact Nat.lt_of_le_of_lt hle (by decide)
    · exact Nat.lt_of_le_of_lt hle (by decide)
    · decide
    · decide

theorem isIdChar_of_VALID_ID_RE {value : Text} (h : VALID_ID_RE value) : ∀ c ∈ value, isIdChar c.toLower = true := by
  cases value with
  | nil => simp
  | cons c rest =>
    simp only [VALID_ID_RE, Bool.and_eq_true, List.all_eq_true] at h
    refine List.forall_mem_cons.2 ⟨?_, h.1.2⟩
    rw [isIdChar, h.1.1]
    rfl

theorem isIdChar_replaceInvalidChars (inRun : Bool) (text : Text) : ∀ c ∈ replaceInvalidChars inRun text, isIdChar c := by
  induction text generalizing inRun with
  | nil => simp [replaceInvalidChars]
  | cons d text ih =>
    rw [replaceInvalidChars]
    split
    case isTrue hd => exact List.forall_mem_cons.2 ⟨hd, ih false⟩
    case isFalse =>
      split
      · exact ih true
      · exact List.forall_mem_cons.2 ⟨by decide, ih true⟩

theorem trimDashes_subset (text : Text) : trimDashes text ⊆ text := fun _ h =>
  (List.dropWhile_suffix _).subset ((List.rdropWhile_prefix _ _).subset (List.mem_of_mem_take h))

theorem isIdChar_canonicalizeAccountId (lower : LowerCase) (value : Text) :
    ∀ c ∈ canonicalizeAccountId lower value, isIdChar c := by
  unfold canonicalizeAccountId
  split
  case isTrue hvalid =>
    have hid := isIdChar_of_VALID_ID_RE hvalid
    rw [lower.ascii value fun c hc => toNat_lt_of_isIdChar_toLower (hid c hc)]
    simpa using hid
  case isFalse =>
    intro c hc
    exact isIdChar_replaceInvalidChars false _ c (trimDashes_subset _ hc)

theorem isIdChar_normalizeAccountId (lower : LowerCase) (value : Option Text) :
    ∀ c ∈ normalizeAccountId lower value, isIdChar c := by
  unfold normalizeAccountId normalizeTrimmedAccountId normalizeCanonicalAccountId
  dsimp only
  split
  · exact List.all_eq_true.1 (by decide)
  · split
    · exact List.all_eq_true.1 (by decide)
    · exact isIdChar_canonicalizeAccountId lower _

end OpenClaw.Routing

/-!
# Agent ids

An agent id in its normal form is in its normal form, but for one that starts with an
underscore and was cut to 64 characters behind a dash: it is not taken as it is, for the
underscore, and loses the dash.
-/

namespace OpenClaw.Routing

open Js

-- ---
-- Texts of id characters
-- ---

section
variable {lower : LowerCase} {text : Text}

end

-- ---
-- Twice
-- ---

end OpenClaw.Routing
