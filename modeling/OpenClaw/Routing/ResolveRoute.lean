import OpenClaw.Lib.Memo
import OpenClaw.Routing.SessionKey
import OpenClaw.Shared.DeviceAuth

/-!
# Routes

The agent and the session that a message goes to, by the bindings of the config,
and the caches that `resolveAgentRoute` keeps between calls.
-/

namespace OpenClaw.Routing

open Js Members Memo

-- ---
-- Config
-- ---

structure BindingPeer where
  kind : Option Text
  id : Option Text

structure AgentBindingMatch where
  channel : Text
  accountId : Option Text
  peer : Option BindingPeer
  guildId : Option Text
  teamId : Option Text
  roles : Option (List Text)

inductive BindingType where
  | route
  | acp
  deriving DecidableEq

structure AgentBinding where
  type : Option BindingType
  agentId : Text
  bindingMatch : AgentBindingMatch

structure AgentEntry where
  id : Text
  isDefault : Bool

structure SessionConfig where
  dmScope : Option DmScope
  identityLinks : Option IdentityLinks

/-- The parts of a config, which are replaced and never changed in place: a
reference always stands for the same value. -/
structure Heap where
  bindings : Nat → List AgentBinding
  agents : Nat → List AgentEntry
  session : Nat → SessionConfig

/-- A config by the references of its parts. -/
structure OpenClawConfig where
  bindings : Nat
  agents : Nat
  session : Nat
  deriving DecidableEq

-- ---
-- Input and route
-- ---

structure RoutePeer where
  kind : ChatType
  id : Text
  deriving DecidableEq

structure ResolveAgentRouteInput where
  channel : Text
  accountId : Option Text
  peer : Option RoutePeer
  parentPeer : Option RoutePeer
  guildId : Option Text
  teamId : Option Text
  memberRoleIds : Option (List Text)

inductive LastRoutePolicy where
  | main
  | session
  deriving DecidableEq

inductive MatchedBy where
  | bindingPeer
  | bindingPeerParent
  | bindingPeerWildcard
  | bindingGuildRoles
  | bindingGuild
  | bindingTeam
  | bindingAccount
  | bindingChannel
  | default
  deriving DecidableEq

structure ResolvedAgentRoute where
  agentId : Text
  channel : Text
  accountId : Text
  sessionKey : Text
  mainSessionKey : Text
  lastRoutePolicy : LastRoutePolicy
  matchedBy : MatchedBy
  deriving DecidableEq

def deriveLastRoutePolicy (sessionKey mainSessionKey : Text) : LastRoutePolicy :=
  if sessionKey = mainSessionKey then .main else .session

def normalizeId (value : Option Text) : Text := trimChars (value.getD [])

section

variable (lower : LowerCase)

def normalizeChatType (raw : Option Text) : Option ChatType :=
  let value := lower.normalizeToken raw
  if value = "direct".toList ∨ value = "dm".toList then some .direct
  else if value = "group".toList then some .group
  else if value = "channel".toList then some .channel
  else none

def buildAgentSessionKey (agentId channel : Text) (accountId : Option Text) (peer : Option RoutePeer)
    (dmScope : Option DmScope) (identityLinks : Option IdentityLinks) : Text :=
  buildAgentPeerSessionKey lower {
    agentId
    mainKey := some DEFAULT_MAIN_KEY
    channel := channelSegment lower channel
    accountId
    peerKind := some ((peer.map RoutePeer.kind).getD .direct)
    peerId := peer.map fun peer =>
      let id := normalizeId (some peer.id)
      if id = [] then "unknown".toList else id
    dmScope
    identityLinks }

-- ---
-- Agents
-- ---

def resolveDefaultAgentId (agents : List AgentEntry) : Text :=
  match agents with
  | [] => DEFAULT_AGENT_ID
  | first :: _ =>
    let chosen := trimChars ((agents.find? AgentEntry.isDefault).getD first).id
    normalizeAgentId lower (some (if chosen = [] then DEFAULT_AGENT_ID else chosen))

structure AgentLookupCache where
  agentsRef : Nat
  byNormalizedId : List (Text × Text)
  fallbackDefaultAgentId : Text

def buildAgentLookupCache (heap : Heap) (agentsRef : Nat) : AgentLookupCache where
  agentsRef := agentsRef
  byNormalizedId := (heap.agents agentsRef).foldl (fun byNormalizedId agent =>
    let rawId := trimChars agent.id
    if rawId = [] then byNormalizedId
    else assign byNormalizedId (normalizeAgentId lower (some rawId)) (sanitizeAgentId lower (some rawId))) []
  fallbackDefaultAgentId := sanitizeAgentId lower (some (resolveDefaultAgentId lower (heap.agents agentsRef)))

/-- The lookup of the config's agents, kept as long as the list of agents is the same. -/
def resolveAgentLookupCache (heap : Heap) (existing : Option AgentLookupCache) (cfg : OpenClawConfig) : AgentLookupCache :=
  match existing with
  | some existing => if existing.agentsRef = cfg.agents then existing else buildAgentLookupCache lower heap cfg.agents
  | none => buildAgentLookupCache lower heap cfg.agents

def pickFirstExistingAgentId (lookup : AgentLookupCache) (agentId : Text) : Text :=
  let trimmed := trimChars agentId
  if trimmed = [] then lookup.fallbackDefaultAgentId
  else if lookup.byNormalizedId = [] then sanitizeAgentId lower (some trimmed)
  else (lookup.byNormalizedId.lookup (normalizeAgentId lower (some trimmed))).getD lookup.fallbackDefaultAgentId

-- ---
-- Bindings
-- ---

inductive NormalizedPeerConstraint where
  | none
  | invalid
  | wildcardKind (kind : ChatType)
  | valid (kind : ChatType) (id : Text)
  deriving DecidableEq

structure NormalizedBindingMatch where
  accountPattern : Text
  peer : NormalizedPeerConstraint
  guildId : Option Text
  teamId : Option Text
  roles : Option (List Text)
  deriving DecidableEq

/-- A route binding with its match. Its order is its identity. -/
structure EvaluatedBinding where
  agentId : Text
  bindingMatch : NormalizedBindingMatch
  order : Nat
  deriving DecidableEq

structure EvaluatedBindingsByChannel where
  byAccount : List (Text × List EvaluatedBinding)
  byAnyAccount : List EvaluatedBinding

structure EvaluatedBindingsIndex where
  byPeer : List (Text × List EvaluatedBinding)
  byPeerWildcard : List EvaluatedBinding
  byGuildWithRoles : List (Text × List EvaluatedBinding)
  byGuild : List (Text × List EvaluatedBinding)
  byTeam : List (Text × List EvaluatedBinding)
  byAccount : List EvaluatedBinding
  byChannel : List EvaluatedBinding

def normalizePeerConstraint (peer : Option BindingPeer) : NormalizedPeerConstraint :=
  match peer with
  | none => .none
  | some peer =>
    let id := normalizeId peer.id
    match normalizeChatType lower peer.kind with
    | none => .invalid
    | some kind => if id = [] then .invalid else if id = ['*'] then .wildcardKind kind else .valid kind id

/-- `normalizeId(value) || null` -/
def normalizeIdOrNull (value : Option Text) : Option Text := trimmed? value

def normalizeBindingMatch (binding : AgentBindingMatch) : NormalizedBindingMatch where
  accountPattern := normalizeId binding.accountId
  peer := normalizePeerConstraint lower binding.peer
  guildId := normalizeIdOrNull binding.guildId
  teamId := normalizeIdOrNull binding.teamId
  roles := binding.roles.filter (· ≠ [])

def resolveAccountPatternKey (accountPattern : Text) : Text :=
  if trimChars accountPattern = [] then DEFAULT_ACCOUNT_ID else normalizeAccountId lower (some accountPattern)

def listRouteBindings (bindings : List AgentBinding) : List AgentBinding := bindings.filter (·.type ≠ some .acp)

/-- `map.get(key)?.push(binding) ?? map.set(key, [binding])` -/
def pushToMap (map : List (Text × List EvaluatedBinding)) (key : Text) (binding : EvaluatedBinding) :
    List (Text × List EvaluatedBinding) :=
  assign map key ((map.lookup key).getD [] ++ [binding])

def pushToIndexMap (map : List (Text × List EvaluatedBinding)) (key : Option Text) (binding : EvaluatedBinding) :
    List (Text × List EvaluatedBinding) :=
  match key with
  | none => map
  | some key => if key = [] then map else pushToMap map key binding

def buildEvaluatedBindingsByChannel (bindings : List AgentBinding) : List (Text × EvaluatedBindingsByChannel) :=
  let step := fun (built : Nat × List (Text × EvaluatedBindingsByChannel)) (binding : AgentBinding) =>
    let channel := lower.normalizeToken (some binding.bindingMatch.channel)
    if channel = [] then built
    else
      let evaluated : EvaluatedBinding := ⟨binding.agentId, normalizeBindingMatch lower binding.bindingMatch, built.1⟩
      let bucket := (built.2.lookup channel).getD ⟨[], []⟩
      let bucket :=
        if evaluated.bindingMatch.accountPattern = ['*'] then
          { bucket with byAnyAccount := bucket.byAnyAccount ++ [evaluated] }
        else
          let accountKey := resolveAccountPatternKey lower evaluated.bindingMatch.accountPattern
          { bucket with byAccount := pushToMap bucket.byAccount accountKey evaluated }
      (built.1 + 1, assign built.2 channel bucket)
  ((listRouteBindings bindings).foldl step (0, [])).2

def mergeEvaluatedBindingsInSourceOrder (accountScoped anyAccount : List EvaluatedBinding) : List EvaluatedBinding :=
  if accountScoped.length = 0 then anyAccount
  else if anyAccount.length = 0 then accountScoped
  else accountScoped.merge anyAccount fun accountBinding anyBinding => accountBinding.order ≤ anyBinding.order

def peerLookupKeys (kind : ChatType) (id : Text) : List Text :=
  match kind with
  | .group => ["group:".toList ++ id, "channel:".toList ++ id]
  | .channel => ["channel:".toList ++ id, "group:".toList ++ id]
  | .direct => ["direct:".toList ++ id]

def collectPeerIndexedBindings (index : EvaluatedBindingsIndex) (peer : Option RoutePeer) : List EvaluatedBinding :=
  match peer with
  | none => []
  | some peer =>
    ((peerLookupKeys peer.kind peer.id).flatMap fun key => (index.byPeer.lookup key).getD []).foldl
      (fun out binding => if out.contains binding then out else out ++ [binding]) []

def indexBinding (index : EvaluatedBindingsIndex) (binding : EvaluatedBinding) : EvaluatedBindingsIndex :=
  match binding.bindingMatch.peer with
  | .valid kind id =>
    { index with byPeer := (peerLookupKeys kind id).foldl (fun byPeer key => pushToIndexMap byPeer (some key) binding) index.byPeer }
  | .wildcardKind _ => { index with byPeerWildcard := index.byPeerWildcard ++ [binding] }
  | _ =>
    if binding.bindingMatch.guildId.isSome ∧ binding.bindingMatch.roles.isSome then
      { index with byGuildWithRoles := pushToIndexMap index.byGuildWithRoles binding.bindingMatch.guildId binding }
    else if binding.bindingMatch.guildId.isSome then
      { index with byGuild := pushToIndexMap index.byGuild binding.bindingMatch.guildId binding }
    else if binding.bindingMatch.teamId.isSome then
      { index with byTeam := pushToIndexMap index.byTeam binding.bindingMatch.teamId binding }
    else if binding.bindingMatch.accountPattern ≠ ['*'] then
      { index with byAccount := index.byAccount ++ [binding] }
    else { index with byChannel := index.byChannel ++ [binding] }

def buildEvaluatedBindingsIndex (bindings : List EvaluatedBinding) : EvaluatedBindingsIndex :=
  bindings.foldl indexBinding ⟨[], [], [], [], [], [], []⟩

-- ---
-- Caches
-- ---

structure EvaluatedBindingsCache where
  bindingsRef : Nat
  byChannel : List (Text × EvaluatedBindingsByChannel)
  byChannelAccount : List (Text × List EvaluatedBinding)
  byChannelAccountIndex : List (Text × EvaluatedBindingsIndex)

structure RouteCache where
  bindingsRef : Nat
  agentsRef : Nat
  sessionRef : Nat
  byKey : List (Text × ResolvedAgentRoute)

/-- What is kept of one config object, and of account ids. -/
structure Caches where
  accountIds : List (Text × Text)
  agentLookup : Option AgentLookupCache
  evaluated : Option EvaluatedBindingsCache
  routes : Option RouteCache

def Caches.empty : Caches := ⟨[], none, none, none⟩

def ACCOUNT_ID_CACHE_MAX : Nat := 512
def MAX_EVALUATED_BINDINGS_CACHE_KEYS : Nat := 2000
def MAX_RESOLVED_ROUTE_CACHE_KEYS : Nat := 4000

/-- `setNormalizeCache`: the oldest entry goes when the table grows over its bound. -/
def setNormalizeCache (cache : List (Text × Text)) (key value : Text) : List (Text × Text) :=
  let cache := assign cache key value
  if cache.length ≤ ACCOUNT_ID_CACHE_MAX then cache
  else
    match cache with
    | [] => []
    | oldest :: _ => remove cache oldest.1

/-- `normalizeAccountId`, by its table. -/
def lookupAccountId (cache : List (Text × Text)) (value : Option Text) : Text × List (Text × Text) :=
  let trimmed := trimChars (value.getD [])
  if trimmed = [] then (DEFAULT_ACCOUNT_ID, cache)
  else
    match (cache.lookup trimmed).filter (· ≠ []) with
    | some cached => (cached, cache)
    | none =>
      let normalized := normalizeTrimmedAccountId lower trimmed
      (normalized, setNormalizeCache cache trimmed normalized)

variable (heap : Heap)

def emptyEvaluatedBindingsCache (bindingsRef : Nat) : EvaluatedBindingsCache where
  bindingsRef := bindingsRef
  byChannel := buildEvaluatedBindingsByChannel lower (heap.bindings bindingsRef)
  byChannelAccount := []
  byChannelAccountIndex := []

def resolveEvaluatedBindingsCache (existing : Option EvaluatedBindingsCache) (cfg : OpenClawConfig) : EvaluatedBindingsCache :=
  match existing with
  | some existing => if existing.bindingsRef = cfg.bindings then existing else emptyEvaluatedBindingsCache lower heap cfg.bindings
  | none => emptyEvaluatedBindingsCache lower heap cfg.bindings

def channelAccountKey (channel accountId : Text) : Text := channel ++ '\t' :: accountId

/-- The bindings of a channel and account, in the order of the config. -/
def evaluateBindings (byChannel : List (Text × EvaluatedBindingsByChannel)) (channel accountId : Text) :
    List EvaluatedBinding :=
  let channelBindings := byChannel.lookup channel
  let accountScoped := ((channelBindings.map (·.byAccount)).bind (·.lookup accountId)).getD []
  let anyAccount := (channelBindings.map (·.byAnyAccount)).getD []
  mergeEvaluatedBindingsInSourceOrder accountScoped anyAccount

def getEvaluatedBindingsForChannelAccount (existing : Option EvaluatedBindingsCache) (cfg : OpenClawConfig)
    (channel accountId : Text) : List EvaluatedBinding × EvaluatedBindingsCache :=
  let cache := resolveEvaluatedBindingsCache lower heap existing cfg
  let cacheKey := channelAccountKey channel accountId
  match cache.byChannelAccount.lookup cacheKey with
  | some hit => (hit, cache)
  | none =>
    let evaluated := evaluateBindings cache.byChannel channel accountId
    let byChannelAccount := assign cache.byChannelAccount cacheKey evaluated
    let byChannelAccountIndex := assign cache.byChannelAccountIndex cacheKey (buildEvaluatedBindingsIndex evaluated)
    if MAX_EVALUATED_BINDINGS_CACHE_KEYS < byChannelAccount.length then
      (evaluated, { cache with
        byChannelAccount := [(cacheKey, evaluated)]
        byChannelAccountIndex := [(cacheKey, buildEvaluatedBindingsIndex evaluated)] })
    else (evaluated, { cache with byChannelAccount, byChannelAccountIndex })

def getEvaluatedBindingIndexForChannelAccount (existing : Option EvaluatedBindingsCache) (cfg : OpenClawConfig)
    (channel accountId : Text) : EvaluatedBindingsIndex × EvaluatedBindingsCache :=
  let fetched := getEvaluatedBindingsForChannelAccount lower heap existing cfg channel accountId
  let cacheKey := channelAccountKey channel accountId
  match fetched.2.byChannelAccountIndex.lookup cacheKey with
  | some indexed => (indexed, fetched.2)
  | none =>
    let built := buildEvaluatedBindingsIndex fetched.1
    (built, { fetched.2 with byChannelAccountIndex := assign fetched.2.byChannelAccountIndex cacheKey built })

def resolveRouteCacheForConfig (existing : Option RouteCache) (cfg : OpenClawConfig) : RouteCache :=
  let fresh : RouteCache := ⟨cfg.bindings, cfg.agents, cfg.session, []⟩
  match existing with
  | some existing =>
    if existing.bindingsRef = cfg.bindings ∧ existing.agentsRef = cfg.agents ∧ existing.sessionRef = cfg.session then existing
    else fresh
  | none => fresh

-- ---
-- Matching
-- ---

/-- The input as `resolveAgentRoute` reads it. -/
structure NormalizedInput where
  channel : Text
  accountId : Text
  peer : Option RoutePeer
  parentPeer : Option RoutePeer
  guildId : Text
  teamId : Text
  memberRoleIds : List Text

def normalizePeer (peer : RoutePeer) : RoutePeer := ⟨peer.kind, normalizeId (some peer.id)⟩

def ResolveAgentRouteInput.normalize (input : ResolveAgentRouteInput) (accountId : Text) : NormalizedInput where
  channel := lower.normalizeToken (some input.channel)
  accountId := accountId
  peer := input.peer.map normalizePeer
  parentPeer := input.parentPeer.map normalizePeer
  guildId := normalizeId input.guildId
  teamId := normalizeId input.teamId
  memberRoleIds := input.memberRoleIds.getD []

def DmScope.text : DmScope → Text
  | .main => "main".toList
  | .perPeer => "per-peer".toList
  | .perChannelPeer => "per-channel-peer".toList
  | .perAccountChannelPeer => "per-account-channel-peer".toList

def formatRouteCachePeer (peer : Option RoutePeer) : Text :=
  match peer with
  | none => ['-']
  | some peer => if peer.id = [] then ['-'] else peer.kind.text ++ ':' :: peer.id

def formatRoleIdsCacheKey (roleIds : List Text) : Text :=
  match roleIds with
  | [] => ['-']
  | [roleId] => roleId
  | _ => List.intercalate [','] (DevicePairing.toSorted roleIds)

/-- `text || "-"` -/
def orDash (text : Text) : Text := if text = [] then ['-'] else text

def buildResolvedRouteCacheKey (input : NormalizedInput) (dmScope : DmScope) : Text :=
  List.intercalate ['\t'] [input.channel, input.accountId, formatRouteCachePeer input.peer,
    formatRouteCachePeer input.parentPeer, orDash input.guildId, orDash input.teamId,
    formatRoleIdsCacheKey input.memberRoleIds, dmScope.text]

def peerKindMatches (bindingKind scopeKind : ChatType) : Bool :=
  if bindingKind = scopeKind then true
  else [bindingKind, scopeKind].contains .group && [bindingKind, scopeKind].contains .channel

structure BindingScope where
  peer : Option RoutePeer
  guildId : Text
  teamId : Text
  memberRoleIds : List Text

def matchesBindingScope (candidate : NormalizedBindingMatch) (scope : BindingScope) : Bool :=
  let peerMatches :=
    match candidate.peer, scope.peer with
    | .none, _ => true
    | .invalid, _ => false
    | _, none => false
    | .valid kind id, some peer => peerKindMatches kind peer.kind && peer.id = id
    | .wildcardKind kind, some peer => peerKindMatches kind peer.kind
  peerMatches && candidate.guildId.all (· = scope.guildId) && candidate.teamId.all (· = scope.teamId) &&
    candidate.roles.all fun roles => roles.any fun role => scope.memberRoleIds.contains role

structure Tier where
  matchedBy : MatchedBy
  enabled : Bool
  scopePeer : Option RoutePeer
  candidates : List EvaluatedBinding
  predicate : EvaluatedBinding → Bool

/-- `parentPeer && parentPeer.id` -/
def effectiveParent (parentPeer : Option RoutePeer) : Option RoutePeer := parentPeer.filter (·.id ≠ [])

def NormalizedPeerConstraint.isValid : NormalizedPeerConstraint → Bool
  | .valid _ _ => true
  | _ => false

def NormalizedPeerConstraint.isWildcardKind : NormalizedPeerConstraint → Bool
  | .wildcardKind _ => true
  | _ => false

/-- The candidates under an id, where there is one. -/
def candidatesById (map : List (Text × List EvaluatedBinding)) (id : Text) : List EvaluatedBinding :=
  if id = [] then [] else (map.lookup id).getD []

def tiers (index : EvaluatedBindingsIndex) (input : NormalizedInput) : List Tier :=
  [ { matchedBy := .bindingPeer
      enabled := input.peer.isSome
      scopePeer := input.peer
      candidates := collectPeerIndexedBindings index input.peer
      predicate := fun candidate => candidate.bindingMatch.peer.isValid },
    { matchedBy := .bindingPeerParent
      enabled := (effectiveParent input.parentPeer).isSome
      scopePeer := effectiveParent input.parentPeer
      candidates := collectPeerIndexedBindings index input.parentPeer
      predicate := fun candidate => candidate.bindingMatch.peer.isValid },
    { matchedBy := .bindingPeerWildcard
      enabled := input.peer.isSome
      scopePeer := input.peer
      candidates := index.byPeerWildcard
      predicate := fun candidate => candidate.bindingMatch.peer.isWildcardKind },
    { matchedBy := .bindingGuildRoles
      enabled := input.guildId ≠ [] ∧ 0 < input.memberRoleIds.length
      scopePeer := input.peer
      candidates := candidatesById index.byGuildWithRoles input.guildId
      predicate := fun candidate => candidate.bindingMatch.guildId.isSome && candidate.bindingMatch.roles.isSome },
    { matchedBy := .bindingGuild
      enabled := input.guildId ≠ []
      scopePeer := input.peer
      candidates := candidatesById index.byGuild input.guildId
      predicate := fun candidate => candidate.bindingMatch.guildId.isSome && !candidate.bindingMatch.roles.isSome },
    { matchedBy := .bindingTeam
      enabled := input.teamId ≠ []
      scopePeer := input.peer
      candidates := candidatesById index.byTeam input.teamId
      predicate := fun candidate => candidate.bindingMatch.teamId.isSome },
    { matchedBy := .bindingAccount
      enabled := true
      scopePeer := input.peer
      candidates := index.byAccount
      predicate := fun candidate => candidate.bindingMatch.accountPattern ≠ ['*'] },
    { matchedBy := .bindingChannel
      enabled := true
      scopePeer := input.peer
      candidates := index.byChannel
      predicate := fun candidate => candidate.bindingMatch.accountPattern = ['*'] } ]

/-- The first candidate of a tier that matches. -/
def Tier.matched (tier : Tier) (input : NormalizedInput) : Option EvaluatedBinding :=
  if tier.enabled then
    tier.candidates.find? fun candidate =>
      tier.predicate candidate && matchesBindingScope candidate.bindingMatch
        ⟨tier.scopePeer, input.guildId, input.teamId, input.memberRoleIds⟩
  else none

/-- The agent of the first tier with a match, else the default agent. -/
def matchTiers (index : EvaluatedBindingsIndex) (input : NormalizedInput) (defaultAgentId : Text) : Text × MatchedBy :=
  ((tiers index input).findSome? fun tier => (tier.matched input).map fun matched => (matched.agentId, tier.matchedBy)).getD
    (defaultAgentId, .default)

-- ---
-- Resolving
-- ---

/-- The route that `choose` makes. -/
def chooseRoute (lookup : AgentLookupCache) (session : SessionConfig) (input : NormalizedInput) (agentId : Text)
    (matchedBy : MatchedBy) : ResolvedAgentRoute :=
  let resolvedAgentId := pickFirstExistingAgentId lower lookup agentId
  let sessionKey := lower.toLowerCase (buildAgentSessionKey lower resolvedAgentId input.channel (some input.accountId)
    input.peer (some (session.dmScope.getD .main)) session.identityLinks)
  let mainSessionKey := lower.toLowerCase (buildAgentMainSessionKey lower resolvedAgentId (some DEFAULT_MAIN_KEY))
  { agentId := resolvedAgentId
    channel := input.channel
    accountId := input.accountId
    sessionKey
    mainSessionKey
    lastRoutePolicy := deriveLastRoutePolicy sessionKey mainSessionKey
    matchedBy }

/-- A call: the config as it is, the input, and whether debug output is on. -/
structure RouteCall where
  cfg : OpenClawConfig
  input : ResolveAgentRouteInput
  shouldLogDebug : Bool

/-- The call looks into the route cache. -/
def RouteCall.usesRouteCache (call : RouteCall) : Bool :=
  !call.shouldLogDebug && (heap.session call.cfg.session).identityLinks.isNone

def RouteCall.dmScope (call : RouteCall) : DmScope := (heap.session call.cfg.session).dmScope.getD .main

/-- The route found without a look into the route cache. -/
def resolveUncached (caches : Caches) (cfg : OpenClawConfig) (input : NormalizedInput) : ResolvedAgentRoute × Caches :=
  let fetched := getEvaluatedBindingsForChannelAccount lower heap caches.evaluated cfg input.channel input.accountId
  let indexed := getEvaluatedBindingIndexForChannelAccount lower heap (some fetched.2) cfg input.channel input.accountId
  let chosen := matchTiers indexed.1 input (resolveDefaultAgentId lower (heap.agents cfg.agents))
  let lookup := resolveAgentLookupCache lower heap caches.agentLookup cfg
  (chooseRoute lower lookup (heap.session cfg.session) input chosen.1 chosen.2,
    { caches with agentLookup := some lookup, evaluated := some indexed.2 })

def resolveAgentRoute (caches : Caches) (call : RouteCall) : ResolvedAgentRoute × Caches :=
  let account := lookupAccountId lower caches.accountIds call.input.accountId
  let caches := { caches with accountIds := account.2 }
  let input := call.input.normalize lower account.1
  if call.usesRouteCache heap then
    let routeCache := resolveRouteCacheForConfig caches.routes call.cfg
    let routeCacheKey := buildResolvedRouteCacheKey input (call.dmScope heap)
    match routeCache.byKey.lookup routeCacheKey with
    | some cachedRoute => (cachedRoute, { caches with routes := some routeCache })
    | none =>
      let resolved := resolveUncached lower heap caches call.cfg input
      let byKey := assignBounded MAX_RESOLVED_ROUTE_CACHE_KEYS routeCache.byKey routeCacheKey resolved.1
      (resolved.1, { resolved.2 with routes := some { routeCache with byKey } })
  else resolveUncached lower heap caches call.cfg input

end

end OpenClaw.Routing
