import OpenClaw.Lib.Delimited
import OpenClaw.Lib.MapState
import OpenClaw.Routing.ResolveRoute

/-!
# Caches and routes

What the caches hold is what would be computed: the tables of account ids, agents and
evaluated bindings for every call, and the route cache for the calls whose cache
key tells them apart.
-/

namespace OpenClaw.Routing

open Js Members

variable {lower : LowerCase} {heap : Heap}

-- ---
-- Account ids
-- ---

def AccountIdsSound (lower : LowerCase) (cache : List (Text × Text)) : Prop :=
  Memo.Sound (fun id value => value = normalizeTrimmedAccountId lower id) cache

theorem AccountIdsSound.set (h : AccountIdsSound lower cache) (key : Text) :
    AccountIdsSound lower (setNormalizeCache cache key (normalizeTrimmedAccountId lower key)) := by
  have hset := Memo.Sound.assign h (rfl : normalizeTrimmedAccountId lower key = _)
  unfold setNormalizeCache
  dsimp only
  split
  · exact hset
  · split
    · exact .nil
    case h_2 oldest rest hcache => exact hset.remove oldest.1

theorem lookupAccountId_spec (h : AccountIdsSound lower cache) (value : Option Text) :
    (lookupAccountId lower cache value).1 = normalizeAccountId lower value ∧
      AccountIdsSound lower (lookupAccountId lower cache value).2 := by
  unfold lookupAccountId normalizeAccountId
  dsimp only
  split
  · exact ⟨rfl, h⟩
  · split
    case h_1 cached hcached =>
      obtain ⟨hlookup, -⟩ := Option.filter_eq_some_iff.1 hcached
      exact ⟨h _ _ hlookup, h⟩
    case h_2 => exact ⟨rfl, h.set _⟩

-- ---
-- Agents
-- ---

theorem resolveAgentLookupCache_eq {existing : Option AgentLookupCache}
    (h : ∀ lookup ∈ existing, lookup = buildAgentLookupCache lower heap lookup.agentsRef) (cfg : OpenClawConfig) :
    resolveAgentLookupCache lower heap existing cfg = buildAgentLookupCache lower heap cfg.agents := by
  unfold resolveAgentLookupCache
  split
  case h_1 lookup =>
    split
    case isTrue href => rw [← href, ← h lookup rfl]
    case isFalse => rfl
  case h_2 => rfl

-- ---
-- Bindings
-- ---

/-- What `byChannelAccount` may hold: the bindings of the channel and account in the key. -/
def HeldFor (of : Text → Text → α) (key : Text) (value : α) : Prop :=
  ∀ channel accountId, '\t' ∉ accountId → key = channelAccountKey channel accountId → value = of channel accountId

structure EvaluatedBindingsCache.Sound (lower : LowerCase) (heap : Heap) (cache : EvaluatedBindingsCache) : Prop where
  byChannel : cache.byChannel = buildEvaluatedBindingsByChannel lower (heap.bindings cache.bindingsRef)
  byChannelAccount : Memo.Sound (HeldFor (evaluateBindings cache.byChannel)) cache.byChannelAccount
  byChannelAccountIndex :
    Memo.Sound (HeldFor fun channel accountId => buildEvaluatedBindingsIndex (evaluateBindings cache.byChannel channel accountId))
      cache.byChannelAccountIndex

/-- The key tells channel and account apart, since an account id holds no tab. -/
theorem channelAccountKey_inj (h : '\t' ∉ accountId) (h' : '\t' ∉ accountId')
    (heq : channelAccountKey channel accountId = channelAccountKey channel' accountId') :
    channel = channel' ∧ accountId = accountId' := by
  have hsplit : accountId.reverse ++ '\t' :: channel.reverse = accountId'.reverse ++ '\t' :: channel'.reverse := by
    simpa [channelAccountKey] using congrArg List.reverse heq
  obtain ⟨haccount, hchannel⟩ := Delimited.split (by simpa using h) (by simpa using h') hsplit
  exact ⟨List.reverse_injective hchannel, List.reverse_injective haccount⟩

theorem heldFor_self (of : Text → Text → α) (h : '\t' ∉ accountId) :
    HeldFor of (channelAccountKey channel accountId) (of channel accountId) := by
  intro channel' accountId' h' heq
  obtain ⟨rfl, rfl⟩ := channelAccountKey_inj h h' heq
  rfl

theorem emptyEvaluatedBindingsCache_sound (bindingsRef : Nat) :
    (emptyEvaluatedBindingsCache lower heap bindingsRef).Sound lower heap := ⟨rfl, .nil, .nil⟩

theorem resolveEvaluatedBindingsCache_spec {existing : Option EvaluatedBindingsCache}
    (h : ∀ cache ∈ existing, cache.Sound lower heap) (cfg : OpenClawConfig) :
    (resolveEvaluatedBindingsCache lower heap existing cfg).Sound lower heap ∧
      (resolveEvaluatedBindingsCache lower heap existing cfg).bindingsRef = cfg.bindings := by
  unfold resolveEvaluatedBindingsCache
  split
  case h_1 cache =>
    split
    case isTrue href => exact ⟨h cache rfl, href⟩
    case isFalse => exact ⟨emptyEvaluatedBindingsCache_sound _, rfl⟩
  case h_2 => exact ⟨emptyEvaluatedBindingsCache_sound _, rfl⟩

/-- The bindings of a channel and account in the config. -/
def bindingsFor (lower : LowerCase) (heap : Heap) (cfg : OpenClawConfig) (channel accountId : Text) : List EvaluatedBinding :=
  evaluateBindings (buildEvaluatedBindingsByChannel lower (heap.bindings cfg.bindings)) channel accountId

theorem getEvaluatedBindings_spec {existing : Option EvaluatedBindingsCache}
    (h : ∀ cache ∈ existing, cache.Sound lower heap) (cfg : OpenClawConfig) (channel : Text) (haccount : '\t' ∉ accountId) :
    (getEvaluatedBindingsForChannelAccount lower heap existing cfg channel accountId).1 =
      bindingsFor lower heap cfg channel accountId ∧
    (getEvaluatedBindingsForChannelAccount lower heap existing cfg channel accountId).2.Sound lower heap ∧
    (getEvaluatedBindingsForChannelAccount lower heap existing cfg channel accountId).2.bindingsRef = cfg.bindings := by
  obtain ⟨hsound, href⟩ := resolveEvaluatedBindingsCache_spec h cfg
  have hbindings : evaluateBindings (resolveEvaluatedBindingsCache lower heap existing cfg).byChannel channel accountId =
      bindingsFor lower heap cfg channel accountId := by rw [hsound.byChannel, href]; rfl
  unfold getEvaluatedBindingsForChannelAccount
  dsimp only
  split
  case h_1 hit hlookup => exact ⟨(hsound.byChannelAccount _ _ hlookup _ _ haccount rfl).trans hbindings, hsound, href⟩
  case h_2 =>
    split
    · refine ⟨hbindings, ⟨hsound.byChannel, ?_, ?_⟩, href⟩
      · exact (Memo.Sound.nil (k := Text)).assign (heldFor_self _ haccount)
      · exact (Memo.Sound.nil (k := Text)).assign (heldFor_self _ haccount)
    · refine ⟨hbindings, ⟨hsound.byChannel, ?_, ?_⟩, href⟩
      · exact hsound.byChannelAccount.assign (heldFor_self _ haccount)
      · exact hsound.byChannelAccountIndex.assign (heldFor_self _ haccount)

theorem getEvaluatedBindingIndex_spec {existing : Option EvaluatedBindingsCache}
    (h : ∀ cache ∈ existing, cache.Sound lower heap) (cfg : OpenClawConfig) (channel : Text) (haccount : '\t' ∉ accountId) :
    (getEvaluatedBindingIndexForChannelAccount lower heap existing cfg channel accountId).1 =
      buildEvaluatedBindingsIndex (bindingsFor lower heap cfg channel accountId) ∧
    (getEvaluatedBindingIndexForChannelAccount lower heap existing cfg channel accountId).2.Sound lower heap := by
  obtain ⟨hfetched, hsound, href⟩ := getEvaluatedBindings_spec h cfg channel haccount
  have hbindings : evaluateBindings
      (getEvaluatedBindingsForChannelAccount lower heap existing cfg channel accountId).2.byChannel channel accountId =
      bindingsFor lower heap cfg channel accountId := by rw [hsound.byChannel, href]; rfl
  unfold getEvaluatedBindingIndexForChannelAccount
  dsimp only
  split
  case h_1 indexed hlookup =>
    have hindex := hsound.byChannelAccountIndex _ _ hlookup _ _ haccount rfl
    exact ⟨hindex.trans (congrArg buildEvaluatedBindingsIndex hbindings), hsound⟩
  case h_2 =>
    rw [hfetched]
    refine ⟨rfl, ⟨hsound.byChannel, hsound.byChannelAccount, ?_⟩⟩
    rw [← hbindings]
    exact hsound.byChannelAccountIndex.assign (heldFor_self _ haccount)

-- ---
-- Routes without the route cache
-- ---

/-- The route of an input, by the config alone. -/
def computeRoute (lower : LowerCase) (heap : Heap) (cfg : OpenClawConfig) (input : NormalizedInput) : ResolvedAgentRoute :=
  let index := buildEvaluatedBindingsIndex (bindingsFor lower heap cfg input.channel input.accountId)
  let chosen := matchTiers index input (resolveDefaultAgentId lower (heap.agents cfg.agents))
  chooseRoute lower (buildAgentLookupCache lower heap cfg.agents) (heap.session cfg.session) input chosen.1 chosen.2

/-- Two inputs that a route can not depend on the difference of: a parent peer
without an id is none, and member roles are a set. -/
structure SameInput (input input' : NormalizedInput) : Prop where
  channel : input.channel = input'.channel
  accountId : input.accountId = input'.accountId
  peer : input.peer = input'.peer
  parentPeer : effectiveParent input.parentPeer = effectiveParent input'.parentPeer
  guildId : input.guildId = input'.guildId
  teamId : input.teamId = input'.teamId
  memberRoleIds : ∀ role, role ∈ input.memberRoleIds ↔ role ∈ input'.memberRoleIds

theorem matchesBindingScope_congr (h : ∀ role, role ∈ roles ↔ role ∈ roles') (candidate : NormalizedBindingMatch)
    (peer : Option RoutePeer) (guildId teamId : Text) :
    matchesBindingScope candidate ⟨peer, guildId, teamId, roles⟩ =
      matchesBindingScope candidate ⟨peer, guildId, teamId, roles'⟩ := by
  have hcontains : ∀ role, roles.contains role = roles'.contains role := fun role => by
    rw [Bool.eq_iff_iff, List.contains_iff_mem, List.contains_iff_mem]
    exact h role
  unfold matchesBindingScope
  simp only [hcontains]

theorem Tier.matched_congr (h : SameInput input input') (tier : Tier) : tier.matched input = tier.matched input' := by
  unfold Tier.matched
  simp only [h.guildId, h.teamId, matchesBindingScope_congr h.memberRoleIds]

/-- The tier of the parent peer, which is off for a parent without an id. -/
def parentTier (index : EvaluatedBindingsIndex) (parentPeer : Option RoutePeer) : Tier where
  matchedBy := .bindingPeerParent
  enabled := (effectiveParent parentPeer).isSome
  scopePeer := effectiveParent parentPeer
  candidates := collectPeerIndexedBindings index parentPeer
  predicate := fun candidate => candidate.bindingMatch.peer.isValid

theorem parentTier_matched_congr (h : effectiveParent parentPeer = effectiveParent parentPeer')
    (index : EvaluatedBindingsIndex) (input : NormalizedInput) :
    (parentTier index parentPeer).matched input = (parentTier index parentPeer').matched input := by
  cases hparent : effectiveParent parentPeer with
  | none => simp [parentTier, Tier.matched, ← h, hparent]
  | some peer =>
    obtain ⟨hpeer, -⟩ := Option.filter_eq_some_iff.1 hparent
    obtain ⟨hpeer', -⟩ := Option.filter_eq_some_iff.1 (h ▸ hparent)
    rw [hpeer, hpeer']

theorem matchTiers_congr (h : SameInput input input') (index : EvaluatedBindingsIndex) (defaultAgentId : Text) :
    matchTiers index input defaultAgentId = matchTiers index input' defaultAgentId := by
  have hroles : 0 < input.memberRoleIds.length ↔ 0 < input'.memberRoleIds.length := by
    simp only [List.length_pos_iff_exists_mem, h.memberRoleIds]
  have hparent := parentTier_matched_congr h.parentPeer index input'
  unfold parentTier at hparent
  unfold matchTiers tiers
  simp only [List.findSome?_cons, Tier.matched_congr h, h.peer, h.guildId, h.teamId, hroles, hparent]

theorem computeRoute_congr (h : SameInput input input') (cfg : OpenClawConfig) :
    computeRoute lower heap cfg input = computeRoute lower heap cfg input' := by
  unfold computeRoute chooseRoute
  simp only [matchTiers_congr h, h.channel, h.accountId, h.peer]

-- ---
-- The caches over a run
-- ---

/-- The input of a call as it is read whatever the tables hold. -/
def RouteCall.normalized (lower : LowerCase) (call : RouteCall) : NormalizedInput :=
  call.input.normalize lower (normalizeAccountId lower call.input.accountId)

def RouteCall.cacheKey (lower : LowerCase) (heap : Heap) (call : RouteCall) : Text :=
  buildResolvedRouteCacheKey (call.normalized lower) (call.dmScope heap)

/-- What the route cache of a config may hold: the route of an earlier call with that key. -/
def RoutedBy (lower : LowerCase) (heap : Heap) (past : List RouteCall) (cfg : OpenClawConfig) (key : Text)
    (route : ResolvedAgentRoute) : Prop :=
  ∃ call ∈ past, call.usesRouteCache heap ∧ call.cfg = cfg ∧ call.cacheKey lower heap = key ∧
    route = computeRoute lower heap cfg (call.normalized lower)

def RouteCache.cfg (cache : RouteCache) : OpenClawConfig := ⟨cache.bindingsRef, cache.agentsRef, cache.sessionRef⟩

structure Caches.Sound (lower : LowerCase) (heap : Heap) (past : List RouteCall) (caches : Caches) : Prop where
  accountIds : AccountIdsSound lower caches.accountIds
  agentLookup : ∀ lookup ∈ caches.agentLookup, lookup = buildAgentLookupCache lower heap lookup.agentsRef
  evaluated : ∀ cache ∈ caches.evaluated, cache.Sound lower heap
  routes : ∀ cache ∈ caches.routes, Memo.Sound (RoutedBy lower heap past cache.cfg) cache.byKey

theorem Caches.Sound.empty : Caches.empty.Sound lower heap [] where
  accountIds := .nil
  agentLookup := by simp [Caches.empty]
  evaluated := by simp [Caches.empty]
  routes := by simp [Caches.empty]

theorem RoutedBy.more (h : RoutedBy lower heap past cfg key route) (call : RouteCall) :
    RoutedBy lower heap (past ++ [call]) cfg key route := by
  obtain ⟨earlier, hearlier, h⟩ := h
  exact ⟨earlier, List.mem_append_left _ hearlier, h⟩

theorem Caches.Sound.more (h : Caches.Sound lower heap past caches) (call : RouteCall) :
    Caches.Sound lower heap (past ++ [call]) caches :=
  ⟨h.accountIds, h.agentLookup, h.evaluated,
    fun cache hcache => (h.routes cache hcache).imp fun _ _ hrouted => hrouted.more call⟩

theorem tab_notMem_accountId (value : Option Text) : '\t' ∉ normalizeAccountId lower value := fun h =>
  absurd (isIdChar_normalizeAccountId lower value _ h) (by decide)

theorem resolveUncached_spec (h : Caches.Sound lower heap past caches) (cfg : OpenClawConfig) (input : NormalizedInput)
    (haccount : '\t' ∉ input.accountId) :
    (resolveUncached lower heap caches cfg input).1 = computeRoute lower heap cfg input ∧
      Caches.Sound lower heap past (resolveUncached lower heap caches cfg input).2 ∧
      (resolveUncached lower heap caches cfg input).2.routes = caches.routes := by
  obtain ⟨-, hfetched, -⟩ := getEvaluatedBindings_spec h.evaluated cfg input.channel haccount
  have hexisting : ∀ cache ∈ some (getEvaluatedBindingsForChannelAccount lower heap caches.evaluated cfg input.channel
      input.accountId).2, cache.Sound lower heap := by simpa using hfetched
  obtain ⟨hindex, hindexed⟩ := getEvaluatedBindingIndex_spec hexisting cfg input.channel haccount
  have hlookup := resolveAgentLookupCache_eq h.agentLookup cfg
  unfold resolveUncached
  dsimp only
  refine ⟨?_, ⟨h.accountIds, ?_, by simpa using hindexed, h.routes⟩, rfl⟩
  · rw [hindex, hlookup]
    rfl
  · simp only [hlookup, Option.mem_some_iff]
    rintro _ rfl
    rfl

theorem resolveRouteCache_spec (h : Caches.Sound lower heap past caches) (cfg : OpenClawConfig) :
    Memo.Sound (RoutedBy lower heap past cfg) (resolveRouteCacheForConfig caches.routes cfg).byKey ∧
      (resolveRouteCacheForConfig caches.routes cfg).cfg = cfg := by
  unfold resolveRouteCacheForConfig
  split
  case h_1 cache hcache =>
    split
    case isTrue hrefs =>
      have hcfg : cache.cfg = cfg := by
        obtain ⟨hbindings, hagents, hsession⟩ := hrefs
        simp [RouteCache.cfg, hbindings, hagents, hsession]
      exact ⟨hcfg ▸ h.routes cache hcache, hcfg⟩
    case isFalse => exact ⟨.nil, rfl⟩
  case h_2 => exact ⟨.nil, rfl⟩

/-- Two calls that share an entry of the route cache though their inputs differ. -/
def RouteCall.Confused (lower : LowerCase) (heap : Heap) (earlier later : RouteCall) : Prop :=
  earlier.usesRouteCache heap ∧ later.usesRouteCache heap ∧ earlier.cfg = later.cfg ∧
    earlier.cacheKey lower heap = later.cacheKey lower heap ∧
    ¬ SameInput (earlier.normalized lower) (later.normalized lower)

theorem resolveAgentRoute_spec (h : Caches.Sound lower heap past caches) (call : RouteCall)
    (hclear : ∀ earlier ∈ past, ¬ earlier.Confused lower heap call) :
    (resolveAgentRoute lower heap caches call).1 = computeRoute lower heap call.cfg (call.normalized lower) ∧
      Caches.Sound lower heap (past ++ [call]) (resolveAgentRoute lower heap caches call).2 := by
  obtain ⟨haccount, hids⟩ := lookupAccountId_spec h.accountIds call.input.accountId
  have hinput : call.input.normalize lower (lookupAccountId lower caches.accountIds call.input.accountId).1 =
      call.normalized lower := by rw [haccount]; rfl
  have hcaches : Caches.Sound lower heap past
      { caches with accountIds := (lookupAccountId lower caches.accountIds call.input.accountId).2 } :=
    ⟨hids, h.agentLookup, h.evaluated, h.routes⟩
  obtain ⟨hroute, hresolved, hroutes⟩ :=
    resolveUncached_spec hcaches call.cfg (call.normalized lower) (tab_notMem_accountId call.input.accountId)
  obtain ⟨hbyKey, hcfg⟩ := resolveRouteCache_spec hcaches call.cfg
  unfold resolveAgentRoute
  simp only [hinput]
  split
  case isTrue huses =>
    split
    case h_1 cachedRoute hlookup =>
      obtain ⟨earlier, hearlier, huses', hcfg', hkey, hcached⟩ := hbyKey _ _ hlookup
      have hsame : SameInput (earlier.normalized lower) (call.normalized lower) := by
        by_contra hdiffer
        exact hclear earlier hearlier ⟨huses', huses, hcfg', hkey, hdiffer⟩
      refine ⟨hcached.trans (computeRoute_congr hsame call.cfg), ?_⟩
      have hkept : Caches.Sound lower heap past
          ⟨(lookupAccountId lower caches.accountIds call.input.accountId).2, caches.agentLookup, caches.evaluated,
            some (resolveRouteCacheForConfig caches.routes call.cfg)⟩ :=
        ⟨hids, h.agentLookup, h.evaluated, by simpa [hcfg] using hbyKey⟩
      exact hkept.more call
    case h_2 =>
      refine ⟨hroute, ⟨hresolved.accountIds, hresolved.agentLookup, hresolved.evaluated, ?_⟩⟩
      have hrouted : RoutedBy lower heap (past ++ [call]) call.cfg (call.cacheKey lower heap)
          (computeRoute lower heap call.cfg (call.normalized lower)) :=
        ⟨call, by simp, huses, rfl, rfl, rfl⟩
      have hkept := (hbyKey.imp fun _ _ h => h.more call).assignBounded hrouted MAX_RESOLVED_ROUTE_CACHE_KEYS
      simp only [Option.mem_some_iff]
      rintro _ rfl
      rw [hroute]
      exact hcfg.symm ▸ hkept
  case isFalse => exact ⟨hroute, hresolved.more call⟩

-- ---
-- Runs
-- ---

/-- What the process asks of the module: a route, or the normal form of an account id. -/
inductive RoutingCall where
  | resolveAgentRoute (call : RouteCall)
  | normalizeAccountId (value : Option Text)

inductive RoutingAnswer where
  | route (route : ResolvedAgentRoute)
  | accountId (accountId : Text)
  deriving DecidableEq

def answer (lower : LowerCase) (heap : Heap) (caches : Caches) (call : RoutingCall) : RoutingAnswer × Caches :=
  match call with
  | .resolveAgentRoute call =>
    let resolved := resolveAgentRoute lower heap caches call
    (.route resolved.1, resolved.2)
  | .normalizeAccountId value =>
    let account := lookupAccountId lower caches.accountIds value
    (.accountId account.1, { caches with accountIds := account.2 })

def RoutingCall.route? : RoutingCall → Option RouteCall
  | .resolveAgentRoute call => some call
  | .normalizeAccountId _ => none

/-- No two of the calls share an entry of the route cache with inputs that differ. -/
def Unconfused (lower : LowerCase) (heap : Heap) (calls : List RoutingCall) : Prop :=
  (calls.filterMap RoutingCall.route?).Pairwise fun earlier later => ¬ earlier.Confused lower heap later

/-- The answers of a run that starts with what calls before it left. -/
theorem answers_eq (h : Caches.Sound lower heap past caches) (calls : List RoutingCall)
    (hclear : (past ++ calls.filterMap RoutingCall.route?).Pairwise fun earlier later => ¬ earlier.Confused lower heap later) :
    (mapState (answer lower heap) caches calls).1 = calls.map fun call => (answer lower heap .empty call).1 := by
  induction calls generalizing past caches with
  | nil => rfl
  | cons call calls ih =>
    rw [mapState.cons, List.map_cons]
    cases call with
    | resolveAgentRoute call =>
      have hcons : (RoutingCall.resolveAgentRoute call :: calls).filterMap RoutingCall.route? =
          call :: calls.filterMap RoutingCall.route? := rfl
      rw [hcons, List.append_cons] at hclear
      obtain ⟨hpast, -, -⟩ := List.pairwise_append.1 hclear
      have hcall : ∀ earlier ∈ past, ¬ earlier.Confused lower heap call := fun earlier hearlier =>
        (List.pairwise_append.1 hpast).2.2 earlier hearlier call List.mem_cons_self
      obtain ⟨hroute, hnext⟩ := resolveAgentRoute_spec h call hcall
      obtain ⟨hfresh, -⟩ := resolveAgentRoute_spec (.empty : Caches.Sound lower heap [] .empty) call (by simp)
      refine List.cons_eq_cons.2 ⟨?_, ih hnext hclear⟩
      simp only [answer, hroute, hfresh]
    | normalizeAccountId value =>
      obtain ⟨haccount, hids⟩ := lookupAccountId_spec h.accountIds value
      obtain ⟨hfresh, -⟩ := lookupAccountId_spec (.nil : AccountIdsSound lower []) value
      refine List.cons_eq_cons.2 ⟨?_, ih ⟨hids, h.agentLookup, h.evaluated, h.routes⟩ hclear⟩
      simp only [answer, haccount, Caches.empty, hfresh]

/-- Where no two calls are confused, each answers as it would with empty caches. -/
theorem routeCaches_transparent (lower : LowerCase) (heap : Heap) (calls : List RoutingCall)
    (h : Unconfused lower heap calls) :
    (mapState (answer lower heap) .empty calls).1 = calls.map fun call => (answer lower heap .empty call).1 :=
  answers_eq .empty calls h

/-- A config without bindings, agents or session settings. -/
def bareHeap : Heap := ⟨fun _ => [], fun _ => [], fun _ => ⟨none, none⟩⟩

def callFrom (peer : Option RoutePeer) : RoutingCall := .resolveAgentRoute {
  cfg := ⟨0, 0, 0⟩
  input := ⟨"telegram".toList, none, peer, none, none, none, none⟩
  shouldLogDebug := false }

theorem routeCaches_transparent_sample :
    (mapState (answer .simple bareHeap) .empty
        [callFrom (some ⟨.group, "g1".toList⟩), callFrom none]).1 =
      [callFrom (some ⟨.group, "g1".toList⟩), callFrom none].map fun call => (answer .simple bareHeap .empty call).1 :=
  routeCaches_transparent .simple bareHeap _ (by
    refine List.pairwise_pair.2 ?_
    rintro ⟨-, -, -, hkey, -⟩
    revert hkey
    decide)

/-- A group without an id leaves its route where a call without a peer looks. -/
theorem not_routeCaches_transparent : ¬ ∀ (heap : Heap) (cfg : OpenClawConfig) (calls : List RoutingCall),
    (∀ call ∈ calls.filterMap RoutingCall.route?, call.cfg = cfg) →
    (mapState (answer .simple heap) .empty calls).1 = calls.map fun call => (answer .simple heap .empty call).1 := by
  intro h
  have hanswers := h bareHeap ⟨0, 0, 0⟩ [callFrom (some ⟨.group, []⟩), callFrom none] (by decide)
  exact absurd hanswers (by decide)

end OpenClaw.Routing
